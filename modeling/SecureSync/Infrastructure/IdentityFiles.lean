import SecureSync.Infrastructure.X25519Handshake
import SecureSync.Library.TornWrites

/-!
# The identity on disk

`ed25519_identity_provider.py`: the two files of `Ed25519IdentityProvider`, and calls of
`load_or_create` that a crash may cut short.
-/

namespace SecureSync

open TornWrites

/-- `Ed25519PrivateKey`, on raw bytes. -/
structure Ed25519 where
  /-- The public key, where `from_private_bytes` does not raise. -/
  publicKeyOf : Bytes → Option Bytes
  privateKey_length : ∀ {privateKey publicKey : Bytes},
    publicKeyOf privateKey = some publicKey → privateKey.length = 32
  publicKey_length : ∀ {privateKey publicKey : Bytes},
    publicKeyOf privateKey = some publicKey → publicKey.length = 32

/-- The keypair that a call would generate. -/
structure Ed25519.Generated (ed25519 : Ed25519) extends IdentityKeyPair where
  publicKey_eq : ed25519.publicKeyOf privateKey = some publicKey

/-- `identity.private` and `identity.public`. -/
inductive IdentityFile where
  | privateKey
  | publicKey
  deriving DecidableEq, Repr

abbrev IdentityFiles := Files IdentityFile UInt8

/-- The writes of `_persist`, one after the other. -/
def IdentityKeyPair.persist (keypair : IdentityKeyPair) : List (IdentityFile × Bytes) :=
  [(.privateKey, keypair.privateKey), (.publicKey, keypair.publicKey)]

/-- A call of `load_or_create`; one that is cut short returns nothing, and leaves so much of
each write that it has begun.  Without `fsync` that may be less than all of a write that was
done. -/
structure IdentityCall (ed25519 : Ed25519) where
  generated : ed25519.Generated
  cut : Option (List ℕ)

variable {ed25519 : Ed25519}

def loadOrCreate (files : IdentityFiles) (call : IdentityCall ed25519) :
    Option IdentityKeyPair × IdentityFiles :=
  match files .privateKey, files .publicKey with
  | some privateKey, some publicKey =>
      (if call.cut = none then some ⟨privateKey, publicKey⟩ else none, files)
  | _, _ =>
      let keypair := call.generated.toIdentityKeyPair
      match call.cut with
      | none => (some keypair, writeAll files keypair.persist)
      | some kept => (none, cutShort files keypair.persist kept)

end SecureSync
