import SecureSync.Infrastructure.HandshakeMessages
import SecureSync.Library.JsonTexts
import SecureSync.Library.KeyedTable
import SecureSync.Library.Machines
import SecureSync.Library.TornWrites

/-!
# Trusted peers on disk

`FileTrustedPeerRepository` of `file_trusted_peer_repository.py`: one document for the whole
store, which every `trust` reads and writes anew.  The lock makes the calls of one process
follow each other; an error or a crash may cut a call short anywhere.
-/

namespace SecureSync

open KeyedTable TornWrites

abbrev TrustFiles := Files FilePath UInt8

/-- `dict[str, str]`, in the order of the document. -/
abbrev TrustedKeys := Table (Prod.fst : String × String → String)

structure FileTrustedPeerRepository where
  directory : FilePath
  name : String
  deriving DecidableEq, Repr

inductive TrustError where
  | os
  | unicode
  | json
  | hex
  deriving DecidableEq, Repr

/-- Where `_save` stands when it is cut short. -/
inductive SavePoint where
  | opening
  | writing (count : ℕ)
  | synced
  deriving DecidableEq, Repr

/-- How `_save` ends.  An error of `unlink` is suppressed. -/
inductive SaveEnd where
  | completes
  | mkdirRaises
  | raises (point : SavePoint) (unlinks : Bool)
  | crashes (point : SavePoint)
  | crashesAfterReplace
  deriving DecidableEq, Repr

inductive TrustAnswer where
  | key (publicKey : Option Bytes)
  | trusted
  | raised (error : TrustError)
  | crashed
  deriving DecidableEq, Repr

/-- What its caller gets of it. -/
def SaveEnd.answer : SaveEnd → TrustAnswer
  | completes => .trusted
  | mkdirRaises | raises _ _ => .raised .os
  | crashes _ | crashesAfterReplace => .crashed

/-- The document has been replaced. -/
def SaveEnd.replaces : SaveEnd → Bool
  | completes | crashesAfterReplace => true
  | _ => false

inductive TrustCall where
  | getTrustedKey (deviceId : DeviceId) (readRaises : Bool)
  | trust (deviceId : DeviceId) (publicKey : Bytes) (readRaises : Bool) (saveEnd : SaveEnd)
  deriving DecidableEq, Repr

namespace FileTrustedPeerRepository

variable (repository : FileTrustedPeerRepository)

def storagePath : FilePath := repository.directory ++ [repository.name]

def tmpPath : FilePath := repository.directory ++ ["." ++ repository.name ++ ".tmp"]

/-! ## The document -/

/-- `json.dumps(store, indent=2, sort_keys=True)`. -/
def document (store : TrustedKeys) : Bytes :=
  utf8 (String.ofList (JsonTexts.dumps (store.items.mergeSort fun a b ↦ a.1 ≤ b.1)))

/-- A key that comes twice has its last value. -/
def storeOf (entries : List (String × String)) : TrustedKeys := entries.foldl Table.set .empty

def parse (content : Bytes) : Except TrustError TrustedKeys :=
  match String.fromUTF8? ⟨content.toArray⟩ with
  | none => .error .unicode
  | some text =>
      match JsonTexts.loads text.toList with
      | none => .error .json
      | some entries => .ok (storeOf entries)

/-- `_load`; an operating-system error may come with any access. -/
def load (files : TrustFiles) (readRaises : Bool) : Except TrustError TrustedKeys :=
  if readRaises then .error .os
  else
    match files repository.storagePath with
    | none => .ok .empty
    | some content => parse content

/-! ## Saving -/

/-- What is there of the temporary file. -/
def leaves (files : TrustFiles) (payload : Bytes) : SavePoint → TrustFiles
  | .opening => files
  | .writing count => Function.update files repository.tmpPath (some (payload.take count))
  | .synced => Function.update files repository.tmpPath (some payload)

def replaced (files : TrustFiles) (payload : Bytes) : TrustFiles :=
  Function.update (Function.update files repository.tmpPath none) repository.storagePath
    (some payload)

/-- The files that `_save` leaves. -/
def save (files : TrustFiles) (payload : Bytes) : SaveEnd → TrustFiles
  | .completes | .crashesAfterReplace => repository.replaced files payload
  | .mkdirRaises => files
  | .raises point unlinks =>
      let left := repository.leaves files payload point
      if unlinks then Function.update left repository.tmpPath none else left
  | .crashes point => repository.leaves files payload point

/-! ## Calls -/

def getTrustedKey (files : TrustFiles) (deviceId : DeviceId) (readRaises : Bool) : TrustAnswer :=
  match repository.load files readRaises with
  | .error e => .raised e
  | .ok store =>
      match store.find? deviceId with
      | none => .key none
      | some (_, hexKey) =>
          match JsonTexts.fromHex? hexKey.toList with
          | none => .raised .hex
          | some publicKey => .key (some publicKey)

def trust (files : TrustFiles) (deviceId : DeviceId) (publicKey : Bytes) (readRaises : Bool)
    (saveEnd : SaveEnd) : TrustAnswer × TrustFiles :=
  match repository.load files readRaises with
  | .error e => (.raised e, files)
  | .ok store =>
      let store := store.set (deviceId, String.ofList (JsonTexts.hex publicKey))
      (saveEnd.answer, repository.save files (document store) saveEnd)

def step (files : TrustFiles) : TrustCall → TrustAnswer × TrustFiles
  | .getTrustedKey deviceId readRaises =>
      (repository.getTrustedKey files deviceId readRaises, files)
  | .trust deviceId publicKey readRaises saveEnd =>
      repository.trust files deviceId publicKey readRaises saveEnd

end FileTrustedPeerRepository

end SecureSync
