import SecureSync.Domain.Chunk
import SecureSync.Library.BigEndian
import SecureSync.Library.Raising

/-!
# Length-prefixed messages

`message_io.py`: a reader refuses a message by its length prefix, before it waits
for the body.
-/

namespace SecureSync

open BigEndian Raising

def lengthPrefixSize : ℕ := 4

def maxHandshakeMessageSize : ℕ := 64 * 1024

def maxMessageSize : ℕ := 128 * 1024 * 1024

inductive MessageReadError where
  | oversized (length maxSize : ℕ)
  | timeout
  | incomplete
  deriving DecidableEq, Repr

/-- What a connection has in store; after it, the peer has closed it or stalls. -/
structure Stream where
  bytes : Bytes
  closed : Bool
  deriving DecidableEq

def readExactly (size : ℕ) : EStateM MessageReadError Stream Bytes := fun stream ↦
  if size ≤ stream.bytes.length then
    .ok (stream.bytes.take size) { stream with bytes := stream.bytes.drop size }
  else if stream.closed then .error .incomplete { stream with bytes := [] }
  else .error .timeout stream

def checkSize (length maxSize : ℕ) : Except MessageReadError Unit :=
  require (length ≤ maxSize) (.oversized length maxSize)

def readLengthPrefixed (maxSize : ℕ) : EStateM MessageReadError Stream Bytes := do
  let header ← readExactly lengthPrefixSize
  orRaise id (checkSize (decode header) maxSize)
  readExactly (decode header)

/-- What a message is written as; `struct.pack` raises where its length does not
fit the prefix. -/
def writeMessage? (message : Bytes) : Option Bytes :=
  if message.length < 2 ^ 32 then some (encode lengthPrefixSize message.length ++ message) else none

theorem readExactly_append {size : ℕ} {bs rest : Bytes} (closed : Bool) (h : bs.length = size) :
    readExactly size ⟨bs ++ rest, closed⟩ = .ok bs ⟨rest, closed⟩ := by
  have hle : size ≤ (bs ++ rest).length := by
    rw [List.length_append]
    omega
  rw [readExactly, if_pos hle, ← h, List.take_left, List.drop_left]

theorem readExactly_eq_ok {size : ℕ} {bs : Bytes} {stream stream' : Stream} :
    readExactly size stream = .ok bs stream' ↔
      bs.length = size ∧ stream = ⟨bs ++ stream'.bytes, stream'.closed⟩ := by
  constructor
  · intro h
    unfold readExactly at h
    split_ifs at h with hsize
    cases h
    exact ⟨List.length_take_of_le hsize, by rw [List.take_append_drop]⟩
  · rintro ⟨hlength, rfl⟩
    exact readExactly_append _ hlength

theorem length_le_of_readLengthPrefixed {maxSize : ℕ} {message : Bytes} {stream stream' : Stream}
    (h : readLengthPrefixed maxSize stream = .ok message stream') : message.length ≤ maxSize := by
  simp only [readLengthPrefixed, bind_eq_ok, orRaise_eq_ok, checkSize, require_eq_ok] at h
  obtain ⟨header, u, -, _, v, ⟨hle, -⟩, hbody⟩ := h
  rw [(readExactly_eq_ok.mp hbody).1]
  exact hle

/-- A message is delivered if and only if it does not exceed the limit. -/
theorem readLengthPrefixed_write {maxSize : ℕ} {message frame rest : Bytes} {closed : Bool}
    (h : writeMessage? message = some frame) :
    readLengthPrefixed maxSize ⟨frame ++ rest, closed⟩ = .ok message ⟨rest, closed⟩ ↔
      message.length ≤ maxSize := by
  unfold writeMessage? at h
  split_ifs at h with hlength
  obtain rfl := Option.some.inj h
  have hheader : readExactly lengthPrefixSize
      ⟨encode lengthPrefixSize message.length ++ message ++ rest, closed⟩ =
        .ok (encode lengthPrefixSize message.length) ⟨message ++ rest, closed⟩ := by
    rw [List.append_assoc]
    exact readExactly_append _ (length_encode _ _)
  have hdecode : decode (encode lengthPrefixSize message.length) = message.length :=
    decode_encode hlength
  simp only [readLengthPrefixed, bind_eq_ok, hheader, orRaise_eq_ok, checkSize, require_eq_ok]
  constructor
  · rintro ⟨_, _, heq, _, _, ⟨hle, -⟩, -⟩
    cases heq
    rwa [hdecode] at hle
  · intro hle
    rw [← hdecode] at hle
    refine ⟨_, _, rfl, (), _, ⟨hle, rfl⟩, ?_⟩
    rw [hdecode]
    exact readExactly_append _ rfl

end SecureSync
