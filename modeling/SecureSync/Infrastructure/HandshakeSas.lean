import SecureSync.Infrastructure.HandshakeKeys
import SecureSync.Library.DecimalText

/-!
# Short authentication strings

`handshake_sas.py`.  What two users compare: some words, or some digits, that render a hash of
the final transcript.
-/

namespace SecureSync

open BigEndian DecimalText Raising

def wordlistSize : ℕ := 2048

def bitsPerWord : ℕ := 11

def defaultWordCount : ℤ := 4

def maxWordCount : ℤ := 8

/-- `DIGIT_COUNT`, the default. -/
def defaultDigitCount : ℤ := 8

def maxDigitCount : ℤ := 12

def sasLabel : Bytes := utf8 "securesync-1e-sas"

inductive SasError where
  | transcript (size actual : ℕ)
  | wordCount (bound count : ℤ)
  | wordlist (size actual : ℕ)
  | materialBits (bits : ℕ) (needed count : ℤ)
  | digitCount (bound count : ℤ)
  | emptyMaterial
  | noWords
  deriving DecidableEq, Repr

/-- What may be raised while words are rendered: `SasError`, and the errors of Python itself for
a shift by a negative number and for an index past the end. -/
inductive SasWordsError where
  | sas (error : SasError)
  | negativeShift
  | indexOutOfRange
  deriving DecidableEq, Repr

def sasMaterial (sha256 : Sha256) (transcriptFinal : Bytes) : Except SasError Bytes := do
  require (transcriptFinal.length = transcriptSize)
    (.transcript transcriptSize transcriptFinal.length)
  return sha256 (transcriptLabel ++ lengthPrefixed sasLabel ++ transcriptFinal)

def checkWordCount (count : ℤ) : Except SasError Unit :=
  require (1 ≤ count ∧ count ≤ maxWordCount) (.wordCount maxWordCount count)

def entropyBits (count : ℤ) : Except SasError ℤ := do
  checkWordCount count
  return count * bitsPerWord

example : entropyBits defaultWordCount = .ok 44 := rfl

/-- Python's `>>`. -/
def shiftedRight (value : ℕ) : ℤ → Except SasWordsError ℕ
  | .ofNat shift => .ok (value >>> shift)
  | .negSucc _ => .error .negativeShift

def wordIndex (material : Bytes) (index : ℕ) : Except SasWordsError ℕ := do
  let totalBits := material.length * 8
  let shifted ← shiftedRight (decode material) (totalBits - bitsPerWord * (index + 1))
  return shifted &&& (wordlistSize - 1)

def wordAt (wordlist : List String) (number : ℕ) : Except SasWordsError String :=
  match wordlist[number]? with
  | some word => .ok word
  | none => .error .indexOutOfRange

def sasWords (material : Bytes) (count : ℤ) (wordlist : List String) :
    Except SasWordsError (List String) := do
  (checkWordCount count).mapError .sas
  require (wordlist.length = wordlistSize) (.sas (.wordlist wordlistSize wordlist.length))
  let neededBits := count * bitsPerWord
  require (neededBits ≤ material.length * 8)
    (.sas (.materialBits (material.length * 8) neededBits count))
  (List.range count.toNat).mapM fun index ↦ do
    let number ← wordIndex material index
    wordAt wordlist number

def sasDigits (material : Bytes) (count : ℤ) : Except SasError String := do
  require (1 ≤ count ∧ count ≤ maxDigitCount) (.digitCount maxDigitCount count)
  require (material ≠ []) .emptyMaterial
  return String.ofList (zfill count.toNat (natText (decode material % 10 ^ count.toNat)))

def formatSas (words : List String) (separator : String) : Except SasError String := do
  require (words ≠ []) .noWords
  return separator.intercalate words

/-! ## What the renderings are made of -/

theorem checkWordCount_eq_ok {count : ℤ} {u : Unit} :
    checkWordCount count = .ok u ↔ 1 ≤ count ∧ count ≤ maxWordCount :=
  require_eq_ok

end SecureSync
