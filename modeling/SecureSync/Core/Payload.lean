import SecureSync.Domain.Chunk
import SecureSync.Domain.Conflict
import Mathlib.Data.Rat.Floor

/-!
# Payloads as they are decoded

What `msgpack.unpackb` hands to the code, and the conversions that the code
applies to it.  A peer chooses the type of every field.
-/

namespace SecureSync

inductive PyFloat where
  | finite (x : ℚ)
  | infinite (negative : Bool)
  | nan
  deriving DecidableEq

inductive PyValue where
  | none
  | bool (b : Bool)
  | int (n : ℤ)
  | float (x : PyFloat)
  | str (s : String)
  | bytes (bs : Bytes)
  | list (items : List PyValue)
  | dict (entries : List (PyValue × PyValue))
  | ext (code : ℤ) (data : Bytes)
  | timestamp (seconds nanoseconds : ℤ)

abbrev PyDict := List (PyValue × PyValue)

/-- The exceptions of the conversions. -/
inductive PayloadError where
  | attribute
  | key (name : String)
  | type
  | value
  | overflow
  | chunk (error : ChunkValueError)
  deriving DecidableEq, Repr

namespace PyValue

def isName (name : String) : PyValue → Bool
  | .str s => s = name
  | _ => false

def size : PyValue → Except PayloadError ℕ
  | .str s => .ok s.length
  | .bytes bs => .ok bs.length
  | .list items => .ok items.length
  | .dict entries => .ok entries.length
  | .ext _ _ => .ok 2
  | .none | .bool _ | .int _ | .float _ | .timestamp _ _ => .error .type

/-- What a loop over the value goes through. -/
def elements : PyValue → Except PayloadError (List PyValue)
  | .str s => .ok (s.toList.map fun c ↦ .str (String.singleton c))
  | .bytes bs => .ok (bs.map fun b ↦ .int b.toNat)
  | .list items => .ok items
  | .dict entries => .ok (entries.map Prod.fst)
  | .ext code data => .ok [.int code, .bytes data]
  | .none | .bool _ | .int _ | .float _ | .timestamp _ _ => .error .type

def hashable : PyValue → Bool
  | .list _ | .dict _ => false
  | _ => true

/-- An element of a sequence that is made a `dict`. -/
def toPair (value : PyValue) : Except PayloadError (PyValue × PyValue) := do
  match ← value.elements with
  | [key, value] => if key.hashable then return (key, value) else throw .type
  | _ => throw .value

/-- `dict(value)`. -/
def toDict : PyValue → Except PayloadError PyDict
  | .dict entries => .ok entries
  | value => do
      let elements ← value.elements
      elements.mapM toPair

end PyValue

namespace PyDict

/-- `payload.get(name)`. -/
def get? (entries : PyDict) (name : String) : Option PyValue :=
  (entries.find? fun entry ↦ entry.1.isName name).map Prod.snd

/-- `payload.get(name)` where it is not `None`. -/
def given? (entries : PyDict) (name : String) : Option PyValue :=
  match get? entries name with
  | none | some .none => none
  | some value => some value

/-- `payload[name]`. -/
def getItem (entries : PyDict) (name : String) : Except PayloadError PyValue :=
  match get? entries name with
  | none => .error (.key name)
  | some value => .ok value

/-- One entry of a vector whose entries have their declared types. -/
def counterOf : PyValue × PyValue → Option (DeviceId × ℤ)
  | (.str deviceId, .int counter) => some (deviceId, counter)
  | (.str deviceId, .bool counter) => some (deviceId, if counter then 1 else 0)
  | _ => none

/-- The vector, when all entries are of the declared types. -/
def vector? (entries : PyDict) : Option VersionVector :=
  (entries.mapM counterOf).map fun counters ↦
    ⟨counters.foldl (fun acc entry ↦ acc.insert entry.1 entry.2) ∅⟩

theorem getItem_eq_ok {entries : PyDict} {name : String} {value : PyValue} :
    getItem entries name = .ok value ↔ get? entries name = some value := by
  unfold getItem
  cases get? entries name <;> simp

end PyDict

/-- The builtins on text.  Nothing is assumed of them but that `str` keeps a
string as it is. -/
structure Builtins where
  str : PyValue → String
  parseInt : String → Option ℤ
  parseIntBytes : Bytes → Option ℤ
  str_str : ∀ s, str (.str s) = s

/-- `int(value)`. -/
def Builtins.int (builtins : Builtins) : PyValue → Except PayloadError ℤ
  | .int n => .ok n
  | .bool b => .ok (if b then 1 else 0)
  | .float (.finite x) => .ok (if x < 0 then ⌈x⌉ else ⌊x⌋)
  | .float (.infinite _) => .error .overflow
  | .float .nan => .error .value
  | .str s => (builtins.parseInt s).elim (.error .value) .ok
  | .bytes bs => (builtins.parseIntBytes bs).elim (.error .value) .ok
  | .none | .list _ | .dict _ | .ext _ _ | .timestamp _ _ => .error .type

end SecureSync
