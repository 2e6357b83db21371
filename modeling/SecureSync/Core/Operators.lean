import SecureSync.Core.Payload
import Mathlib.Data.Finset.Sort
import Mathlib.Data.String.Basic

/-!
# Operators on decoded values

The built-in comparisons, and `json.dumps` with the reading back, of values whose types a peer
has chosen.  `none` stands for a `TypeError`.
-/

namespace SecureSync

namespace PyFloat

/-- The numbers are compared by their value, and nothing with a NaN. -/
def eq : PyFloat → PyFloat → Bool
  | .finite x, .finite y => x = y
  | .infinite a, .infinite b => a = b
  | _, _ => false

/-- `x > y`. -/
def gt : PyFloat → PyFloat → Bool
  | .finite x, .finite y => y < x
  | .finite _, .infinite negative => negative
  | .infinite negative, .finite _ => !negative
  | .infinite a, .infinite b => !a && b
  | _, _ => false

/-- `x + 1`. -/
def succ : PyFloat → PyFloat
  | .finite x => .finite (x + 1)
  | x => x

end PyFloat

namespace PyValue

/-- The value as a number; booleans are integers. -/
def number? : PyValue → Option PyFloat
  | .bool b => some (.finite (if b then 1 else 0))
  | .int n => some (.finite n)
  | .float x => some x
  | _ => Option.none

mutual

/-- `a == b`. -/
def eq : PyValue → PyValue → Bool
  | .none, .none => true
  | .str a, .str b => a = b
  | .bytes a, .bytes b => a = b
  | .list a, .list b => eqItems a b
  | .dict a, .dict b => a.length = b.length && subEntries a b
  | .ext a as, .ext b bs => a = b && as = bs
  | .timestamp a as, .timestamp b bs => a = b && as = bs
  | a, b =>
      match a.number?, b.number? with
      | some x, some y => x.eq y
      | _, _ => false

def eqItems : List PyValue → List PyValue → Bool
  | [], [] => true
  | a :: as, b :: bs => a.eq b && eqItems as bs
  | _, _ => false

def subEntries : List (PyValue × PyValue) → List (PyValue × PyValue) → Bool
  | [], _ => true
  | (key, value) :: entries, other =>
      (other.any fun entry ↦ key.eq entry.1 && value.eq entry.2) && subEntries entries other

end

mutual

/-- `a > b`. -/
def gt? : PyValue → PyValue → Option Bool
  | .str a, .str b => some (b < a)
  | .bytes a, .bytes b => some (b < a)
  | .list a, .list b => gtItems? a b
  | .ext a as, .ext b bs => some (if a = b then bs < as else b < a)
  | a, b =>
      match a.number?, b.number? with
      | some x, some y => some (x.gt y)
      | _, _ => Option.none

/-- The first items that differ decide. -/
def gtItems? : List PyValue → List PyValue → Option Bool
  | [], _ => some false
  | _ :: _, [] => some true
  | a :: as, b :: bs => if a.eq b then gtItems? as bs else a.gt? b

end

/-- `max(a, b)`. -/
def max? (a b : PyValue) : Option PyValue := (b.gt? a).map fun greater ↦ if greater then b else a

/-- `a + 1`. -/
def succ? : PyValue → Option PyValue
  | .bool b => some (.int (if b then 2 else 1))
  | .int n => some (.int (n + 1))
  | .float x => some (.float x.succ)
  | _ => Option.none

end PyValue

/-! ## Dictionaries -/

namespace PyDict

def lookup? (entries : PyDict) (key : PyValue) : Option PyValue :=
  (entries.find? fun entry ↦ entry.1.eq key).map Prod.snd

/-- `entries[key] = value`: a key that is there stays where it is. -/
def set (entries : PyDict) (key value : PyValue) : PyDict :=
  if entries.any fun entry ↦ entry.1.eq key then
    entries.map fun entry ↦ if entry.1.eq key then (entry.1, value) else entry
  else entries ++ [(key, value)]

/-- `dict(pairs)`: of several entries with one key the last is left. -/
def ofPairs (pairs : List (PyValue × PyValue)) : PyDict :=
  pairs.foldl (fun entries pair ↦ entries.set pair.1 pair.2) []

/-- `VersionVector.merge`, on counters of any type. -/
def merge? (counters other : PyDict) : Option PyDict :=
  other.foldlM (fun merged entry ↦ do
    let greatest ← ((merged.lookup? entry.1).getD (.int 0)).max? entry.2
    return merged.set entry.1 greatest) counters

/-- `VersionVector.increment`. -/
def increment? (counters : PyDict) (deviceId : DeviceId) : Option PyDict :=
  (((counters.lookup? (.str deviceId)).getD (.int 0)).succ?).map (counters.set (.str deviceId))

/-- The counters of a vector of the declared types, by device id. -/
def ofVector (version : VersionVector) : PyDict :=
  (version.counters.keys.sort).map fun deviceId ↦
    (.str deviceId, .int (version.get deviceId))

end PyDict

/-! ## JSON -/

namespace PyValue

variable (builtins : Builtins)

/-- The text of a key of a dictionary. -/
def jsonKey? : PyValue → Option String
  | .str s => some s
  | .int n => some (toString n)
  | .bool b => some (if b then "true" else "false")
  | .none => some "null"
  | .float .nan => some "NaN"
  | .float (.infinite negative) => some (if negative then "-Infinity" else "Infinity")
  | .float (.finite x) => some (builtins.str (.float (.finite x)))
  | .bytes _ | .list _ | .dict _ | .ext _ _ | .timestamp _ _ => Option.none

mutual

/-- `json.loads(json.dumps(value))`. -/
def throughJson? : PyValue → Option PyValue
  | .none => some .none
  | .bool b => some (.bool b)
  | .int n => some (.int n)
  | .float x => some (.float x)
  | .str s => some (.str s)
  | .list items => (itemsThroughJson? items).map .list
  | .dict entries => (entriesThroughJson? entries).map fun entries ↦ .dict (PyDict.ofPairs entries)
  | .bytes _ | .ext _ _ | .timestamp _ _ => Option.none

def itemsThroughJson? : List PyValue → Option (List PyValue)
  | [] => some []
  | item :: items => do
      let item ← item.throughJson?
      let items ← itemsThroughJson? items
      return item :: items

def entriesThroughJson? : List (PyValue × PyValue) → Option (List (PyValue × PyValue))
  | [] => some []
  | (key, value) :: entries => do
      let key ← key.jsonKey? builtins
      let value ← value.throughJson?
      let entries ← entriesThroughJson? entries
      return (.str key, value) :: entries

end

end PyValue

/-- What is read back of counters that are written. -/
def PyDict.throughJson? (builtins : Builtins) (counters : PyDict) : Option PyDict :=
  (PyValue.entriesThroughJson? builtins counters).map PyDict.ofPairs

end SecureSync
