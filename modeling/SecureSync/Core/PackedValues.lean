import SecureSync.Core.Payload
import SecureSync.Library.MessagePack

/-!
# Packed payloads

The bytes of what `msgpack.packb` makes of a payload, and how many they are.
Payloads of this code have no floats and no extension types.
-/

namespace SecureSync

open MessagePack

namespace PyValue

mutual

def pack : PyValue → Bytes
  | .none => [0xc0]
  | .bool b => [if b then 0xc3 else 0xc2]
  | .int z => packInt z
  | .str s => strHead.bytes s.utf8ByteSize ++ s.toUTF8.data.toList
  | .bytes bs => binHead.bytes bs.length ++ bs
  | .list items => arrayHead.bytes items.length ++ packItems items
  | .dict entries => mapHead.bytes entries.length ++ packEntries entries
  | .float _ | .ext _ _ | .timestamp _ _ => []

def packItems : List PyValue → Bytes
  | [] => []
  | item :: items => item.pack ++ packItems items

def packEntries : List (PyValue × PyValue) → Bytes
  | [] => []
  | (key, value) :: entries => key.pack ++ value.pack ++ packEntries entries

end

mutual

def packedSize : PyValue → ℕ
  | .none | .bool _ => 1
  | .int z => intSize z
  | .str s => strHead.size s.utf8ByteSize + s.utf8ByteSize
  | .bytes bs => binHead.size bs.length + bs.length
  | .list items => arrayHead.size items.length + itemsSize items
  | .dict entries => mapHead.size entries.length + entriesSize entries
  | .float _ | .ext _ _ | .timestamp _ _ => 0

def itemsSize : List PyValue → ℕ
  | [] => 0
  | item :: items => item.packedSize + itemsSize items

def entriesSize : List (PyValue × PyValue) → ℕ
  | [] => 0
  | (key, value) :: entries => key.packedSize + value.packedSize + entriesSize entries

end

mutual

/-- `packb` does not raise: every number and every length fits its widest form. -/
def packable : PyValue → Bool
  | .none | .bool _ => true
  | .int z => -2 ^ 63 ≤ z && z < 2 ^ 64
  | .str s => s.utf8ByteSize < 2 ^ 32
  | .bytes bs => bs.length < 2 ^ 32
  | .list items => items.length < 2 ^ 32 && itemsPackable items
  | .dict entries => entries.length < 2 ^ 32 && entriesPackable entries
  | .float _ | .ext _ _ | .timestamp _ _ => false

def itemsPackable : List PyValue → Bool
  | [] => true
  | item :: items => item.packable && itemsPackable items

def entriesPackable : List (PyValue × PyValue) → Bool
  | [] => true
  | (key, value) :: entries => key.packable && value.packable && entriesPackable entries

end

mutual

theorem length_pack : ∀ value : PyValue, value.pack.length = value.packedSize
  | .none | .bool _ => rfl
  | .int z => length_packInt z
  | .str s => by
      rw [pack, packedSize, List.length_append, Head.length_bytes]
      rfl
  | .bytes bs => by rw [pack, packedSize, List.length_append, Head.length_bytes]
  | .list items => by
      rw [pack, packedSize, List.length_append, Head.length_bytes, length_packItems items]
  | .dict entries => by
      rw [pack, packedSize, List.length_append, Head.length_bytes, length_packEntries entries]
  | .float _ | .ext _ _ | .timestamp _ _ => rfl

theorem length_packItems : ∀ items, (packItems items).length = itemsSize items
  | [] => rfl
  | item :: items => by
      rw [packItems, itemsSize, List.length_append, length_pack item, length_packItems items]

theorem length_packEntries : ∀ entries, (packEntries entries).length = entriesSize entries
  | [] => rfl
  | (key, value) :: entries => by
      rw [packEntries, entriesSize, List.length_append, List.length_append, length_pack key,
        length_pack value, length_packEntries entries]

end

theorem packedSize_list (items : List PyValue) :
    (list items).packedSize = arraySize (items.map packedSize) := by
  have hsum : ∀ items, itemsSize items = (items.map packedSize).sum := by
    intro items
    induction items with
    | nil => rfl
    | cons item items ih => rw [itemsSize, ih, List.map_cons, List.sum_cons]
  rw [packedSize, hsum, arraySize, List.length_map]

theorem packedSize_dict (entries : List (PyValue × PyValue)) :
    (dict entries).packedSize =
      mapSize (entries.map fun entry ↦ entry.1.packedSize + entry.2.packedSize) := by
  have hsum : ∀ entries, entriesSize entries =
      (entries.map fun entry ↦ entry.1.packedSize + entry.2.packedSize).sum := by
    intro entries
    induction entries with
    | nil => rfl
    | cons entry entries ih => rw [entriesSize, ih, List.map_cons, List.sum_cons]
  rw [packedSize, hsum, mapSize, List.length_map]

end PyValue
end SecureSync
