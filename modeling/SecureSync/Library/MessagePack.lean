import SecureSync.Library.BigEndian

/-!
# The MessagePack format

The heads of its values.  A number is part of the first byte if it is small
enough, and otherwise follows a code for its width.
-/

namespace MessagePack

open BigEndian

/-- The code of the first width that holds the number, and the number in that width. -/
def wide : List (UInt8 × ℕ) → ℕ → List UInt8
  | [], _ => []
  | (code, width) :: codes, n =>
      if n < 256 ^ width then code :: encode width n else wide codes n

def wideSize : List (UInt8 × ℕ) → ℕ → ℕ
  | [], _ => 0
  | (_, width) :: codes, n => if n < 256 ^ width then 1 + width else wideSize codes n

/-- Numbers below `limit` are added to the first byte. -/
structure Head where
  limit : ℕ
  base : ℕ
  codes : List (UInt8 × ℕ)

namespace Head

def bytes (head : Head) (n : ℕ) : List UInt8 :=
  if n < head.limit then [UInt8.ofNat (head.base + n)] else wide head.codes n

def size (head : Head) (n : ℕ) : ℕ := if n < head.limit then 1 else wideSize head.codes n

end Head

def uintHead : Head := ⟨128, 0, [(0xcc, 1), (0xcd, 2), (0xce, 4), (0xcf, 8)]⟩

def strHead : Head := ⟨32, 0xa0, [(0xd9, 1), (0xda, 2), (0xdb, 4)]⟩

def binHead : Head := ⟨0, 0, [(0xc4, 1), (0xc5, 2), (0xc6, 4)]⟩

def arrayHead : Head := ⟨16, 0x90, [(0xdc, 2), (0xdd, 4)]⟩

def mapHead : Head := ⟨16, 0x80, [(0xde, 2), (0xdf, 4)]⟩

/-- Negative numbers are in two's complement. -/
def wideNegative : List (UInt8 × ℕ) → ℤ → List UInt8
  | [], _ => []
  | (code, width) :: codes, z =>
      if -(256 ^ width : ℤ) ≤ 2 * z then code :: encode width (z + 256 ^ width).toNat
      else wideNegative codes z

def wideNegativeSize : List (UInt8 × ℕ) → ℤ → ℕ
  | [], _ => 0
  | (_, width) :: codes, z =>
      if -(256 ^ width : ℤ) ≤ 2 * z then 1 + width else wideNegativeSize codes z

def negativeCodes : List (UInt8 × ℕ) := [(0xd0, 1), (0xd1, 2), (0xd2, 4), (0xd3, 8)]

def packInt (z : ℤ) : List UInt8 :=
  if 0 ≤ z then uintHead.bytes z.toNat
  else if -32 ≤ z then [UInt8.ofNat (z + 256).toNat]
  else wideNegative negativeCodes z

def intSize (z : ℤ) : ℕ :=
  if 0 ≤ z then uintHead.size z.toNat
  else if -32 ≤ z then 1
  else wideNegativeSize negativeCodes z

def strSize (s : String) : ℕ := strHead.size s.utf8ByteSize + s.utf8ByteSize

def binSize (length : ℕ) : ℕ := binHead.size length + length

/-- An array of items of these sizes. -/
def arraySize (sizes : List ℕ) : ℕ := arrayHead.size sizes.length + sizes.sum

def mapSize (sizes : List ℕ) : ℕ := mapHead.size sizes.length + sizes.sum

theorem length_wide (codes : List (UInt8 × ℕ)) (n : ℕ) :
    (wide codes n).length = wideSize codes n := by
  induction codes with
  | nil => rfl
  | cons code codes ih =>
      rw [wide, wideSize]
      split_ifs
      · rw [List.length_cons, length_encode, add_comm]
      · exact ih

theorem Head.length_bytes (head : Head) (n : ℕ) : (head.bytes n).length = head.size n := by
  unfold bytes size
  split_ifs
  · rfl
  · exact length_wide head.codes n

theorem length_wideNegative (codes : List (UInt8 × ℕ)) (z : ℤ) :
    (wideNegative codes z).length = wideNegativeSize codes z := by
  induction codes with
  | nil => rfl
  | cons code codes ih =>
      rw [wideNegative, wideNegativeSize]
      split_ifs
      · rw [List.length_cons, length_encode, add_comm]
      · exact ih

theorem length_packInt (z : ℤ) : (packInt z).length = intSize z := by
  unfold packInt intSize
  split_ifs
  · exact uintHead.length_bytes z.toNat
  · rfl
  · exact length_wideNegative negativeCodes z

end MessagePack
