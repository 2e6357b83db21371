import Mathlib.Data.List.Basic
import Mathlib.Data.List.Infix
import Mathlib.Tactic.Ring

/-!
# Big-endian numbers and length prefixes

Fields of a fixed width, and fields that carry their own length in front.  A
concatenation of such fields can be read back in one way only.
-/

namespace BigEndian

/-- The lowest `width` base-256 digits of `n`, most significant first. -/
def encode : ℕ → ℕ → List UInt8
  | 0, _ => []
  | width + 1, n => UInt8.ofNat (n / 256 ^ width) :: encode width n

def decode (bs : List UInt8) : ℕ :=
  bs.foldl (fun acc b ↦ acc * 256 + b.toNat) 0

@[simp] theorem length_encode (width n : ℕ) : (encode width n).length = width := by
  induction width with
  | zero => rfl
  | succ width ih => rw [encode, List.length_cons, ih]

theorem foldl_encode (width n acc : ℕ) :
    (encode width n).foldl (fun acc b ↦ acc * 256 + b.toNat) acc =
      acc * 256 ^ width + n % 256 ^ width := by
  induction width generalizing acc with
  | zero => simp [encode, Nat.mod_one]
  | succ width ih =>
      have hdigit : n % 256 ^ (width + 1) =
          n % 256 ^ width + 256 ^ width * (n / 256 ^ width % 256) := Nat.mod_mul
      rw [encode, List.foldl_cons, ih, UInt8.toNat_ofNat', hdigit]
      ring

theorem decode_encode {width n : ℕ} (h : n < 256 ^ width) : decode (encode width n) = n := by
  rw [decode, foldl_encode, Nat.zero_mul, Nat.zero_add, Nat.mod_eq_of_lt h]

theorem foldl_decode (bs : List UInt8) (acc : ℕ) :
    bs.foldl (fun acc b ↦ acc * 256 + b.toNat) acc = acc * 256 ^ bs.length + decode bs := by
  induction bs generalizing acc with
  | nil => simp [decode]
  | cons b bs ih =>
      rw [decode, List.foldl_cons, List.foldl_cons, ih, ih (0 * 256 + b.toNat), List.length_cons]
      ring

theorem decode_cons (b : UInt8) (bs : List UInt8) :
    decode (b :: bs) = b.toNat * 256 ^ bs.length + decode bs := by
  rw [decode, List.foldl_cons, foldl_decode, Nat.zero_mul, Nat.zero_add]

theorem decode_lt (bs : List UInt8) : decode bs < 256 ^ bs.length := by
  induction bs with
  | nil => simp [decode]
  | cons b bs ih =>
      have hb : b.toNat < 256 := b.toNat_lt
      have hdigit : b.toNat * 256 ^ bs.length + 256 ^ bs.length ≤ 256 * 256 ^ bs.length := by
        have hmul := Nat.mul_le_mul_right (256 ^ bs.length) hb
        rwa [Nat.succ_mul] at hmul
      rw [decode_cons, List.length_cons, Nat.pow_succ']
      omega

theorem encode_add (width d m : ℕ) : encode width (d * 256 ^ width + m) = encode width m := by
  induction width generalizing d with
  | zero => rfl
  | succ width ih =>
      have hsplit : d * 256 ^ (width + 1) + m = d * 256 * 256 ^ width + m := by ring
      rw [encode, encode, hsplit, ih]
      congr 1
      have hpos : 0 < 256 ^ width := Nat.pow_pos (by decide)
      rw [Nat.add_comm, Nat.add_mul_div_right _ _ hpos]
      apply UInt8.toNat_inj.mp
      simp

theorem encode_decode (bs : List UInt8) : encode bs.length (decode bs) = bs := by
  induction bs with
  | nil => rfl
  | cons b bs ih =>
      have hlt := decode_lt bs
      have hpos : 0 < 256 ^ bs.length := Nat.pow_pos (by decide)
      rw [List.length_cons, encode, decode_cons, encode_add, ih, Nat.add_comm,
        Nat.add_mul_div_right _ _ hpos, Nat.div_eq_of_lt hlt, Nat.zero_add, UInt8.ofNat_toNat]

theorem encode_inj {width m n : ℕ} (hm : m < 256 ^ width) (hn : n < 256 ^ width)
    (h : encode width m = encode width n) : m = n := by
  rw [← decode_encode hm, h, decode_encode hn]

/-! ## Fields one after the other -/

/-- A two-byte length, and then the bytes. -/
def lengthPrefixed (bs : List UInt8) : List UInt8 := encode 2 bs.length ++ bs

theorem append_encode_inj {width m n : ℕ} {xs ys : List UInt8} (hm : m < 256 ^ width)
    (hn : n < 256 ^ width) (h : encode width m ++ xs = encode width n ++ ys) :
    m = n ∧ xs = ys := by
  obtain ⟨hfield, hrest⟩ := List.append_inj h (by simp)
  exact ⟨encode_inj hm hn hfield, hrest⟩

theorem lengthPrefixed_append_inj {as bs xs ys : List UInt8} (ha : as.length < 65536)
    (hb : bs.length < 65536) (h : lengthPrefixed as ++ xs = lengthPrefixed bs ++ ys) :
    as = bs ∧ xs = ys := by
  rw [lengthPrefixed, lengthPrefixed, List.append_assoc, List.append_assoc] at h
  obtain ⟨hlength, hrest⟩ := append_encode_inj (by simpa using ha) (by simpa using hb) h
  exact List.append_inj hrest hlength

theorem lengthPrefixed_inj {as bs : List UInt8} (ha : as.length < 65536)
    (hb : bs.length < 65536) (h : lengthPrefixed as = lengthPrefixed bs) : as = bs := by
  apply (@lengthPrefixed_append_inj as bs [] [] ha hb _).1
  rw [h]

end BigEndian
