import SecureSync.Library.BigEndian

/-!
# Bit strings

Numbers and bytes as lists of bits, most significant first.  A shift keeps the first bits, a
mask keeps the last ones, and both together cut a piece out.
-/

namespace BitStrings

def ofBits (bits : List Bool) : ℕ := bits.foldl (fun acc b ↦ acc * 2 + b.toNat) 0

/-- The lowest `width` bits of `n`. -/
def toBits : ℕ → ℕ → List Bool
  | 0, _ => []
  | width + 1, n => n.testBit width :: toBits width n

def ofBytes (bytes : List UInt8) : List Bool := bytes.flatMap fun b ↦ toBits 8 b.toNat

theorem foldl_bits (bits : List Bool) (acc : ℕ) :
    bits.foldl (fun acc b ↦ acc * 2 + b.toNat) acc = acc * 2 ^ bits.length + ofBits bits := by
  induction bits generalizing acc with
  | nil => simp [ofBits]
  | cons b bits ih =>
      rw [ofBits, List.foldl_cons, List.foldl_cons, ih, ih (0 * 2 + b.toNat), List.length_cons]
      ring

theorem ofBits_cons (b : Bool) (bits : List Bool) :
    ofBits (b :: bits) = b.toNat * 2 ^ bits.length + ofBits bits := by
  rw [ofBits, List.foldl_cons, foldl_bits, Nat.zero_mul, Nat.zero_add]

theorem ofBits_append (bits bits' : List Bool) :
    ofBits (bits ++ bits') = ofBits bits * 2 ^ bits'.length + ofBits bits' := by
  rw [ofBits, List.foldl_append, ← ofBits, foldl_bits]

theorem ofBits_lt (bits : List Bool) : ofBits bits < 2 ^ bits.length := by
  induction bits with
  | nil => exact Nat.one_pos
  | cons b bits ih =>
      have hb := Nat.mul_le_mul_right (2 ^ bits.length) b.toNat_le
      rw [ofBits_cons, List.length_cons, Nat.pow_succ]
      omega

/-- Of one length, different bits make different numbers. -/
theorem ofBits_inj {bits bits' : List Bool} (hlength : bits.length = bits'.length) :
    ofBits bits = ofBits bits' ↔ bits = bits' := by
  refine ⟨fun h ↦ ?_, congrArg ofBits⟩
  induction bits generalizing bits' with
  | nil => exact (List.length_eq_zero_iff.mp hlength.symm).symm
  | cons b bits ih =>
      cases bits' with
      | nil => simp at hlength
      | cons b' bits' =>
          have hlater : bits.length = bits'.length := Nat.succ.inj hlength
          have hlt := ofBits_lt bits
          have hlt' := ofBits_lt bits'
          rw [ofBits_cons, ofBits_cons, hlater] at h
          rw [hlater] at hlt
          cases b <;> cases b' <;> simp only [Bool.toNat_false, Bool.toNat_true, Nat.zero_mul,
            Nat.one_mul, Nat.zero_add, Nat.add_left_cancel_iff] at h
          · rw [ih hlater h]
          · omega
          · omega
          · rw [ih hlater h]

/-! ## Shifts and masks -/

theorem shiftRight_ofBits (bits : List Bool) (n : ℕ) :
    ofBits bits >>> (bits.length - n) = ofBits (bits.take n) := by
  have hlast := ofBits_lt (bits.drop n)
  have hsplit := ofBits_append (bits.take n) (bits.drop n)
  rw [List.length_drop] at hlast hsplit
  rw [List.take_append_drop] at hsplit
  rw [hsplit, Nat.shiftRight_eq_div_pow, Nat.add_comm,
    Nat.add_mul_div_right _ _ (Nat.two_pow_pos _), Nat.div_eq_of_lt hlast, Nat.zero_add]

theorem mod_ofBits {bits : List Bool} {n : ℕ} (hn : n ≤ bits.length) :
    ofBits bits % 2 ^ n = ofBits (bits.drop (bits.length - n)) := by
  have hlast := ofBits_lt (bits.drop (bits.length - n))
  have hsplit := ofBits_append (bits.take (bits.length - n)) (bits.drop (bits.length - n))
  rw [List.length_drop, Nat.sub_sub_self hn] at hlast hsplit
  rw [List.take_append_drop] at hsplit
  rw [hsplit, Nat.add_comm, Nat.add_mul_mod_self_right, Nat.mod_eq_of_lt hlast]

/-- `width` bits from `start` on. -/
theorem slice_ofBits {bits : List Bool} {start width : ℕ} (h : start + width ≤ bits.length) :
    (ofBits bits >>> (bits.length - (start + width))) &&& (2 ^ width - 1) =
      ofBits ((bits.drop start).take width) := by
  have hlength : (bits.take (start + width)).length = start + width :=
    List.length_take_of_le h
  have hwidth : width ≤ (bits.take (start + width)).length := by
    rw [hlength]
    exact Nat.le_add_left _ _
  rw [Nat.and_two_pow_sub_one_eq_mod, shiftRight_ofBits, mod_ofBits hwidth, hlength,
    Nat.add_sub_cancel, List.drop_take, Nat.add_sub_cancel_left]

/-- Bits agree as far as all their pieces do. -/
theorem take_mul_eq_iff {bits bits' : List Bool} (hlength : bits.length = bits'.length)
    (width count : ℕ) :
    bits.take (width * count) = bits'.take (width * count) ↔
      ∀ i < count, (bits.drop (width * i)).take width = (bits'.drop (width * i)).take width := by
  induction count with
  | zero => simp
  | succ count ih =>
      have hfirst : (bits.take (width * count)).length = (bits'.take (width * count)).length := by
        rw [List.length_take, List.length_take, hlength]
      rw [Nat.mul_succ, List.take_add, List.take_add, Nat.forall_lt_succ_right, ← ih]
      constructor
      · intro h
        exact List.append_inj h hfirst
      · rintro ⟨hearlier, hlast⟩
        rw [hearlier, hlast]

/-! ## Bytes -/

@[simp] theorem length_toBits (width n : ℕ) : (toBits width n).length = width := by
  induction width with
  | zero => rfl
  | succ width ih => rw [toBits, List.length_cons, ih]

theorem ofBits_toBits (width n : ℕ) : ofBits (toBits width n) = n % 2 ^ width := by
  induction width with
  | zero => simp [toBits, ofBits, Nat.mod_one]
  | succ width ih =>
      have hbit : (n.testBit width).toNat = n / 2 ^ width % 2 := Nat.toNat_testBit n width
      rw [toBits, ofBits_cons, ih, length_toBits, hbit, Nat.pow_succ, Nat.mod_mul]
      ring

theorem length_ofBytes (bytes : List UInt8) : (ofBytes bytes).length = 8 * bytes.length := by
  induction bytes with
  | nil => rfl
  | cons b bytes ih =>
      rw [ofBytes, List.flatMap_cons, ← ofBytes, List.length_append, length_toBits, ih,
        List.length_cons]
      ring

/-- The bits of bytes make the number that the bytes make. -/
theorem ofBits_ofBytes (bytes : List UInt8) : ofBits (ofBytes bytes) = BigEndian.decode bytes := by
  induction bytes with
  | nil => rfl
  | cons b bytes ih =>
      have hb : b.toNat % 2 ^ 8 = b.toNat := Nat.mod_eq_of_lt b.toNat_lt
      rw [ofBytes, List.flatMap_cons, ← ofBytes, ofBits_append, ofBits_toBits, hb, ih,
        length_ofBytes, BigEndian.decode_cons, Nat.pow_mul]

end BitStrings
