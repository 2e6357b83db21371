import Mathlib.Data.Nat.Log
import Mathlib.Tactic.IntervalCases
import Mathlib.Tactic.Ring

/-!
# Numbers in decimal notation

Writers of numbers as characters, and the readers that take them off the front
of a text.
-/

namespace DecimalText

/-- What is read off the front of a text, and the rest of it. -/
abbrev Reader (α : Type) := List Char → Option (α × List Char)

def expect (c : Char) : List Char → Option (List Char)
  | d :: text => if d = c then some text else none
  | [] => none

@[simp] theorem expect_cons (c : Char) (text : List Char) : expect c (c :: text) = some text :=
  if_pos rfl

def digit (d : ℕ) : Char := Char.ofNat (48 + d)

def digit? (c : Char) : Option ℕ :=
  if 48 ≤ c.toNat ∧ c.toNat < 58 then some (c.toNat - 48) else none

theorem digit?_digit {d : ℕ} (h : d < 10) : digit? (digit d) = some d := by
  interval_cases d <;> rfl

/-! ## Numbers of a fixed width -/

/-- The last `width` digits of a number. -/
def padded : ℕ → ℕ → List Char
  | 0, _ => []
  | width + 1, n => digit (n / 10 ^ width) :: padded width (n % 10 ^ width)

/-- `sofar` is the number made of the digits before. -/
def paddedFrom : ℕ → ℕ → Reader ℕ
  | 0, sofar, text => some (sofar, text)
  | _ + 1, _, [] => none
  | width + 1, sofar, c :: text => (digit? c).bind fun d ↦ paddedFrom width (10 * sofar + d) text

def padded? (width : ℕ) : Reader ℕ := paddedFrom width 0

theorem div_pow_lt {width n : ℕ} (h : n < 10 ^ (width + 1)) : n / 10 ^ width < 10 := by
  rw [Nat.div_lt_iff_lt_mul (by positivity), ← Nat.pow_succ']
  exact h

theorem digits_join (width sofar n : ℕ) :
    (10 * sofar + n / 10 ^ width) * 10 ^ width + n % 10 ^ width =
      sofar * 10 ^ (width + 1) + n := by
  calc
    (10 * sofar + n / 10 ^ width) * 10 ^ width + n % 10 ^ width =
        10 * sofar * 10 ^ width + (10 ^ width * (n / 10 ^ width) + n % 10 ^ width) := by ring
    _ = sofar * 10 ^ (width + 1) + n := by
      rw [Nat.div_add_mod]
      ring

theorem paddedFrom_padded {width n : ℕ} (h : n < 10 ^ width) (sofar : ℕ) (rest : List Char) :
    paddedFrom width sofar (padded width n ++ rest) = some (sofar * 10 ^ width + n, rest) := by
  induction width generalizing n sofar with
  | zero =>
      obtain rfl : n = 0 := by simpa using h
      simp [padded, paddedFrom]
  | succ width ih =>
      have hmod : n % 10 ^ width < 10 ^ width := Nat.mod_lt _ (by positivity)
      rw [padded, List.cons_append, paddedFrom, digit?_digit (div_pow_lt h), Option.bind_some,
        ih hmod, digits_join]

@[simp] theorem padded?_padded {width n : ℕ} (h : n < 10 ^ width) (rest : List Char) :
    padded? width (padded width n ++ rest) = some (n, rest) := by
  rw [padded?, paddedFrom_padded h, Nat.zero_mul, Nat.zero_add]

@[simp] theorem length_padded (width n : ℕ) : (padded width n).length = width := by
  induction width generalizing n with
  | zero => rfl
  | succ width ih => rw [padded, List.length_cons, ih]

theorem padded_inj {width m n : ℕ} (hm : m < 10 ^ width) (hn : n < 10 ^ width) :
    padded width m = padded width n ↔ m = n := by
  refine ⟨fun h ↦ ?_, congrArg (padded width)⟩
  have hread := padded?_padded hm []
  rw [h, padded?_padded hn] at hread
  exact (congrArg Prod.fst (Option.some.inj hread)).symm

theorem isDigit_digit {d : ℕ} (h : d < 10) : (digit d).isDigit := by
  interval_cases d <;> rfl

theorem isDigit_of_mem_padded {width n : ℕ} (h : n < 10 ^ width) :
    ∀ c ∈ padded width n, c.isDigit := by
  induction width generalizing n with
  | zero => exact List.forall_mem_nil _
  | succ width ih =>
      have hmod : n % 10 ^ width < 10 ^ width := Nat.mod_lt _ (by positivity)
      rw [padded, List.forall_mem_cons]
      exact ⟨isDigit_digit (div_pow_lt h), ih hmod⟩

/-- A wider number begins with zeros. -/
theorem padded_add {width n : ℕ} (h : n < 10 ^ width) (extra : ℕ) :
    padded (extra + width) n = List.replicate extra '0' ++ padded width n := by
  induction extra with
  | zero => rw [Nat.zero_add, List.replicate_zero, List.nil_append]
  | succ extra ih =>
      have hlt : n < 10 ^ (extra + width) :=
        h.trans_le (Nat.pow_le_pow_right (by decide) (Nat.le_add_left _ _))
      rw [Nat.succ_add, padded, Nat.div_eq_of_lt hlt, Nat.mod_eq_of_lt hlt, ih,
        List.replicate_succ, List.cons_append]
      rfl

/-! ## Numbers of any length -/

def natText (n : ℕ) : List Char := padded (Nat.log 10 n + 1) n

/-- All digits at the front of a text. -/
def digitsFrom : ℕ → List Char → ℕ × List Char
  | sofar, [] => (sofar, [])
  | sofar, c :: text =>
      match digit? c with
      | some d => digitsFrom (10 * sofar + d) text
      | none => (sofar, c :: text)

/-- A number has no leading zeros. -/
def nat? : Reader ℕ
  | [] => none
  | c :: text =>
      match digit? c with
      | none => none
      | some 0 => some (0, text)
      | some d => some (digitsFrom d text)

def EndsNumber (rest : List Char) : Prop := ∀ c ∈ rest.head?, digit? c = none

theorem digitsFrom_padded {width n : ℕ} (h : n < 10 ^ width) (sofar : ℕ) {rest : List Char}
    (hrest : EndsNumber rest) :
    digitsFrom sofar (padded width n ++ rest) = (sofar * 10 ^ width + n, rest) := by
  induction width generalizing n sofar with
  | zero =>
      obtain rfl : n = 0 := by simpa using h
      cases rest with
      | nil => simp [padded, digitsFrom]
      | cons c rest => simp [padded, digitsFrom, hrest c rfl]
  | succ width ih =>
      have hmod : n % 10 ^ width < 10 ^ width := Nat.mod_lt _ (by positivity)
      rw [padded, List.cons_append, digitsFrom, digit?_digit (div_pow_lt h)]
      dsimp only
      rw [ih hmod, digits_join]

theorem nat?_natText (n : ℕ) {rest : List Char} (hrest : EndsNumber rest) :
    nat? (natText n ++ rest) = some (n, rest) := by
  have hlt : n < 10 ^ (Nat.log 10 n + 1) := Nat.lt_pow_succ_log_self (by decide) n
  have hmod : n % 10 ^ Nat.log 10 n < 10 ^ Nat.log 10 n := Nat.mod_lt _ (by positivity)
  have hjoin := digits_join (Nat.log 10 n) 0 n
  rw [natText, padded, List.cons_append, nat?, digit?_digit (div_pow_lt hlt)]
  rcases Nat.eq_zero_or_pos n with rfl | hpos
  · rfl
  · have hfirst : 0 < n / 10 ^ Nat.log 10 n :=
      Nat.div_pos (Nat.pow_log_le_self 10 hpos.ne') (by positivity)
    obtain ⟨d, hd⟩ : ∃ d, n / 10 ^ Nat.log 10 n = d + 1 := Nat.exists_eq_succ_of_ne_zero hfirst.ne'
    have hlater := digitsFrom_padded hmod (d + 1) hrest
    rw [hd] at hjoin ⊢
    refine congrArg some (hlater.trans ?_)
    simpa using hjoin

theorem exists_natText_eq (n : ℕ) : ∃ c text, natText n = c :: text ∧ (digit? c).isSome := by
  refine ⟨_, _, rfl, ?_⟩
  rw [digit?_digit (div_pow_lt (Nat.lt_pow_succ_log_self (by decide : 1 < 10) n))]
  rfl

/-! ## Zeros in front -/

/-- A sign stays in front of the zeros. -/
def zfill (width : ℕ) (text : List Char) : List Char :=
  match text with
  | [] => List.replicate width '0'
  | c :: rest =>
      if c = '+' ∨ c = '-' then c :: (List.replicate (width - text.length) '0' ++ rest)
      else List.replicate (width - text.length) '0' ++ text

theorem zfill_natText {width n : ℕ} (hwidth : 0 < width) (h : n < 10 ^ width) :
    zfill width (natText n) = padded width n := by
  have hfits : Nat.log 10 n + 1 ≤ width := by
    rcases Nat.eq_zero_or_pos n with rfl | hpos
    · rw [Nat.log_zero_right]
      exact hwidth
    · exact Nat.log_lt_of_lt_pow hpos.ne' h
  obtain ⟨c, text, htext, hc⟩ := exists_natText_eq n
  have hsign : ¬ (c = '+' ∨ c = '-') := by
    rintro (rfl | rfl) <;> cases hc
  have hlength : (natText n).length = Nat.log 10 n + 1 := length_padded _ n
  have hlt : n < 10 ^ (Nat.log 10 n + 1) := Nat.lt_pow_succ_log_self (by decide) n
  rw [htext, zfill, if_neg hsign, ← htext, hlength, natText, ← padded_add hlt,
    Nat.sub_add_cancel hfits]

/-! ## Negative numbers -/

def intText : ℤ → List Char
  | .ofNat n => natText n
  | .negSucc n => '-' :: natText (n + 1)

def int? : Reader ℤ
  | [] => none
  | c :: text =>
      if c = '-' then (nat? text).map fun read ↦ (-(read.1 : ℤ), read.2)
      else (nat? (c :: text)).map fun read ↦ ((read.1 : ℤ), read.2)

/-- A number begins with a digit or a minus. -/
theorem exists_intText_eq (z : ℤ) :
    ∃ c text, intText z = c :: text ∧ (c = '-' ∨ (digit? c).isSome) := by
  cases z with
  | ofNat n =>
      obtain ⟨c, text, htext, hc⟩ := exists_natText_eq n
      exact ⟨c, text, htext, .inr hc⟩
  | negSucc n => exact ⟨'-', _, rfl, .inl rfl⟩

theorem int?_intText (z : ℤ) {rest : List Char} (hrest : EndsNumber rest) :
    int? (intText z ++ rest) = some (z, rest) := by
  cases z with
  | ofNat n =>
      obtain ⟨c, text, htext, hc⟩ := exists_natText_eq n
      have hminus : c ≠ '-' := by
        rintro rfl
        cases hc
      have hread := nat?_natText n hrest
      rw [intText, htext, List.cons_append, int?, if_neg hminus, ← List.cons_append, ← htext, hread]
      rfl
  | negSucc n =>
      rw [intText, List.cons_append, int?, if_pos rfl, nat?_natText (n + 1) hrest]
      rfl

end DecimalText
