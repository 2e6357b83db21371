import SecureSync.Library.DecimalText
import Mathlib.Tactic.NormNum

/-!
# Points in time as text

Calendar times with an optional fixed offset from UTC, and the ISO 8601 form in which
they are written.
-/

namespace IsoTime

open DecimalText

def IsLeap (year : ℕ) : Prop := 4 ∣ year ∧ (¬ 100 ∣ year ∨ 400 ∣ year)

instance (year : ℕ) : Decidable (IsLeap year) := inferInstanceAs (Decidable (_ ∧ _))

def daysInMonth (year month : ℕ) : ℕ :=
  if month = 2 then (if IsLeap year then 29 else 28)
  else if month ∈ [4, 6, 9, 11] then 30 else 31

/-- A time of day, or an amount of time below a day. -/
structure Clock where
  hour : ℕ
  minute : ℕ
  second : ℕ
  microsecond : ℕ
  hour_lt : hour < 24
  minute_lt : minute < 60
  second_lt : second < 60
  microsecond_lt : microsecond < 1000000
  deriving DecidableEq, Repr

def Clock.midnight : Clock :=
  ⟨0, 0, 0, 0, Nat.zero_lt_succ _, Nat.zero_lt_succ _, Nat.zero_lt_succ _, Nat.zero_lt_succ _⟩

/-- East of UTC or west of it; no distance is east. -/
structure Offset where
  west : Bool
  amount : Clock
  east_of_zero : amount = .midnight → west = false
  deriving DecidableEq

structure DateTime where
  year : ℕ
  month : ℕ
  day : ℕ
  clock : Clock
  offset : Option Offset
  year_pos : 0 < year
  year_lt : year < 10000
  month_pos : 0 < month
  month_le : month ≤ 12
  day_pos : 0 < day
  day_le : day ≤ daysInMonth year month
  deriving DecidableEq

/-! ## Writing -/

def fraction (microsecond : ℕ) : List Char :=
  if microsecond = 0 then [] else '.' :: padded 6 microsecond

/-- Whole minutes are written without seconds. -/
def Offset.text (offset : Offset) : List Char :=
  let amount := offset.amount
  (if offset.west then '-' else '+') :: (padded 2 amount.hour ++ ':' :: (padded 2 amount.minute ++
    if amount.second = 0 ∧ amount.microsecond = 0 then []
    else ':' :: (padded 2 amount.second ++ fraction amount.microsecond)))

def Clock.text (c : Clock) (rest : List Char) : List Char :=
  padded 2 c.hour ++ ':' :: (padded 2 c.minute ++ ':' :: (padded 2 c.second ++
    (fraction c.microsecond ++ rest)))

def DateTime.isoformat (t : DateTime) : List Char :=
  padded 4 t.year ++ '-' :: (padded 2 t.month ++ '-' :: (padded 2 t.day ++ 'T' ::
    t.clock.text ((t.offset.map Offset.text).getD [])))

/-! ## Reading -/

def fraction? : Reader ℕ
  | [] => some (0, [])
  | c :: text => if c = '.' then padded? 6 text else some (0, c :: text)

def Clock.make? (hour minute second microsecond : ℕ) : Option Clock :=
  if h : hour < 24 ∧ minute < 60 ∧ second < 60 ∧ microsecond < 1000000 then
    some ⟨hour, minute, second, microsecond, h.1, h.2.1, h.2.2.1, h.2.2.2⟩
  else none

def DateTime.make? (year month day : ℕ) (clock : Clock) (offset : Option Offset) :
    Option DateTime :=
  if h : (0 < year ∧ year < 10000) ∧ (0 < month ∧ month ≤ 12) ∧
      0 < day ∧ day ≤ daysInMonth year month then
    some ⟨year, month, day, clock, offset, h.1.1, h.1.2, h.2.1.1, h.2.1.2, h.2.2.1, h.2.2.2⟩
  else none

def Clock.wholeSeconds (c : Clock) : ℕ := 3600 * c.hour + 60 * c.minute + c.second

def Offset.utc : Offset := ⟨false, .midnight, fun _ ↦ rfl⟩

/-- An offset of less than a second is read as UTC. -/
def Offset.make (west : Bool) (amount : Clock) : Offset :=
  if hzero : amount.wholeSeconds = 0 then .utc
  else ⟨west, amount, fun hmidnight ↦ absurd (congrArg Clock.wholeSeconds hmidnight) hzero⟩

/-- The end of the text is an offset with or without seconds. -/
def offsetSeconds? (west : Bool) (hour minute : ℕ) : List Char → Option Offset
  | [] => (Clock.make? hour minute 0 0).map (Offset.make west)
  | c :: text => do
      let text ← expect ':' (c :: text)
      let (second, text) ← padded? 2 text
      let (microsecond, text) ← fraction? text
      if text = [] then
        (Clock.make? hour minute second microsecond).map (Offset.make west)
      else none

def offset? : List Char → Option (Option Offset)
  | [] => some none
  | sign :: text => do
      if sign ≠ '+' ∧ sign ≠ '-' then none
      let (hour, text) ← padded? 2 text
      let text ← expect ':' text
      let (minute, text) ← padded? 2 text
      let offset ← offsetSeconds? (decide (sign = '-')) hour minute text
      return some offset

def clock? : Reader Clock := fun text ↦ do
  let (hour, text) ← padded? 2 text
  let text ← expect ':' text
  let (minute, text) ← padded? 2 text
  let text ← expect ':' text
  let (second, text) ← padded? 2 text
  let (microsecond, text) ← fraction? text
  let clock ← Clock.make? hour minute second microsecond
  return (clock, text)

/-- `fromisoformat`, on the forms that `isoformat` writes. -/
def DateTime.fromisoformat (text : List Char) : Option DateTime := do
  let (year, text) ← padded? 4 text
  let text ← expect '-' text
  let (month, text) ← padded? 2 text
  let text ← expect '-' text
  let (day, text) ← padded? 2 text
  let text ← expect 'T' text
  let (clock, text) ← clock? text
  let offset ← offset? text
  DateTime.make? year month day clock offset

/-! ## Round trip -/

theorem fraction?_fraction {microsecond : ℕ} (h : microsecond < 1000000) {rest : List Char}
    (hrest : rest.head? ≠ some '.') :
    fraction? (fraction microsecond ++ rest) = some (microsecond, rest) := by
  unfold fraction
  split_ifs with hzero
  · subst hzero
    cases rest with
    | nil => rfl
    | cons c rest =>
        have hc : c ≠ '.' := fun hc ↦ hrest (congrArg some hc)
        simp [fraction?, hc]
  · have hread : padded? 6 (padded 6 microsecond ++ rest) = some (microsecond, rest) :=
      padded?_padded h rest
    simp [fraction?, hread]

theorem Clock.make?_self (c : Clock) :
    Clock.make? c.hour c.minute c.second c.microsecond = some c :=
  dif_pos ⟨c.hour_lt, c.minute_lt, c.second_lt, c.microsecond_lt⟩

theorem Clock.clock?_text (c : Clock) {rest : List Char} (hrest : rest.head? ≠ some '.') :
    clock? (c.text rest) = some (c, rest) := by
  have hhour : c.hour < 10 ^ 2 := c.hour_lt.trans (by norm_num)
  have hminute : c.minute < 10 ^ 2 := c.minute_lt.trans (by norm_num)
  have hsecond : c.second < 10 ^ 2 := c.second_lt.trans (by norm_num)
  simp only [clock?, text, padded?_padded hhour, padded?_padded hminute, padded?_padded hsecond,
    expect_cons, Option.bind_eq_bind, Option.bind_some, fraction?_fraction c.microsecond_lt hrest,
    c.make?_self, Option.pure_def]

theorem DateTime.make?_self (t : DateTime) :
    DateTime.make? t.year t.month t.day t.clock t.offset = some t :=
  dif_pos ⟨⟨t.year_pos, t.year_lt⟩, ⟨t.month_pos, t.month_le⟩, t.day_pos, t.day_le⟩

/-- What is read back of an offset. -/
def Offset.reread (o : Offset) : Offset := .make o.west o.amount

theorem Offset.offset?_text (o : Offset) : offset? o.text = some (some o.reread) := by
  have hsign : decide ((if o.west then '-' else '+') = '-') = o.west := by
    cases o.west <;> rfl
  have hallowed :
      ¬ ((if o.west then '-' else '+') ≠ '+' ∧ (if o.west then '-' else '+') ≠ '-') := by
    cases o.west <;> decide
  have hhour : o.amount.hour < 10 ^ 2 := o.amount.hour_lt.trans (by norm_num)
  have hminute : o.amount.minute < 10 ^ 2 := o.amount.minute_lt.trans (by norm_num)
  have hsecond : o.amount.second < 10 ^ 2 := o.amount.second_lt.trans (by norm_num)
  have hrest : offsetSeconds? o.west o.amount.hour o.amount.minute
      (if o.amount.second = 0 ∧ o.amount.microsecond = 0 then []
        else ':' :: (padded 2 o.amount.second ++ fraction o.amount.microsecond)) =
      some o.reread := by
    have hmake := o.amount.make?_self
    split_ifs with hwhole
    · rw [hwhole.1, hwhole.2] at hmake
      rw [offsetSeconds?, hmake, Option.map_some, reread]
    · have hfraction : fraction? (fraction o.amount.microsecond ++ []) =
          some (o.amount.microsecond, []) := fraction?_fraction o.amount.microsecond_lt (by simp)
      rw [List.append_nil] at hfraction
      simp only [offsetSeconds?, expect_cons, padded?_padded hsecond, hfraction, hmake,
        Option.bind_eq_bind, Option.bind_some, if_true, Option.map_some, reread]
  unfold text
  dsimp only
  simp only [offset?, if_neg hallowed, hsign, padded?_padded hhour, padded?_padded hminute,
    expect_cons, Option.bind_eq_bind, Option.bind_some, hrest, Option.pure_def]

def DateTime.reread (t : DateTime) : DateTime := { t with offset := t.offset.map Offset.reread }

theorem DateTime.fromisoformat_isoformat (t : DateTime) :
    DateTime.fromisoformat t.isoformat = some t.reread := by
  have hdays : daysInMonth t.year t.month ≤ 31 := by
    unfold daysInMonth
    split_ifs <;> omega
  have hday : t.day < 10 ^ 2 := (t.day_le.trans hdays).trans_lt (by norm_num)
  have hyear : t.year < 10 ^ 4 := t.year_lt.trans_le (by norm_num)
  have hmonth : t.month < 10 ^ 2 := t.month_le.trans_lt (by norm_num)
  have hdot : ((t.offset.map Offset.text).getD []).head? ≠ some '.' := by
    cases t.offset with
    | none => simp
    | some o =>
        cases hwest : o.west <;> simp [Offset.text, hwest]
  have hoffset : offset? ((t.offset.map Offset.text).getD []) =
      some (t.offset.map Offset.reread) := by
    cases t.offset with
    | none => rfl
    | some o => exact o.offset?_text
  have hmake : DateTime.make? t.year t.month t.day t.clock (t.offset.map Offset.reread) =
      some t.reread := t.reread.make?_self
  unfold fromisoformat isoformat
  simp only [padded?_padded hyear, padded?_padded hmonth, padded?_padded hday, expect_cons,
    Option.bind_eq_bind, Option.bind_some, t.clock.clock?_text hdot, hoffset, hmake]

/-! ### Times that their texts tell -/

theorem Clock.eq_midnight {c : Clock} (hwhole : c.wholeSeconds = 0) (hrest : c.microsecond = 0) :
    c = .midnight := by
  obtain ⟨hour, minute, second, microsecond, _, _, _, _⟩ := c
  simp only [wholeSeconds] at hwhole hrest
  obtain ⟨rfl, rfl, rfl⟩ : hour = 0 ∧ minute = 0 ∧ second = 0 := by omega
  subst hrest
  rfl

theorem Offset.reread_eq_self {o : Offset}
    (hexact : o.amount.wholeSeconds = 0 → o.amount.microsecond = 0) : o.reread = o := by
  obtain ⟨west, amount, heast⟩ := o
  unfold reread make
  split_ifs with hzero
  · obtain rfl := Clock.eq_midnight hzero (hexact hzero)
    obtain rfl := heast rfl
    rfl
  · rfl

/-- No time zone, or an offset from UTC that is zero or at least a second. -/
def DateTime.Exact (t : DateTime) : Prop :=
  ∀ o ∈ t.offset, o.amount.wholeSeconds = 0 → o.amount.microsecond = 0

instance (t : DateTime) : Decidable t.Exact :=
  inferInstanceAs (Decidable (∀ o ∈ t.offset, _))

/-- Reading back what was written gives the same time. -/
theorem DateTime.Exact.reread_eq_self {t : DateTime} (hexact : t.Exact) : t.reread = t := by
  obtain ⟨year, month, day, clock, offset⟩ := t
  cases offset with
  | none => rfl
  | some o => simp [reread, Offset.reread_eq_self (hexact o rfl)]

end IsoTime
