import SecureSync.Library.DecimalText
import Mathlib.Data.List.AList

/-!
# Objects of integers as JSON

`json.dumps` and `json.loads` of a dictionary from strings to integers: everything
beyond printable ASCII is escaped, with surrogate pairs beyond the basic plane.
-/

namespace JsonObject

open DecimalText

/-! ## Characters -/

def hexDigit (d : ℕ) : Char := if d < 10 then digit d else Char.ofNat (87 + d)

def hexDigit? (c : Char) : Option ℕ :=
  if 97 ≤ c.toNat ∧ c.toNat < 103 then some (c.toNat - 87)
  else if 65 ≤ c.toNat ∧ c.toNat < 71 then some (c.toNat - 55)
  else digit? c

theorem hexDigit?_hexDigit {d : ℕ} (h : d < 16) : hexDigit? (hexDigit d) = some d := by
  interval_cases d <;> rfl

/-- `\uXXXX`. -/
def escapeUnit (n : ℕ) (rest : List Char) : List Char :=
  '\\' :: 'u' :: hexDigit (n / 4096) :: hexDigit (n / 256 % 16) :: hexDigit (n / 16 % 16) ::
    hexDigit (n % 16) :: rest

def unit? : Reader ℕ
  | a :: b :: c :: d :: text => do
      let a ← hexDigit? a
      let b ← hexDigit? b
      let c ← hexDigit? c
      let d ← hexDigit? d
      return (4096 * a + 256 * b + 16 * c + d, text)
  | _ => none

theorem unit?_hexDigits {n : ℕ} (h : n < 65536) (rest : List Char) :
    unit? (hexDigit (n / 4096) :: hexDigit (n / 256 % 16) :: hexDigit (n / 16 % 16) ::
      hexDigit (n % 16) :: rest) = some (n, rest) := by
  have hjoin : 4096 * (n / 4096) + 256 * (n / 256 % 16) + 16 * (n / 16 % 16) + n % 16 = n := by
    omega
  simp only [unit?, hexDigit?_hexDigit (by omega : n / 4096 < 16),
    hexDigit?_hexDigit (Nat.mod_lt _ (by decide) : n / 256 % 16 < 16),
    hexDigit?_hexDigit (Nat.mod_lt _ (by decide) : n / 16 % 16 < 16),
    hexDigit?_hexDigit (Nat.mod_lt _ (by decide) : n % 16 < 16), Option.bind_eq_bind,
    Option.bind_some, Option.pure_def, hjoin]

/-- The characters with an escape of their own. -/
def shortEscapes : List (Char × Char) :=
  [('"', '"'), ('\\', '\\'), ('\n', 'n'), ('\r', 'r'), ('\t', 't'), ('\x0c', 'f'), ('\x08', 'b')]

/-- `ESCAPE_ASCII`. -/
def escapeChar (c : Char) (rest : List Char) : List Char :=
  match shortEscapes.find? fun pair ↦ pair.1 = c with
  | some pair => '\\' :: pair.2 :: rest
  | none =>
      if 32 ≤ c.toNat ∧ c.toNat ≤ 126 then c :: rest
      else if c.toNat < 65536 then escapeUnit c.toNat rest
      else escapeUnit (55296 + (c.toNat - 65536) / 1024)
        (escapeUnit (56320 + (c.toNat - 65536) % 1024) rest)

/-- The second half of a surrogate pair. -/
def lowSurrogate? : Reader ℕ
  | '\\' :: 'u' :: text => do
      let (low, text) ← unit? text
      if 56320 ≤ low ∧ low < 57344 then some (low, text) else none
  | _ => none

/-- What follows `\u`; a surrogate without its partner is no character. -/
def unicodeChar? : Reader Char := fun text ↦ do
  let (high, text) ← unit? text
  if 55296 ≤ high ∧ high < 56320 then
    let (low, text) ← lowSurrogate? text
    return (Char.ofNat (65536 + (high - 55296) * 1024 + (low - 56320)), text)
  else if 56320 ≤ high ∧ high < 57344 then none
  else return (Char.ofNat high, text)

/-- The next character of a string, `none` at its closing quote. -/
def char? : Reader (Option Char)
  | [] => none
  | c :: text =>
      if c = '"' then some (none, text)
      else if c = '\\' then
        match text with
        | [] => none
        | e :: text =>
            if e = 'u' then (unicodeChar? text).map fun read ↦ (some read.1, read.2)
            else if e = '/' then some (some '/', text)
            else (shortEscapes.find? fun pair ↦ pair.2 = e).map fun pair ↦ (some pair.1, text)
      else if c.toNat < 32 then none
      else some (some c, text)

theorem char?_escapeUnit (n : ℕ) (rest : List Char) :
    char? (escapeUnit n rest) =
      (unicodeChar? (hexDigit (n / 4096) :: hexDigit (n / 256 % 16) :: hexDigit (n / 16 % 16) ::
        hexDigit (n % 16) :: rest)).map fun read ↦ (some read.1, read.2) := rfl

theorem lowSurrogate?_escapeUnit {n : ℕ} (h : 56320 ≤ n ∧ n < 57344) (rest : List Char) :
    lowSurrogate? (escapeUnit n rest) = some (n, rest) := by
  simp only [lowSurrogate?, escapeUnit, unit?_hexDigits (by omega : n < 65536),
    Option.bind_eq_bind, Option.bind_some, if_pos h]

theorem char?_basic {n : ℕ} (h : n < 65536) (hplain : ¬ (55296 ≤ n ∧ n < 57344))
    (rest : List Char) : char? (escapeUnit n rest) = some (some (Char.ofNat n), rest) := by
  have hhigh : ¬ (55296 ≤ n ∧ n < 56320) := by omega
  have hlow : ¬ (56320 ≤ n ∧ n < 57344) := by omega
  simp only [char?_escapeUnit, unicodeChar?, unit?_hexDigits h, Option.bind_eq_bind,
    Option.bind_some, if_neg hhigh, if_neg hlow, Option.pure_def, Option.map_some]

theorem char?_pair {high low : ℕ} (hhigh : 55296 ≤ high ∧ high < 56320)
    (hlow : 56320 ≤ low ∧ low < 57344) (rest : List Char) :
    char? (escapeUnit high (escapeUnit low rest)) =
      some (some (Char.ofNat (65536 + (high - 55296) * 1024 + (low - 56320))), rest) := by
  have hunit : high < 65536 := by omega
  simp only [char?_escapeUnit, unicodeChar?, unit?_hexDigits hunit, Option.bind_eq_bind,
    Option.bind_some, if_pos hhigh, lowSurrogate?_escapeUnit hlow, Option.pure_def,
    Option.map_some]

theorem surrogates_join {n : ℕ} (h : 65536 ≤ n) :
    65536 + (55296 + (n - 65536) / 1024 - 55296) * 1024 +
      (56320 + (n - 65536) % 1024 - 56320) = n := by
  omega

theorem char?_shortEscapes (rest : List Char) :
    ∀ pair ∈ shortEscapes, char? ('\\' :: pair.2 :: rest) = some (some pair.1, rest) := by
  simp only [shortEscapes, List.forall_mem_cons]
  refine ⟨rfl, rfl, rfl, rfl, rfl, rfl, rfl, ?_⟩
  simp

theorem char?_escapeChar (c : Char) (rest : List Char) :
    char? (escapeChar c rest) = some (some c, rest) := by
  unfold escapeChar
  split
  · next pair hfind =>
      have hpair := char?_shortEscapes rest pair (List.mem_of_find?_eq_some hfind)
      obtain rfl : pair.1 = c := by simpa using List.find?_some hfind
      exact hpair
  · next hfind =>
      have hother : ∀ pair ∈ shortEscapes, pair.1 ≠ c := by simpa using hfind
      split_ifs with hprintable hbasic
      · have hquote : c ≠ '"' := (hother ('"', '"') (by decide)).symm
        have hback : c ≠ '\\' := (hother ('\\', '\\') (by decide)).symm
        simp only [char?, if_neg hquote, if_neg hback, if_neg (by omega : ¬ c.toNat < 32)]
      · have hvalid : c.toNat < 55296 ∨ 57343 < c.toNat ∧ c.toNat < 1114112 := c.valid
        rw [char?_basic hbasic (by omega), Char.ofNat_toNat]
      · have hvalid : c.toNat < 55296 ∨ 57343 < c.toNat ∧ c.toNat < 1114112 := c.valid
        rw [char?_pair (by omega) (by omega), surrogates_join (by omega), Char.ofNat_toNat]

/-! ## Strings -/

def escape : List Char → List Char → List Char
  | [], rest => '"' :: rest
  | c :: cs, rest => escapeChar c (escape cs rest)

def quote (s : String) (rest : List Char) : List Char := '"' :: escape s.toList rest

/-- The characters up to the closing quote; every round takes one off the text. -/
def chars? : ℕ → Reader (List Char)
  | 0, _ => none
  | rounds + 1, text =>
      match char? text with
      | none => none
      | some (none, text) => some ([], text)
      | some (some c, text) => (chars? rounds text).map fun read ↦ (c :: read.1, read.2)

def quoted? : Reader String := fun text ↦ do
  let text ← expect '"' text
  let (cs, text) ← chars? text.length text
  return (String.ofList cs, text)

theorem length_escapeChar (c : Char) (rest : List Char) :
    rest.length < (escapeChar c rest).length := by
  unfold escapeChar
  split
  · simp only [List.length_cons]
    omega
  · split_ifs <;> simp only [escapeUnit, List.length_cons] <;> omega

theorem chars?_escape (cs rest : List Char) {rounds : ℕ}
    (h : (escape cs rest).length ≤ rounds) :
    chars? rounds (escape cs rest) = some (cs, rest) := by
  induction cs generalizing rounds with
  | nil =>
      cases rounds with
      | zero => simp [escape] at h
      | succ rounds => simp [escape, chars?, char?]
  | cons c cs ih =>
      have hlen := length_escapeChar c (escape cs rest)
      rw [escape] at h ⊢
      cases rounds with
      | zero => omega
      | succ rounds =>
          have hread := ih (by omega : (escape cs rest).length ≤ rounds)
          rw [chars?, char?_escapeChar]
          simp only [hread, Option.map_some]

@[simp] theorem quoted?_quote (s : String) (rest : List Char) :
    quoted? (quote s rest) = some (s, rest) := by
  simp only [quoted?, quote, expect_cons, Option.bind_eq_bind, Option.bind_some,
    chars?_escape _ _ (le_refl _), Option.pure_def, String.ofList_toList]

/-! ## Integers -/

/-- `sys.get_int_max_str_digits()`: longer numbers are neither written nor read. -/
def maxStrDigits : ℕ := 4300

def Writable (z : ℤ) : Prop := z.natAbs < 10 ^ maxStrDigits

instance (z : ℤ) : Decidable (Writable z) := inferInstanceAs (Decidable (_ < _))

def number? : Reader ℤ := fun text ↦ do
  let (z, text) ← int? text
  if Writable z then some (z, text) else none

theorem number?_intText {z : ℤ} (hz : Writable z) {rest : List Char} (hrest : EndsNumber rest) :
    number? (intText z ++ rest) = some (z, rest) := by
  simp only [number?, int?_intText z hrest, Option.bind_eq_bind, Option.bind_some, if_pos hz]

/-! ## Objects -/

def isSpace (c : Char) : Bool := c = ' ' || c = '\t' || c = '\n' || c = '\r'

def skipSpace (text : List Char) : List Char := text.dropWhile isSpace

def member (entry : String × ℤ) (rest : List Char) : List Char :=
  quote entry.1 (':' :: ' ' :: (intText entry.2 ++ rest))

/-- What follows a member. -/
def later : List (String × ℤ) → List Char
  | [] => ['}']
  | entry :: entries => ',' :: ' ' :: member entry (later entries)

/-- `json.dumps`; `ValueError` where a number is too long. -/
def dumps (entries : List (String × ℤ)) : Option (List Char) :=
  if ∀ entry ∈ entries, Writable entry.2 then
    match entries with
    | [] => some ['{', '}']
    | entry :: entries => some ('{' :: member entry (later entries))
  else none

/-- The members from the first key on, up to the closing brace. -/
def members? : ℕ → Reader (List (String × ℤ))
  | 0, _ => none
  | rounds + 1, text => do
      let (key, text) ← quoted? text
      let text ← expect ':' (skipSpace text)
      let (value, text) ← number? (skipSpace text)
      match skipSpace text with
      | [] => none
      | c :: text =>
          if c = '}' then some ([(key, value)], text)
          else if c = ',' then
            (members? rounds (skipSpace text)).map fun read ↦ ((key, value) :: read.1, read.2)
          else none

/-- `json.loads`, on objects of integers; the entries as they come. -/
def loads (text : List Char) : Option (List (String × ℤ)) := do
  let text ← expect '{' (skipSpace text)
  let (entries, text) ← match skipSpace text with
    | [] => none
    | c :: rest => if c = '}' then some ([], rest) else members? text.length (c :: rest)
  if skipSpace text = [] then some entries else none

/-! ## Round trip -/

theorem dumps_isSome_iff {entries : List (String × ℤ)} :
    (∃ text, dumps entries = some text) ↔ ∀ entry ∈ entries, Writable entry.2 := by
  unfold dumps
  split_ifs with hall
  · refine iff_of_true ?_ hall
    cases entries <;> simp
  · simpa using hall

theorem skipSpace_intText (z : ℤ) (rest : List Char) :
    skipSpace (' ' :: (intText z ++ rest)) = intText z ++ rest := by
  obtain ⟨c, text, htext, hc⟩ := exists_intText_eq z
  have hspace : isSpace c = false := by
    rcases hc with rfl | hc
    · rfl
    · by_contra hspace
      simp only [isSpace, Bool.not_eq_false, Bool.or_eq_true, decide_eq_true_eq] at hspace
      rcases hspace with ((rfl | rfl) | rfl) | rfl <;> cases hc
  have hblank : isSpace ' ' = true := rfl
  rw [htext, skipSpace, List.cons_append, List.dropWhile_cons_of_pos hblank,
    List.dropWhile_cons_of_neg (by simp [hspace])]

theorem later_head (entries : List (String × ℤ)) :
    skipSpace (later entries) = later entries ∧ EndsNumber (later entries) := by
  cases entries with
  | nil => exact ⟨rfl, by simp [EndsNumber, later, digit?]⟩
  | cons entry entries => exact ⟨rfl, by simp [EndsNumber, later, digit?]⟩

theorem members?_member {entries : List (String × ℤ)} {entry : String × ℤ} {rounds : ℕ}
    (hrounds : entries.length < rounds) (hentry : Writable entry.2)
    (hentries : ∀ e ∈ entries, Writable e.2) :
    members? rounds (member entry (later entries)) = some (entry :: entries, []) := by
  induction entries generalizing entry rounds with
  | nil =>
      obtain ⟨rounds, rfl⟩ := Nat.exists_eq_succ_of_ne_zero (by omega : rounds ≠ 0)
      obtain ⟨hskip, hends⟩ := later_head []
      have hcolon : ∀ text, skipSpace (':' :: text) = ':' :: text := fun _ ↦ rfl
      simp only [members?, member, quoted?_quote, Option.bind_eq_bind, Option.bind_some, hcolon,
        expect_cons, skipSpace_intText, number?_intText hentry hends, hskip]
      rfl
  | cons next entries ih =>
      obtain ⟨rounds, rfl⟩ := Nat.exists_eq_succ_of_ne_zero (by omega : rounds ≠ 0)
      obtain ⟨hskip, hends⟩ := later_head (next :: entries)
      have hcolon : ∀ text, skipSpace (':' :: text) = ':' :: text := fun _ ↦ rfl
      obtain ⟨hnext, hothers⟩ := List.forall_mem_cons.mp hentries
      have hlater : members? rounds (member next (later entries)) = some (next :: entries, []) := by
        apply ih _ hnext hothers
        simp only [List.length_cons] at hrounds
        omega
      have hquote : ∀ rest, skipSpace (' ' :: member next rest) = member next rest := fun _ ↦ rfl
      simp only [members?, member, quoted?_quote, Option.bind_eq_bind, Option.bind_some, hcolon,
        expect_cons, skipSpace_intText, number?_intText hentry hends, hskip]
      simp only [later, hquote, hlater]
      rfl

theorem length_escape (cs rest : List Char) : rest.length < (escape cs rest).length := by
  induction cs with
  | nil => exact Nat.lt_succ_self _
  | cons c cs ih => exact ih.trans (length_escapeChar c _)

theorem length_member (entry : String × ℤ) (rest : List Char) :
    rest.length < (member entry rest).length := by
  have hescape := length_escape entry.1.toList (':' :: ' ' :: (intText entry.2 ++ rest))
  simp only [List.length_cons, List.length_append] at hescape
  simp only [member, quote, List.length_cons]
  omega

theorem length_later (entries : List (String × ℤ)) : entries.length < (later entries).length := by
  induction entries with
  | nil => exact Nat.zero_lt_one
  | cons entry entries ih =>
      have hmember := length_member entry (later entries)
      simp only [later, List.length_cons]
      omega

/-- What is written is read back, entry by entry. -/
theorem loads_dumps {entries : List (String × ℤ)} {text : List Char}
    (h : dumps entries = some text) : loads text = some entries := by
  unfold dumps at h
  split_ifs at h with hall
  cases entries with
  | nil =>
      cases h
      rfl
  | cons entry entries =>
      cases h
      obtain ⟨hentry, hentries⟩ := List.forall_mem_cons.mp hall
      have hrounds : entries.length < (member entry (later entries)).length :=
        (length_later entries).trans (length_member entry _)
      have hread := members?_member hrounds hentry hentries
      have hbrace : ∀ text, skipSpace ('{' :: text) = '{' :: text := fun _ ↦ rfl
      have hquote : skipSpace (member entry (later entries)) = member entry (later entries) := rfl
      obtain ⟨rest, hrest⟩ : ∃ rest, member entry (later entries) = '"' :: rest := ⟨_, rfl⟩
      have hbrace' : ('"' : Char) ≠ '}' := by decide
      rw [hrest] at hread hquote
      simp only [loads, hbrace, expect_cons, Option.bind_eq_bind, Option.bind_some, hrest, hquote,
        if_neg hbrace', hread]
      rfl

/-! ## Dictionaries -/

/-- A `dict` with its entries in order of insertion. -/
abbrev Dict := AList fun _ : String ↦ ℤ

/-- `d[key] = value`: a key that is there keeps its place. -/
def setItem (d : Dict) (entry : String × ℤ) : Dict :=
  if h : entry.1 ∈ d then d.replace entry.1 entry.2
  else
    { entries := d.entries ++ [⟨entry.1, entry.2⟩]
      nodupKeys := by
        rw [List.NodupKeys, List.keys, List.map_append]
        refine d.nodupKeys.append (List.nodup_singleton _) ?_
        simpa [List.disjoint_singleton, AList.mem_keys, AList.keys, List.keys] using h }

def dictOf (entries : List (String × ℤ)) : Dict := entries.foldl setItem ∅

def items (d : Dict) : List (String × ℤ) := d.entries.map fun s ↦ (s.1, s.2)

theorem entries_foldl_setItem {entries : List (Sigma fun _ : String ↦ ℤ)} {d : Dict}
    (h : (d.entries ++ entries).NodupKeys) :
    ((entries.map fun s ↦ (s.1, s.2)).foldl setItem d).entries = d.entries ++ entries := by
  induction entries generalizing d with
  | nil => simp
  | cons s entries ih =>
      have hfresh : s.1 ∉ d := by
        rw [List.NodupKeys, List.keys, List.map_append, List.nodup_append'] at h
        intro hmem
        exact h.2.2 (AList.mem_keys.mp hmem) (by simp)
      have hset : (setItem d (s.1, s.2)).entries = d.entries ++ [s] := by
        rw [setItem, dif_neg hfresh]
      rw [List.map_cons, List.foldl_cons, ih, hset, List.append_assoc, List.singleton_append]
      rw [hset, List.append_assoc]
      exact h

@[simp] theorem dictOf_items (d : Dict) : dictOf (items d) = d := by
  apply AList.ext
  rw [dictOf, items, entries_foldl_setItem]
  · simp
  · simpa using d.nodupKeys

end JsonObject
