import SecureSync.Library.JsonObject

/-!
# Objects of texts as indented JSON

`json.dumps(d, indent=2)` and `json.loads` of a dictionary from strings to strings, and bytes
in hexadecimal notation.
-/

namespace JsonTexts

open DecimalText JsonObject

/-- A new line, two spaces in. -/
def indented (rest : List Char) : List Char := '\n' :: ' ' :: ' ' :: rest

def member (entry : String × String) (rest : List Char) : List Char :=
  quote entry.1 (':' :: ' ' :: quote entry.2 rest)

/-- What follows a member. -/
def later : List (String × String) → List Char
  | [] => ['\n', '}']
  | entry :: entries => ',' :: indented (member entry (later entries))

def dumps : List (String × String) → List Char
  | [] => ['{', '}']
  | entry :: entries => '{' :: indented (member entry (later entries))

/-- The members from the first key on, up to the closing brace. -/
def members? : ℕ → Reader (List (String × String))
  | 0, _ => none
  | rounds + 1, text => do
      let (key, text) ← quoted? text
      let text ← expect ':' (skipSpace text)
      let (value, text) ← quoted? (skipSpace text)
      match skipSpace text with
      | [] => none
      | c :: text =>
          if c = '}' then some ([(key, value)], text)
          else if c = ',' then
            (members? rounds (skipSpace text)).map fun read ↦ ((key, value) :: read.1, read.2)
          else none

/-- `json.loads`, on objects of strings; the entries as they come. -/
def loads (text : List Char) : Option (List (String × String)) := do
  let text ← expect '{' (skipSpace text)
  let (entries, text) ← match skipSpace text with
    | [] => none
    | c :: rest => if c = '}' then some ([], rest) else members? text.length (c :: rest)
  if skipSpace text = [] then some entries else none

/-! ## Round trip -/

theorem skipSpace_later (entries : List (String × String)) :
    skipSpace (later entries) =
      match entries with
      | [] => ['}']
      | entry :: entries => ',' :: indented (member entry (later entries)) := by
  cases entries <;> rfl

theorem members?_member {entries : List (String × String)} {entry : String × String} {rounds : ℕ}
    (hrounds : entries.length < rounds) :
    members? rounds (member entry (later entries)) = some (entry :: entries, []) := by
  have hcolon : ∀ text, skipSpace (':' :: text) = ':' :: text := fun _ ↦ rfl
  have hvalue : ∀ s text, skipSpace (' ' :: quote s text) = quote s text := fun _ _ ↦ rfl
  induction entries generalizing entry rounds with
  | nil =>
      obtain ⟨rounds, rfl⟩ := Nat.exists_eq_succ_of_ne_zero (by omega : rounds ≠ 0)
      simp only [members?, member, quoted?_quote, Option.bind_eq_bind, Option.bind_some, hcolon,
        expect_cons, hvalue, skipSpace_later]
      rfl
  | cons next entries ih =>
      obtain ⟨rounds, rfl⟩ := Nat.exists_eq_succ_of_ne_zero (by omega : rounds ≠ 0)
      have hnext : members? rounds (member next (later entries)) = some (next :: entries, []) := by
        apply ih
        simp only [List.length_cons] at hrounds
        omega
      have hindent : ∀ text, skipSpace (indented (member next text)) = member next text :=
        fun _ ↦ rfl
      simp only [members?, member, quoted?_quote, Option.bind_eq_bind, Option.bind_some, hcolon,
        expect_cons, hvalue, skipSpace_later]
      rw [← member, hindent, hnext]
      rfl

theorem length_member (entry : String × String) (rest : List Char) :
    rest.length < (member entry rest).length := by
  have hkey := length_escape entry.1.toList (':' :: ' ' :: quote entry.2 rest)
  have hvalue := length_escape entry.2.toList rest
  simp only [member, quote, List.length_cons] at hkey ⊢
  omega

theorem length_later (entries : List (String × String)) :
    entries.length < (later entries).length := by
  induction entries with
  | nil => exact Nat.zero_lt_two
  | cons entry entries ih =>
      have hmember := length_member entry (later entries)
      simp only [later, indented, List.length_cons]
      omega

/-- What is written is read back, entry by entry. -/
theorem loads_dumps (entries : List (String × String)) : loads (dumps entries) = some entries := by
  cases entries with
  | nil => rfl
  | cons entry entries =>
      have hrounds : entries.length < (indented (member entry (later entries))).length := by
        have hmember := length_member entry (later entries)
        have hlater := length_later entries
        simp only [indented, List.length_cons]
        omega
      have hloads : loads (dumps (entry :: entries)) =
          (members? (indented (member entry (later entries))).length
            (member entry (later entries))).bind fun read ↦
              if skipSpace read.2 = [] then some read.1 else none := rfl
      rw [hloads, members?_member hrounds]
      rfl

/-! ## Hexadecimal notation -/

/-- `bytes.hex`. -/
def hex : List UInt8 → List Char
  | [] => []
  | b :: bs => hexDigit (b.toNat / 16) :: hexDigit (b.toNat % 16) :: hex bs

/-- `Py_ISSPACE`. -/
def isHexSpace (c : Char) : Bool :=
  c = ' ' || c = '\t' || c = '\n' || c = '\r' || c = '\x0b' || c = '\x0c'

/-- `bytes.fromhex`: spaces may stand between two bytes. -/
def fromHex? : List Char → Option (List UInt8)
  | [] => some []
  | [c] => if isHexSpace c then some [] else none
  | c :: d :: text =>
      if isHexSpace c then fromHex? (d :: text)
      else
        (hexDigit? c).bind fun high ↦
          (hexDigit? d).bind fun low ↦
            (fromHex? text).map fun bs ↦ UInt8.ofNat (16 * high + low) :: bs

theorem isHexSpace_hexDigit {d : ℕ} (h : d < 16) : isHexSpace (hexDigit d) = false := by
  interval_cases d <;> rfl

theorem fromHex?_hex (bs : List UInt8) : fromHex? (hex bs) = some bs := by
  induction bs with
  | nil => rfl
  | cons b bs ih =>
      have hb := b.toNat_lt
      have hhigh : b.toNat / 16 < 16 := by omega
      have hlow : b.toNat % 16 < 16 := by omega
      have hjoin : 16 * (b.toNat / 16) + b.toNat % 16 = b.toNat := by omega
      rw [hex, fromHex?, isHexSpace_hexDigit hhigh, if_neg Bool.false_ne_true,
        hexDigit?_hexDigit hhigh, hexDigit?_hexDigit hlow, Option.bind_some, Option.bind_some, ih,
        hjoin, UInt8.ofNat_toNat]
      rfl

end JsonTexts
