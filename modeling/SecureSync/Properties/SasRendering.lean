import SecureSync.Infrastructure.HandshakeSas
import SecureSync.Library.BitStrings
import Mathlib.Data.List.GetD
import Mathlib.Data.List.Nodup
import Mathlib.Data.Nat.ModEq

/-!
# What a short authentication string shows

Every word shows eleven bits of the material, in order and without gaps; the digits show the
value of the whole material modulo a power of ten.
-/

namespace SecureSync

open BigEndian BitStrings DecimalText Raising

/-- The highest bit of the first byte first. -/
def materialBits (material : Bytes) : List Bool := ofBytes material

/-- The bits that the word at `index` shows. -/
def wordBits (material : Bytes) (index : ℕ) : List Bool :=
  ((materialBits material).drop (bitsPerWord * index)).take bitsPerWord

/-- What `sas_words` asks of its arguments. -/
structure WordsAccepted (material : Bytes) (count : ℤ) (wordlist : List String) : Prop where
  count_bounds : 1 ≤ count ∧ count ≤ maxWordCount
  length_wordlist : wordlist.length = wordlistSize
  enough_bits : count * bitsPerWord ≤ material.length * 8

variable {material : Bytes} {wordlist words : List String} {count : ℤ} {index : ℕ}

theorem length_materialBits (material : Bytes) : (materialBits material).length =
    8 * material.length :=
  length_ofBytes material

theorem length_wordBits (h : bitsPerWord * (index + 1) ≤ 8 * material.length) :
    (wordBits material index).length = bitsPerWord := by
  apply List.length_take_of_le
  rw [List.length_drop, length_materialBits]
  rw [Nat.mul_succ] at h
  exact Nat.le_sub_of_add_le' h

/-! ## The index of a word -/

theorem ofBits_wordBits_lt (material : Bytes) (index : ℕ) :
    ofBits (wordBits material index) < wordlistSize := by
  have hlength : (wordBits material index).length ≤ bitsPerWord := List.length_take_le _ _
  exact (ofBits_lt _).trans_le (Nat.pow_le_pow_right Nat.two_pos hlength)

theorem wordIndex_eq_ok (h : bitsPerWord * (index + 1) ≤ 8 * material.length) :
    wordIndex material index = .ok (ofBits (wordBits material index)) := by
  have hbits : bitsPerWord * index + bitsPerWord ≤ (materialBits material).length := by
    rw [length_materialBits, ← Nat.mul_succ]
    exact h
  have hshift : ((material.length * 8 : ℕ) : ℤ) - bitsPerWord * (index + 1) =
      ((materialBits material).length - (bitsPerWord * index + bitsPerWord) : ℕ) := by
    rw [Nat.cast_sub hbits, length_materialBits]
    push_cast
    ring
  have hslice := slice_ofBits hbits
  rw [materialBits, ofBits_ofBytes] at hslice
  rw [wordIndex, hshift, wordBits, materialBits, ← hslice]
  rfl

/-- The four words of the known answer in the tests. -/
example : (List.range 4).mapM (wordIndex [149, 254, 238, 186, 26, 197, 14, 89, 165, 136, 134, 96,
    24, 237, 251, 29, 177, 59, 183, 221, 204, 120, 201, 38, 125, 0, 47, 191, 121, 62, 243, 72]) =
      .ok [1199, 1979, 1396, 428] := by decide

/-! ## Words -/

/-- The word for its bits. -/
def shownWord (wordlist : List String) (material : Bytes) (index : ℕ) : String :=
  wordlist.getD (ofBits (wordBits material index)) ""

theorem wordAt_shownWord (hlength : wordlist.length = wordlistSize) (material : Bytes)
    (index : ℕ) : wordAt wordlist (ofBits (wordBits material index)) =
      .ok (shownWord wordlist material index) := by
  have hlt : ofBits (wordBits material index) < wordlist.length := by
    rw [hlength]
    exact ofBits_wordBits_lt material index
  rw [wordAt, shownWord, List.getD_eq_getElem?_getD, List.getElem?_eq_getElem hlt]
  rfl

/-- Different words have different indices, so they show what bits they stand for. -/
theorem shownWord_inj (hnodup : wordlist.Nodup) (hwordlist : wordlist.length = wordlistSize)
    {a b : Bytes} (ha : bitsPerWord * (index + 1) ≤ 8 * a.length)
    (hb : bitsPerWord * (index + 1) ≤ 8 * b.length) :
    shownWord wordlist a index = shownWord wordlist b index ↔
      wordBits a index = wordBits b index := by
  have hlt (m : Bytes) : ofBits (wordBits m index) < wordlist.length := by
    rw [hwordlist]
    exact ofBits_wordBits_lt m index
  have hlength : (wordBits a index).length = (wordBits b index).length := by
    rw [length_wordBits ha, length_wordBits hb]
  rw [shownWord, shownWord, List.getD_eq_getElem _ _ (hlt a), List.getD_eq_getElem _ _ (hlt b),
    hnodup.getElem_inj_iff, ofBits_inj hlength]

theorem WordsAccepted.enough (h : WordsAccepted material count wordlist)
    (hindex : index < count.toNat) : bitsPerWord * (index + 1) ≤ 8 * material.length := by
  have hbits := h.enough_bits
  have hpos := h.count_bounds.1
  rw [bitsPerWord] at hbits ⊢
  omega

theorem sasWords_eq_ok : sasWords material count wordlist = .ok words ↔
    WordsAccepted material count wordlist ∧
      words = (List.range count.toNat).map (shownWord wordlist material) := by
  have hwords (h : WordsAccepted material count wordlist) : ∀ index ∈ List.range count.toNat,
      (do wordAt wordlist (← wordIndex material index)) =
        .ok (shownWord wordlist material index) := by
    intro index hindex
    rw [wordIndex_eq_ok (h.enough (List.mem_range.mp hindex))]
    exact wordAt_shownWord h.length_wordlist material index
  have hrendered (h : WordsAccepted material count wordlist) :
      (List.range count.toNat).mapM (fun index ↦ do wordAt wordlist (← wordIndex material index)) =
        .ok ((List.range count.toNat).map (shownWord wordlist material)) := by
    rw [except_mapM_eq_ok, List.forall₂_map_right_iff, List.forall₂_same]
    exact hwords h
  rw [sasWords, except_bind_eq_ok]
  simp only [except_mapError_eq_ok, checkWordCount_eq_ok, except_bind_eq_ok, require_eq_ok]
  constructor
  · rintro ⟨_, hcount, _, hlength, _, hbits, h⟩
    have haccepted : WordsAccepted material count wordlist := ⟨hcount, hlength, hbits⟩
    rw [hrendered haccepted] at h
    exact ⟨haccepted, (Except.ok.inj h).symm⟩
  · rintro ⟨h, rfl⟩
    exact ⟨(), h.count_bounds, (), h.length_wordlist, (), h.enough_bits, hrendered h⟩

theorem sasWords_inj {a b : Bytes} {words' : List String} (hlength : a.length = b.length)
    (hnodup : wordlist.Nodup) (ha : sasWords a count wordlist = .ok words)
    (hb : sasWords b count wordlist = .ok words') :
    words = words' ↔ (materialBits a).take (bitsPerWord * count.toNat) =
      (materialBits b).take (bitsPerWord * count.toNat) := by
  obtain ⟨haccepted, rfl⟩ := sasWords_eq_ok.mp ha
  obtain ⟨haccepted', rfl⟩ := sasWords_eq_ok.mp hb
  have hbits : (materialBits a).length = (materialBits b).length := by
    rw [length_materialBits, length_materialBits, hlength]
  rw [List.map_inj_left, take_mul_eq_iff hbits]
  apply forall_congr'
  intro index
  rw [List.mem_range]
  apply imp_congr_right
  intro hindex
  exact shownWord_inj hnodup haccepted.length_wordlist (haccepted.enough hindex)
    (haccepted'.enough hindex)

theorem sasWords_prefix {count' : ℤ} {words' : List String} (hle : count ≤ count')
    (h : sasWords material count wordlist = .ok words)
    (h' : sasWords material count' wordlist = .ok words') : words <+: words' := by
  obtain ⟨-, rfl⟩ := sasWords_eq_ok.mp h
  obtain ⟨-, rfl⟩ := sasWords_eq_ok.mp h'
  have hrange : (List.range count'.toNat).take count.toNat = List.range count.toNat := by
    rw [List.take_range, Nat.min_eq_left (Int.toNat_le_toNat hle)]
  rw [← hrange, List.map_take]
  apply List.take_prefix

/-- A digest has more bits than `sas_words` ever shows. -/
theorem wordsAccepted_sasMaterial {sha256 : Sha256} {transcriptFinal : Bytes}
    (hsha : ∀ input, (sha256 input).length = transcriptSize)
    (h : sasMaterial sha256 transcriptFinal = .ok material)
    (hcount : 1 ≤ count ∧ count ≤ maxWordCount) (hwordlist : wordlist.length = wordlistSize) :
    WordsAccepted material count wordlist := by
  obtain ⟨_, -, hmaterial⟩ := except_bind_eq_ok.mp h
  obtain rfl := Except.ok.inj hmaterial
  refine ⟨hcount, hwordlist, ?_⟩
  rw [hsha, bitsPerWord, transcriptSize]
  rw [maxWordCount] at hcount
  omega

/-- Words that do not contain the separator can be read back from their line. -/
theorem formatSas_inj {separator : Char} {words' : List String} {text : String}
    (hwords : ∀ word ∈ words, separator ∉ word.toList)
    (hwords' : ∀ word ∈ words', separator ∉ word.toList)
    (h : formatSas words (String.singleton separator) = .ok text)
    (h' : formatSas words' (String.singleton separator) = .ok text) : words = words' := by
  have hread {ws : List String} (hws : ∀ word ∈ ws, separator ∉ word.toList)
      (hformat : formatSas ws (String.singleton separator) = .ok text) :
      text.toList.splitOn separator = ws.map String.toList := by
    obtain ⟨_, hne, htext⟩ := except_bind_eq_ok.mp hformat
    obtain rfl := Except.ok.inj htext
    rw [String.toList_intercalate, String.toList_singleton]
    apply List.splitOn_intercalate
    · intro l hl
      obtain ⟨word, hword, rfl⟩ := List.mem_map.mp hl
      exact hws word hword
    · exact mt List.map_eq_nil_iff.mp (require_eq_ok.mp hne)
  have heq := (hread hwords h).symm.trans (hread hwords' h')
  exact List.map_injective_iff.mpr (fun _ _ ↦ String.toList_injective) heq

/-! ## Digits -/

theorem value_lt (material : Bytes) (count : ℤ) :
    decode material % 10 ^ count.toNat < 10 ^ count.toNat :=
  Nat.mod_lt _ (Nat.pow_pos (Nat.succ_pos 9))

theorem sasDigits_eq_ok {text : String} : sasDigits material count = .ok text ↔
    (1 ≤ count ∧ count ≤ maxDigitCount) ∧ material ≠ [] ∧
      text = String.ofList (padded count.toNat (decode material % 10 ^ count.toNat)) := by
  have hfill (hcount : 1 ≤ count) :
      zfill count.toNat (natText (decode material % 10 ^ count.toNat)) =
        padded count.toNat (decode material % 10 ^ count.toNat) := by
    apply zfill_natText
    · omega
    · exact value_lt material count
  rw [sasDigits, except_bind_eq_ok]
  simp only [except_bind_eq_ok, require_eq_ok]
  constructor
  · rintro ⟨_, hcount, _, hmaterial, h⟩
    rw [hfill hcount.1] at h
    exact ⟨hcount, hmaterial, (Except.ok.inj h).symm⟩
  · rintro ⟨hcount, hmaterial, rfl⟩
    refine ⟨(), hcount, (), hmaterial, ?_⟩
    rw [hfill hcount.1]
    rfl

example : sasDigits (List.replicate 31 0 ++ [1]) defaultDigitCount = .ok "00000001" := by decide

theorem length_sasDigits {text : String} (h : sasDigits material count = .ok text) :
    text.length = count := by
  obtain ⟨hcount, -, rfl⟩ := sasDigits_eq_ok.mp h
  rw [String.length_ofList, length_padded]
  omega

theorem isDigit_of_mem_sasDigits {text : String} (h : sasDigits material count = .ok text) :
    ∀ c ∈ text.toList, c.isDigit := by
  obtain ⟨-, -, rfl⟩ := sasDigits_eq_ok.mp h
  rw [String.toList_ofList]
  exact isDigit_of_mem_padded (value_lt material count)

theorem sasDigits_inj {a b : Bytes} {text text' : String} (ha : sasDigits a count = .ok text)
    (hb : sasDigits b count = .ok text') :
    text = text' ↔ decode a ≡ decode b [MOD 10 ^ count.toNat] := by
  obtain ⟨-, -, rfl⟩ := sasDigits_eq_ok.mp ha
  obtain ⟨-, -, rfl⟩ := sasDigits_eq_ok.mp hb
  rw [String.ofList_inj, padded_inj (value_lt a count) (value_lt b count), Nat.ModEq]

/-- Words show exactly the first bits of the material, digits its last decimal places. -/
theorem sas_shows_material :
    (∀ (material : Bytes) (count : ℤ) (wordlist : List String),
      (∃ words, sasWords material count wordlist = .ok words ∧ words.length = count) ↔
        WordsAccepted material count wordlist) ∧
    (∀ (a b : Bytes) (count : ℤ) (wordlist words words' : List String), a.length = b.length →
      wordlist.Nodup → sasWords a count wordlist = .ok words →
        sasWords b count wordlist = .ok words' →
          (words = words' ↔ (materialBits a).take (bitsPerWord * count.toNat) =
            (materialBits b).take (bitsPerWord * count.toNat))) ∧
    (∀ (material : Bytes) (count count' : ℤ) (wordlist words words' : List String),
      count ≤ count' → sasWords material count wordlist = .ok words →
        sasWords material count' wordlist = .ok words' → words <+: words') ∧
    (∀ (material : Bytes) (k : ℕ), bitsPerWord * k ≤ 8 * material.length →
      ∀ index < k, ∃ number < wordlistSize, wordIndex material index = .ok number) ∧
    (∀ (material : Bytes) (count : ℤ), 1 ≤ count → count ≤ maxDigitCount → material ≠ [] →
      ∃ text, sasDigits material count = .ok text ∧ text.length = count ∧
        ∀ c ∈ text.toList, c.isDigit) ∧
    (∀ (a b : Bytes) (count : ℤ) (text text' : String), sasDigits a count = .ok text →
      sasDigits b count = .ok text' →
        (text = text' ↔ decode a ≡ decode b [MOD 10 ^ count.toNat])) := by
  refine ⟨?accepted, ?leading, ?longer, ?range, ?digits, ?modulo⟩
  case accepted =>
    intro material count wordlist
    constructor
    · rintro ⟨words, h, -⟩
      exact (sasWords_eq_ok.mp h).1
    · intro h
      refine ⟨_, sasWords_eq_ok.mpr ⟨h, rfl⟩, ?_⟩
      have hnonneg : 0 ≤ count := Int.le_of_lt h.count_bounds.1
      rw [List.length_map, List.length_range, Int.toNat_of_nonneg hnonneg]
  case leading =>
    intro a b count wordlist words words' hlength hnodup ha hb
    exact sasWords_inj hlength hnodup ha hb
  case longer =>
    intro material count count' wordlist words words' hle h h'
    exact sasWords_prefix hle h h'
  case range =>
    intro material k hbits index hindex
    have henough : bitsPerWord * (index + 1) ≤ 8 * material.length :=
      (Nat.mul_le_mul_left _ hindex).trans hbits
    exact ⟨_, ofBits_wordBits_lt material index, wordIndex_eq_ok henough⟩
  case digits =>
    intro material count hpos hmax hmaterial
    have h := sasDigits_eq_ok.mpr ⟨⟨hpos, hmax⟩, hmaterial, rfl⟩
    exact ⟨_, h, length_sasDigits h, isDigit_of_mem_sasDigits h⟩
  case modulo =>
    intro a b count text text' ha hb
    exact sasDigits_inj ha hb

end SecureSync
