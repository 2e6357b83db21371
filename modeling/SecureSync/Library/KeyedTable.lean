import Mathlib.Data.List.Nodup

/-!
# Tables with a key in each record

A table lists records in the order in which their keys were first entered, and
no two records have the same key.
-/

namespace KeyedTable

structure Table {α κ : Type} (key : α → κ) where
  items : List α
  nodup : (items.map key).Nodup

variable {α κ : Type} {key : α → κ}

namespace Table

@[ext] theorem ext {t u : Table key} (h : t.items = u.items) : t = u := by
  cases t
  cases u
  congr

def empty : Table key := ⟨[], List.nodup_nil⟩

theorem eq_of_mem {t : Table key} {a b : α} (ha : a ∈ t.items) (hb : b ∈ t.items)
    (h : key a = key b) : a = b :=
  List.inj_on_of_nodup_map t.nodup ha hb h

def filter (t : Table key) (p : α → Bool) : Table key where
  items := t.items.filter p
  nodup := t.nodup.sublist (List.filter_sublist.map key)

theorem mem_filter {t : Table key} {p : α → Bool} {a : α} :
    a ∈ (t.filter p).items ↔ a ∈ t.items ∧ p a = true := List.mem_filter

variable [DecidableEq κ]

def find? (t : Table key) (k : κ) : Option α := t.items.find? fun a ↦ key a = k

theorem find?_eq_some {t : Table key} {k : κ} {a : α} :
    t.find? k = some a ↔ a ∈ t.items ∧ key a = k := by
  constructor
  · intro h
    exact ⟨List.mem_of_find?_eq_some h, by simpa using List.find?_some h⟩
  · rintro ⟨ha, rfl⟩
    cases h : t.find? (key a) with
    | none =>
        have hne := List.find?_eq_none.mp h a ha
        simp at hne
    | some b =>
        have hb : key b = key a := by simpa using List.find?_some h
        rw [t.eq_of_mem (List.mem_of_find?_eq_some h) ha hb]

theorem find?_eq_none {t : Table key} {k : κ} : t.find? k = none ↔ ∀ a ∈ t.items, key a ≠ k := by
  simp [find?]

theorem find?_key {t : Table key} {k : κ} {a : α} (h : t.find? k = some a) : key a = k :=
  (find?_eq_some.mp h).2

theorem find?_filter {t : Table key} {p : α → Bool} {k : κ} :
    (t.filter p).find? k = (t.find? k).filter p := by
  ext a
  rw [Option.filter_eq_some_iff, find?_eq_some, find?_eq_some, mem_filter]
  tauto

/-! ## Writing -/

def erase (t : Table key) (k : κ) : Table key := t.filter fun a ↦ key a ≠ k

theorem mem_erase {t : Table key} {k : κ} {a : α} :
    a ∈ (t.erase k).items ↔ a ∈ t.items ∧ key a ≠ k := by
  rw [erase, mem_filter, decide_eq_true_iff]

/-- A record takes the place of the one with its key, or goes to the end. -/
def set (t : Table key) (a : α) : Table key where
  items :=
    if t.items.any fun b ↦ key b = key a then
      t.items.map fun b ↦ if key b = key a then a else b
    else t.items ++ [a]
  nodup := by
    split_ifs with h
    · have hkeys : (t.items.map fun b ↦ if key b = key a then a else b).map key =
          t.items.map key := by
        rw [List.map_map]
        apply List.map_congr_left
        intro b _
        by_cases hb : key b = key a <;> simp [hb]
      rw [hkeys]
      exact t.nodup
    · rw [List.map_append, List.map_singleton, ← List.concat_eq_append]
      apply List.Nodup.concat _ t.nodup
      simpa using h

theorem mem_set {t : Table key} {a b : α} :
    b ∈ (t.set a).items ↔ b = a ∨ b ∈ t.items ∧ key b ≠ key a := by
  unfold set
  split_ifs with h
  · obtain ⟨c, hc, hca⟩ : ∃ c ∈ t.items, key c = key a := by simpa using h
    simp only [List.mem_map]
    constructor
    · rintro ⟨d, hd, hdb⟩
      split_ifs at hdb with hkey
      · exact .inl hdb.symm
      · exact .inr (hdb ▸ ⟨hd, hkey⟩)
    · rintro (rfl | ⟨hb, hne⟩)
      · exact ⟨c, hc, if_pos hca⟩
      · exact ⟨b, hb, if_neg hne⟩
  · have hfresh : ∀ c ∈ t.items, key c ≠ key a := by simpa using h
    simp only [List.mem_append, List.mem_singleton]
    constructor
    · rintro (hb | rfl)
      · exact .inr ⟨hb, hfresh b hb⟩
      · exact .inl rfl
    · rintro (rfl | ⟨hb, -⟩)
      · exact .inr rfl
      · exact .inl hb

@[simp] theorem find?_set_self {t : Table key} {a : α} : (t.set a).find? (key a) = some a := by
  rw [find?_eq_some, mem_set]
  exact ⟨.inl rfl, rfl⟩

theorem find?_set_of_ne {t : Table key} {a : α} {k : κ} (h : k ≠ key a) :
    (t.set a).find? k = t.find? k := by
  ext b
  rw [find?_eq_some, find?_eq_some, mem_set]
  constructor
  · rintro ⟨rfl | ⟨hb, -⟩, rfl⟩
    · exact absurd rfl h
    · exact ⟨hb, rfl⟩
  · rintro ⟨hb, rfl⟩
    exact ⟨.inr ⟨hb, h⟩, rfl⟩

theorem items_set_of_find? {t : Table key} {a : α} (h : t.find? (key a) = none) :
    (t.set a).items = t.items ++ [a] := by
  have hfresh : ¬ (t.items.any fun b ↦ key b = key a) = true := by
    simpa using find?_eq_none.mp h
  rw [set]
  exact if_neg hfresh

/-- Replacing a record changes nothing that all records of its key agree on. -/
theorem map_set {β : Type} {t : Table key} {a b : α} {f : α → β} (hb : t.find? (key a) = some b)
    (hf : f a = f b) : (t.set a).items.map f = t.items.map f := by
  obtain ⟨hmem, hkey⟩ := find?_eq_some.mp hb
  have hany : (t.items.any fun c ↦ key c = key a) = true := by
    simpa using ⟨b, hmem, hkey⟩
  have hitems : (t.set a).items = t.items.map fun c ↦ if key c = key a then a else c := if_pos hany
  rw [hitems, List.map_map]
  apply List.map_congr_left
  intro c hc
  by_cases hca : key c = key a
  · rw [Function.comp_apply, if_pos hca, hf, t.eq_of_mem hc hmem (hca.trans hkey.symm)]
  · rw [Function.comp_apply, if_neg hca]

/-- Replacing a record by one that has no property more adds none to the count. -/
theorem countP_set_le {t : Table key} {a b : α} {p : α → Bool} (hb : t.find? (key a) = some b)
    (hp : p a = true → p b = true) : (t.set a).items.countP p ≤ t.items.countP p := by
  obtain ⟨hmem, hkey⟩ := find?_eq_some.mp hb
  have hany : (t.items.any fun c ↦ key c = key a) = true := by
    simpa using ⟨b, hmem, hkey⟩
  have hitems : (t.set a).items = t.items.map fun c ↦ if key c = key a then a else c := if_pos hany
  rw [hitems, List.countP_map]
  apply List.countP_mono_left
  intro c hc hpc
  by_cases hca : key c = key a
  · rw [Function.comp_apply, if_pos hca] at hpc
    rw [t.eq_of_mem hc hmem (hca.trans hkey.symm)]
    exact hp hpc
  · rwa [Function.comp_apply, if_neg hca] at hpc

/-- Entering a list of records with distinct keys. -/
theorem find?_foldl_set {l : List α} (hl : (l.map key).Nodup) {t : Table key} {k : κ} :
    (l.foldl set t).find? k = (l.find? fun a ↦ key a = k).or (t.find? k) := by
  induction l generalizing t with
  | nil => rfl
  | cons a l ih =>
      obtain ⟨ha, hl⟩ := List.nodup_cons.mp hl
      rw [List.foldl_cons, ih hl, List.find?_cons]
      by_cases hk : key a = k
      · have hnone : (l.find? fun b ↦ key b = k) = none := by
          rw [List.find?_eq_none]
          intro b hb
          simpa using fun hbk ↦ ha (List.mem_map.mpr ⟨b, hb, hbk.trans hk.symm⟩)
        rw [hnone, decide_eq_true hk, ← hk, find?_set_self]
        rfl
      · rw [decide_eq_false hk, find?_set_of_ne (Ne.symm hk)]

end Table
end KeyedTable
