import Mathlib.Tactic.TypeStar

/-!
# Exact codecs

A decoder that accepts what encodes an admitted value and nothing else, returns
this value, and explains why it refuses other input.
-/

namespace Codec

variable {ε α β γ : Type}

structure Exact (encode : α → Except ε β) (Admits : α → Prop) (decode : β → Except ε γ)
    (value : γ → α) (Explains : β → ε → Prop) : Prop where
  accepts_iff : ∀ b, (∃ c, decode b = .ok c) ↔ ∃ a, encode a = .ok b ∧ Admits a
  value_eq : ∀ a b c, encode a = .ok b → Admits a → decode b = .ok c → value c = a
  encode_value : ∀ b c, decode b = .ok c → encode (value c) = .ok b
  explains : ∀ b e, decode b = .error e → Explains b e

variable {encode : α → Except ε β} {Admits : α → Prop} {decode : β → Except ε γ} {value : γ → α}
  {Explains : β → ε → Prop}

/-- A round trip in each direction is enough. -/
theorem exact_of_roundTrips
    (hdecode : ∀ a b, encode a = .ok b → Admits a → ∃ c, decode b = .ok c ∧ value c = a)
    (hencode : ∀ b c, decode b = .ok c → encode (value c) = .ok b ∧ Admits (value c))
    (hexplains : ∀ b e, decode b = .error e → Explains b e) :
    Exact encode Admits decode value Explains where
  accepts_iff b := by
    constructor
    · rintro ⟨c, hc⟩
      exact ⟨value c, hencode b c hc⟩
    · rintro ⟨a, ha, hadmits⟩
      obtain ⟨c, hc, -⟩ := hdecode a b ha hadmits
      exact ⟨c, hc⟩
  value_eq a b c ha hadmits hc := by
    obtain ⟨c', hc', hvalue⟩ := hdecode a b ha hadmits
    rw [hc] at hc'
    rw [Except.ok.inj hc', hvalue]
  encode_value b c hc := (hencode b c hc).1
  explains := hexplains

end Codec
