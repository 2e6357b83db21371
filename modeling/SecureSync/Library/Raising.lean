import Mathlib.Data.List.Forall2
import Mathlib.Tactic.SplitIfs

/-!
# State transformers that raise

`EStateM ε σ` keeps the state reached when an error is raised.  These lemmas
run one step of a `do` block at a time, or take a successful run apart.
-/

namespace Raising

variable {ε ε' σ τ α β : Type} (s : σ)

theorem bind_run (x : EStateM ε σ α) (f : α → EStateM ε σ β) :
    (x >>= f) s =
      match x s with
      | .ok a t => f a t
      | .error e t => .error e t := by
  cases h : x s <;> simp only [bind, EStateM.bind, h]

theorem pure_run (a : α) : (pure a : EStateM ε σ α) s = .ok a s := rfl

theorem throw_run (e : ε) : (throw e : EStateM ε σ α) s = .error e s := rfl

theorem get_run : (get : EStateM ε σ σ) s = .ok s s := rfl

variable {s}

theorem bind_eq_ok {x : EStateM ε σ α} {f : α → EStateM ε σ β} {b : β} {t : σ} :
    (x >>= f) s = .ok b t ↔ ∃ a u, x s = .ok a u ∧ f a u = .ok b t := by
  rw [bind_run]
  cases x s with
  | ok a u => simp [and_assoc]
  | error e u => simp

theorem pure_eq_ok {a b : α} {t : σ} :
    (pure a : EStateM ε σ α) s = .ok b t ↔ a = b ∧ s = t := by
  rw [pure_run, EStateM.Result.ok.injEq]

theorem adaptExcept_eq_ok {wrap : ε → ε'} {x : EStateM ε σ α} {a : α} {t : σ} :
    EStateM.adaptExcept wrap x s = .ok a t ↔ x s = .ok a t := by
  unfold EStateM.adaptExcept
  cases x s <;> simp

theorem adaptExcept_eq_error {wrap : ε → ε'} {x : EStateM ε σ α} {e : ε'} {t : σ} :
    EStateM.adaptExcept wrap x s = .error e t ↔ ∃ e', x s = .error e' t ∧ wrap e' = e := by
  unfold EStateM.adaptExcept
  cases x s with
  | ok a u => simp
  | error e' u =>
      constructor
      · rintro ⟨⟩
        exact ⟨e', rfl, rfl⟩
      · rintro ⟨_, ⟨⟩, rfl⟩
        rfl

theorem except_bind_eq_ok {x : Except ε α} {f : α → Except ε β} {b : β} :
    (x >>= f) = .ok b ↔ ∃ a, x = .ok a ∧ f a = .ok b := by
  cases x <;> simp [bind, Except.bind]

theorem except_ok_bind (a : α) (f : α → Except ε β) : (Except.ok a >>= f) = f a := rfl

/-- Raise `e` unless the condition holds. -/
def require (condition : Prop) [Decidable condition] (e : ε) : Except ε Unit :=
  if condition then .ok () else .error e

theorem require_eq_ok {condition : Prop} [Decidable condition] {e : ε} {u : Unit} :
    require condition e = .ok u ↔ condition := by
  unfold require
  split_ifs with h
  · exact iff_of_true rfl h
  · exact iff_of_false nofun h

theorem except_mapError_eq_ok {wrap : ε → ε'} {x : Except ε α} {a : α} :
    x.mapError wrap = .ok a ↔ x = .ok a := by
  cases x with
  | ok b => exact ⟨fun h ↦ congrArg _ (Except.ok.inj h), fun h ↦ congrArg _ (Except.ok.inj h)⟩
  | error e => exact ⟨nofun, nofun⟩

theorem except_bind_eq_error {x : Except ε α} {f : α → Except ε β} {e : ε} :
    (x >>= f) = .error e ↔ x = .error e ∨ ∃ a, x = .ok a ∧ f a = .error e := by
  cases x <;> simp [bind, Except.bind]

theorem except_mapError_eq_error {x : Except ε α} {wrap : ε → ε'} {e : ε'} :
    x.mapError wrap = .error e ↔ ∃ e', x = .error e' ∧ wrap e' = e := by
  cases x <;> simp [Except.mapError]

/-- A traversal returns what its steps return. -/
theorem except_mapM_eq_ok {f : α → Except ε β} {as : List α} {bs : List β} :
    as.mapM f = .ok bs ↔ List.Forall₂ (fun a b ↦ f a = .ok b) as bs := by
  induction as generalizing bs with
  | nil =>
      rw [List.mapM_nil, List.forall₂_nil_left_iff]
      exact ⟨fun h ↦ (Except.ok.inj h).symm, fun h ↦ congrArg _ h.symm⟩
  | cons a as ih =>
      rw [List.mapM_cons, List.forall₂_cons_left_iff, except_bind_eq_ok]
      constructor
      · rintro ⟨b, hb, hlater⟩
        obtain ⟨later, hlater, hbs⟩ := except_bind_eq_ok.mp hlater
        exact ⟨b, later, hb, ih.mp hlater, (Except.ok.inj hbs).symm⟩
      · rintro ⟨b, later, hb, hlater, rfl⟩
        exact ⟨b, hb, except_bind_eq_ok.mpr ⟨later, ih.mpr hlater, rfl⟩⟩

section ExceptRaises

variable {P : ε → Prop}

/-- What a computation without state may raise. -/
def ExceptRaises (P : ε → Prop) (x : Except ε α) : Prop := ∀ e, x = .error e → P e

theorem exceptRaises_ok (a : α) : ExceptRaises P (.ok a) := fun _ h ↦ nomatch h

theorem exceptRaises_error {e : ε} (h : P e) : ExceptRaises P (.error e : Except ε α) := by
  rintro _ ⟨⟩
  exact h

theorem exceptRaises_require {condition : Prop} [Decidable condition] {e : ε}
    (h : ¬ condition → P e) : ExceptRaises P (require condition e) := by
  unfold require
  split_ifs with hcondition
  · exact exceptRaises_ok _
  · exact exceptRaises_error (h hcondition)

theorem ExceptRaises.mono {Q : ε → Prop} {x : Except ε α} (h : ∀ e, P e → Q e)
    (hx : ExceptRaises P x) : ExceptRaises Q x :=
  fun e he ↦ h e (hx e he)

/-- The later steps matter only where the first one returns. -/
theorem ExceptRaises.bind {x : Except ε α} {f : α → Except ε β} (hx : ExceptRaises P x)
    (hf : ∀ a, x = .ok a → ExceptRaises P (f a)) : ExceptRaises P (x >>= f) := by
  intro e h
  rcases except_bind_eq_error.mp h with h | ⟨a, ha, h⟩
  · exact hx e h
  · exact hf a ha e h

end ExceptRaises

/-- Run a transformer on one part of a larger state. -/
def zoom (get : σ → τ) (set : τ → σ → σ) (wrap : ε → ε') (x : EStateM ε τ α) :
    EStateM ε' σ α := fun s ↦
  match x (get s) with
  | .ok a t => .ok a (set t s)
  | .error e t => .error (wrap e) (set t s)

theorem zoom_eq_ok {get : σ → τ} {set : τ → σ → σ} {wrap : ε → ε'} {x : EStateM ε τ α} {a : α}
    {s' : σ} : zoom get set wrap x s = .ok a s' ↔ ∃ t, x (get s) = .ok a t ∧ set t s = s' := by
  unfold zoom
  cases x (get s) with
  | ok b t => simp [and_assoc]
  | error e t => simp

def orRaise (wrap : ε → ε') : Except ε α → EStateM ε' σ α
  | .ok a => pure a
  | .error e => throw (wrap e)

theorem orRaise_eq_ok {wrap : ε → ε'} {x : Except ε α} {a : α} {t : σ} :
    orRaise wrap x s = .ok a t ↔ x = .ok a ∧ s = t := by
  cases x with
  | ok b => simp [orRaise, pure_run]
  | error e => simp [orRaise, throw_run]

/-- The state in which a run ends, whether or not it raised. -/
def stateOf : EStateM.Result ε σ α → σ
  | .ok _ s => s
  | .error _ s => s

def value? : EStateM.Result ε σ α → Option α
  | .ok a _ => some a
  | .error _ _ => none

theorem value?_eq_some {r : EStateM.Result ε σ α} {a : α} :
    value? r = some a ↔ ∃ s, r = .ok a s := by
  cases r with
  | ok b s => simp [value?]
  | error e s => simp [value?]

def Completed : EStateM.Result ε σ α → Prop
  | .ok _ _ => True
  | .error _ _ => False

instance (r : EStateM.Result ε σ α) : Decidable (Completed r) :=
  match r with
  | .ok _ _ => .isTrue trivial
  | .error _ _ => .isFalse id

theorem Completed.exists_ok {r : EStateM.Result ε σ α} (h : Completed r) : ∃ a s, r = .ok a s :=
  match r, h with
  | .ok a s, _ => ⟨a, s, rfl⟩

/-! ## Parts of the state that a run leaves alone -/

section Keeps

variable {γ : Type} {g : σ → γ}

/-- This part of the state is the same after a run, also after one that raised. -/
def Keeps (g : σ → γ) (x : EStateM ε σ α) : Prop := ∀ s, g (stateOf (x s)) = g s

theorem keeps_pure (a : α) : Keeps g (pure a : EStateM ε σ α) := fun _ ↦ rfl

theorem keeps_get : Keeps g (get : EStateM ε σ σ) := fun _ ↦ rfl

theorem keeps_modify {f : σ → σ} (h : ∀ s, g (f s) = g s) :
    Keeps g (modify f : EStateM ε σ PUnit) := h

theorem keeps_orRaise (wrap : ε → ε') (x : Except ε α) :
    Keeps g (orRaise wrap x : EStateM ε' σ α) := by
  cases x <;> exact fun _ ↦ rfl

theorem keeps_zoom {get : σ → τ} {set : τ → σ → σ} {wrap : ε → ε'} {x : EStateM ε τ α}
    (h : ∀ t s, g (set t s) = g s) : Keeps g (zoom get set wrap x) := by
  intro s
  unfold zoom
  cases x (get s) <;> exact h _ s

theorem Keeps.bind {x : EStateM ε σ α} {f : α → EStateM ε σ β} (hx : Keeps g x)
    (hf : ∀ a, Keeps g (f a)) : Keeps g (x >>= f) := by
  intro s
  rw [bind_run]
  cases h : x s with
  | ok a t => exact (hf a t).trans (by simpa only [h, stateOf] using hx s)
  | error e t => simpa only [h, stateOf] using hx s

/-- What comes after `x` does not touch this part of the state. -/
theorem stateOf_bind {x : EStateM ε σ α} {f : α → EStateM ε σ β} (hf : ∀ a, Keeps g (f a))
    (s : σ) : g (stateOf ((x >>= f) s)) = g (stateOf (x s)) := by
  rw [bind_run]
  cases x s with
  | ok a t => exact hf a t
  | error e t => rfl

def KeepsOnError (g : σ → γ) (x : EStateM ε σ α) : Prop :=
  ∀ s e t, x s = .error e t → g t = g s

theorem Keeps.onError {x : EStateM ε σ α} (hx : Keeps g x) : KeepsOnError g x := by
  intro s e t h
  simpa only [h, stateOf] using hx s

theorem Keeps.bind_onError {x : EStateM ε σ α} {f : α → EStateM ε σ β} (hx : Keeps g x)
    (hf : ∀ a, KeepsOnError g (f a)) : KeepsOnError g (x >>= f) := by
  intro s e t h
  rw [bind_run] at h
  cases hrun : x s with
  | ok a u =>
      rw [hrun] at h
      exact (hf a u e t h).trans (by simpa only [hrun, stateOf] using hx s)
  | error e' u =>
      rw [hrun] at h
      cases h
      exact hx.onError s e t hrun

end Keeps

/-! ## How far a run goes -/

section Advances

variable {r : σ → σ → Prop}

/-- A relation between the states before and after a run, also one that raised. -/
def Advances (r : σ → σ → Prop) (x : EStateM ε σ α) : Prop := ∀ s, r s (stateOf (x s))

theorem advances_of_refl (hrefl : ∀ s, r s s) {x : EStateM ε σ α} (hx : ∀ s, stateOf (x s) = s) :
    Advances r x := by
  intro s
  rw [hx s]
  exact hrefl s

theorem Advances.bind (htrans : ∀ s t u, r s t → r t u → r s u) {x : EStateM ε σ α}
    {f : α → EStateM ε σ β} (hx : Advances r x) (hf : ∀ a, Advances r (f a)) :
    Advances r (x >>= f) := by
  intro s
  have hfirst := hx s
  rw [bind_run]
  cases h : x s with
  | ok a t =>
      rw [h] at hfirst
      exact htrans _ _ _ hfirst (hf a t)
  | error e t =>
      rw [h] at hfirst
      exact hfirst

theorem stateOf_adaptExcept (wrap : ε → ε') (x : EStateM ε σ α) (s : σ) :
    stateOf (EStateM.adaptExcept wrap x s) = stateOf (x s) := by
  unfold EStateM.adaptExcept
  cases x s <;> rfl

theorem Advances.adaptExcept {x : EStateM ε σ α} (hx : Advances r x) (wrap : ε → ε') :
    Advances r (EStateM.adaptExcept wrap x) := by
  intro s
  rw [stateOf_adaptExcept]
  exact hx s

end Advances

/-! ## What a run may raise -/

section RaisesOnly

variable {P : ε → Prop} {P' : ε' → Prop}

def RaisesOnly (P : ε → Prop) (x : EStateM ε σ α) : Prop := ∀ s e t, x s = .error e t → P e

theorem raisesOnly_pure (a : α) : RaisesOnly P (pure a : EStateM ε σ α) := fun _ _ _ h ↦ nomatch h

theorem raisesOnly_get : RaisesOnly P (get : EStateM ε σ σ) := fun _ _ _ h ↦ nomatch h

theorem raisesOnly_modify (f : σ → σ) : RaisesOnly P (modify f : EStateM ε σ PUnit) :=
  fun _ _ _ h ↦ nomatch h

theorem raisesOnly_throw {e : ε} (h : P e) : RaisesOnly P (throw e : EStateM ε σ α) := by
  intro s e' t hthrow
  cases hthrow
  exact h

theorem raisesOnly_of_completed {x : EStateM ε σ α} (h : ∀ s, Completed (x s)) :
    RaisesOnly P x := by
  intro s e t herror
  have hcompleted := h s
  rw [herror] at hcompleted
  exact hcompleted.elim

theorem raisesOnly_orRaise {wrap : ε → ε'} (h : ∀ e, P' (wrap e)) (x : Except ε α) :
    RaisesOnly P' (orRaise wrap x : EStateM ε' σ α) := by
  cases x with
  | ok a => exact raisesOnly_pure a
  | error e => exact raisesOnly_throw (h e)

/-- What a run from this state may raise. -/
def RaisesAt (P : ε → Prop) (x : EStateM ε σ α) (s : σ) : Prop := ∀ e t, x s = .error e t → P e

theorem raisesAt_pure (a : α) : RaisesAt P (pure a : EStateM ε σ α) s := fun _ _ h ↦ nomatch h

theorem RaisesAt.zoom {get : σ → τ} {set : τ → σ → σ} {wrap : ε → ε'} {x : EStateM ε τ α}
    (hx : RaisesAt P x (get s)) (h : ∀ e, P e → P' (wrap e)) :
    RaisesAt P' (zoom get set wrap x) s := by
  intro e t herror
  unfold Raising.zoom at herror
  cases hrun : x (get s) with
  | ok a u =>
      rw [hrun] at herror
      cases herror
  | error e' u =>
      rw [hrun] at herror
      cases herror
      exact h _ (hx _ _ hrun)

/-- The later steps matter only where the first one has come to. -/
theorem RaisesAt.bind {x : EStateM ε σ α} {f : α → EStateM ε σ β} (hx : RaisesAt P x s)
    (hf : ∀ a t, x s = .ok a t → RaisesAt P (f a) t) : RaisesAt P (x >>= f) s := by
  intro e t h
  rw [bind_run] at h
  cases hrun : x s with
  | ok a u =>
      rw [hrun] at h
      exact hf a u hrun e t h
  | error e' u =>
      rw [hrun] at h
      cases h
      exact hx e t hrun

theorem RaisesOnly.zoom {get : σ → τ} {set : τ → σ → σ} {wrap : ε → ε'} {x : EStateM ε τ α}
    (hx : RaisesOnly P x) (h : ∀ e, P e → P' (wrap e)) :
    RaisesOnly P' (zoom get set wrap x) :=
  fun s ↦ RaisesAt.zoom (hx (get s)) h

theorem RaisesOnly.bind {x : EStateM ε σ α} {f : α → EStateM ε σ β} (hx : RaisesOnly P x)
    (hf : ∀ a, RaisesOnly P (f a)) : RaisesOnly P (x >>= f) :=
  fun s ↦ RaisesAt.bind (hx s) fun a t _ ↦ hf a t

end RaisesOnly

end Raising
