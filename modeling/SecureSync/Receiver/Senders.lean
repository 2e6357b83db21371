import SecureSync.Receiver.Assembly

/-!
# Several senders of one file

The receiver drops the identity of a sender before it looks at a push.  Here
each push of a run is paired with its owner, for statements about who sent
what; the events that the receiver is given do not carry it.
-/

namespace SecureSync

open CountedAssembly
open scoped List

/-- An event of a run in which each push is known to come from one of several
senders; the receiver is not told which. -/
inductive SenderEvent (ο : Type) where
  | push (owner : ο) (clock : Clock) (incoming : IncomingPush)
  | sweep (now : ℚ)

section Runs

variable {ο : Type}

def SenderEvent.event : SenderEvent ο → ReceiverEvent
  | .push _ clock incoming => .push clock incoming
  | .sweep now => .sweep now

variable (settings : ReceiverSettings) (name : String) (destination : FilePath)

/-- What an event means for the assembly of one file. -/
def observe (st : ReceiverState) : SenderEvent ο → Event ο Bytes ℕ
  | .push owner _ incoming =>
      if incoming.relativePath = name ∧ settings.Admits st incoming destination then
        .arrive owner incoming.item
      else .skip
  | .sweep now =>
      if (st.pending.lookup name).any (settings.onDisk.isExpired now) then .discard else .skip

def observeRun : ReceiverState → List (SenderEvent ο) → List (Event ο Bytes ℕ)
  | _, [] => []
  | st, e :: es =>
      observe settings name destination st e :: observeRun (settings.step st e.event) es

/-- Pushes under other names lead to other files. -/
def Separate (es : List (SenderEvent ο)) : Prop :=
  resolveWithin settings.resolver settings.syncRoot name = .ok destination ∧
    ∀ owner clock incoming, .push owner clock incoming ∈ es → incoming.relativePath ≠ name →
      resolveWithin settings.resolver settings.syncRoot incoming.relativePath ≠ .ok destination

variable {settings name destination}

theorem separate_of_name {es : List (SenderEvent ο)}
    (hdest : resolveWithin settings.resolver settings.syncRoot name = .ok destination)
    (h : ∀ owner clock incoming, .push owner clock incoming ∈ es → incoming.relativePath = name) :
    Separate settings name destination es :=
  ⟨hdest, fun owner clock incoming hmem hne ↦ absurd (h owner clock incoming hmem) hne⟩

theorem assembly_step {st : ReceiverState} (h : settings.WellFormed st) (e : SenderEvent ο)
    (hsep : Separate settings name destination [e]) :
    (settings.step st e.event).assembly name destination =
      (st.assembly name destination).step [] (observe settings name destination st e) := by
  cases e with
  | sweep now =>
      rw [SenderEvent.event, assembly_sweep h, observe]
      split_ifs <;> rfl
  | push owner clock incoming =>
      by_cases hadmits : ∃ other, settings.Admits st incoming other
      · obtain ⟨other, hadmits⟩ := hadmits
        rw [SenderEvent.event, step_push_of_admits clock hadmits, observe]
        by_cases hname : incoming.relativePath = name
        · subst hname
          cases hsep.1.symm.trans hadmits.1
          rw [if_pos ⟨rfl, hadmits⟩, assembly_accepted]
          rfl
        · have hother : other ≠ destination := by
            rintro rfl
            exact hsep.2 owner clock incoming (by simp) hname hadmits.1
          rw [if_neg (fun h ↦ hname h.1),
            assembly_accepted_of_ne h hadmits (Ne.symm hname) hother]
          rfl
      · have hadmits : ∀ other, ¬ settings.Admits st incoming other := by simpa using hadmits
        rw [SenderEvent.event, step_push_of_not_admits clock hadmits, observe,
          if_neg (fun h ↦ hadmits destination h.2)]
        rfl

/-- A run of the receiver refines a run of the assembly. -/
theorem assembly_run {st : ReceiverState} (h : settings.WellFormed st) (es : List (SenderEvent ο))
    (hsep : Separate settings name destination es) :
    ((es.map SenderEvent.event).foldl settings.step st).assembly name destination =
      (st.assembly name destination).run [] (observeRun settings name destination st es) := by
  induction es generalizing st with
  | nil => rfl
  | cons e es ih =>
      have hone : Separate settings name destination [e] :=
        ⟨hsep.1, fun owner clock incoming hmem ↦
          hsep.2 owner clock incoming (by simp_all)⟩
      have hrest : Separate settings name destination es :=
        ⟨hsep.1, fun owner clock incoming hmem ↦
          hsep.2 owner clock incoming (List.mem_cons_of_mem _ hmem)⟩
      rw [List.map_cons, List.foldl_cons, ih (h.step _) hrest, assembly_step h e hone]
      rfl

/-! ### Taking turns -/

theorem observeRun_eq_append {st : ReceiverState} {es : List (SenderEvent ο)}
    {pre post : List (Event ο Bytes ℕ)} {x : Event ο Bytes ℕ}
    (h : observeRun settings name destination st es = pre ++ x :: post) :
    ∃ pre' e post', es = pre' ++ e :: post' ∧ observeRun settings name destination st pre' = pre ∧
      observe settings name destination ((pre'.map SenderEvent.event).foldl settings.step st) e =
        x := by
  induction pre generalizing st es with
  | nil =>
      cases es with
      | nil => cases h
      | cons e es =>
          cases h
          exact ⟨[], e, es, rfl, rfl, rfl⟩
  | cons y pre ih =>
      cases es with
      | nil => cases h
      | cons e es =>
          rw [observeRun, List.cons_append] at h
          obtain ⟨rfl, hrest⟩ := List.cons.inj h
          obtain ⟨pre', e', post', rfl, hpre, hx⟩ := ih hrest
          exact ⟨e :: pre', e', post', rfl, by rw [observeRun, hpre], hx⟩

def lastPusher (settings : ReceiverSettings) (name : String) (destination : FilePath)
    (st : ReceiverState) (es : List (SenderEvent ο)) : Option ο :=
  lastOwner (observeRun settings name destination st es)

/-- A push of the name that is accepted here finds no file pending under it,
or one that its own owner had the last push accepted for; and `P` holds of
the owner and of the file that the push is to replace. -/
def TurnAt (settings : ReceiverSettings) (name : String) (destination : FilePath)
    (P : ο → Option Bytes → Prop) (st : ReceiverState) (pre : List (SenderEvent ο)) :
    SenderEvent ο → Prop
  | .push owner _ incoming =>
      let reached := settings.onDisk.runForever (pre.map SenderEvent.event) st
      incoming.relativePath = name ∧ settings.Admits reached incoming destination →
        (name ∉ reached.pending ∨ lastPusher settings name destination st pre = some owner) ∧
          P owner (reached.storage.files (.file destination))
  | .sweep _ => True

instance [DecidableEq ο] (P : ο → Option Bytes → Prop) [∀ o c, Decidable (P o c)]
    (st : ReceiverState) (pre : List (SenderEvent ο)) :
    (e : SenderEvent ο) → Decidable (TurnAt settings name destination P st pre e)
  | .push _ _ _ => inferInstanceAs (Decidable (_ → _))
  | .sweep _ => .isTrue trivial

def TakesTurns (settings : ReceiverSettings) (name : String) (destination : FilePath)
    (P : ο → Option Bytes → Prop) (st : ReceiverState) (es : List (SenderEvent ο)) : Prop :=
  ∀ pre e post, es = pre ++ e :: post → TurnAt settings name destination P st pre e

theorem takesTurns_of_getElem {P : ο → Option Bytes → Prop} {st : ReceiverState}
    {es : List (SenderEvent ο)}
    (h : ∀ k (hk : k < es.length), TurnAt settings name destination P st (es.take k) es[k]) :
    TakesTurns settings name destination P st es := by
  rintro pre e post rfl
  simpa using h pre.length (by simp)

theorem exclusive_of_takesTurns {P : ο → Option Bytes → Prop} {st : ReceiverState}
    {es : List (SenderEvent ο)} (hwf : settings.WellFormed st)
    (hsep : Separate settings name destination es)
    (h : TakesTurns settings name destination P st es) :
    (st.assembly name destination).Exclusive [] P
      (observeRun settings name destination st es) := by
  intro pre owner x post hsplit
  obtain ⟨pre', e, post', rfl, hpre, hobserve⟩ := observeRun_eq_append hsplit
  have hsep' : Separate settings name destination pre' :=
    ⟨hsep.1, fun owner clock incoming hmem ↦
      hsep.2 owner clock incoming (List.mem_append_left _ hmem)⟩
  rw [← hpre, ← assembly_run hwf pre' hsep']
  cases e with
  | sweep now =>
      simp only [observe] at hobserve
      split_ifs at hobserve
  | push o clock incoming =>
      simp only [observe] at hobserve
      split_ifs at hobserve with hadmits
      cases hobserve
      have hturn := h pre' _ post' rfl
      rw [TurnAt, runForever_onDisk] at hturn
      obtain ⟨hturn, hP⟩ := hturn hadmits
      exact ⟨hturn.imp_left assembly_buffer_eq_none_iff.mpr, hP⟩

/-! ### What one sender sends -/

variable [DecidableEq ο]

def pushesFrom (name : String) (owner : ο) : List (SenderEvent ο) → List IncomingPush
  | [] => []
  | .push o _ incoming :: es =>
      if o = owner ∧ incoming.relativePath = name then incoming :: pushesFrom name owner es
      else pushesFrom name owner es
  | .sweep _ :: es => pushesFrom name owner es

variable (settings name destination) in
theorem arrivals_observeRun_sublist (owner : ο) (es : List (SenderEvent ο)) (st : ReceiverState) :
    arrivals owner (observeRun settings name destination st es) <+
      (pushesFrom name owner es).map IncomingPush.item := by
  induction es generalizing st with
  | nil => exact List.Sublist.refl _
  | cons e es ih =>
      have ih := ih (settings.step st e.event)
      cases e with
      | sweep now =>
          simp only [observeRun, observe, pushesFrom]
          split_ifs <;> exact ih
      | push o clock incoming =>
          simp only [observeRun, observe, pushesFrom]
          by_cases hmine : o = owner ∧ incoming.relativePath = name
          · obtain ⟨rfl, hname⟩ := hmine
            by_cases hadmits : settings.Admits st incoming destination
            · simpa [arrivals, hname, hadmits] using ih
            · simpa [arrivals, hname, hadmits] using ih.cons _
          · rw [if_neg hmine]
            split_ifs with hadmits
            · have hother : o ≠ owner := fun ho ↦ hmine ⟨ho, hadmits.1⟩
              simpa [arrivals, hother] using ih
            · exact ih

end Runs
end SecureSync
