import SecureSync.Properties.PushAuthenticity

/-!
# What is committed was pushed

The network may lose, hold back, repeat or reorder frames.  A receiver still commits nothing but
chunks that its peers have sealed for it, laid over what the file was before.
-/

namespace SecureSync

open CountedAssembly Raising
open scoped List

/-! ## Pushes with their sessions -/

section Arrived

variable {ο ρ : Type}

def SenderEvent.arrived? : SenderEvent ο → Option (ο × IncomingPush)
  | .push owner _ incoming => some (owner, incoming)
  | .sweep _ => none

/-- The pushes that arrive under a name, each with its owner. -/
def arrivedUnder (name : String) (es : List (SenderEvent ο)) : List (ο × IncomingPush) :=
  (es.filterMap SenderEvent.arrived?).filter fun p ↦ p.2.relativePath = name

/-- The event with its owner forgotten. -/
def SenderEvent.anonymous : SenderEvent ο → SenderEvent Unit
  | .push _ clock incoming => .push () clock incoming
  | .sweep now => .sweep now

theorem event_anonymous (e : SenderEvent ο) : e.anonymous.event = e.event := by
  cases e <;> rfl

theorem pushesFrom_anonymous (name : String) (es : List (SenderEvent ο)) :
    pushesFrom name () (es.map SenderEvent.anonymous) = (arrivedUnder name es).map Prod.snd := by
  induction es with
  | nil => rfl
  | cons e es ih =>
      cases e with
      | sweep now => exact ih
      | push owner clock incoming =>
          by_cases hname : incoming.relativePath = name
          · simpa [pushesFrom, arrivedUnder, SenderEvent.anonymous, SenderEvent.arrived?, hname]
              using ih
          · simpa [pushesFrom, arrivedUnder, SenderEvent.anonymous, SenderEvent.arrived?, hname]
              using ih

theorem separate_anonymous {settings : ReceiverSettings} {name : String} {destination : FilePath}
    {es : List (SenderEvent ο)} (h : Separate settings name destination es) :
    Separate settings name destination (es.map SenderEvent.anonymous) := by
  refine ⟨h.1, fun owner clock incoming hmem hne ↦ ?_⟩
  obtain ⟨e, he, heq⟩ := List.mem_map.mp hmem
  cases e with
  | sweep now => cases heq
  | push o clock' incoming' =>
      cases heq
      exact h.2 o clock incoming he hne

theorem takenFrom_eq [DecidableEq ο] (owner : ο) (es : List (SenderEvent ο)) :
    takenFrom owner es =
      ((es.filterMap SenderEvent.arrived?).filter fun p ↦ p.1 = owner).map Prod.snd := by
  induction es with
  | nil => rfl
  | cons e es ih =>
      cases e with
      | sweep now => exact ih
      | push o clock incoming =>
          by_cases ho : o = owner
          · simpa [takenFrom, SenderEvent.from?, SenderEvent.arrived?, ho] using ih
          · simpa [takenFrom, SenderEvent.from?, SenderEvent.arrived?, ho] using ih

theorem exists_of_subperm_map {f : ο → ρ} {xs : List ρ} {ys : List ο} (h : xs <+~ ys.map f) :
    ∃ zs, zs <+~ ys ∧ xs = zs.map f := by
  obtain ⟨sub, hperm, hsub⟩ := h
  obtain ⟨ys', hys', rfl⟩ := List.sublist_map_iff.mp hsub
  obtain ⟨zs, rfl, hzs⟩ : Relation.Comp (· = List.map f ·) (· ~ ·) xs ys' := by
    rw [List.eq_map_comp_perm]
    exact hperm.symm
  exact ⟨zs, hzs.subperm.trans hys'.subperm, rfl⟩

end Arrived

/-! ## Commits of any run -/

/-- Whoever sends them, the pushes of one name are laid over the file that they replace. -/
theorem commits_of_arrived {ο : Type} {settings : ReceiverSettings} {st : ReceiverState}
    {name : String} {destination : FilePath} {es : List (SenderEvent ο)}
    (hwf : settings.WellFormed st) (hidle : name ∉ st.pending)
    (hsep : Separate settings name destination es) :
    ∃ new, commitsAt destination
        (settings.onDisk.runForever (es.map SenderEvent.event) st).storage.journal =
          commitsAt destination st.storage.journal ++ new ∧
      ∀ c ∈ new, ∃ pushes, pushes <+~ arrivedUnder name es ∧
        c.2 = Overlay.writeAll 0 (c.1.getD []) (pushes.map fun p ↦ p.2.chunk.piece) := by
  let anonymous := es.map SenderEvent.anonymous
  have hbuffer : (st.assembly name destination).buffer = none :=
    assembly_buffer_eq_none_iff.mpr hidle
  have hplanned (o : Unit) : arrivals o (observeRun settings name destination st anonymous) <+~
      (arrivedUnder name es).map fun p ↦ p.2.item := by
    have harrived := (arrivals_observeRun_sublist settings name destination () anonymous st).subperm
    rwa [pushesFrom_anonymous, List.map_map] at harrived
  obtain ⟨-, new, hnew, hcommits⟩ := State.separated_of_exclusive hbuffer
    (observeRun settings name destination st anonymous) hplanned (State.exclusive_unit hbuffer _)
  have hevents : anonymous.map SenderEvent.event = es.map SenderEvent.event := by
    rw [List.map_map]
    exact List.map_congr_left fun e _ ↦ event_anonymous e
  rw [← assembly_run hwf anonymous (separate_anonymous hsep), hevents, ← runForever_onDisk] at hnew
  refine ⟨new, hnew, fun c hc ↦ ?_⟩
  obtain ⟨o, items, hsub, -, -, hvalue⟩ := hcommits c hc
  obtain ⟨pushes, hpushes, rfl⟩ := exists_of_subperm_map hsub
  exact ⟨pushes, hpushes, hvalue.trans (assemble_item _ pushes _)⟩

theorem commitsAt_abortAllPartials (settings : ReceiverSettings) (destination : FilePath)
    (st : ReceiverState) :
    commitsAt destination (settings.onDisk.abortAllPartials st).storage.journal =
      commitsAt destination st.storage.journal := by
  unfold ReceivePushedFiles.abortAllPartials
  dsimp only
  generalize st.storage = storage
  induction st.pending.entries generalizing storage with
  | nil => rfl
  | cons entry entries ih =>
      rw [List.foldl_cons, ih]
      have hunlink : (storage.unlink entry.2.partPath).journal =
          storage.journal ++ [.unlink entry.2.partPath] := Storage.journal_unlink ..
      change commitsAt destination (storage.unlink entry.2.partPath).journal = _
      rw [hunlink, commitsAt_append, commitsAt_unlink, commitsAt_nil, List.append_nil]

theorem commitsAt_leftWith (settings : ReceiverSettings) (destination : FilePath)
    (failure : Option LoopError) (events : List ReceiverEvent) (st : ReceiverState) :
    commitsAt destination (settings.onDisk.leftWith failure events st).storage.journal =
      commitsAt destination (settings.onDisk.runForever events st).storage.journal := by
  unfold ReceivePushedFiles.leftWith
  split
  · rfl
  · rfl
  · exact commitsAt_abortAllPartials settings destination _

namespace PushNetwork

variable {δ π : Type} [DecidableEq δ]

/-- What a receiver commits at a destination is what was there, with chunks laid over it that
its peers have sealed for it in pushes of that name, each no more often than it was sealed. -/
theorem commits_authentic (fleet : PushNetwork δ π) (texts : WireTexts)
    (hlawful : fleet.network.Lawful) (hinj : Function.Injective fleet.network.deviceId)
    (receivers : δ → ReceiverState) {st : Pushing δ π} (hrun : fleet.Run receivers st)
    (hapart : st.world.Apart fleet.network)
    (hmakes : ∀ e ∈ st.world.sent, texts.Makes (fleet.value e.payload)) (d : δ)
    {settings : ReceiverSettings} (hsettings : fleet.receivers d = settings.onDisk)
    {name : String} {destination : FilePath} (hwf : settings.WellFormed (receivers d))
    (hidle : name ∉ (receivers d).pending)
    (hsep : Separate settings name destination (st.events d)) :
    ∃ new, commitsAt destination (st.receivers d).storage.journal =
        commitsAt destination (receivers d).storage.journal ++ new ∧
      ∀ c ∈ new, ∃ pushes : List (Bytes × IncomingPush),
        c.2 = Overlay.writeAll 0 (c.1.getD []) (pushes.map fun p ↦ p.2.chunk.piece) ∧
        ∀ p ∈ pushes, p.2.relativePath = name ∧
          ∃ s d', (d, s) ∈ st.world.recorded ∧ s.sessionId = p.1 ∧
            s.peerId = fleet.network.deviceId d' ∧ d' ≠ d ∧
            (pushes.filter fun q ↦ q.1 = p.1).map Prod.snd <+~
              fleet.pushesIn ((st.world.sealedIn d' p.1).map Sent.payload) := by
  have hkept := hrun.kept hlawful hapart hmakes
  obtain ⟨new, hnew, hcommits⟩ := commits_of_arrived hwf hidle hsep
  refine ⟨new, ?_, fun c hc ↦ ?_⟩
  · rw [(hkept.reflects d).eq_leftWith, hsettings, commitsAt_leftWith, hnew]
  · obtain ⟨pushes, hsub, hvalue⟩ := hcommits c hc
    refine ⟨pushes, hvalue, fun p hp ↦ ?_⟩
    have harrived : (pushes.filter fun q ↦ q.1 = p.1).map Prod.snd <+~
        takenFrom p.1 (st.events d) := by
      rw [takenFrom_eq]
      obtain ⟨between, hperm, hsublist⟩ := hsub
      refine ((hperm.symm.filter _).map _).subperm.trans ?_
      exact ((((hsublist.trans List.filter_sublist)).filter _).map _).subperm
    have hname : p.2.relativePath = name := by
      have hmem := List.of_mem_filter (hsub.subset hp)
      exact of_decide_eq_true hmem
    have hsome : takenFrom p.1 (st.events d) ≠ [] := by
      apply List.ne_nil_of_mem (a := p.2)
      apply harrived.subset
      exact List.mem_map_of_mem (List.mem_filter.mpr ⟨hp, decide_eq_true rfl⟩)
    obtain ⟨s, d', hs, hid, hpeer, hne, htaken⟩ := hkept.exists_peer hlawful hinj hapart hsome
    exact ⟨hname, s, d', hs, hid, hpeer, hne, harrived.trans htaken⟩

/-- Bob commits the file that Alice has pushed. -/
theorem commits_authentic_bob :
    commitsAt samplePath (onePushTaken.receivers true).storage.journal = [(none, [2])] ∧
    ∃ new, commitsAt samplePath (onePushTaken.receivers true).storage.journal = [] ++ new ∧
      ∀ c ∈ new, ∃ pushes : List (Bytes × IncomingPush),
        c.2 = Overlay.writeAll 0 (c.1.getD []) (pushes.map fun p ↦ p.2.chunk.piece) ∧
        ∀ p ∈ pushes, p.2.relativePath = "a.txt" ∧
          ∃ s d', (true, s) ∈ onePushTaken.world.recorded ∧ s.sessionId = p.1 ∧
            s.peerId = onePush.network.deviceId d' ∧ d' ≠ true ∧
            (pushes.filter fun q ↦ q.1 = p.1).map Prod.snd <+~
              onePush.pushesIn ((onePushTaken.world.sealedIn d' p.1).map Sent.payload) := by
  have hrecorded : onePushTaken.world.recorded = pairSessions := by decide +kernel
  have hinj : Function.Injective onePush.network.deviceId := by decide
  have hpushes : (onePushTaken.events true).filterMap SenderEvent.arrived? =
      [((pairTerms true).sessionId, samplePushOf2 none)] := by decide +kernel
  have hsep : Separate sampleReceiver "a.txt" samplePath (onePushTaken.events true) := by
    refine separate_of_name (by decide) fun owner clock incoming hmem ↦ ?_
    have harrived : (owner, incoming) ∈
        (onePushTaken.events true).filterMap SenderEvent.arrived? :=
      List.mem_filterMap.mpr ⟨_, hmem, rfl⟩
    rw [hpushes] at harrived
    cases List.mem_singleton.mp harrived
    rfl
  refine ⟨by decide +kernel, ?_⟩
  exact commits_authentic onePush posixTexts onePush_lawful hinj emptyReceivers onePushTaken_run
    (pair_apart hrecorded) (fun e _ ↦ onePush_makes e.payload) true rfl
    (sampleReceiver.wellFormed_start _ _) (by decide) hsep

end PushNetwork
end SecureSync
