import SecureSync.Receiver.Senders
import SecureSync.Sync.Runs
import Mathlib.Data.List.Permutation
import Mathlib.Data.List.Sublists

/-!
# Several pushes in one pending entry

A pending entry belongs to a name, not to a push.  As long as the pushes of a
name take turns, each commit is made of one push; an entry that outlives its
push, or that two senders fill at once, mixes them.
-/

namespace SecureSync

open CountedAssembly Raising
open scoped List

section

variable {ο : Type} [DecidableEq ο] {W : ο → Type} {run : ∀ o, SyncRun (W o)}
  {answer : ο → Option ManifestWithVersion} {settings : ReceiverSettings} {st : ReceiverState}
  {name : String} {destination : FilePath} {es : List (SenderEvent ο)}

/-- What arrives under the name are chunks that the pushes of their owners
sent, in any order and each at most once. -/
structure ArrivesFrom (run : ∀ o, SyncRun (W o)) (answer : ο → Option ManifestWithVersion)
    (name : String) (es : List (SenderEvent ο)) : Prop where
  relativePath_eq : ∀ o, (run o).relativePath = name
  answers : ∀ o, (run o).Answers (answer o)
  subperm : ∀ o, pushesFrom name o es <+~ (run o).sent

def DistinctDigests (chunks : List Chunk) : Prop := (chunks.filterMap Chunk.digest?).Nodup

instance (chunks : List Chunk) : Decidable (DistinctDigests chunks) :=
  inferInstanceAs (Decidable (List.Nodup _))

theorem subperm_map {α β : Type} (f : α → β) {xs ys : List α} (h : xs <+~ ys) :
    xs.map f <+~ ys.map f := by
  obtain ⟨zs, hperm, hsub⟩ := h
  exact ⟨zs.map f, hperm.map f, hsub.map f⟩

theorem wholeCount_pushesOf {W : Type} {run : SyncRun W} {answer : Option ManifestWithVersion}
    (name : String) (version : Option VersionVector) (h : DistinctDigests (run.missing answer)) :
    WholeCount ((pushesOf name version (run.missing answer)).map IncomingPush.item) := by
  constructor
  · rw [pushesOf, List.map_map, List.map_map]
    exact run.nodup_index_missing answer
  · intro x hx
    obtain ⟨incoming, hincoming, rfl⟩ := List.mem_map.mp hx
    obtain ⟨chunk, -, rfl⟩ := List.mem_map.mp hincoming
    rw [List.length_map, pushesOf, List.length_map, ← run.length_digests_missing answer]
    exact List.toFinset_card_of_nodup h

theorem exists_chunks_of_subperm {f : Chunk → Item Bytes ℕ} {items : List (Item Bytes ℕ)}
    {chunks : List Chunk} (h : items <+~ chunks.map f) :
    ∃ xs, xs <+~ chunks ∧ items = xs.map f := by
  obtain ⟨sub, hperm, hsub⟩ := h
  obtain ⟨chunks', hchunks', rfl⟩ := List.sublist_map_iff.mp hsub
  obtain ⟨xs, rfl, hxs⟩ : Relation.Comp (· = List.map f ·) (· ~ ·) items chunks' := by
    rw [List.eq_map_comp_perm]
    exact hperm.symm
  exact ⟨xs, hxs.subperm.trans hchunks'.subperm, rfl⟩

/-- In a run in which the pushes take turns, every commit is made of what one of
them sends. -/
theorem commits_of_takesTurns {P : ο → Option Bytes → Prop} (h : ArrivesFrom run answer name es)
    (hwf : settings.WellFormed st) (hidle : name ∉ st.pending)
    (hsep : Separate settings name destination es)
    (hturns : TakesTurns settings name destination P st es) :
    ∃ new, commitsAt destination
        (settings.onDisk.runForever (es.map SenderEvent.event) st).storage.journal =
          commitsAt destination st.storage.journal ++ new ∧
      ∀ c ∈ new, ∃ o xs, xs <+~ (run o).missing (answer o) ∧
        (DistinctDigests ((run o).missing (answer o)) → xs ~ (run o).missing (answer o)) ∧
        P o c.1 ∧ c.2 = Overlay.writeAll 0 (c.1.getD []) (xs.map Chunk.piece) := by
  choose version hinitial using fun o ↦ (run o).prefix_sent (h.answers o)
  let planned (o : ο) := pushesOf (run o).relativePath (version o) ((run o).missing (answer o))
  have hplanned (o : ο) : pushesFrom name o es <+~ planned o :=
    (h.subperm o).trans (hinitial o).sublist.subperm
  have harrived (o : ο) := arrivals_observeRun_sublist settings name destination o es st
  obtain ⟨-, new, hnew, hcommits⟩ := State.separated_of_exclusive
    (assembly_buffer_eq_none_iff.mpr hidle) (observeRun settings name destination st es)
    (fun o ↦ (harrived o).subperm.trans (subperm_map _ (hplanned o)))
    (exclusive_of_takesTurns hwf hsep hturns)
  rw [← assembly_run hwf es hsep, ← runForever_onDisk] at hnew
  refine ⟨new, hnew, fun c hc ↦ ?_⟩
  obtain ⟨o, items, hsub, hwhole, hP, hvalue⟩ := hcommits c hc
  simp only [planned, pushesOf, List.map_map] at hsub hwhole
  obtain ⟨xs, hxs, rfl⟩ := exists_chunks_of_subperm hsub
  refine ⟨o, xs, hxs, fun hdistinct ↦ ?_, hP, hvalue.trans (assemble_item _ xs _)⟩
  have hcount := wholeCount_pushesOf (run o).relativePath (version o) hdistinct
  rw [pushesOf, List.map_map] at hcount
  have hlength := (hwhole hcount).length_eq
  rw [List.length_map, List.length_map] at hlength
  exact hxs.perm_of_length_le hlength.symm.le

/-- Senders that take turns never mix: each commit is made of chunks of one
push, and of all of them if they differ. -/
theorem commits_of_one_sender (h : ArrivesFrom run answer name es) (hwf : settings.WellFormed st)
    (hidle : name ∉ st.pending) (hsep : Separate settings name destination es)
    (hturns : TakesTurns settings name destination (fun _ _ ↦ True) st es) :
    ∃ new, commitsAt destination
        (settings.onDisk.runForever (es.map SenderEvent.event) st).storage.journal =
          commitsAt destination st.storage.journal ++ new ∧
      ∀ c ∈ new, ∃ o xs, xs <+~ (run o).missing (answer o) ∧
        (DistinctDigests ((run o).missing (answer o)) → xs ~ (run o).missing (answer o)) ∧
        c.2 = Overlay.writeAll 0 (c.1.getD []) (xs.map Chunk.piece) := by
  obtain ⟨new, hnew, hcommits⟩ := commits_of_takesTurns h hwf hidle hsep hturns
  refine ⟨new, hnew, fun c hc ↦ ?_⟩
  obtain ⟨o, xs, hsub, hall, -, hvalue⟩ := hcommits c hc
  exact ⟨o, xs, hsub, hall, hvalue⟩

end

/-! ## Two senders of one file -/

def sampleSender (o : Bool) : SyncRun Unit :=
  sampleRun (some (if o then [2, 3] else [1, 2])) none (sampleExchange none []) fun _ ↦ 0

def sampleArrival (o : Bool) (incoming : IncomingPush) : SenderEvent Bool :=
  .push o ⟨0, 0⟩ incoming

def sampleTurns : List (SenderEvent Bool) :=
  (sampleSender false).sent.map (sampleArrival false) ++
    (sampleSender true).sent.map (sampleArrival true)

/-- The chunks of both arrive in turn, those of the second in reverse. -/
def sampleMixture : List (SenderEvent Bool) :=
  ((sampleSender false).sent.zip (sampleSender true).sent.reverse).flatMap fun pair ↦
    [sampleArrival false pair.1, sampleArrival true pair.2]

theorem sampleTurns_arrive : ArrivesFrom sampleSender (fun _ ↦ none) "a.txt" sampleTurns :=
  ⟨fun _ ↦ rfl, fun _ ↦ ⟨(), rfl⟩, by decide⟩

theorem sampleTurns_separate : Separate sampleReceiver "a.txt" samplePath sampleTurns := by
  have hname (o : Bool) {incoming : IncomingPush} (h : incoming ∈ (sampleSender o).sent) :
      incoming.relativePath = "a.txt" := by
    obtain ⟨version, hsent⟩ := @SyncRun.prefix_sent Unit (sampleSender o) none ⟨(), rfl⟩
    obtain ⟨chunk, -, rfl⟩ := List.mem_map.mp (hsent.subset h)
    rfl
  apply separate_of_name (by decide)
  intro owner clock incoming hmem
  rcases List.mem_append.mp hmem with hmem | hmem
  · obtain ⟨sent, hsent, heq⟩ := List.mem_map.mp hmem
    cases heq
    exact hname false hsent
  · obtain ⟨sent, hsent, heq⟩ := List.mem_map.mp hmem
    cases heq
    exact hname true hsent

theorem commits_of_one_sender_sample :
    ∃ new, commitsAt samplePath (sampleReceiver.onDisk.runForever
        (sampleTurns.map SenderEvent.event) (sampleReceiverState none)).storage.journal =
          [] ++ new ∧
      ∀ c ∈ new, ∃ o xs, xs <+~ (sampleSender o).missing none ∧
        (DistinctDigests ((sampleSender o).missing none) → xs ~ (sampleSender o).missing none) ∧
        c.2 = Overlay.writeAll 0 (c.1.getD []) (xs.map Chunk.piece) :=
  commits_of_one_sender sampleTurns_arrive (sampleReceiver.wellFormed_start _ _) (by decide)
    sampleTurns_separate (takesTurns_of_getElem (by decide))

/-- The commit takes the first chunk of one push and the last of the other. -/
theorem two_senders_mix :
    ArrivesFrom sampleSender (fun _ ↦ none) "a.txt" sampleMixture ∧
      (∀ o, ∀ incoming ∈ (sampleSender o).sent, sampleReceiver.validate incoming = .ok ()) ∧
      (none, [1, 3]) ∈ commitsAt samplePath (sampleReceiver.onDisk.runForever
        (sampleMixture.map SenderEvent.event) (sampleReceiverState none)).storage.journal ∧
      ∀ o xs, xs <+~ (sampleSender o).missing none →
        Overlay.writeAll 0 [] (xs.map Chunk.piece) ≠ [1, 3] := by
  refine ⟨⟨fun _ ↦ rfl, fun _ ↦ ⟨(), rfl⟩, by decide⟩, by decide, by decide, fun o xs hxs ↦ ?_⟩
  obtain ⟨sub, hperm, hsub⟩ := hxs
  have hall : ∀ o, ∀ sub ∈ ((sampleSender o).missing none).sublists', ∀ xs ∈ sub.permutations',
      Overlay.writeAll 0 [] (xs.map Chunk.piece) ≠ [1, 3] := by decide
  exact hall o sub (List.mem_sublists'.mpr hsub) xs (List.mem_permutations'.mpr hperm.symm)

/-! ## Successive pushes of one sender

Here an owner is one push of a sequence, and `v` gives what it pushes. -/

/-- Pushes of whole files that take turns, each over a file that is not longer,
commit nothing but what was pushed. -/
theorem commits_of_one_version {ο : Type} [DecidableEq ο] {W : ο → Type}
    {run : ∀ o, SyncRun (W o)} {settings : ReceiverSettings} {st : ReceiverState} {name : String}
    {destination : FilePath} {es : List (SenderEvent ο)} {v : ο → Bytes}
    (h : ArrivesFrom run (fun _ ↦ none) name es) (hcontent : ∀ o, (run o).content = some (v o))
    (hwf : settings.WellFormed st) (hidle : name ∉ st.pending)
    (hsep : Separate settings name destination es)
    (hdistinct : ∀ o, DistinctDigests (run o).chunks)
    (hturns : TakesTurns settings name destination
      (fun o old ↦ (old.getD []).length ≤ (v o).length) st es) :
    ∃ new, commitsAt destination
        (settings.onDisk.runForever (es.map SenderEvent.event) st).storage.journal =
          commitsAt destination st.storage.journal ++ new ∧
      ∀ c ∈ new, ∃ o, c.2 = v o := by
  have hmissing (o : ο) : (run o).missing none = (run o).chunks := SyncRun.missing_none
  obtain ⟨new, hnew, hcommits⟩ := commits_of_takesTurns h hwf hidle hsep hturns
  refine ⟨new, hnew, fun c hc ↦ ?_⟩
  obtain ⟨o, xs, -, hall, hlen, hvalue⟩ := hcommits c hc
  rw [hmissing] at hall
  exact ⟨o, hvalue.trans (SyncRun.writeAll_chunks (hcontent o) (hall (hdistinct o)) hlen)⟩

theorem commits_of_one_version_sample :
    ∃ new, commitsAt samplePath (sampleReceiver.onDisk.runForever
        (sampleTurns.map SenderEvent.event) (sampleReceiverState none)).storage.journal =
          [] ++ new ∧
      ∀ c ∈ new, ∃ o, c.2 = if o = true then [2, 3] else [1, 2] := by
  refine commits_of_one_version sampleTurns_arrive (fun o ↦ content_sampleRun ..)
    (sampleReceiver.wellFormed_start _ _) (by decide) sampleTurns_separate (by decide)
    (takesTurns_of_getElem (by decide))

/-- The last chunk of the first push is lost, and the second push arrives in
reverse. -/
def sampleInterrupted : List (SenderEvent Bool) :=
  ((sampleSender false).sent.take 1).map (sampleArrival false) ++
    (sampleSender true).sent.reverse.map (sampleArrival true)

/-- The first chunk to arrive of `[2, 3]` completes what is left of `[1, 2]`. -/
theorem interrupted_push_corrupts :
    ArrivesFrom sampleSender (fun _ ↦ none) "a.txt" sampleInterrupted ∧
      (∀ o, (sampleSender o).content = some (if o then [2, 3] else [1, 2])) ∧
      (none, [1, 3]) ∈ commitsAt samplePath (sampleReceiver.onDisk.runForever
        (sampleInterrupted.map SenderEvent.event) (sampleReceiverState none)).storage.journal ∧
      ∀ o : Bool, (if o then [2, 3] else [1, 2] : Bytes) ≠ [1, 3] :=
  ⟨⟨fun _ ↦ rfl, fun _ ↦ ⟨(), rfl⟩, by decide⟩, fun o ↦ content_sampleRun .., by decide,
    by decide⟩

end SecureSync
