import SecureSync.Properties.OrphanFiles
import SecureSync.Receiver.Journal

/-!
# Spellings of one file

The bytes of a push go where its path leads, but progress and records are kept
by the name as it was sent.  To the receiver two spellings are two files.
-/

namespace SecureSync

open Raising

section

variable {settings : ReceiverSettings} {services : Services} {st : ReceiverState} {clock : Clock}
  {incoming : IncomingPush} {name other : String}

theorem PushEffect.lookup_of_ne {result : EStateM.Result PushError ReceiverState Unit}
    (heffect : PushEffect settings services.os clock incoming st result)
    (hother : other ≠ incoming.relativePath) :
    (stateOf result).pending.lookup other = st.pending.lookup other := by
  cases heffect with
  | refused | notBegun => rfl
  | notWritten | held | notCommitted => exact AList.lookup_insert_ne hother
  | committed hadmits hentry hwrite hcommit hstorage hpending =>
      rw [hpending]
      exact AList.lookup_erase_ne hother

theorem RecordEffect.metadata_of_ne {result : EStateM.Result PushError ReceiverState Unit}
    (heffect : RecordEffect settings services clock incoming st result)
    (hother : other ≠ incoming.relativePath) :
    (stateOf result).metadata other = st.metadata other := by
  cases heffect with
  | kept hmetadata => rw [hmetadata]
  | saved hadmits hentry hwrite hmetadata =>
      rw [hmetadata]
      exact Function.update_of_ne hother _ _

/-- The record of the name is as before, and so is its entry, unless it has been given up. -/
def Undisturbed (name : String) (st st' : ReceiverState) : Prop :=
  st'.metadata name = st.metadata name ∧
    (st'.pending.lookup name = st.pending.lookup name ∨ st'.pending.lookup name = none)

theorem undisturbed_refl (name : String) (st : ReceiverState) : Undisturbed name st st :=
  ⟨rfl, .inl rfl⟩

theorem Undisturbed.trans {st' st'' : ReceiverState} (h : Undisturbed name st st')
    (h' : Undisturbed name st' st'') : Undisturbed name st st'' := by
  refine ⟨h'.1.trans h.1, ?_⟩
  rcases h'.2 with hkept | hgone
  · rw [hkept]
    exact h.2
  · exact .inr hgone

theorem undisturbed_handlePush (hfaithful : services.metadataRepo.Faithful) (clock : Clock)
    (st : ReceiverState) (hother : other ≠ incoming.relativePath) :
    Undisturbed other st
      (stateOf ((settings.under services).handlePush clock incoming st)) :=
  ⟨(recordEffect_handlePush hfaithful clock incoming st).metadata_of_ne hother,
    .inl ((handlePush_under settings services clock incoming st).lookup_of_ne hother)⟩

theorem undisturbed_foldl_abortPending (settings : ReceiverSettings) (services : Services)
    (names : List String) (name : String) (st : ReceiverState) :
    Undisturbed name st
      (names.foldl (fun st name ↦ (settings.under services).abortPending name st) st) := by
  refine ⟨congrFun (metadata_foldl_abortPending settings services names st) name, ?_⟩
  cases hleft : (names.foldl (fun st name ↦ (settings.under services).abortPending name st)
      st).pending.lookup name with
  | none => exact .inr rfl
  | some p => exact .inl (lookup_foldl_abortPending settings services names st name p hleft).symm

theorem undisturbed_abortAllPartials (settings : ReceiverSettings) (services : Services)
    (name : String) (st : ReceiverState) :
    Undisturbed name st ((settings.under services).abortAllPartials st) :=
  ⟨rfl, .inr rfl⟩

/-- Nothing is pushed under the name. -/
def Spares (name : String) (input : Services × ReceiverInput) : Prop :=
  match input.2 with
  | .event (.push _ incoming) => name ≠ incoming.relativePath
  | _ => True

theorem undisturbed_advance {run : ReceiverRun} {input : Services × ReceiverInput}
    (hfaithful : input.1.metadataRepo.Faithful) (hspares : Spares name input) :
    Undisturbed name run.state (settings.advance run input).state := by
  apply advance_rule settings (undisturbed_refl name run.state)
  · exact fun st h ↦ h.trans (undisturbed_abortAllPartials settings input.1 name st)
  · intro event _ hinput
    cases event with
    | sweep now => exact undisturbed_foldl_abortPending settings input.1 _ name run.state
    | push clock incoming =>
        rw [Spares, hinput] at hspares
        rw [handleEvent_push]
        exact undisturbed_handlePush hfaithful clock run.state hspares

theorem undisturbed_run (run : ReceiverRun) (inputs : List (Services × ReceiverInput))
    (hfaithful : ∀ input ∈ inputs, input.1.metadataRepo.Faithful)
    (hspares : ∀ input ∈ inputs, Spares name input) :
    Undisturbed name run.state (inputs.foldl settings.advance run).state := by
  induction inputs generalizing run with
  | nil => exact undisturbed_refl name run.state
  | cons input inputs ih =>
      obtain ⟨hinput, hinputs⟩ := List.forall_mem_cons.mp hfaithful
      obtain ⟨hfirst, hlater⟩ := List.forall_mem_cons.mp hspares
      exact (undisturbed_advance hinput hfirst).trans (ih _ hinputs hlater)

theorem sound_journaled (settings : ReceiverSettings) (files : FilePath → Option Bytes)
    (metadata : MetadataStore) (inputs : List (Services × ReceiverInput)) :
    settings.Sound (settings.journaled (.ofFiles files) metadata inputs).run := by
  rw [ReceiverSettings.journaled, run_foldl_record]
  induction inputs using List.reverseRecOn with
  | nil => exact settings.sound_start files metadata
  | append_singleton inputs input ih =>
      rw [List.foldl_append]
      exact ih.advance

/-- A push that closes its entry has saved what the pushes of its name make. -/
theorem committed_push {journal : PushJournal} (h : st.Journaled journal)
    (hfaithful : services.metadataRepo.Faithful)
    (hdone : Completed ((settings.under services).handlePush clock incoming st))
    (hclosed : incoming.relativePath ∉
      (stateOf ((settings.under services).handlePush clock incoming st)).pending) :
    ∃ p : PendingFile, p.MadeOf (settings.countedBy services clock incoming st journal) ∧
      (stateOf ((settings.under services).handlePush clock incoming st)).metadata
        incoming.relativePath = some (settings.finalRecord st clock incoming.relativePath p) := by
  have heffect : RecordEffect settings services clock incoming st _ :=
    recordEffect_handlePush hfaithful clock incoming st
  cases heffect with
  | kept hmetadata hopen => exact absurd (hopen hdone) hclosed
  | @saved destination p s s' hadmits hentry hwrite hmetadata =>
      refine ⟨p.counted clock incoming, ?_, ?_⟩
      · rw [ReceiverSettings.countedBy, countsChunk_of_write hadmits hentry hwrite, if_pos rfl]
        exact (h.countedBefore hentry).counted clock incoming
      · rw [hmetadata, Function.update_self]

end

/-- Two names that differ, also if they are spellings of one file, have nothing in common
but the destination.  An entry holds what came under its name and has a partial file of its
own; a push leaves the entry and the record of the other name as they are, and its commit
is made of the pushes under its name and recorded under this name alone.  Until a push
comes under the other name, its record stays and its entry can only be given up. -/
theorem assembled_by_name (settings : ReceiverSettings) (files : FilePath → Option Bytes)
    (metadata : MetadataStore) (inputs : List (Services × ReceiverInput)) (services : Services)
    (hfaithful : services.metadataRepo.Faithful) (clock : Clock) (incoming : IncomingPush)
    (other : String) (hother : other ≠ incoming.relativePath) :
    let j := settings.journaled (.ofFiles files) metadata inputs
    let st := j.run.state
    let name := incoming.relativePath
    let result := (settings.under services).handlePush clock incoming st
    let counted := settings.countedBy services clock incoming st j.journal
    (∀ p, st.pending.lookup name = some p → p.MadeOf (j.journal name) ∧
      ∀ q, st.pending.lookup other = some q → p.partPath ≠ q.partPath) ∧
    (∀ push ∈ counted, push.relativePath = name) ∧
    (stateOf result).pending.lookup other = st.pending.lookup other ∧
    (stateOf result).metadata other = st.metadata other ∧
    (Completed result → name ∉ (stateOf result).pending →
      ∃ p : PendingFile, p.MadeOf counted ∧
        (stateOf result).metadata name = some (settings.finalRecord st clock name p)) ∧
    ∀ later : List (Services × ReceiverInput),
      (∀ input ∈ later, input.1.metadataRepo.Faithful ∧ Spares other input) →
        Undisturbed other (stateOf result)
          (later.foldl settings.advance ⟨stateOf result, false⟩).state := by
  intro j st name result counted
  have hjournaled : st.Journaled j.journal :=
    journaled_run settings (.ofFiles files) metadata inputs
  have hsound : settings.Sound j.run := sound_journaled settings files metadata inputs
  refine ⟨fun p hp ↦ ⟨hjournaled.entry name p hp, fun q hq heq ↦ ?_⟩,
    hjournaled.name_countedBy settings services clock incoming,
    (handlePush_under settings services clock incoming st).lookup_of_ne hother,
    (recordEffect_handlePush hfaithful clock incoming st).metadata_of_ne hother,
    committed_push hjournaled hfaithful, fun later hlater ↦ ?_⟩
  · exact hother (hsound.tracks.token_inj hq hp (by rw [heq]))
  · apply undisturbed_run
    · exact fun input hinput ↦ (hlater input hinput).1
    · exact fun input hinput ↦ (hlater input hinput).2

/-! ### Two spellings of `a.txt` -/

def dottedPush (totalChunks : ℤ) : IncomingPush :=
  { samplePushOf2 none with
    relativePath := "./a.txt"
    totalChunks
    chunk := (cutChunk sampleReader samplePath ⟨[], [], 1, 1⟩ [2]).withHash digestOf2 }

/-- The first of two chunks, under the plain name. -/
def plainPush : IncomingPush := { samplePushOf2 none with totalChunks := 2 }

/-- The plain name stays as it is when a file is committed under the other. -/
theorem assembled_by_name_sample :
    let st := (sampleReceiver.journaled (.ofFiles fun _ ↦ none) (fun _ ↦ none)
      [(freeServices, .event (.push ⟨0, 0⟩ plainPush))]).run.state
    let result := (sampleReceiver.under freeServices).handlePush ⟨1, 1⟩ (dottedPush 1) st
    resolveWithin sampleReceiver.resolver sampleReceiver.syncRoot "a.txt" = .ok samplePath ∧
      resolveWithin sampleReceiver.resolver sampleReceiver.syncRoot "./a.txt" = .ok samplePath ∧
      (∃ record, (stateOf result).metadata "./a.txt" = some record) ∧
      (stateOf result).metadata "a.txt" = st.metadata "a.txt" ∧
      (stateOf result).pending.lookup "a.txt" = st.pending.lookup "a.txt" := by
  intro st result
  obtain ⟨-, -, hentry, hrecord, hcommit, -⟩ := assembled_by_name sampleReceiver (fun _ ↦ none)
    (fun _ ↦ none) [(freeServices, .event (.push ⟨0, 0⟩ plainPush))] freeServices
    mapMetadataRepository_faithful ⟨1, 1⟩ (dottedPush 1) "a.txt" (by decide)
  obtain ⟨p, -, hsaved⟩ := hcommit (by decide +kernel) (by decide +kernel)
  exact ⟨by decide, by decide, ⟨_, hsaved⟩, hrecord, hentry⟩

def spelledTwice : ReceiverState :=
  ([(freeServices, ReceiverInput.event (.push ⟨0, 0⟩ plainPush)),
    (freeServices, .event (.push ⟨1, 1⟩ (dottedPush 2)))].foldl sampleReceiver.advance
      receiverStart).state

def dottedOnce : ReceiverState :=
  ([(freeServices, ReceiverInput.event (.push ⟨0, 0⟩ (dottedPush 1)))].foldl
    sampleReceiver.advance receiverStart).state

/-- Both chunks of one file have come, and nothing is committed: there are two partial
files.  And a commit under one spelling leaves no record under the other. -/
theorem spellings_kept_apart :
    resolveWithin sampleReceiver.resolver sampleReceiver.syncRoot "a.txt" = .ok samplePath ∧
      resolveWithin sampleReceiver.resolver sampleReceiver.syncRoot "./a.txt" = .ok samplePath ∧
      (heldParts spelledTwice.pending "a.txt").isSome ∧
      (heldParts spelledTwice.pending "./a.txt").isSome ∧
      heldParts spelledTwice.pending "a.txt" ≠ heldParts spelledTwice.pending "./a.txt" ∧
      spelledTwice.storage.files (.file samplePath) = none ∧
      (dottedOnce.metadata "./a.txt").isSome ∧ dottedOnce.metadata "a.txt" = none := by
  decide +kernel

end SecureSync
