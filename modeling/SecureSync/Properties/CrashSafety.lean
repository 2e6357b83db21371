import SecureSync.Properties.CommittedPushes
import SecureSync.Receiver.Commits

/-!
# A receiver that dies

The process may be killed between any two operations on the disk, or during one, and be
started again.  What it has assembled until then is lost, and no file is ever seen half
written.
-/

namespace SecureSync

open scoped List

/-! ## What is seen of a file -/

/-- What an operation makes of the content of a file of the sync root. -/
def FsOp.shows (path : FilePath) (content : Option Bytes) : FsOp → Option Bytes
  | .mkdir _ | .create _ | .unlink _ | .write (.part _) _ => content
  | .write (.file target) chunk =>
      if target = path then some (Overlay.writeAt 0 (content.getD []) chunk.piece) else content
  | .replace _ target _ after => if target = path then some after else content

/-- Nothing is written to a file in place. -/
def FsOp.Spares : FsOp → Prop
  | .write (.file _) _ => False
  | .mkdir _ | .create _ | .unlink _ | .write (.part _) _ | .replace .. => True

/-- What the last commit has put in place. -/
def lastCommit (commits : List (Option Bytes × Bytes)) (content : Option Bytes) : Option Bytes :=
  (commits.getLast?.map Prod.snd).or content

theorem lastCommit_append (first second : List (Option Bytes × Bytes)) (content : Option Bytes) :
    lastCommit (first ++ second) content = lastCommit second (lastCommit first content) := by
  unfold lastCommit
  rw [List.getLast?_append, Option.map_or, Option.or_assoc]

theorem foldl_shows {ops : List FsOp} (h : ∀ op ∈ ops, op.Spares) (path : FilePath)
    (content : Option Bytes) :
    ops.foldl (FsOp.shows path) content = lastCommit (commitsAt path ops) content := by
  induction ops generalizing content with
  | nil => rfl
  | cons op ops ih =>
      have hrest := ih fun other hmem ↦ h other (List.mem_cons_of_mem _ hmem)
      have hone : FsOp.shows path content op = lastCommit (commitsAt path [op]) content := by
        have hop := h op List.mem_cons_self
        cases op with
        | mkdir | create | unlink => rfl
        | write target chunk =>
            cases target with
            | file => exact hop.elim
            | part => rfl
        | replace part target before after =>
            by_cases htarget : target = path
            · simp [FsOp.shows, commitsAt, lastCommit, htarget]
            · simp [FsOp.shows, commitsAt, lastCommit, htarget]
      rw [List.foldl_cons, hrest, hone, ← lastCommit_append, ← commitsAt_append]
      rfl

/-- The files have gone along with the journal, and none has been written in place. -/
def Storage.Shown (s t : Storage) : Prop :=
  ∃ ops, t.journal = s.journal ++ ops ∧ (∀ op ∈ ops, op.Spares) ∧
    ∀ path, t.files (.file path) = lastCommit (commitsAt path ops) (s.files (.file path))

namespace Storage.Shown

variable {s t u : Storage}

theorem refl (s : Storage) : s.Shown s :=
  ⟨[], (List.append_nil _).symm, List.forall_mem_nil _, fun _ ↦ rfl⟩

theorem trans (h : s.Shown t) (h' : t.Shown u) : s.Shown u := by
  obtain ⟨ops, hjournal, hspares, hfiles⟩ := h
  obtain ⟨ops', hjournal', hspares', hfiles'⟩ := h'
  refine ⟨ops ++ ops', ?_, List.forall_mem_append.mpr ⟨hspares, hspares'⟩, fun path ↦ ?_⟩
  · rw [hjournal', hjournal, List.append_assoc]
  · rw [hfiles', hfiles, commitsAt_append, lastCommit_append]

theorem beginPartial (s : Storage) (destination : FilePath) :
    s.Shown (s.beginPartial destination).2 :=
  ⟨_, s.journal_beginPartial destination, List.forall_mem_singleton.mpr trivial,
    s.files_file_beginPartial destination⟩

theorem write (s : Storage) (part : PartPath) (chunk : Chunk) :
    s.Shown (s.writeChunkAtOffset (.part part) chunk) :=
  ⟨_, s.journal_writeChunkAtOffset _ chunk, List.forall_mem_singleton.mpr trivial,
    s.files_file_writeChunkAtOffset_part chunk part⟩

theorem unlink (s : Storage) (part : PartPath) : s.Shown (s.unlink part) :=
  ⟨_, s.journal_unlink part, List.forall_mem_singleton.mpr trivial, s.files_file_unlink part⟩

theorem replace (s : Storage) (part : PartPath) (destination : FilePath) (bytes : Bytes) :
    s.Shown (s.replace part destination bytes) := by
  refine ⟨_, s.journal_replace part destination bytes, List.forall_mem_singleton.mpr trivial,
    fun path ↦ ?_⟩
  by_cases hpath : destination = path
  · subst hpath
    simp [commitsAt, lastCommit]
  · rw [s.files_replace_of_ne _ _ _ (by simp) (by simpa using Ne.symm hpath)]
    simp [commitsAt, lastCommit, hpath]

end Storage.Shown

section Steps

variable {settings : ReceiverSettings}

theorem shown_opened (st : ReceiverState) (clock : Clock) (name : String)
    (destination : FilePath) :
    st.storage.Shown (st.opened clock name destination).2.storage := by
  rcases opened_cases st clock name destination with ⟨p, -, heq⟩ | ⟨-, heq⟩
  · rw [heq]
    exact .refl _
  · rw [heq]
    exact .beginPartial _ _

theorem shown_abortPending (name : String) (st : ReceiverState) :
    st.storage.Shown (settings.onDisk.abortPending name st).storage := by
  unfold ReceivePushedFiles.abortPending
  cases st.pending.lookup name with
  | none => exact .refl _
  | some p => exact .unlink _ _

theorem shown_foldl_abortPending (names : List String) (st : ReceiverState) :
    st.storage.Shown
      (names.foldl (fun st name ↦ settings.onDisk.abortPending name st) st).storage := by
  induction names generalizing st with
  | nil => exact .refl _
  | cons name names ih => exact (shown_abortPending name st).trans (ih _)

variable (settings) in
theorem shown_step (st : ReceiverState) (event : ReceiverEvent) :
    st.storage.Shown (settings.step st event).storage := by
  cases event with
  | sweep now => exact shown_foldl_abortPending _ st
  | push clock incoming =>
      by_cases hadmits : ∃ destination, settings.Admits st incoming destination
      · obtain ⟨destination, hadmits⟩ := hadmits
        rw [step_push_of_admits clock hadmits, ReceiverSettings.accepted]
        have hopened := shown_opened st clock incoming.relativePath destination
        generalize st.opened clock incoming.relativePath destination = opened at hopened
        have hheld := hopened.trans (.write _ opened.1.partPath incoming.chunk)
        split_ifs
        · exact hheld.trans (.replace ..)
        · exact hheld
      · rw [step_push_of_not_admits clock (by simpa using hadmits)]
        exact .refl _

variable (settings) in
theorem shown_foldl_step (st : ReceiverState) (events : List ReceiverEvent) :
    st.storage.Shown (events.foldl settings.step st).storage := by
  induction events generalizing st with
  | nil => exact .refl _
  | cons event events ih => exact (shown_step settings st event).trans (ih _)

variable (settings) in
theorem shown_abortAllPartials (st : ReceiverState) :
    st.storage.Shown (settings.onDisk.abortAllPartials st).storage := by
  unfold ReceivePushedFiles.abortAllPartials
  dsimp only
  generalize st.storage = storage
  induction st.pending.entries generalizing storage with
  | nil => exact .refl _
  | cons entry entries ih =>
      rw [List.foldl_cons]
      exact (Storage.Shown.unlink storage entry.2.partPath).trans (ih _)

end Steps

/-! ## Lives of the process -/

/-- What the process has left, having died on the way from `s` to `t`.  Only a partial file may
be half changed, and its name is not given out again. -/
structure Storage.CutShort (s t left : Storage) : Prop where
  journal : left.journal <+: t.journal
  goes_on : ∃ ops, left.journal = s.journal ++ ops ∧
    ∀ path, left.files (.file path) = ops.foldl (FsOp.shows path) (s.files (.file path))
  nextToken : left.nextToken = t.nextToken

/-- What is under way when the process dies: an event, or the cleaning up when it is stopped. -/
inductive LastTask (ο : Type) where
  | handling (event : SenderEvent ο)
  | cleaning

namespace LastTask

variable {ο : Type}

def events : LastTask ο → List (SenderEvent ο)
  | handling event => [event]
  | cleaning => []

def done (settings : ReceiverSettings) (st : ReceiverState) : LastTask ο → ReceiverState
  | handling event => settings.step st event.event
  | cleaning => settings.onDisk.abortAllPartials st

end LastTask

/-- What one process after the other leaves on the disk and in the database.  Each starts with an
empty table and dies at some point; the record of a push is saved last. -/
inductive Lives {ο : Type} (settings : ReceiverSettings) (start : Storage × MetadataStore) :
    List (List (SenderEvent ο)) → Storage × MetadataStore → Prop
  | none : Lives settings start [] start
  | dies {lives : List (List (SenderEvent ο))} {found left : Storage × MetadataStore}
      (h : Lives settings start lives found) (es : List (SenderEvent ο)) (task : LastTask ο)
      {reached : ReceiverState}
      (hreached : settings.onDisk.runForever (es.map SenderEvent.event) ⟨found.1, found.2, ∅⟩ =
        reached)
      (hcut : reached.storage.CutShort (task.done settings reached).storage left.1)
      (hmetadata : left.2 = reached.metadata ∨
        left.1.journal = (task.done settings reached).storage.journal ∧
          left.2 = (task.done settings reached).metadata) :
      Lives settings start (lives ++ [es ++ task.events]) left

section Lives

variable {ο : Type} {settings : ReceiverSettings} {name : String} {destination : FilePath}

/-- It may die between any two operations. -/
theorem Storage.Shown.cutShort_between {s t u : Storage} (h : s.Shown t) (h' : t.Shown u)
    (htoken : t.nextToken = u.nextToken) : s.CutShort u t where
  journal := by
    obtain ⟨ops, hjournal, -, -⟩ := h'
    rw [hjournal]
    exact List.prefix_append _ _
  goes_on := by
    obtain ⟨ops, hjournal, hspares, hfiles⟩ := h
    exact ⟨ops, hjournal, fun path ↦ (hfiles path).trans (foldl_shows hspares path _).symm⟩
  nextToken := htoken

/-- The process dies with a prefix of its work done. -/
theorem Storage.Shown.cutShort {s t u left : Storage} (h : s.Shown t) (h' : t.Shown u)
    (hcut : t.CutShort u left) : s.Shown left := by
  obtain ⟨ops, hjournal, hgone⟩ := hcut.goes_on
  obtain ⟨all, hall, hspares, -⟩ := h'
  have hpart : ops <+: all := by
    have hcut := hcut.journal
    rw [hjournal, hall] at hcut
    exact (List.prefix_append_right_inj _).mp hcut
  have hops : ∀ op ∈ ops, op.Spares := fun op hop ↦ hspares op (hpart.subset hop)
  apply h.trans
  exact ⟨ops, hjournal, hops, fun path ↦ (hgone path).trans (foldl_shows hops path _)⟩

theorem LastTask.shown_done (settings : ReceiverSettings) (st : ReceiverState)
    (task : LastTask ο) : st.storage.Shown (task.done settings st).storage := by
  cases task with
  | handling event => exact shown_step settings st event.event
  | cleaning => exact shown_abortAllPartials settings st

/-- The chunks of a commit have all been pushed in one life. -/
def CommitOf (name : String) (life : List (SenderEvent ο)) (c : Option Bytes × Bytes) : Prop :=
  ∃ pushes, pushes <+~ arrivedUnder name life ∧
    c.2 = Overlay.writeAll 0 (c.1.getD []) (pushes.map fun p ↦ p.2.chunk.piece)

theorem commits_of_task (storage : Storage) (metadata : MetadataStore)
    {es : List (SenderEvent ο)} (task : LastTask ο)
    (hsep : Separate settings name destination (es ++ task.events)) :
    ∃ new, commitsAt destination (task.done settings (settings.onDisk.runForever
        (es.map SenderEvent.event) ⟨storage, metadata, ∅⟩)).storage.journal =
          commitsAt destination storage.journal ++ new ∧
      ∀ c ∈ new, CommitOf name (es ++ task.events) c := by
  have hwf := settings.wellFormed_start storage metadata
  have hidle : name ∉ (⟨storage, metadata, ∅⟩ : ReceiverState).pending := AList.notMem_empty _
  obtain ⟨new, hnew, hcommits⟩ := commits_of_arrived hwf hidle hsep
  refine ⟨new, ?_, hcommits⟩
  cases task with
  | handling event =>
      rw [LastTask.events, List.map_append, runForever_onDisk, List.foldl_append] at hnew
      rw [runForever_onDisk]
      exact hnew
  | cleaning =>
      rw [LastTask.events, List.append_nil] at hnew
      rw [LastTask.done, commitsAt_abortAllPartials]
      exact hnew

theorem commitsAt_extends_append (path : FilePath) (ops more : List FsOp) :
    commitsAt path ops <+: commitsAt path (ops ++ more) := by
  rw [commitsAt_append]
  exact List.prefix_append _ _

theorem Storage.Shown.commitsAt_extends {s t : Storage} (h : s.Shown t) (path : FilePath) :
    commitsAt path s.journal <+: commitsAt path t.journal := by
  obtain ⟨ops, hjournal, -, -⟩ := h
  rw [hjournal]
  exact commitsAt_extends_append path _ ops

/-- A record is saved right after a commit of its file. -/
theorem metadata_step
    (hname : resolveWithin settings.resolver settings.syncRoot name = .ok destination)
    (st : ReceiverState) (event : ReceiverEvent)
    (hsame : commitsAt destination (settings.step st event).storage.journal =
      commitsAt destination st.storage.journal) :
    (settings.step st event).metadata name = st.metadata name := by
  rcases sameFiles_step settings st event with hfiles | ⟨clock, incoming, target, rfl, hfinish⟩
  · exact congrFun hfiles.1 name
  by_cases hincoming : incoming.relativePath = name
  · subst hincoming
    obtain rfl := Except.ok.inj (hfinish.1.1.symm.trans hname)
    rw [step_push_of_admits clock hfinish.1, ReceiverSettings.accepted, if_pos hfinish.2] at hsame
    have hopened := (shown_opened st clock incoming.relativePath target).commitsAt_extends target
    have hlength := congrArg List.length hsame
    rw [ReceiverSettings.commit, Storage.journal_replace, commitsAt_append, List.length_append,
      commitsAt_replace_self] at hlength
    have hheld := (Storage.Shown.write (st.opened clock incoming.relativePath target).2.storage
      (st.opened clock incoming.relativePath target).1.partPath incoming.chunk).commitsAt_extends
        target
    have hle := hopened.length_le.trans hheld.length_le
    rw [ReceiverState.hold, List.length_cons, commitsAt_nil, List.length_nil] at hlength
    dsimp only at hlength
    omega
  · rw [(step_of_finishes hfinish).2.2, Function.update_of_ne (Ne.symm hincoming)]

theorem metadata_foldl_step
    (hname : resolveWithin settings.resolver settings.syncRoot name = .ok destination)
    (events : List ReceiverEvent) (st : ReceiverState)
    (hsame : commitsAt destination (events.foldl settings.step st).storage.journal =
      commitsAt destination st.storage.journal) :
    (events.foldl settings.step st).metadata name = st.metadata name := by
  induction events generalizing st with
  | nil => rfl
  | cons event events ih =>
      rw [List.foldl_cons] at hsame ⊢
      have hfirst := (shown_step settings st event).commitsAt_extends destination
      have hrest := (shown_foldl_step settings (settings.step st event) events).commitsAt_extends
        destination
      have hstep := hfirst.eq_of_length (hfirst.length_le.antisymm (hsame ▸ hrest.length_le))
      rw [ih _ (hsame.trans hstep), metadata_step hname st event hstep.symm]

theorem metadata_done
    (hname : resolveWithin settings.resolver settings.syncRoot name = .ok destination)
    (st : ReceiverState) (task : LastTask ο)
    (hsame : commitsAt destination (task.done settings st).storage.journal =
      commitsAt destination st.storage.journal) :
    (task.done settings st).metadata name = st.metadata name := by
  cases task with
  | handling event => exact metadata_step hname st event.event hsame
  | cleaning => rfl

/-- Without a commit there is no new record in a life. -/
theorem metadata_of_life
    (hname : resolveWithin settings.resolver settings.syncRoot name = .ok destination)
    {st reached : ReceiverState} (events : List ReceiverEvent) (task : LastTask ο)
    {left : Storage × MetadataStore} (hreached : events.foldl settings.step st = reached)
    (hcut : reached.storage.CutShort (task.done settings reached).storage left.1)
    (hmetadata : left.2 = reached.metadata ∨
      left.1.journal = (task.done settings reached).storage.journal ∧
        left.2 = (task.done settings reached).metadata)
    (hnone : commitsAt destination left.1.journal = commitsAt destination st.storage.journal) :
    left.2 name = st.metadata name := by
  subst hreached
  have hbefore := (shown_foldl_step settings st events).commitsAt_extends destination
  obtain ⟨ops, hjournal, -⟩ := hcut.goes_on
  have hafter : commitsAt destination (events.foldl settings.step st).storage.journal <+:
      commitsAt destination left.1.journal := by
    rw [hjournal]
    exact commitsAt_extends_append destination _ ops
  have hsame := hbefore.eq_of_length
    (hbefore.length_le.antisymm (hnone ▸ hafter.length_le))
  have hreached := metadata_foldl_step hname events st hsame.symm
  rcases hmetadata with hmetadata | ⟨hcomplete, hmetadata⟩
  · rw [hmetadata, hreached]
  · rw [hmetadata, ← hreached]
    apply metadata_done hname
    rw [← hcomplete, hnone, hsame]

/-- However often the receiver is killed, a file is at any time what it was at first, or what the
last commit has made of it; each commit lays chunks over the file that were pushed within one life
of the process; and without a commit there is no new record. -/
theorem commits_survive_crashes {start left : Storage × MetadataStore}
    {lives : List (List (SenderEvent ο))} (h : Lives settings start lives left)
    (hsep : ∀ life ∈ lives, Separate settings name destination life) :
    ∃ new, commitsAt destination left.1.journal = commitsAt destination start.1.journal ++ new ∧
      left.1.files (.file destination) = lastCommit new (start.1.files (.file destination)) ∧
        (∀ c ∈ new, ∃ life ∈ lives, CommitOf name life c) ∧
          (new = [] → left.2 name = start.2 name) := by
  induction h with
  | none => exact ⟨[], (List.append_nil _).symm, rfl, List.forall_mem_nil _, fun _ ↦ rfl⟩
  | @dies lives found left h es task reached hreached hcut hmetadata ih =>
      obtain ⟨old, hold, hfound, hlives, hrecord⟩ := ih fun life hlife ↦
        hsep life (List.mem_append_left _ hlife)
      have htask := hsep _ (List.mem_append_right _ (List.mem_singleton_self _))
      subst hreached
      obtain ⟨all, hall, hcommits⟩ := commits_of_task found.1 found.2 task htask
      have hreached : found.1.Shown (settings.onDisk.runForever (es.map SenderEvent.event)
          ⟨found.1, found.2, ∅⟩).storage := by
        rw [runForever_onDisk]
        exact shown_foldl_step settings ⟨found.1, found.2, ∅⟩ _
      obtain ⟨ops, hjournal, hspares, hfiles⟩ :=
        hreached.cutShort (task.shown_done settings _) hcut
      obtain ⟨rest, hrest⟩ := hcut.journal
      rw [← hrest, hjournal, commitsAt_append, commitsAt_append, List.append_assoc] at hall
      have hdone := List.append_cancel_left hall
      refine ⟨old ++ commitsAt destination ops, ?_, ?_, fun c hc ↦ ?_, fun hnone ↦ ?_⟩
      · rw [hjournal, commitsAt_append, hold, List.append_assoc]
      · rw [hfiles, hfound, lastCommit_append]
      · rcases List.mem_append.mp hc with hc | hc
        · obtain ⟨life, hlife, hcommit⟩ := hlives c hc
          exact ⟨life, List.mem_append_left _ hlife, hcommit⟩
        · refine ⟨_, List.mem_append_right _ (List.mem_singleton_self _), hcommits c ?_⟩
          rw [← hdone]
          exact List.mem_append_left _ hc
      · obtain ⟨rfl, hops⟩ := List.append_eq_nil_iff.mp hnone
        rw [← hrecord rfl]
        rw [runForever_onDisk] at hcut hmetadata
        refine metadata_of_life htask.1 _ task rfl hcut hmetadata ?_
        rw [hjournal, commitsAt_append, hops, List.append_nil]

end Lives

/-! ### Bob dies twice -/

def crashedStart : Storage × MetadataStore := (sampleStorage (some [9, 9]), fun _ ↦ none)

def crashedPush : SenderEvent Unit := .push () ⟨1, 1⟩ (samplePushOf2 none)

/-- What Bob has assembled when he dies for the first time. -/
def crashedOnce : Storage :=
  (crashedStart.1.beginPartial samplePath).2.writeChunkAtOffset (.part ⟨samplePath, 0⟩)
    (samplePushOf2 none).chunk

/-- He dies for the second time before the record is saved. -/
def crashedTwice : Storage :=
  (sampleReceiver.step ⟨crashedOnce, fun _ ↦ none, ∅⟩ crashedPush.event).storage

theorem crashed_done : ∃ bytes,
    (sampleReceiver.step ⟨crashedStart.1, crashedStart.2, ∅⟩ crashedPush.event).storage =
      crashedOnce.replace ⟨samplePath, 0⟩ samplePath bytes := by
  have hadmits : sampleReceiver.Admits ⟨crashedStart.1, crashedStart.2, ∅⟩ (samplePushOf2 none)
      samplePath := by
    decide +kernel
  rw [crashedPush, SenderEvent.event, step_push_of_admits _ hadmits, ReceiverSettings.accepted,
    if_pos (by decide +kernel)]
  exact ⟨_, rfl⟩

theorem crashed_lives :
    Lives sampleReceiver crashedStart [[crashedPush], [crashedPush]]
      (crashedTwice, fun _ ↦ none) := by
  have hfirst : Lives sampleReceiver crashedStart [[crashedPush]] (crashedOnce, fun _ ↦ none) := by
    refine .dies .none [] (.handling crashedPush) rfl ?_ (.inl rfl)
    obtain ⟨bytes, hdone⟩ := crashed_done
    change Storage.CutShort _ (sampleReceiver.step ⟨crashedStart.1, crashedStart.2, ∅⟩
      crashedPush.event).storage _
    rw [hdone]
    apply Storage.Shown.cutShort_between
    · exact (Storage.Shown.beginPartial _ _).trans (.write ..)
    · exact .replace ..
    · rfl
  refine .dies hfirst [] (.handling crashedPush) rfl ?_ (.inl rfl)
  exact (shown_step sampleReceiver _ crashedPush.event).cutShort_between (.refl _) rfl

theorem commits_survive_crashes_bob :
    commitsAt samplePath crashedTwice.journal = [(some [9, 9], [2, 9])] ∧
      ∃ new, commitsAt samplePath crashedTwice.journal = [] ++ new ∧
        crashedTwice.files (.file samplePath) = lastCommit new (some [9, 9]) ∧
          (∀ c ∈ new, ∃ life ∈ [[crashedPush], [crashedPush]], CommitOf "a.txt" life c) ∧
            (new = [] → none = (none : Option FileMetadata)) := by
  refine ⟨by decide +kernel, commits_survive_crashes crashed_lives fun life hlife ↦ ?_⟩
  have hevents : life = [crashedPush] := by simpa using hlife
  subst hevents
  apply separate_of_name (by decide +kernel)
  intro owner clock incoming hmem
  cases List.mem_singleton.mp hmem
  rfl

end SecureSync
