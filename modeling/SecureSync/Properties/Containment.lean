import SecureSync.Library.Machines
import SecureSync.Receiver.Faults

/-!
# What the receiver touches

Everything below the sync root, as long as no push names the root itself: a
temporary file lies in the directory of its destination.
-/

namespace SecureSync

open Machines Raising

/-! ## Below the root -/

def StrictlyBeneath (root path : FilePath) : Prop := root <+: path ∧ path ≠ root

instance (root path : FilePath) : Decidable (StrictlyBeneath root path) :=
  inferInstanceAs (Decidable (_ ∧ _))

def FsOp.Beneath (root : FilePath) (op : FsOp) : Prop :=
  ∀ path ∈ op.touched, StrictlyBeneath root path

instance (root : FilePath) (op : FsOp) : Decidable (op.Beneath root) :=
  inferInstanceAs (Decidable (∀ path ∈ op.touched, StrictlyBeneath root path))

variable {root : FilePath} {destination : FilePath} {part : PartPath}

theorem prefix_dropLast_of_strictlyBeneath (h : StrictlyBeneath root destination) :
    root <+: destination.dropLast := by
  obtain ⟨⟨names, rfl⟩, hne⟩ := h
  have hnames : names ≠ [] := by
    rintro rfl
    exact hne (List.append_nil root)
  rw [List.dropLast_append_of_ne_nil hnames]
  exact List.prefix_append _ _

theorem strictlyBeneath_path (h : root <+: part.directory) : StrictlyBeneath root part.path := by
  refine ⟨h.trans (List.prefix_append _ _), fun heq ↦ ?_⟩
  have hle := h.length_le
  rw [← heq, PartPath.path, List.length_append] at hle
  exact absurd hle (by simp)

/-- The temporary file of the root lies beside the root. -/
theorem not_strictlyBeneath_path (hroot : root ≠ []) (h : part.destination = root) :
    ¬ StrictlyBeneath root part.path := by
  rintro ⟨hbelow, hne⟩
  have hlength : part.path.length = root.length := by
    have hpos := List.length_pos_of_ne_nil hroot
    rw [PartPath.path, PartPath.directory, h, List.length_append, List.length_dropLast,
      List.length_singleton]
    omega
  exact hne (hbelow.eq_of_length hlength.symm).symm

/-! ## Calls -/

/-- The root is there, and so is every directory above it. -/
def Os.HasDirectory (os : Os) (root : FilePath) : Prop :=
  ∀ s directory, directory <+: root → os.isDirectory s directory = true

namespace Os

variable {os : Os} {path : Path} {chunk : Chunk} {s s' : Storage}

theorem strictlyBeneath_of_missing (hroot : os.HasDirectory root) (h : root <+: destination)
    {directory : FilePath} (hdirectory : directory <+: destination)
    (hmissing : ∃ t, os.isDirectory t directory = false) : StrictlyBeneath root directory := by
  obtain ⟨t, ht⟩ := hmissing
  have hnot : ¬ directory <+: root := by
    intro habove
    rw [hroot t directory habove] at ht
    cases ht
  refine ⟨(List.prefix_or_prefix_of_prefix h hdirectory).resolve_right hnot, ?_⟩
  rintro rfl
  exact hnot (List.prefix_refl _)

theorem extends_writeChunkAtOffset (hroot : os.HasDirectory root)
    (h : StrictlyBeneath root part.destination) :
    Advances (Storage.Extends (FsOp.Beneath root)) (os.writeChunkAtOffset (.part part) chunk) := by
  have hdirectory := prefix_dropLast_of_strictlyBeneath h
  apply Advances.adaptExcept
  apply advances_writeAll (Storage.extends_refl _) (Storage.extends_trans _)
  · intro s directory hbelow hmissing
    exact Storage.extends_one rfl (List.forall_mem_singleton.mpr
      (strictlyBeneath_of_missing hroot hdirectory hbelow hmissing))
  · intro s chunk
    exact Storage.extends_one rfl (List.forall_mem_singleton.mpr (strictlyBeneath_path hdirectory))

theorem extends_commitPartial (hpart : StrictlyBeneath root part.destination)
    (h : StrictlyBeneath root destination) :
    Advances (Storage.Extends (FsOp.Beneath root)) (os.commitPartial destination part) := by
  apply Advances.adaptExcept
  apply advances_rename (Storage.extends_refl _) (Storage.extends_trans _)
  intro s bytes
  refine Storage.extends_one rfl (List.forall_mem_cons.mpr ⟨?_, List.forall_mem_singleton.mpr h⟩)
  exact strictlyBeneath_path (prefix_dropLast_of_strictlyBeneath hpart)

theorem extends_abortPartial (hpart : StrictlyBeneath root part.destination) (s : Storage) :
    s.Extends (FsOp.Beneath root) (os.abortPartial part s) := by
  unfold abortPartial
  split_ifs
  · exact Storage.extends_refl _ s
  · exact Storage.extends_one rfl (List.forall_mem_singleton.mpr
      (strictlyBeneath_path (prefix_dropLast_of_strictlyBeneath hpart)))

theorem extends_beginPartial (hroot : os.HasDirectory root)
    (h : root <+: destination.dropLast) :
    Advances (Storage.Extends (FsOp.Beneath root)) (os.beginPartial destination) := by
  apply Advances.adaptExcept
  apply Advances.bind (Storage.extends_trans _)
  · apply advances_createPartial (Storage.extends_refl _) (Storage.extends_trans _)
    · intro s directory hbelow hmissing
      exact Storage.extends_one rfl (List.forall_mem_singleton.mpr
        (strictlyBeneath_of_missing hroot h hbelow hmissing))
    · intro s
      exact Storage.extends_one rfl (List.forall_mem_singleton.mpr (strictlyBeneath_path h))
  · intro part
    apply Advances.bind (Storage.extends_trans _)
    · apply advances_seedPartial (Storage.extends_refl _) (Storage.extends_trans _)
      exact fun s ↦ ⟨[], (List.append_nil _).symm, List.forall_mem_nil _⟩
    · exact fun _ s ↦ Storage.extends_refl _ s

/-! ### The root as a destination -/

theorem beginPartial_ne_ok (hdirectory : ∀ s, os.isDirectory s destination = true) :
    os.beginPartial destination s ≠ .ok part s' := by
  intro h
  obtain ⟨t, -, hseed⟩ := beginPartial_eq_ok.mp h
  obtain ⟨⟨-, -, hcopy⟩, -⟩ := seedPartial_eq_ok.mp hseed
  have hexists : os.exists? t destination = true := by
    rw [exists?, hdirectory, Bool.or_true]
  have hnot := (hcopy hexists).1
  rw [hdirectory] at hnot
  cases hnot

theorem createPartial_root (hroot : os.HasDirectory root) (s : Storage) :
    os.createPartial root s =
      if os.raises (.mkstemp root.dropLast) then .error ⟨⟩ s
      else .ok (s.fresh root) (s.create root) := by
  have hparent : os.isDirectory s root.dropLast.reverse.reverse = true := by
    rw [List.reverse_reverse]
    exact hroot s _ (List.dropLast_prefix root)
  unfold createPartial call
  simp only [bind_run, makeDirectories_of_isDirectory hparent]
  cases os.raises (.mkstemp root.dropLast) <;> rfl

theorem keeps_journal_seedPartial (destination : FilePath) (part : PartPath) :
    Keeps Storage.journal (os.seedPartial destination part) := by
  have hrun : Advances (fun s t : Storage ↦ t.journal = s.journal)
      (os.seedPartial destination part) :=
    advances_seedPartial (fun _ ↦ rfl) (fun _ _ _ h h' ↦ h'.trans h) fun _ ↦ rfl
  exact hrun

/-- With the root as its destination, a push touches the directory above. -/
theorem journal_beginPartial_root (hroot : os.HasDirectory root) (s : Storage) :
    (stateOf (os.beginPartial root s)).journal =
      if os.raises (.mkstemp root.dropLast) then s.journal
      else s.journal ++ [.create (s.fresh root)] := by
  have hseed : ∀ part, Keeps Storage.journal (do os.seedPartial root part; return part) :=
    fun part ↦ (keeps_journal_seedPartial root part).bind fun _ ↦ keeps_pure _
  rw [beginPartial, stateOf_adaptExcept, stateOf_bind hseed, createPartial_root hroot]
  split_ifs <;> rfl

end Os

/-! ## Runs -/

/-- Every operation so far has kept below the root. -/
def ReceiverRun.Contained (root : FilePath) (run : ReceiverRun) : Prop :=
  ∀ op ∈ run.state.storage.journal, op.Beneath root

/-- Each pending file has the destination that its name resolves to, and that is not the
root. -/
def ReceiverSettings.PendingBeneath (settings : ReceiverSettings) (st : ReceiverState) : Prop :=
  ∀ name p, st.pending.lookup name = some p →
    resolveWithin settings.resolver settings.syncRoot name = .ok p.partPath.destination ∧
      p.partPath.destination ≠ settings.resolver.resolve settings.syncRoot

/-- A push for the root itself passes every check, and `mkstemp` serves it in the directory
above. -/
def ReceiverSettings.Escapes (settings : ReceiverSettings) (run : ReceiverRun)
    (input : Services × ReceiverInput) : Prop :=
  run.stopped = false ∧
    match input.2 with
    | .event (.push _ incoming) =>
        settings.Opens run.state incoming (settings.resolver.resolve settings.syncRoot) ∧
          settings.resolver.resolve settings.syncRoot ≠ [] ∧
            input.1.os.raises
              (.mkstemp (settings.resolver.resolve settings.syncRoot).dropLast) = false
    | _ => False

instance (root : FilePath) (run : ReceiverRun) : Decidable (run.Contained root) :=
  inferInstanceAs (Decidable (∀ op ∈ run.state.storage.journal, op.Beneath root))

instance (settings : ReceiverSettings) (run : ReceiverRun) (input : Services × ReceiverInput) :
    Decidable (settings.Escapes run input) :=
  match input with
  | (_, .event (.push _ _)) => inferInstanceAs (Decidable (_ ∧ (_ ∧ _) ∧ _ ∧ _))
  | (_, .event (.sweep _)) | (_, .cancel) => .isFalse fun h ↦ h.2

section Runs

variable {settings : ReceiverSettings} {services : Services} {st : ReceiverState} {clock : Clock}
  {incoming : IncomingPush}

theorem prefix_of_resolveWithin {name : String}
    (h : resolveWithin settings.resolver settings.syncRoot name = .ok destination) :
    settings.resolver.resolve settings.syncRoot <+: destination := by
  unfold resolveWithin at h
  obtain ⟨_, -, h⟩ := except_bind_eq_ok.mp h
  dsimp only at h
  split_ifs at h with hbelow
  cases h
  exact hbelow

theorem ReceiverSettings.PendingBeneath.strictlyBeneath {name : String} {p : PendingFile}
    (h : settings.PendingBeneath st) (hp : st.pending.lookup name = some p) :
    StrictlyBeneath (settings.resolver.resolve settings.syncRoot) p.partPath.destination :=
  ⟨prefix_of_resolveWithin (h name p hp).1, (h name p hp).2⟩

/-- An open entry writes below the root, and so did whatever opened it. -/
theorem EntryOpen.beneath {os : Os} {p : PendingFile} {s : Storage}
    (hroot : os.HasDirectory (settings.resolver.resolve settings.syncRoot))
    (h : settings.PendingBeneath st) (hadmits : settings.Admits st incoming destination)
    (hentry : EntryOpen os st clock incoming.relativePath destination p s) :
    p.partPath.destination = destination ∧
      StrictlyBeneath (settings.resolver.resolve settings.syncRoot) destination ∧
        st.storage.Extends (FsOp.Beneath (settings.resolver.resolve settings.syncRoot)) s := by
  cases hentry with
  | known hp =>
      have hsame : p.partPath.destination = destination :=
        Except.ok.inj ((h _ p hp).1.symm.trans hadmits.1)
      rw [← hsame]
      exact ⟨rfl, h.strictlyBeneath hp, Storage.extends_refl _ _⟩
  | @begun part s hnew hbegin =>
      have hne : destination ≠ settings.resolver.resolve settings.syncRoot := by
        rintro rfl
        exact Os.beginPartial_ne_ok (fun s ↦ hroot s _ (List.prefix_refl _)) hbegin
      have hbeneath : StrictlyBeneath (settings.resolver.resolve settings.syncRoot) destination :=
        ⟨prefix_of_resolveWithin hadmits.1, hne⟩
      obtain ⟨t, hcreate, -⟩ := Os.beginPartial_eq_ok.mp hbegin
      obtain ⟨t', -, rfl, -⟩ := Os.createPartial_eq_ok hcreate
      have hextends := Os.extends_beginPartial hroot
        (prefix_dropLast_of_strictlyBeneath hbeneath) st.storage
      rw [hbegin] at hextends
      exact ⟨rfl, hbeneath, hextends⟩

theorem ReceiverSettings.PendingBeneath.insert {p : PendingFile} {storage : Storage}
    (h : settings.PendingBeneath st) (hadmits : settings.Admits st incoming destination)
    (hp : p.partPath.destination = destination)
    (hne : destination ≠ settings.resolver.resolve settings.syncRoot) :
    settings.PendingBeneath { st with
      storage
      pending := st.pending.insert incoming.relativePath p } := by
  intro name q hq
  rcases lookup_insert_cases hq with ⟨rfl, rfl⟩ | ⟨-, hq⟩
  · rw [hp]
    exact ⟨hadmits.1, hne⟩
  · exact h name q hq

theorem EntryOpen.beneath_write {os : Os} {p : PendingFile} {s : Storage}
    (hroot : os.HasDirectory (settings.resolver.resolve settings.syncRoot))
    (h : settings.PendingBeneath st) (hadmits : settings.Admits st incoming destination)
    (hentry : EntryOpen os st clock incoming.relativePath destination p s) :
    st.storage.Extends (FsOp.Beneath (settings.resolver.resolve settings.syncRoot))
      (stateOf (os.writeChunkAtOffset (.part p.partPath) incoming.chunk s)) := by
  obtain ⟨hp, hbeneath, hextends⟩ := hentry.beneath hroot h hadmits
  rw [← hp] at hbeneath
  exact Storage.extends_trans _ _ _ _ hextends (Os.extends_writeChunkAtOffset hroot hbeneath s)

theorem EntryOpen.beneath_commit {os : Os} {p : PendingFile} {s s' : Storage}
    (hroot : os.HasDirectory (settings.resolver.resolve settings.syncRoot))
    (h : settings.PendingBeneath st) (hadmits : settings.Admits st incoming destination)
    (hentry : EntryOpen os st clock incoming.relativePath destination p s)
    (hwrite : os.writeChunkAtOffset (.part p.partPath) incoming.chunk s = .ok () s') :
    st.storage.Extends (FsOp.Beneath (settings.resolver.resolve settings.syncRoot))
      (stateOf (os.commitPartial destination p.partPath s')) := by
  have hwritten := hentry.beneath_write hroot h hadmits
  rw [hwrite] at hwritten
  obtain ⟨hp, hbeneath, -⟩ := hentry.beneath hroot h hadmits
  have hpart := hbeneath
  rw [← hp] at hpart
  exact Storage.extends_trans _ _ _ _ hwritten (Os.extends_commitPartial hpart hbeneath s')

theorem PushEffect.pendingBeneath {os : Os}
    {result : EStateM.Result PushError ReceiverState Unit}
    (hroot : os.HasDirectory (settings.resolver.resolve settings.syncRoot))
    (h : settings.PendingBeneath st)
    (heffect : PushEffect settings os clock incoming st result) :
    settings.PendingBeneath (stateOf result) := by
  cases heffect with
  | refused | notBegun => exact h
  | notWritten hadmits hentry hwrite | held hadmits hentry hwrite
  | notCommitted hadmits hentry hwrite hcommit =>
      obtain ⟨hp, hbeneath, -⟩ := hentry.beneath hroot h hadmits
      exact h.insert hadmits hp hbeneath.2
  | committed hadmits hentry hwrite hcommit hstorage hpending =>
      intro name p hp
      rw [hpending] at hp
      exact h name p (exists_lookup_of_erase hp)

theorem extends_beginPartial_of_stays {os : Os}
    (hroot : os.HasDirectory (settings.resolver.resolve settings.syncRoot))
    (hbelow : settings.resolver.resolve settings.syncRoot <+: destination)
    (hstays : ¬ (destination = settings.resolver.resolve settings.syncRoot ∧
      settings.resolver.resolve settings.syncRoot ≠ [] ∧
        os.raises (.mkstemp (settings.resolver.resolve settings.syncRoot).dropLast) = false))
    (s : Storage) :
    s.Extends (FsOp.Beneath (settings.resolver.resolve settings.syncRoot))
      (stateOf (os.beginPartial destination s)) := by
  by_cases hsame : destination = settings.resolver.resolve settings.syncRoot
  · subst hsame
    by_cases hempty : settings.resolver.resolve settings.syncRoot = []
    · apply Os.extends_beginPartial hroot
      rw [hempty]
      exact List.nil_prefix
    · have hraises := Bool.eq_true_of_not_eq_false fun h ↦ hstays ⟨rfl, hempty, h⟩
      have hjournal := Os.journal_beginPartial_root hroot s
      rw [if_pos hraises] at hjournal
      exact ⟨[], by rw [hjournal, List.append_nil], List.forall_mem_nil _⟩
  · exact Os.extends_beginPartial hroot (prefix_dropLast_of_strictlyBeneath ⟨hbelow, hsame⟩) s

/-- A push that does not escape stays below the root. -/
theorem PushEffect.extends {os : Os} {result : EStateM.Result PushError ReceiverState Unit}
    (hroot : os.HasDirectory (settings.resolver.resolve settings.syncRoot))
    (h : settings.PendingBeneath st) (heffect : PushEffect settings os clock incoming st result)
    (hstays : ¬ (settings.Opens st incoming (settings.resolver.resolve settings.syncRoot) ∧
      settings.resolver.resolve settings.syncRoot ≠ [] ∧
        os.raises (.mkstemp (settings.resolver.resolve settings.syncRoot).dropLast) = false)) :
    st.storage.Extends (FsOp.Beneath (settings.resolver.resolve settings.syncRoot))
      (stateOf result).storage := by
  cases heffect with
  | refused => exact Storage.extends_refl _ _
  | @notBegun destination e s hopens hbegin =>
      have hextends := extends_beginPartial_of_stays hroot
        (prefix_of_resolveWithin hopens.1.1)
        (fun h ↦ hstays ⟨h.1 ▸ hopens, h.2⟩) st.storage
      rw [hbegin] at hextends
      exact hextends
  | notWritten hadmits hentry hwrite | held hadmits hentry hwrite =>
      have hextends := hentry.beneath_write hroot h hadmits
      rw [hwrite] at hextends
      exact hextends
  | notCommitted hadmits hentry hwrite hcommit =>
      have hextends := hentry.beneath_commit hroot h hadmits hwrite
      rw [hcommit] at hextends
      exact hextends
  | committed hadmits hentry hwrite hcommit hstorage hpending =>
      have hextends := hentry.beneath_commit hroot h hadmits hwrite
      rw [hcommit] at hextends
      rw [hstorage]
      exact hextends

/-- One that escapes leaves a temporary file beside the root. -/
theorem PushEffect.not_contained {os : Os}
    {result : EStateM.Result PushError ReceiverState Unit}
    (hroot : os.HasDirectory (settings.resolver.resolve settings.syncRoot))
    (heffect : PushEffect settings os clock incoming st result)
    (hopens : settings.Opens st incoming (settings.resolver.resolve settings.syncRoot))
    (hne : settings.resolver.resolve settings.syncRoot ≠ [])
    (hmkstemp : os.raises
      (.mkstemp (settings.resolver.resolve settings.syncRoot).dropLast) = false) :
    ∃ op ∈ (stateOf result).storage.journal,
      ¬ op.Beneath (settings.resolver.resolve settings.syncRoot) := by
  have hdestination : ∀ {destination}, settings.Admits st incoming destination →
      destination = settings.resolver.resolve settings.syncRoot :=
    fun hadmits ↦ Except.ok.inj (hadmits.1.symm.trans hopens.1.1)
  have hnoEntry : ∀ {destination p s}, settings.Admits st incoming destination →
      ¬ EntryOpen os st clock incoming.relativePath destination p s := by
    intro destination p s hadmits hentry
    cases hentry with
    | known hp => exact hopens.2 (AList.lookup_isSome.mp (Option.isSome_of_mem hp))
    | begun hnew hbegin =>
        rw [hdestination hadmits] at hbegin
        exact Os.beginPartial_ne_ok (fun s ↦ hroot s _ (List.prefix_refl _)) hbegin
  cases heffect with
  | refused hrefused => exact absurd hopens.1 (hrefused _)
  | notWritten hadmits hentry | held hadmits hentry | notCommitted hadmits hentry
  | committed hadmits hentry => exact absurd hentry (hnoEntry hadmits)
  | @notBegun destination e s hopens' hbegin =>
      rw [hdestination hopens'.1] at hbegin
      have hjournal := Os.journal_beginPartial_root hroot st.storage
      rw [hbegin, hmkstemp, if_neg Bool.false_ne_true] at hjournal
      refine ⟨.create (st.storage.fresh (settings.resolver.resolve settings.syncRoot)), ?_, ?_⟩
      · change _ ∈ s.journal
        rw [show s.journal = _ from hjournal]
        exact List.mem_append_right _ (List.mem_singleton_self _)
      · intro hbeneath
        exact not_strictlyBeneath_path hne rfl (hbeneath _ (List.mem_singleton_self _))

theorem beneath_abortPending (services : Services) (h : settings.PendingBeneath st)
    (name : String) :
    settings.PendingBeneath ((settings.under services).abortPending name st) ∧
      st.storage.Extends (FsOp.Beneath (settings.resolver.resolve settings.syncRoot))
        ((settings.under services).abortPending name st).storage := by
  unfold ReceivePushedFiles.abortPending
  cases hlookup : st.pending.lookup name with
  | none => exact ⟨h, Storage.extends_refl _ _⟩
  | some p =>
      exact ⟨fun other q hq ↦ h other q (exists_lookup_of_erase hq),
        Os.extends_abortPartial (h.strictlyBeneath hlookup) _⟩

theorem beneath_abortExpiredPartials (services : Services) (h : settings.PendingBeneath st)
    (now : ℚ) :
    settings.PendingBeneath ((settings.under services).abortExpiredPartials now st) ∧
      st.storage.Extends (FsOp.Beneath (settings.resolver.resolve settings.syncRoot))
        ((settings.under services).abortExpiredPartials now st).storage := by
  unfold ReceivePushedFiles.abortExpiredPartials
  generalize (st.pending.entries.filter _).map Sigma.fst = names
  induction names generalizing st with
  | nil => exact ⟨h, Storage.extends_refl _ _⟩
  | cons name names ih =>
      obtain ⟨hpending, hextends⟩ := beneath_abortPending services h name
      obtain ⟨hpending', hextends'⟩ := ih hpending
      exact ⟨hpending', Storage.extends_trans _ _ _ _ hextends hextends'⟩

theorem extends_abortAllPartials (services : Services) (h : settings.PendingBeneath st) :
    st.storage.Extends (FsOp.Beneath (settings.resolver.resolve settings.syncRoot))
      ((settings.under services).abortAllPartials st).storage := by
  have hentries : ∀ entry ∈ st.pending.entries,
      StrictlyBeneath (settings.resolver.resolve settings.syncRoot) entry.2.partPath.destination :=
    fun entry hentry ↦ h.strictlyBeneath (AList.mem_lookup_iff.mpr hentry)
  unfold ReceivePushedFiles.abortAllPartials
  generalize st.pending.entries = entries at hentries
  generalize st.storage = storage
  induction entries generalizing storage with
  | nil => exact Storage.extends_refl _ _
  | cons entry entries ih =>
      obtain ⟨hfirst, hrest⟩ := List.forall_mem_cons.mp hentries
      exact Storage.extends_trans _ _ _ _ (Os.extends_abortPartial hfirst _) (ih hrest _)

/-- What an event leaves is below the root, whichever way it ends. -/
theorem ReceiverSettings.PendingBeneath.handleEvent {services : Services}
    (hroot : services.os.HasDirectory (settings.resolver.resolve settings.syncRoot))
    (h : settings.PendingBeneath st) (event : ReceiverEvent) :
    settings.PendingBeneath (stateOf ((settings.under services).handleEvent event st)) := by
  cases event with
  | sweep now => exact (beneath_abortExpiredPartials services h now).1
  | push clock incoming =>
      rw [handleEvent_push]
      exact (handlePush_under settings services clock incoming st).pendingBeneath hroot h

theorem ReceiverSettings.PendingBeneath.advance {run : ReceiverRun}
    {input : Services × ReceiverInput}
    (hroot : input.1.os.HasDirectory (settings.resolver.resolve settings.syncRoot))
    (h : settings.PendingBeneath run.state) :
    settings.PendingBeneath (settings.advance run input).state := by
  apply advance_rule settings h
  · exact fun _ _ _ _ hp ↦ nomatch hp
  · exact fun event _ _ ↦ h.handleEvent hroot event

theorem extends_advance_event {services : Services}
    (hroot : services.os.HasDirectory (settings.resolver.resolve settings.syncRoot))
    (h : settings.PendingBeneath st) (event : ReceiverEvent) :
    (stateOf ((settings.under services).handleEvent event st)).storage.Extends
      (FsOp.Beneath (settings.resolver.resolve settings.syncRoot))
      (settings.advance ⟨st, false⟩ (services, .event event)).state.storage := by
  rcases advance_event settings services ⟨st, false⟩ event rfl with heq | heq
  · rw [heq]
    exact Storage.extends_refl _ _
  · rw [heq]
    exact extends_abortAllPartials services (h.handleEvent hroot event)

/-- A step keeps below the root exactly if it does not escape. -/
theorem contained_advance_iff {run : ReceiverRun} {input : Services × ReceiverInput}
    (hroot : input.1.os.HasDirectory (settings.resolver.resolve settings.syncRoot))
    (h : settings.PendingBeneath run.state)
    (hcontained : run.Contained (settings.resolver.resolve settings.syncRoot)) :
    (settings.advance run input).Contained (settings.resolver.resolve settings.syncRoot) ↔
      ¬ settings.Escapes run input := by
  obtain ⟨st, stopped⟩ := run
  obtain ⟨services, input⟩ := input
  cases stopped with
  | true => exact iff_of_true hcontained fun hescapes ↦ nomatch hescapes.1
  | false =>
      cases input with
      | cancel =>
          exact iff_of_true ((extends_abortAllPartials services h).forall_mem hcontained)
            fun hescapes ↦ hescapes.2
      | event event =>
          have hlater := extends_advance_event hroot h event
          cases event with
          | sweep now =>
              have hswept := (beneath_abortExpiredPartials services h now).2
              exact iff_of_true (hlater.forall_mem (hswept.forall_mem hcontained))
                fun hescapes ↦ hescapes.2
          | push clock incoming =>
              have heffect := handlePush_under settings services clock incoming st
              rw [handleEvent_push] at hlater
              by_cases hescapes : settings.Escapes ⟨st, false⟩
                  (services, .event (.push clock incoming))
              · obtain ⟨-, hopens, hne, hmkstemp⟩ := id hescapes
                obtain ⟨op, hop, hnot⟩ := heffect.not_contained hroot hopens hne hmkstemp
                obtain ⟨ops, hjournal, -⟩ := hlater
                refine iff_of_false (fun hall ↦ hnot (hall op ?_)) (not_not.mpr hescapes)
                rw [hjournal]
                exact List.mem_append_left _ hop
              · have hpushed := heffect.extends hroot h fun hopens ↦ hescapes ⟨rfl, hopens⟩
                exact iff_of_true (hlater.forall_mem (hpushed.forall_mem hcontained)) hescapes

end Runs

/-- The receiver keeps below the root in exactly the runs in which no push gets through to
the root itself. -/
theorem receiver_contained_iff (settings : ReceiverSettings) (files : FilePath → Option Bytes)
    (metadata : MetadataStore) (inputs : List (Services × ReceiverInput))
    (hroot : ∀ input ∈ inputs,
      input.1.os.HasDirectory (settings.resolver.resolve settings.syncRoot)) :
    Throughout settings.advance
        (ReceiverRun.Contained (settings.resolver.resolve settings.syncRoot))
        ⟨⟨.ofFiles files, metadata, ∅⟩, false⟩ inputs ↔
      Meets settings.advance (fun run input ↦ ¬ settings.Escapes run input)
        ⟨⟨.ofFiles files, metadata, ∅⟩, false⟩ inputs := by
  apply throughout_iff_meets (I := fun run ↦ settings.PendingBeneath run.state)
    (fun run input ↦ ReceiverSettings.PendingBeneath.advance)
    (fun run input hroot h ↦ contained_advance_iff hroot h) hroot
  · exact fun _ _ hp ↦ nomatch hp
  · exact List.forall_mem_nil _

/-! ### A device that is sent its root -/

def sampleServices : Services := ⟨treeOs sampleRoot, mapMetadataRepository⟩

def sampleInput (relativePath : String) : Services × ReceiverInput :=
  (sampleServices, .event (.push ⟨0, 0⟩ { samplePushOf2 none with relativePath }))

theorem treeOs_hasDirectory : (treeOs sampleRoot).HasDirectory sampleRoot := by
  intro s directory h
  exact decide_eq_true (.inl h)

theorem receiver_contained_sample :
    Throughout sampleReceiver.advance (ReceiverRun.Contained sampleRoot) receiverStart
      [sampleInput "docs/a.txt", (sampleServices, .cancel)] := by
  have hroot : ∀ input ∈ [sampleInput "docs/a.txt", (sampleServices, ReceiverInput.cancel)],
      input.1.os.HasDirectory sampleRoot :=
    List.forall_mem_cons.mpr ⟨treeOs_hasDirectory,
      List.forall_mem_singleton.mpr treeOs_hasDirectory⟩
  exact (receiver_contained_iff sampleReceiver _ _ _ hroot).mpr (by decide +kernel)

/-- The name `.` passes for a path below the root, and the temporary file lies beside it. -/
theorem dot_push_not_contained :
    (treeOs sampleRoot).HasDirectory sampleRoot ∧
      (∃ op ∈ ([sampleInput "."].foldl sampleReceiver.advance receiverStart).state.storage.journal,
        ["srv", ".sync.0.part"] ∈ op.touched) ∧
        ¬ Throughout sampleReceiver.advance (ReceiverRun.Contained sampleRoot) receiverStart
          [sampleInput "."] := by
  refine ⟨treeOs_hasDirectory, by decide +kernel, fun h ↦ ?_⟩
  have hend := h _ (List.prefix_refl _)
  revert hend
  decide +kernel

end SecureSync
