import SecureSync.Library.CountedAssembly
import SecureSync.Receiver.Steps

/-!
# The receiver as a counted assembly

For one name, what the receiver does with its file, its partial file and its
set of indices is a counted assembly over the file's bytes: an accepted push is
an arrival, a sweep discards the buffer or leaves it, and no other event counts.
-/

namespace SecureSync

open CountedAssembly

/-! ## The pending table -/

/-- Every entry has a partial file of its own, made by this receiver, and the
table keeps to its limit. -/
structure ReceiverSettings.WellFormed (settings : ReceiverSettings) (st : ReceiverState) :
    Prop where
  token_lt : ∀ {name p}, st.pending.lookup name = some p → p.partPath.token < st.storage.nextToken
  token_inj : ∀ {name name' p p'}, st.pending.lookup name = some p →
    st.pending.lookup name' = some p' → p.partPath.token = p'.partPath.token → name = name'
  length_le : st.pending.keys.length ≤ settings.limits.maxPendingFiles

section WellFormed

variable {settings : ReceiverSettings} {st st' : ReceiverState}

theorem ReceiverSettings.wellFormed_start (settings : ReceiverSettings) (storage : Storage)
    (metadata : MetadataStore) : settings.WellFormed ⟨storage, metadata, ∅⟩ where
  token_lt h := by cases h
  token_inj h := by cases h
  length_le := Nat.zero_le _

theorem ReceiverSettings.WellFormed.of_entries (h : settings.WellFormed st)
    (htoken : st.storage.nextToken ≤ st'.storage.nextToken)
    (hentries : ∀ {name p'}, st'.pending.lookup name = some p' →
      ∃ p, st.pending.lookup name = some p ∧ p.partPath = p'.partPath)
    (hlength : st'.pending.keys.length ≤ st.pending.keys.length) : settings.WellFormed st' where
  token_lt := by
    intro name p' hp'
    obtain ⟨p, hp, heq⟩ := hentries hp'
    rw [← heq]
    exact (h.token_lt hp).trans_le htoken
  token_inj := by
    intro name name' p p' hp hp' htok
    obtain ⟨q, hq, hqp⟩ := hentries hp
    obtain ⟨q', hq', hqp'⟩ := hentries hp'
    exact h.token_inj hq hq' (by rw [hqp, hqp', htok])
  length_le := hlength.trans h.length_le

theorem exists_lookup_of_erase {name other : String} {p : PendingFile}
    {pending : AList fun _ : String ↦ PendingFile}
    (h : (pending.erase name).lookup other = some p) : pending.lookup other = some p := by
  by_cases hne : other = name
  · rw [hne, AList.lookup_erase] at h
    cases h
  · rwa [AList.lookup_erase_ne hne] at h

/-- An entry of the new table is the one just entered, or an old one of another name. -/
theorem lookup_insert_cases {name other : String} {p q : PendingFile}
    {pending : AList fun _ : String ↦ PendingFile}
    (h : (pending.insert name p).lookup other = some q) :
    other = name ∧ q = p ∨ other ≠ name ∧ pending.lookup other = some q := by
  by_cases hne : other = name
  · rw [hne, AList.lookup_insert] at h
    exact .inl ⟨hne, (Option.some.inj h).symm⟩
  · rw [AList.lookup_insert_ne hne] at h
    exact .inr ⟨hne, h⟩

theorem length_keys_erase_le (pending : AList fun _ : String ↦ PendingFile) (name : String) :
    (pending.erase name).keys.length ≤ pending.keys.length := by
  rw [AList.keys_erase]
  exact List.length_erase_le

theorem length_keys_insert_of_mem {pending : AList fun _ : String ↦ PendingFile} {name : String}
    (h : name ∈ pending) (p : PendingFile) :
    (pending.insert name p).keys.length = pending.keys.length := by
  have hpos := List.length_pos_of_mem (AList.mem_keys.mp h)
  rw [AList.keys_insert, List.length_cons, List.length_erase_of_mem (AList.mem_keys.mp h)]
  omega

theorem length_keys_insert_of_notMem {pending : AList fun _ : String ↦ PendingFile}
    {name : String} (h : name ∉ pending) (p : PendingFile) :
    (pending.insert name p).keys.length = pending.keys.length + 1 := by
  rw [AList.keys_insert, List.length_cons, List.erase_of_not_mem (mt AList.mem_keys.mpr h)]

variable {clock : Clock} {name : String} {destination : FilePath}

theorem opened_cases (st : ReceiverState) (clock : Clock) (name : String)
    (destination : FilePath) :
    (∃ p, st.pending.lookup name = some p ∧ st.opened clock name destination = (p, st)) ∨
      st.pending.lookup name = none ∧
        st.opened clock name destination =
          (⟨⟨destination, st.storage.nextToken⟩, ∅, none, clock.monotonic⟩,
            ⟨(st.storage.beginPartial destination).2, st.metadata,
              st.pending.insert name
                ⟨⟨destination, st.storage.nextToken⟩, ∅, none, clock.monotonic⟩⟩) := by
  unfold ReceiverState.opened
  cases hlookup : st.pending.lookup name with
  | some p => exact .inl ⟨p, rfl, rfl⟩
  | none => exact .inr ⟨rfl, rfl⟩

theorem lookup_opened (st : ReceiverState) (clock : Clock) (name : String)
    (destination : FilePath) :
    (st.opened clock name destination).2.pending.lookup name =
      some (st.opened clock name destination).1 := by
  rcases opened_cases st clock name destination with ⟨p, hp, heq⟩ | ⟨-, heq⟩
  · rw [heq]
    exact hp
  · rw [heq]
    exact AList.lookup_insert _

variable (st clock destination) in
theorem lookup_opened_of_ne {other : String} (hne : other ≠ name) :
    (st.opened clock name destination).2.pending.lookup other = st.pending.lookup other := by
  rcases opened_cases st clock name destination with ⟨p, hp, heq⟩ | ⟨-, heq⟩
  · rw [heq]
  · rw [heq]
    exact AList.lookup_insert_ne hne

variable (clock destination) in
theorem ReceiverSettings.WellFormed.opened (h : settings.WellFormed st)
    (hroom : settings.HasRoom st name) :
    settings.WellFormed (st.opened clock name destination).2 := by
  rcases opened_cases st clock name destination with ⟨p, hp, heq⟩ | ⟨hnone, heq⟩
  · rw [heq]
    exact h
  · have hnew : name ∉ st.pending := AList.lookup_eq_none.mp hnone
    have hlength := Or.resolve_left hroom hnew
    rw [heq]
    -- an entry is the new one, on the token just spent, or an old one below it
    have hentries : ∀ {other p}, (st.pending.insert name
        (⟨⟨destination, st.storage.nextToken⟩, ∅, none, clock.monotonic⟩ : PendingFile)).lookup
          other = some p →
        other = name ∧ p.partPath.token = st.storage.nextToken ∨
          st.pending.lookup other = some p ∧ p.partPath.token < st.storage.nextToken := by
      intro other p hp
      rcases lookup_insert_cases hp with ⟨hname, rfl⟩ | ⟨-, hp⟩
      · exact .inl ⟨hname, rfl⟩
      · exact .inr ⟨hp, h.token_lt hp⟩
    refine ⟨?_, ?_, ?_⟩
    · intro other p hp
      have := hentries hp
      simp only [Storage.nextToken_beginPartial]
      omega
    · intro other other' p p' hp hp' htok
      rcases hentries hp with ⟨rfl, htok₁⟩ | ⟨hold, hlt⟩ <;>
        rcases hentries hp' with ⟨rfl, htok₂⟩ | ⟨hold', hlt'⟩
      · rfl
      · omega
      · omega
      · exact h.token_inj hold hold' htok
    · simp only [length_keys_insert_of_notMem hnew]
      omega

theorem ReceiverSettings.WellFormed.hold {p : PendingFile} {incoming : IncomingPush}
    (h : settings.WellFormed st) (hp : st.pending.lookup incoming.relativePath = some p) :
    settings.WellFormed (st.hold clock p incoming) := by
  refine h.of_entries (le_refl _) ?_ ?_
  · intro other q hq
    rcases lookup_insert_cases hq with ⟨rfl, rfl⟩ | ⟨-, hq⟩
    · exact ⟨p, hp, rfl⟩
    · exact ⟨q, hq, rfl⟩
  · have hmem : incoming.relativePath ∈ st.pending := AList.lookup_isSome.mp (by simp [hp])
    simp only [ReceiverState.hold, length_keys_insert_of_mem hmem, le_refl]

theorem ReceiverSettings.WellFormed.commit {p : PendingFile} {incoming : IncomingPush}
    (h : settings.WellFormed st) (hp : st.pending.lookup incoming.relativePath = some p) :
    settings.WellFormed (settings.commit st clock destination p incoming) :=
  (h.hold hp).of_entries (le_refl _) (fun hq ↦ ⟨_, exists_lookup_of_erase hq, rfl⟩)
    (length_keys_erase_le _ _)

theorem ReceiverSettings.WellFormed.accepted {incoming : IncomingPush}
    (h : settings.WellFormed st) (hadmits : settings.Admits st incoming destination) :
    settings.WellFormed (settings.accepted clock destination incoming st) := by
  have hopened := h.opened clock destination hadmits.2.2
  have hlookup := lookup_opened st clock incoming.relativePath destination
  simp only [ReceiverSettings.accepted]
  split_ifs
  · exact hopened.commit hlookup
  · exact hopened.hold hlookup

theorem ReceiverSettings.WellFormed.abortPending (h : settings.WellFormed st) (name : String) :
    settings.WellFormed (settings.onDisk.abortPending name st) := by
  unfold ReceivePushedFiles.abortPending
  split
  · exact h
  · exact h.of_entries (le_refl _) (fun hq ↦ ⟨_, exists_lookup_of_erase hq, rfl⟩)
      (length_keys_erase_le _ _)

theorem ReceiverSettings.WellFormed.step (h : settings.WellFormed st) (event : ReceiverEvent) :
    settings.WellFormed (settings.step st event) := by
  cases event with
  | push clock incoming =>
      by_cases hadmits : ∃ destination, settings.Admits st incoming destination
      · obtain ⟨destination, hadmits⟩ := hadmits
        rw [step_push_of_admits clock hadmits]
        exact h.accepted hadmits
      · rw [step_push_of_not_admits clock (by simpa using hadmits)]
        exact h
  | sweep now =>
      simp only [ReceiverSettings.step, ReceivePushedFiles.abortExpiredPartials]
      generalize (st.pending.entries.filter _).map Sigma.fst = names
      induction names generalizing st with
      | nil => exact h
      | cons name names ih => exact ih (h.abortPending name)

end WellFormed

/-! ## The assembly of one file -/

/-- The replacements of one destination recorded in a journal. -/
def commitsAt (destination : FilePath) (journal : List FsOp) : List (Option Bytes × Bytes) :=
  journal.filterMap fun
    | .replace _ target before after => if target = destination then some (before, after) else none
    | _ => none

@[simp] theorem commitsAt_nil (destination : FilePath) : commitsAt destination [] = [] := rfl

@[simp] theorem commitsAt_create (destination : FilePath) (part : PartPath) (ops : List FsOp) :
    commitsAt destination (.create part :: ops) = commitsAt destination ops := rfl

@[simp] theorem commitsAt_write (destination : FilePath) (path : Path) (chunk : Chunk)
    (ops : List FsOp) :
    commitsAt destination (.write path chunk :: ops) = commitsAt destination ops := rfl

@[simp] theorem commitsAt_unlink (destination : FilePath) (part : PartPath) (ops : List FsOp) :
    commitsAt destination (.unlink part :: ops) = commitsAt destination ops := rfl

@[simp] theorem commitsAt_replace_self (destination : FilePath) (part : PartPath)
    (before : Option Bytes) (after : Bytes) (ops : List FsOp) :
    commitsAt destination (.replace part destination before after :: ops) =
      (before, after) :: commitsAt destination ops := by
  simp [commitsAt]

theorem commitsAt_replace_of_ne {destination target : FilePath} (h : target ≠ destination)
    (part : PartPath) (before : Option Bytes) (after : Bytes) (ops : List FsOp) :
    commitsAt destination (.replace part target before after :: ops) =
      commitsAt destination ops := by
  simp [commitsAt, h]

@[simp] theorem commitsAt_append (destination : FilePath) (ops ops' : List FsOp) :
    commitsAt destination (ops ++ ops') = commitsAt destination ops ++ commitsAt destination ops' :=
  List.filterMap_append ..

def ReceiverState.assembly (st : ReceiverState) (name : String) (destination : FilePath) :
    CountedAssembly.State Bytes ℕ where
  committed := st.storage.files (.file destination)
  buffer := (st.pending.lookup name).map fun p ↦
    ((st.storage.files (.part p.partPath)).getD [], p.receivedIndices)
  commits := commitsAt destination st.storage.journal

def IncomingPush.item (incoming : IncomingPush) : Item Bytes ℕ where
  index := incoming.chunk.metadata.index
  total := incoming.totalChunks.toNat
  apply old := Overlay.writeAt 0 old incoming.chunk.piece

theorem assemble_item {α : Type} (f : α → IncomingPush) (xs : List α) (old : Bytes) :
    assemble (xs.map fun x ↦ (f x).item) old =
      Overlay.writeAll 0 old (xs.map fun x ↦ (f x).chunk.piece) := by
  induction xs generalizing old with
  | nil => rfl
  | cons x xs ih => exact ih _

section Assembly

variable {settings : ReceiverSettings} {st : ReceiverState} {clock : Clock} {name : String}
  {destination : FilePath} {incoming : IncomingPush}

theorem assembly_buffer_eq_none_iff :
    (st.assembly name destination).buffer = none ↔ name ∉ st.pending := by
  simp [ReceiverState.assembly, AList.lookup_eq_none]

theorem assembly_opened (st : ReceiverState) (clock : Clock) (name : String)
    (destination : FilePath) :
    (st.assembly name destination).opened [] =
        (((st.opened clock name destination).2.storage.files
            (.part (st.opened clock name destination).1.partPath)).getD [],
          (st.opened clock name destination).1.receivedIndices) ∧
      (st.assembly name destination).committed =
        (st.opened clock name destination).2.storage.files (.file destination) ∧
      (st.assembly name destination).commits =
        commitsAt destination (st.opened clock name destination).2.storage.journal := by
  rcases opened_cases st clock name destination with ⟨p, hp, heq⟩ | ⟨hnone, heq⟩
  · rw [heq]
    simp [ReceiverState.assembly, State.opened, hp]
  · rw [heq]
    simp [ReceiverState.assembly, State.opened, hnone]

/-- An accepted push is an arrival. -/
theorem assembly_accepted (st : ReceiverState) (clock : Clock) (destination : FilePath)
    (incoming : IncomingPush) :
    (settings.accepted clock destination incoming st).assembly incoming.relativePath destination =
      (st.assembly incoming.relativePath destination).add [] incoming.item := by
  obtain ⟨hopened, hcommitted, hcommits⟩ :=
    assembly_opened st clock incoming.relativePath destination
  have hcompletes : (st.assembly incoming.relativePath destination).Completes [] incoming.item ↔
      incoming.totalChunks ≤
        ((st.opened clock incoming.relativePath destination).1.counted clock
          incoming).receivedIndices.card := by
    rw [State.Completes, hopened]
    exact Int.toNat_le
  simp only [ReceiverSettings.accepted, State.add, hcompletes, hopened]
  generalize st.assembly incoming.relativePath destination = assembled at hcommitted hcommits ⊢
  generalize st.opened clock incoming.relativePath destination = opened at hcommitted hcommits ⊢
  split_ifs with hdone
  · simp [ReceiverState.assembly, ReceiverSettings.commit, ReceiverState.hold, hcommitted,
      hcommits, IncomingPush.item]
  · simp [ReceiverState.assembly, ReceiverState.hold, hcommitted, hcommits, IncomingPush.item,
      PendingFile.counted]

/-! ### Other files -/

variable (clock) in
theorem assembly_opened_of_ne (h : settings.WellFormed st) {other : String} (hne : name ≠ other)
    (target : FilePath) :
    (st.opened clock other target).2.assembly name destination = st.assembly name destination := by
  have hlookup := lookup_opened_of_ne st clock target hne
  rcases opened_cases st clock other target with ⟨p, hp, heq⟩ | ⟨hnone, heq⟩
  · rw [heq]
  · rw [heq] at hlookup ⊢
    have hpart : ∀ q, st.pending.lookup name = some q →
        Path.part q.partPath ≠ .part ⟨target, st.storage.nextToken⟩ := by
      intro q hq hsame
      have := h.token_lt hq
      cases hsame' : q.partPath
      simp only [hsame', Path.part.injEq, PartPath.mk.injEq] at hsame this
      omega
    simp only [ReceiverState.assembly, hlookup, Storage.files_file_beginPartial,
      Storage.journal_beginPartial, commitsAt_append, commitsAt_create, commitsAt_nil,
      List.append_nil, State.mk.injEq, true_and, and_true]
    cases hq : st.pending.lookup name with
    | none => rfl
    | some q =>
        rw [Option.map_some, Option.map_some, Storage.files_beginPartial_of_ne _ _ (hpart q hq)]

variable (clock destination) in
theorem assembly_hold_of_ne (h : settings.WellFormed st) {p : PendingFile}
    (hp : st.pending.lookup incoming.relativePath = some p) (hne : name ≠ incoming.relativePath) :
    (st.hold clock p incoming).assembly name destination = st.assembly name destination := by
  have hpart : ∀ q, st.pending.lookup name = some q → Path.part q.partPath ≠ .part p.partPath := by
    intro q hq hsame
    exact hne (h.token_inj hq hp (by rw [Path.part.inj hsame]))
  simp only [ReceiverState.assembly, ReceiverState.hold, AList.lookup_insert_ne hne,
    Storage.files_file_writeChunkAtOffset_part, Storage.journal_writeChunkAtOffset,
    commitsAt_append, commitsAt_write, commitsAt_nil, List.append_nil, State.mk.injEq, true_and,
    and_true]
  cases hq : st.pending.lookup name with
  | none => rfl
  | some q =>
      rw [Option.map_some, Option.map_some,
        Storage.files_writeChunkAtOffset_of_ne _ _ _ (hpart q hq)]

theorem assembly_accepted_of_ne (h : settings.WellFormed st) {other : FilePath}
    (hadmits : settings.Admits st incoming other) (hname : name ≠ incoming.relativePath)
    (hother : other ≠ destination) :
    (settings.accepted clock other incoming st).assembly name destination =
      st.assembly name destination := by
  have hopened := h.opened clock other hadmits.2.2
  have hlookup := lookup_opened st clock incoming.relativePath other
  rw [← assembly_opened_of_ne clock h hname other]
  simp only [ReceiverSettings.accepted]
  generalize st.opened clock incoming.relativePath other = opened at hopened hlookup ⊢
  have hheld := assembly_hold_of_ne clock destination hopened hlookup hname
  split_ifs
  · rw [← hheld]
    have hpart : ∀ q, opened.2.pending.lookup name = some q →
        Path.part q.partPath ≠ .part opened.1.partPath := by
      intro q hq hsame
      exact hname (hopened.token_inj hq hlookup (by rw [Path.part.inj hsame]))
    have hfile : Path.file destination ≠ .file other := by
      simpa using hother.symm
    simp only [ReceiverState.assembly, ReceiverSettings.commit, ReceiverState.hold,
      AList.lookup_erase_ne hname, AList.lookup_insert_ne hname, Storage.journal_replace,
      commitsAt_append, commitsAt_replace_of_ne hother, commitsAt_nil, List.append_nil,
      Storage.files_replace_of_ne _ _ _ _ (q := .file destination) (by simp) hfile,
      State.mk.injEq, true_and, and_true]
    cases hq : opened.2.pending.lookup name with
    | none => rfl
    | some q =>
        rw [Option.map_some, Option.map_some,
          Storage.files_replace_of_ne _ _ _ _ (hpart q hq) (by simp)]
  · exact hheld

theorem assembly_abortPending (h : settings.WellFormed st) (aborted : String) :
    (settings.onDisk.abortPending aborted st).assembly name destination =
      if aborted = name then (st.assembly name destination).discard
      else st.assembly name destination := by
  unfold ReceivePushedFiles.abortPending
  cases hp : st.pending.lookup aborted with
  | none =>
      split_ifs with hname
      · subst hname
        simp [ReceiverState.assembly, State.discard, hp]
      · rfl
  | some p =>
      by_cases hname : aborted = name
      · subst hname
        simp [ReceiverState.assembly, State.discard, AList.lookup_erase, ReceiverSettings.onDisk,
          localFileReconstructor]
      · have hne : name ≠ aborted := Ne.symm hname
        have hpart : ∀ q, st.pending.lookup name = some q →
            Path.part q.partPath ≠ .part p.partPath := by
          intro q hq hsame
          exact hne (h.token_inj hq hp (by rw [Path.part.inj hsame]))
        rw [if_neg hname]
        simp only [ReceiverState.assembly, ReceiverSettings.onDisk, localFileReconstructor,
          AList.lookup_erase_ne hne, Storage.files_file_unlink, Storage.journal_unlink,
          commitsAt_append, commitsAt_unlink, commitsAt_nil, List.append_nil, State.mk.injEq,
          true_and, and_true]
        cases hq : st.pending.lookup name with
        | none => rfl
        | some q =>
            rw [Option.map_some, Option.map_some, Storage.files_unlink_of_ne _ _ (hpart q hq)]

theorem assembly_foldl_abortPending (h : settings.WellFormed st) (names : List String) :
    (names.foldl (fun st aborted ↦ settings.onDisk.abortPending aborted st) st).assembly name
        destination =
      if name ∈ names then (st.assembly name destination).discard
      else st.assembly name destination := by
  induction names generalizing st with
  | nil => rfl
  | cons aborted names ih =>
      rw [List.foldl_cons, ih (h.abortPending aborted), assembly_abortPending h]
      by_cases hname : aborted = name
      · simp [hname, State.discard]
      · simp [hname, Ne.symm hname]

/-- A sweep discards the buffer of an expired entry and leaves any other. -/
theorem assembly_sweep (h : settings.WellFormed st) (now : ℚ) :
    (settings.step st (.sweep now)).assembly name destination =
      if (st.pending.lookup name).any (settings.onDisk.isExpired now) then
        (st.assembly name destination).discard
      else st.assembly name destination := by
  have hmem : name ∈ (st.pending.entries.filter fun entry ↦
      settings.onDisk.isExpired now entry.2).map Sigma.fst ↔
      (st.pending.lookup name).any (settings.onDisk.isExpired now) = true := by
    constructor
    · intro hname
      obtain ⟨⟨aborted, p⟩, hentry, rfl⟩ := List.mem_map.mp hname
      obtain ⟨hentry, hexpired⟩ := List.mem_filter.mp hentry
      rw [AList.mem_lookup_iff.mpr hentry, Option.any_some]
      exact hexpired
    · intro hany
      cases hp : st.pending.lookup name with
      | none => simp [hp] at hany
      | some p =>
          rw [hp, Option.any_some] at hany
          exact List.mem_map.mpr
            ⟨⟨name, p⟩, List.mem_filter.mpr ⟨AList.mem_lookup_iff.mp hp, hany⟩, rfl⟩
  simp only [ReceiverSettings.step, ReceivePushedFiles.abortExpiredPartials,
    assembly_foldl_abortPending h, hmem]

end Assembly

end SecureSync
