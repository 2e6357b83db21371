import SecureSync.Library.Custody
import SecureSync.Receiver.Faults

/-!
# Partial files

Which temporary files each call leaves on the disk, and which of them the
pending table holds.
-/

namespace SecureSync

open Custody Raising

/-- The temporary files on the disk. -/
def Storage.parts (s : Storage) : Set PartPath := {part | s.files (.part part) ≠ none}

namespace Storage

variable {s t u : Storage} {part : PartPath}

theorem parts_update {s' : Storage} {bytes : Bytes}
    (h : s'.files = Function.update s.files (.part part) (some bytes)) :
    s'.parts = insert part s.parts := by
  ext q
  by_cases hq : q = part
  · simp [parts, h, hq]
  · simp [parts, h, hq]

theorem parts_create (s : Storage) (destination : FilePath) :
    (s.create destination).parts = insert (s.fresh destination) s.parts :=
  parts_update rfl

theorem parts_replace (s : Storage) (part : PartPath) (destination : FilePath) (bytes : Bytes) :
    (s.replace part destination bytes).parts = s.parts \ {part} := by
  ext q
  by_cases hq : q = part
  · simp [parts, replace, hq]
  · simp [parts, replace, hq]

theorem parts_unlink (s : Storage) (part : PartPath) :
    (s.unlink part).parts = s.parts \ {part} := by
  ext q
  by_cases hq : q = part
  · simp [parts, unlink, hq]
  · simp [parts, unlink, hq]

/-- No temporary file comes or goes, but that this one may be opened. -/
def Touches (part : PartPath) (s t : Storage) : Prop :=
  t.nextToken = s.nextToken ∧ (t.parts = s.parts ∨ t.parts = insert part s.parts)

theorem touches_refl (part : PartPath) (s : Storage) : s.Touches part s := ⟨rfl, .inl rfl⟩

theorem touches_trans (part : PartPath) (s t u : Storage) (h : s.Touches part t)
    (h' : t.Touches part u) : s.Touches part u := by
  obtain ⟨htoken, hparts⟩ := h
  obtain ⟨htoken', hparts'⟩ := h'
  refine ⟨htoken'.trans htoken, ?_⟩
  rcases hparts with hparts | hparts <;> rcases hparts' with hparts' | hparts'
  · exact .inl (hparts'.trans hparts)
  · exact .inr (by rw [hparts', hparts])
  · exact .inr (hparts'.trans hparts)
  · exact .inr (by rw [hparts', hparts, Set.insert_idem])

theorem Touches.parts_eq (h : s.Touches part t) (hpart : part ∈ s.parts) : t.parts = s.parts := by
  rcases h.2 with hparts | hparts
  · exact hparts
  · rw [hparts, Set.insert_eq_of_mem hpart]

end Storage

namespace Os

variable {os : Os} {destination : FilePath} {part : PartPath} {s s' : Storage}

theorem parts_makeDirectories (os : Os) (names : List String) (s : Storage) :
    (stateOf (os.makeDirectories names s)).parts = s.parts ∧
      (stateOf (os.makeDirectories names s)).nextToken = s.nextToken := by
  have hrun : Advances (fun s t : Storage ↦ t.parts = s.parts ∧ t.nextToken = s.nextToken)
      (os.makeDirectories names) :=
    advances_makeDirectories (fun _ ↦ ⟨rfl, rfl⟩)
      (fun _ _ _ h h' ↦ ⟨h'.1.trans h.1, h'.2.trans h.2⟩) (fun _ _ _ _ ↦ ⟨rfl, rfl⟩)
  exact hrun s

/-- A fresh temporary file has been made, or none. -/
theorem parts_createPartial (h : os.createPartial destination s = .ok part s') :
    part = s.fresh destination ∧ s'.parts = insert part s.parts ∧
      s'.nextToken = s.nextToken + 1 := by
  obtain ⟨t, hmake, rfl, rfl⟩ := createPartial_eq_ok h
  have hdirectories := os.parts_makeDirectories destination.dropLast.reverse s
  rw [hmake] at hdirectories
  obtain ⟨hparts, htoken⟩ := hdirectories
  refine ⟨?_, ?_, ?_⟩
  · rw [Storage.fresh, Storage.fresh, show t.nextToken = s.nextToken from htoken]
  · rw [Storage.parts_create, show t.parts = s.parts from hparts]
  · exact congrArg (· + 1) htoken

theorem parts_createPartial_error {e : OsError}
    (h : os.createPartial destination s = .error e s') :
    s'.parts = s.parts ∧ s'.nextToken = s.nextToken := by
  have hdirectories := os.parts_makeDirectories destination.dropLast.reverse s
  unfold createPartial call at h
  rw [bind_run] at h
  cases hmake : os.makeDirectories destination.dropLast.reverse s with
  | error e' t =>
      rw [hmake] at h hdirectories
      cases h
      exact hdirectories
  | ok u t =>
      rw [hmake] at h hdirectories
      cases hmkstemp : os.raises (.mkstemp destination.dropLast) with
      | true =>
          rw [hmkstemp] at h
          cases h
          exact hdirectories
      | false =>
          rw [hmkstemp] at h
          cases h

theorem touches_seedPartial (os : Os) (destination : FilePath) (part : PartPath) :
    Advances (Storage.Touches part) (os.seedPartial destination part) := by
  apply advances_seedPartial (Storage.touches_refl part) (Storage.touches_trans part)
  exact fun s ↦ ⟨rfl, .inr (Storage.parts_update rfl)⟩

theorem touches_writeChunkAtOffset (os : Os) (part : PartPath) (chunk : Chunk) :
    Advances (Storage.Touches part) (os.writeChunkAtOffset (.part part) chunk) := by
  apply Advances.adaptExcept
  apply advances_writeAll (Storage.touches_refl part) (Storage.touches_trans part)
  · exact fun _ _ _ _ ↦ ⟨rfl, .inl rfl⟩
  · exact fun _ _ ↦ ⟨rfl, .inr (Storage.parts_update rfl)⟩

theorem commitPartial_eq_ok (h : os.commitPartial destination part s = .ok () s') :
    s'.parts = s.parts \ {part} ∧ s'.nextToken = s.nextToken := by
  obtain ⟨bytes, -, rfl⟩ := rename_eq_ok (adaptExcept_eq_ok.mp h)
  exact ⟨Storage.parts_replace .., rfl⟩

theorem commitPartial_eq_error {e : ChunkEngineError}
    (h : os.commitPartial destination part s = .error e s') : s' = s := by
  obtain ⟨e', h, -⟩ := adaptExcept_eq_error.mp h
  exact rename_eq_error h

/-- `begin_partial` raises when it has made its file already. -/
def LeavesPart (os : Os) (destination : FilePath) (s : Storage) : Prop :=
  match os.createPartial destination s with
  | .error _ _ => False
  | .ok part s' => ¬ os.CanSeed destination part s'

instance (destination : FilePath) (s : Storage) : Decidable (os.LeavesPart destination s) :=
  match h : os.createPartial destination s with
  | .error _ _ => .isFalse (by simp [LeavesPart, h])
  | .ok part s' => decidable_of_iff (¬ os.CanSeed destination part s') (by simp [LeavesPart, h])

theorem beginPartial_eq_error {e : ChunkEngineError}
    (h : os.beginPartial destination s = .error e s') :
    (¬ os.LeavesPart destination s ∧ s'.parts = s.parts ∧ s'.nextToken = s.nextToken) ∨
      (os.LeavesPart destination s ∧ s'.parts = insert (s.fresh destination) s.parts ∧
        s'.nextToken = s.nextToken + 1) := by
  obtain ⟨e', h, -⟩ := adaptExcept_eq_error.mp h
  rw [bind_run] at h
  unfold LeavesPart
  cases hcreate : os.createPartial destination s with
  | error e'' t =>
      rw [hcreate] at h
      cases h
      exact .inl ⟨id, parts_createPartial_error hcreate⟩
  | ok part t =>
      rw [hcreate] at h
      dsimp only at h
      rw [bind_run] at h
      obtain ⟨rfl, hparts, htoken⟩ := parts_createPartial hcreate
      have htouches := os.touches_seedPartial destination (s.fresh destination) t
      cases hseed : os.seedPartial destination (s.fresh destination) t with
      | ok u t' =>
          rw [hseed] at h
          cases h
      | error e'' t' =>
          rw [hseed] at h htouches
          cases h
          have hmem : s.fresh destination ∈ t.parts := by
            rw [hparts]
            exact Set.mem_insert _ s.parts
          refine .inr ⟨fun hcan ↦ ?_, (htouches.parts_eq hmem).trans hparts,
            htouches.1.trans htoken⟩
          rw [seedPartial_eq_ok.mpr ⟨hcan, rfl⟩] at hseed
          cases hseed

theorem parts_beginPartial (h : os.beginPartial destination s = .ok part s') :
    ¬ os.LeavesPart destination s ∧ part = s.fresh destination ∧
      s'.parts = insert part s.parts ∧ s'.nextToken = s.nextToken + 1 := by
  obtain ⟨t, hcreate, hseed⟩ := beginPartial_eq_ok.mp h
  obtain ⟨hpart, hparts, htoken⟩ := parts_createPartial hcreate
  have htouches := os.touches_seedPartial destination part t
  rw [hseed] at htouches
  have hmem : part ∈ t.parts := by
    rw [hparts]
    exact Set.mem_insert part s.parts
  refine ⟨?_, hpart, (htouches.parts_eq hmem).trans hparts, htouches.1.trans htoken⟩
  rw [LeavesPart, hcreate]
  exact not_not.mpr (seedPartial_eq_ok.mp hseed).1

end Os

/-! ## The pending table -/

/-- The partial file that a name holds. -/
def heldParts (pending : AList fun _ : String ↦ PendingFile) (name : String) : Option PartPath :=
  (pending.lookup name).map PendingFile.partPath

theorem heldParts_insert (pending : AList fun _ : String ↦ PendingFile) (name : String)
    (p : PendingFile) :
    heldParts (pending.insert name p) =
      Function.update (heldParts pending) name (some p.partPath) := by
  ext1 other
  by_cases hne : other = name
  · rw [hne, Function.update_self, heldParts, AList.lookup_insert]
    rfl
  · rw [Function.update_of_ne hne, heldParts, AList.lookup_insert_ne hne]
    rfl

theorem heldParts_erase (pending : AList fun _ : String ↦ PendingFile) (name : String) :
    heldParts (pending.erase name) = Function.update (heldParts pending) name none := by
  ext1 other
  by_cases hne : other = name
  · rw [hne, Function.update_self, heldParts, AList.lookup_erase]
    rfl
  · rw [Function.update_of_ne hne, heldParts, AList.lookup_erase_ne hne]
    rfl

/-- The temporary files on the disk are the ones that the table holds. -/
def ReceiverState.Accounted (st : ReceiverState) : Prop :=
  Custody.Accounted st.storage.parts (heldParts st.pending)

/-- Besides, no temporary file has a name that is yet to come. -/
structure ReceiverSettings.Tracks (settings : ReceiverSettings) (st : ReceiverState) : Prop
    extends settings.WellFormed st where
  parts_lt : ∀ part ∈ st.storage.parts, part.token < st.storage.nextToken

section Table

variable {settings : ReceiverSettings} {st : ReceiverState} {os : Os} {clock : Clock}
  {incoming : IncomingPush} {destination : FilePath} {p q : PendingFile} {s s' : Storage}

theorem parts_ofFiles (files : FilePath → Option Bytes) : (Storage.ofFiles files).parts = ∅ := by
  ext part
  simp [Storage.parts, Storage.ofFiles]

theorem ReceiverSettings.tracks_start (settings : ReceiverSettings)
    (files : FilePath → Option Bytes) (metadata : MetadataStore) :
    settings.Tracks ⟨.ofFiles files, metadata, ∅⟩ := by
  refine ⟨settings.wellFormed_start _ _, fun part hpart ↦ ?_⟩
  rw [parts_ofFiles] at hpart
  exact hpart.elim

theorem ReceiverSettings.Tracks.separate (h : settings.Tracks st) :
    Separate (heldParts st.pending) := by
  intro name name' part hname hname'
  obtain ⟨p, hp, rfl⟩ := Option.map_eq_some_iff.mp hname
  obtain ⟨p', hp', heq⟩ := Option.map_eq_some_iff.mp hname'
  exact h.token_inj hp hp' (by rw [heq])

theorem ReceiverSettings.Tracks.fresh_notMem (h : settings.Tracks st) (destination : FilePath) :
    st.storage.fresh destination ∉ st.storage.parts :=
  fun hmem ↦ lt_irrefl _ (h.parts_lt _ hmem)

/-- The token counter and the table after an entry is open, compared with those on a disk
that serves every request. -/
theorem EntryOpen.opened (h : EntryOpen os st clock incoming.relativePath destination p s) :
    (st.opened clock incoming.relativePath destination).1.partPath = p.partPath ∧
      (st.opened clock incoming.relativePath destination).2.storage.nextToken = s.nextToken ∧
        ∀ q, ((st.opened clock incoming.relativePath destination).2.pending.insert
            incoming.relativePath q) = st.pending.insert incoming.relativePath q := by
  cases h with
  | known hp => simp only [ReceiverState.opened, hp, and_self, implies_true]
  | @begun part s hnew hbegin =>
      obtain ⟨-, rfl, -, htoken⟩ := Os.parts_beginPartial hbegin
      have hlookup := AList.lookup_eq_none.mpr hnew
      simp only [ReceiverState.opened, hlookup, AList.insert_insert, implies_true, and_true]
      exact ⟨rfl, htoken.symm⟩

theorem EntryOpen.wellFormed (h : settings.WellFormed st)
    (hentry : EntryOpen os st clock incoming.relativePath destination p s)
    (hroom : settings.HasRoom st incoming.relativePath) (hq : q.partPath = p.partPath)
    (htoken : s'.nextToken = s.nextToken) :
    settings.WellFormed
      ⟨s', st.metadata, st.pending.insert incoming.relativePath q⟩ := by
  obtain ⟨hpart, hnext, hinsert⟩ := hentry.opened
  have hlookup := lookup_opened st clock incoming.relativePath destination
  refine (h.opened clock destination hroom).of_entries (htoken.trans hnext.symm).ge ?_ ?_
  · intro other r hr
    rcases lookup_insert_cases hr with ⟨rfl, rfl⟩ | ⟨hne, hr⟩
    · exact ⟨_, hlookup, hpart.trans hq.symm⟩
    · exact ⟨r, by rw [lookup_opened_of_ne st clock destination hne, hr], rfl⟩
  · have hmem := AList.lookup_isSome.mp (Option.isSome_of_mem hlookup)
    rw [← hinsert q, length_keys_insert_of_mem hmem]

theorem EntryOpen.parts_lt (h : settings.Tracks st)
    (hentry : EntryOpen os st clock incoming.relativePath destination p s) :
    p.partPath.token < s.nextToken ∧ ∀ part ∈ s.parts, part.token < s.nextToken := by
  cases hentry with
  | known hp => exact ⟨h.token_lt hp, h.parts_lt⟩
  | @begun part s hnew hbegin =>
      obtain ⟨-, rfl, hparts, htoken⟩ := Os.parts_beginPartial hbegin
      rw [hparts, htoken]
      refine ⟨Nat.lt_succ_self _, ?_⟩
      rintro part (rfl | hpart)
      · exact Nat.lt_succ_self _
      · exact (h.parts_lt part hpart).trans (Nat.lt_succ_self _)

/-- After the entry is open and its file touched. -/
theorem EntryOpen.tracks (h : settings.Tracks st)
    (hentry : EntryOpen os st clock incoming.relativePath destination p s)
    (hroom : settings.HasRoom st incoming.relativePath) (hq : q.partPath = p.partPath)
    (htouches : s.Touches p.partPath s') :
    settings.Tracks ⟨s', st.metadata, st.pending.insert incoming.relativePath q⟩ where
  toWellFormed := hentry.wellFormed h.toWellFormed hroom hq htouches.1
  parts_lt part hpart := by
    obtain ⟨hp, hparts⟩ := hentry.parts_lt h
    change part.token < s'.nextToken
    rw [htouches.1]
    rcases htouches.2 with heq | heq
    · exact hparts part (heq ▸ hpart)
    · rcases (heq ▸ hpart : part ∈ insert p.partPath s.parts) with rfl | hpart
      · exact hp
      · exact hparts part hpart

theorem EntryOpen.accounted (haccounted : st.Accounted)
    (hentry : EntryOpen os st clock incoming.relativePath destination p s)
    (hq : q.partPath = p.partPath) (htouches : s.Touches p.partPath s') :
    Custody.Accounted s'.parts (heldParts (st.pending.insert incoming.relativePath q)) := by
  have hopen : Custody.Accounted s.parts
      (heldParts (st.pending.insert incoming.relativePath q)) := by
    rw [heldParts_insert, hq]
    cases hentry with
    | known hp =>
        have hheld : heldParts st.pending incoming.relativePath = some p.partPath := by
          rw [heldParts, hp]
          rfl
        rw [← hheld, Function.update_eq_self]
        exact haccounted
    | @begun part s hnew hbegin =>
        obtain ⟨-, -, hparts, -⟩ := Os.parts_beginPartial hbegin
        have hheld : heldParts st.pending incoming.relativePath = none := by
          rw [heldParts, AList.lookup_eq_none.mpr hnew]
          rfl
        rw [hparts]
        exact haccounted.acquire hheld
  have hmem : p.partPath ∈ s.parts := by
    refine (hopen _).mpr ⟨incoming.relativePath, ?_⟩
    rw [heldParts_insert, Function.update_self, hq]
  rw [htouches.parts_eq hmem]
  exact hopen

/-! ## One push -/

/-- A new partial file is begun, and left behind. -/
def ReceiverSettings.LeavesPart (settings : ReceiverSettings) (os : Os) (st : ReceiverState)
    (incoming : IncomingPush) : Prop :=
  ∃ destination, settings.Opens st incoming destination ∧ os.LeavesPart destination st.storage

theorem leavesPart_iff (hopens : settings.Opens st incoming destination) :
    settings.LeavesPart os st incoming ↔ os.LeavesPart destination st.storage := by
  constructor
  · rintro ⟨destination', hopens', h⟩
    rwa [Except.ok.inj (hopens.1.1.symm.trans hopens'.1.1)]
  · exact fun h ↦ ⟨destination, hopens, h⟩

theorem EntryOpen.not_leavesPart (hadmits : settings.Admits st incoming destination)
    (hentry : EntryOpen os st clock incoming.relativePath destination p s) :
    ¬ settings.LeavesPart os st incoming := by
  cases hentry with
  | known hp =>
      rintro ⟨_, hopens, _⟩
      exact hopens.2 (AList.lookup_isSome.mp (Option.isSome_of_mem hp))
  | begun hnew hbegin =>
      rw [leavesPart_iff ⟨hadmits, hnew⟩]
      exact (Os.parts_beginPartial hbegin).1

theorem EntryOpen.touches_write {chunk : Chunk}
    {result : EStateM.Result ChunkEngineError Storage Unit}
    (hwrite : os.writeChunkAtOffset (.part p.partPath) chunk s = result) :
    s.Touches p.partPath (stateOf result) := by
  rw [← hwrite]
  exact os.touches_writeChunkAtOffset p.partPath chunk s

/-- The records do not matter. -/
theorem ReceiverSettings.Tracks.of_eq {st' : ReceiverState} (h : settings.Tracks st)
    (hstorage : st'.storage = st.storage) (hpending : st'.pending = st.pending) :
    settings.Tracks st' := by
  obtain ⟨storage, metadata, pending⟩ := st'
  obtain rfl : storage = st.storage := hstorage
  obtain rfl : pending = st.pending := hpending
  exact ⟨⟨h.token_lt, h.token_inj, h.length_le⟩, h.parts_lt⟩

theorem ReceiverSettings.Tracks.erase (h : settings.Tracks st) (name : String)
    (htoken : s.nextToken = st.storage.nextToken) (hparts : s.parts ⊆ st.storage.parts) :
    settings.Tracks ⟨s, st.metadata, st.pending.erase name⟩ where
  toWellFormed := h.toWellFormed.of_entries htoken.ge
    (fun hq ↦ ⟨_, exists_lookup_of_erase hq, rfl⟩) (length_keys_erase_le _ _)
  parts_lt part hpart := by
    change part.token < s.nextToken
    rw [htoken]
    exact h.parts_lt part (hparts hpart)

variable {result : EStateM.Result PushError ReceiverState Unit}

theorem PushEffect.tracks (h : settings.Tracks st)
    (heffect : PushEffect settings os clock incoming st result) :
    settings.Tracks (stateOf result) := by
  cases heffect with
  | refused => exact h
  | @notBegun destination e s hopens hbegin =>
      have hparts : ∀ part ∈ s.parts, part.token < s.nextToken := by
        rcases Os.beginPartial_eq_error hbegin with ⟨-, hparts, htoken⟩ | ⟨-, hparts, htoken⟩
        · rw [hparts, htoken]
          exact h.parts_lt
        · rw [hparts, htoken]
          rintro part (rfl | hpart)
          · exact Nat.lt_succ_self _
          · exact (h.parts_lt part hpart).trans (Nat.lt_succ_self _)
      have htoken : st.storage.nextToken ≤ s.nextToken := by
        rcases Os.beginPartial_eq_error hbegin with ⟨-, -, htoken⟩ | ⟨-, -, htoken⟩ <;> omega
      exact ⟨h.toWellFormed.of_entries htoken (fun hp ↦ ⟨_, hp, rfl⟩) le_rfl, hparts⟩
  | notWritten hadmits hentry hwrite | held hadmits hentry hwrite =>
      exact hentry.tracks h hadmits.2.2 rfl (EntryOpen.touches_write hwrite)
  | notCommitted hadmits hentry hwrite hcommit =>
      rw [Os.commitPartial_eq_error hcommit]
      exact hentry.tracks h hadmits.2.2 rfl (EntryOpen.touches_write hwrite)
  | @committed _ p s s' s'' _ hadmits hentry hwrite hcommit hstorage hpending =>
      have htracks := hentry.tracks (q := p.counted clock incoming) h hadmits.2.2 rfl
        (EntryOpen.touches_write hwrite)
      obtain ⟨hparts, htoken⟩ := Os.commitPartial_eq_ok hcommit
      have hleft := htracks.erase incoming.relativePath htoken (hparts ▸ Set.sdiff_subset)
      rw [erase_insert_self] at hleft
      exact hleft.of_eq hstorage hpending

/-- Only a push that leaves its partial file behind loses account of one. -/
theorem PushEffect.accounted_iff (h : settings.Tracks st) (haccounted : st.Accounted)
    (heffect : PushEffect settings os clock incoming st result) :
    (stateOf result).Accounted ↔ ¬ settings.LeavesPart os st incoming := by
  cases heffect with
  | refused hrefused =>
      refine iff_of_true haccounted fun hleaves ↦ ?_
      obtain ⟨_, hopens, -⟩ := hleaves
      exact hrefused _ hopens.1
  | @notBegun destination e s hopens hbegin =>
      rw [leavesPart_iff hopens]
      rcases Os.beginPartial_eq_error hbegin with ⟨hleaves, hparts, -⟩ | ⟨hleaves, hparts, -⟩
      · refine iff_of_true ?_ hleaves
        rw [ReceiverState.Accounted]
        exact hparts ▸ haccounted
      · refine iff_of_false ?_ (not_not.mpr hleaves)
        rw [ReceiverState.Accounted, stateOf, hparts]
        exact haccounted.not_leak (h.fresh_notMem destination)
  | notWritten hadmits hentry hwrite | held hadmits hentry hwrite =>
      exact iff_of_true (hentry.accounted haccounted rfl (EntryOpen.touches_write hwrite))
        (hentry.not_leavesPart hadmits)
  | notCommitted hadmits hentry hwrite hcommit =>
      refine iff_of_true ?_ (hentry.not_leavesPart hadmits)
      rw [Os.commitPartial_eq_error hcommit]
      exact hentry.accounted haccounted rfl (EntryOpen.touches_write hwrite)
  | @committed _ p s s' s'' _ hadmits hentry hwrite hcommit hstorage hpending =>
      refine iff_of_true ?_ (hentry.not_leavesPart hadmits)
      have htracks := hentry.tracks (q := p.counted clock incoming) h hadmits.2.2 rfl
        (EntryOpen.touches_write hwrite)
      have hopen := hentry.accounted (q := p.counted clock incoming) haccounted rfl
        (EntryOpen.touches_write hwrite)
      rw [ReceiverState.Accounted, hstorage, hpending, (Os.commitPartial_eq_ok hcommit).1,
        ← erase_insert_self _ _ (p.counted clock incoming), heldParts_erase]
      apply hopen.release htracks.separate
      rw [heldParts_insert, Function.update_self]
      rfl

/-! ## Clean-up -/

variable {services : Services}

theorem mem_parts_abortPartial {part q : PartPath} :
    q ∈ (os.abortPartial part s).parts ↔
      q ∈ s.parts ∧ ¬ (q = part ∧ os.raises (.unlink q) = false) := by
  unfold Os.abortPartial
  by_cases hq : q = part
  · subst hq
    cases hraises : os.raises (.unlink q) with
    | true => simp
    | false => simp [Storage.parts_unlink]
  · split_ifs <;> simp [Storage.parts_unlink, hq]

theorem nextToken_abortPartial (part : PartPath) :
    (os.abortPartial part s).nextToken = s.nextToken := by
  unfold Os.abortPartial
  split_ifs <;> rfl

theorem abortPending_under (settings : ReceiverSettings) (services : Services) (name : String)
    (st : ReceiverState) :
    (∀ part, part ∈ ((settings.under services).abortPending name st).storage.parts ↔
      part ∈ st.storage.parts ∧ ¬ (heldParts st.pending name = some part ∧
        services.os.raises (.unlink part) = false)) ∧
      ((settings.under services).abortPending name st).storage.nextToken =
          st.storage.nextToken ∧
        ((settings.under services).abortPending name st).pending = st.pending.erase name := by
  unfold ReceivePushedFiles.abortPending heldParts
  cases hlookup : st.pending.lookup name with
  | none =>
      refine ⟨fun part ↦ by simp, rfl, ?_⟩
      have hnot := AList.lookup_eq_none.mp hlookup
      apply AList.ext
      exact (List.kerase_of_notMem_keys hnot).symm
  | some p =>
      refine ⟨fun part ↦ ?_, nextToken_abortPartial _, rfl⟩
      refine mem_parts_abortPartial.trans ?_
      simp only [Option.map_some, Option.some.injEq, eq_comm]

/-- A sweep over some names. -/
theorem foldl_abortPending (settings : ReceiverSettings) (services : Services)
    (names : List String) (st : ReceiverState) :
    (∀ part, part ∈ (names.foldl (fun st name ↦ (settings.under services).abortPending name st)
        st).storage.parts ↔
      part ∈ st.storage.parts ∧ ¬ ((∃ name ∈ names, heldParts st.pending name = some part) ∧
        services.os.raises (.unlink part) = false)) ∧
      ∀ name, heldParts (names.foldl (fun st name ↦ (settings.under services).abortPending name
        st) st).pending name = if name ∈ names then none else heldParts st.pending name := by
  induction names generalizing st with
  | nil => simp
  | cons name names ih =>
      obtain ⟨hparts, hheld⟩ := ih ((settings.under services).abortPending name st)
      obtain ⟨hfirst, -, hpending⟩ := abortPending_under settings services name st
      rw [hpending, heldParts_erase] at hparts hheld
      rw [List.foldl_cons]
      refine ⟨fun part ↦ ?_, fun other ↦ ?_⟩
      · -- the first name holds its file until it has given it up
        have hnames : (∃ other ∈ name :: names, heldParts st.pending other = some part) ↔
            heldParts st.pending name = some part ∨ ∃ other ∈ names,
              Function.update (heldParts st.pending) name none other = some part := by
          rw [List.exists_mem_cons_iff]
          refine or_congr_right' fun hnot ↦ exists_congr fun other ↦ and_congr_right fun _ ↦ ?_
          by_cases hother : other = name
          · rw [hother, Function.update_self]
            exact iff_of_false hnot nofun
          · rw [Function.update_of_ne hother]
        rw [hparts part, hfirst part, hnames, or_and_right, not_or, and_assoc]
      · rw [hheld other]
        by_cases hother : other = name
        · subst hother
          simp
        · simp [hother]

theorem ReceiverSettings.Tracks.foldl_abortPending (h : settings.Tracks st) (services : Services)
    (names : List String) :
    settings.Tracks (names.foldl (fun st name ↦ (settings.under services).abortPending name st)
      st) := by
  induction names generalizing st with
  | nil => exact h
  | cons name names ih =>
      obtain ⟨hparts, htoken, hpending⟩ :=
        abortPending_under settings services name st
      exact ih ((h.erase name htoken fun part hpart ↦ ((hparts part).mp hpart).1).of_eq rfl
        hpending)

theorem abortAllPartials_under (settings : ReceiverSettings) (services : Services)
    (st : ReceiverState) (part : PartPath) :
    part ∈ ((settings.under services).abortAllPartials st).storage.parts ↔
      part ∈ st.storage.parts ∧ ¬ ((∃ name, heldParts st.pending name = some part) ∧
        services.os.raises (.unlink part) = false) := by
  have hheld : (∃ name, heldParts st.pending name = some part) ↔
      ∃ entry ∈ st.pending.entries, entry.2.partPath = part := by
    constructor
    · rintro ⟨name, hname⟩
      obtain ⟨p, hp, rfl⟩ := Option.map_eq_some_iff.mp hname
      exact ⟨⟨name, p⟩, AList.mem_lookup_iff.mp hp, rfl⟩
    · rintro ⟨⟨name, p⟩, hentry, rfl⟩
      exact ⟨name, Option.map_eq_some_iff.mpr ⟨p, AList.mem_lookup_iff.mpr hentry, rfl⟩⟩
  rw [hheld]
  unfold ReceivePushedFiles.abortAllPartials
  dsimp only
  generalize st.storage = storage
  generalize st.pending.entries = entries
  induction entries generalizing storage with
  | nil => simp
  | cons entry entries ih =>
      rw [List.exists_mem_cons_iff, or_and_right, not_or, ← and_assoc]
      refine (ih _).trans (and_congr_left' ?_)
      refine mem_parts_abortPartial.trans ?_
      rw [@eq_comm _ part]

theorem nextToken_abortAllPartials (services : Services) (st : ReceiverState) :
    ((settings.under services).abortAllPartials st).storage.nextToken =
      st.storage.nextToken := by
  unfold ReceivePushedFiles.abortAllPartials
  dsimp only
  generalize st.storage = storage
  induction st.pending.entries generalizing storage with
  | nil => rfl
  | cons entry entries ih => exact (ih _).trans (nextToken_abortPartial _)

theorem ReceiverSettings.Tracks.abortAllPartials (h : settings.Tracks st) (services : Services) :
    settings.Tracks ((settings.under services).abortAllPartials st) where
  token_lt hp := nomatch hp
  token_inj hp := nomatch hp
  length_le := Nat.zero_le _
  parts_lt part hpart := by
    rw [nextToken_abortAllPartials]
    exact h.parts_lt part ((abortAllPartials_under settings services st part).mp hpart).1

end Table
end SecureSync
