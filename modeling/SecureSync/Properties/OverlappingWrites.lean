import SecureSync.Infrastructure.AtomicWrites
import SecureSync.Library.Machines
import SecureSync.Properties.StoredManifests

/-!
# Overlapping writes

Calls of `atomic_write_bytes` that run at the same time, and readers beside them.  Two calls
with one temporary path write to one file; as long as no two do, every destination is whole.
-/

namespace SecureSync

open Inodes Machines

variable {ι κ : Type}

namespace OverlappingWrites

variable (calls : OverlappingWrites ι κ)

/-- What was there before, or all that one of the calls writes. -/
def Whole (disk : Disk) (path : FilePath) (content : Option Bytes) : Prop :=
  content = disk.read path ∨
    ∃ i, (calls.writes i).destination = path ∧ content = some (calls.writes i).data

/-- No destination is torn, and no reader of one gets a torn file. -/
structure Atomic (disk : Disk) (s : WritesState ι κ) : Prop where
  stored : ∀ i, calls.Whole disk (calls.writes i).destination
    (s.disk.read (calls.writes i).destination)
  returned : ∀ j content, s.reads j = .returned content →
    calls.Whole disk (calls.writes (calls.reads j)).destination content

/-- No destination is a temporary path. -/
def Apart : Prop := ∀ i j, (calls.writes j).destination ≠ (calls.writes i).tempPath

end OverlappingWrites

/-- The temporary file of the call is opened, and not yet renamed or given up. -/
def WritePhase.Holds : WritePhase → Prop
  | .writing _ _ | .synced => True
  | .begun | .madeParents | .failing | .returned | .raised | .crashed => False

instance : DecidablePred WritePhase.Holds
  | .writing _ _ | .synced => .isTrue trivial
  | .begun | .madeParents | .failing | .returned | .raised | .crashed => .isFalse id

/-- A call opens its temporary path when no other call holds the same one. -/
def OverlappingWrites.Exclusive (calls : OverlappingWrites ι κ) (s : WritesState ι κ) :
    DiskEvent ι κ → Prop
  | .write i (.goes _) => s.writes i = .madeParents → ∀ k, (s.writes k).Holds →
      (calls.writes k).tempPath ≠ (calls.writes i).tempPath
  | .write _ .raises | .write _ .crashes | .read _ _ => True

instance [Fintype ι] (calls : OverlappingWrites ι κ) (s : WritesState ι κ) :
    DecidablePred (calls.Exclusive s)
  | .write i (.goes _) => inferInstanceAs (Decidable (s.writes i = .madeParents → ∀ k,
      (s.writes k).Holds → (calls.writes k).tempPath ≠ (calls.writes i).tempPath))
  | .write _ .raises | .write _ .crashes | .read _ _ => .isTrue trivial

theorem WritePhase.holds_of_eq_writing {phase : WritePhase} {inode written : ℕ}
    (h : phase = .writing inode written) : phase.Holds := h ▸ trivial

theorem WritePhase.holds_of_eq_synced {phase : WritePhase} (h : phase = .synced) :
    phase.Holds := h ▸ trivial

/-! ## Files in use -/

namespace AtomicWrite

variable (call : AtomicWrite) (disk : Disk)

/-- The open file has the first bytes of the data, and no other name than the temporary
path, which stands for nothing else. -/
structure Writing (inode written : ℕ) : Prop where
  contents_eq : disk.contents inode = call.data.take written
  written_le : written ≤ call.data.length
  lt_next : inode < disk.next
  temp_eq : ∀ n, disk.names call.tempPath = some n → n = inode
  name_eq : ∀ p, disk.names p = some inode → p = call.tempPath

/-- The temporary path stands for a file with all the data, if for any. -/
def Synced : Prop := ∀ n, disk.names call.tempPath = some n → disk.contents n = call.data

variable {call disk} {inode written other : ℕ} {p target : FilePath}

theorem Writing.truncate (h : call.Writing disk inode written) (hp : p ≠ call.tempPath) :
    call.Writing (disk.truncate p) inode written := by
  have hne : inode ≠ disk.opened p :=
    FileSystem.opened_ne h.lt_next fun hname ↦ hp (h.name_eq p hname)
  refine ⟨?_, h.written_le, h.lt_next.trans_le FileSystem.le_next_truncate, ?_, ?_⟩
  · rw [FileSystem.contents_truncate_of_ne hne]
    exact h.contents_eq
  · intro n hn
    rcases FileSystem.names_truncate hn with ⟨heq, -⟩ | ⟨-, hn⟩
    · exact absurd heq.symm hp
    · exact h.temp_eq n hn
  · intro q hq
    rcases FileSystem.names_truncate hq with ⟨-, heq⟩ | ⟨-, hq⟩
    · exact absurd heq hne
    · exact h.name_eq q hq

theorem writing_truncate (call : AtomicWrite) (disk : Disk) :
    call.Writing (disk.truncate call.tempPath) (disk.opened call.tempPath) 0 := by
  refine ⟨FileSystem.contents_truncate_self, Nat.zero_le _, ?_, ?_, ?_⟩
  · exact lt_max_iff.mpr (.inr (Nat.lt_succ_self _))
  · intro n hn
    rcases FileSystem.names_truncate hn with ⟨-, heq⟩ | ⟨hne, -⟩
    · exact heq
    · exact absurd rfl hne
  · intro q hq
    rcases FileSystem.names_truncate hq with ⟨heq, -⟩ | ⟨-, hq⟩
    · exact heq
    · exact FileSystem.eq_of_opened hq

theorem Writing.writeTo {piece : Overlay.Piece UInt8} (h : call.Writing disk inode written)
    (hother : inode ≠ other) : call.Writing (disk.writeTo 0 other piece) inode written :=
  ⟨(FileSystem.contents_writeTo_of_ne hother).trans h.contents_eq, h.written_le, h.lt_next,
    h.temp_eq, h.name_eq⟩

/-- The next bytes are written behind those that are there. -/
theorem Writing.write (h : call.Writing disk inode written) (count : ℕ) :
    call.Writing
      (disk.writeTo 0 inode ⟨written, (call.data.drop written).take count⟩) inode
      (written + ((call.data.drop written).take count).length) := by
  have hlength : (call.data.take written).length = written :=
    List.length_take_of_le h.written_le
  have hbytes : ((call.data.drop written).take count).length ≤ call.data.length - written := by
    rw [List.length_take, List.length_drop]
    exact min_le_right _ _
  refine ⟨?_, ?_, h.lt_next, h.temp_eq, h.name_eq⟩
  · change Function.update disk.contents inode _ inode = _
    have happend := Overlay.writeAt_length (0 : UInt8) (call.data.take written)
      ((call.data.drop written).take count)
    rw [hlength] at happend
    rw [Function.update_self, h.contents_eq, happend, List.take_add,
      ← List.prefix_iff_eq_take.mp (List.take_prefix count _)]
  · have hle := h.written_le
    omega

theorem Writing.rename (h : call.Writing disk inode written) (hp : p ≠ call.tempPath)
    (htarget : target ≠ call.tempPath) : call.Writing (disk.rename p target) inode written := by
  refine ⟨h.contents_eq, h.written_le, h.lt_next, ?_, ?_⟩
  · intro n hn
    rcases FileSystem.names_rename hn with ⟨heq, -⟩ | ⟨-, -, hn⟩
    · exact absurd heq.symm htarget
    · exact h.temp_eq n hn
  · intro q hq
    rcases FileSystem.names_rename hq with ⟨-, hsource⟩ | ⟨-, -, hq⟩
    · exact absurd (h.name_eq p hsource) hp
    · exact h.name_eq q hq

theorem Writing.unlink (h : call.Writing disk inode written) :
    call.Writing (disk.unlink p) inode written :=
  ⟨h.contents_eq, h.written_le, h.lt_next, fun n hn ↦ h.temp_eq n (FileSystem.names_unlink hn),
    fun q hq ↦ h.name_eq q (FileSystem.names_unlink hq)⟩

theorem Writing.synced (h : call.Writing disk inode call.data.length) : call.Synced disk := by
  intro n hn
  rw [h.temp_eq n hn, h.contents_eq, List.take_length]

theorem Synced.truncate (h : call.Synced disk) (hp : p ≠ call.tempPath) :
    call.Synced (disk.truncate p) := by
  intro n hn
  rcases FileSystem.names_truncate hn with ⟨heq, -⟩ | ⟨-, hn⟩
  · exact absurd heq.symm hp
  · have hne : n ≠ disk.opened p :=
      FileSystem.opened_ne (disk.lt_next hn) fun hname ↦ hp (disk.inj hname hn)
    rw [FileSystem.contents_truncate_of_ne hne]
    exact h n hn

theorem Synced.writeTo {piece : Overlay.Piece UInt8} (h : call.Synced disk)
    (hother : disk.names call.tempPath ≠ some other) :
    call.Synced (disk.writeTo 0 other piece) := by
  intro n hn
  have hne : n ≠ other := by
    rintro rfl
    exact hother hn
  rw [FileSystem.contents_writeTo_of_ne hne]
  exact h n hn

theorem Synced.rename (h : call.Synced disk) (htarget : target ≠ call.tempPath) :
    call.Synced (disk.rename p target) := by
  intro n hn
  rcases FileSystem.names_rename hn with ⟨heq, -⟩ | ⟨-, -, hn⟩
  · exact absurd heq.symm htarget
  · exact h n hn

theorem Synced.unlink (h : call.Synced disk) : call.Synced (disk.unlink p) :=
  fun n hn ↦ h n (FileSystem.names_unlink hn)

end AtomicWrite

namespace OverlappingWrites

variable (calls : OverlappingWrites ι κ) (disk₀ disk : Disk)

/-- A reader has the first bytes of a whole file, which no other path stands for. -/
structure Reading (path : FilePath) (inode : ℕ) (got : Bytes) : Prop where
  got_prefix : got <+: disk.contents inode
  whole : calls.Whole disk₀ path (some (disk.contents inode))
  lt_next : inode < disk.next
  name_eq : ∀ p, disk.names p = some inode → p = path

variable {calls disk₀ disk} {path p target : FilePath} {inode other : ℕ} {got : Bytes}

theorem Reading.truncate (h : calls.Reading disk₀ disk path inode got) (hp : p ≠ path) :
    calls.Reading disk₀ (disk.truncate p) path inode got := by
  have hne : inode ≠ disk.opened p :=
    FileSystem.opened_ne h.lt_next fun hname ↦ hp (h.name_eq p hname)
  refine ⟨?_, ?_, h.lt_next.trans_le FileSystem.le_next_truncate, fun q hq ↦ ?_⟩
  · rw [FileSystem.contents_truncate_of_ne hne]
    exact h.got_prefix
  · rw [FileSystem.contents_truncate_of_ne hne]
    exact h.whole
  · rcases FileSystem.names_truncate hq with ⟨-, heq⟩ | ⟨-, hq⟩
    · exact absurd heq hne
    · exact h.name_eq q hq

theorem Reading.writeTo {piece : Overlay.Piece UInt8}
    (h : calls.Reading disk₀ disk path inode got) (hother : inode ≠ other) :
    calls.Reading disk₀ (disk.writeTo 0 other piece) path inode got := by
  have hcontents : (disk.writeTo 0 other piece).contents inode = disk.contents inode :=
    FileSystem.contents_writeTo_of_ne hother
  refine ⟨?_, ?_, h.lt_next, h.name_eq⟩
  · rw [hcontents]
    exact h.got_prefix
  · rw [hcontents]
    exact h.whole

theorem Reading.rename (h : calls.Reading disk₀ disk path inode got) (hp : p ≠ path) :
    calls.Reading disk₀ (disk.rename p target) path inode got := by
  refine ⟨h.got_prefix, h.whole, h.lt_next, fun q hq ↦ ?_⟩
  rcases FileSystem.names_rename hq with ⟨-, hsource⟩ | ⟨-, -, hq⟩
  · exact absurd (h.name_eq p hsource) hp
  · exact h.name_eq q hq

theorem Reading.unlink (h : calls.Reading disk₀ disk path inode got) :
    calls.Reading disk₀ (disk.unlink p) path inode got :=
  ⟨h.got_prefix, h.whole, h.lt_next, fun q hq ↦ h.name_eq q (FileSystem.names_unlink hq)⟩

theorem Reading.returned (h : calls.Reading disk₀ disk path inode got)
    (hend : (disk.contents inode).length ≤ got.length) :
    calls.Whole disk₀ path (some got) := by
  rw [h.got_prefix.eq_of_length_le hend]
  exact h.whole

theorem Reading.more (h : calls.Reading disk₀ disk path inode got) (count : ℕ) :
    calls.Reading disk₀ disk path inode
      (got ++ ((disk.contents inode).drop got.length).take count) := by
  refine ⟨?_, h.whole, h.lt_next, h.name_eq⟩
  obtain ⟨rest, hrest⟩ := h.got_prefix
  rw [← hrest, List.drop_left, List.prefix_append_right_inj]
  exact List.take_prefix count rest

/-! ## What every step keeps -/

variable (calls disk₀) in
structure Kept (s : WritesState ι κ) : Prop where
  atomic : calls.Atomic disk₀ s
  writing : ∀ i n w, s.writes i = .writing n w → (calls.writes i).Writing s.disk n w
  synced : ∀ i, s.writes i = .synced → (calls.writes i).Synced s.disk
  exclusive : ∀ i k, i ≠ k → (s.writes i).Holds → (s.writes k).Holds →
    (calls.writes i).tempPath ≠ (calls.writes k).tempPath
  distinct : ∀ i k, i ≠ k → ∀ n w w', s.writes i = .writing n w → s.writes k ≠ .writing n w'
  reading : ∀ j n got, s.reads j = .reading n got →
    calls.Reading disk₀ s.disk (calls.writes (calls.reads j)).destination n got
  unread : ∀ i j n w got, s.writes i = .writing n w → s.reads j ≠ .reading n got

theorem kept_start (calls : OverlappingWrites ι κ) (disk₀ : Disk) :
    calls.Kept disk₀ (.start disk₀) := by
  refine ⟨⟨fun _ ↦ .inl rfl, ?_⟩, ?_, ?_, ?_, ?_, ?_, ?_⟩ <;>
    simp [WritesState.start, WritePhase.Holds]

variable [DecidableEq ι] {s : WritesState ι κ} {i : ι} {phase : WritePhase}

/-- A symmetric relation between any two, when one of them changes. -/
theorem pairwise_update {β : Type} {f : ι → β} {b : β} {R : ι → β → ι → β → Prop}
    (hsymm : ∀ k x l y, R k x l y → R l y k x) (h : ∀ k l, k ≠ l → R k (f k) l (f l))
    (hb : ∀ k ≠ i, R i b k (f k)) (k l : ι) (hkl : k ≠ l) :
    R k (Function.update f i b k) l (Function.update f i b l) := by
  by_cases hki : k = i
  · subst hki
    rw [Function.update_self, Function.update_of_ne hkl.symm]
    exact hb l hkl.symm
  · rw [Function.update_of_ne hki]
    by_cases hli : l = i
    · subst hli
      rw [Function.update_self]
      exact hsymm _ _ _ _ (hb k hki)
    · rw [Function.update_of_ne hli]
      exact h k l hkl

/-- One call goes on: what there is to show of the disk it leaves. -/
theorem Kept.update (h : calls.Kept disk₀ s)
    (hstored : ∀ k, calls.Whole disk₀ (calls.writes k).destination
      (disk.read (calls.writes k).destination))
    (hwriting : ∀ k ≠ i, ∀ n w, s.writes k = .writing n w → (calls.writes k).Writing disk n w)
    (hsynced : ∀ k ≠ i, s.writes k = .synced → (calls.writes k).Synced disk)
    (hreading : ∀ j n got, s.reads j = .reading n got →
      calls.Reading disk₀ disk (calls.writes (calls.reads j)).destination n got)
    (hown : ∀ n w, phase = .writing n w → (calls.writes i).Writing disk n w ∧
      (∀ k ≠ i, ∀ w', s.writes k ≠ .writing n w') ∧ ∀ j got, s.reads j ≠ .reading n got)
    (hsync : phase = .synced → (calls.writes i).Synced disk)
    (hholds : phase.Holds → ∀ k ≠ i, (s.writes k).Holds →
      (calls.writes k).tempPath ≠ (calls.writes i).tempPath) :
    calls.Kept disk₀ { s with disk, writes := Function.update s.writes i phase } := by
  refine ⟨⟨hstored, h.atomic.returned⟩, fun k n w hk ↦ ?_, fun k hk ↦ ?_, ?_, ?_, hreading,
    fun k j n w got hk ↦ ?_⟩
  · by_cases hki : k = i
    · subst hki
      exact (hown n w (by simpa using hk)).1
    · exact hwriting k hki n w (by simpa [hki] using hk)
  · by_cases hki : k = i
    · subst hki
      exact hsync (by simpa using hk)
    · exact hsynced k hki (by simpa [hki] using hk)
  · apply pairwise_update (R := fun k (a : WritePhase) l (b : WritePhase) ↦
      a.Holds → b.Holds → (calls.writes k).tempPath ≠ (calls.writes l).tempPath)
    · exact fun k a l b hkl hl hk ↦ (hkl hk hl).symm
    · exact h.exclusive
    · exact fun k hki hi hk ↦ (hholds hi k hki hk).symm
  · apply pairwise_update (R := fun _ (a : WritePhase) _ (b : WritePhase) ↦
      ∀ n w w', a = .writing n w → b ≠ .writing n w')
    · exact fun k a l b hkl n w w' hl hk ↦ hkl n w' w hk hl
    · exact h.distinct
    · exact fun k hki n w w' hi ↦ (hown n w hi).2.1 k hki w'
  · by_cases hki : k = i
    · subst hki
      exact (hown n w (by simpa using hk)).2.2 j got
    · exact h.unread k j n w got (by simpa [hki] using hk)

/-- A call gives up, or ends, and leaves the disk as it is. -/
theorem Kept.leave (h : calls.Kept disk₀ s) (hphase : ¬ phase.Holds) :
    calls.Kept disk₀ { s with writes := Function.update s.writes i phase } := by
  apply h.update h.atomic.stored (fun k _ n w hk ↦ h.writing k n w hk)
    (fun k _ hk ↦ h.synced k hk) h.reading
  · rintro n w rfl
    exact absurd trivial hphase
  · rintro rfl
    exact absurd trivial hphase
  · exact fun hholds ↦ absurd hholds hphase

theorem Kept.open (h : calls.Kept disk₀ s) (hapart : calls.Apart)
    (hexclusive : ∀ k, (s.writes k).Holds →
      (calls.writes k).tempPath ≠ (calls.writes i).tempPath) :
    calls.Kept disk₀
      { s with
        disk := s.disk.truncate (calls.writes i).tempPath
        writes := Function.update s.writes i
          (.writing (s.disk.opened (calls.writes i).tempPath) 0) } := by
  apply h.update
  · intro k
    rw [FileSystem.read_truncate_of_ne (hapart i k)]
    exact h.atomic.stored k
  · intro k _ n w hk
    have hholds := WritePhase.holds_of_eq_writing hk
    exact (h.writing k n w hk).truncate (hexclusive k hholds).symm
  · intro k _ hk
    have hholds := WritePhase.holds_of_eq_synced hk
    exact (h.synced k hk).truncate (hexclusive k hholds).symm
  · intro j n got hj
    exact (h.reading j n got hj).truncate (hapart i (calls.reads j)).symm
  · rintro n w hown
    cases hown
    refine ⟨AtomicWrite.writing_truncate _ _, fun k _ w' hk ↦ ?_, fun j got hj ↦ ?_⟩
    · have hwriting := h.writing k _ w' hk
      have hholds := WritePhase.holds_of_eq_writing hk
      refine FileSystem.opened_ne hwriting.lt_next (fun hname ↦ ?_) rfl
      exact hexclusive k hholds (hwriting.name_eq _ hname).symm
    · have hreading := h.reading j _ got hj
      refine FileSystem.opened_ne hreading.lt_next (fun hname ↦ ?_) rfl
      exact hapart i (calls.reads j) (hreading.name_eq _ hname).symm
  · exact nofun
  · exact fun _ k _ hk ↦ hexclusive k hk

theorem Kept.writeBytes (h : calls.Kept disk₀ s) (hapart : calls.Apart) {n w : ℕ}
    (hphase : s.writes i = .writing n w) (count : ℕ) :
    calls.Kept disk₀
      { s with
        disk := s.disk.writeTo 0 n ⟨w, ((calls.writes i).data.drop w).take count⟩
        writes := Function.update s.writes i
          (.writing n (w + (((calls.writes i).data.drop w).take count).length)) } := by
  have hwriting := h.writing i n w hphase
  have hholds := WritePhase.holds_of_eq_writing hphase
  apply h.update
  · intro k
    rw [FileSystem.read_writeTo_of_ne]
    · exact h.atomic.stored k
    · exact fun hname ↦ hapart i k (hwriting.name_eq _ hname)
  · intro k hki m w' hk
    refine (h.writing k m w' hk).writeTo ?_
    rintro rfl
    exact h.distinct k i hki m w' w hk hphase
  · intro k hki hk
    refine (h.synced k hk).writeTo fun hname ↦ ?_
    have hkholds := WritePhase.holds_of_eq_synced hk
    exact h.exclusive k i hki hkholds hholds (hwriting.name_eq _ hname)
  · intro j m got hj
    refine (h.reading j m got hj).writeTo ?_
    rintro rfl
    exact h.unread i j m w got hphase hj
  · rintro m w' hown
    cases hown
    refine ⟨hwriting.write count, fun k hki w' hk ↦ h.distinct k i hki n w' w hk hphase, ?_⟩
    exact fun j got hj ↦ h.unread i j n w got hphase hj
  · exact nofun
  · exact fun _ k hki hk ↦ h.exclusive k i hki hk hholds

theorem Kept.sync (h : calls.Kept disk₀ s) {n : ℕ}
    (hphase : s.writes i = .writing n (calls.writes i).data.length) :
    calls.Kept disk₀ { s with writes := Function.update s.writes i .synced } := by
  have hholds := WritePhase.holds_of_eq_writing hphase
  apply h.update h.atomic.stored (fun k _ n w hk ↦ h.writing k n w hk)
    (fun k _ hk ↦ h.synced k hk) h.reading
  · exact nofun
  · exact fun _ ↦ (h.writing i n _ hphase).synced
  · exact fun _ k hki hk ↦ h.exclusive k i hki hk hholds

/-- The destination gets a file with all the data. -/
theorem Kept.replace (h : calls.Kept disk₀ s) (hapart : calls.Apart)
    (hphase : s.writes i = .synced) (hname : s.disk.names (calls.writes i).tempPath ≠ none) :
    calls.Kept disk₀
      { s with
        disk := s.disk.rename (calls.writes i).tempPath (calls.writes i).destination
        writes := Function.update s.writes i .returned } := by
  have hholds := WritePhase.holds_of_eq_synced hphase
  apply h.update
  · intro k
    by_cases hk : (calls.writes k).destination = (calls.writes i).destination
    · obtain ⟨n, hn⟩ := Option.ne_none_iff_exists'.mp hname
      rw [hk, FileSystem.read_rename_target]
      refine .inr ⟨i, rfl, ?_⟩
      rw [FileSystem.read, hn, Option.map_some, h.synced i hphase n hn]
    · rw [FileSystem.read_rename_of_ne hk (hapart i k)]
      exact h.atomic.stored k
  · intro k hki n w hk
    have hkholds := WritePhase.holds_of_eq_writing hk
    apply (h.writing k n w hk).rename _ (hapart k i)
    exact (h.exclusive k i hki hkholds hholds).symm
  · intro k _ hk
    exact (h.synced k hk).rename (hapart k i)
  · intro j n got hj
    exact (h.reading j n got hj).rename (hapart i (calls.reads j)).symm
  · exact nofun
  · exact nofun
  · exact fun hholds ↦ absurd hholds id

theorem Kept.unlink (h : calls.Kept disk₀ s) (hapart : calls.Apart) :
    calls.Kept disk₀
      { s with
        disk := s.disk.unlink (calls.writes i).tempPath
        writes := Function.update s.writes i .raised } := by
  apply h.update
  · intro k
    rw [FileSystem.read_unlink_of_ne (hapart i k)]
    exact h.atomic.stored k
  · exact fun k _ n w hk ↦ (h.writing k n w hk).unlink
  · exact fun k _ hk ↦ (h.synced k hk).unlink
  · exact fun j n got hj ↦ (h.reading j n got hj).unlink
  · exact nofun
  · exact nofun
  · exact fun hholds ↦ absurd hholds id

variable [DecidableEq κ]

omit [DecidableEq ι] in
/-- A reader goes on. -/
theorem Kept.read (h : calls.Kept disk₀ s) {j : κ} {phase : ReadPhase}
    (hreturned : ∀ content, phase = .returned content →
      calls.Whole disk₀ (calls.writes (calls.reads j)).destination content)
    (hreading : ∀ n got, phase = .reading n got →
      calls.Reading disk₀ s.disk (calls.writes (calls.reads j)).destination n got ∧
        ∀ i w, s.writes i ≠ .writing n w) :
    calls.Kept disk₀ { s with reads := Function.update s.reads j phase } := by
  refine ⟨⟨h.atomic.stored, fun l content hl ↦ ?_⟩, h.writing, h.synced, h.exclusive, h.distinct,
    fun l n got hl ↦ ?_, fun i l n w got hi hl ↦ ?_⟩
  · dsimp only at hl
    by_cases hlj : l = j
    · subst hlj
      exact hreturned content (by simpa using hl)
    · exact h.atomic.returned l content (by simpa [hlj] using hl)
  · by_cases hlj : l = j
    · subst hlj
      exact (hreading n got (by simpa using hl)).1
    · exact h.reading l n got (by simpa [hlj] using hl)
  · by_cases hlj : l = j
    · subst hlj
      exact (hreading n got (by simpa using hl)).2 i w hi
    · exact h.unread i l n w got hi (by simpa [hlj] using hl)

omit [DecidableEq ι] in
theorem Kept.return (h : calls.Kept disk₀ s) {j : κ} {content : Option Bytes}
    (hwhole : calls.Whole disk₀ (calls.writes (calls.reads j)).destination content) :
    calls.Kept disk₀ { s with reads := Function.update s.reads j (.returned content) } := by
  apply h.read
  · rintro content' ⟨⟩
    exact hwhole
  · rintro n got ⟨⟩

omit [DecidableEq ι] in
theorem Kept.readBytes (h : calls.Kept disk₀ s) {j : κ} {n : ℕ} {got : Bytes}
    (hreading : calls.Reading disk₀ s.disk (calls.writes (calls.reads j)).destination n got)
    (hunread : ∀ i w, s.writes i ≠ .writing n w) :
    calls.Kept disk₀ { s with reads := Function.update s.reads j (.reading n got) } := by
  apply h.read
  · rintro content ⟨⟩
  · rintro m got' ⟨⟩
    exact ⟨hreading, hunread⟩

omit [DecidableEq ι] in
theorem Kept.stop (h : calls.Kept disk₀ s) (j : κ) {phase : ReadPhase}
    (hphase : phase = .found ∨ phase = .raised) :
    calls.Kept disk₀ { s with reads := Function.update s.reads j phase } := by
  rcases hphase with rfl | rfl
  · apply h.read
    · rintro content ⟨⟩
    · rintro n got ⟨⟩
  · apply h.read
    · rintro content ⟨⟩
    · rintro n got ⟨⟩

theorem Kept.step_read (h : calls.Kept disk₀ s) (hapart : calls.Apart) (j : κ)
    (outcome : StepOutcome) : calls.Kept disk₀ (calls.step s (.read j outcome)) := by
  have hstored := h.atomic.stored (calls.reads j)
  unfold OverlappingWrites.step
  dsimp only
  cases hphase : s.reads j with
  | returned content =>
      simp only [ReadPhase.step]
      exact h.return (h.atomic.returned j content hphase)
  | raised => exact h.stop j (.inr rfl)
  | begun =>
      cases outcome with
      | goes count =>
          simp only [ReadPhase.step]
          split_ifs with hnone
          · rw [FileSystem.read, hnone] at hstored
            exact h.return hstored
          · exact h.stop j (.inl rfl)
      | raises | crashes => exact h.stop j (.inr rfl)
  | found =>
      cases outcome with
      | goes count =>
          simp only [ReadPhase.step]
          cases hname : s.disk.names (calls.writes (calls.reads j)).destination with
          | none => exact h.stop j (.inr rfl)
          | some n =>
              rw [FileSystem.read, hname] at hstored
              apply h.readBytes
              · exact ⟨List.nil_prefix, hstored, s.disk.lt_next hname,
                  fun p hp ↦ s.disk.inj hp hname⟩
              · intro i w hi
                exact hapart i (calls.reads j) ((h.writing i n w hi).name_eq _ hname)
      | raises | crashes => exact h.stop j (.inr rfl)
  | reading n got =>
      have hreading := h.reading j n got hphase
      cases outcome with
      | goes count =>
          simp only [ReadPhase.step]
          split_ifs with hlength
          · exact h.return (hreading.returned hlength)
          · exact h.readBytes (hreading.more count) fun i w hi ↦ h.unread i j n w got hi hphase
      | raises | crashes => exact h.stop j (.inr rfl)

/-- Steps that do not share a temporary file keep every destination whole. -/
theorem Kept.step_write (h : calls.Kept disk₀ s) (hapart : calls.Apart) (i : ι)
    (outcome : StepOutcome) (hexclusive : calls.Exclusive s (.write i outcome)) :
    calls.Kept disk₀ (calls.step s (.write i outcome)) := by
  unfold OverlappingWrites.step
  dsimp only
  cases hphase : s.writes i with
  | returned | raised | crashed =>
      simp only [AtomicWrite.step]
      exact h.leave id
  | begun => cases outcome <;> exact h.leave id
  | madeParents =>
      cases outcome with
      | goes count => exact h.open hapart (hexclusive hphase)
      | raises | crashes => exact h.leave id
  | writing n w =>
      cases outcome with
      | goes count =>
          simp only [AtomicWrite.step]
          split_ifs with hw
          · exact h.sync (hw ▸ hphase)
          · exact h.writeBytes hapart hphase count
      | raises | crashes => exact h.leave id
  | synced =>
      cases outcome with
      | goes count =>
          simp only [AtomicWrite.step]
          split_ifs with hname
          · exact h.leave id
          · exact h.replace hapart hphase hname
      | raises | crashes => exact h.leave id
  | failing =>
      cases outcome with
      | goes count => exact h.unlink hapart
      | raises | crashes => exact h.leave id

/-- No interleaving whose calls do not share a temporary file tears a destination, or what is
read of one. -/
theorem atomic_of_exclusive (calls : OverlappingWrites ι κ) (disk₀ : Disk)
    {events : List (DiskEvent ι κ)} (hapart : calls.Apart)
    (hexclusive : Meets calls.step calls.Exclusive (.start disk₀) events) :
    Throughout calls.step (calls.Atomic disk₀) (.start disk₀) events := by
  intro done hdone
  obtain ⟨later, rfl⟩ := hdone
  have hkept : calls.Kept disk₀ (done.foldl calls.step (.start disk₀)) := by
    apply (meets_append.mp hexclusive).1.induction _ (calls.kept_start disk₀)
    intro s event hevent hs
    cases event with
    | write i outcome => exact hs.step_write hapart i outcome hevent
    | read j outcome => exact hs.step_read hapart j outcome
  exact hkept.atomic

end OverlappingWrites

/-! ## Two saves of one manifest -/

def noFiles : Disk where
  names _ := none
  contents _ := []
  next := 0
  inj h := by simp at h
  lt_next h := by simp at h

def twoSaves : OverlappingWrites Bool Unit where
  writes second := manifestWrite ["srv", "manifests"] "5e2bf57d.json"
    (if second then [0x5b, 0x5d] else [0x7b, 0x7d])
  reads _ := false

/-- The reader opens the first manifest and reads it while the second is saved. -/
def inTurn : List (DiskEvent Bool Unit) :=
  [.write false (.goes 0), .write false (.goes 0), .write false (.goes 2), .write false (.goes 0),
    .write false (.goes 0), .read () (.goes 0), .read () (.goes 0), .write true (.goes 0),
    .write true (.goes 0), .write true (.goes 1), .read () (.goes 1), .write true (.goes 1),
    .write true (.goes 0), .write true (.goes 0), .read () (.goes 1), .read () (.goes 0)]

theorem atomic_of_exclusive_inTurn :
    Throughout twoSaves.step (twoSaves.Atomic noFiles) (.start noFiles) inTurn ∧
      (inTurn.foldl twoSaves.step (.start noFiles)).reads () = .returned (some [0x7b, 0x7d]) := by
  have hapart : twoSaves.Apart := by
    unfold OverlappingWrites.Apart
    decide
  exact ⟨OverlappingWrites.atomic_of_exclusive twoSaves noFiles hapart (by decide), by decide⟩

/-- The second save opens the file that the first one then renames. -/
def overlapping : List (DiskEvent Bool Unit) :=
  [.write false (.goes 0), .write false (.goes 0), .write false (.goes 2), .write false (.goes 0),
    .write true (.goes 0), .write true (.goes 0), .write false (.goes 0),
    .read () (.goes 0), .read () (.goes 0), .read () (.goes 0)]

theorem not_atomic_overlapping :
    (overlapping.foldl twoSaves.step (.start noFiles)).reads () = .returned (some []) ∧
      ¬ Throughout twoSaves.step (twoSaves.Atomic noFiles) (.start noFiles) overlapping := by
  have hread :
      (overlapping.foldl twoSaves.step (.start noFiles)).reads () = .returned (some []) := by
    decide
  refine ⟨hread, fun hatomic ↦ ?_⟩
  rcases (hatomic overlapping List.prefix_rfl).returned () _ hread with hold | ⟨second, -, hnew⟩
  · exact absurd hold (by decide)
  · revert second
    decide

/-! ## Saves of manifests -/

theorem json_ne_temp (digest name : String) :
    digest ++ ".json" ≠ "." ++ name ++ ".tmp-" ++ "manifest" := by
  intro h
  have hlast := congrArg (fun s ↦ s.toList.reverse.head?) h
  simp at hlast

namespace OverlappingWrites

variable {calls : OverlappingWrites ι κ} {disk₀ : Disk}

theorem apart_of_manifests {sha256 : String → String}
    (h : ∀ i, ∃ storageDir location document,
      calls.writes i = manifestWrite storageDir (manifestName sha256 location) document) :
    calls.Apart := by
  intro i j heq
  obtain ⟨storageDir, location, document, hi⟩ := h i
  obtain ⟨storageDir', location', document', hj⟩ := h j
  rw [hi, hj] at heq
  have hnames := (List.append_inj' heq rfl).2
  exact json_ne_temp _ _ (List.cons.inj hnames).1

variable {flavour : Flavour} {codec : DocumentCodec} {s : WritesState ι κ}

/-- What a reader gets while manifests are saved is one of them, and complete. -/
theorem Atomic.loads (hatomic : calls.Atomic disk₀ s) (hcodec : codec.Lossless)
    (hstored : ∀ p document, disk₀.read p = some document →
      ∃ collection : TimedCollection flavour,
        codec.dumps (collectionToDict collection) = some document)
    (hdata : ∀ i, ∃ collection : TimedCollection flavour,
      codec.dumps (collectionToDict collection) = some (calls.writes i).data)
    {j : κ} {document : Bytes} (hj : s.reads j = .returned (some document)) :
    ∃ collection : TimedCollection flavour,
      codec.dumps (collectionToDict collection) = some document ∧
        (codec.loads document).map (collectionFromDict flavour) =
          some (.ok collection.reread) := by
  have hsaved : ∃ collection : TimedCollection flavour,
      codec.dumps (collectionToDict collection) = some document := by
    rcases hatomic.returned j _ hj with hold | ⟨i, -, hnew⟩
    · exact hstored _ document hold.symm
    · cases hnew
      exact hdata i
  obtain ⟨collection, hcollection⟩ := hsaved
  refine ⟨collection, hcollection, ?_⟩
  rw [hcodec _ _ (isJson_collectionToDict collection) hcollection, Option.map_some,
    collectionFromDict_collectionToDict]

end OverlappingWrites

end SecureSync
