import SecureSync.Infrastructure.SharedConnection
import SecureSync.Library.Machines

/-!
# Concurrent saves

The calls share one transaction, so a commit publishes what the others have
written so far.  No record is torn as long as commits and gets come when all
chunks of the rows in the table have been inserted, and chunks go to the row of
their own save.
-/

namespace SecureSync

open Machines Transactions

variable {ι κ : Type}

/-- Nothing, what was there before, or the whole record of one save. -/
inductive SharedCalls.Untorn (calls : SharedCalls ι κ) (t : Tables) (path : String) :
    Option StoredFile → Prop
  | empty : calls.Untorn t path none
  | previous : calls.Untorn t path (t.stored path)
  | saved {i : ι} {metadata : FileMetadata} (hcall : calls.writes i = .saveFileMetadata metadata)
      (hpath : metadata.filePath = path) : calls.Untorn t path (some metadata.storedFile)

/-- No record is torn, be it on the disk or in the hands of a get. -/
structure SharedCalls.Whole (calls : SharedCalls ι κ) (t : Tables) (s : SharedState ι κ) :
    Prop where
  committed : ∀ path, calls.Untorn t path (s.connection.committed.stored path)
  returned : ∀ j result, s.reads j = .returned result →
    ∃ file, calls.Untorn t (calls.reads j) file ∧
      result = file.map (calls.order.read (calls.reads j))

def WriteCall.Inserted (reached : ℕ) : WriteCall → Prop
  | .saveFileMetadata metadata => metadata.chunks.length ≤ reached - 2
  | .deleteFileMetadata _ => True

namespace SharedCalls

variable (calls : SharedCalls ι κ) (s : SharedState ι κ)

/-- The call that has written the row last has inserted all its chunks. -/
def InsertedAt (path : String) : Prop :=
  ∀ i, s.writer path = some i → (calls.writes i).Inserted (s.executed i)

/-- A save changes the chunks of its own row only, or there is nothing to change; and when a
call commits, no row lacks chunks. -/
def MayRun (i : ι) : Statement → Prop
  | .replaceFile _ _ | .deleteFile _ => True
  | .deleteChunks path => s.writer path = some i ∨ ∀ file ∈ s.stored path, file.chunks = []
  | .insertChunk path _ => s.writer path = some i ∨ s.stored path = none
  | .commit => ∀ k, calls.InsertedAt s (calls.writes k).path

/-- When a get reads the chunks, its row is still there and lacks none. -/
def MayReturn (j : κ) : ReadState → Prop
  | .gotRow row =>
      s.connection.view.files (calls.reads j) = some row ∧ calls.InsertedAt s (calls.reads j)
  | .started | .returned _ | .raised => True

def Orderly : Await ι κ → Prop
  | .write i ending => ending = .raises ∨ ∀ statement ∈ calls.next? s i, calls.MayRun s i statement
  | .read j ending => ending ≠ .returns ∨ calls.MayReturn s j (s.reads j)

end SharedCalls

/-! ## What the tables hold between two statements -/

/-- The row of a path and its chunks come from the call that has written the row last. -/
structure SharedCalls.Tracks (calls : SharedCalls ι κ) (t : Tables) (s : SharedState ι κ) :
    Prop where
  initial : ∀ path, s.writer path = none → s.stored path = t.stored path
  written : ∀ path i, s.writer path = some i →
    s.stored path = (calls.writes i).outcome (s.executed i)
  begun : ∀ path i, s.writer path = some i → (calls.writes i).path = path ∧ s.executed i ≠ 0

section Steps

variable {calls : SharedCalls ι κ} {t : Tables} {s s' : SharedState ι κ}

theorem WriteCall.outcome_eq_storedFile {metadata : FileMetadata} {reached : ℕ}
    (h : (WriteCall.saveFileMetadata metadata).Inserted reached) :
    (WriteCall.saveFileMetadata metadata).outcome reached = some metadata.storedFile := by
  rw [outcome, List.take_of_length_le h]
  rfl

theorem WriteCall.Inserted.outcome_eq {call : WriteCall} {n m : ℕ} (h : call.Inserted n)
    (hnm : n ≤ m) : call.outcome m = call.outcome n := by
  cases call with
  | deleteFileMetadata path => rfl
  | saveFileMetadata metadata =>
      have hm : (WriteCall.saveFileMetadata metadata).Inserted m :=
        Nat.le_trans h (Nat.sub_le_sub_right hnm 2)
      rw [outcome_eq_storedFile h, outcome_eq_storedFile hm]

theorem SharedCalls.Tracks.untorn (h : calls.Tracks t s) {path : String}
    (hinserted : calls.InsertedAt s path) : calls.Untorn t path (s.stored path) := by
  cases hwriter : s.writer path with
  | none =>
      rw [h.initial path hwriter]
      exact .previous
  | some i =>
      have hall := hinserted i hwriter
      have hpath := (h.begun path i hwriter).1
      rw [h.written path i hwriter]
      cases hcall : calls.writes i with
      | deleteFileMetadata path => exact .empty
      | saveFileMetadata metadata =>
          rw [hcall] at hall hpath
          rw [WriteCall.outcome_eq_storedFile hall]
          exact .saved hcall hpath

theorem reaches_of_mem_next? {i : ι} {statement : Statement}
    (hnext : statement ∈ calls.next? s i) : (calls.writes i).Reaches (s.executed i) statement := by
  unfold SharedCalls.next? at hnext
  split_ifs at hnext
  · cases hnext
  · exact WriteCall.reaches_of_getElem? hnext

theorem SharedCalls.Tracks.congr (h : calls.Tracks t s) (hconnection : s'.connection = s.connection)
    (hexecuted : s'.executed = s.executed) (hwriter : s'.writer = s.writer) :
    calls.Tracks t s' := by
  have hstored : s'.stored = s.stored := by rw [SharedState.stored, hconnection, SharedState.stored]
  refine ⟨?_, ?_, ?_⟩
  · rw [hstored, hwriter]
    exact h.initial
  · rw [hstored, hexecuted, hwriter]
    exact h.written
  · rw [hexecuted, hwriter]
    exact h.begun

/-- A commit publishes what the connection has, and nothing else changes the disk. -/
theorem SharedCalls.Tracks.committed_wrote (h : calls.Tracks t s) {i : ι} {statement : Statement}
    {c : Connection Tables} (hrun : statement.execute? s.connection = some c)
    (hmay : calls.MayRun s i statement)
    (hcommitted : ∀ path, calls.Untorn t path (s.connection.committed.stored path))
    (path : String) : calls.Untorn t path (c.committed.stored path) := by
  obtain ⟨-, heq⟩ := Statement.stored_execute? hrun
  rw [heq]
  split_ifs with hcommit
  · subst hcommit
    apply h.untorn
    intro k hk
    obtain ⟨rfl, -⟩ := h.begun path k hk
    exact hmay k k hk
  · exact hcommitted path

theorem SharedCalls.Tracks.untorn_readNext (h : calls.Tracks t s) {j : κ}
    (hmay : calls.MayReturn s j (s.reads j))
    (hreturned : ∀ result, s.reads j = .returned result →
      ∃ file, calls.Untorn t (calls.reads j) file ∧
        result = file.map (calls.order.read (calls.reads j)))
    (result : Option FileMetadata) (hresult : calls.readNext s j = .returned result) :
    ∃ file, calls.Untorn t (calls.reads j) file ∧
      result = file.map (calls.order.read (calls.reads j)) := by
  unfold SharedCalls.readNext at hresult
  cases hread : s.reads j with
  | started =>
      rw [hread] at hresult
      dsimp only at hresult
      cases hrow : s.connection.view.files (calls.reads j) with
      | none =>
          rw [hrow] at hresult
          cases hresult
          exact ⟨none, .empty, rfl⟩
      | some row =>
          rw [hrow] at hresult
          cases hresult
  | gotRow row =>
      rw [hread] at hresult hmay
      cases hresult
      obtain ⟨hrow, hinserted⟩ := hmay
      refine ⟨s.stored (calls.reads j), h.untorn hinserted, ?_⟩
      rw [SharedState.stored, Tables.stored, hrow]
      rfl
  | returned result' =>
      rw [hread] at hresult
      cases hresult
      exact hreturned result hread
  | raised =>
      rw [hread] at hresult
      cases hresult

variable [DecidableEq ι]

/-- A call replaces or deletes the row of its path. -/
theorem SharedCalls.Tracks.take (h : calls.Tracks t s) {i : ι} (hfirst : s.executed i = 0)
    (hstored : s'.stored =
      Function.update s.stored (calls.writes i).path ((calls.writes i).outcome 1))
    (hexecuted : s'.executed = Function.update s.executed i 1)
    (hwriter : s'.writer = Function.update s.writer (calls.writes i).path (some i)) :
    calls.Tracks t s' := by
  have hcases : ∀ path k, s'.writer path = some k →
      (path = (calls.writes i).path ∧ k = i) ∨
        (path ≠ (calls.writes i).path ∧ s.writer path = some k ∧ k ≠ i) := by
    intro path k hk
    rw [hwriter, Function.update_apply] at hk
    split_ifs at hk with hpath
    · exact .inl ⟨hpath, (Option.some.inj hk).symm⟩
    · refine .inr ⟨hpath, hk, ?_⟩
      rintro rfl
      exact (h.begun path k hk).2 hfirst
  refine ⟨fun path hnone ↦ ?_, fun path k hk ↦ ?_, fun path k hk ↦ ?_⟩
  · rw [hwriter, Function.update_apply] at hnone
    split_ifs at hnone with hpath
    rw [hstored, Function.update_of_ne hpath]
    exact h.initial path hnone
  · rcases hcases path k hk with ⟨rfl, rfl⟩ | ⟨hpath, hk, hne⟩
    · rw [hstored, hexecuted, Function.update_self, Function.update_self]
    · rw [hstored, hexecuted, Function.update_of_ne hpath, Function.update_of_ne hne]
      exact h.written path k hk
  · rcases hcases path k hk with ⟨rfl, rfl⟩ | ⟨hpath, hk, hne⟩
    · rw [hexecuted, Function.update_self]
      exact ⟨rfl, one_ne_zero⟩
    · rw [hexecuted, Function.update_of_ne hne]
      exact h.begun path k hk

/-- A call goes on with the chunks of its path. -/
theorem SharedCalls.Tracks.goOn (h : calls.Tracks t s) {i : ι}
    (hother : ∀ path, s.writer path ≠ some i → s'.stored path = s.stored path)
    (hown : ∀ path, s.writer path = some i →
      s'.stored path = (calls.writes i).outcome (s.executed i + 1))
    (hexecuted : s'.executed = Function.update s.executed i (s.executed i + 1))
    (hwriter : s'.writer = s.writer) : calls.Tracks t s' := by
  refine ⟨fun path hnone ↦ ?_, fun path k hk ↦ ?_, fun path k hk ↦ ?_⟩
  · rw [hwriter] at hnone
    rw [hother path (hnone ▸ nofun)]
    exact h.initial path hnone
  · rw [hwriter] at hk
    rw [hexecuted]
    by_cases hki : k = i
    · subst hki
      rw [Function.update_self]
      exact hown path hk
    · rw [Function.update_of_ne hki, hother path (by rw [hk]; exact mt Option.some.inj hki)]
      exact h.written path k hk
  · rw [hwriter] at hk
    obtain ⟨hpath, hbegun⟩ := h.begun path k hk
    refine ⟨hpath, ?_⟩
    rw [hexecuted, Function.update_apply]
    split_ifs
    · exact Nat.succ_ne_zero _
    · exact hbegun

/-- The change of a path by its own call, or one that changes nothing. -/
theorem SharedCalls.Tracks.change (h : calls.Tracks t s) {i : ι}
    (change : Option StoredFile → Option StoredFile)
    (hstored : s'.stored = Function.update s.stored (calls.writes i).path
      (change (s.stored (calls.writes i).path)))
    (hmay : s.writer (calls.writes i).path = some i ∨
      change (s.stored (calls.writes i).path) = s.stored (calls.writes i).path)
    (hown : change ((calls.writes i).outcome (s.executed i)) =
      (calls.writes i).outcome (s.executed i + 1))
    (hexecuted : s'.executed = Function.update s.executed i (s.executed i + 1))
    (hwriter : s'.writer = s.writer) : calls.Tracks t s' := by
  apply h.goOn _ _ hexecuted hwriter
  · intro path hnot
    rw [hstored, Function.update_apply]
    split_ifs with hpath
    · subst hpath
      exact hmay.resolve_left hnot
    · rfl
  · intro path hwrote
    obtain ⟨rfl, -⟩ := h.begun path i hwrote
    rw [hstored, Function.update_self, h.written _ i hwrote, hown]

theorem SharedCalls.Tracks.wrote (h : calls.Tracks t s) {i : ι} {statement : Statement}
    {c : Connection Tables} (hnext : statement ∈ calls.next? s i)
    (hrun : statement.execute? s.connection = some c) (hmay : calls.MayRun s i statement) :
    calls.Tracks t (s.wrote i statement c) := by
  obtain ⟨heffect, -⟩ := Statement.stored_execute? hrun
  have hreaches := reaches_of_mem_next? hnext
  generalize hcall : calls.writes i = call at hreaches
  generalize hn : s.executed i = n at hreaches
  cases hreaches with
  | replaceFile | deleteFile =>
      apply h.take hn
      · rw [hcall]
        exact heffect
      · rw [← zero_add 1, ← hn]
        rfl
      · rw [hcall]
        rfl
  | deleteChunks =>
      refine h.change (Option.map fun file ↦ ⟨file.row, []⟩) ?_ ?_ ?_ rfl rfl
      · rw [hcall]
        exact heffect
      · rw [hcall]
        refine hmay.imp_right fun hnothing ↦ ?_
        cases hfile : s.stored (WriteCall.saveFileMetadata _).path with
        | none => rfl
        | some file => rw [Option.map_some, ← hnothing file hfile]
      · rw [hcall, hn]
        rfl
  | @insertChunk _ n chunk hchunk =>
      refine h.change (Option.map fun file ↦ ⟨file.row, file.chunks ++ [chunk]⟩) ?_ ?_ ?_ rfl rfl
      · rw [hcall]
        exact heffect
      · rw [hcall]
        refine hmay.imp_right fun hnothing ↦ ?_
        rw [show s.stored (WriteCall.saveFileMetadata _).path = none from hnothing]
        rfl
      · rw [hcall, hn]
        simp [WriteCall.outcome, List.take_add_one, hchunk]
  | commit =>
      refine h.goOn ?_ ?_ rfl rfl
      · exact fun path _ ↦ congrFun heffect path
      · intro path hwrote
        obtain ⟨rfl, -⟩ := h.begun path i hwrote
        have hinserted := hmay i i hwrote
        rw [hinserted.outcome_eq (Nat.le_succ _), ← h.written _ i hwrote]
        exact congrFun heffect _

/-! ## Runs -/

variable [DecidableEq κ]

theorem SharedCalls.step_orderly {await : Await ι κ} (horderly : calls.Orderly s await)
    (htracks : calls.Tracks t s) (hwhole : calls.Whole t s) :
    calls.Tracks t (calls.step s await) ∧ calls.Whole t (calls.step s await) := by
  cases await with
  | write i ending =>
      unfold step
      dsimp only
      cases hnext : calls.next? s i with
      | none => exact ⟨htracks, hwhole⟩
      | some statement =>
          have hmay : ending ≠ .raises → calls.MayRun s i statement := by
            intro hending
            exact horderly.resolve_left hending statement hnext
          dsimp only
          cases hrun : statement.execute? s.connection with
          | none => exact ⟨htracks.congr rfl rfl rfl, hwhole.committed, hwhole.returned⟩
          | some c =>
              cases ending with
              | raises => exact ⟨htracks.congr rfl rfl rfl, hwhole.committed, hwhole.returned⟩
              | returns | cancelled =>
                  have hwrote := htracks.wrote hnext hrun (hmay nofun)
                  have hcommitted := htracks.committed_wrote hrun (hmay nofun) hwhole.committed
                  exact ⟨hwrote.congr rfl rfl rfl, hcommitted, hwhole.returned⟩
  | read j ending =>
      have hreads : ∀ state, (∀ result, state = .returned result →
          ∃ file, calls.Untorn t (calls.reads j) file ∧
            result = file.map (calls.order.read (calls.reads j))) →
          calls.Whole t { s with reads := Function.update s.reads j state } := by
        intro state hstate
        refine ⟨hwhole.committed, fun k result hk ↦ ?_⟩
        dsimp only at hk
        by_cases hkj : k = j
        · subst hkj
          rw [Function.update_self] at hk
          exact hstate result hk
        · rw [Function.update_of_ne hkj] at hk
          exact hwhole.returned k result hk
      cases ending with
      | returns =>
          have hmay := horderly.resolve_left (not_not.mpr rfl)
          exact ⟨htracks.congr rfl rfl rfl,
            hreads _ (htracks.untorn_readNext hmay (hwhole.returned j))⟩
      | raises | cancelled =>
          refine ⟨htracks.congr rfl rfl rfl, hreads _ fun result hresult ↦ ?_⟩
          cases hread : s.reads j with
          | returned result' =>
              rw [hread] at hresult
              cases hresult
              exact hwhole.returned j result hread
          | started | gotRow | raised =>
              rw [hread] at hresult
              cases hresult

end Steps

/-- No interleaving whose steps are orderly tears a record. -/
theorem untorn_of_orderly [DecidableEq ι] [DecidableEq κ] (calls : SharedCalls ι κ) (t : Tables)
    {schedule : List (Await ι κ)} (h : Meets calls.step calls.Orderly (.start t) schedule) :
    Throughout calls.step (calls.Whole t) (.start t) schedule := by
  intro done hdone
  obtain ⟨later, rfl⟩ := hdone
  have hstart : calls.Tracks t (.start t) ∧ calls.Whole t (.start t) :=
    ⟨⟨fun _ _ ↦ rfl, nofun, nofun⟩, fun _ ↦ .previous, nofun⟩
  have hkept : calls.Tracks t (done.foldl calls.step (.start t)) ∧
      calls.Whole t (done.foldl calls.step (.start t)) := by
    refine (meets_append.mp h).1.induction (P := fun s ↦ calls.Tracks t s ∧ calls.Whole t s) ?_
      hstart
    exact fun s await horderly hkept ↦ SharedCalls.step_orderly horderly hkept.1 hkept.2
  exact hkept.2

/-! ### Two saves at once -/

section Decidable

variable (calls : SharedCalls ι κ) (s : SharedState ι κ) [Fintype ι] [DecidableEq ι]

instance WriteCall.decidableInserted (reached : ℕ) :
    ∀ call : WriteCall, Decidable (call.Inserted reached)
  | .saveFileMetadata metadata => inferInstanceAs (Decidable (metadata.chunks.length ≤ reached - 2))
  | .deleteFileMetadata _ => inferInstanceAs (Decidable True)

instance SharedCalls.decidableInsertedAt (path : String) : Decidable (calls.InsertedAt s path) :=
  inferInstanceAs (Decidable (∀ i, s.writer path = some i → _))

instance SharedCalls.decidableMayRun (i : ι) :
    ∀ statement, Decidable (calls.MayRun s i statement)
  | .replaceFile _ _ | .deleteFile _ => inferInstanceAs (Decidable True)
  | .deleteChunks path =>
      inferInstanceAs (Decidable
        (s.writer path = some i ∨ ∀ file ∈ s.stored path, file.chunks = []))
  | .insertChunk path _ =>
      inferInstanceAs (Decidable (s.writer path = some i ∨ s.stored path = none))
  | .commit => inferInstanceAs (Decidable (∀ k, calls.InsertedAt s (calls.writes k).path))

instance SharedCalls.decidableMayReturn (j : κ) : ∀ state, Decidable (calls.MayReturn s j state)
  | .gotRow row => inferInstanceAs (Decidable (s.connection.view.files (calls.reads j) = some row ∧
      calls.InsertedAt s (calls.reads j)))
  | .started | .returned _ | .raised => inferInstanceAs (Decidable True)

instance SharedCalls.decidableOrderly : ∀ await, Decidable (calls.Orderly s await)
  | .write i ending => inferInstanceAs (Decidable
      (ending = .raises ∨ ∀ statement ∈ calls.next? s i, calls.MayRun s i statement))
  | .read j ending =>
      inferInstanceAs (Decidable (ending ≠ .returns ∨ calls.MayReturn s j (s.reads j)))

end Decidable

/-- A save of `notes`, one of `todo` without chunks, and a get of `notes`. -/
def notesAndTodo : SharedCalls Bool Unit where
  order := indexOrder
  writes notes := .saveFileMetadata
    (if notes then notesMetadata else { notesMetadata with filePath := "todo", chunks := [] })
  reads _ := "notes"

/-- The two saves take turns, but both commit at the end. -/
theorem turns_untorn :
    Throughout notesAndTodo.step (notesAndTodo.Whole emptyTables) (.start emptyTables)
      [.write true .returns, .write false .returns, .write true .returns, .write false .returns,
        .write true .returns, .write true .returns, .write false .returns, .read () .returns,
        .read () .returns] :=
  untorn_of_orderly notesAndTodo emptyTables (by decide +kernel)

/-- The other save commits when the row of `notes` is there and its chunk is not. -/
theorem other_commit_tears :
    ¬ Throughout notesAndTodo.step (notesAndTodo.Whole emptyTables) (.start emptyTables)
      [.write true .returns, .write false .returns, .write false .returns,
        .write false .returns] := by
  intro h
  have huntorn := (h _ (List.prefix_refl _)).committed "notes"
  have hrow : ([.write true .returns, .write false .returns, .write false .returns,
      .write false .returns].foldl notesAndTodo.step
        (.start emptyTables)).connection.committed.stored "notes" =
      some ⟨notesMetadata.row, []⟩ := by
    decide +kernel
  rw [hrow] at huntorn
  generalize hfile : some (StoredFile.mk notesMetadata.row []) = file at huntorn
  cases huntorn with
  | empty => cases hfile
  | previous => cases hfile
  | @saved i metadata hcall hpath =>
      cases i with
      | true =>
          cases hcall
          exact absurd (congrArg StoredFile.chunks (Option.some.inj hfile)) (by decide)
      | false =>
          cases hcall
          exact absurd hpath (by decide)

end SecureSync
