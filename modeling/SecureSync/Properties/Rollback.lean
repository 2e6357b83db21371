import SecureSync.Infrastructure.SqliteMetadata

/-!
# Rolling back

Each save and each delete commits for itself, and with that all that has been
written before on the connection.  A later rollback takes back only what comes
after the last of these commits.
-/

namespace SecureSync

open Transactions

/-- The statements one after the other, up to the first that is refused. -/
def runStatements (c : Connection Tables) : List Statement → Connection Tables
  | [] => c
  | statement :: statements =>
      match statement.execute? c with
      | none => c
      | some c' => runStatements c' statements

/-- How many statements had run when the call raised, which may be all of them, and whether
the error was one after which SQLite has rolled the transaction back (`SQLITE_FULL`,
`SQLITE_IOERR`, `SQLITE_NOMEM`). -/
structure Raised where
  after : ℕ
  rolledBack : Bool
  deriving DecidableEq

/-- A call that completes, or one that raises. -/
structure CallAttempt where
  call : WriteCall
  raised : Option Raised
  deriving DecidableEq

namespace CallAttempt

variable (attempt : CallAttempt)

def reached : ℕ := (attempt.raised.map Raised.after).getD attempt.call.statements.length

def commits : Bool := attempt.call.changes.length < attempt.reached

def rolledBack : Bool := (attempt.raised.map Raised.rolledBack).getD false

def run (c : Connection Tables) (attempt : CallAttempt) : Connection Tables :=
  let left := runStatements c (attempt.call.statements.take attempt.reached)
  if attempt.rolledBack then left.rollback else left

def outcome : Option StoredFile := attempt.call.outcome attempt.reached

def changes (path : String) : Bool := attempt.call.path = path && attempt.reached ≠ 0

def leaves (files : StoredFiles) (attempt : CallAttempt) : StoredFiles := fun path ↦
  if attempt.changes path then attempt.outcome else files path

theorem leaves_eq_update (files : StoredFiles) :
    attempt.leaves files =
      if attempt.reached = 0 then files
      else Function.update files attempt.call.path attempt.outcome := by
  funext path
  rw [leaves, changes]
  split_ifs with hchanges hreached hreached
  · simp [hreached] at hchanges
  · have hpath : attempt.call.path = path := by simpa [hreached] using hchanges
    rw [← hpath, Function.update_self]
  · rfl
  · have hpath : attempt.call.path ≠ path := by simpa [hreached] using hchanges
    rw [Function.update_of_ne hpath.symm]

end CallAttempt

/-- The calls whose changes are committed, and those whose changes wait in the open
transaction. -/
structure CallLog where
  committed : List CallAttempt
  waiting : List CallAttempt

/-- A commit is for everything that waits; a rollback takes back all of that. -/
def CallLog.record (log : CallLog) (attempt : CallAttempt) : CallLog :=
  if attempt.commits then ⟨log.committed ++ log.waiting ++ [attempt], []⟩
  else if attempt.rolledBack then ⟨log.committed, []⟩
  else ⟨log.committed, log.waiting ++ [attempt]⟩

def logOf (attempts : List CallAttempt) : CallLog := attempts.foldl CallLog.record ⟨[], []⟩

def lastChange (path : String) (attempts : List CallAttempt) : Option CallAttempt :=
  attempts.reverse.find? fun attempt ↦ attempt.changes path

/-! ## One call -/

section Call

variable {c c' : Connection Tables} {statement : Statement} {statements : List Statement}

theorem runStatements_cons (h : statement.execute? c = some c') :
    runStatements c (statement :: statements) = runStatements c' statements := by
  rw [runStatements, h]

/-- The chunks of a file that is there are inserted one after the other. -/
theorem runStatements_insertChunks {path : String} {file : StoredFile}
    (h : c.view.stored path = some file) (chunks : List ChunkMetadata) :
    ∃ c', c'.view.stored =
        Function.update c.view.stored path (some ⟨file.row, file.chunks ++ chunks⟩) ∧
      c'.committed = c.committed ∧ ∀ later,
        runStatements c (chunks.map (.insertChunk path) ++ later) = runStatements c' later := by
  induction chunks generalizing c file with
  | nil =>
      refine ⟨c, ?_, rfl, fun _ ↦ rfl⟩
      rw [List.append_nil, ← h, Function.update_eq_self]
  | cons chunk chunks ih =>
      cases hrun : (Statement.insertChunk path chunk).execute? c with
      | none =>
          obtain ⟨_, _, ⟨⟩, hnone⟩ := Statement.execute?_eq_none.mp hrun
          rw [h] at hnone
          cases hnone
      | some c₁ =>
          obtain ⟨hview, hcommitted⟩ := Statement.stored_execute? hrun
          rw [Statement.effect, h, Option.map_some] at hview
          have hfile : c₁.view.stored path = some ⟨file.row, file.chunks ++ [chunk]⟩ := by
            rw [hview, Function.update_self]
          obtain ⟨c', hview', hcommitted', hlater⟩ := ih hfile
          refine ⟨c', ?_, ?_, fun later ↦ (runStatements_cons hrun).trans (hlater later)⟩
          · rw [hview', hview, Function.update_idem, List.append_assoc, List.singleton_append]
          · exact hcommitted'.trans (hcommitted.trans (if_neg nofun))

/-- The replacement of the row, and then all chunks but those that are not reached. -/
theorem runStatements_save (c : Connection Tables) (metadata : FileMetadata) (n : ℕ) :
    ∃ c', c'.view.stored = Function.update c.view.stored metadata.filePath
        (some ⟨metadata.row, metadata.chunks.take (n - 1)⟩) ∧
      c'.committed = c.committed ∧ ∀ later,
        runStatements c
            ((WriteCall.saveFileMetadata metadata).changes.take (n + 1) ++ later) =
          runStatements c' later := by
  let c₁ : Connection Tables :=
    ⟨c.committed, some (c.view.replaceFile metadata.filePath metadata.row)⟩
  have hreplaced : c₁.view.stored =
      Function.update c.view.stored metadata.filePath (some ⟨metadata.row, []⟩) :=
    c.view.stored_replaceFile ..
  cases n with
  | zero => exact ⟨c₁, hreplaced, rfl, fun _ ↦ rfl⟩
  | succ n =>
      let c₂ : Connection Tables :=
        ⟨c.committed, some (c₁.view.deleteChunks metadata.filePath)⟩
      -- the replacement has deleted the chunks already
      have hcleared : c₂.view.stored =
          Function.update c.view.stored metadata.filePath (some ⟨metadata.row, []⟩) := by
        refine (c₁.view.stored_deleteChunks metadata.filePath).trans ?_
        rw [hreplaced, Function.update_self, Function.update_idem]
        rfl
      have hfile : c₂.view.stored metadata.filePath = some ⟨metadata.row, []⟩ := by
        rw [hcleared, Function.update_self]
      obtain ⟨c', hview, hcommitted, hlater⟩ :=
        runStatements_insertChunks hfile (metadata.chunks.take n)
      refine ⟨c', ?_, hcommitted, fun later ↦ ?_⟩
      · rw [hview, hcleared, Function.update_idem]
        rfl
      · rw [WriteCall.changes, List.take_succ_cons, List.take_succ_cons, ← List.map_take,
          ← hlater]
        rfl

/-- The changes that a call has reached leave its outcome, and commit nothing. -/
theorem runStatements_changes (c : Connection Tables) (attempt : CallAttempt) :
    ∃ c', c'.view.stored = attempt.leaves c.view.stored ∧ c'.committed = c.committed ∧
      ∀ later, runStatements c (attempt.call.changes.take attempt.reached ++ later) =
        runStatements c' later := by
  cases hreached : attempt.reached with
  | zero =>
      refine ⟨c, ?_, rfl, fun _ ↦ rfl⟩
      rw [attempt.leaves_eq_update, if_pos hreached]
  | succ n =>
      rw [attempt.leaves_eq_update, if_neg (hreached ▸ Nat.succ_ne_zero n), CallAttempt.outcome,
        hreached]
      cases attempt.call with
      | saveFileMetadata metadata => exact runStatements_save c metadata n
      | deleteFileMetadata path =>
          refine ⟨⟨c.committed, some (c.view.deleteFile path)⟩, ?_, rfl, fun later ↦ ?_⟩
          · exact c.view.stored_deleteFile path
          · rw [WriteCall.changes, List.take_succ_cons, List.take_nil, List.singleton_append]
            exact runStatements_cons rfl

theorem CallAttempt.runStatements_spec (attempt : CallAttempt) (c : Connection Tables) :
    let left := runStatements c (attempt.call.statements.take attempt.reached)
    left.view.stored = attempt.leaves c.view.stored ∧
      left.committed = if attempt.commits then left.view else c.committed := by
  intro left
  obtain ⟨c', hview, hcommitted, hlater⟩ := runStatements_changes c attempt
  have hleft : left = runStatements c'
      ([.commit].take (attempt.reached - attempt.call.changes.length)) := by
    rw [← hlater, ← List.take_append]
    rfl
  rw [hleft]
  by_cases hcommits : attempt.call.changes.length < attempt.reached
  · have htake : [Statement.commit].take (attempt.reached - attempt.call.changes.length) =
        [.commit] :=
      List.take_of_length_le (Nat.sub_pos_of_lt hcommits)
    rw [htake, commits, decide_eq_true hcommits, if_pos rfl]
    exact ⟨hview, rfl⟩
  · rw [Nat.sub_eq_zero_of_le (not_lt.mp hcommits), List.take_zero, commits,
      decide_eq_false hcommits, if_neg Bool.false_ne_true]
    exact ⟨hview, hcommitted⟩

end Call

/-! ## Any number of calls -/

section Calls

/-- The connection shows what the calls of the log have left. -/
structure CallLog.Explains (log : CallLog) (files : StoredFiles) (c : Connection Tables) :
    Prop where
  committed : c.committed.stored = log.committed.foldl CallAttempt.leaves files
  view : c.view.stored = log.waiting.foldl CallAttempt.leaves c.committed.stored

variable {c : Connection Tables} {files : StoredFiles} {log : CallLog}

theorem CallLog.Explains.run (h : log.Explains files c) (attempt : CallAttempt) :
    (log.record attempt).Explains files (attempt.run c) := by
  obtain ⟨hview, hcommitted⟩ := attempt.runStatements_spec c
  unfold CallAttempt.run CallLog.record
  generalize runStatements c (attempt.call.statements.take attempt.reached) = left at *
  by_cases hcommits : attempt.commits = true
  · rw [if_pos hcommits] at hcommitted ⊢
    have hstored : left.committed.stored =
        (log.committed ++ log.waiting ++ [attempt]).foldl CallAttempt.leaves files := by
      rw [hcommitted, hview, h.view, h.committed, List.foldl_append, List.foldl_append]
      rfl
    split_ifs
    · exact ⟨hstored, rfl⟩
    · exact ⟨hstored, by rw [← hcommitted]; rfl⟩
  · rw [if_neg hcommits] at hcommitted ⊢
    split_ifs
    · refine ⟨?_, rfl⟩
      rw [← h.committed, ← hcommitted]
      rfl
    · refine ⟨by rw [hcommitted, h.committed], ?_⟩
      rw [hview, hcommitted, h.view, List.foldl_append]
      rfl

theorem explains_foldl_run (h : log.Explains files c) (attempts : List CallAttempt) :
    (attempts.foldl CallLog.record log).Explains files (attempts.foldl CallAttempt.run c) := by
  induction attempts generalizing c log with
  | nil => exact h
  | cons attempt attempts ih => exact ih (h.run attempt)

/-- What is committed comes from the calls whose changes a commit has reached. -/
theorem committed_foldl_run (h : c.view = c.committed) (attempts : List CallAttempt) :
    (attempts.foldl CallAttempt.run c).committed.stored =
      (logOf attempts).committed.foldl CallAttempt.leaves c.committed.stored := by
  have hstart : CallLog.Explains ⟨[], []⟩ c.committed.stored c :=
    ⟨rfl, congrArg Tables.stored h⟩
  exact (explains_foldl_run hstart attempts).committed

variable (attempts : List CallAttempt)

/-- The last change of a path decides. -/
theorem foldl_leaves (path : String) :
    attempts.foldl CallAttempt.leaves files path =
      match lastChange path attempts with
      | none => files path
      | some attempt => attempt.outcome := by
  induction attempts using List.reverseRecOn with
  | nil => rfl
  | append_singleton attempts attempt ih =>
      rw [List.foldl_append, List.foldl_cons, List.foldl_nil, CallAttempt.leaves, lastChange,
        List.reverse_append, List.reverse_singleton, List.singleton_append, List.find?_cons]
      cases hchanges : attempt.changes path with
      | true => rfl
      | false => exact ih

end Calls

/-- A rollback restores what get has returned before if and only if, for every path, the
last change that a commit has reached leaves just that. -/
theorem rollback_restores_iff {order : ChunkOrder} {c c' : Connection Tables}
    (hbegin : c.begin? = some c') (attempts : List CallAttempt) :
    (∀ path, getFileMetadata order (attempts.foldl CallAttempt.run c').rollback path =
        getFileMetadata order c path) ↔
      ∀ path, ∀ attempt ∈ lastChange path (logOf attempts).committed,
        attempt.outcome.map (order.read path) = getFileMetadata order c path := by
  obtain ⟨hview, hcommitted, hclosed⟩ := Connection.view_begin? hbegin
  refine forall_congr' fun path ↦ ?_
  have hstored := committed_foldl_run (hview.trans hcommitted.symm) attempts
  rw [getFileMetadata, Connection.view_rollback, hstored, foldl_leaves, hcommitted]
  cases hlast : lastChange path (logOf attempts).committed with
  | none =>
      rw [getFileMetadata, hclosed]
      exact iff_of_true rfl nofun
  | some attempt =>
      constructor
      · rintro h _ ⟨⟩
        exact h
      · exact fun h ↦ h attempt rfl

/-! ### Saves between begin and rollback -/

def emptyDatabase : Connection Tables := ⟨emptyTables, none⟩

def todoMetadata : FileMetadata :=
  { notesMetadata with filePath := "todo", chunks := [] }

/-- A save that raises before it commits is taken back, and so is one before it: the disk is
full when the chunk of the second is inserted, and SQLite ends the transaction. -/
theorem raised_save_rolled_back :
    getFileMetadata indexOrder
        ([⟨.saveFileMetadata todoMetadata, some ⟨2, false⟩⟩,
          ⟨.saveFileMetadata notesMetadata, some ⟨2, true⟩⟩].foldl CallAttempt.run
          ⟨emptyDatabase.committed, some emptyDatabase.committed⟩).rollback =
      getFileMetadata indexOrder emptyDatabase :=
  funext ((rollback_restores_iff rfl _).mpr fun _ _ h ↦ nomatch h)

/-- A save that completes is not. -/
theorem completed_save_not_rolled_back :
    emptyDatabase.begin? = some ⟨emptyDatabase.committed, some emptyDatabase.committed⟩ ∧
      getFileMetadata indexOrder
          ([⟨.saveFileMetadata notesMetadata, none⟩].foldl CallAttempt.run
            ⟨emptyDatabase.committed, some emptyDatabase.committed⟩).rollback "notes" ≠
        getFileMetadata indexOrder emptyDatabase "notes" :=
  ⟨rfl, by decide +kernel⟩

end SecureSync
