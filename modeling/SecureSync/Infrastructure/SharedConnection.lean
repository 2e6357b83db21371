import SecureSync.Infrastructure.SqliteMetadata

/-!
# One connection for many calls

Saves, deletes and gets of different tasks share the connection.  Between any two
statements of a call, statements of other calls may run.
-/

namespace SecureSync

open Transactions

variable {ι κ : Type}

/-- How an awaited statement ends: it may raise without any effect, and the call may be
cancelled while the statement runs all the same.  Errors after which SQLite rolls the whole
transaction back are left out. -/
inductive Ending where
  | returns
  | raises
  | cancelled
  deriving DecidableEq

/-- `ι` and `κ` name the calls. -/
structure SharedCalls (ι κ : Type) where
  order : ChunkOrder
  writes : ι → WriteCall
  reads : κ → String

inductive ReadState where
  | started
  | gotRow (row : FileRow)
  | returned (result : Option FileMetadata)
  | raised
  deriving DecidableEq

def ReadState.stop : ReadState → ReadState
  | .returned result => .returned result
  | .started | .gotRow _ | .raised => .raised

/-- `writer` is not in the code: the call that has replaced or deleted the row of a path
last. -/
structure SharedState (ι κ : Type) where
  connection : Connection Tables
  executed : ι → ℕ
  raised : ι → Bool
  reads : κ → ReadState
  writer : String → Option ι

inductive Await (ι κ : Type) where
  | write (i : ι) (ending : Ending)
  | read (j : κ) (ending : Ending)
  deriving DecidableEq

namespace SharedState

variable (s : SharedState ι κ)

/-- No call has begun. -/
def start (t : Tables) : SharedState ι κ :=
  ⟨⟨t, none⟩, fun _ ↦ 0, fun _ ↦ false, fun _ ↦ .started, fun _ ↦ none⟩

def stored : StoredFiles := s.connection.view.stored

variable [DecidableEq ι]

def wrote (i : ι) (statement : Statement) (c : Connection Tables) : SharedState ι κ :=
  { s with
    connection := c
    executed := Function.update s.executed i (s.executed i + 1)
    writer :=
      match statement with
      | .replaceFile path _ | .deleteFile path => Function.update s.writer path (some i)
      | .deleteChunks _ | .insertChunk _ _ | .commit => s.writer }

def stop (i : ι) : SharedState ι κ := { s with raised := Function.update s.raised i true }

end SharedState

namespace SharedCalls

variable (calls : SharedCalls ι κ)

def next? (s : SharedState ι κ) (i : ι) : Option Statement :=
  if s.raised i then none else (calls.writes i).statements[s.executed i]?

/-- Each of the two queries has its rows by the time that it has run: the second one sorts
them. -/
def readNext (s : SharedState ι κ) (j : κ) : ReadState :=
  match s.reads j with
  | .started =>
      match s.connection.view.files (calls.reads j) with
      | none => .returned none
      | some row => .gotRow row
  | .gotRow row =>
      .returned (some (calls.order.read (calls.reads j)
        ⟨row, s.connection.view.chunksOf (calls.reads j)⟩))
  | .returned result => .returned result
  | .raised => .raised

variable [DecidableEq ι] [DecidableEq κ]

def step (s : SharedState ι κ) : Await ι κ → SharedState ι κ
  | .write i ending =>
      match calls.next? s i with
      | none => s
      | some statement =>
          match statement.execute? s.connection, ending with
          | none, _ | some _, .raises => s.stop i
          | some c, .returns => s.wrote i statement c
          | some c, .cancelled => (s.wrote i statement c).stop i
  | .read j .returns => { s with reads := Function.update s.reads j (calls.readNext s j) }
  | .read j .raises | .read j .cancelled =>
      { s with reads := Function.update s.reads j (s.reads j).stop }

end SharedCalls

/-! ## The statements of a call by their position -/

inductive WriteCall.Reaches : WriteCall → ℕ → Statement → Prop
  | replaceFile {metadata} :
      Reaches (.saveFileMetadata metadata) 0 (.replaceFile metadata.filePath metadata.row)
  | deleteChunks {metadata} :
      Reaches (.saveFileMetadata metadata) 1 (.deleteChunks metadata.filePath)
  | insertChunk {metadata n chunk} (h : metadata.chunks[n]? = some chunk) :
      Reaches (.saveFileMetadata metadata) (n + 2) (.insertChunk metadata.filePath chunk)
  | deleteFile {path} : Reaches (.deleteFileMetadata path) 0 (.deleteFile path)
  | commit {call} : Reaches call call.changes.length .commit

theorem WriteCall.reaches_of_getElem? {call : WriteCall} {n : ℕ} {statement : Statement}
    (h : call.statements[n]? = some statement) : call.Reaches n statement := by
  unfold statements at h
  rcases lt_or_ge n call.changes.length with hn | hn
  · rw [List.getElem?_append_left hn] at h
    cases call with
    | deleteFileMetadata path =>
        obtain rfl : n = 0 := Nat.lt_one_iff.mp hn
        cases h
        exact .deleteFile
    | saveFileMetadata metadata =>
        match n, h with
        | 0, rfl => exact .replaceFile
        | 1, rfl => exact .deleteChunks
        | n + 2, h =>
            rw [changes, List.getElem?_cons_succ, List.getElem?_cons_succ, List.getElem?_map] at h
            obtain ⟨chunk, hchunk, rfl⟩ := Option.map_eq_some_iff.mp h
            exact .insertChunk hchunk
  · rw [List.getElem?_append_right hn] at h
    obtain ⟨hlast, rfl⟩ : n - call.changes.length = 0 ∧ statement = .commit := by
      cases hlast : n - call.changes.length with
      | zero =>
          rw [hlast] at h
          cases h
          exact ⟨rfl, rfl⟩
      | succ m =>
          rw [hlast] at h
          cases h
    rw [le_antisymm (Nat.sub_eq_zero_iff_le.mp hlast) hn]
    exact .commit

end SecureSync
