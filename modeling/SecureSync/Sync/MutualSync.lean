import SecureSync.Sync.Pairs

/-!
# Two devices that sync one file with each other

Each calls `sync` once and answers the other one meanwhile.  The segments of the two calls run in
any order, and the world of a device is what the other one answers from at that moment.
-/

namespace SecureSync

open Raising SyncDirectionResolver

/-- The exchange with whatever the world is. -/
def worldExchange : ManifestExchange ManifestServer where
  requestManifest peer relativePath := fun w ↦
    (w.exchange ManifestServer).requestManifest peer relativePath w
  requestChunks peer relativePath chunkHashes w :=
    (w.exchange ManifestServer).requestChunks peer relativePath chunkHashes w

structure MutualSync where
  device : Bool → Device ManifestServer
  call : Bool → SyncCall
  relativePath : String
  exchange_eq : ∀ side, (device side).manifestExchange = worldExchange
  relativePath_eq : ∀ side, (call side).relativePath = relativePath

/-- A call that has failed or was given up has no phase. -/
structure MutualState where
  state : Bool → DeviceState ManifestServer
  phase : Bool → Option SyncPhase

/-- `advance` runs the call of one device to its next await, by this clock.  A request is the one
await whose answer the other device gives, so its segment stands where it is answered. -/
inductive MutualEvent where
  | advance (side : Bool) (clock : ℕ → Timestamp)
  | stop (side : Bool)

namespace SyncPhase

def hasReturned : SyncPhase → Bool
  | .pushing (.done _) | .pulling (.done _) | .done _ => true
  | _ => false

/-- `sync` has not compared the two versions yet. -/
def isUndecided : SyncPhase → Bool
  | .starting | .reading _ | .versioning _ | .requesting _ _ => true
  | _ => false

/-- What a call has found of its own file so far. -/
def Found (content : Option Bytes) (current : ChunkCollection) (version : Option VersionVector) :
    SyncPhase → Prop
  | .reading read => read = content
  | .versioning localCollection => localCollection = current
  | .requesting localCollection localVersion => localCollection = current ∧ localVersion = version
  | _ => True

/-- Where a call can be that was in conflict. -/
def Resolved (remoteWins : Bool) : SyncPhase → Prop
  | .chosen action => action = .conflict remoteWins
  | .pulling _ => remoteWins = true
  | .done _ => remoteWins = false
  | _ => False

end SyncPhase

namespace MutualState

def moved (s : MutualState) (side : Bool) (t : SyncState ManifestServer)
    (phase : Option SyncPhase) : MutualState where
  state := Function.update s.state side { s.state side with toSyncState := t }
  phase := Function.update s.phase side phase

/-- The next segment of the device compares the two versions. -/
def Compares (s : MutualState) (side : Bool) : Prop :=
  ∃ current version, s.phase side = some (.requesting current version)

/-- The call is over, and has saved what it pulled. -/
def HasPulled (s : MutualState) (side : Bool) : Prop :=
  ∃ n, s.phase side = some (.pulling (.done n))

end MutualState

namespace MutualSync

variable (m : MutualSync)

def server (s : MutualState) (side : Bool) : ManifestServer := (m.device side).server (s.state side)

def version (s : MutualState) (side : Bool) : Option VersionVector :=
  knownVersion (s.state side).metadata m.relativePath

def useCase (s : MutualState) (side : Bool) : SyncFileUseCase ManifestServer :=
  ((m.device side).lookingUp (s.state side).metadata).toSyncFileSettings.onDisk

/-- The device with its clock, and the other device as it answers now. -/
def seen (s : MutualState) (side : Bool) (clock : ℕ → Timestamp) : SyncState ManifestServer :=
  { (s.state side).toSyncState with clock := clock, world := m.server s !side }

def next (s : MutualState) (side : Bool) (clock : ℕ → Timestamp) (phase : SyncPhase) :
    EStateM.Result SyncError (SyncState ManifestServer) SyncPhase :=
  (m.useCase s side).syncNext (m.device side).syncRoot (m.call side) phase (m.seen s side clock)

def step (s : MutualState) : MutualEvent → MutualState
  | .advance side clock =>
      match s.phase side with
      | none => s
      | some phase =>
          s.moved side (stateOf (m.next s side clock phase)) (value? (m.next s side clock phase))
  | .stop side =>
      if (s.phase side).any SyncPhase.hasReturned then s
      else s.moved side (s.state side).toSyncState none

def run (s : MutualState) (events : List MutualEvent) : MutualState := events.foldl m.step s

/-- The content of the file of one device. -/
def content (s : MutualState) (side : Bool) : Option Bytes :=
  (m.device side).fileOf (s.state side).storage (m.call side)

/-- The manifest that `sync` makes of the file of this device. -/
def Holds (s : MutualState) (side : Bool) (current : ChunkCollection) : Prop :=
  (m.useCase s side).IsLocalManifest (joinPath (m.device side).syncRoot m.relativePath)
    (m.call side) (m.content s side) current

/-- What the device answers to a request for the manifest of the file. -/
def Serves (s : MutualState) (side : Bool) (collection : ChunkCollection) : Prop :=
  (m.server s side).buildManifestResponse m.relativePath =
    .ok ⟨true, some collection, m.version s side⟩

/-- The resolver of the device calls the two versions of the file concurrent. -/
def InConflict (s : MutualState) (side : Bool) (current : ChunkCollection) : Prop :=
  ∃ served, m.Serves s (!side) served ∧
    (resolve (some current) (m.version s side) (some served) (m.version s !side)).direction =
      .conflict

end MutualSync

/-! ## Steps -/

namespace MutualState

variable {s : MutualState} {side other : Bool} {t : SyncState ManifestServer}
  {phase : Option SyncPhase}

@[simp] theorem moved_phase_self : (s.moved side t phase).phase side = phase :=
  Function.update_self ..

@[simp] theorem moved_state_self :
    (s.moved side t phase).state side = { s.state side with toSyncState := t } :=
  Function.update_self ..

theorem moved_phase_of_ne (h : other ≠ side) : (s.moved side t phase).phase other = s.phase other :=
  Function.update_of_ne h ..

theorem moved_state_of_ne (h : other ≠ side) : (s.moved side t phase).state other = s.state other :=
  Function.update_of_ne h ..

end MutualState

namespace MutualSync

variable {m : MutualSync} {s s₀ : MutualState} {side other : Bool} {clock : ℕ → Timestamp}
  {phase phase' : SyncPhase} {t : SyncState ManifestServer} {current : ChunkCollection}
  {event : MutualEvent} {events : List MutualEvent}

/-- What an event is for one of the devices: nothing, the end of its call, or a segment of it. -/
theorem step_cases (m : MutualSync) (s : MutualState) (event : MutualEvent) (side : Bool) :
    ((m.step s event).phase side = s.phase side ∧
        (m.step s event).state side = s.state side) ∨
      ((m.step s event).phase side = none ∧ (m.step s event).state side = s.state side ∧
        (s.phase side).any SyncPhase.hasReturned = false) ∨
      ∃ clock phase, event = .advance side clock ∧ s.phase side = some phase ∧
        (m.step s event).phase side = value? (m.next s side clock phase) ∧
        (m.step s event).state side =
          { s.state side with toSyncState := stateOf (m.next s side clock phase) } := by
  cases event with
  | advance actor clock =>
      by_cases hside : side = actor
      · subst hside
        rw [step]
        cases hphase : s.phase side with
        | none => exact .inl ⟨hphase, rfl⟩
        | some phase =>
            exact .inr (.inr ⟨clock, phase, rfl, rfl, MutualState.moved_phase_self,
              MutualState.moved_state_self⟩)
      · rw [step]
        cases hphase : s.phase actor with
        | none => exact .inl ⟨rfl, rfl⟩
        | some phase =>
            exact .inl ⟨MutualState.moved_phase_of_ne hside, MutualState.moved_state_of_ne hside⟩
  | stop actor =>
      rw [step]
      split_ifs with hreturned
      · exact .inl ⟨rfl, rfl⟩
      · by_cases hside : side = actor
        · subst hside
          exact .inr (.inl ⟨MutualState.moved_phase_self, MutualState.moved_state_self,
            Bool.eq_false_iff.mpr hreturned⟩)
        · exact .inl ⟨MutualState.moved_phase_of_ne hside, MutualState.moved_state_of_ne hside⟩

theorem metadata_step : ((m.step s event).state side).metadata = (s.state side).metadata := by
  rcases step_cases m s event side with ⟨-, h⟩ | ⟨-, h, -⟩ | ⟨clock, phase, -, -, -, h⟩
  all_goals rw [h]

theorem metadata_run :
    ((m.run s events).state side).metadata = (s.state side).metadata := by
  induction events generalizing s with
  | nil => rfl
  | cons event events ih => exact ih.trans metadata_step

theorem version_run : m.version (m.run s events) side = m.version s side := by
  rw [version, metadata_run, version]

/-! ## Before the decision -/

theorem provider_useCase (s : MutualState) (side : Bool) (t : SyncState ManifestServer) :
    (m.useCase s side).localVersion (m.call side).relativePath t =
      .ok (m.version s side) t := by
  rw [version, ← m.relativePath_eq side]
  rfl

theorem content_next (s : MutualState) (side : Bool) (clock : ℕ → Timestamp) :
    (m.useCase s side).contentAt (joinPath (m.device side).syncRoot (m.call side).relativePath)
      (m.seen s side clock) = m.content s side := rfl

/-- A call that has not decided has only looked at its own file. -/
theorem found_next (hholds : m.Holds s side current)
    (hfound : phase.Found (m.content s side) current (m.version s side))
    (hnext : m.next s side clock phase = .ok phase' t) (hundecided : phase'.isUndecided = true) :
    phase'.Found (m.content s side) current (m.version s side) := by
  unfold next at hnext
  cases phase with
  | starting =>
      cases hnext
      exact content_next s side clock
  | reading read =>
      obtain ⟨localCollection, s₁, hlocal, hnext⟩ := bind_eq_ok.mp hnext
      cases hnext
      cases hfound
      rw [m.relativePath_eq] at hlocal
      exact (manifestOrEmptyFrom_eq_ok hlocal).1.unique hholds
  | versioning localCollection =>
      obtain ⟨localVersion, s₁, hversion, hnext⟩ := bind_eq_ok.mp hnext
      cases hnext
      cases (provider_useCase s side _).symm.trans hversion
      exact ⟨hfound, rfl⟩
  | _ =>
      cases follows_of_syncNext hnext <;> cases hundecided

/-- A call that has not decided has left its device alone. -/
structure Looking (m : MutualSync) (s₀ : MutualState) (side : Bool) (current : ChunkCollection)
    (s : MutualState) : Prop where
  version : m.version s side = m.version s₀ side
  looks : ∀ phase, s.phase side = some phase → phase.isUndecided = true →
    (s.state side).storage = (s₀.state side).storage ∧
      (s.state side).repository = (s₀.state side).repository ∧
        phase.Found (m.content s₀ side) current (m.version s₀ side)

theorem Looking.step (hholds : m.Holds s₀ side current) (h : m.Looking s₀ side current s)
    (event : MutualEvent) : m.Looking s₀ side current (m.step s event) := by
  refine ⟨(@version_run m s side [event]).trans h.version, fun phase' hphase' hundecided ↦ ?_⟩
  obtain ⟨hphase, hstate⟩ | ⟨hphase, -, -⟩ | ⟨clock, phase, -, hphase, hnext, hstate⟩ :=
    step_cases m s event side
  · rw [hstate]
    exact h.looks phase' (hphase.symm.trans hphase') hundecided
  · cases hphase.symm.trans hphase'
  · obtain ⟨t, hok⟩ := value?_eq_some.mp (hnext.symm.trans hphase')
    have hbefore : phase.isUndecided = true ∧ phase.writes = none ∧ phase.saves = none := by
      cases follows_of_syncNext hok <;> first | exact ⟨rfl, rfl, rfl⟩ | cases hundecided
    obtain ⟨hbefore, hwrites, hsaves⟩ := hbefore
    obtain ⟨hstorage, hrepository, hfound⟩ := h.looks phase hphase hbefore
    have hcontent : m.content s side = m.content s₀ side := by
      rw [content, hstorage]
      rfl
    have hkeeps : (stateOf (m.next s side clock phase)).storage = (s.state side).storage ∧
        (stateOf (m.next s side clock phase)).repository = (s.state side).repository :=
      stateOf_syncNext hwrites hsaves
    rw [hstate]
    refine ⟨hkeeps.1.trans hstorage, hkeeps.2.trans hrepository, ?_⟩
    rw [← hcontent, ← h.version]
    refine found_next (?_ : m.Holds s side current) ?_ hok hundecided
    · rw [Holds, hcontent]
      exact hholds
    · rw [hcontent, h.version]
      exact hfound

theorem Looking.run (hholds : m.Holds s₀ side current) (h : m.Looking s₀ side current s)
    (events : List MutualEvent) : m.Looking s₀ side current (m.run s events) := by
  induction events generalizing s with
  | nil => exact h
  | cons event events ih => exact ih (h.step hholds event)

theorem phase_run_eq_none (h : s.phase side = none) : (m.run s events).phase side = none := by
  induction events generalizing s with
  | nil => exact h
  | cons event events ih =>
      apply ih
      obtain ⟨hsame, -⟩ | ⟨hnone, -, -⟩ | ⟨clock, phase, -, hphase, -, -⟩ :=
        step_cases m s event side
      · exact hsame.trans h
      · exact hnone
      · cases h.symm.trans hphase

/-- A call that was in conflict saves nothing before it has pulled. -/
structure Settling (s₀ : MutualState) (side : Bool) (remoteWins : Bool) (s : MutualState) :
    Prop where
  resolved : ∀ phase, s.phase side = some phase → phase.Resolved remoteWins
  repository : ¬ s.HasPulled side → (s.state side).repository = (s₀.state side).repository

theorem exists_of_saves {remoteWins : Bool} {collection : ChunkCollection}
    (h : phase.Resolved remoteWins) (hsaves : phase.saves = some collection) :
    ∃ n, phase = .pulling (.saving collection n) := by
  unfold SyncPhase.saves PullPhase.saves at hsaves
  split at hsaves
  case h_1 => cases h
  case h_3 => cases hsaves
  case h_2 =>
    split at hsaves
    case h_2 => cases hsaves
    case h_1 collection' n =>
      cases hsaves
      exact ⟨n, rfl⟩

theorem resolved_next {remoteWins : Bool} (h : phase.Resolved remoteWins)
    (hnext : m.next s side clock phase = .ok phase' t) : phase'.Resolved remoteWins := by
  cases follows_of_syncNext hnext <;> first | exact h | cases h <;> rfl

theorem Settling.step {remoteWins : Bool} (h : Settling s₀ side remoteWins s)
    (event : MutualEvent) : Settling s₀ side remoteWins (m.step s event) := by
  obtain ⟨hphase, hstate⟩ | ⟨hphase, hstate, hreturned⟩ |
    ⟨clock, phase, -, hphase, hnext, hstate⟩ := step_cases m s event side
  · refine ⟨fun phase' hphase' ↦ h.resolved phase' (hphase.symm.trans hphase'), fun hnot ↦ ?_⟩
    rw [hstate]
    exact h.repository fun ⟨n, hn⟩ ↦ hnot ⟨n, hphase.trans hn⟩
  · refine ⟨fun phase' hphase' ↦ ?_, fun _ ↦ ?_⟩
    · cases hphase.symm.trans hphase'
    · rw [hstate]
      apply h.repository
      rintro ⟨n, hn⟩
      rw [hn] at hreturned
      cases hreturned
  · refine ⟨fun phase' hphase' ↦ ?_, fun hnot ↦ ?_⟩
    · obtain ⟨t, hok⟩ := value?_eq_some.mp (hnext.symm.trans hphase')
      exact resolved_next (h.resolved phase hphase) hok
    · cases hsaves : phase.saves with
      | none =>
          rw [hstate]
          refine (repository_syncNext hsaves).trans (h.repository ?_)
          rintro ⟨n, hn⟩
          cases hphase.symm.trans hn
          exact hnot ⟨n, hnext⟩
      | some collection =>
          -- saving is what ends the pull
          obtain ⟨n, rfl⟩ := exists_of_saves (h.resolved phase hphase) hsaves
          exact absurd ⟨n, hnext⟩ hnot

theorem Settling.run {remoteWins : Bool} (h : Settling s₀ side remoteWins s)
    (events : List MutualEvent) : Settling s₀ side remoteWins (m.run s events) := by
  induction events generalizing s with
  | nil => exact h
  | cons event events ih => exact ih (h.step event)

/-! ## The comparison -/

section Comparison

variable {served : ChunkCollection} {version : Option VersionVector}

end Comparison

theorem run_append (events later : List MutualEvent) :
    m.run s (events ++ later) = m.run (m.run s events) later :=
  List.foldl_append ..

end MutualSync
end SecureSync
