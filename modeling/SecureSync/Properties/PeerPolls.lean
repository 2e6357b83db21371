import SecureSync.Application.Orchestration
import SecureSync.Library.Machines

/-!
# Peers that come online

A peer is handled at the first poll that finds it online, and at no other.
-/

namespace SecureSync.Orchestration

open Machines

/-! ## Polls -/

/-- What the discovery service reports. -/
inductive DiscoveryEvent where
  | discovered (peer : Peer)
  | lost (deviceId : DeviceId)

def DiscoveryEvent.apply (repository : PeerRepository) : DiscoveryEvent → PeerRepository
  | .discovered peer => onPeerDiscovered peer repository
  | .lost deviceId => onPeerLost deviceId repository

/-- The events before a poll, and what is answered while its peers are handled.  Handling
does not read the repository: events during it count for the next poll. -/
structure PollInterval where
  events : List DiscoveryEvent
  answers : DeviceId → PeerAnswers

/-- The sync loop between two polls, or after it has ended. -/
structure DiscoveryLoop where
  repository : PeerRepository
  orchestrator : SyncOrchestrator
  alive : Bool

def SyncOrchestrator.newPeers (o : SyncOrchestrator) (online : List Peer) : List Peer :=
  online.filter fun peer ↦ peer.deviceId ∉ o.activePeers

/-- The `except` clause, then the `finally` clause. -/
def SyncOrchestrator.loopFailed (o : SyncOrchestrator) : SyncOrchestrator :=
  { o.countErrors 1 with state := .idle }

namespace OrchestratorSettings

variable (settings : OrchestratorSettings)

/-- The peers are handled in turn; the devices for which a call is made are listed. -/
def handleAll (answers : DeviceId → PeerAnswers) :
    List Peer → SyncOrchestrator → List DeviceId × EStateM.Result HandlerError SyncOrchestrator Unit
  | [], o => ([], .ok () o)
  | peer :: rest, o =>
      match settings.handlePeerDiscovered peer (answers peer.deviceId) o with
      | .ok _ o =>
          let (calls, result) := handleAll answers rest o
          (peer.deviceId :: calls, result)
      | .error error o => ([peer.deviceId], .error error o)

/-- One round of the loop.  A loop that has ended polls no more. -/
def poll (answers : DeviceId → PeerAnswers) (loop : DiscoveryLoop) :
    List DeviceId × DiscoveryLoop :=
  if loop.alive then
    let online := listOnlinePeers loop.repository
    let (calls, result) :=
      settings.handleAll answers (loop.orchestrator.newPeers online) loop.orchestrator
    match result with
    | .ok _ o => (calls, { loop with orchestrator := o })
    | .error _ o => (calls, { loop with orchestrator := o.loopFailed, alive := false })
  else ([], loop)

def pass (loop : DiscoveryLoop) (interval : PollInterval) : List DeviceId × DiscoveryLoop :=
  settings.poll interval.answers
    { loop with repository := interval.events.foldl DiscoveryEvent.apply loop.repository }

end OrchestratorSettings

/-! ## The engine's loop -/

section Refinement

variable {settings : OrchestratorSettings} {answers : DeviceId → PeerAnswers} {task : ℕ}

/-- The engine's task after the peers of a poll. -/
def Engine.settle (e : Engine) (task : ℕ) :
    EStateM.Result HandlerError SyncOrchestrator Unit → Engine
  | .ok _ o => { e with toSyncOrchestrator := o }.setPc task .pollWait
  | .error _ o => { e with toSyncOrchestrator := o.loopFailed }.setPc task .done

theorem Engine.settle_setPc (e : Engine) (pc : LoopPc) (o : SyncOrchestrator)
    (result : EStateM.Result HandlerError SyncOrchestrator Unit) :
    ({ e with toSyncOrchestrator := o }.setPc task pc).settle task result =
      e.settle task result := by
  cases result with
  | ok _ o => simp only [Engine.settle, Engine.setPc, List.set_set]
  | error _ o => simp only [Engine.settle, Engine.setPc, List.set_set]

theorem loop_handled {e : Engine} {peer : Peer} {rest : List Peer}
    (htask : task < e.tasks.length) :
    settings.loop (e.nextPeer task (peer :: rest)) task (.handled (answers peer.deviceId)) =
      match settings.handlePeerDiscovered peer (answers peer.deviceId) e.toSyncOrchestrator with
      | .ok _ o =>
          ({ e with toSyncOrchestrator := o }.setPc task (.handling rest)).nextPeer task rest
      | .error error o => e.settle task (.error error o) := by
  have hpc : (e.nextPeer task (peer :: rest)).tasks[task]? = some (.handling rest) :=
    List.getElem?_set_self htask
  have hbegun : settings.handlePeerDiscovered peer (answers peer.deviceId) e.toSyncOrchestrator =
      settings.finishHandling (answers peer.deviceId) (e.addActive peer) := rfl
  unfold OrchestratorSettings.loop
  rw [hpc, hbegun]
  dsimp only
  have hactive : (e.nextPeer task (peer :: rest)).toSyncOrchestrator = e.addActive peer := rfl
  rw [hactive]
  cases settings.finishHandling (answers peer.deviceId) (e.addActive peer) with
  | ok _ o => rfl
  | error error o =>
      simp only [Engine.settle, Engine.fail, Engine.finish, Engine.setPc, Engine.nextPeer,
        List.set_set]
      rfl

/-- A task that has ended takes no answer. -/
theorem foldl_loop_done {e : Engine} (h : e.tasks[task]? = some .done) (given : List LoopAnswer) :
    given.foldl (settings.loop · task ·) e = e := by
  induction given with
  | nil => rfl
  | cons answer given ih =>
      have hloop : settings.loop e task answer = e := by
        unfold OrchestratorSettings.loop
        rw [h]
      rw [List.foldl_cons, hloop, ih]

/-- The engine handles the peers of a poll as `handleAll` does. -/
theorem foldl_loop_handled (peers : List Peer) (e : Engine) (htask : task < e.tasks.length) :
    (peers.map fun peer ↦ LoopAnswer.handled (answers peer.deviceId)).foldl
        (settings.loop · task ·) (e.nextPeer task peers) =
      e.settle task (settings.handleAll answers peers e.toSyncOrchestrator).2 := by
  induction peers generalizing e with
  | nil => rfl
  | cons peer rest ih =>
      rw [List.map_cons, List.foldl_cons, loop_handled htask, OrchestratorSettings.handleAll]
      cases settings.handlePeerDiscovered peer (answers peer.deviceId) e.toSyncOrchestrator with
      | ok _ o =>
          dsimp only
          rw [ih _ (by simpa [Engine.setPc] using htask), Engine.settle_setPc]
          rfl
      | error error o => exact foldl_loop_done (List.getElem?_set_self htask) _

theorem foldl_loop_poll {e : Engine} (h : e.tasks[task]? = some .listing) (online : List Peer) :
    (.online online :: (e.newPeers online).map fun peer ↦
        LoopAnswer.handled (answers peer.deviceId)).foldl (settings.loop · task ·) e =
      e.settle task
        (settings.handleAll answers (e.newPeers online) e.toSyncOrchestrator).2 := by
  have hloop : settings.loop e task (.online online) = e.nextPeer task (e.newPeers online) := by
    unfold OrchestratorSettings.loop
    rw [h]
  obtain ⟨htask, -⟩ := List.getElem?_eq_some_iff.mp h
  rw [List.foldl_cons, hloop, foldl_loop_handled _ _ htask]

end Refinement

/-! ## The calls of a poll -/

/-- The devices up to the first for which the call raises. -/
def called (raises : DeviceId → Bool) : List DeviceId → List DeviceId
  | [] => []
  | d :: rest => d :: if raises d then [] else called raises rest

section Called

variable {raises : DeviceId → Bool} {devices : List DeviceId} {d : DeviceId}

theorem mem_of_mem_called (h : d ∈ called raises devices) : d ∈ devices := by
  induction devices with
  | nil => exact h
  | cons d' rest ih =>
      rw [called, List.mem_cons] at h
      rcases h with rfl | h
      · exact List.mem_cons_self
      · split_ifs at h
        · cases h
        · exact List.mem_cons_of_mem d' (ih h)

/-- All are called exactly if the call raises for none but the last. -/
theorem forall_mem_called (hnodup : devices.Nodup) :
    (∀ d ∈ devices, d ∈ called raises devices) ↔ ∀ d ∈ devices.dropLast, raises d = false := by
  induction devices with
  | nil => simp
  | cons d rest ih =>
      obtain ⟨hd, hrest⟩ := List.nodup_cons.mp hnodup
      cases rest with
      | nil => simp [called]
      | cons d' rest =>
          rw [List.dropLast_cons_cons, List.forall_mem_cons (a := d), List.forall_mem_cons (a := d),
            ← ih hrest]
          have hfirst : d ∈ called raises (d :: d' :: rest) := List.mem_cons_self
          rw [and_iff_right hfirst, called]
          cases hraises : raises d with
          | true =>
              refine iff_of_false (fun h ↦ ?_) (fun h ↦ Bool.false_ne_true h.1.symm)
              obtain rfl := List.mem_singleton.mp (h d' List.mem_cons_self)
              exact hd List.mem_cons_self
          | false =>
              rw [if_neg Bool.false_ne_true, and_iff_right rfl]
              refine forall₂_congr fun other hother ↦ ?_
              have hne : other ≠ d := ne_of_mem_of_not_mem hother hd
              rw [List.mem_cons, or_iff_right hne]

end Called

/-- `handle_peer_discovered` raises. -/
def PeerAnswers.raises (answers : PeerAnswers) : Bool := answers.listAllFiles.isNone

namespace OrchestratorSettings

variable (settings : OrchestratorSettings) {answers : DeviceId → PeerAnswers}

theorem handleAll_cons_of_raises {peer : Peer} (h : (answers peer.deviceId).raises = true)
    (rest : List Peer) (o : SyncOrchestrator) :
    ∃ o', settings.handleAll answers (peer :: rest) o =
      ([peer.deviceId], .error .listAllFiles o') := by
  obtain ⟨o', hrun, -⟩ := finishHandling_of_none settings (o.addActive peer)
    (Option.isNone_iff_eq_none.mp h)
  have hpeer : settings.handlePeerDiscovered peer (answers peer.deviceId) o =
    .error .listAllFiles o' := hrun
  refine ⟨o', ?_⟩
  rw [handleAll, hpeer]

theorem handleAll_cons_of_not_raises {peer : Peer} (h : (answers peer.deviceId).raises = false)
    (rest : List Peer) (o : SyncOrchestrator) :
    ∃ o', o'.activePeers = insert peer.deviceId o.activePeers ∧
      settings.handleAll answers (peer :: rest) o =
        (peer.deviceId :: (settings.handleAll answers rest o').1,
          (settings.handleAll answers rest o').2) := by
  obtain ⟨localFiles, hfiles⟩ := Option.isSome_iff_exists.mp (Option.isNone_eq_false_iff.mp h)
  obtain ⟨o', hrun, hactive, -⟩ := finishHandling_of_some settings (o.addActive peer) hfiles
  have hpeer : settings.handlePeerDiscovered peer (answers peer.deviceId) o = .ok () o' := hrun
  refine ⟨o', hactive, ?_⟩
  rw [handleAll, hpeer]

theorem calls_handleAll (answers : DeviceId → PeerAnswers) (peers : List Peer)
    (o : SyncOrchestrator) :
    (settings.handleAll answers peers o).1 =
      called (fun d ↦ (answers d).raises) (peers.map Peer.deviceId) := by
  induction peers generalizing o with
  | nil => rfl
  | cons peer rest ih =>
      rw [List.map_cons, called]
      cases hraises : (answers peer.deviceId).raises with
      | true =>
          obtain ⟨o', hall⟩ := settings.handleAll_cons_of_raises hraises rest o
          rw [hall, if_pos rfl]
      | false =>
          obtain ⟨o', -, hall⟩ := settings.handleAll_cons_of_not_raises hraises rest o
          rw [hall, ih, if_neg Bool.false_ne_true]

theorem handleAll_of_not_raises {peers : List Peer}
    (h : ∀ peer ∈ peers, (answers peer.deviceId).raises = false) (o : SyncOrchestrator) :
    ∃ o', (settings.handleAll answers peers o).2 = .ok () o' ∧
      ∀ d, d ∈ o'.activePeers ↔ d ∈ o.activePeers ∨ d ∈ peers.map Peer.deviceId := by
  induction peers generalizing o with
  | nil => exact ⟨o, rfl, fun d ↦ by simp⟩
  | cons peer rest ih =>
      obtain ⟨hpeer, hrest⟩ := List.forall_mem_cons.mp h
      obtain ⟨o₁, hactive₁, hall⟩ := settings.handleAll_cons_of_not_raises hpeer rest o
      obtain ⟨o₂, hresult, hactive₂⟩ := ih hrest o₁
      refine ⟨o₂, ?_, fun d ↦ ?_⟩
      · rw [hall]
        exact hresult
      · rw [hactive₂, hactive₁, Finset.mem_insert, List.map_cons, List.mem_cons]
        tauto

theorem handleAll_of_raises {peers : List Peer}
    (h : ∃ peer ∈ peers, (answers peer.deviceId).raises = true) (o : SyncOrchestrator) :
    ∃ o', (settings.handleAll answers peers o).2 = .error .listAllFiles o' := by
  induction peers generalizing o with
  | nil => simp at h
  | cons peer rest ih =>
      cases hraises : (answers peer.deviceId).raises with
      | true =>
          obtain ⟨o', hall⟩ := settings.handleAll_cons_of_raises hraises rest o
          refine ⟨o', ?_⟩
          rw [hall]
      | false =>
          obtain ⟨o', -, hall⟩ := settings.handleAll_cons_of_not_raises hraises rest o
          obtain ⟨other, hother, hraised⟩ := h
          rw [hall]
          rcases List.mem_cons.mp hother with rfl | hother
          · rw [hraises] at hraised
            cases hraised
          · exact ih ⟨other, hother, hraised⟩ o'

end OrchestratorSettings

namespace OrchestratorSettings

variable (settings : OrchestratorSettings) {answers : DeviceId → PeerAnswers}
  {loop : DiscoveryLoop}

theorem repository_poll : (settings.poll answers loop).2.repository = loop.repository := by
  unfold poll
  dsimp only
  split_ifs
  · split <;> rfl
  · rfl

theorem poll_of_not_alive (answers : DeviceId → PeerAnswers) (h : loop.alive = false) :
    settings.poll answers loop = ([], loop) := by
  rw [poll, h, if_neg Bool.false_ne_true]

theorem calls_poll (h : loop.alive = true) :
    (settings.poll answers loop).1 = called (fun d ↦ (answers d).raises)
      ((loop.orchestrator.newPeers (listOnlinePeers loop.repository)).map Peer.deviceId) := by
  rw [← settings.calls_handleAll answers _ loop.orchestrator, poll, if_pos h]
  dsimp only
  split <;> rfl

theorem poll_of_not_raises (h : loop.alive = true)
    (hraises : ∀ peer ∈ loop.orchestrator.newPeers (listOnlinePeers loop.repository),
      (answers peer.deviceId).raises = false) :
    (settings.poll answers loop).2.alive = true ∧
      ∀ d, d ∈ (settings.poll answers loop).2.orchestrator.activePeers ↔
        d ∈ loop.orchestrator.activePeers ∨
          d ∈ (loop.orchestrator.newPeers (listOnlinePeers loop.repository)).map Peer.deviceId := by
  obtain ⟨o, hresult, hactive⟩ := settings.handleAll_of_not_raises hraises loop.orchestrator
  rw [poll, if_pos h]
  dsimp only
  rw [hresult]
  exact ⟨h, hactive⟩

theorem alive_poll_of_raises
    (hraises : ∃ peer ∈ loop.orchestrator.newPeers (listOnlinePeers loop.repository),
      (answers peer.deviceId).raises = true) : (settings.poll answers loop).2.alive = false := by
  cases halive : loop.alive with
  | true =>
      obtain ⟨o, hresult⟩ := settings.handleAll_of_raises hraises loop.orchestrator
      rw [poll, if_pos halive]
      dsimp only
      rw [hresult]
  | false => rw [settings.poll_of_not_alive answers halive, halive]

end OrchestratorSettings

/-! ## Runs -/

/-- A loop, the devices known before its first poll, and all that happens. -/
structure PollRun where
  settings : OrchestratorSettings
  known : PeerRepository
  intervals : ℕ → PollInterval

namespace PollRun

variable (run : PollRun) (n : ℕ) (d : DeviceId)

/-- The loop before the interval. -/
def loopBefore : DiscoveryLoop :=
  after (fun loop interval ↦ (run.settings.pass loop interval).2) run.intervals
    ⟨run.known, { state := .scanning }, true⟩ n

/-- The loop comes to the poll. -/
def Polls : Prop := (run.loopBefore n).alive = true

instance : Decidable (run.Polls n) := inferInstanceAs (Decidable (_ = true))

/-- The devices passed to `handle_peer_discovered` at the poll. -/
def handledAt : List DeviceId := (run.settings.pass (run.loopBefore n) (run.intervals n)).1

/-- The repository at the poll. -/
def repositoryAt : PeerRepository :=
  after (fun repository (interval : PollInterval) ↦
    interval.events.foldl DiscoveryEvent.apply repository) run.intervals run.known (n + 1)

def onlineAt : List DeviceId := (listOnlinePeers (run.repositoryAt n)).map Peer.deviceId

/-- Online, and not at the poll before. -/
def ComesOnline : Prop := d ∈ run.onlineAt n ∧ ∀ m, m + 1 = n → d ∉ run.onlineAt m

def SessionFails : Prop :=
  run.settings.sessionCoordinator = true ∧ ((run.intervals n).answers d).sessionRaises = true

structure PeersHandled : Prop where
  handled : ∀ n d, run.Polls n → run.ComesOnline n d → d ∈ run.handledAt n
  retried : ∀ n d, d ∈ run.handledAt n → run.SessionFails n d →
    (∀ m > n, run.Polls m ∧ d ∈ run.onlineAt m) → ∃ m > n, d ∈ run.handledAt m

/-- The devices that no earlier poll has found online. -/
def newAt : List DeviceId :=
  (run.onlineAt n).filter fun d ↦ ∀ m < n, d ∉ run.onlineAt m

/-- No call has raised for a device when it was new. -/
def Unbroken : Prop := ∀ m < n, ∀ d ∈ run.newAt m, ((run.intervals m).answers d).raises = false

structure Favourable : Prop where
  unseen : ∀ n d, run.Unbroken n → run.ComesOnline n d → d ∈ run.newAt n
  undisturbed : ∀ n, run.Unbroken n → ∀ d ∈ (run.newAt n).dropLast,
    ((run.intervals n).answers d).raises = false
  leaves : ∀ n d, (∀ m, run.Unbroken m) → d ∈ run.newAt n → run.SessionFails n d →
    ∃ m > n, d ∉ run.onlineAt m

variable {run} {n} {d}

/-- The loop at the poll. -/
def loopAt (run : PollRun) (n : ℕ) : DiscoveryLoop :=
  { run.loopBefore n with repository := run.repositoryAt n }

theorem repositoryAt_eq :
    run.repositoryAt n =
      (run.intervals n).events.foldl DiscoveryEvent.apply (run.loopBefore n).repository := by
  rw [repositoryAt, after]
  congr 1
  refine after_map (g := DiscoveryLoop.repository)
    (f := fun loop interval ↦ (run.settings.pass loop interval).2) (fun loop interval ↦ ?_)
    ⟨run.known, { state := .scanning }, true⟩ n
  rw [OrchestratorSettings.pass, OrchestratorSettings.repository_poll]

theorem pass_loopBefore :
    run.settings.pass (run.loopBefore n) (run.intervals n) =
      run.settings.poll (run.intervals n).answers (run.loopAt n) := by
  rw [OrchestratorSettings.pass, ← repositoryAt_eq]
  rfl

/-- The peers that the loop takes for new are new, if it remembers all that it has found. -/
theorem newPeers_loopAt
    (hactive : ∀ d, d ∈ (run.loopAt n).orchestrator.activePeers ↔ ∃ m < n, d ∈ run.onlineAt m) :
    ((run.loopAt n).orchestrator.newPeers (listOnlinePeers (run.loopAt n).repository)).map
      Peer.deviceId = run.newAt n := by
  have hnew : ∀ d, d ∉ (run.loopAt n).orchestrator.activePeers ↔ ∀ m < n, d ∉ run.onlineAt m := by
    intro d
    rw [hactive]
    simp only [not_exists, not_and]
  unfold newAt onlineAt SyncOrchestrator.newPeers
  rw [List.filter_map]
  simp only [hnew]
  rfl

theorem unbroken_succ :
    run.Unbroken (n + 1) ↔
      run.Unbroken n ∧ ∀ d ∈ run.newAt n, ((run.intervals n).answers d).raises = false := by
  constructor
  · exact fun h ↦ ⟨fun m hm ↦ h m (hm.trans n.lt_succ_self), h n n.lt_succ_self⟩
  · rintro ⟨hbefore, hlast⟩ m hm
    rcases Nat.lt_succ_iff_lt_or_eq.mp hm with hlt | rfl
    · exact hbefore m hlt
    · exact hlast

theorem mem_newAt : d ∈ run.newAt n ↔ d ∈ run.onlineAt n ∧ ∀ m < n, d ∉ run.onlineAt m := by
  rw [newAt, List.mem_filter, decide_eq_true_iff]

theorem seen_succ :
    (∃ m < n + 1, d ∈ run.onlineAt m) ↔ (∃ m < n, d ∈ run.onlineAt m) ∨ d ∈ run.newAt n := by
  rw [Nat.exists_lt_succ_right, mem_newAt]
  by_cases hseen : ∃ m < n, d ∈ run.onlineAt m
  · exact iff_of_true (.inl hseen) (.inl hseen)
  · rw [or_iff_right hseen, or_iff_right hseen, and_iff_left]
    exact fun m hm honline ↦ hseen ⟨m, hm, honline⟩

/-- The loop goes on as long as nothing has raised, and remembers all that it has found. -/
theorem loopBefore_spec (run : PollRun) (n : ℕ) :
    (run.Polls n ↔ run.Unbroken n) ∧
      (run.Unbroken n → ∀ d, d ∈ (run.loopBefore n).orchestrator.activePeers ↔
        ∃ m < n, d ∈ run.onlineAt m) := by
  induction n with
  | zero =>
      refine ⟨iff_of_true rfl fun m hm ↦ absurd hm (Nat.not_lt_zero m), fun _ d ↦ ?_⟩
      refine iff_of_false (Finset.notMem_empty d) ?_
      rintro ⟨m, hm, -⟩
      exact Nat.not_lt_zero m hm
  | succ n ih =>
      obtain ⟨hpolls, hactive⟩ := ih
      have hnext : run.loopBefore (n + 1) =
          (run.settings.poll (run.intervals n).answers (run.loopAt n)).2 :=
        congrArg Prod.snd pass_loopBefore
      rw [Polls, hnext, unbroken_succ]
      by_cases hunbroken : run.Unbroken n
      · have hnew := newPeers_loopAt (hactive hunbroken)
        by_cases hraises : ∀ d ∈ run.newAt n, ((run.intervals n).answers d).raises = false
        · have halive : (run.loopAt n).alive = true := hpolls.mpr hunbroken
          obtain ⟨halive', hactive'⟩ := run.settings.poll_of_not_raises halive
            (List.forall_mem_map.mp (hnew ▸ hraises))
          refine ⟨iff_of_true halive' ⟨hunbroken, hraises⟩, fun _ d ↦ ?_⟩
          rw [hactive', hnew, seen_succ]
          exact or_congr_left (hactive hunbroken d)
        · have hraised : ∃ d ∈ run.newAt n, ((run.intervals n).answers d).raises = true := by
            simpa using hraises
          obtain ⟨d, hd, hraised⟩ := hraised
          obtain ⟨peer, hpeer, rfl⟩ := List.mem_map.mp (hnew ▸ hd)
          have hdead := run.settings.alive_poll_of_raises
            ⟨peer, hpeer, hraised⟩
          refine ⟨iff_of_false ?_ fun h ↦ hraises h.2, fun h ↦ absurd h.2 hraises⟩
          rw [hdead]
          exact Bool.false_ne_true
      · have hdead : (run.loopAt n).alive = false :=
          Bool.eq_false_of_not_eq_true fun halive ↦ hunbroken (hpolls.mp halive)
        rw [run.settings.poll_of_not_alive _ hdead]
        refine ⟨iff_of_false ?_ fun h ↦ hunbroken h.1, fun h ↦ absurd h.1 hunbroken⟩
        rw [hdead]
        exact Bool.false_ne_true

theorem handledAt_of_unbroken (h : run.Unbroken n) :
    run.handledAt n = called (fun d ↦ ((run.intervals n).answers d).raises) (run.newAt n) := by
  obtain ⟨hpolls, hactive⟩ := run.loopBefore_spec n
  rw [handledAt, pass_loopBefore, ← newPeers_loopAt (hactive h)]
  exact run.settings.calls_poll (hpolls.mpr h)

/-- A device that is handled is new. -/
theorem mem_newAt_of_handled (h : d ∈ run.handledAt n) : run.Unbroken n ∧ d ∈ run.newAt n := by
  have hunbroken : run.Unbroken n := by
    rw [← (run.loopBefore_spec n).1]
    by_contra hnot
    have hdead : (run.loopAt n).alive = false := Bool.eq_false_of_not_eq_true hnot
    rw [handledAt, pass_loopBefore, run.settings.poll_of_not_alive _ hdead] at h
    cases h
  rw [handledAt_of_unbroken hunbroken] at h
  exact ⟨hunbroken, mem_of_mem_called h⟩

theorem nodup_newAt : (run.newAt n).Nodup :=
  (nodup_listOnlinePeers (run.repositoryAt n)).filter _

theorem comesOnline_of_new (h : d ∈ run.newAt n) : run.ComesOnline n d := by
  obtain ⟨honline, hnever⟩ := mem_newAt.mp h
  exact ⟨honline, fun m hm ↦ hnever m (hm ▸ m.lt_succ_self)⟩

theorem Unbroken.mono {m : ℕ} (h : run.Unbroken n) (hmn : m ≤ n) : run.Unbroken m :=
  fun k hk ↦ h k (hk.trans_le hmn)

theorem not_handled_again {m : ℕ} (hnm : n < m) (h : d ∈ run.newAt n) : d ∉ run.handledAt m :=
  fun hm ↦ (mem_newAt.mp (mem_newAt_of_handled hm).2).2 n hnm (mem_newAt.mp h).1

theorem PeersHandled.favourable (h : run.PeersHandled) : run.Favourable := by
  have hnew : ∀ n d, run.Unbroken n → d ∈ run.newAt n → d ∈ run.handledAt n :=
    fun n d hunbroken hd ↦
      h.handled n d ((run.loopBefore_spec n).1.mpr hunbroken) (comesOnline_of_new hd)
  refine ⟨?_, ?_, ?_⟩
  · intro n d hunbroken hcomes
    have hhandled := h.handled n d ((run.loopBefore_spec n).1.mpr hunbroken) hcomes
    exact (mem_newAt_of_handled hhandled).2
  · intro n hunbroken
    rw [← forall_mem_called nodup_newAt, ← handledAt_of_unbroken hunbroken]
    exact fun d ↦ hnew n d hunbroken
  · intro n d hunbroken hd hfails
    by_contra hleaves
    have honline : ∀ m > n, run.Polls m ∧ d ∈ run.onlineAt m := by
      intro m hm
      refine ⟨(run.loopBefore_spec m).1.mpr (hunbroken m), ?_⟩
      by_contra hoffline
      exact hleaves ⟨m, hm, hoffline⟩
    obtain ⟨m, hm, hagain⟩ := h.retried n d (hnew n d (hunbroken n) hd) hfails honline
    exact not_handled_again hm hd hagain

theorem Favourable.peersHandled (h : run.Favourable) : run.PeersHandled := by
  refine ⟨?_, ?_⟩
  · intro n d hpolls hcomes
    have hunbroken := (run.loopBefore_spec n).1.mp hpolls
    rw [handledAt_of_unbroken hunbroken]
    exact (forall_mem_called nodup_newAt).mpr (h.undisturbed n hunbroken) d
      (h.unseen n d hunbroken hcomes)
  · intro n d hhandled hfails honline
    have hunbroken : ∀ m, run.Unbroken m := by
      intro m
      have hlater : n < n + m + 1 := by omega
      exact ((run.loopBefore_spec _).1.mp (honline _ hlater).1).mono (by omega)
    obtain ⟨m, hm, hoffline⟩ := h.leaves n d hunbroken (mem_newAt_of_handled hhandled).2 hfails
    exact absurd (honline m hm).2 hoffline

end PollRun

/-- For every sequence of events, polls and answers: each peer that comes online is handled, and
again if its session has failed, exactly if no peer comes back, no call disturbs another,
and no peer whose session has failed stays. -/
theorem peersHandled_iff_favourable (run : PollRun) : run.PeersHandled ↔ run.Favourable :=
  ⟨PollRun.PeersHandled.favourable, PollRun.Favourable.peersHandled⟩

def samplePeer : Peer where
  identity := ⟨"device-b", "host-b", "ab"⟩
  address := ⟨"192.168.1.7", 47200⟩
  capabilities := { version := "1.0" }
  lastSeen := 0

/-- The peer comes, is lost, and comes back; nothing raises. -/
def returningPeer : PollRun where
  settings := ⟨true, true, true⟩
  known := ⟨[], List.nodup_nil⟩
  intervals n :=
    { events := match n with
        | 0 | 2 => [.discovered samplePeer]
        | 1 => [.lost "device-b"]
        | _ => []
      answers := fun _ ↦ ⟨false, some [], fun _ ↦ false⟩ }

/-- It is handled when it first comes, and not when it is back. -/
theorem not_handled_on_return :
    returningPeer.handledAt 0 = ["device-b"] ∧ returningPeer.Polls 2 ∧
      returningPeer.ComesOnline 2 "device-b" ∧ returningPeer.handledAt 2 = [] ∧
      ¬ returningPeer.PeersHandled := by
  have hpolls : returningPeer.Polls 2 := by decide
  have hcomes : returningPeer.ComesOnline 2 "device-b" := by
    refine ⟨by decide, fun m hm ↦ ?_⟩
    obtain rfl : m = 1 := by omega
    decide
  have hhandled : returningPeer.handledAt 2 = [] := by decide
  refine ⟨by decide, hpolls, hcomes, hhandled, fun h ↦ ?_⟩
  have hmem := h.handled 2 "device-b" hpolls hcomes
  rw [hhandled] at hmem
  cases hmem

end SecureSync.Orchestration
