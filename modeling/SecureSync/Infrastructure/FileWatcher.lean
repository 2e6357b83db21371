import SecureSync.Domain.Events
import SecureSync.Infrastructure.EventDebouncer
import SecureSync.Library.Multicast

/-!
# The file watcher

`WatchdogFileWatcher` of `watchdog_watcher.py`.  `start` and `stop` run on the event loop and
the handler on a thread of the notification library, one statement of either at a time;
`_notify_observers` is a task of the loop, and gives way wherever an observer does.
-/

namespace SecureSync

open Multicast

/-- Where the thread of a watchdog observer stands in `on_any_event`. -/
inductive HandlerPc (T : Type) where
  | waiting
  | translated (event : FileSystemEvent)
  | clocked (event : FileSystemEvent) (now : T)
  | accepted (event : FileSystemEvent)
  | dispatching (event : FileSystemEvent) (loop : ℕ)
  | ended
  deriving DecidableEq

/-- `told`: `stop()` has been called. -/
structure WatchThread (T : Type) where
  pc : HandlerPc T := .waiting
  told : Bool := false

/-- The next statement of `start` or `stop`, which await nothing under the lock. -/
inductive ControlPc where
  | idle
  | schedule
  | keep (thread : ℕ)
  | announce
  | release (thread : ℕ)
  | forget (thread : ℕ)
  | halt (thread : ℕ)
  deriving DecidableEq

/-- A task of `_notify_observers` on an event loop. -/
structure Notification (ω : Type) where
  event : FileSystemEvent
  loop : ℕ
  delivery : Multicast.Delivery ω
  deriving DecidableEq

structure WatcherState (ω T : Type) where
  observers : List ω := []
  loop : Option ℕ := none
  watchdogObserver : Option ℕ := none
  running : Bool := false
  lastSeen : LastSeen DedupKey T := ⟨[], List.nodup_nil⟩
  control : ControlPc := .idle
  threads : List (WatchThread T) := []
  closedLoops : List ℕ := []
  notifications : List (Notification ω) := []
  /-- Which notification called `on_file_event` of whom. -/
  calls : List (ℕ × ω) := []

/-- How a call of `on_file_event` ends; an `Exception` is logged. -/
inductive ObserverEnd where
  | returned
  | raised
  | cancelled
  deriving DecidableEq

inductive WatcherStep (ω T : Type) where
  /-- An object without `on_file_event` is refused with a `TypeError`. -/
  | subscribe (observer : ω) (implements : Bool)
  | unsubscribe (observer : ω)
  /-- `valid`: every path exists and is a directory. -/
  | start (loop : ℕ) (valid : Bool)
  | stop
  /-- The next statement; `fails` matters where the watchdog observer is started. -/
  | control (fails : Bool)
  | rawEvent (thread : ℕ) (raw : RawEvent)
  | readClock (thread : ℕ) (now : T)
  | debounce (thread : ℕ)
  | readLoop (thread : ℕ)
  | dispatch (thread : ℕ)
  | threadEnds (thread : ℕ)
  | closeLoop (loop : ℕ)
  | beginNotify (loop : ℕ)
  | observerEnds (notification : ℕ) (result : ObserverEnd)

namespace WatcherState

variable {ω T : Type} [DecidableEq ω] [LinearOrder T] [Zero T] [Sub T]
  (flavour : Flavour) (debouncer : EventDebouncer T) (s : WatcherState ω T)

/-! ## Subscriptions -/

def subscribe (observer : ω) (implements : Bool) : WatcherState ω T :=
  if implements then
    if observer ∈ s.observers then s else { s with observers := s.observers ++ [observer] }
  else s

def unsubscribe (observer : ω) : WatcherState ω T :=
  { s with observers := s.observers.erase observer }

/-! ## Lifecycle -/

/-- `start` up to `_loop`; a running watcher or a bad path raises. -/
def start (loop : ℕ) (valid : Bool) : WatcherState ω T :=
  if s.control = .idle ∧ ¬ s.running ∧ valid then { s with loop := some loop, control := .schedule }
  else s

/-- `stop` up to the first assignment. -/
def stop : WatcherState ω T :=
  match s.control, s.running, s.watchdogObserver with
  | .idle, true, some thread => { s with running := false, control := .release thread }
  | _, _, _ => s

def tellThread (thread : ℕ) : List (WatchThread T) :=
  s.threads.modify thread fun t ↦ { t with told := true }

def runControl (fails : Bool) : WatcherState ω T :=
  match s.control with
  | .idle => s
  | .schedule =>
      -- `FileWatcherError`: `_loop` stays
      if fails then { s with control := .idle }
      else { s with threads := s.threads ++ [{}], control := .keep s.threads.length }
  | .keep thread => { s with watchdogObserver := some thread, control := .announce }
  | .announce => { s with running := true, control := .idle }
  | .release thread => { s with watchdogObserver := none, control := .forget thread }
  | .forget thread => { s with loop := none, control := .halt thread }
  | .halt thread => { s with threads := s.tellThread thread, control := .idle }

/-! ## The handler -/

def setPc (thread : ℕ) (pc : HandlerPc T) : WatcherState ω T :=
  { s with threads := s.threads.modify thread fun t ↦ { t with pc } }

def pc? (thread : ℕ) : Option (HandlerPc T) := (s.threads[thread]?).map WatchThread.pc

/-- An event that is not translated is logged. -/
def rawEvent (thread : ℕ) (raw : RawEvent) : WatcherState ω T :=
  match s.pc? thread, translate flavour raw with
  | some .waiting, .ok event => s.setPc thread (.translated event)
  | _, _ => s

def readClock (thread : ℕ) (now : T) : WatcherState ω T :=
  match s.pc? thread with
  | some (.translated event) => s.setPc thread (.clocked event now)
  | _ => s

/-- `should_emit` under the lock of the debouncer. -/
def debounce (thread : ℕ) : WatcherState ω T :=
  match s.pc? thread with
  | some (.clocked event now) =>
      let (emits, lastSeen) := debouncer.shouldEmit (event.dedupKey flavour) now s.lastSeen
      setPc { s with lastSeen } thread (if emits then .accepted event else .waiting)
  | _ => s

def readLoop (thread : ℕ) : WatcherState ω T :=
  match s.pc? thread with
  | some (.accepted event) =>
      match s.loop with
      | none => s.setPc thread .waiting
      | some loop =>
          if loop ∈ s.closedLoops then s.setPc thread .waiting
          else s.setPc thread (.dispatching event loop)
  | _ => s

/-- `run_coroutine_threadsafe`; a loop that has been closed meanwhile raises, which is logged. -/
def dispatch (thread : ℕ) : WatcherState ω T :=
  match s.pc? thread with
  | some (.dispatching event loop) =>
      if loop ∈ s.closedLoops then s.setPc thread .waiting
      else
        setPc { s with notifications := s.notifications ++ [⟨event, loop, .waiting⟩] } thread
          .waiting
  | _ => s

/-- A thread that has been told to stop ends between two events. -/
def threadEnds (thread : ℕ) : WatcherState ω T :=
  match s.threads[thread]? with
  | some ⟨.waiting, true⟩ => s.setPc thread .ended
  | _ => s

/-! ## Notifications -/

def setDelivery (notification : ℕ) (delivery : Multicast.Delivery ω) : WatcherState ω T :=
  { s with notifications := s.notifications.modify notification fun n ↦ { n with delivery } }

/-- The task goes on to the next observer. -/
def proceed (notification : ℕ) (called rest : List ω) : WatcherState ω T :=
  { s.setDelivery notification (.proceed called rest) with
    calls := s.calls ++ rest.head?.toList.map (notification, ·) }

/-- The tasks of a loop begin in the order in which they were handed over. -/
def nextQueued (loop : ℕ) : Option ℕ :=
  s.notifications.findIdx? fun n ↦ n.loop = loop ∧ n.delivery = .waiting

def beginNotify (loop : ℕ) : WatcherState ω T :=
  if loop ∈ s.closedLoops then s
  else
    match s.nextQueued loop with
    | none => s
    | some notification => s.proceed notification [] s.observers

def observerEnds (notification : ℕ) (result : ObserverEnd) : WatcherState ω T :=
  match s.notifications[notification]? with
  | some ⟨_, loop, .passing called rest⟩ =>
      if loop ∈ s.closedLoops then s
      else
        match result with
        | .returned | .raised => s.proceed notification called rest
        | .cancelled => s.setDelivery notification (.ended called rest)
  | _ => s

def step (s : WatcherState ω T) : WatcherStep ω T → WatcherState ω T
  | .subscribe observer implements => s.subscribe observer implements
  | .unsubscribe observer => s.unsubscribe observer
  | .start loop valid => s.start loop valid
  | .stop => s.stop
  | .control fails => s.runControl fails
  | .rawEvent thread raw => s.rawEvent flavour thread raw
  | .readClock thread now => s.readClock thread now
  | .debounce thread => s.debounce flavour debouncer thread
  | .readLoop thread => s.readLoop thread
  | .dispatch thread => s.dispatch thread
  | .threadEnds thread => s.threadEnds thread
  | .closeLoop loop => { s with closedLoops := loop :: s.closedLoops }
  | .beginNotify loop => s.beginNotify loop
  | .observerEnds notification result => s.observerEnds notification result

def run (s : WatcherState ω T) (steps : List (WatcherStep ω T)) : WatcherState ω T :=
  steps.foldl (step flavour debouncer) s

end WatcherState

end SecureSync
