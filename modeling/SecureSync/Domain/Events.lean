import SecureSync.Shared.PathText

/-!
# File-system events

`domain/events.py`, and `event_translator.py`, which makes them from what the
notification library reports.
-/

namespace SecureSync

inductive FileSystemEventType where
  | created
  | modified
  | deleted
  | moved
  deriving DecidableEq, Repr

def FileSystemEventType.value : FileSystemEventType → String
  | .created => "created"
  | .modified => "modified"
  | .deleted => "deleted"
  | .moved => "moved"

structure FileSystemEvent where
  eventType : FileSystemEventType
  srcPath : PurePath
  isDirectory : Bool
  destPath : Option PurePath
  dest_iff : destPath.isSome = true ↔ eventType = .moved
  deriving DecidableEq, Repr

abbrev DedupKey := String × List Char × List Char

/-- Without a destination the last component is the empty text. -/
def FileSystemEvent.dedupKey (flavour : Flavour) (event : FileSystemEvent) : DedupKey :=
  (event.eventType.value, flavour.text event.srcPath,
    (event.destPath.map flavour.text).getD [])

/-! ## Translation -/

/-- An event of the `watchdog` library. -/
structure RawEvent where
  eventType : String
  srcPath : List Char
  destPath : List Char
  isDirectory : Bool
  deriving DecidableEq, Repr

inductive TranslateError where
  | unrecognized (rawType : String)
  deriving DecidableEq, Repr

def eventTypeMap : List (String × FileSystemEventType) :=
  [("created", .created), ("modified", .modified), ("deleted", .deleted), ("moved", .moved)]

def translate (flavour : Flavour) (raw : RawEvent) : Except TranslateError FileSystemEvent :=
  match eventTypeMap.lookup raw.eventType with
  | none => .error (.unrecognized raw.eventType)
  | some eventType => .ok
      { eventType
        srcPath := flavour.parse raw.srcPath
        isDirectory := raw.isDirectory
        destPath := if eventType = .moved then some (flavour.parse raw.destPath) else none
        dest_iff := by by_cases h : eventType = .moved <;> simp [h] }

variable {flavour : Flavour}

theorem value_injective {kind kind' : FileSystemEventType} (h : kind.value = kind'.value) :
    kind = kind' := by
  cases kind <;> cases kind' <;> first | rfl | exact absurd h (by decide)

theorem text_parse_injective {path path' : List Char}
    (h : flavour.text (flavour.parse path) = flavour.text (flavour.parse path')) :
    flavour.parse path = flavour.parse path' := by
  have hread := congrArg flavour.parse h
  rwa [flavour.parse_text, flavour.parse_text] at hread

theorem translate_eq_ok {raw : RawEvent} {event : FileSystemEvent}
    (h : translate flavour raw = .ok event) :
    eventTypeMap.lookup raw.eventType = some event.eventType ∧
      event.srcPath = flavour.parse raw.srcPath ∧ event.isDirectory = raw.isDirectory ∧
      event.destPath = if event.eventType = .moved then some (flavour.parse raw.destPath)
        else none := by
  unfold translate at h
  split at h
  · cases h
  · rename_i eventType hlookup
    obtain rfl := Except.ok.inj h
    exact ⟨hlookup, rfl, rfl, rfl⟩

/-- The key of an event tells its kind and its paths. -/
theorem dedupKey_eq_iff {raw raw' : RawEvent} {event event' : FileSystemEvent}
    (h : translate flavour raw = .ok event) (h' : translate flavour raw' = .ok event') :
    event.dedupKey flavour = event'.dedupKey flavour ↔
      event.eventType = event'.eventType ∧ event.srcPath = event'.srcPath ∧
        event.destPath = event'.destPath := by
  obtain ⟨-, hsrc, -, hdest⟩ := translate_eq_ok h
  obtain ⟨-, hsrc', -, hdest'⟩ := translate_eq_ok h'
  constructor
  · intro hkey
    unfold FileSystemEvent.dedupKey at hkey
    obtain ⟨hvalue, hkey⟩ := Prod.mk.inj hkey
    obtain ⟨htext, htext'⟩ := Prod.mk.inj hkey
    have hkind : event.eventType = event'.eventType := value_injective hvalue
    refine ⟨hkind, ?_, ?_⟩
    · rw [hsrc, hsrc'] at htext ⊢
      exact text_parse_injective htext
    · rw [hdest, hdest', ← hkind] at htext' ⊢
      split_ifs at htext' ⊢ with hmoved
      · exact congrArg some (text_parse_injective htext')
      · trivial
  · rintro ⟨hkind, hpath, hpath'⟩
    rw [FileSystemEvent.dedupKey, FileSystemEvent.dedupKey, hkind, hpath, hpath']

end SecureSync
