import SecureSync.Library.KeyedTable
import Mathlib.Algebra.Notation.Defs
import Mathlib.Order.Lattice

/-!
# Debouncing

`debounce.py`: the ordered dictionary of `EventDebouncer`, and its calls with their readings
of the clock.
-/

namespace SecureSync

open KeyedTable

/-- Differences of readings may be rounded, as long as they keep the order. -/
structure EventDebouncer (T : Type) [LinearOrder T] [Zero T] [Sub T] where
  windowSeconds : T
  window_nonneg : 0 ≤ windowSeconds
  sub_self : ∀ t : T, t - t = 0
  sub_mono : ∀ {now later : T}, now ≤ later → ∀ t, now - t ≤ later - t
  sub_anti : ∀ {t t' : T}, t ≤ t' → ∀ now, now - t' ≤ now - t

/-- `OrderedDict`: the keys in the order in which they were emitted. -/
abbrev LastSeen (K T : Type) := Table (Prod.fst : K × T → K)

namespace EventDebouncer

variable {K T : Type} [DecidableEq K] [LinearOrder T] [Zero T] [Sub T]
  (debouncer : EventDebouncer T)

def moveToEnd (key : K) (lastSeen : LastSeen K T) : LastSeen K T where
  items := (lastSeen.items.filter fun entry ↦ entry.1 ≠ key) ++
    lastSeen.items.filter fun entry ↦ entry.1 = key
  nodup := by
    have hperm : ((lastSeen.items.filter fun entry ↦ entry.1 ≠ key) ++
        lastSeen.items.filter fun entry ↦ entry.1 = key).Perm lastSeen.items := by
      have hsplit := List.filter_append_perm (fun entry ↦ entry.1 ≠ key) lastSeen.items
      simpa using hsplit
    exact (hperm.map Prod.fst).nodup_iff.mpr lastSeen.nodup

/-- `_evict_stale`. -/
def evictStale (now : T) (lastSeen : LastSeen K T) : LastSeen K T where
  items := lastSeen.items.dropWhile fun entry ↦ ¬ now - entry.2 < debouncer.windowSeconds
  nodup := lastSeen.nodup.sublist ((List.dropWhile_sublist _).map Prod.fst)

def shouldEmit (key : K) (now : T) (lastSeen : LastSeen K T) : Bool × LastSeen K T :=
  if debouncer.windowSeconds = 0 then (true, lastSeen)
  else
    let lastSeen := debouncer.evictStale now lastSeen
    let suppressed := (lastSeen.find? key).any fun entry ↦ now - entry.2 < debouncer.windowSeconds
    if suppressed then (false, lastSeen)
    else (true, moveToEnd key (lastSeen.set (key, now)))

def reset : LastSeen K T := .empty

end EventDebouncer

end SecureSync
