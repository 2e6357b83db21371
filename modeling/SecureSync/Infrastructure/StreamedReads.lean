import SecureSync.Infrastructure.StreamingChunkReader

/-!
# Short reads

The loop of `_stream_chunks` call by call: `readinto` may return early, and a
strategy may answer every call of `next_cut` in its own way.
-/

namespace SecureSync

/-! ## Reading a block -/

/-- What is left of the file, and the calls of `readinto` made on it. -/
structure OpenFile where
  unread : Bytes
  calls : ℕ

/-- How many bytes `readinto` returns for a view: none only at the end of the file. -/
def readInto (ready view : ℕ) (unread : Bytes) : ℕ := min (max 1 ready) (min view unread.length)

/-- `_read_full`: it fills the view, or ends with the file.  Every call but the last
reads a byte at least, which bounds the rounds of its loop. -/
def readFull (ready : ℕ → ℕ) : ℕ → ℕ → OpenFile → Bytes × OpenFile
  | 0, _, file => ([], file)
  | rounds + 1, view, file =>
      if view = 0 then ([], file)
      else
        let n := readInto (ready file.calls) view file.unread
        let next : OpenFile := ⟨file.unread.drop n, file.calls + 1⟩
        if n = 0 then ([], next)
        else
          let later := readFull ready rounds (view - n) next
          (file.unread.take n ++ later.1, later.2)

/-- Whatever the calls return, the block is full unless the file ends. -/
theorem readFull_spec (ready : ℕ → ℕ) {rounds view : ℕ} (h : view ≤ rounds) (file : OpenFile) :
    (readFull ready rounds view file).1 = file.unread.take view ∧
      (readFull ready rounds view file).2.unread = file.unread.drop view := by
  induction rounds generalizing view file with
  | zero =>
      obtain rfl : view = 0 := by omega
      exact ⟨rfl, rfl⟩
  | succ rounds ih =>
      unfold readFull
      dsimp only
      have hle : readInto (ready file.calls) view file.unread ≤ view :=
        (min_le_right _ _).trans (min_le_left _ _)
      split_ifs with hview hnone
      · rw [hview]
        exact ⟨rfl, rfl⟩
      · have hended : file.unread = [] := by
          rw [← List.length_eq_zero_iff]
          unfold readInto at hnone
          omega
        rw [hended]
        simp
      · have hround : view - readInto (ready file.calls) view file.unread ≤ rounds := by omega
        obtain ⟨hread, hleft⟩ := ih hround
          ⟨file.unread.drop (readInto (ready file.calls) view file.unread), file.calls + 1⟩
        rw [hread, hleft, ← List.take_add, List.drop_drop, Nat.add_sub_cancel' hle]
        exact ⟨rfl, rfl⟩

/-! ## The loop -/

/-- `nextCut n` is the answer to call number `n`. -/
structure StatefulStrategy where
  nextCut : ℕ → Bytes → Bool → Option ℤ
  preferredReadBlockSize : ℤ
  name : String

namespace StatefulStrategy

/-- The strategy as call number `n` finds it. -/
def after (strategy : StatefulStrategy) (n : ℕ) : ChunkingStrategy where
  nextCut := strategy.nextCut n
  preferredReadBlockSize := strategy.preferredReadBlockSize
  name := strategy.name

def Honours (strategy : StatefulStrategy) : Prop := ∀ n, (strategy.after n).Honours

def blockSize (strategy : StatefulStrategy) : ℕ := readBlockSize (strategy.after 0)

end StatefulStrategy

structure StreamState extends ReaderState where
  reads : ℕ
  cuts : ℕ

def StreamState.start (content : Bytes) : StreamState := ⟨⟨content, [], 0, 0⟩, 0, 0⟩

section Loop

variable (reader : StreamingChunkReader) (path : FilePath) (strategy : StatefulStrategy)
  (ready : ℕ → ℕ)

def StreamState.block (s : StreamState) : Bytes × OpenFile :=
  readFull ready strategy.blockSize strategy.blockSize ⟨s.unread, s.reads⟩

/-- The accumulator once the block is in it. -/
def StreamState.buffered (s : StreamState) : Bytes := s.accumulator ++ (s.block strategy ready).1

def StreamState.atEof (s : StreamState) : Bool := (s.block strategy ready).1.isEmpty

/-- One turn of the loop, on the block that it has read. -/
def StreamState.turn (s : StreamState) : ReadStep :=
  let accumulator := s.buffered strategy ready
  let atEof := s.atEof strategy ready
  let unread := (s.block strategy ready).2.unread
  match strategy.nextCut s.cuts accumulator atEof with
  | none => if atEof then .finished else .readOn { s with unread, accumulator }
  | some cut =>
      if cut ≤ 0 then .raised (.nonPositiveCut strategy.name cut)
      else
        let data := accumulator.take cut.toNat
        let rest := accumulator.drop cut.toNat
        .yielded (cutChunk reader path s.toReaderState data)
          (if atEof && rest.isEmpty then none
          else some ⟨unread, rest, s.index + 1, s.offset + data.length⟩)

def StreamState.next (s : StreamState) (left : ReaderState) : StreamState :=
  ⟨left, (s.block strategy ready).2.calls, s.cuts + 1⟩

/-- The chunks yielded and the error raised, unless the loop needs more turns. -/
def streamCalls : ℕ → StreamState → Option (List Chunk × Option ChunkSourceError)
  | 0, _ => none
  | turns + 1, s =>
      match s.turn reader path strategy ready with
      | .finished => some ([], none)
      | .readOn left => streamCalls turns (s.next strategy ready left)
      | .raised error => some ([], some error)
      | .yielded chunk none => some ([chunk], none)
      | .yielded chunk (some left) =>
          (streamCalls turns (s.next strategy ready left)).map fun later ↦
            (chunk :: later.1, later.2)

variable {reader path strategy ready}

/-- Short reads make no difference to a turn. -/
theorem StreamState.turn_eq (s : StreamState) :
    s.turn reader path strategy ready =
      readStep reader path (strategy.after s.cuts) s.toReaderState := by
  obtain ⟨hread, hleft⟩ := readFull_spec ready (le_refl strategy.blockSize) ⟨s.unread, s.reads⟩
  unfold turn readStep
  rw [← StreamState.block] at hread hleft
  dsimp only [buffered, atEof]
  rw [hread, hleft]
  rfl

theorem StreamState.turn_finished {s : StreamState}
    (h : s.turn reader path strategy ready = .finished) : s.atEof strategy ready = true := by
  unfold turn at h
  dsimp only at h
  split at h <;> split_ifs at h with heof
  exact heof

theorem StreamState.turn_readOn {s : StreamState} {left : ReaderState}
    (h : s.turn reader path strategy ready = .readOn left) :
    strategy.nextCut s.cuts (s.buffered strategy ready) (s.atEof strategy ready) = none ∧
      left.unread = (s.block strategy ready).2.unread ∧
      left.accumulator = s.buffered strategy ready := by
  unfold turn at h
  dsimp only at h
  split at h
  · next hcut =>
      split_ifs at h
      cases h
      exact ⟨hcut, rfl, rfl⟩
  · split_ifs at h

theorem StreamState.turn_yielded {s : StreamState} {chunk : Chunk} {left : Option ReaderState}
    (h : s.turn reader path strategy ready = .yielded chunk left) :
    ∃ cut : ℤ, 0 < cut ∧
      strategy.nextCut s.cuts (s.buffered strategy ready) (s.atEof strategy ready) = some cut ∧
      chunk.data = (s.buffered strategy ready).take cut.toNat ∧
      (left = none ↔
        s.atEof strategy ready = true ∧ (s.buffered strategy ready).length ≤ cut.toNat) ∧
      ∀ next, left = some next → next.unread = (s.block strategy ready).2.unread ∧
        next.accumulator = (s.buffered strategy ready).drop cut.toNat := by
  unfold turn at h
  dsimp only at h
  split at h
  · split_ifs at h
  · next cut hcut =>
      split_ifs at h with hpos hlast
      · cases h
        refine ⟨cut, by omega, hcut, rfl, ?_, by simp⟩
        simpa [List.drop_eq_nil_iff] using hlast
      · cases h
        refine ⟨cut, by omega, hcut, rfl, ?_, ?_⟩
        · simpa [List.drop_eq_nil_iff] using hlast
        · intro next hnext
          cases hnext
          exact ⟨rfl, rfl⟩

variable (reader path ready) in
/-- A turn of a strategy that keeps its contract: nothing is left, or the rounds
left get fewer, or the last chunk is cut. -/
theorem StreamState.turn_cases (hs : strategy.Honours) (s : StreamState) :
    (s.turn reader path strategy ready = .finished ∧ s.accumulator ++ s.unread = []) ∨
    (∃ left, s.turn reader path strategy ready = .readOn left ∧ left.index = s.index ∧
      left.offset = s.offset ∧ left.accumulator ++ left.unread = s.accumulator ++ s.unread ∧
      left.rounds < s.rounds) ∨
    (∃ data, data ≠ [] ∧ s.turn reader path strategy ready =
      .yielded (cutChunk reader path s.toReaderState data) none ∧
      s.accumulator ++ s.unread = data) ∨
    ∃ data left, data ≠ [] ∧ s.turn reader path strategy ready =
      .yielded (cutChunk reader path s.toReaderState data) (some left) ∧
      left.index = s.index + 1 ∧ left.offset = s.offset + data.length ∧
      data ++ (left.accumulator ++ left.unread) = s.accumulator ++ s.unread ∧
      left.rounds < s.rounds := by
  rw [turn_eq]
  cases hcut : (strategy.after s.cuts).nextCut
      (s.accumulator ++ s.unread.take (readBlockSize (strategy.after s.cuts)))
      (s.unread.take (readBlockSize (strategy.after s.cuts))).isEmpty with
  | none =>
      rcases readStep_of_none reader path (hs s.cuts) hcut with hend | hread
      · exact .inl hend
      · exact .inr (.inl hread)
  | some cut =>
      obtain ⟨data, hdata, hlast | ⟨left, hleft⟩⟩ := readStep_of_some reader path (hs s.cuts) hcut
      · exact .inr (.inr (.inl ⟨data, hdata, hlast⟩))
      · exact .inr (.inr (.inr ⟨data, left, hdata, hleft⟩))

variable (reader path ready) in
/-- The loop ends, and its chunks tile what was buffered or unread. -/
theorem exists_streamCalls (hs : strategy.Honours) (s : StreamState) :
    ∃ chunks, Tiles s.index s.offset (s.accumulator ++ s.unread) chunks ∧
      ∀ turns, s.rounds < turns →
        streamCalls reader path strategy ready turns s = some (chunks, none) := by
  induction hn : s.rounds using Nat.strong_induction_on generalizing s with
  | _ n ih =>
      subst hn
      rcases s.turn_cases reader path ready hs with ⟨hturn, hnil⟩ |
          ⟨left, hturn, hindex, hoffset, hrest, hrounds⟩ | ⟨data, hdata, hturn, hall⟩ |
          ⟨data, left, hdata, hturn, hindex, hoffset, hrest, hrounds⟩
      · refine ⟨[], hnil ▸ Tiles.nil _ _, fun turns hturns ↦ ?_⟩
        obtain ⟨turns, rfl⟩ := Nat.exists_eq_add_of_lt hturns
        simp [streamCalls, hturn]
      · obtain ⟨chunks, htiles, hcalls⟩ := ih _ hrounds (s.next strategy ready left) rfl
        refine ⟨chunks, ?_, fun turns hturns ↦ ?_⟩
        · rw [← hindex, ← hoffset, ← hrest]
          exact htiles
        · obtain ⟨turns, rfl⟩ := Nat.exists_eq_succ_of_ne_zero (by omega : turns ≠ 0)
          simp only [streamCalls, hturn]
          exact hcalls turns (by omega)
      · have hone := Tiles.cons reader path (s := s.toReaderState) hdata
          (Tiles.nil (s.index + 1) (s.offset + data.length))
        refine ⟨_, by simpa [hall] using hone, fun turns hturns ↦ ?_⟩
        obtain ⟨turns, rfl⟩ := Nat.exists_eq_succ_of_ne_zero (by omega : turns ≠ 0)
        simp only [streamCalls, hturn]
      · obtain ⟨chunks, htiles, hcalls⟩ := ih _ hrounds (s.next strategy ready left) rfl
        have hcons : Tiles (s.index + 1) (s.offset + data.length)
            (left.accumulator ++ left.unread) chunks := by
          rw [← hindex, ← hoffset]
          exact htiles
        refine ⟨_, hrest ▸ hcons.cons reader path hdata, fun turns hturns ↦ ?_⟩
        obtain ⟨turns, rfl⟩ := Nat.exists_eq_succ_of_ne_zero (by omega : turns ≠ 0)
        have hlater := hcalls turns (by omega)
        simp only [streamCalls, hturn, hlater, Option.map_some]

end Loop

end SecureSync
