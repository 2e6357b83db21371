import SecureSync.Properties.StreamedFile

/-!
# The reader's buffer

Every turn of the loop reads a block and makes at most one cut, so a strategy
that cuts less than a block at a time lets the accumulator grow with the file.
-/

namespace SecureSync

/-! ## The answers of a strategy -/

namespace StatefulStrategy

/-- Before the end of the file, an answer to more than `M` bytes, and a block more at
most, is a cut that leaves at most `M`. -/
def CutsBack (strategy : StatefulStrategy) (M : ℕ) : Prop :=
  ∀ n buffered, M < buffered.length → buffered.length ≤ M + strategy.blockSize →
    ∃ cut : ℤ, strategy.nextCut n buffered false = some cut ∧ buffered.length ≤ M + cut

/-- Before the end of the file, no answer to a block or more is a cut of a block. -/
def Lags (strategy : StatefulStrategy) : Prop :=
  ∀ n buffered cut, strategy.blockSize ≤ buffered.length →
    strategy.nextCut n buffered false = some cut → cut < strategy.blockSize

theorem blockSize_pos (strategy : StatefulStrategy) : 0 < strategy.blockSize := readBlockSize_pos _

end StatefulStrategy

namespace FixedSizeChunkingStrategy

variable (f : FixedSizeChunkingStrategy)

/-- The hint of the fixed-size strategy is its chunk size. -/
theorem blockSize_inBlocksOf_le : (f.inBlocksOf f.chunkSize).blockSize ≤ f.chunkSize := by
  have hpos := f.chunkSize_pos
  unfold StatefulStrategy.blockSize readBlockSize
  dsimp only [StatefulStrategy.after, inBlocksOf]
  omega

theorem cutsBack : (f.inBlocksOf f.chunkSize).CutsBack f.chunkSize := by
  intro n buffered hlong hshort
  have hblock := f.blockSize_inBlocksOf_le
  refine ⟨f.chunkSize, ?_, by omega⟩
  dsimp only [inBlocksOf, toStrategy]
  rw [if_pos hlong.le]

end FixedSizeChunkingStrategy

/-! ## The run of the loop -/

section Run

variable (reader : StreamingChunkReader) (path : FilePath) (strategy : StatefulStrategy)
  (ready : ℕ → ℕ)

/-- The state at the start of the next turn, if there is one. -/
def StreamState.step (s : StreamState) : Option StreamState :=
  match s.turn reader path strategy ready with
  | .readOn left => some (s.next strategy ready left)
  | .yielded _ (some left) => some (s.next strategy ready left)
  | _ => none

/-- The state at the start of turn number `n`. -/
def turnState (content : Bytes) : ℕ → Option StreamState
  | 0 => some (.start content)
  | n + 1 => (turnState content n).bind fun s ↦ s.step reader path strategy ready

variable {reader path strategy ready} {content : Bytes} {s t : StreamState} {M n : ℕ}

theorem StreamState.block_fst (s : StreamState) :
    (s.block strategy ready).1 = s.unread.take strategy.blockSize :=
  (readFull_spec ready (le_refl strategy.blockSize) ⟨s.unread, s.reads⟩).1

theorem StreamState.block_unread (s : StreamState) :
    (s.block strategy ready).2.unread = s.unread.drop strategy.blockSize :=
  (readFull_spec ready (le_refl strategy.blockSize) ⟨s.unread, s.reads⟩).2

theorem StreamState.length_buffered (s : StreamState) : (s.buffered strategy ready).length =
    s.accumulator.length + min strategy.blockSize s.unread.length := by
  rw [buffered, List.length_append, block_fst, List.length_take]

theorem StreamState.atEof_eq (s : StreamState) :
    s.atEof strategy ready = decide (s.unread = []) := by
  rw [atEof, block_fst, Bool.eq_iff_iff, List.isEmpty_iff, List.take_eq_nil_iff,
    decide_eq_true_iff, or_iff_right strategy.blockSize_pos.ne']

/-- A turn that does not end the run reads a block, and cuts or does not. -/
theorem StreamState.step_cases (h : s.step reader path strategy ready = some t) :
    t.unread = s.unread.drop strategy.blockSize ∧
      (strategy.nextCut s.cuts (s.buffered strategy ready) (s.atEof strategy ready) = none ∧
          t.accumulator = s.buffered strategy ready ∨
        ∃ cut : ℤ, 0 < cut ∧
          strategy.nextCut s.cuts (s.buffered strategy ready) (s.atEof strategy ready) =
            some cut ∧
          t.accumulator = (s.buffered strategy ready).drop cut.toNat) := by
  unfold step at h
  split at h
  · next left hturn =>
      obtain ⟨hcut, hunread, haccumulator⟩ := turn_readOn hturn
      cases h
      exact ⟨hunread.trans s.block_unread, .inl ⟨hcut, haccumulator⟩⟩
  · next chunk left hturn =>
      obtain ⟨cut, hpos, hcut, -, -, hleft⟩ := turn_yielded hturn
      obtain ⟨hunread, haccumulator⟩ := hleft left rfl
      cases h
      exact ⟨hunread.trans s.block_unread, .inr ⟨cut, hpos, hcut, haccumulator⟩⟩
  · cases h

/-- The run goes on as long as the file is not read to its end. -/
theorem StreamState.exists_step (hs : strategy.Honours) (h : s.unread ≠ []) :
    ∃ t, s.step reader path strategy ready = some t := by
  have heof : s.atEof strategy ready = false := by
    rw [atEof_eq]
    exact decide_eq_false h
  unfold step
  rcases s.turn_cases reader path ready hs with ⟨hturn, -⟩ | ⟨left, hturn, -⟩ |
      ⟨data, -, hturn, -⟩ | ⟨data, left, -, hturn, -⟩
  · rw [turn_finished hturn] at heof
    cases heof
  · exact ⟨_, by rw [hturn]⟩
  · obtain ⟨cut, -, -, -, hlast, -⟩ := turn_yielded hturn
    rw [heof] at hlast
    simp at hlast
  · exact ⟨_, by rw [hturn]⟩

/-! ### A strategy that cuts back -/

/-- At most `M` bytes are left over, and one block more once the file is read. -/
def StreamState.Level (strategy : StatefulStrategy) (M : ℕ) (s : StreamState) : Prop :=
  s.accumulator.length ≤ M ∨ s.unread = [] ∧ s.accumulator.length ≤ M + strategy.blockSize

theorem StreamState.Level.buffered_le (h : s.Level strategy M) :
    (s.buffered strategy ready).length ≤ M + strategy.blockSize := by
  rw [length_buffered]
  rcases h with hfew | ⟨hend, hmore⟩
  · omega
  · rw [hend, List.length_nil]
    omega

theorem StreamState.Level.step (hcuts : strategy.CutsBack M) (h : s.Level strategy M)
    (hstep : s.step reader path strategy ready = some t) : t.Level strategy M := by
  obtain ⟨hunread, haccumulator⟩ := step_cases hstep
  have hbuffered : (s.buffered strategy ready).length ≤ M + strategy.blockSize := h.buffered_le
  by_cases hend : s.unread = []
  · -- nothing is read any more, and what is left gets no longer
    refine .inr ⟨by rw [hunread, hend, List.drop_nil], ?_⟩
    rcases haccumulator with ⟨-, heq⟩ | ⟨cut, -, -, heq⟩
    · rw [heq]
      exact hbuffered
    · rw [heq, List.length_drop]
      omega
  · have heof : s.atEof strategy ready = false := by
      rw [atEof_eq]
      exact decide_eq_false hend
    rw [heof] at haccumulator
    refine .inl ?_
    by_cases hfew : (s.buffered strategy ready).length ≤ M
    · rcases haccumulator with ⟨-, heq⟩ | ⟨cut, -, -, heq⟩
      · rw [heq]
        exact hfew
      · rw [heq, List.length_drop]
        omega
    · obtain ⟨cut, hcut, hleft⟩ := hcuts s.cuts _ (not_le.mp hfew) hbuffered
      rcases haccumulator with ⟨hnone, -⟩ | ⟨cut', -, hcut', heq⟩
      · rw [hcut] at hnone
        cases hnone
      · obtain rfl : cut = cut' := Option.some.inj (hcut.symm.trans hcut')
        rw [heq, List.length_drop]
        omega

theorem level_turnState (hcuts : strategy.CutsBack M)
    (h : turnState reader path strategy ready content n = some s) : s.Level strategy M := by
  induction n generalizing s with
  | zero =>
      cases h
      exact .inl (Nat.zero_le M)
  | succ n ih =>
      obtain ⟨prev, hprev, hstep⟩ := Option.bind_eq_some_iff.mp h
      exact (ih hprev).step hcuts hstep

/-- With the strategy that ships, the reader never holds more than two chunks. -/
theorem FixedSizeChunkingStrategy.buffered_le (f : FixedSizeChunkingStrategy)
    (h : turnState reader path (f.inBlocksOf f.chunkSize) ready content n = some s) :
    (s.buffered (f.inBlocksOf f.chunkSize) ready).length ≤ f.chunkSize + f.chunkSize :=
  (level_turnState f.cutsBack h).buffered_le.trans
    (Nat.add_le_add_left f.blockSize_inBlocksOf_le _)

/-! ### A strategy that lags -/

/-- After `n` turns on whole blocks, at least `n` bytes are left over. -/
theorem exists_turnState_of_lags (reader : StreamingChunkReader) (path : FilePath)
    (ready : ℕ → ℕ) (hs : strategy.Honours) (hlags : strategy.Lags)
    (hlong : n * strategy.blockSize ≤ content.length) :
    ∃ s, turnState reader path strategy ready content n = some s ∧
      s.unread = content.drop (n * strategy.blockSize) ∧ n ≤ s.accumulator.length := by
  induction n with
  | zero => exact ⟨_, rfl, by simp [StreamState.start], Nat.zero_le _⟩
  | succ n ih =>
      rw [Nat.succ_mul] at hlong
      have hblock := strategy.blockSize_pos
      obtain ⟨s, hstate, hunread, hleft⟩ := ih (by omega)
      have hlength : strategy.blockSize ≤ s.unread.length := by
        rw [hunread, List.length_drop]
        omega
      have hmore : s.unread ≠ [] := List.ne_nil_of_length_pos (hblock.trans_le hlength)
      have heof : s.atEof strategy ready = false := by
        rw [StreamState.atEof_eq]
        exact decide_eq_false hmore
      obtain ⟨t, ht⟩ : ∃ t, s.step reader path strategy ready = some t := s.exists_step hs hmore
      obtain ⟨hunread', haccumulator⟩ := StreamState.step_cases ht
      refine ⟨t, ?_, ?_, ?_⟩
      · rw [turnState, hstate, Option.bind_some, ht]
      · rw [hunread', hunread, List.drop_drop, Nat.succ_mul]
      · have hbuffered : (s.buffered strategy ready).length =
            s.accumulator.length + strategy.blockSize := by
          rw [StreamState.length_buffered, min_eq_left hlength]
        rw [heof] at haccumulator
        rcases haccumulator with ⟨-, heq⟩ | ⟨cut, -, hcut, heq⟩
        · rw [heq]
          omega
        · have hshort := hlags _ _ _ (by omega) hcut
          rw [heq, List.length_drop]
          omega

end Run

/-- If, before the end of the file, whatever more than `M` bytes are in the buffer is cut
back to `M`, then on no file does the buffer exceed `M` bytes and one block; if every cut
is below a block, then it does on every file that is long enough. -/
theorem buffered_le_of_cutsBack (reader : StreamingChunkReader) (path : FilePath)
    (strategy : StatefulStrategy) (hs : strategy.Honours) (ready : ℕ → ℕ) (M : ℕ) :
    (strategy.CutsBack M →
        ∀ content n s, turnState reader path strategy ready content n = some s →
          (s.buffered strategy ready).length ≤ M + strategy.blockSize) ∧
      (strategy.Lags →
        ∀ content : Bytes, (M + 2) * strategy.blockSize ≤ content.length →
          ∃ n s, turnState reader path strategy ready content n = some s ∧
            M + strategy.blockSize < (s.buffered strategy ready).length) := by
  constructor
  · intro hcuts content n s hstate
    exact (level_turnState hcuts hstate).buffered_le
  · intro hlags content hlong
    rw [show (M + 2) * strategy.blockSize =
      (M + 1) * strategy.blockSize + strategy.blockSize from Nat.succ_mul _ _] at hlong
    have hwhole : (M + 1) * strategy.blockSize ≤ content.length := by omega
    obtain ⟨s, hstate, hunread, hleft⟩ :=
      exists_turnState_of_lags reader path ready hs hlags hwhole
    refine ⟨M + 1, s, hstate, ?_⟩
    rw [StreamState.length_buffered, hunread, List.length_drop]
    omega

/-- The second turn of a reader of blocks of three bytes. -/
theorem buffered_le_of_cutsBack_fixed :
    ∃ s, turnState ⟨fun _ _ ↦ ⟨"c", by decide⟩⟩ ["f"]
        (FixedSizeChunkingStrategy.inBlocksOf ⟨3, by decide⟩ 3) (fun _ ↦ 1) [1, 2, 3, 4, 5] 1 =
          some s ∧
      (s.buffered (FixedSizeChunkingStrategy.inBlocksOf ⟨3, by decide⟩ 3) fun _ ↦ 1).length ≤
        3 + (FixedSizeChunkingStrategy.inBlocksOf ⟨3, by decide⟩ 3).blockSize := by
  have hbound := (buffered_le_of_cutsBack ⟨fun _ _ ↦ ⟨"c", by decide⟩⟩ ["f"]
    (FixedSizeChunkingStrategy.inBlocksOf ⟨3, by decide⟩ 3)
    (FixedSizeChunkingStrategy.inBlocksOf_honours ⟨3, by decide⟩ 3) (fun _ ↦ 1) 3).1
    (FixedSizeChunkingStrategy.cutsBack ⟨3, by decide⟩) [1, 2, 3, 4, 5]
  exact ⟨_, rfl, hbound 1 _ rfl⟩

/-- Chunks of one byte, and blocks of two. -/
def bytewise : StatefulStrategy where
  nextCut _ buffered _ := if buffered.isEmpty then none else some 1
  preferredReadBlockSize := 2
  name := "bytewise"

/-- The third block finds two bytes that are still uncut. -/
theorem bytewise_buffered_exceeds :
    bytewise.Honours ∧
    (∀ n buffered atEof, 1 ≤ buffered.length →
      ∃ cut, bytewise.nextCut n buffered atEof = some cut ∧ cut ≤ 1) ∧
    ∃ n s, turnState ⟨fun _ _ ↦ ⟨"c", by decide⟩⟩ ["f"] bytewise (fun _ ↦ 2)
        [0, 1, 2, 3, 4, 5, 6, 7] n = some s ∧
      1 + bytewise.blockSize < (s.buffered bytewise fun _ ↦ 2).length := by
  refine ⟨fun n ↦ ⟨?_, ?_⟩, ?_, ?_⟩
  · intro buffered atEof cut hcut
    simp only [StatefulStrategy.after, bytewise] at hcut
    split_ifs at hcut with hempty
    cases hcut
    have hlen : 0 < buffered.length := List.length_pos_iff.mpr (by simpa using hempty)
    omega
  · intro buffered hcut
    simp only [StatefulStrategy.after, bytewise] at hcut
    split_ifs at hcut with hempty
    exact List.isEmpty_iff.mp hempty
  · intro n buffered atEof hlen
    refine ⟨1, ?_, le_refl _⟩
    cases buffered with
    | nil => cases hlen
    | cons b bs => rfl
  · exact ⟨2, _, rfl, by decide⟩

end SecureSync
