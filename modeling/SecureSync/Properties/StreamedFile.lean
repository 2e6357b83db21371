import SecureSync.Infrastructure.StreamedReads

/-!
# A streamed file

What `read_chunks` yields of a file, however short the reads are.
-/

namespace SecureSync

/-- The cuts of the fixed-size strategy, under any hint for the size of a read block. -/
def FixedSizeChunkingStrategy.inBlocksOf (f : FixedSizeChunkingStrategy) (hint : ℤ) :
    StatefulStrategy where
  nextCut _ := f.toStrategy.nextCut
  preferredReadBlockSize := hint
  name := f.toStrategy.name

theorem FixedSizeChunkingStrategy.inBlocksOf_honours (f : FixedSizeChunkingStrategy) (hint : ℤ) :
    (f.inBlocksOf hint).Honours := fun _ ↦ ⟨f.honours.cut_le, f.honours.cut_at_eof⟩

/-- Every chunk but the last has `n` bytes, and the last has one to `n`. -/
def CutEvery (n : ℕ) (chunks : List Chunk) : Prop :=
  (∀ c ∈ chunks.dropLast, c.data.length = n) ∧
    ∀ c ∈ chunks.getLast?, 0 < c.data.length ∧ c.data.length ≤ n

theorem CutEvery.nil (n : ℕ) : CutEvery n [] := by
  simp [CutEvery]

theorem CutEvery.singleton {n : ℕ} {c : Chunk} (hpos : 0 < c.data.length)
    (hle : c.data.length ≤ n) : CutEvery n [c] := by
  simp [CutEvery, hpos, hle]

theorem CutEvery.cons {n : ℕ} {c : Chunk} {chunks : List Chunk} (hpos : 0 < n)
    (hc : c.data.length = n) (h : CutEvery n chunks) : CutEvery n (c :: chunks) := by
  cases chunks with
  | nil => exact CutEvery.singleton (by omega) hc.le
  | cons d chunks =>
      obtain ⟨hall, hlast⟩ := h
      refine ⟨?_, by simpa [List.getLast?_cons_cons] using hlast⟩
      intro e he
      rw [List.dropLast_cons_of_ne_nil (List.cons_ne_nil _ _)] at he
      rcases List.mem_cons.mp he with rfl | he
      · exact hc
      · exact hall e he

section Fixed

variable {reader : StreamingChunkReader} {path : FilePath} {ready : ℕ → ℕ}
  {f : FixedSizeChunkingStrategy} {hint : ℤ}

/-- A cut that leaves something is a whole chunk. -/
theorem FixedSizeChunkingStrategy.turn_yielded {s : StreamState} {chunk : Chunk}
    {left : Option ReaderState}
    (h : s.turn reader path (f.inBlocksOf hint) ready = .yielded chunk left) :
    0 < chunk.data.length ∧ chunk.data.length ≤ f.chunkSize ∧
      (left ≠ none → chunk.data.length = f.chunkSize) := by
  have hsize := f.chunkSize_pos
  obtain ⟨cut, hpos, hcut, hdata, hlast, -⟩ := StreamState.turn_yielded h
  generalize s.buffered (f.inBlocksOf hint) ready = buffered at hcut hdata hlast
  have hlen := congrArg List.length hdata
  rw [List.length_take] at hlen
  dsimp only [inBlocksOf, toStrategy] at hcut
  split_ifs at hcut with hfull heof hempty
  · cases hcut
    omega
  · cases hcut
    refine ⟨by omega, by omega, fun hleft ↦ absurd (hlast.mpr ⟨heof, by omega⟩) hleft⟩

theorem streamCalls_cutEvery {turns : ℕ} {s : StreamState} {chunks : List Chunk}
    (h : streamCalls reader path (f.inBlocksOf hint) ready turns s = some (chunks, none)) :
    CutEvery f.chunkSize chunks := by
  induction turns generalizing s chunks with
  | zero => cases h
  | succ turns ih =>
      unfold streamCalls at h
      cases hturn : s.turn reader path (f.inBlocksOf hint) ready with
      | finished =>
          rw [hturn] at h
          cases h
          exact CutEvery.nil _
      | readOn left =>
          rw [hturn] at h
          exact ih h
      | raised error =>
          rw [hturn] at h
          cases h
      | yielded chunk left =>
          obtain ⟨hpos, hle, hwhole⟩ := FixedSizeChunkingStrategy.turn_yielded hturn
          rw [hturn] at h
          cases left with
          | none =>
              cases h
              exact CutEvery.singleton hpos hle
          | some left =>
              obtain ⟨⟨later, error⟩, hlater, heq⟩ := Option.map_eq_some_iff.mp h
              cases heq
              exact (ih hlater).cons f.chunkSize_pos (hwhole (by simp))

end Fixed

section Places

variable {content : Bytes} {chunks : List Chunk} {i : ℕ}

theorem Tiles.getElem_index (h : Tiles 0 0 content chunks) (hi : i < chunks.length) :
    chunks[i].metadata.index = i := by
  have hget := congrArg (fun indices ↦ indices[i]?) h.map_index
  simpa [hi] using hget

theorem Tiles.getElem_offset (h : Tiles 0 0 content chunks) (hi : i < chunks.length) :
    chunks[i].metadata.offset = ((chunks.take i).map fun c ↦ c.metadata.size).sum := by
  have hget := congrArg (fun pieces ↦ pieces[i]?) h.map_piece
  rw [Overlay.getElem?_place (by simpa using hi), List.getElem?_map,
    List.getElem?_eq_getElem hi] at hget
  have hoffset := congrArg Overlay.Piece.offset (Option.some.inj hget)
  simpa [Chunk.piece, Function.comp_def, ← List.map_take, Chunk.length_eq] using hoffset

end Places

/-- Whatever the calls of `readinto` return, the loop ends and the chunks it yielded hold
the file, in order; under the fixed-size strategy all but the last are full. -/
theorem streamCalls_partitions (reader : StreamingChunkReader) (path : FilePath)
    (strategy : StatefulStrategy) (hs : strategy.Honours) (ready : ℕ → ℕ) (content : Bytes) :
    ∃ chunks, (∀ turns, 2 * content.length < turns →
        streamCalls reader path strategy ready turns (.start content) = some (chunks, none)) ∧
      (chunks.map Chunk.data).flatten = content ∧
      (∀ i (hi : i < chunks.length), chunks[i].metadata.index = i ∧
        chunks[i].metadata.offset = ((chunks.take i).map fun c ↦ c.metadata.size).sum ∧
        chunks[i].data ≠ []) ∧
      ∀ f hint, strategy = FixedSizeChunkingStrategy.inBlocksOf f hint →
        CutEvery f.chunkSize chunks := by
  obtain ⟨chunks, htiles, hcalls⟩ := exists_streamCalls reader path ready hs (.start content)
  refine ⟨chunks, ?_, htiles.flatten_data, ?_, ?_⟩
  · intro turns hturns
    exact hcalls turns (by simpa [StreamState.start, ReaderState.rounds] using hturns)
  · intro i hi
    refine ⟨htiles.getElem_index hi, htiles.getElem_offset hi, ?_⟩
    exact htiles.data_ne _ (List.getElem_mem hi)
  · rintro f hint rfl
    exact streamCalls_cutEvery (hcalls _ (Nat.lt_succ_self _))

/-- Two chunks of a file of five bytes, when every call of `readinto` returns one. -/
theorem streamCalls_partitions_three_of_five :
    ∃ chunks, (∀ turns, 2 * [1, 2, 3, 4, 5].length < turns →
        streamCalls ⟨fun _ _ ↦ ⟨"c", by decide⟩⟩ ["f"]
          (FixedSizeChunkingStrategy.inBlocksOf ⟨3, by decide⟩ 2) (fun _ ↦ 1) turns
          (.start [1, 2, 3, 4, 5]) = some (chunks, none)) ∧
      (chunks.map Chunk.data).flatten = [1, 2, 3, 4, 5] ∧ CutEvery 3 chunks := by
  obtain ⟨chunks, hcalls, hdata, -, hfixed⟩ := streamCalls_partitions
    ⟨fun _ _ ↦ ⟨"c", by decide⟩⟩ ["f"] (FixedSizeChunkingStrategy.inBlocksOf ⟨3, by decide⟩ 2)
    (FixedSizeChunkingStrategy.inBlocksOf_honours ⟨3, by decide⟩ 2) (fun _ ↦ 1) [1, 2, 3, 4, 5]
  exact ⟨chunks, hcalls, hdata, hfixed ⟨3, by decide⟩ 2 rfl⟩

end SecureSync
