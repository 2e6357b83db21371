import SecureSync.Domain.Chunk

/-!
# Streaming chunk reader

`infrastructure/chunking/streaming_chunk_reader.py` behind the ports of
`domain/chunking.py`.
-/

namespace SecureSync

/-- `next_cut` is given the buffered bytes and whether the stream has ended. -/
structure ChunkingStrategy where
  nextCut : Bytes → Bool → Option ℤ
  preferredReadBlockSize : ℤ
  name : String

/-- What `ChunkingStrategy.next_cut` asks of an implementation. -/
structure ChunkingStrategy.Honours (strategy : ChunkingStrategy) : Prop where
  cut_le : ∀ {buffered atEof cut}, strategy.nextCut buffered atEof = some cut →
    0 < cut ∧ cut ≤ buffered.length
  cut_at_eof : ∀ {buffered}, strategy.nextCut buffered true = none → buffered = []

structure FixedSizeChunkingStrategy where
  chunkSize : ℕ
  chunkSize_pos : 0 < chunkSize

def FixedSizeChunkingStrategy.toStrategy (f : FixedSizeChunkingStrategy) : ChunkingStrategy where
  nextCut buffered atEof :=
    if f.chunkSize ≤ buffered.length then some f.chunkSize
    else if atEof then
      if buffered.isEmpty then none else some buffered.length
    else none
  preferredReadBlockSize := f.chunkSize
  name := "fixed-size"

theorem FixedSizeChunkingStrategy.honours (f : FixedSizeChunkingStrategy) :
    f.toStrategy.Honours where
  cut_le := by
    intro buffered atEof cut h
    have hpos := f.chunkSize_pos
    simp only [toStrategy] at h
    split_ifs at h with hfull heof hempty
    · cases h
      omega
    · have hlen : 0 < buffered.length := List.length_pos_iff.mpr (by simpa using hempty)
      cases h
      omega
  cut_at_eof := by
    intro buffered h
    simp only [toStrategy] at h
    split_ifs at h with hfull hempty
    exact List.isEmpty_iff.mp hempty

/-! ## Reading -/

def maxReadBlockBytes : ℤ := 16 * 1024 * 1024

inductive ChunkSourceError where
  | notFound (path : FilePath)
  | nonPositiveCut (strategy : String) (cut : ℤ)
  deriving DecidableEq, Repr

/-- `_derive_chunk_id`, a UUID and so never empty. -/
structure StreamingChunkReader where
  deriveChunkId : FilePath → ℕ → { chunkId : String // chunkId ≠ "" }

/-- The local variables of the loop of `_stream_chunks`, and the bytes of the
file that it has not read yet. -/
structure ReaderState where
  unread : Bytes
  accumulator : Bytes
  index : ℕ
  offset : ℕ

inductive ReadStep where
  | finished
  | readOn (next : ReaderState)
  | raised (error : ChunkSourceError)
  | yielded (chunk : Chunk) (next : Option ReaderState)

section Reader

variable (reader : StreamingChunkReader) (path : FilePath) (strategy : ChunkingStrategy)

def readBlockSize : ℕ :=
  (max 1 (min strategy.preferredReadBlockSize maxReadBlockBytes)).toNat

def cutChunk (s : ReaderState) (data : Bytes) : Chunk where
  metadata :=
    { chunkId := (reader.deriveChunkId path s.index).1
      index := s.index
      size := data.length
      offset := s.offset
      chunkId_ne := (reader.deriveChunkId path s.index).2 }
  data := data
  length_eq := rfl

def readStep (s : ReaderState) : ReadStep :=
  -- `_read_full` loops over short reads: the block is full unless the file ends
  let bytesRead := s.unread.take (readBlockSize strategy)
  let unread := s.unread.drop (readBlockSize strategy)
  let accumulator := s.accumulator ++ bytesRead
  let atEof := bytesRead.isEmpty
  match strategy.nextCut accumulator atEof with
  | none => if atEof then .finished else .readOn { s with unread, accumulator }
  | some cut =>
      if cut ≤ 0 then .raised (.nonPositiveCut strategy.name cut)
      else
        let data := accumulator.take cut.toNat
        let rest := accumulator.drop cut.toNat
        .yielded (cutChunk reader path s data)
          (if atEof && rest.isEmpty then none
          else some ⟨unread, rest, s.index + 1, s.offset + data.length⟩)

/-- The chunks yielded, and the error that ended the stream if one did. -/
def streamChunksFrom : ℕ → ReaderState → List Chunk × Option ChunkSourceError
  | 0, _ => ([], none)
  | fuel + 1, s =>
      match readStep reader path strategy s with
      | .finished => ([], none)
      | .readOn next => streamChunksFrom fuel next
      | .raised error => ([], some error)
      | .yielded chunk none => ([chunk], none)
      | .yielded chunk (some next) =>
          let later := streamChunksFrom fuel next
          (chunk :: later.1, later.2)

/-- Rounds left: every round takes a byte from the file, or at its end cuts
one off the accumulator, or is the last. -/
def ReaderState.rounds (s : ReaderState) : ℕ := 2 * s.unread.length + s.accumulator.length

def streamChunks (content : Bytes) : List Chunk × Option ChunkSourceError :=
  streamChunksFrom reader path strategy (2 * content.length + 1) ⟨content, [], 0, 0⟩

def readChunks (content : Option Bytes) : List Chunk × Option ChunkSourceError :=
  match content with
  | none => ([], some (.notFound path))
  | some content => streamChunks reader path strategy content

/-! ## What the loop yields -/

theorem readBlockSize_pos : 0 < readBlockSize strategy := by
  unfold readBlockSize
  omega

/-- The chunks hold `content` from `offset` on, cut into pieces. -/
structure Tiles (index offset : ℕ) (content : Bytes) (chunks : List Chunk) : Prop where
  flatten_data : (chunks.map Chunk.data).flatten = content
  map_index : chunks.map (fun c ↦ c.metadata.index) = List.range' index chunks.length
  map_piece : chunks.map Chunk.piece = Overlay.place offset (chunks.map Chunk.data)
  data_ne : ∀ c ∈ chunks, c.data ≠ []

theorem Tiles.nil (index offset : ℕ) : Tiles index offset [] [] :=
  ⟨rfl, rfl, rfl, by simp⟩

variable {reader path strategy}

variable (reader path) in
theorem Tiles.cons {s : ReaderState} {data content : Bytes} {chunks : List Chunk}
    (hdata : data ≠ [])
    (h : Tiles (s.index + 1) (s.offset + data.length) content chunks) :
    Tiles s.index s.offset (data ++ content) (cutChunk reader path s data :: chunks) where
  flatten_data := by simp [cutChunk, h.flatten_data]
  map_index := by simp [cutChunk, h.map_index, List.range'_succ]
  map_piece := by simp [cutChunk, Chunk.piece, h.map_piece, Overlay.place]
  data_ne := by
    intro c hc
    rcases List.mem_cons.mp hc with rfl | hc
    · exact hdata
    · exact h.data_ne c hc

/-- At the end of the file a full read returns nothing. -/
theorem unread_eq_nil_of_take {unread : Bytes}
    (h : (unread.take (readBlockSize strategy)).isEmpty = true) : unread = [] := by
  have hblock := readBlockSize_pos strategy
  rcases List.take_eq_nil_iff.mp (List.isEmpty_iff.mp h) with hzero | hnil
  · omega
  · exact hnil

variable (reader path) in
/-- A round without a cut reads on, or finds the file and the accumulator
empty. -/
theorem readStep_of_none (hs : strategy.Honours) {s : ReaderState}
    (hcut : strategy.nextCut (s.accumulator ++ s.unread.take (readBlockSize strategy))
      (s.unread.take (readBlockSize strategy)).isEmpty = none) :
    (readStep reader path strategy s = .finished ∧ s.accumulator ++ s.unread = []) ∨
    ∃ next, readStep reader path strategy s = .readOn next ∧ next.index = s.index ∧
      next.offset = s.offset ∧ next.accumulator ++ next.unread = s.accumulator ++ s.unread ∧
      next.rounds < s.rounds := by
  obtain ⟨unread, accumulator, index, offset⟩ := s
  simp only [readStep, ReaderState.rounds] at hcut ⊢
  cases heof : (unread.take (readBlockSize strategy)).isEmpty with
  | true =>
      left
      obtain rfl := unread_eq_nil_of_take heof
      rw [heof] at hcut
      have hnil := hs.cut_at_eof hcut
      rw [List.take_nil, List.append_nil] at hnil
      simp only [hcut, if_true, true_and]
      rw [hnil, List.append_nil]
  | false =>
      right
      rw [heof] at hcut
      have hsplit : unread.take (readBlockSize strategy) ++ unread.drop (readBlockSize strategy) =
          unread := List.take_append_drop ..
      have hread : 0 < (unread.take (readBlockSize strategy)).length :=
        List.length_pos_iff.mpr (by simpa using heof)
      have hlen := congrArg List.length hsplit
      rw [List.length_append] at hlen
      refine ⟨⟨unread.drop (readBlockSize strategy),
        accumulator ++ unread.take (readBlockSize strategy), index, offset⟩,
        by simp [hcut], rfl, rfl, by simp [List.append_assoc, hsplit], ?_⟩
      simp only [List.length_append]
      omega

variable (reader path) in
/-- A round with a cut yields what it cuts off, and is the last one if that
was all. -/
theorem readStep_of_some (hs : strategy.Honours) {s : ReaderState} {cut : ℤ}
    (hcut : strategy.nextCut (s.accumulator ++ s.unread.take (readBlockSize strategy))
      (s.unread.take (readBlockSize strategy)).isEmpty = some cut) :
    ∃ data, data ≠ [] ∧
      ((readStep reader path strategy s = .yielded (cutChunk reader path s data) none ∧
          s.accumulator ++ s.unread = data) ∨
        ∃ next, readStep reader path strategy s =
            .yielded (cutChunk reader path s data) (some next) ∧
          next.index = s.index + 1 ∧ next.offset = s.offset + data.length ∧
          data ++ (next.accumulator ++ next.unread) = s.accumulator ++ s.unread ∧
          next.rounds < s.rounds) := by
  obtain ⟨unread, accumulator, index, offset⟩ := s
  simp only at hcut
  simp only [readStep, ReaderState.rounds, hcut]
  obtain ⟨hpos, hle⟩ := hs.cut_le hcut
  generalize hbuf : accumulator ++ unread.take (readBlockSize strategy) = buffered at hcut hle
  have hall : buffered ++ unread.drop (readBlockSize strategy) = accumulator ++ unread := by
    rw [← hbuf, List.append_assoc, List.take_append_drop]
  have hlen := congrArg List.length hall
  rw [List.length_append, List.length_append] at hlen
  have hdata : (buffered.take cut.toNat).length = cut.toNat := by
    rw [List.length_take]
    omega
  have hcutdata : buffered.take cut.toNat ++ buffered.drop cut.toNat = buffered :=
    List.take_append_drop ..
  refine ⟨buffered.take cut.toNat, fun hnil ↦ ?_, ?_⟩
  · rw [hnil, List.length_nil] at hdata
    omega
  · by_cases hlast : ((unread.take (readBlockSize strategy)).isEmpty &&
        (buffered.drop cut.toNat).isEmpty) = true
    · left
      obtain ⟨heof, hrest⟩ := Bool.and_eq_true_iff.mp hlast
      refine ⟨by simp [not_le.mpr hpos, hlast], ?_⟩
      rw [← hall, unread_eq_nil_of_take heof, List.drop_nil, List.append_nil, ← hcutdata,
        List.isEmpty_iff.mp hrest, List.append_nil, List.take_take, Nat.min_self]
    · right
      refine ⟨⟨unread.drop (readBlockSize strategy), buffered.drop cut.toNat, index + 1,
        offset + (buffered.take cut.toNat).length⟩,
        by simp [not_le.mpr hpos, hlast], rfl, rfl, ?_, ?_⟩
      · rw [← List.append_assoc, hcutdata, hall]
      · simp only [List.length_drop]
        simp only [List.length_drop] at hlen
        omega

variable (reader path) in
/-- Fuel beyond the rounds left is never missed, and the chunks tile what was
buffered or unread. -/
theorem streamChunksFrom_tiles (hs : strategy.Honours) {fuel : ℕ} {s : ReaderState}
    (hfuel : s.rounds < fuel) :
    (streamChunksFrom reader path strategy fuel s).2 = none ∧
      Tiles s.index s.offset (s.accumulator ++ s.unread)
        (streamChunksFrom reader path strategy fuel s).1 := by
  induction fuel generalizing s with
  | zero => omega
  | succ fuel ih =>
      cases hcut : strategy.nextCut (s.accumulator ++ s.unread.take (readBlockSize strategy))
          (s.unread.take (readBlockSize strategy)).isEmpty with
      | none =>
          obtain ⟨hstep, hnil⟩ | ⟨next, hstep, hindex, hoffset, hrest, hrounds⟩ :=
            readStep_of_none reader path hs hcut
          · simp only [streamChunksFrom, hstep, hnil]
            exact ⟨trivial, Tiles.nil _ _⟩
          · have hnext := ih (s := next) (by omega)
            rw [hindex, hoffset, hrest] at hnext
            simpa only [streamChunksFrom, hstep] using hnext
      | some cut =>
          obtain ⟨data, hdata, ⟨hstep, hall⟩ |
              ⟨next, hstep, hindex, hoffset, hrest, hrounds⟩⟩ :=
            readStep_of_some reader path hs hcut
          · have hone := Tiles.cons reader path (s := s) hdata
              (Tiles.nil (s.index + 1) (s.offset + data.length))
            simp only [streamChunksFrom, hstep, hall]
            exact ⟨trivial, by simpa using hone⟩
          · have hnext := ih (s := next) (by omega)
            rw [hindex, hoffset] at hnext
            simp only [streamChunksFrom, hstep, ← hrest]
            exact ⟨hnext.1, hnext.2.cons reader path hdata⟩

/-- Any strategy: the loop raises for a cut that is not positive, and for
nothing else. -/
theorem streamChunksFrom_error {fuel : ℕ} {s : ReaderState} {error : ChunkSourceError}
    (h : (streamChunksFrom reader path strategy fuel s).2 = some error) :
    ∃ cut, error = .nonPositiveCut strategy.name cut := by
  induction fuel generalizing s with
  | zero => cases h
  | succ fuel ih =>
      simp only [streamChunksFrom] at h
      cases hstep : readStep reader path strategy s with
      | finished => simp [hstep] at h
      | readOn next =>
          rw [hstep] at h
          exact ih h
      | raised e =>
          have he : error = e := by simpa [hstep] using h.symm
          simp only [readStep] at hstep
          split at hstep
          · split_ifs at hstep
          · split_ifs at hstep
            cases hstep
            exact ⟨_, he⟩
      | yielded chunk next =>
          cases next with
          | none => simp [hstep] at h
          | some next =>
              rw [hstep] at h
              exact ih h

variable (reader path) in
theorem streamChunks_tiles (hs : strategy.Honours) (content : Bytes) :
    (streamChunks reader path strategy content).2 = none ∧
      Tiles 0 0 content (streamChunks reader path strategy content).1 := by
  have h := @streamChunksFrom_tiles reader path strategy hs (2 * content.length + 1)
    ⟨content, [], 0, 0⟩ (by simp [ReaderState.rounds])
  simpa [streamChunks] using h

end Reader
end SecureSync
