import SecureSync.Infrastructure.TcpListener
import SecureSync.Library.Admissions

/-!
# Inbound connections

What the listener makes of the bytes of its connections, however they come in pieces and
whichever tasks get in between.
-/

namespace SecureSync

open BigEndian Raising

/-- How many reads a task has before it. -/
def ConnectionStage.rank : ConnectionStage → ℕ
  | .readingLength => 2
  | .readingBody _ => 1
  | .ended _ => 0

namespace InboundConnection

/-- What has become of the bytes so far: an end other than by an interruption or a deadline is
that of a read of the whole stream. -/
def Reads (c : InboundConnection) : Prop :=
  match c.stage with
  | .readingLength => c.received = c.stream.bytes
  | .readingBody length => length ≤ maxMessageSize ∧ ∃ header, header.length = lengthPrefixSize ∧
      decode header = length ∧ c.received = header ++ c.stream.bytes
  | .ended .refused => c.received = []
  | .ended (.enqueued frame) | .ended (.dropped frame) =>
      readLengthPrefixed maxMessageSize ⟨c.received, c.stream.closed⟩ = .ok frame c.stream
  | .ended (.raised .timeout) | .ended (.interrupted _) => True
  | .ended (.raised e) =>
      readLengthPrefixed maxMessageSize ⟨c.received, c.stream.closed⟩ = .error e c.stream

variable {c : InboundConnection}

theorem Reads.receive (h : c.Reads) (bytes : Bytes) : (c.receive bytes).Reads := by
  obtain ⟨stream, received, stage⟩ := c
  unfold InboundConnection.receive
  split_ifs
  · cases stage with
    | readingLength =>
        have hreceived : received = stream.bytes := h
        exact congrArg (· ++ bytes) hreceived
    | readingBody length =>
        obtain ⟨hle, header, hheader, hdecode, hreceived⟩ := h
        refine ⟨hle, header, hheader, hdecode, ?_⟩
        change received ++ bytes = header ++ (stream.bytes ++ bytes)
        rw [← List.append_assoc]
        exact congrArg (· ++ bytes) hreceived
    | ended result => simp_all [isReading]
  · exact h

theorem Reads.close (h : c.Reads) : c.close.Reads := by
  obtain ⟨stream, received, stage⟩ := c
  unfold InboundConnection.close
  split_ifs
  · cases stage with
    | readingLength => exact h
    | readingBody length => exact h
    | ended result => simp_all [isReading]
  · exact h

theorem stage_receive (bytes : Bytes) (c : InboundConnection) :
    (c.receive bytes).stage = c.stage := by
  unfold InboundConnection.receive
  split_ifs <;> rfl

theorem stage_close (c : InboundConnection) : c.close.stage = c.stage := by
  unfold InboundConnection.close
  split_ifs <;> rfl

theorem received_receive (c : InboundConnection) (bytes : Bytes) :
    c.received <+: (c.receive bytes).received := by
  unfold InboundConnection.receive
  split_ifs
  · exact List.prefix_append _ _
  · exact List.prefix_rfl

theorem received_close (c : InboundConnection) : c.close.received = c.received := by
  unfold InboundConnection.close
  split_ifs
  · rfl
  · rfl

theorem isReading_of_stage {c c' : InboundConnection} (h : c.stage = c'.stage) :
    c.isReading = c'.isReading := by
  unfold isReading
  rw [h]

/-- The first bytes of a connection are a whole message within the limit. -/
structure Carries (c : InboundConnection) (message frame : Bytes) : Prop where
  written : writeMessage? message = some frame
  fits : message.length ≤ maxMessageSize
  received : frame <+: c.received

theorem Carries.readLengthPrefixed {message frame : Bytes} (h : c.Carries message frame) :
    ∃ rest, readLengthPrefixed maxMessageSize ⟨c.received, c.stream.closed⟩ = .ok message rest := by
  obtain ⟨rest, hrest⟩ := h.received
  rw [← hrest]
  exact ⟨_, (readLengthPrefixed_write h.written).mpr h.fits⟩

theorem Carries.frame_ne_nil {message frame : Bytes} (h : Carries c message frame) :
    frame ≠ [] := by
  have hwritten := h.written
  unfold writeMessage? at hwritten
  split_ifs at hwritten
  cases hwritten
  intro hnil
  have hlength := congrArg List.length (List.append_eq_nil_iff.mp hnil).1
  rw [length_encode] at hlength
  cases hlength

end InboundConnection

/-! ## Reading in pieces -/

section Pieces

variable {stream rest : Stream} {header : Bytes}

theorem readLengthPrefixed_of_header (hheader : header.length = lengthPrefixSize)
    (rest : Stream) :
    readLengthPrefixed maxMessageSize ⟨header ++ rest.bytes, rest.closed⟩ =
      match checkSize (decode header) maxMessageSize with
      | .ok _ => readExactly (decode header) rest
      | .error e => .error e rest := by
  rw [readLengthPrefixed, bind_run, readExactly_append rest.closed hheader]
  dsimp only
  rw [bind_run]
  cases checkSize (decode header) maxMessageSize <;> rfl

theorem readExactly_error {size : ℕ} {e : MessageReadError}
    (h : readExactly size stream = .error e rest) :
    e = .timeout ∧ rest = stream ∨
      e = .incomplete ∧ stream.closed = true ∧ rest = { stream with bytes := [] } ∧
        stream.bytes.length < size := by
  unfold readExactly at h
  split_ifs at h with hsize hclosed
  · cases h
    exact .inr ⟨rfl, hclosed, rfl, by omega⟩
  · cases h
    exact .inl ⟨rfl, rfl⟩

/-- A stream that ends within the prefix is incomplete as a whole. -/
theorem readLengthPrefixed_of_error {e : MessageReadError}
    (h : readExactly lengthPrefixSize stream = .error e rest) :
    readLengthPrefixed maxMessageSize stream = .error e rest := by
  rw [readLengthPrefixed, bind_run, h]

theorem checkSize_ne_timeout {length maxSize : ℕ} :
    checkSize length maxSize ≠ .error .timeout := by
  unfold checkSize require
  split_ifs
  · exact nofun
  · exact nofun

end Pieces

/-! ## Sound listeners -/

namespace TcpListener

variable {s : TcpListener}

def stage? (s : TcpListener) (i : ℕ) : Option ConnectionStage :=
  s.connections[i]?.map InboundConnection.stage

/-- The count is that of the tasks that read, and the inbox is what has arrived and is not taken. -/
structure Sound (s : TcpListener) : Prop where
  active : s.activeConnections = s.connections.countP InboundConnection.isReading
  bounded : s.activeConnections ≤ maxConcurrentConnections
  inbox : s.inbox.length ≤ inboxMaxSize
  fifo : s.taken ++ s.inbox = s.arrived.map Prod.snd
  owners : (s.arrived.map Prod.fst).Nodup
  arrived : ∀ i frame, (i, frame) ∈ s.arrived ↔ s.stage? i = some (.ended (.enqueued frame))
  reads : ∀ c ∈ s.connections, c.Reads

theorem sound_init : ({} : TcpListener).Sound where
  active := rfl
  bounded := by decide
  inbox := Nat.zero_le _
  fifo := rfl
  owners := List.nodup_nil
  arrived i frame := by simp [stage?]
  reads := by simp

theorem stage?_update (i j : ℕ) (f : InboundConnection → InboundConnection) :
    (s.update i f).stage? j = if i = j then (s.connections[j]?.map f).map InboundConnection.stage
      else s.stage? j := by
  simp only [stage?, update, List.getElem?_modify]
  split_ifs with hij
  · rfl
  · simp

theorem stage?_update_of_stage {f : InboundConnection → InboundConnection}
    (hf : ∀ c, (f c).stage = c.stage) (i j : ℕ) : (s.update i f).stage? j = s.stage? j := by
  rw [stage?_update]
  split_ifs
  · rw [stage?, Option.map_map]
    exact congrArg (Option.map · _) (funext hf)
  · rfl

theorem stage?_leave (i j : ℕ) (stream : Stream) (result : ConnectionEnd) :
    (s.leave i stream result).stage? j =
      if i = j then (s.connections[j]?).map fun _ ↦ .ended result else s.stage? j := by
  change (s.update i (.finish stream result)).stage? j = _
  rw [stage?_update]
  split_ifs
  · rw [Option.map_map]
    rfl
  · rfl

variable {i : ℕ} {c : InboundConnection}

/-- A task that reads has put nothing into the inbox. -/
theorem Sound.not_arrived (h : s.Sound) (hi : s.connections[i]? = some c)
    (hc : c.isReading = true) (frame : Bytes) : (i, frame) ∉ s.arrived := by
  rw [h.arrived, stage?, hi, Option.map_some]
  intro hstage
  rw [InboundConnection.isReading, Option.some.inj hstage] at hc
  cases hc

theorem Sound.connect (h : s.Sound) : s.connect.Sound := by
  have hlast (c : InboundConnection) (hc : ∀ frame, c.stage ≠ .ended (.enqueued frame)) (i : ℕ)
      (frame : Bytes) : (i, frame) ∈ s.arrived ↔
        ((s.connections ++ [c])[i]?).map InboundConnection.stage =
          some (.ended (.enqueued frame)) := by
    rw [h.arrived, stage?]
    rcases lt_trichotomy i s.connections.length with hi | rfl | hi
    · rw [List.getElem?_append_left hi]
    · simp [hc frame]
    · rw [List.getElem?_eq_none (by omega), List.getElem?_eq_none]
      simp only [List.length_append, List.length_singleton]
      omega
  have hreads (c : InboundConnection) (hc : c.Reads) : ∀ c' ∈ s.connections ++ [c], c'.Reads := by
    intro c' hc'
    rcases List.mem_append.mp hc' with hc' | hc'
    · exact h.reads c' hc'
    · rwa [List.mem_singleton.mp hc']
  have hactive := h.active
  unfold TcpListener.connect
  split_ifs with hfull
  · refine ⟨?_, h.bounded, h.inbox, h.fifo, h.owners, hlast _ (fun _ ↦ nofun), hreads _ rfl⟩
    dsimp only
    rw [List.countP_append, hactive]
    rfl
  · refine ⟨?_, ?_, h.inbox, h.fifo, h.owners, hlast _ (fun _ ↦ nofun), hreads _ rfl⟩
    · dsimp only
      rw [List.countP_append, hactive, Nat.cast_add]
      rfl
    · dsimp only
      omega

/-- A step within the reading of one connection. -/
theorem Sound.update (h : s.Sound) {f : InboundConnection → InboundConnection}
    (hreading : ∀ c, s.connections[i]? = some c → (f c).isReading = c.isReading)
    (hstage : ∀ c, s.connections[i]? = some c → c.isReading = false → (f c).stage = c.stage)
    (hreads : ∀ c, s.connections[i]? = some c → (f c).Reads) : (s.update i f).Sound := by
  refine ⟨?_, h.bounded, h.inbox, h.fifo, h.owners, fun j frame ↦ ?_, fun c hc ↦ ?_⟩
  · have hcount := Admission.countP_modify InboundConnection.isReading f s.connections i
    have hactive := h.active
    change s.activeConnections = ((s.connections.modify i f).countP _ : ℕ)
    cases hi : s.connections[i]? with
    | none =>
        simp only [hi, Option.map_none, Option.toList_none] at hcount
        omega
    | some c =>
        simp only [hi, Option.map_some, Option.toList_some, List.countP_singleton,
          hreading c hi] at hcount
        omega
  · change (j, frame) ∈ s.arrived ↔ _
    rw [h.arrived, stage?_update]
    split_ifs with hij
    · subst hij
      cases hi : s.connections[i]? with
      | none => simp [stage?, hi]
      | some c =>
          rw [stage?, hi, Option.map_some, Option.map_some, Option.map_some]
          cases hc : c.isReading with
          | false => rw [hstage c hi hc]
          | true =>
              have hc' := hreading c hi
              rw [hc] at hc'
              constructor
              · intro hended
                rw [InboundConnection.isReading, Option.some.inj hended] at hc
                cases hc
              · intro hended
                rw [InboundConnection.isReading, Option.some.inj hended] at hc'
                cases hc'
    · rfl
  · obtain ⟨j, hj⟩ := List.mem_iff_getElem?.mp hc
    change (s.connections.modify i f)[j]? = some c at hj
    rw [List.getElem?_modify] at hj
    split_ifs at hj with hij
    · subst hij
      obtain ⟨c', hc', rfl⟩ := Option.map_eq_some_iff.mp hj
      exact hreads c' hc'
    · rw [id_map'] at hj
      exact h.reads c (List.mem_of_getElem? hj)

/-- The count after a task that reads has left. -/
theorem Sound.active_leave (h : s.Sound) (hi : s.connections[i]? = some c)
    (hc : c.isReading = true) (stream : Stream) (result : ConnectionEnd) :
    s.activeConnections - 1 =
      ((s.connections.modify i (.finish stream result)).countP
        InboundConnection.isReading : ℕ) := by
  have hcount := Admission.countP_modify InboundConnection.isReading (.finish stream result)
    s.connections i
  have hended : (c.finish stream result).isReading = false := rfl
  simp only [hi, Option.map_some, Option.toList_some, List.countP_singleton, hc, hended, if_true,
    Bool.false_eq_true, if_false] at hcount
  rw [h.active]
  omega

theorem Sound.reads_leave (h : s.Sound) {stream : Stream} {result : ConnectionEnd}
    (hi : s.connections[i]? = some c) (hreads : (c.finish stream result).Reads) :
    ∀ c' ∈ s.connections.modify i (.finish stream result), c'.Reads := by
  intro c' hc'
  obtain ⟨j, hj⟩ := List.mem_iff_getElem?.mp hc'
  rw [List.getElem?_modify] at hj
  split_ifs at hj with hij
  · subst hij
    rw [hi] at hj
    cases hj
    exact hreads
  · rw [id_map'] at hj
    exact h.reads c' (List.mem_of_getElem? hj)

theorem Sound.leave (h : s.Sound) {stream : Stream} {result : ConnectionEnd}
    (hi : s.connections[i]? = some c) (hc : c.isReading = true)
    (hreads : (c.finish stream result).Reads) (hresult : ∀ frame, result ≠ .enqueued frame) :
    (s.leave i stream result).Sound := by
  have hbounded := h.bounded
  refine ⟨h.active_leave hi hc stream result, ?_, h.inbox, h.fifo, h.owners, fun j frame ↦ ?_,
    h.reads_leave hi hreads⟩
  · change s.activeConnections - 1 ≤ _
    omega
  · change (j, frame) ∈ s.arrived ↔ _
    rw [stage?_leave]
    split_ifs with hij
    · subst hij
      rw [hi, Option.map_some]
      refine iff_of_false (h.not_arrived hi hc frame) fun hended ↦ ?_
      injection hended with hended
      injection hended with hended
      exact hresult frame hended
    · exact h.arrived j frame

theorem Sound.leave_enqueue (h : s.Sound) {stream : Stream} {frame : Bytes}
    (hi : s.connections[i]? = some c) (hc : c.isReading = true)
    (hreads : (c.finish stream (.enqueued frame)).Reads) :
    ((s.enqueue i frame).1.leave i stream (s.enqueue i frame).2).Sound := by
  unfold enqueue
  split_ifs with hfull
  · exact h.leave hi hc hreads fun _ ↦ nofun
  · have hbounded := h.bounded
    refine ⟨h.active_leave hi hc stream _, ?_, ?_, ?_, ?_, fun j frame' ↦ ?_,
      h.reads_leave hi hreads⟩
    · change s.activeConnections - 1 ≤ _
      omega
    · change (s.inbox ++ [frame]).length ≤ _
      rw [List.length_append, List.length_singleton]
      omega
    · change s.taken ++ (s.inbox ++ [frame]) = (s.arrived ++ [(i, frame)]).map Prod.snd
      rw [← List.append_assoc, h.fifo, List.map_append]
      rfl
    · change ((s.arrived ++ [(i, frame)]).map Prod.fst).Nodup
      rw [List.map_append]
      refine List.Nodup.append h.owners (List.nodup_singleton i) ?_
      rintro j hj hj'
      obtain rfl := List.mem_singleton.mp hj'
      obtain ⟨p, hp, rfl⟩ := List.mem_map.mp hj
      exact h.not_arrived hi hc p.2 hp
    · change (j, frame') ∈ s.arrived ++ [(i, frame)] ↔ _
      rw [stage?_leave, List.mem_append, List.mem_singleton]
      split_ifs with hij
      · subst hij
        rw [show ({ s with
          inbox := s.inbox ++ [frame], arrived := s.arrived ++ [(i, frame)] } :
            TcpListener).connections = s.connections from rfl, hi, Option.map_some]
        constructor
        · rintro (harrived | heq)
          · exact absurd harrived (h.not_arrived hi hc frame')
          · cases heq
            rfl
        · intro hended
          cases hended
          exact .inr rfl
      · rw [show ({ s with
          inbox := s.inbox ++ [frame], arrived := s.arrived ++ [(i, frame)] } :
            TcpListener).stage? j = s.stage? j from rfl, ← h.arrived]
        refine or_iff_left fun heq ↦ hij ?_
        cases heq
        rfl

theorem Sound.readLength (h : s.Sound) {stream : Stream} {received : Bytes}
    (hi : s.connections[i]? = some ⟨stream, received, .readingLength⟩) :
    (s.readLength i stream).Sound := by
  obtain rfl : received = stream.bytes := h.reads _ (List.mem_of_getElem? hi)
  unfold TcpListener.readLength
  split
  · rename_i header rest hread
    obtain ⟨hheader, rfl⟩ := readExactly_eq_ok.mp hread
    have hwhole := readLengthPrefixed_of_header hheader rest
    split
    · rename_i hsize
      have hle : decode header ≤ maxMessageSize := require_eq_ok.mp hsize
      refine h.update ?_ ?_ ?_
      · intro c' hc'
        rw [hi] at hc'
        cases hc'
        rfl
      · intro c' hc' hended
        rw [hi] at hc'
        cases hc'
        cases hended
      · intro c' hc'
        rw [hi] at hc'
        cases hc'
        exact ⟨hle, header, hheader, rfl, rfl⟩
    · rename_i e hsize
      rw [hsize] at hwhole
      refine h.leave hi rfl ?_ fun _ ↦ nofun
      cases e with
      | timeout => trivial
      | oversized length maxSize => exact hwhole
      | incomplete => exact hwhole
  · exact h
  · rename_i e rest hne hread
    refine h.leave hi rfl ?_ fun _ ↦ nofun
    obtain ⟨rfl, -⟩ | ⟨rfl, hclosed, rfl, -⟩ := readExactly_error hread
    · trivial
    · exact readLengthPrefixed_of_error hread

theorem Sound.readBody (h : s.Sound) {stream : Stream} {received : Bytes} {length : ℕ}
    (hi : s.connections[i]? = some ⟨stream, received, .readingBody length⟩) :
    (s.readBody i stream length).Sound := by
  obtain ⟨hle, header, hheader, rfl, hreceived⟩ := h.reads _ (List.mem_of_getElem? hi)
  obtain rfl : received = header ++ stream.bytes := hreceived
  have hwhole := readLengthPrefixed_of_header hheader stream
  have hsize : checkSize (decode header) maxMessageSize = .ok () := require_eq_ok.mpr hle
  rw [hsize] at hwhole
  unfold TcpListener.readBody
  split
  · rename_i frame rest hread
    refine h.leave_enqueue hi rfl ?_
    obtain ⟨hframe, rfl⟩ := readExactly_eq_ok.mp hread
    exact hwhole.trans hread
  · exact h
  · rename_i e rest hne hread
    refine h.leave hi rfl ?_ fun _ ↦ nofun
    obtain ⟨rfl, -⟩ | ⟨rfl, hclosed, rfl, -⟩ := readExactly_error hread
    · trivial
    · exact hwhole.trans hread

theorem Sound.read (h : s.Sound) (i : ℕ) : (s.read i).Sound := by
  unfold TcpListener.read
  split
  · rename_i hi
    exact h.readLength hi
  · rename_i hi
    exact h.readBody hi
  · exact h

/-- An end that says nothing of the bytes. -/
theorem Sound.raise (h : s.Sound) (i : ℕ) {result : ConnectionEnd}
    (hresult : result = .raised .timeout ∨ ∃ cause, result = .interrupted cause) :
    (s.raise i result).Sound := by
  unfold TcpListener.raise
  split
  · rename_i c hi
    split_ifs with hc
    · refine h.leave hi hc ?_ ?_
      · obtain rfl | ⟨cause, rfl⟩ := hresult
        · trivial
        · trivial
      · rintro frame rfl
        obtain heq | ⟨cause, heq⟩ := hresult
        · cases heq
        · cases heq
    · exact h
  · exact h

theorem Sound.take (h : s.Sound) : s.take.Sound := by
  unfold TcpListener.take
  split
  · exact h
  · rename_i frame inbox hinbox
    have hlength := h.inbox
    have hfifo := h.fifo
    rw [hinbox] at hlength hfifo
    refine ⟨h.active, h.bounded, (Nat.le_succ _).trans hlength, ?_, h.owners, h.arrived, h.reads⟩
    change s.taken ++ [frame] ++ inbox = _
    rw [List.append_assoc]
    exact hfifo

theorem Sound.step (h : s.Sound) (event : ListenerStep) : (s.step event).Sound := by
  cases event with
  | connect => exact h.connect
  | receive i bytes =>
      refine h.update ?_ ?_ ?_
      · exact fun c _ ↦ InboundConnection.isReading_of_stage (c.stage_receive bytes)
      · exact fun c _ _ ↦ c.stage_receive bytes
      · exact fun c hc ↦ (h.reads c (List.mem_of_getElem? hc)).receive bytes
  | close i =>
      refine h.update ?_ ?_ ?_
      · exact fun c _ ↦ InboundConnection.isReading_of_stage c.stage_close
      · exact fun c _ _ ↦ c.stage_close
      · exact fun c hc ↦ (h.reads c (List.mem_of_getElem? hc)).close
  | read i => exact h.read i
  | expire i => exact h.raise i (.inl rfl)
  | interrupt i cause => exact h.raise i (.inr ⟨cause, rfl⟩)
  | take => exact h.take

theorem Sound.run (h : s.Sound) (steps : List ListenerStep) : (s.run steps).Sound := by
  induction steps generalizing s with
  | nil => exact h
  | cons event steps ih => exact ih (h.step event)

/-! ## What one step does to one connection -/

theorem getElem?_update (i j : ℕ) (f : InboundConnection → InboundConnection) :
    (s.update i f).connections[j]? =
      if i = j then s.connections[j]?.map f else s.connections[j]? := by
  change (s.connections.modify i f)[j]? = _
  rw [List.getElem?_modify]
  split_ifs
  · rfl
  · exact id_map' _

theorem getElem?_leave (i j : ℕ) (stream : Stream) (result : ConnectionEnd) :
    (s.leave i stream result).connections[j]? =
      if i = j then s.connections[j]?.map (.finish stream result) else s.connections[j]? :=
  getElem?_update i j _

theorem connections_enqueue (i : ℕ) (frame : Bytes) :
    (s.enqueue i frame).1.connections = s.connections := by
  unfold enqueue
  split_ifs
  · rfl
  · rfl

variable {j : ℕ}

theorem getElem?_read_of_ne (hij : j ≠ i) : (s.read j).connections[i]? = s.connections[i]? := by
  unfold TcpListener.read
  split
  · unfold TcpListener.readLength
    split
    · split
      · rw [getElem?_update, if_neg hij]
      · rw [getElem?_leave, if_neg hij]
    · rfl
    · rw [getElem?_leave, if_neg hij]
  · unfold TcpListener.readBody
    split
    · rw [getElem?_leave, if_neg hij, connections_enqueue]
    · rfl
    · rw [getElem?_leave, if_neg hij]
  · rfl

theorem getElem?_raise_of_ne (hij : j ≠ i) (result : ConnectionEnd) :
    (s.raise j result).connections[i]? = s.connections[i]? := by
  unfold TcpListener.raise
  split
  · split_ifs
    · rw [getElem?_leave, if_neg hij]
    · rfl
  · rfl

variable {message frame : Bytes}

/-- A read of a connection that carries a message goes on to the next stage. -/
theorem Sound.progress_read (h : s.Sound) (hi : s.connections[i]? = some c)
    (hcarries : c.Carries message frame) :
    ∃ c', (s.read i).connections[i]? = some c' ∧ c'.received = c.received ∧
      c'.stage.rank ≤ c.stage.rank - 1 := by
  obtain ⟨rest, hwhole⟩ := hcarries.readLengthPrefixed
  obtain ⟨stream, received, stage⟩ := c
  have hreads := h.reads _ (List.mem_of_getElem? hi)
  unfold TcpListener.read
  rw [hi]
  cases stage with
  | ended result => exact ⟨_, hi, rfl, le_rfl⟩
  | readingLength =>
      obtain rfl : received = stream.bytes := hreads
      dsimp only
      unfold TcpListener.readLength
      cases hheader : readExactly lengthPrefixSize stream with
      | error e rest' =>
          rw [readLengthPrefixed_of_error hheader] at hwhole
          cases hwhole
      | ok header rest' =>
          obtain ⟨hlength, rfl⟩ := readExactly_eq_ok.mp hheader
          dsimp only at hwhole ⊢
          rw [readLengthPrefixed_of_header hlength] at hwhole
          cases hsize : checkSize (decode header) maxMessageSize with
          | error e =>
              rw [hsize] at hwhole
              cases hwhole
          | ok u =>
              dsimp only
              rw [getElem?_update, if_pos rfl, hi]
              exact ⟨_, rfl, rfl, le_rfl⟩
  | readingBody length =>
      obtain ⟨hle, header, hheader, rfl, hreceived⟩ := hreads
      obtain rfl : received = header ++ stream.bytes := hreceived
      dsimp only at hwhole ⊢
      have hsize : checkSize (decode header) maxMessageSize = .ok () := require_eq_ok.mpr hle
      rw [readLengthPrefixed_of_header hheader, hsize] at hwhole
      unfold TcpListener.readBody
      rw [show readExactly (decode header) stream = .ok message rest from hwhole]
      dsimp only
      rw [getElem?_leave, if_pos rfl, connections_enqueue, hi]
      exact ⟨_, rfl, rfl, le_rfl⟩

theorem progress_raise (hi : s.connections[i]? = some c) (j : ℕ) (result : ConnectionEnd) :
    ∃ c', (s.raise j result).connections[i]? = some c' ∧ c.received <+: c'.received ∧
      c'.stage.rank ≤ c.stage.rank := by
  by_cases hij : j = i
  · subst hij
    unfold TcpListener.raise
    rw [hi]
    dsimp only
    split_ifs
    · rw [getElem?_leave, if_pos rfl, hi]
      exact ⟨_, rfl, List.prefix_rfl, Nat.zero_le _⟩
    · exact ⟨c, hi, List.prefix_rfl, le_rfl⟩
  · exact ⟨c, (getElem?_raise_of_ne hij result).trans hi, List.prefix_rfl, le_rfl⟩

theorem Sound.progress_step (h : s.Sound) (hi : s.connections[i]? = some c)
    (hcarries : c.Carries message frame) (event : ListenerStep) :
    ∃ c', (s.step event).connections[i]? = some c' ∧ c.received <+: c'.received ∧
      c'.stage.rank ≤ c.stage.rank - if event = .read i then 1 else 0 := by
  have hlt := (List.getElem?_eq_some_iff.mp hi).1
  cases event with
  | connect =>
      refine ⟨c, ?_, List.prefix_rfl, le_rfl⟩
      change s.connect.connections[i]? = _
      unfold TcpListener.connect
      split_ifs
      · exact (List.getElem?_append_left hlt).trans hi
      · exact (List.getElem?_append_left hlt).trans hi
  | receive j bytes =>
      change ∃ c', (s.update j _).connections[i]? = _ ∧ _
      rw [getElem?_update, hi]
      by_cases hij : j = i
      · rw [if_pos hij]
        refine ⟨_, rfl, c.received_receive bytes, ?_⟩
        rw [c.stage_receive]
        exact le_rfl
      · rw [if_neg hij]
        exact ⟨c, rfl, List.prefix_rfl, le_rfl⟩
  | close j =>
      change ∃ c', (s.update j _).connections[i]? = _ ∧ _
      rw [getElem?_update, hi]
      by_cases hij : j = i
      · rw [if_pos hij]
        refine ⟨_, rfl, ?_, ?_⟩
        · rw [c.received_close]
        · rw [c.stage_close]
          exact le_rfl
      · rw [if_neg hij]
        exact ⟨c, rfl, List.prefix_rfl, le_rfl⟩
  | read j =>
      by_cases hij : j = i
      · subst hij
        rw [if_pos rfl]
        obtain ⟨c', hc', hreceived, hrank⟩ := h.progress_read hi hcarries
        exact ⟨c', hc', by rw [hreceived], hrank⟩
      · refine ⟨c, (getElem?_read_of_ne hij).trans hi, List.prefix_rfl, ?_⟩
        rw [if_neg fun heq ↦ hij (ListenerStep.read.inj heq)]
        exact le_rfl
  | expire j => exact progress_raise hi j _
  | interrupt j cause => exact progress_raise hi j _
  | take =>
      refine ⟨c, ?_, List.prefix_rfl, le_rfl⟩
      change s.take.connections[i]? = _
      unfold TcpListener.take
      split
      · exact hi
      · exact hi

theorem Sound.progress (h : s.Sound) (hi : s.connections[i]? = some c)
    (hcarries : c.Carries message frame) (steps : List ListenerStep) :
    ∃ c', (s.run steps).connections[i]? = some c' ∧ c'.Carries message frame ∧
      c'.stage.rank ≤ c.stage.rank - steps.count (.read i) := by
  induction steps generalizing s c with
  | nil => exact ⟨c, hi, hcarries, le_rfl⟩
  | cons event steps ih =>
      obtain ⟨c₁, hc₁, hreceived, hrank₁⟩ := h.progress_step hi hcarries event
      have hcarries₁ : c₁.Carries message frame :=
        ⟨hcarries.written, hcarries.fits, hcarries.received.trans hreceived⟩
      obtain ⟨c₂, hc₂, hcarries₂, hrank₂⟩ := ih (h.step event) hc₁ hcarries₁
      refine ⟨c₂, hc₂, hcarries₂, ?_⟩
      rw [List.count_cons]
      simp only [beq_iff_eq]
      omega

/-! ## What ends a connection -/

/-- The step that ends a task so. -/
def Cause (s : TcpListener) (event : ListenerStep) (i : ℕ) : ConnectionEnd → Prop
  | .refused => event = .connect ∧ maxConcurrentConnections ≤ s.activeConnections
  | .enqueued _ => event = .read i
  | .dropped _ => event = .read i ∧ inboxMaxSize ≤ s.inbox.length
  | .raised .timeout => event = .expire i
  | .raised _ => event = .read i
  | .interrupted cause => event = .interrupt i cause

variable {result : ConnectionEnd}

theorem stage?_connect (i : ℕ) : s.connect.stage? i = s.stage? i ∨
    s.connect.stage? i = some .readingLength ∨
    s.connect.stage? i = some (.ended .refused) ∧
      maxConcurrentConnections ≤ s.activeConnections := by
  unfold TcpListener.connect stage?
  rcases lt_trichotomy i s.connections.length with hi | rfl | hi
  · left
    split_ifs
    · rw [List.getElem?_append_left hi]
    · rw [List.getElem?_append_left hi]
  · right
    split_ifs with hfull
    · right
      simpa using ⟨rfl, hfull⟩
    · left
      simp [InboundConnection.accepted]
  · left
    have hbeyond (c : InboundConnection) :
        (s.connections ++ [c])[i]? = s.connections[i]? := by
      rw [List.getElem?_eq_none (l := s.connections) hi.le, List.getElem?_eq_none]
      rw [List.length_append, List.length_singleton]
      exact hi
    split_ifs
    · rw [hbeyond]
    · rw [hbeyond]

theorem Cause.raised {e : MessageReadError} (he : e ≠ .timeout) :
    s.Cause (.read i) i (.raised e) := by
  cases e with
  | oversized length maxSize => rfl
  | timeout => exact absurd rfl he
  | incomplete => rfl

theorem Cause.of_leave {stream : Stream} {outcome : ConnectionEnd} {s' : TcpListener}
    {event : ListenerStep} (hi : (s'.connections[i]?).isSome) (hcause : s.Cause event i outcome)
    (hended : (s'.leave i stream outcome).stage? i = some (.ended result)) :
    s.Cause event i result := by
  obtain ⟨c, hc⟩ := Option.isSome_iff_exists.mp hi
  rw [stage?_leave, if_pos rfl, hc] at hended
  injection hended with hended
  injection hended with hended
  rwa [← hended]

/-- Only a task that waits goes on. -/
theorem read_or_self (s : TcpListener) (i : ℕ) :
    (∃ c, s.connections[i]? = some c ∧ c.isReading = true) ∨ s.read i = s := by
  unfold TcpListener.read
  split
  · rename_i hi
    exact .inl ⟨_, hi, rfl⟩
  · rename_i hi
    exact .inl ⟨_, hi, rfl⟩
  · exact .inr rfl

theorem Cause.of_read (hi : s.connections[i]? = some c) (hc : c.isReading = true)
    (hended : (s.read i).stage? i = some (.ended result)) : s.Cause (.read i) i result := by
  have hstage : s.stage? i ≠ some (.ended result) := by
    rw [stage?, hi, Option.map_some]
    intro heq
    rw [InboundConnection.isReading, Option.some.inj heq] at hc
    cases hc
  have hsome : (s.connections[i]?).isSome := by rw [hi]; rfl
  obtain ⟨stream, received, stage⟩ := c
  unfold TcpListener.read at hended
  rw [hi] at hended
  cases stage with
  | ended r => cases hc
  | readingLength =>
      dsimp only at hended
      unfold TcpListener.readLength at hended
      split at hended
      · split at hended
        · rw [stage?_update, if_pos rfl, hi] at hended
          cases hended
        · rename_i e hsize
          refine .of_leave hsome (.raised ?_) hended
          rintro rfl
          exact checkSize_ne_timeout hsize
      · exact absurd hended hstage
      · rename_i e rest hne hread
        exact .of_leave hsome (.raised fun heq ↦ hne heq) hended
  | readingBody length =>
      dsimp only at hended
      unfold TcpListener.readBody at hended
      split at hended
      · rename_i frame rest hread
        dsimp only at hended
        refine .of_leave (by rwa [connections_enqueue]) ?_ hended
        unfold enqueue
        split_ifs with hfull
        · exact ⟨rfl, hfull⟩
        · rfl
      · exact absurd hended hstage
      · rename_i e rest hne hread
        exact .of_leave hsome (.raised fun heq ↦ hne heq) hended

theorem Cause.of_raise {event : ListenerStep} {outcome : ConnectionEnd}
    (hended : (s.raise j outcome).stage? i = some (.ended result))
    (hcause : s.Cause event j outcome) :
    s.stage? i = some (.ended result) ∨ s.Cause event i result := by
  by_cases hij : j = i
  · subst hij
    unfold TcpListener.raise at hended
    split at hended
    · rename_i c hj
      split_ifs at hended
      · right
        exact .of_leave (by rw [hj]; rfl) hcause hended
      · exact .inl hended
    · exact .inl hended
  · left
    rw [stage?, ← getElem?_raise_of_ne hij outcome]
    exact hended

theorem Cause.of_step {event : ListenerStep}
    (hended : (s.step event).stage? i = some (.ended result)) :
    s.stage? i = some (.ended result) ∨ s.Cause event i result := by
  cases event with
  | connect =>
      obtain h | h | ⟨h, hfull⟩ := s.stage?_connect i
      · exact .inl (h.symm.trans hended)
      · cases h.symm.trans hended
      · cases h.symm.trans hended
        exact .inr ⟨rfl, hfull⟩
  | receive j bytes =>
      left
      change (s.update j _).stage? i = _ at hended
      rw [stage?_update_of_stage fun c ↦ c.stage_receive bytes] at hended
      exact hended
  | close j =>
      left
      change (s.update j _).stage? i = _ at hended
      rw [stage?_update_of_stage fun c ↦ c.stage_close] at hended
      exact hended
  | read j =>
      by_cases hij : j = i
      · subst hij
        obtain ⟨c, hj, hc⟩ | hread := s.read_or_self j
        · exact .inr (.of_read hj hc hended)
        · left
          rw [← hread]
          exact hended
      · left
        rw [stage?, ← getElem?_read_of_ne hij]
        exact hended
  | expire j => exact Cause.of_raise hended rfl
  | interrupt j cause => exact Cause.of_raise hended rfl
  | take =>
      left
      change s.take.stage? i = _ at hended
      unfold TcpListener.take at hended
      split at hended
      · exact hended
      · exact hended

theorem run_append (steps steps' : List ListenerStep) :
    s.run (steps ++ steps') = (s.run steps).run steps' := List.foldl_append

theorem Cause.of_run (steps : List ListenerStep)
    (hended : (TcpListener.run {} steps).stage? i = some (.ended result)) :
    ∃ before event after, steps = before ++ event :: after ∧
      (TcpListener.run {} before).Cause event i result := by
  induction steps using List.reverseRecOn with
  | nil => cases hended
  | append_singleton steps event ih =>
      rw [run_append] at hended
      obtain hbefore | hcause := Cause.of_step hended
      · obtain ⟨before, event', after, rfl, hcause⟩ := ih hbefore
        exact ⟨before, event', after ++ [event], by simp, hcause⟩
      · exact ⟨steps, event, [], rfl, hcause⟩

/-! ## Main results -/

/-- Over every interleaving, the count is that of the tasks that read and stays within its limit;
what has been taken from the inbox and what is in it are the frames in the order of their
arrival; a connection brings in at most one frame, and that which one read of all its bytes
gives. -/
theorem listener_exact (steps : List ListenerStep) :
    let s := TcpListener.run {} steps
    s.activeConnections = s.connections.countP InboundConnection.isReading ∧
      s.activeConnections ≤ maxConcurrentConnections ∧ s.inbox.length ≤ inboxMaxSize ∧
      s.taken ++ s.inbox = s.arrived.map Prod.snd ∧ (s.arrived.map Prod.fst).Nodup ∧
      (∀ i frame, (i, frame) ∈ s.arrived ↔
        ∃ c, s.connections[i]? = some c ∧ c.stage = .ended (.enqueued frame)) ∧
      ∀ i c, s.connections[i]? = some c → c.Reads ∧ ∀ result, c.stage = .ended result →
        ∃ before event after, steps = before ++ event :: after ∧
          (TcpListener.run {} before).Cause event i result := by
  intro s
  have h : s.Sound := sound_init.run steps
  refine ⟨h.active, h.bounded, h.inbox, h.fifo, h.owners, fun i frame ↦ ?_, fun i c hi ↦ ?_⟩
  · rw [h.arrived, stage?, Option.map_eq_some_iff]
  · refine ⟨h.reads c (List.mem_of_getElem? hi), fun result hresult ↦ Cause.of_run steps ?_⟩
    rw [stage?, show (TcpListener.run {} steps).connections[i]? = some c from hi, Option.map_some,
      hresult]

/-- A connection whose first bytes are a whole message within the limit has ended after two more
reads of it, whatever other tasks do in between: with that very message in the inbox, or lost
to a full inbox, a deadline or an interruption, and for no other reason. -/
theorem listener_delivers (steps more : List ListenerStep) {i : ℕ} {c : InboundConnection}
    {message frame : Bytes} (hi : (TcpListener.run {} steps).connections[i]? = some c)
    (hcarries : c.Carries message frame) (htwice : 2 ≤ more.count (.read i)) :
    ∃ c' result, (TcpListener.run {} (steps ++ more)).connections[i]? = some c' ∧
      c'.stage = .ended result ∧
      (result = .enqueued message ∨ ∃ before event after, steps ++ more = before ++ event :: after ∧
        (TcpListener.run {} before).Cause event i result ∧
        (result = .dropped message ∨ result = .raised .timeout ∨
          ∃ cause, result = .interrupted cause)) := by
  have h : (TcpListener.run {} steps).Sound := sound_init.run steps
  obtain ⟨c', hc', hcarries', hrank⟩ := h.progress hi hcarries more
  rw [← run_append] at hc'
  have hreads := (sound_init.run (steps ++ more)).reads c' (List.mem_of_getElem? hc')
  obtain ⟨rest, hwhole⟩ := hcarries'.readLengthPrefixed
  have hbound : c.stage.rank ≤ 2 := by
    cases c.stage with
    | readingLength => exact le_rfl
    | readingBody length => exact Nat.le_succ 1
    | ended result => exact Nat.zero_le 2
  have hzero : c'.stage.rank = 0 := by omega
  obtain ⟨result, hresult⟩ : ∃ result, c'.stage = .ended result := by
    cases hstage : c'.stage with
    | readingLength =>
        rw [hstage] at hzero
        cases hzero
    | readingBody length =>
        rw [hstage] at hzero
        cases hzero
    | ended result => exact ⟨result, rfl⟩
  refine ⟨c', result, hc', hresult, ?_⟩
  have hended : (TcpListener.run {} (steps ++ more)).stage? i = some (.ended result) := by
    rw [stage?, hc', Option.map_some, hresult]
  obtain ⟨before, event, after, hsplit, hcause⟩ := Cause.of_run (steps ++ more) hended
  unfold InboundConnection.Reads at hreads
  rw [hresult] at hreads
  cases result with
  | refused =>
      have hnil : c'.received = [] := hreads
      have hframe := hcarries'.received
      rw [hnil, List.prefix_nil] at hframe
      exact absurd hframe hcarries'.frame_ne_nil
  | enqueued frame' =>
      left
      cases hreads.symm.trans hwhole
      rfl
  | dropped frame' =>
      cases hreads.symm.trans hwhole
      exact .inr ⟨before, event, after, hsplit, hcause, .inl rfl⟩
  | raised e =>
      cases e with
      | timeout => exact .inr ⟨before, event, after, hsplit, hcause, .inr (.inl rfl)⟩
      | oversized length maxSize => cases hreads.symm.trans hwhole
      | incomplete => cases hreads.symm.trans hwhole
  | interrupted cause =>
      exact .inr ⟨before, event, after, hsplit, hcause, .inr (.inr ⟨cause, rfl⟩)⟩

/-- A message in two pieces, next to a connection that sends nothing. -/
theorem listener_delivers_pieces :
    ∃ c' result, (TcpListener.run {} [.connect, .connect, .receive 1 [0, 0, 0], .read 1,
        .receive 1 [2, 7, 8], .read 1, .close 0, .read 1]).connections[1]? = some c' ∧
      c'.stage = .ended result ∧
      (result = .enqueued [7, 8] ∨ ∃ before event after, [.connect, .connect,
          .receive 1 [0, 0, 0], .read 1, .receive 1 [2, 7, 8], .read 1, .close 0, .read 1] =
            before ++ event :: after ∧
        (TcpListener.run {} before).Cause event 1 result ∧
        (result = .dropped [7, 8] ∨ result = .raised .timeout ∨
          ∃ cause, result = .interrupted cause)) :=
  listener_delivers [.connect, .connect, .receive 1 [0, 0, 0], .read 1, .receive 1 [2, 7, 8]]
    [.read 1, .close 0, .read 1]
    (c := ⟨⟨[0, 0, 0, 2, 7, 8], false⟩, [0, 0, 0, 2, 7, 8], .readingLength⟩) rfl
    ⟨rfl, by decide, List.prefix_rfl⟩ (by decide)

end TcpListener
end SecureSync
