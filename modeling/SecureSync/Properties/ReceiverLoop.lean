import SecureSync.Channel.Records
import SecureSync.Receiver.PushLoop

/-!
# Frames that leave the receiver running

A frame is dropped when the channel rejects it.  Past that, the loop goes on
only if what the frame carries is read without an exception.
-/

namespace SecureSync

open BigEndian Raising Machines

/-! ## What the channel raises -/

namespace SecureChannel

variable {π : Type} (channel : SecureChannel π)

/-- What a frame decrypts to under the session that it names. -/
def Decrypts (store : SessionStore) (frame framed : Bytes) : Prop :=
  ∃ header encrypted session, splitFrame frame = .ok (header, encrypted) ∧
    preFilter store header (counterOfNonce encrypted.nonce) = .ok session ∧
      channel.decryptFrame session header encrypted = .ok framed

/-- The device ids fit into the associated data. -/
structure IdsFit (store : SessionStore) : Prop where
  own : (utf8 channel.ownDeviceId).length < 65536
  peers : ∀ session ∈ store.sessions, (utf8 session.peerId).length < 65536

theorem messageId_lt {msgpack : MsgPack π} {framed : Bytes} {packet : Packet π}
    (h : Packet.decode msgpack framed = .ok packet) : packet.header.messageId < 256 ^ 8 := by
  obtain ⟨header, hheader, h⟩ := except_bind_eq_ok.mp h
  dsimp only at h
  have hpacket : packet.header = header := by
    split_ifs at h
    iterate 3
      obtain ⟨_, hthrow, -⟩ := except_bind_eq_ok.mp h
      cases hthrow
    split at h
    · cases h
    · cases h
      rfl
  unfold PacketHeader.unpack at hheader
  split_ifs at hheader
  dsimp only at hheader
  split at hheader
  · cases hheader
  · obtain rfl := Except.ok.inj hheader
    rw [hpacket]
    refine lt_of_lt_of_le (decode_lt _) (Nat.pow_le_pow_right (by norm_num) ?_)
    exact (List.length_take_le _ _)

variable {channel} {store store' : SessionStore} {frame : Bytes} {now : ChannelClock}

theorem deriveNonce_error {direction : UInt8} {counter : ℕ} (hcounter : counter < 256 ^ 8)
    {e : ChannelError} (h : deriveNonce direction counter = .error e) :
    ∃ error, e = .replay error := by
  unfold deriveNonce at h
  rw [packUnsigned_eq_ok.mpr ⟨hcounter, rfl⟩] at h
  split_ifs at h
  · cases h
    exact ⟨_, rfl⟩
  · cases h
    exact ⟨_, rfl⟩

theorem checkPacket_error {header : FrameHeader} {nonce : Bytes} {inner : PacketHeader}
    (hinner : inner.messageId < 256 ^ 8) {e : ChannelError}
    (h : channel.checkPacket header nonce inner now = .error e) : ∃ error, e = .replay error := by
  unfold checkPacket at h
  split at h
  case h_1 e' hnonce =>
    cases h
    exact deriveNonce_error hinner hnonce
  case h_2 =>
    split_ifs at h <;> cases h <;> exact ⟨_, rfl⟩

theorem decryptFrame_error {session : PeerSession} {header : FrameHeader}
    {encrypted : EncryptedPayload} (hown : (utf8 channel.ownDeviceId).length < 65536)
    (hpeer : (utf8 session.peerId).length < 65536) {e : ChannelError}
    (h : channel.decryptFrame session header encrypted = .error e) :
    ∃ error, e = .replay error := by
  unfold decryptFrame at h
  rw [buildAad_eq_ok.mpr ⟨hpeer, hown, rfl⟩] at h
  dsimp only at h
  split at h <;> cases h
  exact ⟨_, rfl⟩

variable (now) in
/-- What decrypts must decode, or else `open` raises something other than a
rejection. -/
theorem decodes_iff (hids : channel.IdsFit store) :
    (∀ framed, channel.Decrypts store frame framed → ∃ packet,
        Packet.decode channel.msgpack framed = .ok packet) ↔
      ∀ e, channel.authenticate store frame now = .error e → ∃ error, e = .replay error := by
  constructor
  · intro h e hauth
    simp only [authenticate, except_bind_eq_error, except_mapError_eq_error,
      except_mapError_eq_ok] at hauth
    rcases hauth with ⟨error, -, rfl⟩ | ⟨⟨header, encrypted⟩, hsplit,
      ⟨error, -, rfl⟩ | ⟨session, hfilter, hdecrypt | ⟨framed, hdecrypt, hrest⟩⟩⟩
    · exact ⟨error, rfl⟩
    · exact ⟨error, rfl⟩
    · have hsession := (SessionStore.getBySessionId_eq_some.mp (preFilter_eq_ok.mp hfilter).2.1).1
      exact decryptFrame_error hids.own (hids.peers session hsession) hdecrypt
    · obtain ⟨packet, hpacket⟩ := h framed ⟨header, encrypted, session, hsplit, hfilter, hdecrypt⟩
      rcases hrest with ⟨error, herror, -⟩ | ⟨packet', hpacket', hcheck | ⟨u, -, hreturn⟩⟩
      · rw [hpacket] at herror
        cases herror
      · exact checkPacket_error (messageId_lt hpacket') hcheck
      · cases hreturn
  · rintro h framed ⟨header, encrypted, session, hsplit, hfilter, hdecrypt⟩
    cases hpacket : Packet.decode channel.msgpack framed with
    | ok packet => exact ⟨packet, rfl⟩
    | error e =>
        have hauth : channel.authenticate store frame now = .error (.packet e) := by
          simp only [authenticate, except_bind_eq_error, except_mapError_eq_error,
            except_mapError_eq_ok]
          exact .inr ⟨_, hsplit, .inr ⟨_, hfilter, .inr ⟨_, hdecrypt, .inl ⟨e, hpacket, rfl⟩⟩⟩⟩
        obtain ⟨error, herror⟩ := h _ hauth
        cases herror

theorem authenticate_of_open_error {e : ChannelError}
    (h : channel.open frame now store = .error e store') :
    channel.authenticate store frame now = .error e := by
  cases hauth : channel.authenticate store frame now with
  | error e' =>
      unfold «open» at h
      rw [hauth] at h
      cases h
      rfl
  | ok result =>
      obtain ⟨session, packet, counter⟩ := result
      rw [open_eq_ok.mpr ⟨session, counter, hauth, rfl, rfl⟩] at h
      cases h

end SecureChannel

/-! ## Pushes that are handled or dropped -/

theorem WireChunk.metadata_of_typed? {chunk : WireChunk} {typed : Chunk}
    (h : chunk.typed? = some typed) : typed.metadata = chunk.metadata := by
  unfold WireChunk.typed? at h
  split at h
  · cases h
    rfl
  · cases h

namespace PushLoop

variable {loop : PushLoop} {push : PushMessage} {store : SessionStore}

/-- The push and the vectors of its file have the declared types; or it is dropped before they
matter, since its path leads out of the root, it is out of bounds, its bytes are not those that it
declares, or too many files are being received; or the vectors can be merged and stored as they
are. -/
inductive Tolerates (loop : PushLoop) (s : LooseState) (push : PushMessage) : Prop
  | typed {incoming : IncomingPush} (h : push.typed? = some incoming)
      (hloose : s.loose.Typed push.relativePath)
  | unsafePath {error : UnsafePathError}
      (h : resolveWithin loop.resolver loop.syncRoot push.relativePath = .error error)
  | outOfBounds {error : PushRejection}
      (h : loop.limits.validateBounds push.totalChunks push.chunk.metadata = .error error)
  | forged {chunk : Chunk} (hchunk : push.chunk.typed? = some chunk)
      (h : push.chunk.metadata.chunkHash ≠ some (loop.hasher.hash chunk.data))
  | full {chunk : Chunk} (hchunk : push.chunk.typed? = some chunk)
      (h : ¬ loop.HasRoom s.receiver push.relativePath)
  | merges {chunk : Chunk} (hchunk : push.chunk.typed? = some chunk)
      (h : loop.Merges loop.builtins s push)

theorem typed?_eq_some {incoming : IncomingPush} (h : push.typed? = some incoming) :
    push.chunk.typed? = some incoming.chunk ∧ push.vector? = some incoming.versionVector ∧
      incoming.relativePath = push.relativePath ∧ incoming.totalChunks = push.totalChunks := by
  unfold PushMessage.typed? at h
  obtain ⟨chunk, hchunk, h⟩ := Option.bind_eq_some_iff.mp h
  obtain ⟨versionVector, hvector, h⟩ := Option.bind_eq_some_iff.mp h
  obtain rfl := Option.some.inj h
  exact ⟨hchunk, hvector, rfl, rfl⟩

/-- With the declared types, the use case takes over. -/
theorem handleMessage_typed {s : LooseState} {incoming : IncomingPush}
    (hlink : loop.meetsLinkLoop push.relativePath = false) (h : push.typed? = some incoming)
    (hloose : s.loose.Typed push.relativePath) (clock : Clock) :
    loop.handleMessage clock push s = onReceiver (loop.handleEvent (.push clock incoming)) s := by
  obtain ⟨hchunk, hvector, hpath, htotal⟩ := typed?_eq_some h
  unfold handleMessage
  rw [hlink, if_neg Bool.false_ne_true]
  simp only [hchunk, hvector, if_pos hloose]
  rw [← hpath, ← htotal]

theorem declared_of_validateBounds {limits : PushLimits} {totalChunks : ℤ}
    {metadata : ChunkMetadata} {declared : ChunkHash}
    (h : limits.validateBounds totalChunks metadata = .ok declared) :
    metadata.chunkHash = some declared := by
  unfold PushLimits.validateBounds at h
  split_ifs at h
  split at h
  · cases h
  · obtain rfl := Except.ok.inj h
    assumption

/-- Data that is not bytes is tolerated only where it is not looked at. -/
theorem Tolerates.dropped {s : LooseState} (h : loop.Tolerates s push)
    (hchunk : push.chunk.typed? = none) :
    (∃ error, resolveWithin loop.resolver loop.syncRoot push.relativePath = .error error) ∨
      ∃ error, loop.limits.validateBounds push.totalChunks push.chunk.metadata = .error error := by
  cases h with
  | typed h =>
      rw [(typed?_eq_some h).1] at hchunk
      cases hchunk
  | unsafePath h => exact .inl ⟨_, h⟩
  | outOfBounds h => exact .inr ⟨_, h⟩
  | forged hsome | full hsome | merges hsome =>
      rw [hsome] at hchunk
      cases hchunk

/-- A chunk that passes every check is tolerated for the sake of the vectors. -/
theorem Tolerates.merges_of_stored {s : LooseState} (h : loop.Tolerates s push) {chunk : Chunk}
    (hchunk : push.chunk.typed? = some chunk)
    (hloose : ∀ incoming, push.typed? = some incoming → ¬ s.loose.Typed push.relativePath)
    (hpath : ∃ destination,
      resolveWithin loop.resolver loop.syncRoot push.relativePath = .ok destination)
    (hvalid : loop.validate ⟨push.relativePath, push.totalChunks, chunk, none⟩ = .ok ())
    (hroom : loop.HasRoom s.receiver push.relativePath) : loop.Merges loop.builtins s push := by
  have hbounds := ReceiverSettings.validate_eq_ok.mp hvalid
  rw [WireChunk.metadata_of_typed? hchunk] at hbounds
  cases h with
  | typed h htyped => exact absurd htyped (hloose _ h)
  | unsafePath h =>
      obtain ⟨destination, hpath⟩ := hpath
      rw [h] at hpath
      cases hpath
  | outOfBounds h =>
      rw [h] at hbounds
      cases hbounds
  | forged hsome h =>
      rw [hsome] at hchunk
      obtain rfl := Option.some.inj hchunk
      exact absurd (declared_of_validateBounds hbounds) h
  | full hsome h => exact absurd hroom h
  | merges hsome h => exact h

theorem completed_handleMessage (hserves : loop.metadataRepo.Serves) {s : LooseState}
    (hlink : loop.meetsLinkLoop push.relativePath = false) (h : loop.Tolerates s push)
    (clock : Clock) : Completed (loop.handleMessage clock push s) := by
  cases hchunk : push.chunk.typed? with
  | none =>
      unfold handleMessage
      rw [hlink, if_neg Bool.false_ne_true]
      rcases h.dropped hchunk with ⟨error, herror⟩ | ⟨error, herror⟩
      · simp only [hchunk, herror]
        trivial
      · simp only [hchunk, herror]
        cases resolveWithin loop.resolver loop.syncRoot push.relativePath <;> trivial
  | some chunk =>
      have hdropping (hloose : ∀ incoming, push.typed? = some incoming →
          ¬ s.loose.Typed push.relativePath) :
          Completed (dropping (loop.handleLoose loop.builtins clock push chunk) s) :=
        completed_dropping (raisesAt_handleLoose hserves _ _ _
          (WireChunk.metadata_of_typed? hchunk) (h.merges_of_stored hchunk hloose))
      cases htyped : push.typed? with
      | none =>
          have hvector : push.vector? = none := by
            cases hvector : push.vector? with
            | none => rfl
            | some versionVector =>
                simp [PushMessage.typed?, hchunk, hvector] at htyped
          unfold handleMessage
          rw [hlink, if_neg Bool.false_ne_true]
          simp only [hchunk, hvector]
          exact hdropping fun incoming h ↦ by rw [htyped] at h; cases h
      | some incoming =>
          by_cases hloose : s.loose.Typed push.relativePath
          · rw [handleMessage_typed hlink htyped hloose]
            obtain ⟨u, st, hok⟩ :=
              (completed_handleEvent hserves (.push clock incoming) s.receiver).exists_ok
            simp only [onReceiver, zoom, hok]
            trivial
          · unfold handleMessage
            rw [hlink, if_neg Bool.false_ne_true]
            simp only [hchunk, (typed?_eq_some htyped).2.1, if_neg hloose]
            exact hdropping fun _ _ ↦ hloose

/-- What the loop survives: a frame that decrypts to nothing, or to a packet
which is rejected or carries a push that is tolerated. -/
def Harmless (loop : PushLoop) (s : PushLoopState) : InboxEvent → Prop
  | .sweep _ => True
  | .frame frame now _ =>
      (∀ framed, loop.channel.Decrypts s.store frame framed → ∃ packet,
        Packet.decode loop.channel.msgpack framed = .ok packet) ∧
      ∀ session packet counter,
        loop.channel.authenticate s.store frame now = .ok (session, packet, counter) →
          ∃ payload push, packet.payload = .dict payload ∧ IsPush loop.builtins payload push ∧
            loop.meetsLinkLoop push.relativePath = false ∧ loop.Tolerates s.looseState push

variable {s : PushLoopState} {event : InboxEvent}

/-- In terms of what is read of the frame. -/
theorem harmless_frame (hids : loop.channel.IdsFit s.store) {frame : Bytes} {now : ChannelClock}
    {clock : Clock} : loop.Harmless s (.frame frame now clock) ↔
      ∃ read store, loop.receivePush frame now s.store = .ok read store ∧
        ∀ push ∈ read, loop.meetsLinkLoop push.relativePath = false ∧
          loop.Tolerates s.looseState push := by
  have hrejected : (∀ framed, loop.channel.Decrypts s.store frame framed → ∃ packet,
      Packet.decode loop.channel.msgpack framed = .ok packet) ↔ _ :=
    SecureChannel.decodes_iff now hids
  constructor
  · rintro ⟨hdecodes, hpush⟩
    unfold receivePush
    cases hopen : loop.channel.open frame now s.store with
    | error e store =>
        obtain ⟨error, rfl⟩ :=
          hrejected.mp hdecodes e (SecureChannel.authenticate_of_open_error hopen)
        exact ⟨none, store, rfl, nofun⟩
    | ok result store =>
        obtain ⟨packet, session⟩ := result
        obtain ⟨session', counter, hauth, -, -⟩ := SecureChannel.open_eq_ok.mp hopen
        obtain ⟨payload, push, hpayload, hisPush, htolerates⟩ := hpush _ _ _ hauth
        refine ⟨some push, store, ?_, ?_⟩
        · dsimp only
          rw [pushFromPayload_eq_ok.mpr ⟨payload, hpayload, hisPush⟩]
        · rintro _ ⟨⟩
          exact htolerates
  · rintro ⟨read, store, hread, htolerates⟩
    unfold receivePush at hread
    cases hopen : loop.channel.open frame now s.store with
    | error e store' =>
        have hauth := SecureChannel.authenticate_of_open_error hopen
        rw [hopen] at hread
        cases e with
        | replay error =>
            refine ⟨hrejected.mpr fun e he ↦ ?_, fun session packet counter hok ↦ ?_⟩
            · rw [hauth] at he
              exact ⟨error, (Except.error.inj he).symm⟩
            · rw [hauth] at hok
              cases hok
        | packet error => cases hread
        | counterExhausted sentCount => cases hread
    | ok result store' =>
        obtain ⟨packet, session⟩ := result
        obtain ⟨session', counter, hauth, -, -⟩ := SecureChannel.open_eq_ok.mp hopen
        rw [hopen] at hread
        dsimp only at hread
        refine ⟨hrejected.mpr fun e he ↦ ?_, fun session packet counter hok ↦ ?_⟩
        · rw [hauth] at he
          cases he
        · rw [hauth] at hok
          cases hok
          cases hpush : pushFromPayload loop.builtins packet.payload with
          | error e =>
              rw [hpush] at hread
              cases hread
          | ok push =>
              rw [hpush] at hread
              cases hread
              obtain ⟨payload, hpayload, hisPush⟩ := pushFromPayload_eq_ok.mp hpush
              exact ⟨payload, push, hpayload, hisPush, htolerates push rfl⟩

theorem harmless_of_merges (hids : loop.channel.IdsFit s.store) {frame : Bytes}
    {now : ChannelClock} {clock : Clock}
    (h : (value? (loop.receivePush frame now s.store)).any (Option.all fun push ↦
      decide (loop.meetsLinkLoop push.relativePath = false ∧ push.chunk.typed?.isSome ∧
        loop.Merges loop.builtins s.looseState push)) = true) :
    loop.Harmless s (.frame frame now clock) := by
  rw [harmless_frame hids]
  obtain ⟨read, hread, hall⟩ := (Option.any_eq_true _ _).mp h
  obtain ⟨store, hread⟩ := value?_eq_some.mp hread
  refine ⟨read, store, hread, ?_⟩
  rintro push ⟨⟩
  obtain ⟨hlink, hchunk, hmerges⟩ := of_decide_eq_true hall
  obtain ⟨chunk, hchunk⟩ := Option.isSome_iff_exists.mp hchunk
  exact ⟨hlink, .merges hchunk hmerges⟩

theorem step_frame (hs : s.failure = none) (frame : Bytes) (now : ChannelClock) (clock : Clock) :
    loop.step s (.frame frame now clock) =
      match loop.receivePush frame now s.store with
      | .error e store => loop.ended store s.looseState e
      | .ok none store => { s with store }
      | .ok (some push) store =>
          match loop.handleMessage clock push s.looseState with
          | .error e after => loop.ended store after e
          | .ok _ after => ⟨store, after.receiver, after.loose, none⟩ := by
  unfold step
  rw [hs]
  rfl

/-- A harmless event does not end the loop. -/
theorem failure_step (hserves : loop.metadataRepo.Serves) (hids : loop.channel.IdsFit s.store)
    (hs : s.failure = none) (h : loop.Harmless s event) : (loop.step s event).failure = none := by
  cases event with
  | sweep now =>
      unfold step
      rw [hs]
      rfl
  | frame frame now clock =>
      rw [step_frame hs]
      obtain ⟨read, store, hread, htolerates⟩ := (harmless_frame hids).mp h
      rw [hread]
      cases read with
      | none => exact hs
      | some push =>
          obtain ⟨hlink, htolerates⟩ := htolerates push rfl
          obtain ⟨u, after, hok⟩ :=
            (completed_handleMessage hserves hlink htolerates clock).exists_ok
          dsimp only
          rw [hok]

theorem idsFit_receivePush (hids : loop.channel.IdsFit store) (frame : Bytes)
    (now : ChannelClock) : loop.channel.IdsFit (stateOf (loop.receivePush frame now store)) := by
  unfold receivePush
  cases hopen : loop.channel.open frame now store with
  | error e store' =>
      obtain rfl := SecureChannel.open_error hopen
      cases e <;> exact hids
  | ok result store' =>
      obtain ⟨packet, session⟩ := result
      obtain ⟨session', counter, hauth, rfl, rfl⟩ := SecureChannel.open_eq_ok.mp hopen
      obtain ⟨header, encrypted, aad, framed, hauthentic⟩ :=
        SecureChannel.authenticate_eq_ok.mp hauth
      have hmem := (SessionStore.getBySessionId_eq_some.mp hauthentic.session_eq).1
      have hids' : loop.channel.IdsFit
          (store.update (SecureChannel.received session' counter now)) := by
        refine ⟨hids.own, fun session hsession ↦ ?_⟩
        rcases SessionStore.mem_sessions_update.mp hsession with rfl | ⟨hold, -⟩
        · rw [(SecureChannel.sameTerms_received session' counter now).peerId]
          exact hids.peers session' hmem
        · exact hids.peers session hold
      dsimp only
      cases pushFromPayload loop.builtins packet.payload <;> exact hids'

theorem idsFit_step (hids : loop.channel.IdsFit s.store) :
    loop.channel.IdsFit (loop.step s event).store := by
  cases hs : s.failure with
  | some e =>
      unfold step
      rw [hs]
      exact hids
  | none =>
      cases event with
      | sweep now =>
          unfold step
          rw [hs]
          exact hids
      | frame frame now clock =>
          have hkept := idsFit_receivePush hids frame now
          rw [step_frame hs]
          cases hrun : loop.receivePush frame now s.store with
          | error e store =>
              rw [hrun] at hkept
              exact hkept
          | ok push store =>
              rw [hrun] at hkept
              cases push with
              | none => exact hkept
              | some push =>
                  dsimp only
                  cases loop.handleMessage clock push s.looseState <;> exact hkept

end PushLoop

/-- As long as every event is harmless, the loop goes on, and every push that comes off the wire is
handled: as the use case handles it, where the vectors have the declared types. -/
theorem receiver_survives {loop : PushLoop} (hserves : loop.metadataRepo.Serves)
    {s : PushLoopState} (hids : loop.channel.IdsFit s.store) (hs : s.failure = none)
    {events : List InboxEvent} (h : Meets loop.step loop.Harmless s events) :
    (events.foldl loop.step s).failure = none ∧
      ∀ pre frame now clock post, events = pre ++ .frame frame now clock :: post →
        ∀ packet session store,
          loop.channel.open frame now (pre.foldl loop.step s).store = .ok (packet, session) store →
            ∀ payload push, packet.payload = .dict payload → IsPush loop.builtins payload push →
              let s₁ := pre.foldl loop.step s
              let s₂ := (pre ++ [InboxEvent.frame frame now clock]).foldl loop.step s
              loop.handleMessage clock push s₁.looseState = .ok () s₂.looseState ∧
                ∀ incoming, push.typed? = some incoming → s₁.loose.Typed push.relativePath →
                  loop.handleEvent (.push clock incoming) s₁.receiver = .ok () s₂.receiver := by
  have halive : ∀ {events}, Meets loop.step loop.Harmless s events →
      (events.foldl loop.step s).failure = none ∧
        loop.channel.IdsFit (events.foldl loop.step s).store := by
    intro events hmeets
    exact hmeets.induction (P := fun s ↦ s.failure = none ∧ loop.channel.IdsFit s.store)
      (fun s event hharmless hP ↦ ⟨PushLoop.failure_step hserves hP.2 hP.1 hharmless,
        PushLoop.idsFit_step hP.2⟩) ⟨hs, hids⟩
  refine ⟨(halive h).1, ?_⟩
  rintro pre frame now clock post rfl packet session store hopen payload push hpayload hpush
  obtain ⟨hpre, hrest⟩ := meets_append.mp h
  obtain ⟨hnone, hfit⟩ := halive hpre
  have hrun : loop.receivePush frame now (pre.foldl loop.step s).store = .ok (some push) store := by
    simp only [PushLoop.receivePush, hopen, pushFromPayload_eq_ok.mpr ⟨payload, hpayload, hpush⟩]
  obtain ⟨read, store', hread, htolerates⟩ := (PushLoop.harmless_frame hfit).mp hrest.1
  rw [hrun] at hread
  cases hread
  obtain ⟨hlink, htolerates⟩ := htolerates push rfl
  obtain ⟨u, after, hhandled⟩ :=
    (PushLoop.completed_handleMessage hserves hlink htolerates clock).exists_ok
  have hstep : (pre ++ [InboxEvent.frame frame now clock]).foldl loop.step s =
      ⟨store, after.receiver, after.loose, none⟩ := by
    rw [List.foldl_append, List.foldl_cons, List.foldl_nil, PushLoop.step_frame hnone, hrun]
    dsimp only
    rw [hhandled]
  rw [hstep]
  refine ⟨hhandled, fun incoming htyped hloose ↦ ?_⟩
  rw [PushLoop.handleMessage_typed hlink htyped hloose] at hhandled
  obtain ⟨receiver, hevent, rfl⟩ := zoom_eq_ok.mp hhandled
  exact hevent

/-! ### A request that goes to the wrong port -/

/-- What Alice may send to Bob: a request of the manifest exchange, and a push. -/
def requestPayload : PyDict := [(.str "relative_path", .str "a.txt")]

def pushPayload (counters : PyValue) : PyDict :=
  [(.str "chunk_id", .str "c"), (.str "index", .int 0), (.str "size", .int 1),
   (.str "offset", .int 0), (.str "hash_algorithm", .str "sha256"),
   (.str "hash_digest", .str digestOf2.digest), (.str "data", .bytes [2]),
   (.str "relative_path", .str "a.txt"), (.str "total_chunks", .int 1),
   (.str "version_counters", counters)]

/-- A counter that is no integer. -/
def halfEdit : PyValue := .dict [(.str "A", .float (.finite (1 / 2)))]

/-- The encodings of a request, a push without a vector and one with half an edit. -/
def threePayloads : MsgPack PyValue where
  packb
    | .dict entries =>
        if entries.length = 1 then [1]
        else if (PyDict.get? entries "version_counters").any fun value ↦ value.eq .none then [10]
        else [11]
    | _ => []
  unpackb bs :=
    if bs = [1] then some (.dict requestPayload)
    else if bs = [10] then some (.dict (pushPayload .none))
    else if bs = [11] then some (.dict (pushPayload halfEdit))
    else none

def sampleLoop : PushLoop :=
  { sampleReceiver.onDisk with
    channel := (pairNetworkOf threePayloads).channel true
    builtins :=
      { str := fun value ↦ match value with
          | .str s => s
          | _ => ""
        parseInt := String.toInt?
        parseIntBytes := fun _ ↦ none
        str_str := fun _ ↦ rfl }
    linkLoops := fun _ ↦ false }

def sampleLoopStart : PushLoopState :=
  ⟨(SessionStore.new {}).record (.start (pairTerms true) 0), sampleReceiverState none, .empty, none⟩

/-- The frames as Alice seals them, one after the other. -/
def sealedFrames : List Bytes :=
  let channel := (pairNetworkOf threePayloads).channel false
  let all : EStateM ChannelError PeerSession (List Bytes) := do
    let request ← channel.seal .fileManifest (.dict requestPayload) ⟨0, 0⟩
    let push ← channel.seal .chunkData (.dict (pushPayload .none)) ⟨0, 0⟩
    let loose ← channel.seal .chunkData (.dict (pushPayload halfEdit)) ⟨0, 0⟩
    return [request, push, loose]
  (value? (all (.start (pairTerms false) 0))).getD []

def inboxOf (frames : List Bytes) : List InboxEvent :=
  frames.map fun frame ↦ .frame frame ⟨1, 1⟩ ⟨1, default⟩

/-- A manifest request of a live session ends the loop, and the push behind it
is not handled any more. -/
theorem manifest_request_ends_receiver :
    ((inboxOf sealedFrames).foldl sampleLoop.step sampleLoopStart).failure =
        some (.payload (.key "total_chunks")) ∧
      ((inboxOf sealedFrames).foldl sampleLoop.step sampleLoopStart).receiver.storage.files
          (.file samplePath) = none ∧
        ((inboxOf sealedFrames.tail).foldl sampleLoop.step sampleLoopStart).receiver.storage.files
          (.file samplePath) = some [2] := by
  decide +kernel

theorem sampleLoop_serves : sampleLoop.metadataRepo.Serves :=
  ⟨fun _ _ ↦ trivial, fun _ _ ↦ trivial⟩

theorem sampleLoopStart_idsFit : sampleLoop.channel.IdsFit sampleLoopStart.store := by
  refine ⟨by decide +kernel, ?_⟩
  have hall : ∀ session ∈ sampleLoopStart.store.sessions,
      (utf8 session.peerId).length < 65536 := by decide +kernel
  exact hall

/-- Bytes that are no frame, and then the pushes; the half edit is merged with Bob's own. -/
theorem receiver_survives_junk :
    ((inboxOf ([0] :: sealedFrames.tail)).foldl sampleLoop.step sampleLoopStart).failure =
      none := by
  have hmeets : Meets sampleLoop.step sampleLoop.Harmless sampleLoopStart
      (inboxOf ([0] :: sealedFrames.tail)) := by
    have hframes : inboxOf ([0] :: sealedFrames.tail) =
        [.frame [0] ⟨1, 1⟩ ⟨1, default⟩,
          .frame (sealedFrames.getD 1 []) ⟨1, 1⟩ ⟨1, default⟩,
          .frame (sealedFrames.getD 2 []) ⟨1, 1⟩ ⟨1, default⟩] := rfl
    rw [hframes]
    refine ⟨?_, ?_, ?_, trivial⟩
    · exact PushLoop.harmless_of_merges sampleLoopStart_idsFit (by decide +kernel)
    · exact PushLoop.harmless_of_merges (PushLoop.idsFit_step sampleLoopStart_idsFit)
        (by decide +kernel)
    · exact PushLoop.harmless_of_merges
        (PushLoop.idsFit_step (PushLoop.idsFit_step sampleLoopStart_idsFit)) (by decide +kernel)
  exact (receiver_survives sampleLoop_serves sampleLoopStart_idsFit rfl hmeets).1

end SecureSync
