import SecureSync.Infrastructure.InProcessTransport
import SecureSync.Library.Multicast
import SecureSync.Properties.MessageLimit

/-!
# Delivery within one process

Who gets which message of the in-process transports, over every interleaving of the sends and
of the generators that share an inbox.
-/

namespace SecureSync

open Raising

def IncomingPush.digest? (incoming : IncomingPush) : Option String :=
  incoming.chunk.metadata.chunkHash.map ChunkHash.digest

/-! ## What a message is for a generator -/

section Messages

variable {texts : WireTexts} {builtins : Builtins} {incoming : IncomingPush}

theorem wireChunkFromPayload_pushPayload {payload : PyDict}
    (h : texts.pushPayload incoming = .dict payload) :
    wireChunkFromPayload builtins payload = .ok (texts.pushMessage incoming).chunk := by
  have hpush := texts.pushFromPayload_pushPayload incoming builtins
  rw [h, pushFromPayload, pushFromDict] at hpush
  obtain ⟨_, -, hpush⟩ := except_bind_eq_ok.mp hpush
  obtain ⟨_, -, hpush⟩ := except_bind_eq_ok.mp hpush
  obtain ⟨chunk, hchunk, hpush⟩ := except_bind_eq_ok.mp hpush
  obtain ⟨_, -, hpush⟩ := except_bind_eq_ok.mp hpush
  rw [hchunk, ← Except.ok.inj hpush]

theorem wantedDigest_pushPayload {payload : PyDict}
    (h : texts.pushPayload incoming = .dict payload) (remaining : Finset String) :
    wantedDigest remaining payload = .ok (incoming.digest?.filter (· ∈ remaining)) := by
  obtain rfl := (PyValue.dict.inj h).symm
  unfold wantedDigest IncomingPush.digest?
  cases incoming.chunk.metadata.chunkHash with
  | none => simp [PyDict.get?, PyValue.isName, field, orNone, PyValue.hashable]
  | some chunkHash =>
      simp only [PyDict.get?, PyValue.isName, field, orNone, Option.map_some, Option.filter_some]
      simp

end Messages

/-! ## What a request keeps -/

/-- Of what a request has taken: the first message of every digest that was asked for. -/
structure Kept (hashes : Finset String) (taken : List IncomingPush) (remaining : Finset String)
    (kept : List IncomingPush) : Prop where
  remaining_iff : ∀ d, d ∈ remaining ↔ d ∈ hashes ∧ ∀ p ∈ taken, p.digest? ≠ some d
  sublist : kept.Sublist taken
  asked : ∀ p ∈ kept, ∃ d ∈ hashes, p.digest? = some d
  first : ∀ d ∈ hashes, (kept.find? fun p ↦ p.digest? = some d) =
    taken.find? fun p ↦ p.digest? = some d
  nodup : (kept.map IncomingPush.digest?).Nodup

theorem kept_nil (hashes : Finset String) : Kept hashes [] hashes [] :=
  ⟨by simp, List.Sublist.refl _, by simp, by simp, List.nodup_nil⟩

section Requests

variable {hashes remaining : Finset String} {taken kept : List IncomingPush} {p : IncomingPush}

/-- A message that is not asked for, or no longer, is dropped. -/
theorem Kept.drop (h : Kept hashes taken remaining kept)
    (hp : p.digest?.filter (· ∈ remaining) = none) : Kept hashes (taken ++ [p]) remaining kept := by
  have hnot : ∀ d ∈ remaining, p.digest? ≠ some d := by
    intro d hd hdigest
    rw [hdigest, Option.filter_some, decide_eq_true hd] at hp
    cases hp
  refine ⟨fun d ↦ ?_, h.sublist.trans (List.sublist_append_left _ _), h.asked, fun d hd ↦ ?_,
    h.nodup⟩
  · simp only [List.forall_mem_append, List.forall_mem_singleton]
    constructor
    · intro hd
      obtain ⟨hasked, hall⟩ := (h.remaining_iff d).mp hd
      exact ⟨hasked, hall, hnot d hd⟩
    · rintro ⟨hasked, hall, -⟩
      exact (h.remaining_iff d).mpr ⟨hasked, hall⟩
  · rw [h.first d hd, List.find?_append]
    by_cases hseen : ∀ q ∈ taken, q.digest? ≠ some d
    · have hd' := (h.remaining_iff d).mpr ⟨hd, hseen⟩
      simp [hnot d hd']
    · push Not at hseen
      obtain ⟨q, hq, hdigest⟩ := hseen
      have hsome : (taken.find? fun p ↦ p.digest? = some d).isSome = true := by
        rw [List.find?_isSome]
        exact ⟨q, hq, decide_eq_true hdigest⟩
      rw [Option.or_of_isSome hsome]

theorem Kept.keep (h : Kept hashes taken remaining kept) {digest : String}
    (hp : p.digest?.filter (· ∈ remaining) = some digest) :
    Kept hashes (taken ++ [p]) (remaining.erase digest) (kept ++ [p]) := by
  obtain ⟨hdigest, hremaining⟩ : p.digest? = some digest ∧ digest ∈ remaining := by
    simpa [Option.filter_eq_some_iff] using hp
  obtain ⟨hasked, hfresh⟩ := (h.remaining_iff digest).mp hremaining
  refine ⟨fun d ↦ ?_, h.sublist.append (List.Sublist.refl _), ?_, fun d hd ↦ ?_, ?_⟩
  · simp only [Finset.mem_erase, h.remaining_iff, List.forall_mem_append,
      List.forall_mem_singleton, hdigest, ne_eq, Option.some.injEq]
    tauto
  · simp only [List.forall_mem_append, List.forall_mem_singleton]
    exact ⟨h.asked, digest, hasked, hdigest⟩
  · rw [List.find?_append, List.find?_append, h.first d hd]
  · rw [List.map_append, List.map_singleton, ← List.concat_eq_append]
    refine h.nodup.concat ?_
    rw [List.mem_map]
    rintro ⟨q, hq, hsame⟩
    exact hfresh q (h.sublist.subset hq) (hsame.trans hdigest)

end Requests

/-- What a generator is after the messages that it has taken. -/
def Generator.Reflects (texts : WireTexts) (generator : Generator) (taken : List IncomingPush) :
    Prop :=
  match generator.call with
  | .receivePushes => generator.pc = .receiving ∧ generator.chunks = [] ∧
      generator.pushes = taken.map texts.pushMessage
  | .requestChunks chunkHashes => generator.pushes = [] ∧
      ∃ remaining kept, Kept chunkHashes.toFinset taken remaining kept ∧
        generator.pc = Generator.requesting remaining ∧
        generator.chunks = kept.map fun p ↦ (texts.pushMessage p).chunk

theorem Generator.transport_handle (builtins : Builtins) (generator : Generator)
    (payload : PyValue) : (generator.handle builtins payload).transport = generator.transport := by
  have hrequested (remaining : Finset String) :
      (generator.handleRequested builtins remaining payload).transport = generator.transport := by
    unfold Generator.handleRequested
    repeat' split
    all_goals rfl
  have hpush : (generator.handlePush builtins payload).transport = generator.transport := by
    unfold Generator.handlePush
    split <;> rfl
  unfold Generator.handle
  split
  · exact hrequested _
  · exact hpush
  · rfl

theorem Generator.Reflects.handle {texts : WireTexts} {builtins : Builtins} {generator : Generator}
    {taken : List IncomingPush} (h : generator.Reflects texts taken)
    (hwaiting : generator.isWaiting = true) (p : IncomingPush) :
    (generator.handle builtins (texts.pushPayload p)).Reflects texts (taken ++ [p]) := by
  obtain ⟨call, transport, pc, chunks, pushes⟩ := generator
  cases call with
  | receivePushes =>
      obtain ⟨rfl, rfl, rfl⟩ := h
      simp only [Generator.handle, Generator.handlePush, texts.pushFromPayload_pushPayload]
      exact ⟨rfl, rfl, by simp⟩
  | requestChunks chunkHashes =>
      obtain ⟨rfl, remaining, kept, hkept, rfl, rfl⟩ := h
      have hpc : Generator.requesting remaining = .requesting remaining := by
        unfold Generator.requesting
        split_ifs with hempty
        · rw [Generator.isWaiting, Generator.requesting, if_pos hempty] at hwaiting
          cases hwaiting
        · rfl
      cases hpayload : texts.pushPayload p with
      | dict payload =>
          simp only [Generator.handle, hpc, Generator.handleRequested,
            wantedDigest_pushPayload hpayload, wireChunkFromPayload_pushPayload hpayload]
          cases hwanted : p.digest?.filter (· ∈ remaining) with
          | none => exact ⟨rfl, remaining, kept, hkept.drop hwanted, hpc.symm, rfl⟩
          | some digest =>
              exact ⟨rfl, remaining.erase digest, kept ++ [p], hkept.keep hwanted, rfl, by simp⟩
      | _ => cases hpayload

/-- What a generator has yielded of the messages that it took. -/
def Generator.Yields (generator : Generator) (taken : List IncomingPush) : Prop :=
  match generator.call with
  | .receivePushes => generator.pc = .receiving ∧
      generator.pushes.map PushMessage.typed? = taken.map some
  | .requestChunks chunkHashes =>
      ∃ remaining kept, Kept chunkHashes.toFinset taken remaining kept ∧
        generator.pc = Generator.requesting remaining ∧
        generator.chunks.map WireChunk.typed? = kept.map fun p ↦ some p.chunk

theorem Generator.Reflects.yields {texts : WireTexts} {generator : Generator}
    {taken : List IncomingPush} (h : generator.Reflects texts taken) : generator.Yields taken := by
  unfold Generator.Reflects at h
  unfold Generator.Yields
  split at h
  · obtain ⟨hpc, -, hpushes⟩ := h
    refine ⟨hpc, ?_⟩
    rw [hpushes, List.map_map]
    exact List.map_congr_left fun p _ ↦ texts.typed?_pushMessage p
  · obtain ⟨-, remaining, kept, hkept, hpc, hchunks⟩ := h
    refine ⟨remaining, kept, hkept, hpc, ?_⟩
    rw [hchunks, List.map_map]
    exact List.map_congr_left fun _ _ ↦ rfl

/-! ## Messages and keys -/

namespace InProcessTransport

/-- What never changes of a transport. -/
def fixed (t : InProcessTransport) : DeviceId × Bytes × Bytes :=
  (t.ownDeviceId, t.sendKey, t.receiveKey)

end InProcessTransport

/-- Every transport of the peer has the key that a transport sends with. -/
def Paired (transports : List InProcessTransport) (sender : ℕ) (peer : DeviceId) : Prop :=
  ∀ s, transports[sender]? = some s → ∀ r ∈ transports, r.ownDeviceId = peer →
    r.receiveKey = s.sendKey

instance (transports : List InProcessTransport) (sender : ℕ) (peer : DeviceId) :
    Decidable (Paired transports sender peer) :=
  decidable_of_iff (∀ s ∈ transports[sender]?, ∀ r ∈ transports, r.ownDeviceId = peer →
    r.receiveKey = s.sendKey) (by simp [Paired])

/-- The peer has the key, and `msgpack` gives back what it was given. -/
def InProcessSettings.Sendable (settings : InProcessSettings)
    (transports : List InProcessTransport) (sender : ℕ) (peer : DeviceId)
    (incoming : IncomingPush) : Prop :=
  Paired transports sender peer ∧ ((settings.texts.pushPayload incoming).packable = true →
    settings.msgpack.unpackb (settings.msgpack.packb (settings.texts.pushPayload incoming)) =
      some (settings.texts.pushPayload incoming))

namespace InProcessSettings

variable {settings : InProcessSettings} {s r r' : InProcessTransport} {peer : DeviceId}
  {incoming : IncomingPush} {nonce : RandomNonce} {nowMs : ℕ} {message : Bytes}

theorem openEnvelope_congr (h : r.fixed = r'.fixed) :
    settings.openEnvelope r message = settings.openEnvelope r' message := by
  obtain ⟨hid, hkeys⟩ := Prod.mk.inj h
  obtain ⟨-, hkey⟩ := Prod.mk.inj hkeys
  rw [openEnvelope, openEnvelope, hid, hkey]

/-- What is put into an inbox is read by a transport of that inbox. -/
theorem openEnvelope_envelope (h : settings.cipher.Correct)
    (hround : (settings.texts.pushPayload incoming).packable = true →
      settings.msgpack.unpackb (settings.msgpack.packb (settings.texts.pushPayload incoming)) =
        some (settings.texts.pushPayload incoming))
    (hmessage : settings.envelope s peer incoming nonce nowMs = some message)
    (hkey : r.receiveKey = s.sendKey) (hid : r.ownDeviceId = peer) :
    settings.openEnvelope r message = .ok (settings.texts.pushPayload incoming) := by
  unfold envelope at hmessage
  dsimp only at hmessage
  split_ifs at hmessage with hpackable
  split at hmessage
  · rename_i framed hframed
    obtain rfl := Option.some.inj hmessage
    have hnonce := h.nonce_run ⟨framed, s.sendKey, nonce.val, utf8 peer⟩
    have htag := h.length_tag_run ⟨framed, s.sendKey, nonce.val, utf8 peer⟩
    have hdecrypt := h.decrypt_run ⟨framed, s.sendKey, nonce.val, utf8 peer⟩
    unfold AeadCipher.run at hnonce htag hdecrypt
    rw [openEnvelope, EncryptedPayload.unpack_pack (by rw [hnonce]; exact nonce.2) htag, hkey, hid,
      hdecrypt]
    dsimp only
    rw [Packet.decode_encode settings.msgpack (hround hpackable) hframed]
    rfl
  · cases hmessage

end InProcessSettings

/-! ## Runs -/

namespace InProcessNetwork

variable (settings : InProcessSettings)

/-- The message that a step puts into an inbox. -/
def sends (net : InProcessNetwork) : InProcessStep → Option (DeviceId × IncomingPush)
  | .send sender peer incoming nonce nowMs =>
      (net.transports[sender]?).bind fun s ↦
        (settings.envelope s peer incoming nonce nowMs).map fun _ ↦ (peer, incoming)
  | _ => none

/-- The generator that a step hands a message to, and the message with its inbox. -/
def takes (net : InProcessNetwork) : InProcessStep → Option (DeviceId × ℕ × Bytes)
  | .take index =>
      match net.generators[index]? with
      | none => none
      | some generator =>
          match generator.isWaiting, net.transports[generator.transport]? with
          | true, some t =>
              (net.inboxes t.ownDeviceId).head?.map fun message ↦ (t.ownDeviceId, index, message)
          | _, _ => none
  | _ => none

/-- The messages that a run puts into the inbox of a device. -/
def sentTo (d : DeviceId) (net : InProcessNetwork) : List InProcessStep → List IncomingPush
  | [] => []
  | a :: steps =>
      (((net.sends settings a).toList.filter fun message ↦ message.1 = d).map Prod.snd) ++
        sentTo d (net.step settings a) steps

/-- The messages that a run takes from the inbox of a device, each with its generator. -/
def takenFrom (d : DeviceId) (net : InProcessNetwork) : List InProcessStep → List (ℕ × Bytes)
  | [] => []
  | a :: steps =>
      (((net.takes a).toList.filter fun taking ↦ taking.1 = d).map Prod.snd) ++
        takenFrom d (net.step settings a) steps

/-- Who has taken which push of every inbox, in order. -/
abbrev TakenLog := DeviceId → List (ℕ × IncomingPush)

def took (log : TakenLog) (d : DeviceId) (index : ℕ) : List IncomingPush :=
  ((log d).filter fun entry ↦ entry.1 = index).map Prod.snd

variable {settings} {transports : List InProcessTransport} {net : InProcessNetwork}

/-- Every message of an inbox is for a transport of the device what has been sent. -/
def Carries (settings : InProcessSettings) (transports : List InProcessTransport) (d : DeviceId)
    (incoming : IncomingPush) (message : Bytes) : Prop :=
  ∀ r ∈ transports, r.ownDeviceId = d →
    settings.openEnvelope r message = .ok (settings.texts.pushPayload incoming)

/-- The messages that were taken, and what each of them carries. -/
def Logged (settings : InProcessSettings) (transports : List InProcessTransport) (d : DeviceId) :
    List (ℕ × IncomingPush) → List (ℕ × Bytes) → Prop :=
  List.Forall₂ fun entry taking ↦
    entry.1 = taking.1 ∧ Carries settings transports d entry.2 taking.2

structure Sound (settings : InProcessSettings) (transports : List InProcessTransport)
    (net : InProcessNetwork) (sent : DeviceId → List IncomingPush)
    (taken : DeviceId → List (ℕ × Bytes)) (log : TakenLog) : Prop where
  fixed : net.transports.map InProcessTransport.fixed = transports.map InProcessTransport.fixed
  inbox : ∀ d, ∃ waiting, sent d = (log d).map Prod.snd ++ waiting ∧
    List.Forall₂ (Carries settings transports d) waiting (net.inboxes d)
  logged : ∀ d, Logged settings transports d (log d) (taken d)
  early : ∀ d, ∀ entry ∈ log d, entry.1 < net.generators.length
  reflects : ∀ (i : ℕ) (g : Generator) (t : InProcessTransport), net.generators[i]? = some g →
    net.transports[g.transport]? = some t → g.Reflects settings.texts (took log t.ownDeviceId i)

section Step

variable {sent : DeviceId → List IncomingPush} {taken : DeviceId → List (ℕ × Bytes)}
  {log : TakenLog}

theorem Sound.mem_fixed (h : Sound settings transports net sent taken log) {i : ℕ}
    {t : InProcessTransport}
    (ht : net.transports[i]? = some t) : ∃ t₀, transports[i]? = some t₀ ∧ t.fixed = t₀.fixed := by
  have hget := congrArg (fun l : List (DeviceId × Bytes × Bytes) ↦ l[i]?) h.fixed
  simp only [List.getElem?_map, ht, Option.map_some] at hget
  obtain ⟨t₀, ht₀, heq⟩ := Option.map_eq_some_iff.mp hget.symm
  exact ⟨t₀, ht₀, heq.symm⟩

theorem fixed_countMessage (i : ℕ) :
    (net.countMessage i).map InProcessTransport.fixed =
      net.transports.map InProcessTransport.fixed := by
  unfold countMessage
  apply List.ext_getElem?
  intro j
  simp only [List.getElem?_map, List.getElem?_modify]
  by_cases hj : i = j
  · subst hj
    cases net.transports[i]? with
    | none => rfl
    | some t => simp [InProcessTransport.fixed]
  · simp [hj]

theorem ownDeviceId_countMessage {i j : ℕ} {t : InProcessTransport}
    (ht : (net.countMessage i)[j]? = some t) :
    ∃ t', net.transports[j]? = some t' ∧ t'.ownDeviceId = t.ownDeviceId := by
  unfold countMessage at ht
  rw [List.getElem?_modify] at ht
  obtain ⟨t', ht', rfl⟩ := Option.map_eq_some_iff.mp ht
  refine ⟨t', ht', ?_⟩
  split_ifs <;> rfl

theorem Sound.send (hcipher : settings.cipher.Correct)
    (h : Sound settings transports net sent taken log) {sender : ℕ} {peer : DeviceId}
    {incoming : IncomingPush} {nonce : RandomNonce} {nowMs : ℕ}
    (hsendable : settings.Sendable transports sender peer incoming) :
    Sound settings transports (net.send settings sender peer incoming nonce nowMs)
      (fun d ↦ sent d ++
        ((net.sends settings (.send sender peer incoming nonce nowMs)).toList.filter
          fun message ↦ message.1 = d).map Prod.snd) taken log := by
  unfold InProcessNetwork.send
  cases hs : net.transports[sender]? with
  | none =>
      have hsends : net.sends settings (.send sender peer incoming nonce nowMs) = none := by
        simp [sends, hs]
      simpa [hsends] using h
  | some s =>
      have hreflects : ∀ (i : ℕ) (g : Generator) (t : InProcessTransport),
          net.generators[i]? = some g → (net.countMessage sender)[g.transport]? = some t →
            g.Reflects settings.texts (took log t.ownDeviceId i) := by
        intro i g t hg ht
        obtain ⟨t', ht', hid⟩ := ownDeviceId_countMessage ht
        exact hid ▸ h.reflects i g t' hg ht'
      have hfixed : (net.countMessage sender).map InProcessTransport.fixed = _ :=
        (fixed_countMessage sender).trans h.fixed
      cases hmessage : settings.envelope s peer incoming nonce nowMs with
      | none =>
          have hsends : net.sends settings (.send sender peer incoming nonce nowMs) = none := by
            simp [sends, hs, hmessage]
          simp only [hmessage, hsends, Option.toList_none, List.filter_nil, List.map_nil,
            List.append_nil]
          exact ⟨hfixed, h.inbox, h.logged, h.early, hreflects⟩
      | some message =>
          have hsends : net.sends settings (.send sender peer incoming nonce nowMs) =
              some (peer, incoming) := by
            simp [sends, hs, hmessage]
          simp only [hmessage, hsends, Option.toList_some]
          refine ⟨hfixed, fun d ↦ ?_, h.logged, h.early, hreflects⟩
          obtain ⟨waiting, hsent, hcarries⟩ := h.inbox d
          by_cases hd : peer = d
          · subst hd
            refine ⟨waiting ++ [incoming], by simp [hsent], ?_⟩
            simp only [putMessage, Function.update_self]
            apply List.rel_append hcarries
            refine List.Forall₂.cons (fun r hr hid ↦ ?_) List.Forall₂.nil
            obtain ⟨s₀, hs₀, heq⟩ := h.mem_fixed hs
            obtain ⟨-, hkeys⟩ := Prod.mk.inj heq
            apply InProcessSettings.openEnvelope_envelope hcipher hsendable.2 hmessage _ hid
            rw [hsendable.1 s₀ hs₀ r hr hid, (Prod.mk.inj hkeys).1]
          · refine ⟨waiting, by simp [hsent, hd], ?_⟩
            simp only [putMessage, Function.update_of_ne (Ne.symm hd)]
            exact hcarries

theorem Sound.addGenerator (h : Sound settings transports net sent taken log) {g : Generator}
    (hg : g.Reflects settings.texts []) :
    Sound settings transports (net.addGenerator g) sent taken log := by
  refine ⟨h.fixed, h.inbox, h.logged, fun d entry hentry ↦ ?_, fun i g' t hg' ht ↦ ?_⟩
  · simp only [InProcessNetwork.addGenerator, List.length_append, List.length_singleton]
    have hearly := h.early d entry hentry
    omega
  · rcases Multicast.getElem?_concat_eq_some.mp hg' with hold | ⟨rfl, rfl⟩
    · exact h.reflects i g' t hold ht
    · have hnone : took log t.ownDeviceId net.generators.length = [] := by
        unfold took
        rw [List.map_eq_nil_iff, List.filter_eq_nil_iff]
        intro entry hentry
        have hearly := h.early _ entry hentry
        simpa using hearly.ne
      rwa [hnone]

/-- The books after a message was taken. -/
theorem Sound.takeMessage (h : Sound settings transports net sent taken log) {index : ℕ}
    {g g' : Generator} {t : InProcessTransport} {message : Bytes} {rest : List Bytes}
    (hg : net.generators[index]? = some g) (hwaiting : g.isWaiting = true)
    (ht : net.transports[g.transport]? = some t)
    (hinbox : net.inboxes t.ownDeviceId = message :: rest)
    (hhandled : ∀ payload, settings.openEnvelope t message = .ok payload →
      g' = g.handle settings.builtins payload) :
    ∃ log', Sound settings transports
      { net with
        inboxes := Function.update net.inboxes t.ownDeviceId rest
        generators := net.generators.set index g' }
      sent
      (fun d ↦ taken d ++
        ([(t.ownDeviceId, index, message)].filter fun taking ↦ taking.1 = d).map Prod.snd)
      log' := by
  obtain ⟨waiting, hsent, hcarries⟩ := h.inbox t.ownDeviceId
  rw [hinbox] at hcarries
  obtain ⟨p, waiting, hfirst, hrest, rfl⟩ := List.forall₂_cons_right_iff.mp hcarries
  obtain ⟨t₀, ht₀, hfixed⟩ := h.mem_fixed ht
  have hopen : settings.openEnvelope t message = .ok (settings.texts.pushPayload p) := by
    rw [InProcessSettings.openEnvelope_congr hfixed]
    exact hfirst t₀ (List.mem_of_getElem? ht₀) (congrArg Prod.fst hfixed).symm
  obtain rfl := hhandled _ hopen
  have hindex : index < net.generators.length := (List.getElem?_eq_some_iff.mp hg).1
  refine ⟨Function.update log t.ownDeviceId (log t.ownDeviceId ++ [(index, p)]),
    h.fixed, fun d ↦ ?_, fun d ↦ ?_, fun d entry hentry ↦ ?_, fun i g' t' hg' ht' ↦ ?_⟩
  · by_cases hd : d = t.ownDeviceId
    · subst hd
      refine ⟨waiting, ?_, ?_⟩
      · simp [hsent]
      · simpa using hrest
    · obtain ⟨waiting', hsent', hcarries'⟩ := h.inbox d
      refine ⟨waiting', ?_, ?_⟩
      · simpa [Function.update_of_ne hd] using hsent'
      · simpa [Function.update_of_ne hd] using hcarries'
  · by_cases hd : d = t.ownDeviceId
    · subst hd
      have hlogged := List.rel_append (h.logged t.ownDeviceId)
        (List.Forall₂.cons (a := (index, p)) (b := (index, message)) ⟨rfl, hfirst⟩
          List.Forall₂.nil)
      simpa [Logged] using hlogged
    · simpa [Function.update_of_ne hd, Ne.symm hd] using h.logged d
  · rw [List.length_set]
    by_cases hd : d = t.ownDeviceId
    · subst hd
      rw [Function.update_self] at hentry
      rcases List.mem_append.mp hentry with hentry | hentry
      · exact h.early _ entry hentry
      · rw [List.mem_singleton.mp hentry]
        exact hindex
    · rw [Function.update_of_ne hd] at hentry
      exact h.early d entry hentry
  · dsimp only at hg' ht'
    rw [List.getElem?_set] at hg'
    split_ifs at hg' with hi
    · subst hi
      obtain rfl := Option.some.inj hg'
      rw [Generator.transport_handle, ht] at ht'
      obtain rfl := Option.some.inj ht'
      have htook : took (Function.update log t.ownDeviceId
          (log t.ownDeviceId ++ [(index, p)])) t.ownDeviceId index =
            took log t.ownDeviceId index ++ [p] := by
        simp [took]
      rw [htook]
      exact (h.reflects index g t hg ht).handle hwaiting p
    · have htook : took (Function.update log t.ownDeviceId
          (log t.ownDeviceId ++ [(index, p)])) t'.ownDeviceId i =
            took log t'.ownDeviceId i := by
        unfold took
        by_cases hd : t'.ownDeviceId = t.ownDeviceId
        · simp [hd, hi]
        · rw [Function.update_of_ne hd]
      rw [htook]
      exact h.reflects i g' t' hg' ht'

theorem Sound.take (h : Sound settings transports net sent taken log) (index : ℕ) :
    ∃ log', Sound settings transports (net.take settings index) sent
      (fun d ↦ taken d ++
        ((net.takes (.take index)).toList.filter fun taking ↦ taking.1 = d).map Prod.snd) log' := by
  have hquiet (hnone : net.takes (.take index) = none) :
      Sound settings transports net sent (fun d ↦ taken d ++
        ((net.takes (.take index)).toList.filter fun taking ↦ taking.1 = d).map Prod.snd) log := by
    simpa [hnone] using h
  unfold InProcessNetwork.take
  split
  · rename_i hg
    exact ⟨log, hquiet (by simp [takes, hg])⟩
  · rename_i g hg
    split
    · rename_i t hwaiting ht
      split
      · rename_i hinbox
        exact ⟨log, hquiet (by simp [takes, hg, hwaiting, ht, hinbox])⟩
      · rename_i message rest hinbox
        have htakes : net.takes (.take index) = some (t.ownDeviceId, index, message) := by
          simp [takes, hg, hwaiting, ht, hinbox]
        rw [htakes]
        apply h.takeMessage hg hwaiting ht hinbox
        intro payload hopen
        rw [hopen]
    · rename_i hidle
      have hnone : net.takes (.take index) = none := by
        unfold takes
        simp only [hg]
      exact ⟨log, hquiet hnone⟩

/-- A step keeps the books: what it sends is in an inbox, and what it takes is in the log. -/
theorem Sound.step (hcipher : settings.cipher.Correct)
    (h : Sound settings transports net sent taken log) {a : InProcessStep}
    (hsendable : ∀ sender peer incoming nonce nowMs, a = .send sender peer incoming nonce nowMs →
      settings.Sendable transports sender peer incoming) :
    ∃ log', Sound settings transports (net.step settings a)
      (fun d ↦ sent d ++
        ((net.sends settings a).toList.filter fun message ↦ message.1 = d).map Prod.snd)
      (fun d ↦ taken d ++
        ((net.takes a).toList.filter fun taking ↦ taking.1 = d).map Prod.snd) log' := by
  cases a with
  | send sender peer incoming nonce nowMs =>
      have htakes : net.takes (.send sender peer incoming nonce nowMs) = none := rfl
      have hsent : Sound settings transports (net.send settings sender peer incoming nonce nowMs) _
          taken log := h.send hcipher (hsendable sender peer incoming nonce nowMs rfl)
      exact ⟨log, by simpa [htakes, InProcessNetwork.step] using hsent⟩
  | requestChunks transport chunkHashes =>
      have hadded := h.addGenerator (g := ⟨.requestChunks chunkHashes, transport,
        Generator.requesting chunkHashes.toFinset, [], []⟩)
        ⟨rfl, chunkHashes.toFinset, [], kept_nil _, rfl, rfl⟩
      exact ⟨log, by simpa [sends, takes, InProcessNetwork.step] using hadded⟩
  | receivePushes transport =>
      have hadded := h.addGenerator (g := ⟨.receivePushes, transport, .receiving, [], []⟩)
        ⟨rfl, rfl, rfl⟩
      exact ⟨log, by simpa [sends, takes, InProcessNetwork.step] using hadded⟩
  | take index =>
      obtain ⟨log', h'⟩ := h.take index
      exact ⟨log', by simpa [sends, InProcessNetwork.step] using h'⟩

end Step

def AllSendable (settings : InProcessSettings) (transports : List InProcessTransport)
    (steps : List InProcessStep) : Prop :=
  ∀ sender peer incoming nonce nowMs, .send sender peer incoming nonce nowMs ∈ steps →
    settings.Sendable transports sender peer incoming

theorem Sound.run {sent : DeviceId → List IncomingPush} {taken : DeviceId → List (ℕ × Bytes)}
    {log : TakenLog} (hcipher : settings.cipher.Correct)
    (h : Sound settings transports net sent taken log) {steps : List InProcessStep}
    (hsendable : AllSendable settings transports steps) :
    ∃ log', Sound settings transports (net.run settings steps)
      (fun d ↦ sent d ++ net.sentTo settings d steps)
      (fun d ↦ taken d ++ net.takenFrom settings d steps) log' := by
  induction steps generalizing net sent taken log with
  | nil => exact ⟨log, by simpa [sentTo, takenFrom, InProcessNetwork.run] using h⟩
  | cons a steps ih =>
      obtain ⟨log₁, h₁⟩ := h.step hcipher (a := a) fun sender peer incoming nonce nowMs ha ↦
        hsendable sender peer incoming nonce nowMs (ha ▸ List.mem_cons_self)
      obtain ⟨log₂, h₂⟩ := ih h₁ fun sender peer incoming nonce nowMs hmem ↦
        hsendable sender peer incoming nonce nowMs (List.mem_cons_of_mem a hmem)
      have hrun : net.run settings (a :: steps) = (net.step settings a).run settings steps := rfl
      refine ⟨log₂, ?_⟩
      rw [hrun]
      simpa only [sentTo, takenFrom, List.append_assoc] using h₂

/-- The network before any call. -/
def idle (transports : List InProcessTransport) : InProcessNetwork := ⟨transports, fun _ ↦ [], []⟩

/-- Within one process nothing is lost, repeated, reordered or altered: the pushes sent to a
device are, in order, those carried by the messages that its generators have taken and those
carried by the messages still there.  A generator of `receive_pushes` has yielded every push
that it took; one of `request_chunks` the first chunk of every digest that it was asked for,
and it is finished as soon as it has had all of them; none has failed. -/
theorem in_process_exact (settings : InProcessSettings) (hcipher : settings.cipher.Correct)
    (transports : List InProcessTransport) (steps : List InProcessStep)
    (hsendable : AllSendable settings transports steps) :
    ∃ log : TakenLog, ∀ d,
      Logged settings transports d (log d) (takenFrom settings d (idle transports) steps) ∧
      (∃ waiting, sentTo settings d (idle transports) steps = (log d).map Prod.snd ++ waiting ∧
        List.Forall₂ (Carries settings transports d) waiting
          ((run settings (idle transports) steps).inboxes d)) ∧
      ∀ (i : ℕ) (g : Generator) (t : InProcessTransport),
        (run settings (idle transports) steps).generators[i]? = some g →
        transports[g.transport]? = some t → t.ownDeviceId = d → g.Yields (took log d i) := by
  have hinit : Sound settings transports (idle transports) (fun _ ↦ []) (fun _ ↦ [])
      (fun _ ↦ []) :=
    ⟨rfl, fun _ ↦ ⟨[], rfl, List.Forall₂.nil⟩, fun _ ↦ List.Forall₂.nil, by simp, by simp [idle]⟩
  obtain ⟨log, h⟩ := hinit.run hcipher hsendable
  refine ⟨log, fun d ↦ ⟨by simpa using h.logged d, ?_, fun i g t hg ht hd ↦ ?_⟩⟩
  · obtain ⟨waiting, hsent, hcarries⟩ := h.inbox d
    exact ⟨waiting, hsent, hcarries⟩
  · obtain ⟨s, hs, hfixed⟩ : ∃ s, (run settings (idle transports) steps).transports[g.transport]? =
        some s ∧ s.fixed = t.fixed := by
      have hget := congrArg (fun l : List (DeviceId × Bytes × Bytes) ↦ l[g.transport]?) h.fixed
      simp only [List.getElem?_map, ht, Option.map_some] at hget
      exact Option.map_eq_some_iff.mp hget
    have hid : s.ownDeviceId = d := (congrArg Prod.fst hfixed).trans hd
    rw [← hid]
    exact Generator.Reflects.yields (h.reflects i g s hg hs)

/-- Alice and Bob hold the two keys crosswise. -/
def crossed : List InProcessTransport := [⟨"alice", [1], [2], 0⟩, ⟨"bob", [2], [1], 0⟩]

noncomputable def oneMessage : InProcessSettings where
  cipher := plainCipher
  msgpack :=
    ⟨fun _ ↦ [10], fun bs ↦ if bs = [10] then some (posixTexts.pushPayload (samplePushOf2 none))
      else none⟩
  texts := posixTexts
  builtins := ⟨fun value ↦ match value with
    | .none => "None"
    | .str s => s
    | _ => "", fun _ ↦ none, fun _ ↦ none, fun _ ↦ rfl⟩

/-- Bob waits for pushes and for a chunk while Alice sends. -/
def sendAndTake : List InProcessStep :=
  [.receivePushes 1, .requestChunks 1 [digestOf2.digest],
    .send 0 "bob" (samplePushOf2 none) ⟨List.replicate nonceSize 0, rfl⟩ 0, .take 1]

theorem in_process_exact_bob : ∃ log : TakenLog,
    ∀ g, (run oneMessage (idle crossed) sendAndTake).generators[1]? = some g →
      crossed[g.transport]? = some ⟨"bob", [2], [1], 0⟩ → g.Yields (took log "bob" 1) := by
  have hsendable : AllSendable oneMessage crossed sendAndTake := by
    intro sender peer incoming nonce nowMs hmem
    simp only [sendAndTake, List.mem_cons, reduceCtorEq, InProcessStep.send.injEq,
      List.not_mem_nil, false_or, or_false] at hmem
    obtain ⟨rfl, rfl, rfl, -⟩ := hmem
    exact ⟨by decide, fun _ ↦ rfl⟩
  obtain ⟨log, hlog⟩ := in_process_exact oneMessage plainCipher_correct crossed sendAndTake
    hsendable
  exact ⟨log, fun g hg ht ↦ (hlog "bob").2.2 1 g _ hg ht rfl⟩

end InProcessNetwork

end SecureSync
