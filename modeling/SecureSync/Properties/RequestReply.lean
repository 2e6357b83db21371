import SecureSync.Exchange.Origins
import Mathlib.Data.Set.Countable
import Mathlib.Tactic.DeriveCountable

/-!
# Which request a response answers

A call takes whatever frame arrives on its connection and opens under one of its
sessions.  It answers the call if and only if it was written in reply to the
call's own frame.
-/

namespace SecureSync

open Raising SecureChannel

variable {δ : Type} [DecidableEq δ]

/-- The peer sealed the value, for the path of the call, in answer to its frame. -/
def ExchangeReturn.Answers (r : ExchangeReturn δ) (net : Network δ ExchangePayload)
    (st : Exchanging δ) : Prop :=
  ∃ reply ∈ st.replies, net.deviceId reply.request.device = r.call.request.peer ∧
    reply.frame = r.opened.frame ∧ reply.request.frame = r.call.frame ∧
      r.call.request.answer reply.server = some r.value

/-- The network has brought back a frame that some connection wrote after it had
read the call's frame. -/
def ExchangeReturn.Routed (r : ExchangeReturn δ) (st : Exchanging δ) : Prop :=
  ∃ reply ∈ st.replies, reply.frame = r.opened.frame ∧ reply.request.frame = r.call.frame

namespace Network

variable {net : Network δ ExchangePayload} {st : Exchanging δ}

omit [DecidableEq δ] in
/-- The reply to a request is what the server has for its path. -/
theorem answer_of_reply {request : ExchangeRequest} {server : ManifestServer}
    {packetType : PacketType} {payload : ExchangePayload} {value : Returned}
    (hreply : server.reply request.packetType request.payload = some (packetType, payload))
    (hvalue : request.returned payload = some value) : request.answer server = some value := by
  obtain ⟨peer, relativePath, chunkHashes⟩ := request
  cases chunkHashes with
  | none =>
      obtain ⟨response, hresponse, heq⟩ := Option.map_eq_some_iff.mp hreply
      cases heq
      rw [← hvalue]
      exact Option.map_eq_some_iff.mpr ⟨response, hresponse, rfl⟩
  | some chunkHashes =>
      obtain ⟨chunks, hchunks, heq⟩ := Option.map_eq_some_iff.mp hreply
      cases heq
      rw [← hvalue]
      exact Option.map_eq_some_iff.mpr ⟨chunks, hchunks, rfl⟩

/-- Whoever opens a call's frame is the peer of the call, and finds its request. -/
theorem Exchanged.of_request_frame (h : net.Exchanged st) (hlawful : net.Lawful)
    (hapart : st.world.Apart net) (hids : st.world.IdsUnique) {call : ExchangeCall δ}
    (hcall : call ∈ st.calls) {o : Opened δ ExchangePayload} (ho : o ∈ st.world.opened)
    (hframe : o.frame = call.frame) :
    net.deviceId o.device = call.request.peer ∧ o.packetType = call.request.packetType ∧
      o.payload = call.request.payload := by
  obtain ⟨e, s, hsealed⟩ := h.calls call hcall
  obtain ⟨e', he', s₁, s₂, hfrom⟩ := h.sound.opened_from o ho
  obtain rfl := h.sound.eq_of_sent_frame hlawful.cipher hids hsealed.sent he' hsealed.frame
    (hframe ▸ hfrom.frame)
  have hsession : s = s₂ := by
    refine hapart.eq_of_sessionId (hsealed.device ▸ hfrom.recorded') hsealed.recorded ?_
    rw [hsealed.sessionId, hfrom.sent_sessionId, ← hfrom.sessionId, hfrom.mirrored.sessionId]
  refine ⟨?_, ?_, ?_⟩
  · rw [← hsealed.peerId, hsession, hfrom.mirrored.peerId']
  · rw [← hfrom.packetType, hsealed.packetType]
  · rw [← hfrom.payload, hsealed.payload]

end Network

/-- In every run, what a call returns was sealed by its peer, in answer to the
call and for its path, if and only if the network brought back a reply to the
call's own frame. -/
theorem answers_iff_routed {net : Network δ ExchangePayload} {st : Exchanging δ}
    (hlawful : net.Lawful) (hrun : net.ExchangeRun st) (hapart : st.world.Apart net)
    (hids : st.world.IdsUnique) : ∀ r ∈ st.returns, r.Answers net st ↔ r.Routed st := by
  intro r hr
  have h := hrun.exchanged hlawful hapart
  constructor
  · rintro ⟨reply, hreply, -, hframe, hrequest, -⟩
    exact ⟨reply, hreply, hframe, hrequest⟩
  · rintro ⟨reply, hreply, hframe, hrequest⟩
    have hgenuine := h.returns r hr
    obtain ⟨e, hsealed⟩ := h.replies reply hreply
    obtain ⟨hpeer, htype, hpayload⟩ := h.of_request_frame hlawful hapart hids hgenuine.call
      hsealed.opened hrequest
    -- the frame that came back is the one that the peer sealed
    obtain ⟨e', he', s₁, s₂, hfrom⟩ := h.sound.opened_from r.opened hgenuine.opened
    obtain rfl := h.sound.eq_of_sent_frame hlawful.cipher hids hsealed.sent he' hsealed.frame
      (hframe ▸ hfrom.frame)
    have hanswered := hsealed.answered
    rw [htype, hpayload, ← hsealed.payload, hfrom.payload] at hanswered
    exact ⟨reply, hreply, hpeer, hframe, hrequest,
      Network.answer_of_reply hanswered hgenuine.returned⟩

/-! ### Two requests at once -/

instance countableUInt8 : Countable UInt8 :=
  @Function.Injective.countable _ _ _ UInt8.toNat fun _ _ h ↦ UInt8.toNat_inj.mp h

instance countableBytes : Countable Bytes := inferInstanceAs (Countable (List UInt8))

instance countableString : Countable String := utf8_injective.countable

instance : Countable ChunkHash := ChunkHash.digest_injective.countable

instance : Countable Counters :=
  @Function.Injective.countable _ _ _ Finmap.entries fun _ _ h ↦ Finmap.ext h

deriving instance Countable for ChunkPayload, ChunkMetadata, ChunkCollection, VersionVector,
  ManifestResponse, ExchangePayload

/-- An encoding that is short on the entries of a table. -/
noncomputable def tableMsgPack {α : Type} [DecidableEq α] [Countable α] (table : List α) :
    MsgPack α :=
  let long (a : α) : Bytes := 0 :: 0 :: List.replicate ((exists_injective_nat α).choose a) 0
  { packb := fun a ↦ if a ∈ table then [UInt8.ofNat (table.idxOf a)] else long a
    unpackb := fun
      | [i] => table[i.toNat]?
      | bs => Function.partialInv long bs }

theorem tableMsgPack_lawful {α : Type} [DecidableEq α] [Countable α] {table : List α}
    (hlength : table.length ≤ 256) (a : α) :
    (tableMsgPack table).unpackb ((tableMsgPack table).packb a) = some a := by
  by_cases ha : a ∈ table
  · have hlt := List.idxOf_lt_length_of_mem ha
    have hindex : (UInt8.ofNat (table.idxOf a)).toNat = table.idxOf a := by
      rw [UInt8.toNat_ofNat', Nat.mod_eq_of_lt (by omega)]
    simp only [tableMsgPack, if_pos ha, hindex]
    exact List.getElem?_idxOf ha
  · simp only [tableMsgPack, if_neg ha]
    refine Function.partialInv_left (fun a b hab ↦ ?_) a
    have hlength := congrArg List.length hab
    simp only [List.length_cons, List.length_replicate, Nat.add_right_cancel_iff] at hlength
    exact (exists_injective_nat α).choose_spec hlength

theorem exchangeManifest_wellFormed : ManifestWellFormed 1 0 [] := by decide

def exchangeManifest : ChunkCollection := ⟨["a"], 1, 0, [], exchangeManifest_wellFormed⟩

/-- Bob's files: of `a` he has a manifest. -/
def exchangeServer : ManifestServer where
  resolver := .plain
  syncRoot := []
  repository path := if path = ["a"] then some exchangeManifest else none
  files _ := none

def exchangeResponse (relativePath : String) : ExchangePayload :=
  .manifestResponse ⟨relativePath = "a", exchangeServer.repository [relativePath], none⟩

noncomputable def exchangeMsgPack : MsgPack ExchangePayload := tableMsgPack
  [.manifestRequest "a", .manifestRequest "b", exchangeResponse "a", exchangeResponse "b"]

noncomputable def exchangeNetwork : Network Bool ExchangePayload := pairNetworkOf exchangeMsgPack

theorem exchangeNetwork_lawful : exchangeNetwork.Lawful where
  cipher := plainCipher_correct
  msgpack := tableMsgPack_lawful (by decide)

/-- Alice's request for the manifest of a path. -/
def exchangeRequest (relativePath : String) : ExchangeRequest := ⟨"bob", relativePath, none⟩

noncomputable def exchangeSessions : World Bool ExchangePayload :=
  exchangeNetwork.step
    (exchangeNetwork.step (.start exchangeNetwork.policy) (.put false (pairTerms false) 0))
    (.put true (pairTerms true) 0)

noncomputable def sealExchange (w : World Bool ExchangePayload) (responds : Bool)
    (payload : ExchangePayload) : World Bool ExchangePayload :=
  exchangeNetwork.step w
    (.seal responds (pairTerms responds).sessionId .fileManifest payload ⟨1, 1⟩)

def lastFrame (w : World Bool ExchangePayload) : Bytes :=
  (w.sent.getLast?.bind Sent.frame?).getD []

/-- What is seen of a session and a frame sealed under it. -/
noncomputable def sealing (responds : Bool) (payload : ExchangePayload) (session : PeerSession) :
    Bytes × Option Bytes :=
  (session.sessionId,
    value? ((exchangeNetwork.channel responds).seal .fileManifest payload ⟨1, 1⟩ session))

noncomputable def opening (w : World Bool ExchangePayload) (responds : Bool) (frame : Bytes) :
    Option (Bytes × ℕ × PacketType × ExchangePayload) :=
  (value? ((exchangeNetwork.channel responds).open frame ⟨1, 1⟩ (w.endpoints responds).store)).map
    fun r ↦ (r.2.sessionId, r.1.header.messageId, r.1.header.packetType, r.1.payload)

def exchangeOpened (responds : Bool) (counter : ℕ) (payload : ExchangePayload) (frame : Bytes) :
    Opened Bool ExchangePayload :=
  ⟨responds, (pairTerms responds).sessionId, counter, .fileManifest, payload, ⟨1, 1⟩, frame⟩

/-- Bob's reply to a request that he has opened. -/
def exchangeReply (relativePath : String) (counter : ℕ) (request frame : Bytes) :
    ExchangeReply Bool :=
  ⟨exchangeOpened true counter (.manifestRequest relativePath) request, exchangeServer,
    .fileManifest, exchangeResponse relativePath, frame⟩

noncomputable def deliverExchange (w : World Bool ExchangePayload) (responds : Bool)
    (frame : Bytes) : World Bool ExchangePayload :=
  exchangeNetwork.step w (.deliver responds frame ⟨1, 1⟩)

section Runs

variable {w : World Bool ExchangePayload} {calls waiting : List (ExchangeCall Bool)}
  {accepted : List (Opened Bool ExchangePayload)} {replies : List (ExchangeReply Bool)}
  {returns : List (ExchangeReturn Bool)}

theorem run_request
    (hrun : exchangeNetwork.ExchangeRun ⟨w, calls, waiting, accepted, replies, returns⟩)
    {relativePath : String} {frame : Bytes}
    (hseal : ((w.endpoints false).store.getSendSession "bob" 1).map
        (sealing false (.manifestRequest relativePath)) =
      some ((pairTerms false).sessionId, some frame)) :
    exchangeNetwork.ExchangeRun ⟨sealExchange w false (.manifestRequest relativePath),
      calls ++ [⟨false, exchangeRequest relativePath, frame⟩],
      waiting ++ [⟨false, exchangeRequest relativePath, frame⟩], accepted, replies, returns⟩ := by
  obtain ⟨session, hsession, hsealing⟩ := Option.map_eq_some_iff.mp hseal
  obtain ⟨hid, hvalue⟩ := Prod.mk.inj hsealing
  obtain ⟨session', hok⟩ := value?_eq_some.mp hvalue
  have hstep := Network.ExchangeStep.request
    ⟨w, calls, waiting, accepted, replies, returns⟩ false (exchangeRequest relativePath)
    ⟨1, 1⟩ session session' frame hsession hok
  rw [hid] at hstep
  exact .step hrun hstep

theorem exists_openedAs {responds : Bool} {frame : Bytes} {counter : ℕ} {payload : ExchangePayload}
    (hopening : opening w responds frame =
      some ((pairTerms responds).sessionId, counter, .fileManifest, payload)) :
    ∃ packet session store, (exchangeNetwork.channel responds).open frame ⟨1, 1⟩
        (w.endpoints responds).store = .ok (packet, session) store ∧ packet.payload = payload ∧
      openedAs responds frame ⟨1, 1⟩ packet session =
        exchangeOpened responds counter payload frame := by
  obtain ⟨⟨packet, session⟩, hvalue, hfields⟩ := Option.map_eq_some_iff.mp hopening
  obtain ⟨store, hok⟩ := value?_eq_some.mp hvalue
  simp only [Prod.mk.injEq] at hfields
  obtain ⟨hid, hcounter, htype, hpayload⟩ := hfields
  refine ⟨packet, session, store, hok, hpayload, ?_⟩
  rw [openedAs, hid, hcounter, htype, hpayload, exchangeOpened]

theorem exchange_unforged
    (hrun : exchangeNetwork.ExchangeRun ⟨w, calls, waiting, accepted, replies, returns⟩)
    (hrecorded : w.recorded = pairSessions) {responds : Bool} {frame : Bytes}
    (hsent : (!responds, some frame) ∈ w.sent.map fun e ↦ (e.device, e.frame?)) :
    exchangeNetwork.Unforged w (.deliver responds frame ⟨1, 1⟩) :=
  pair_unforged (hrun.exchanged exchangeNetwork_lawful (pair_apart hrecorded)).sound hrecorded
    hsent _

theorem run_accept
    (hrun : exchangeNetwork.ExchangeRun ⟨w, calls, waiting, accepted, replies, returns⟩)
    (hrecorded : w.recorded = pairSessions) {frame : Bytes} {counter : ℕ}
    {payload : ExchangePayload}
    (hsent : (false, some frame) ∈ w.sent.map fun e ↦ (e.device, e.frame?))
    (hopening : opening w true frame =
      some ((pairTerms true).sessionId, counter, .fileManifest, payload)) :
    exchangeNetwork.ExchangeRun ⟨deliverExchange w true frame, calls, waiting,
      accepted ++ [exchangeOpened true counter payload frame], replies, returns⟩ := by
  obtain ⟨packet, session, store, hok, -, hopened⟩ := exists_openedAs hopening
  rw [← hopened]
  exact .step hrun (.accept _ true frame ⟨1, 1⟩ packet session store
    (exchange_unforged hrun hrecorded hsent) hok)

theorem run_reply {relativePath : String} {counter : ℕ} {request frame : Bytes}
    (hrun : exchangeNetwork.ExchangeRun ⟨w, calls, waiting,
      exchangeOpened true counter (.manifestRequest relativePath) request :: accepted, replies,
      returns⟩)
    (hreply : exchangeServer.reply .fileManifest (.manifestRequest relativePath) =
      some (.fileManifest, exchangeResponse relativePath))
    (hseal : (w.find true (pairTerms true).sessionId).map
        (sealing true (exchangeResponse relativePath)) =
      some ((pairTerms true).sessionId, some frame)) :
    exchangeNetwork.ExchangeRun ⟨sealExchange w true (exchangeResponse relativePath), calls,
      waiting, accepted, replies ++ [exchangeReply relativePath counter request frame],
      returns⟩ := by
  obtain ⟨session, hsession, hsealing⟩ := Option.map_eq_some_iff.mp hseal
  obtain ⟨-, hvalue⟩ := Prod.mk.inj hsealing
  obtain ⟨session', hok⟩ := value?_eq_some.mp hvalue
  have hstep := Network.ExchangeStep.reply
    ⟨w, calls, waiting, exchangeOpened true counter (.manifestRequest relativePath) request ::
      accepted, replies, returns⟩ _ [] accepted exchangeServer .fileManifest _ ⟨1, 1⟩ session
    session' frame rfl hreply hsession hok
  exact .step hrun hstep

theorem run_return {call : ExchangeCall Bool}
    (hrun : exchangeNetwork.ExchangeRun ⟨w, calls, call :: waiting, accepted, replies, returns⟩)
    (hrecorded : w.recorded = pairSessions) {frame : Bytes} {counter : ℕ}
    {payload : ExchangePayload} {value : Returned} (hdevice : call.device = false)
    (hsent : (true, some frame) ∈ w.sent.map fun e ↦ (e.device, e.frame?))
    (hopening : opening w false frame =
      some ((pairTerms false).sessionId, counter, .fileManifest, payload))
    (hvalue : call.request.returned payload = some value) :
    exchangeNetwork.ExchangeRun ⟨deliverExchange w false frame, calls, waiting, accepted, replies,
      returns ++ [⟨call, exchangeOpened false counter payload frame, value⟩]⟩ := by
  obtain ⟨packet, session, store, hok, hpayload, hopened⟩ := exists_openedAs hopening
  obtain ⟨device, request, asked⟩ := call
  obtain rfl : device = false := hdevice
  have hunforged := @exchange_unforged w _ _ _ _ _ hrun hrecorded false frame hsent
  have hstep := Network.ExchangeStep.return
    ⟨w, calls, ⟨false, request, asked⟩ :: waiting, accepted, replies, returns⟩ _ [] waiting frame
    ⟨1, 1⟩ packet session store value rfl hunforged hok (hpayload ▸ hvalue)
  rw [hopened] at hstep
  exact .step hrun hstep

end Runs

/-- Alice asks for two paths at once. -/
noncomputable def askedA : World Bool ExchangePayload :=
  sealExchange exchangeSessions false (.manifestRequest "a")

noncomputable def askedB : World Bool ExchangePayload :=
  sealExchange askedA false (.manifestRequest "b")

/-- Bob opens both requests. -/
noncomputable def acceptedA : World Bool ExchangePayload :=
  deliverExchange askedB true (lastFrame askedA)

noncomputable def acceptedB : World Bool ExchangePayload :=
  deliverExchange acceptedA true (lastFrame askedB)

/-- Bob replies to both. -/
noncomputable def repliedA : World Bool ExchangePayload :=
  sealExchange acceptedB true (exchangeResponse "a")

noncomputable def repliedB : World Bool ExchangePayload :=
  sealExchange repliedA true (exchangeResponse "b")

noncomputable def callA : ExchangeCall Bool := ⟨false, exchangeRequest "a", lastFrame askedA⟩

noncomputable def callB : ExchangeCall Bool := ⟨false, exchangeRequest "b", lastFrame askedB⟩

noncomputable def replyA : ExchangeReply Bool :=
  exchangeReply "a" 1 (lastFrame askedA) (lastFrame repliedA)

noncomputable def replyB : ExchangeReply Bool :=
  exchangeReply "b" 2 (lastFrame askedB) (lastFrame repliedB)

theorem repliedB_run : exchangeNetwork.ExchangeRun
    ⟨repliedB, [callA, callB], [callA, callB], [], [replyA, replyB], []⟩ := by
  have hstart : exchangeNetwork.ExchangeRun ⟨exchangeSessions, [], [], [], [], []⟩ :=
    .step (.step .start (.elsewhere _ (.put false (pairTerms false) 0) trivial))
      (.elsewhere _ (.put true (pairTerms true) 0) trivial)
  have hasked : exchangeNetwork.ExchangeRun ⟨askedB, [callA, callB], [callA, callB], [], [], []⟩ :=
    run_request (run_request hstart (by decide +kernel)) (by decide +kernel)
  have haccepted : exchangeNetwork.ExchangeRun
      ⟨acceptedB, [callA, callB], [callA, callB], [replyA.request, replyB.request], [], []⟩ :=
    run_accept (run_accept hasked (by decide +kernel) (by decide +kernel) (by decide +kernel))
      (by decide +kernel) (by decide +kernel) (by decide +kernel)
  exact run_reply (run_reply haccepted (by decide +kernel) (by decide +kernel))
    (by decide +kernel) (by decide +kernel)

theorem replyA_request : replyA.request.frame = callA.frame := by
  rw [replyA, exchangeReply, exchangeOpened, callA]

theorem replyB_request : replyB.request.frame = callB.frame := by
  rw [replyB, exchangeReply, exchangeOpened, callB]

/-- One of the replies comes back to the first call. -/
noncomputable def returnA (counter : ℕ) (reply : ExchangeReply Bool) (value : Returned) :
    ExchangeReturn Bool :=
  ⟨callA, exchangeOpened false counter reply.payload reply.frame, value⟩

theorem returnA_frame {counter : ℕ} {reply : ExchangeReply Bool} {value : Returned} :
    (returnA counter reply value).opened.frame = reply.frame := by
  rw [returnA, exchangeOpened]

noncomputable def exchangeReturned (counter : ℕ) (reply : ExchangeReply Bool) (value : Returned) :
    Exchanging Bool :=
  ⟨deliverExchange repliedB false reply.frame, [callA, callB], [callB], [], [replyA, replyB],
    [returnA counter reply value]⟩

/-- What Bob answers for `a`. -/
def exchangeValue : Returned := .manifest (some ⟨exchangeManifest, none⟩)

theorem answers_returnA : (returnA 1 replyA exchangeValue).Answers exchangeNetwork
    (exchangeReturned 1 replyA exchangeValue) := by
  have hrun : exchangeNetwork.ExchangeRun (exchangeReturned 1 replyA exchangeValue) :=
    run_return repliedB_run (by decide +kernel) rfl (by decide +kernel) (by decide +kernel) rfl
  have hrecorded : (exchangeReturned 1 replyA exchangeValue).world.recorded = pairSessions := by
    decide +kernel
  have hids : (exchangeReturned 1 replyA exchangeValue).world.IdsUnique := by
    rw [World.IdsUnique, hrecorded]
    decide
  exact (answers_iff_routed exchangeNetwork_lawful hrun (pair_apart hrecorded) hids _
    (List.mem_singleton_self _)).mpr
      ⟨replyA, List.mem_cons_self, returnA_frame.symm, replyA_request⟩

/-- The replies to the two requests have been swapped: the call for `a` returns
that Bob has no manifest, which is his answer for `b`. -/
theorem swapped_reply_returned :
    exchangeNetwork.ExchangeRun (exchangeReturned 2 replyB (.manifest none)) ∧
      callA.request.answer exchangeServer = some exchangeValue ∧
        ¬ (returnA 2 replyB (.manifest none)).Answers exchangeNetwork
          (exchangeReturned 2 replyB (.manifest none)) := by
  refine ⟨run_return repliedB_run (by decide +kernel) rfl (by decide +kernel)
    (by decide +kernel) rfl, rfl, ?_⟩
  rintro ⟨reply, hreply, -, hframe, hrequest, -⟩
  have hasked : callB.frame ≠ callA.frame := by decide +kernel
  have hreplied : replyA.frame ≠ replyB.frame := by decide +kernel
  rcases List.mem_pair.mp hreply with rfl | rfl
  · exact hreplied (hframe.trans returnA_frame)
  · exact hasked (replyB_request.symm.trans hrequest)

end SecureSync
