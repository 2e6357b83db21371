import SecureSync.Channel.Delivery
import Mathlib.Data.List.Perm.Subperm

/-!
# Authenticity of the secure channel

On any network, the frames that a session accepts are frames that the mirrored
session sealed, each at most once.
-/

namespace SecureSync

open Raising SecureChannel

variable {δ π : Type} [DecidableEq δ]

namespace World

variable (w : World δ π) (d : δ) (sessionId : Bytes)

/-- The packets that `open` has returned for a session. -/
def packetsOpened : List (PacketType × π) :=
  (w.openedIn d sessionId).map fun o ↦ (o.packetType, o.payload)

def sealedIn : List (Sent δ π) :=
  w.sent.filter fun e ↦ e.device = d ∧ e.sessionId = sessionId ∧ e.frame?.isSome

/-- The packets for which `seal` has returned a frame. -/
def packetsSealed : List (PacketType × π) :=
  (w.sealedIn d sessionId).map fun e ↦ (e.packetType, e.payload)

variable {w d sessionId} {net : Network δ π} {d' : δ} {s : PeerSession}

theorem mem_sealedIn {e : Sent δ π} : e ∈ w.sealedIn d sessionId ↔
    e ∈ w.sent ∧ e.device = d ∧ e.sessionId = sessionId ∧ e.frame?.isSome := by
  simp [sealedIn]

omit [DecidableEq δ] in
theorem Apart.ne_of_mirrored (h : w.Apart net) {s s' : PeerSession} (hs : (d, s) ∈ w.recorded)
    (hs' : (d', s') ∈ w.recorded) (hmirrored : net.Mirrored d s d' s') : d' ≠ d := by
  rintro rfl
  have hrole := hmirrored.role
  rw [h.eq_of_sessionId hs hs' hmirrored.sessionId] at hrole
  cases hs : s.role <;> simp [hs, Role.flip] at hrole

/-- An accepted frame was sealed by the peer that its session names. -/
theorem Sound.exists_sealed (h : w.Sound net) (hapart : w.Apart net)
    (hinj : Function.Injective net.deviceId) (hs : (d, s) ∈ w.recorded)
    (hpeer : net.deviceId d' = s.peerId) {o : Opened δ π}
    (ho : o ∈ w.openedIn d s.sessionId) :
    d' ≠ d ∧ ∃ e ∈ w.sealedIn d' s.sessionId, e.frame? = some o.frame ∧
      e.counter = o.counter ∧ e.packetType = o.packetType ∧ e.payload = o.payload := by
  obtain ⟨hmem, rfl, hid⟩ := mem_openedIn.mp ho
  obtain ⟨e, he, s₀, s₁, hfrom⟩ := h.opened_from o hmem
  obtain rfl := hapart.eq_of_sessionId hs hfrom.recorded (hfrom.sessionId.trans hid)
  obtain rfl := hinj (hfrom.mirrored.peerId.symm.trans hpeer.symm)
  refine ⟨hapart.ne_of_mirrored hs hfrom.recorded' hfrom.mirrored, e, ?_, hfrom.frame,
    hfrom.counter, hfrom.packetType, hfrom.payload⟩
  exact mem_sealedIn.mpr ⟨he, rfl, hfrom.sent_sessionId.trans hid, by rw [hfrom.frame]; rfl⟩

theorem Sound.nodup_counters (h : w.Sound net) :
    ((w.openedIn d sessionId).map Opened.counter).Nodup := by
  refine List.Nodup.map_on ?_ ((h.opened_nodup.of_map _).filter _)
  intro o ho o' ho' hcounter
  obtain ⟨ho, hd, hid⟩ := mem_openedIn.mp ho
  obtain ⟨ho', hd', hid'⟩ := mem_openedIn.mp ho'
  refine List.inj_on_of_nodup_map h.opened_nodup ho ho' ?_
  rw [Opened.key, Opened.key, hd, hd', hid, hid', hcounter]

theorem Sound.nodup_frames (h : w.Sound net) (hcorrect : net.cipher.Correct) :
    ((w.openedIn d sessionId).map Opened.frame).Nodup := by
  refine List.Nodup.map_on ?_ ((h.opened_nodup.of_map _).filter _)
  intro o ho o' ho' hframe
  obtain ⟨ho, hd, -⟩ := mem_openedIn.mp ho
  obtain ⟨ho', hd', -⟩ := mem_openedIn.mp ho'
  exact h.eq_of_frame hcorrect ho ho' (hd.trans hd'.symm) hframe

theorem Sound.packetsOpened_subperm (h : w.Sound net) (hapart : w.Apart net)
    (hinj : Function.Injective net.deviceId) (hs : (d, s) ∈ w.recorded)
    (hpeer : net.deviceId d' = s.peerId) :
    (w.packetsOpened d s.sessionId).Subperm (w.packetsSealed d' s.sessionId) := by
  -- with their counters the packets are distinct, so it is enough that each was sealed
  have hcounted : ((w.openedIn d s.sessionId).map fun o ↦
      (o.counter, o.packetType, o.payload)).Subperm
        ((w.sealedIn d' s.sessionId).map fun e ↦ (e.counter, e.packetType, e.payload)) := by
    refine List.Nodup.subperm ?_ ?_
    · refine List.Nodup.of_map Prod.fst ?_
      rw [List.map_map]
      exact h.nodup_counters
    · intro packet hpacket
      obtain ⟨o, ho, rfl⟩ := List.mem_map.mp hpacket
      obtain ⟨-, e, he, -, hcounter, htype, hpayload⟩ := h.exists_sealed hapart hinj hs hpeer ho
      exact List.mem_map.mpr ⟨e, he, by rw [hcounter, htype, hpayload]⟩
  obtain ⟨packets, hperm, hsub⟩ := hcounted
  have hopened := hperm.map Prod.snd
  have hsealed := hsub.map Prod.snd
  rw [List.map_map] at hopened hsealed
  exact ⟨packets.map Prod.snd, hopened, hsealed⟩

end World

/-- Whatever the network delivers, the packets that a session opens are among
those that its peer sealed for it, none of them twice. -/
theorem packetsOpened_subperm_packetsSealed {net : Network δ π} {w : World δ π} {d d' : δ}
    {s : PeerSession} (hlawful : net.Lawful) (hinj : Function.Injective net.deviceId)
    (hrun : net.Run w) (hapart : w.Apart net) (hs : (d, s) ∈ w.recorded)
    (hpeer : net.deviceId d' = s.peerId) :
    (w.packetsOpened d s.sessionId).Subperm (w.packetsSealed d' s.sessionId) ∧
      ((w.openedIn d s.sessionId).map Opened.frame).Nodup ∧
        ∀ o ∈ w.openedIn d s.sessionId, d' ≠ d ∧
          ∃ e ∈ w.sealedIn d' s.sessionId, e.frame? = some o.frame := by
  have hsound := hrun.sound hlawful hapart
  refine ⟨hsound.packetsOpened_subperm hapart hinj hs hpeer,
    hsound.nodup_frames hlawful.cipher, ?_⟩
  intro o ho
  obtain ⟨hne, e, he, hframe, -⟩ := hsound.exists_sealed hapart hinj hs hpeer ho
  exact ⟨hne, e, he, hframe⟩

/-- Alice seals a heartbeat. -/
def pairSealed : World Bool (Fin 128) :=
  pairNetwork.step pairStart (.seal false (pairTerms false).sessionId .heartbeat pairPayload ⟨0, 0⟩)

def pairFrame : Bytes := ((pairSealed.sent.head?.bind Sent.frame?)).getD []

/-- Bob receives it. -/
def pairOpened : World Bool (Fin 128) :=
  pairNetwork.step pairSealed (.deliver true pairFrame ⟨1, 1⟩)

theorem pair_run_deliver {w : World Bool (Fin 128)} (hrun : pairNetwork.Run w)
    (hrecorded : w.recorded = pairSessions) {frame : Bytes}
    (hsent : (false, some frame) ∈ w.sent.map fun e ↦ (e.device, e.frame?))
    (clock : ChannelClock) : pairNetwork.Run (pairNetwork.step w (.deliver true frame clock)) := by
  apply Network.Run.step _ hrun
  apply pair_unforged (hrun.sound pairNetwork_lawful (pair_apart hrecorded)) hrecorded
  exact hsent

theorem pairOpened_run : pairNetwork.Run pairOpened := by
  have hrun : pairNetwork.Run pairSealed := .step _ pairStart_run trivial
  exact pair_run_deliver hrun (by decide +kernel) (by decide +kernel) _

def sealOne (w : World Bool (Fin 128)) (payload : Fin 128) : World Bool (Fin 128) :=
  pairNetwork.step w (.seal false (pairTerms false).sessionId .heartbeat payload ⟨0, 0⟩)

def frameAt (w : World Bool (Fin 128)) (place : ℕ) : Bytes :=
  ((w.sent[place]?).bind Sent.frame?).getD []

/-- The frame that was sealed at this place arrives. -/
def arrive (w : World Bool (Fin 128)) (place : ℕ) : World Bool (Fin 128) :=
  pairNetwork.step w (.deliver true (frameAt w place) ⟨1, 1⟩)

def threeSealed : World Bool (Fin 128) := pairPayloads.foldl sealOne pairStart

/-- The third frame overtakes the others, and comes once more after the first. -/
def threeShuffled : World Bool (Fin 128) := arrive (arrive (arrive threeSealed 2) 0) 2

theorem run_sealOne {w : World Bool (Fin 128)} (hrun : pairNetwork.Run w) (payload : Fin 128) :
    pairNetwork.Run (sealOne w payload) := .step _ hrun trivial

theorem run_arrive {w : World Bool (Fin 128)} (hrun : pairNetwork.Run w)
    (hrecorded : w.recorded = pairSessions) (place : ℕ)
    (hsent : (false, some (frameAt w place)) ∈ w.sent.map fun e ↦ (e.device, e.frame?)) :
    pairNetwork.Run (arrive w place) := pair_run_deliver hrun hrecorded hsent _

theorem threeShuffled_run : pairNetwork.Run threeShuffled := by
  have hsealed : pairNetwork.Run threeSealed :=
    run_sealOne (run_sealOne (run_sealOne pairStart_run 5) 6) 7
  have hthird := run_arrive hsealed (by decide +kernel) 2 (by decide +kernel)
  have hfirst := run_arrive hthird (by decide +kernel) 0 (by decide +kernel)
  exact run_arrive hfirst (by decide +kernel) 2 (by decide +kernel)

theorem packetsOpened_threeShuffled :
    (threeShuffled.packetsOpened true (pairTerms true).sessionId).Subperm
        (threeShuffled.packetsSealed false (pairTerms true).sessionId) ∧
      threeShuffled.packetsOpened true (pairTerms true).sessionId =
        [(.heartbeat, 7), (.heartbeat, 5)] := by
  have hrecorded : threeShuffled.recorded = pairSessions := by decide +kernel
  have hinj : Function.Injective pairNetwork.deviceId := by decide
  have hmem : (true, PeerSession.start (pairTerms true) 0) ∈ threeShuffled.recorded :=
    hrecorded ▸ mem_pairSessions.mpr rfl
  refine ⟨?_, by decide +kernel⟩
  exact (packetsOpened_subperm_packetsSealed pairNetwork_lawful hinj threeShuffled_run
    (pair_apart hrecorded) hmem rfl).1

end SecureSync
