import SecureSync.Channel.Lifecycle
import SecureSync.Handshake.System

/-!
# Where recorded sessions come from

Every session of a run is one side of an answered hello.  The ephemeral key of
the answer is fresh, so that its session id and keys are those of no other
answer.
-/

namespace SecureSync

open Raising

variable {δ π : Type}

namespace Source

/-- An answer has at most one session on each of its two sides. -/
def side (source : Source δ) : Role × Answer := (source.role, source.answer)

end Source

namespace Setting

variable (S : Setting δ π)

/-- The answers given so far have fresh keys, and none but the first answer to a
hello goes to its initiator. -/
structure Answered (st : Handshaking δ π) : Prop where
  fresh : (st.answers.map S.answerPub).Nodup
  others : ∀ attempt ∈ st.attempts, attempt.initiator ≠ S.responder
  arrived : ∀ ans ∈ st.answers, ans.attempt ∈ st.arrived
  repeated : st.answers.Pairwise fun first second ↦
    second.attempt = first.attempt → second.own = false

/-- The source is one side of an answer to a hello. -/
structure Stems (st : Handshaking δ π) (source : Source δ) (attempt : Attempt δ)
    (sharedSecret : Bytes) : Prop where
  attempt_eq : st.attempts[source.answer.attempt]? = some attempt
  answer_mem : source.answer ∈ st.answers
  fits : source.material.Fits S.hkdf
  shared : match source.role with
    | .responder => S.keyExchange.deriveSharedSecret source.answer.privateKey
        (S.hello attempt).publicKey = some sharedSecret
    | .initiator => S.keyExchange.deriveSharedSecret attempt.privateKey
        (S.response attempt source.answer).publicKey = some sharedSecret
  side : source = S.accepted attempt source.answer sharedSecret ∨
    source = S.initiated attempt source.answer sharedSecret ∧ source.answer.own = true ∧
      source.answer.attempt ∈ st.completed

/-- All answers whose session is still to come or has been recorded. -/
def handled (st : Handshaking δ π) : List (Role × Answer) :=
  st.deriving_.map (Role.responder, ·) ++
    (st.results.map Source.side ++ st.recorded.map fun r ↦ r.1.side)

/-- Attempts, answers and completions stay. -/
structure Grown (st st' : Handshaking δ π) : Prop where
  attempts : st.attempts <+: st'.attempts
  answers : st.answers ⊆ st'.answers
  completed : st.completed ⊆ st'.completed

structure Traced (st : Handshaking δ π) : Prop where
  pending : ∀ ans ∈ st.deriving_, ans ∈ st.answers
  results : ∀ source ∈ st.results, source.role = .responder ∧
    ∃ attempt sharedSecret, S.Stems st source attempt sharedSecret
  recorded : ∀ r ∈ st.recorded, ∃ attempt sharedSecret, S.Stems st r.1 attempt sharedSecret
  handled_nodup : (handled st).Nodup

/-- The sessions in the world are those of the sources. -/
structure Hosted [DecidableEq δ] (st : Handshaking δ π) : Prop where
  run : S.net.Run st.world
  recorded : st.world.recorded = st.recorded.map fun r ↦ (r.1.device, .start (S.terms r.1) r.2)
  found : st.world.AllFound
  confirmed : st.world.ConfirmedByUse

variable {S} {st st' : Handshaking δ π} {source : Source δ} {attempt : Attempt δ}
  {sharedSecret : Bytes} {now : ℚ}

/-! ## Sides of an answer -/

theorem Stems.role_eq_initiator (h : S.Stems st source attempt sharedSecret)
    (hrole : source.role = .initiator) :
    source = S.initiated attempt source.answer sharedSecret ∧ source.answer.own = true ∧
      source.answer.attempt ∈ st.completed := by
  rcases h.side with hside | hside
  · rw [hside] at hrole
    cases hrole
  · exact hside

theorem Stems.material_eq (h : S.Stems st source attempt sharedSecret) :
    source.material = S.material attempt source.answer sharedSecret := by
  rcases h.side with hside | ⟨hside, -⟩ <;> rw [hside] <;> rfl

theorem Stems.mono (h : S.Stems st source attempt sharedSecret)
    (hgrown : Grown st st') : S.Stems st' source attempt sharedSecret where
  attempt_eq := by
    obtain ⟨hlt, heq⟩ := List.getElem?_eq_some_iff.mp h.attempt_eq
    rw [List.getElem?_eq_some_iff]
    refine ⟨hlt.trans_le hgrown.attempts.length_le, ?_⟩
    rw [← heq]
    exact (hgrown.attempts.getElem hlt).symm
  answer_mem := hgrown.answers h.answer_mem
  fits := h.fits
  shared := h.shared
  side := h.side.imp_right fun hside ↦ ⟨hside.1, hside.2.1, hgrown.completed hside.2.2⟩

theorem Traced.results_mono (h : S.Traced st) (hgrown : Grown st st')
    (hsource : source ∈ st.results) :
    source.role = .responder ∧ ∃ attempt sharedSecret, S.Stems st' source attempt sharedSecret := by
  obtain ⟨hrole, attempt, sharedSecret, hstems⟩ := h.results source hsource
  exact ⟨hrole, attempt, sharedSecret, hstems.mono hgrown⟩

theorem Traced.recorded_mono (h : S.Traced st) {r : Source δ × ℚ} (hgrown : Grown st st')
    (hr : r ∈ st.recorded) :
    ∃ attempt sharedSecret, S.Stems st' r.1 attempt sharedSecret := by
  obtain ⟨attempt, sharedSecret, hstems⟩ := h.recorded r hr
  exact ⟨attempt, sharedSecret, hstems.mono hgrown⟩

theorem mem_answers_of_mem_handled (h : S.Traced st) {role : Role} {ans : Answer}
    (hmem : (role, ans) ∈ handled st) : ans ∈ st.answers := by
  simp only [handled, List.mem_append, List.mem_map] at hmem
  rcases hmem with ⟨a, ha, heq⟩ | ⟨src, hsrc, heq⟩ | ⟨r, hr, heq⟩
  · cases heq
    exact h.pending _ ha
  · cases heq
    obtain ⟨-, attempt, sharedSecret, hstems⟩ := h.results src hsrc
    exact hstems.answer_mem
  · cases heq
    obtain ⟨attempt, sharedSecret, hstems⟩ := h.recorded r hr
    exact hstems.answer_mem

/-! ## Steps -/

section

variable [DecidableEq δ]

theorem Answered.step (h : S.Answered st) (hstep : S.Step st st') : S.Answered st' := by
  cases hstep with
  | initiate attempt hother =>
      refine ⟨h.fresh, fun a ha ↦ ?_, h.arrived, h.repeated⟩
      rcases List.mem_append.mp ha with ha | ha
      · exact h.others a ha
      · rwa [List.mem_singleton.mp ha]
  | answer attempt ans message trusted hattempt hown hfresh hanswer =>
      refine ⟨?_, h.others, fun a ha ↦ ?_, ?_⟩
      · rw [List.map_append, List.map_singleton, ← List.concat_eq_append]
        exact h.fresh.concat hfresh
      · rcases List.mem_append.mp ha with ha | ha
        · exact List.mem_cons_of_mem _ (h.arrived a ha)
        · rw [List.mem_singleton.mp ha]
          exact List.mem_cons_self
      · refine List.pairwise_append.mpr ⟨h.repeated, List.pairwise_singleton _ _, ?_⟩
        intro first hfirst second hsecond hsame
        obtain rfl := List.mem_singleton.mp hsecond
        rw [← Bool.not_eq_true, hown, hsame, not_not]
        exact h.arrived first hfirst
  | refuse attempt =>
      exact ⟨h.fresh, h.others, fun a ha ↦ List.mem_cons_of_mem _ (h.arrived a ha), h.repeated⟩
  | publish | abandon | drain | complete | traffic | restart =>
      exact ⟨h.fresh, h.others, h.arrived, h.repeated⟩

omit [DecidableEq δ] in
/-- What is handled was answered, and stays so while steps only go on. -/
theorem Traced.of_subset (h : S.Traced st) (hgrown : Grown st st')
    (hderiving : st'.deriving_.Sublist st.deriving_) (hresults : st'.results.Sublist st.results)
    (hrecorded : st'.recorded = st.recorded) : S.Traced st' where
  pending ans hans := hgrown.answers (h.pending ans (hderiving.subset hans))
  results source hsource := h.results_mono hgrown (hresults.subset hsource)
  recorded r hr := h.recorded_mono hgrown (hrecorded ▸ hr)
  handled_nodup := by
    refine h.handled_nodup.sublist ?_
    rw [handled, hrecorded]
    exact (hderiving.map _).append ((hresults.map _).append (List.Sublist.refl _))

theorem Traced.record (h : S.Traced st) (hstems : S.Stems st source attempt sharedSecret)
    (hnew : source.side ∉ handled st) : S.Traced (S.record st source now) := by
  have hsame : Grown st (S.record st source now) :=
    ⟨List.prefix_rfl, List.Subset.refl _, List.Subset.refl _⟩
  refine ⟨h.pending, fun src hsrc ↦ ?_, fun r hr ↦ ?_, ?_⟩
  · exact h.results_mono hsame hsrc
  · simp only [Setting.record] at hr
    split_ifs at hr with hdone
    · rcases List.mem_append.mp hr with hr | hr
      · exact h.recorded_mono hsame hr
      · rw [List.mem_singleton.mp hr]
        exact ⟨attempt, sharedSecret, hstems.mono hsame⟩
    · exact h.recorded_mono hsame hr
  · simp only [handled, Setting.record]
    split_ifs with hdone
    · rw [List.map_append, List.map_singleton, ← List.append_assoc, ← List.append_assoc,
        ← List.concat_eq_append]
      refine List.Nodup.concat ?_ ?_
      · rw [List.append_assoc]
        exact hnew
      · rw [List.append_assoc]
        exact h.handled_nodup
    · exact h.handled_nodup

omit [DecidableEq δ] in
theorem fits_of_deriveResult {handshake : X25519Handshake} {role : Role} {privateKey : Bytes}
    {peer response : HandshakeMessage} {request : Hello} {res : HandshakeResult}
    (hshared : handshake.keyExchange.deriveSharedSecret privateKey peer.publicKey =
      some sharedSecret)
    (h : handshake.deriveResult role privateKey peer request response = .ok res) :
    (X25519Handshake.keyMaterial sharedSecret request response).Fits handshake.hkdf := by
  obtain ⟨secret, keys, hsecret, hkeys, -⟩ := X25519Handshake.deriveResult_eq_ok.mp h
  rw [hshared] at hsecret
  obtain rfl := Option.some.inj hsecret
  exact (KeyMaterial.deriveSessionKeys_eq_ok hkeys).1

theorem Traced.step (h : S.Traced st) (hstep : S.Step st st') : S.Traced st' := by
  cases hstep with
  | initiate attempt hother =>
      exact h.of_subset ⟨List.prefix_append _ _, List.Subset.refl _, List.Subset.refl _⟩
        (List.Sublist.refl _) (List.Sublist.refl _) rfl
  | answer attempt ans message trusted hattempt hown hfresh hanswer =>
      have hsub : st.answers ⊆ st.answers ++ [ans] := List.subset_append_left _ _
      refine ⟨fun a ha ↦ ?_, fun source hsource ↦ ?_, fun r hr ↦ ?_, ?_⟩
      · rcases List.mem_append.mp ha with ha | ha
        · exact hsub (h.pending a ha)
        · exact List.mem_append_right _ ha
      · exact h.results_mono ⟨List.prefix_rfl, hsub, List.Subset.refl _⟩ hsource
      · exact h.recorded_mono ⟨List.prefix_rfl, hsub, List.Subset.refl _⟩ hr
      · rw [handled, List.map_append, List.map_singleton, List.append_assoc, List.singleton_append,
          List.nodup_middle, List.nodup_cons]
        refine ⟨fun hmem ↦ hfresh ?_, h.handled_nodup⟩
        exact List.mem_map_of_mem (mem_answers_of_mem_handled h hmem)
  | refuse attempt =>
      exact h.of_subset ⟨List.prefix_rfl, List.Subset.refl _, List.Subset.refl _⟩
        (List.Sublist.refl _) (List.Sublist.refl _) rfl
  | publish attempt ans sharedSecret hans hattempt hshared hfinish =>
      refine ⟨fun a ha ↦ h.pending a (List.mem_of_mem_erase ha), fun source hsource ↦ ?_,
        fun r hr ↦ ?_, ?_⟩
      · rcases List.mem_append.mp hsource with hsource | hsource
        · exact h.results_mono ⟨List.prefix_rfl, List.Subset.refl _, List.Subset.refl _⟩ hsource
        · rw [List.mem_singleton.mp hsource]
          exact ⟨rfl, attempt, sharedSecret, hattempt, h.pending ans hans,
            fits_of_deriveResult hshared hfinish, hshared, .inl rfl⟩
      · exact h.recorded_mono ⟨List.prefix_rfl, List.Subset.refl _, List.Subset.refl _⟩ hr
      · -- the answer moves from the connections to the queue
        have hmoved := h.handled_nodup
        rw [handled, (((List.perm_cons_erase hans).map _).append_right _).nodup_iff,
          List.map_cons, List.cons_append] at hmoved
        rw [handled, List.map_append, List.map_singleton, List.append_assoc, List.singleton_append,
          ← List.append_assoc, List.nodup_middle, List.append_assoc]
        exact hmoved
  | abandon ans =>
      exact h.of_subset ⟨List.prefix_rfl, List.Subset.refl _, List.Subset.refl _⟩
        List.erase_sublist (List.Sublist.refl _) rfl
  | drain source rest now hdraining hresults =>
      have hrest : S.Traced { st with results := rest } :=
        h.of_subset ⟨List.prefix_rfl, List.Subset.refl _, List.Subset.refl _⟩ (List.Sublist.refl _)
          (by rw [hresults]; exact List.sublist_cons_self _ _) rfl
      obtain ⟨-, a, secret, hstems⟩ := h.results source (by rw [hresults]; exact List.mem_cons_self)
      refine hrest.record
        (hstems.mono ⟨List.prefix_rfl, List.Subset.refl _, List.Subset.refl _⟩) ?_
      have hnodup := h.handled_nodup
      rw [handled, hresults, List.map_cons, List.cons_append, List.nodup_middle,
        List.nodup_cons] at hnodup
      exact hnodup.1
  | complete attempt ans sharedSecret trusted now hans hown hattempt hnew hshared hfinish =>
      obtain ⟨trusted', -, hfinish⟩ := except_bind_eq_ok.mp hfinish
      obtain ⟨res, hderive, -⟩ := except_bind_eq_ok.mp hfinish
      have hlater : S.Traced { st with
          trusted := Function.update st.trusted attempt.initiator trusted
          completed := ans.attempt :: st.completed } :=
        h.of_subset ⟨List.prefix_rfl, List.Subset.refl _, List.subset_cons_self _ _⟩
          (List.Sublist.refl _) (List.Sublist.refl _) rfl
      refine hlater.record ⟨hattempt, hans, fits_of_deriveResult hshared hderive, hshared,
        .inr ⟨rfl, hown, List.mem_cons_self⟩⟩ ?_
      intro hmem
      simp only [handled, List.mem_append, List.mem_map] at hmem
      rcases hmem with ⟨a, ha, heq⟩ | ⟨source, hsource, heq⟩ | ⟨r, hr, heq⟩
      · cases heq
      · rw [Source.side, (h.results source hsource).1] at heq
        cases heq
      · obtain ⟨hrole, hans'⟩ := Prod.mk.inj heq
        obtain ⟨a, secret, hstems⟩ := h.recorded r hr
        have hdone := (hstems.role_eq_initiator hrole).2.2
        rw [hans'] at hdone
        exact hnew hdone
  | traffic act htraffic hideal =>
      exact h.of_subset ⟨List.prefix_rfl, List.Subset.refl _, List.Subset.refl _⟩
        (List.Sublist.refl _) (List.Sublist.refl _) rfl
  | restart sessionIds =>
      exact h.of_subset ⟨List.prefix_rfl, List.Subset.refl _, List.Subset.refl _⟩
        (List.nil_sublist _) (List.nil_sublist _) rfl

theorem Hosted.act (h : S.Hosted st) {act : Act δ π} (hideal : S.net.Unforged st.world act)
    (hput : ∀ d terms now, act ≠ .put d terms now) (hconfirm : ∀ d id, act ≠ .confirm d id)
    (hworld : st'.world = S.net.step st.world act) (hrecorded : st'.recorded = st.recorded) :
    S.Hosted st' where
  run := by
    rw [hworld]
    exact .step act h.run hideal
  recorded := by rw [hworld, World.recorded_step_eq hput, h.recorded, hrecorded]
  found := by
    rw [hworld]
    exact h.found.step act
  confirmed := by
    rw [hworld]
    exact h.confirmed.step hconfirm

theorem Hosted.record (h : S.Hosted st) : S.Hosted (S.record st source now) where
  run := .step (.put source.device (S.terms source) now) h.run trivial
  recorded := by
    simp only [Setting.record, World.recorded_step_put, h.recorded]
    split_ifs
    · rw [List.map_append, List.map_singleton]
    · rfl
  found := h.found.step _
  confirmed := h.confirmed.step fun d id hconfirm ↦ nomatch hconfirm

theorem Hosted.step (h : S.Hosted st) (hstep : S.Step st st') : S.Hosted st' := by
  cases hstep with
  | initiate | answer | refuse | publish | abandon =>
      exact ⟨h.run, h.recorded, h.found, h.confirmed⟩
  | drain source rest now hdraining hresults =>
      exact Hosted.record ⟨h.run, h.recorded, h.found, h.confirmed⟩
  | complete attempt ans sharedSecret trusted now hans hown hattempt hnew hshared hfinish =>
      exact Hosted.record ⟨h.run, h.recorded, h.found, h.confirmed⟩
  | traffic act htraffic hideal =>
      refine h.act hideal ?_ ?_ rfl rfl
      · rintro d terms now rfl
        exact htraffic
      · rintro d id rfl
        exact htraffic
  | restart sessionIds =>
      have hideal : S.net.Unforged st.world (.forget S.responder sessionIds) := trivial
      exact h.act hideal (fun d terms now hput ↦ nomatch hput)
        (fun d id hconfirm ↦ nomatch hconfirm) rfl rfl

/-- All of it holds in every run. -/
theorem Run.invariants (hrun : S.Run st) : S.Answered st ∧ S.Traced st ∧ S.Hosted st := by
  induction hrun with
  | start =>
      refine ⟨⟨List.nodup_nil, ?_, ?_, .nil⟩, ⟨?_, ?_, ?_, List.nodup_nil⟩, .start, rfl, ?_, ?_⟩
      · exact fun attempt hattempt ↦ nomatch hattempt
      · exact fun ans hans ↦ nomatch hans
      · exact fun ans hans ↦ nomatch hans
      · exact fun source hsource ↦ nomatch hsource
      · exact fun r hr ↦ nomatch hr
      · exact fun d s hs ↦ nomatch hs
      · intro d id s hs
        cases hs
  | step hrun hstep ih =>
      obtain ⟨hanswered, htraced, hhosted⟩ := ih
      exact ⟨hanswered.step hstep, htraced.step hstep, hhosted.step hstep⟩

end

/-! ## Keys of recorded sessions -/

/-- HKDF has no collisions among the calls behind the recorded sessions. -/
def CollisionFree (S : Setting δ π) (st : Handshaking δ π) : Prop :=
  KeyMaterial.CollisionFree S.hkdf (st.recorded.map fun r ↦ r.1.material)

instance (st : Handshaking δ π) : Decidable (S.CollisionFree st) :=
  inferInstanceAs (Decidable (KeyMaterial.CollisionFree S.hkdf _))

theorem sessionId_terms (S : Setting δ π) (source : Source δ) :
    (S.terms source).sessionId = S.hkdf (source.material.schedule S.hkdf).sessionId := by
  rw [terms, result]
  cases source.role <;> rfl

theorem keys_terms (S : Setting δ π) (source : Source δ) :
    ((S.terms source).sendKey, (S.terms source).receiveKey) =
      match source.role with
      | .initiator => (S.hkdf (source.material.schedule S.hkdf).i2r,
          S.hkdf (source.material.schedule S.hkdf).r2i)
      | .responder => (S.hkdf (source.material.schedule S.hkdf).r2i,
          S.hkdf (source.material.schedule S.hkdf).i2r) := by
  rw [terms, result]
  cases source.role <;> rfl

theorem mem_keys_terms {key : Bytes} :
    key ∈ [(S.terms source).sendKey, (S.terms source).receiveKey] ↔
      key = S.hkdf (source.material.schedule S.hkdf).i2r ∨
        key = S.hkdf (source.material.schedule S.hkdf).r2i := by
  obtain ⟨hsend, hreceive⟩ := Prod.mk.inj (keys_terms S source)
  rw [List.mem_pair, hsend, hreceive]
  cases source.role with
  | initiator => rfl
  | responder => exact or_comm

variable {source' : Source δ} {attempt' : Attempt δ} {sharedSecret' : Bytes} {now' : ℚ}

/-- The two sides of an answer name each other. -/
theorem Stems.names (h : S.Stems st source attempt sharedSecret) :
    match source.role with
    | .initiator => S.net.deviceId source.device = source.material.initiatorId ∧
        (S.terms source).peerId = source.material.responderId ∧ source.device = attempt.initiator
    | .responder => S.net.deviceId source.device = source.material.responderId ∧
        (S.terms source).peerId = source.material.initiatorId ∧ source.device = S.responder := by
  rcases h.side with hside | ⟨hside, -⟩ <;> rw [hside] <;> exact ⟨rfl, rfl, rfl⟩

theorem Stems.answer_eq (hanswered : S.Answered st) (h : S.Stems st source attempt sharedSecret)
    (h' : S.Stems st source' attempt' sharedSecret')
    (heq : source.material.ephemeralFields = source'.material.ephemeralFields) :
    source.answer = source'.answer := by
  have hpub := (KeyMaterial.ephemeralFields_inj h.fits h'.fits heq).2
  rw [h.material_eq, h'.material_eq] at hpub
  exact List.inj_on_of_nodup_map hanswered.fresh h.answer_mem h'.answer_mem hpub

theorem role_terms (S : Setting δ π) (source : Source δ) : (S.terms source).role = source.role := by
  rw [terms, result]
  cases source.role <;> rfl

/-- Opposite sides with the same directional keys mirror each other. -/
theorem Stems.mirrored (h : S.Stems st source attempt sharedSecret)
    (h' : S.Stems st source' attempt' sharedSecret') (hrole : source'.role = source.role.flip)
    (hi : source.material.initiatorId = source'.material.initiatorId)
    (hr : source.material.responderId = source'.material.responderId)
    (hid : (S.terms source').sessionId = (S.terms source).sessionId)
    (hi2r : (source.material.schedule S.hkdf).i2r = (source'.material.schedule S.hkdf).i2r)
    (hr2i : (source.material.schedule S.hkdf).r2i = (source'.material.schedule S.hkdf).r2i) :
    S.net.Mirrored source.device (.start (S.terms source) now) source'.device
      (.start (S.terms source') now') := by
  have hnames := h.names
  have hnames' := h'.names
  have hkeys := keys_terms S source
  have hkeys' := keys_terms S source'
  have hflip : (S.terms source').role = (S.terms source).role.flip := by
    rw [role_terms, role_terms, hrole]
  cases hside : source.role with
  | initiator =>
      rw [hrole, hside] at hnames' hkeys'
      rw [hside] at hnames hkeys
      obtain ⟨hsend, hreceive⟩ := Prod.mk.inj hkeys
      obtain ⟨hsend', hreceive'⟩ := Prod.mk.inj hkeys'
      exact ⟨hid, hflip, by rw [PeerSession.start, PeerSession.start, hsend', hreceive, hr2i],
        by rw [PeerSession.start, PeerSession.start, hreceive', hsend, hi2r],
        hnames.2.1.trans (hr.trans hnames'.1.symm), hnames'.2.1.trans (hi.symm.trans hnames.1.symm)⟩
  | responder =>
      rw [hrole, hside] at hnames' hkeys'
      rw [hside] at hnames hkeys
      obtain ⟨hsend, hreceive⟩ := Prod.mk.inj hkeys
      obtain ⟨hsend', hreceive'⟩ := Prod.mk.inj hkeys'
      exact ⟨hid, hflip, by rw [PeerSession.start, PeerSession.start, hsend', hreceive, hi2r],
        by rw [PeerSession.start, PeerSession.start, hreceive', hsend, hr2i],
        hnames.2.1.trans (hi.trans hnames'.1.symm), hnames'.2.1.trans (hr.symm.trans hnames.1.symm)⟩

variable {r r' : Source δ × ℚ}

/-- A receiving key is the sending key of nothing but the other side. -/
theorem Traced.mirrored (h : S.Traced st) (hfree : S.CollisionFree st) (hr : r ∈ st.recorded)
    (hr' : r' ∈ st.recorded) (hkey : (S.terms r.1).receiveKey = (S.terms r'.1).sendKey) :
    S.net.Mirrored r.1.device (.start (S.terms r.1) r.2) r'.1.device
      (.start (S.terms r'.1) r'.2) := by
  obtain ⟨attempt, secret, hstems⟩ := h.recorded r hr
  obtain ⟨attempt', secret', hstems'⟩ := h.recorded r' hr'
  have hm : r.1.material ∈ st.recorded.map fun r ↦ r.1.material := List.mem_map_of_mem hr
  have hm' : r'.1.material ∈ st.recorded.map fun r ↦ r.1.material := List.mem_map_of_mem hr'
  have hreceive := congrArg Prod.snd (keys_terms S r.1)
  have hsend := congrArg Prod.fst (keys_terms S r'.1)
  simp only at hreceive hsend
  rw [hreceive, hsend] at hkey
  cases hside : r.1.role with
  | initiator =>
      cases hside' : r'.1.role with
      | initiator =>
          rw [hside, hside'] at hkey
          exact absurd hkey.symm (hfree.i2r_ne_r2i hm' hm)
      | responder =>
          rw [hside, hside'] at hkey
          have hi2r := hfree.of_r2i hm hm' hkey
          obtain ⟨hi, hr, hid, -, hr2i⟩ := hfree.of_i2r hm hm' hstems.fits hstems'.fits
            (congrArg S.hkdf hi2r)
          exact hstems.mirrored hstems' (by rw [hside, hside']; rfl) hi hr
            (by rw [sessionId_terms, sessionId_terms, hid]) hi2r hr2i
  | responder =>
      cases hside' : r'.1.role with
      | initiator =>
          rw [hside, hside'] at hkey
          obtain ⟨hi, hr, hid, -, hr2i⟩ := hfree.of_i2r hm hm' hstems.fits hstems'.fits hkey
          exact hstems.mirrored hstems' (by rw [hside, hside']; rfl) hi hr
            (by rw [sessionId_terms, sessionId_terms, hid]) (hfree.of_r2i hm hm'
              (congrArg S.hkdf hr2i)) hr2i
      | responder =>
          rw [hside, hside'] at hkey
          exact absurd hkey (hfree.i2r_ne_r2i hm hm')

theorem Traced.answer_eq (h : S.Traced st) (hanswered : S.Answered st) (hfree : S.CollisionFree st)
    (hr : r ∈ st.recorded) (hr' : r' ∈ st.recorded)
    (hid : (S.terms r.1).sessionId = (S.terms r'.1).sessionId) : r.1.answer = r'.1.answer := by
  obtain ⟨attempt, secret, hstems⟩ := h.recorded r hr
  obtain ⟨attempt', secret', hstems'⟩ := h.recorded r' hr'
  rw [sessionId_terms, sessionId_terms] at hid
  exact hstems.answer_eq hanswered hstems' (hfree.ephemeralFields_of_sessionId
    (List.mem_map_of_mem hr) (List.mem_map_of_mem hr') hid).2.2

theorem Traced.device_eq_responder_iff (h : S.Traced st) (hanswered : S.Answered st)
    (hr : r ∈ st.recorded) : r.1.device = S.responder ↔ r.1.role = .responder := by
  obtain ⟨attempt, secret, hstems⟩ := h.recorded r hr
  have hnames := hstems.names
  cases hside : r.1.role with
  | initiator =>
      rw [hside] at hnames
      simp only [reduceCtorEq, iff_false, hnames.2.2]
      exact hanswered.others attempt (List.mem_of_getElem? hstems.attempt_eq)
  | responder =>
      rw [hside] at hnames
      simp [hnames.2.2]

theorem Traced.role_eq_initiator (h : S.Traced st) (hanswered : S.Answered st)
    (hr : r ∈ st.recorded) (hdevice : r.1.device ≠ S.responder) : r.1.role = .initiator := by
  cases hside : r.1.role with
  | initiator => rfl
  | responder => exact absurd ((h.device_eq_responder_iff hanswered hr).mpr hside) hdevice

theorem Traced.eq_of_sessionId (h : S.Traced st) (hanswered : S.Answered st)
    (hfree : S.CollisionFree st) (hr : r ∈ st.recorded) (hr' : r' ∈ st.recorded)
    (hdevice : r.1.device = r'.1.device)
    (hid : (S.terms r.1).sessionId = (S.terms r'.1).sessionId) : r = r' := by
  have hrole : r.1.role = .responder ↔ r'.1.role = .responder := by
    rw [← h.device_eq_responder_iff hanswered hr, ← h.device_eq_responder_iff hanswered hr',
      hdevice]
  have hside : r.1.side = r'.1.side := by
    refine Prod.ext ?_ (h.answer_eq hanswered hfree hr hr' hid)
    change r.1.role = r'.1.role
    cases hr : r.1.role <;> cases hr' : r'.1.role <;> simp_all
  have hnodup : (st.recorded.map fun r ↦ r.1.side).Nodup :=
    (List.nodup_append.mp (List.nodup_append.mp h.handled_nodup).2.1).2.1
  exact List.inj_on_of_nodup_map hnodup hr hr' hside

/-- Keys of different handshakes are kept apart, as the channel relies on. -/
theorem Hosted.apart [DecidableEq δ] (h : S.Hosted st) (htraced : S.Traced st)
    (hanswered : S.Answered st) (hfree : S.CollisionFree st) : st.world.Apart S.net where
  ids := by
    rw [h.recorded, List.map_map]
    have hnodup : (st.recorded.map fun r ↦ r.1.side).Nodup :=
      (List.nodup_append.mp (List.nodup_append.mp htraced.handled_nodup).2.1).2.1
    refine List.Nodup.map_on (fun r hr r' hr' heq ↦ ?_) (hnodup.of_map _)
    obtain ⟨hdevice, hid⟩ := Prod.mk.inj heq
    exact htraced.eq_of_sessionId hanswered hfree hr hr' hdevice hid
  keys d s d' s' hs hs' hkey := by
    rw [h.recorded] at hs hs'
    obtain ⟨r, hr, heq⟩ := List.mem_map.mp hs
    obtain ⟨r', hr', heq'⟩ := List.mem_map.mp hs'
    cases heq
    cases heq'
    exact htraced.mirrored hfree hr hr' hkey

theorem CollisionFree.of_prefix (h : S.CollisionFree st')
    (hinitial : st.recorded <+: st'.recorded) :
    S.CollisionFree st := by
  refine Set.InjOn.mono ?_ h
  rintro call ⟨material, hmaterial, hcall⟩
  exact ⟨material, (hinitial.sublist.map _).subset hmaterial, hcall⟩

theorem Step.recorded_prefix [DecidableEq δ] (hstep : S.Step st st') :
    st.recorded <+: st'.recorded := by
  have hrecord (st : Handshaking δ π) (source : Source δ) (now : ℚ) :
      st.recorded <+: (S.record st source now).recorded := by
    simp only [Setting.record]
    split_ifs
    · exact List.prefix_append _ _
    · exact List.prefix_rfl
  cases hstep with
  | initiate | answer | refuse | publish | abandon | traffic | restart => exact List.prefix_rfl
  | drain | complete => exact hrecord ..

/-! ## The two sides of one answer -/

/-- The same session id on the two sides is that of one answer, and the sessions
mirror each other. -/
theorem Traced.mirrored_of_sessionId (h : S.Traced st) (hanswered : S.Answered st)
    (hfree : S.CollisionFree st) (hr : r ∈ st.recorded) (hr' : r' ∈ st.recorded)
    (hrole : r.1.role = .initiator) (hrole' : r'.1.role = .responder)
    (hid : (S.terms r'.1).sessionId = (S.terms r.1).sessionId) :
    S.net.Mirrored r.1.device (.start (S.terms r.1) r.2) r'.1.device
      (.start (S.terms r'.1) r'.2) := by
  obtain ⟨attempt, secret, hstems⟩ := h.recorded r hr
  obtain ⟨attempt', secret', hstems'⟩ := h.recorded r' hr'
  have hanswer := h.answer_eq hanswered hfree hr' hr hid
  have hmaterial : r.1.material = r'.1.material := by
    have hcalls := hid
    rw [sessionId_terms, sessionId_terms] at hcalls
    have hsecret := (hfree.ephemeralFields_of_sessionId (List.mem_map_of_mem hr')
      (List.mem_map_of_mem hr) hcalls).1
    have hattempt := hstems'.attempt_eq
    rw [hanswer, hstems.attempt_eq] at hattempt
    obtain rfl := Option.some.inj hattempt
    rw [hstems.material_eq, hstems'.material_eq] at hsecret ⊢
    rw [hanswer, show secret = secret' from hsecret.symm]
  exact hstems.mirrored hstems' (by rw [hrole, hrole']; rfl) (by rw [hmaterial])
    (by rw [hmaterial]) hid (by rw [hmaterial]) (by rw [hmaterial])

/-- Both sides of an answer come to the same session id. -/
theorem Stems.sessionId_eq (hcommutes : S.keyExchange.Commutes)
    (h : S.Stems st source attempt sharedSecret) (h' : S.Stems st source' attempt' sharedSecret')
    (hrole : source.role = .initiator) (hrole' : source'.role = .responder)
    (hanswer : source'.answer = source.answer) :
    (S.terms source').sessionId = (S.terms source).sessionId := by
  have hattempt := h'.attempt_eq
  rw [hanswer, h.attempt_eq] at hattempt
  obtain rfl := Option.some.inj hattempt
  have hshared := h.shared
  have hshared' := h'.shared
  simp only [hrole, hrole', hanswer] at hshared hshared'
  rw [show (S.hello attempt).publicKey = S.keyExchange.publicKey attempt.privateKey from rfl,
    hcommutes] at hshared'
  have hsecret : sharedSecret = sharedSecret' := Option.some.inj (hshared.symm.trans hshared')
  rw [sessionId_terms, sessionId_terms, h.material_eq, h'.material_eq, hanswer, hsecret]

end Setting
end SecureSync
