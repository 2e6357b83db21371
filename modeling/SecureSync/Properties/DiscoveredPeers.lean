import SecureSync.Infrastructure.HandshakeMessages
import SecureSync.Infrastructure.MdnsDiscovery
import SecureSync.Properties.PeerPolls

/-!
# Discovered peers

What a use case lists as online is what its last news of each device says.
-/

namespace SecureSync.Orchestration

open KeyedTable

/-! ## News -/

def DiscoveryEvent.deviceId : DiscoveryEvent → DeviceId
  | .discovered peer => peer.deviceId
  | .lost deviceId => deviceId

/-- The last event of its device is that it was discovered so. -/
def LastNews (events : List DiscoveryEvent) (peer : Peer) : Prop :=
  ∃ before after, events = before ++ .discovered peer :: after ∧
    ∀ e ∈ after, e.deviceId ≠ peer.deviceId

theorem lastNews_append_singleton {events : List DiscoveryEvent} {e : DiscoveryEvent}
    {peer : Peer} : LastNews (events ++ [e]) peer ↔
      e = .discovered peer ∨ e.deviceId ≠ peer.deviceId ∧ LastNews events peer := by
  constructor
  · rintro ⟨before, after, hsplit, hafter⟩
    rcases List.eq_nil_or_concat after with rfl | ⟨rest, last, rfl⟩
    · left
      exact (List.append_inj' hsplit rfl).2 |> List.singleton_inj.mp
    · right
      rw [List.concat_eq_append, ← List.cons_append, ← List.append_assoc] at hsplit
      obtain ⟨hevents, hlast⟩ := List.append_inj' hsplit rfl
      obtain rfl := List.singleton_inj.mp hlast
      refine ⟨hafter e (by simp), before, rest, hevents, fun e' he' ↦ hafter e' ?_⟩
      rw [List.concat_eq_append]
      exact List.mem_append_left _ he'
  · rintro (rfl | ⟨hne, before, after, rfl, hafter⟩)
    · exact ⟨events, [], rfl, fun e he ↦ nomatch he⟩
    · refine ⟨before, after ++ [e], by simp, fun e' he' ↦ ?_⟩
      rcases List.mem_append.mp he' with he' | he'
      · exact hafter e' he'
      · rwa [List.mem_singleton.mp he']

/-- What the events make of a repository. -/
def repositoryOf (events : List DiscoveryEvent) : PeerRepository :=
  events.foldl DiscoveryEvent.apply .empty

theorem repositoryOf_append_singleton (events : List DiscoveryEvent) (e : DiscoveryEvent) :
    repositoryOf (events ++ [e]) = DiscoveryEvent.apply (repositoryOf events) e := by
  rw [repositoryOf, List.foldl_append]
  rfl

theorem mem_listOnlinePeers {repository : PeerRepository} {peer : Peer} :
    peer ∈ listOnlinePeers repository ↔
      repository.find? peer.deviceId = some peer ∧ peer.status = .online := by
  rw [listOnlinePeers, List.mem_filter, decide_eq_true_iff, Table.find?_eq_some]
  simp

theorem find?_apply_of_ne {repository : PeerRepository} {e : DiscoveryEvent} {d : DeviceId}
    (h : e.deviceId ≠ d) : (e.apply repository).find? d = repository.find? d := by
  cases e with
  | discovered peer => exact Table.find?_set_of_ne (Ne.symm h)
  | lost deviceId =>
      change (onPeerLost deviceId repository).find? d = _
      unfold onPeerLost
      split
      · rfl
      · rename_i peer hpeer
        have hkey : peer.deviceId = deviceId := Table.find?_key hpeer
        apply Table.find?_set_of_ne
        intro hd
        exact h (hkey.symm.trans hd.symm)

theorem find?_onPeerLost {repository : PeerRepository} {d : DeviceId} {peer : Peer}
    (h : (onPeerLost d repository).find? d = some peer) : peer.status = .offline := by
  unfold onPeerLost at h
  split at h
  · rename_i hnone
    rw [hnone] at h
    cases h
  · rename_i known hknown
    have hkey : known.deviceId = d := Table.find?_key hknown
    have hset := Table.find?_set_self (t := repository) (a := { known with status := .offline })
    rw [show ({ known with status := .offline } : Peer).deviceId = d from hkey] at hset
    rw [hset] at h
    cases h
    rfl

theorem find?_onPeerDiscovered {repository : PeerRepository} {peer : Peer}
    (h : peer.status = .online) :
    (onPeerDiscovered peer repository).find? peer.deviceId = some peer := by
  have hsame : { peer with status := .online } = peer := by
    rw [← h]
  rw [onPeerDiscovered, hsame]
  exact Table.find?_set_self

/-- The online peers are those whose last news is that they were discovered. -/
theorem mem_listOnlinePeers_repositoryOf {events : List DiscoveryEvent}
    (honline : ∀ peer, .discovered peer ∈ events → peer.status = .online) (peer : Peer) :
    peer ∈ listOnlinePeers (repositoryOf events) ↔ LastNews events peer := by
  induction events using List.reverseRecOn with
  | nil =>
      refine iff_of_false (fun h ↦ nomatch h) ?_
      rintro ⟨before, after, hsplit, -⟩
      exact absurd hsplit (by simp)
  | append_singleton events e ih =>
      have ih := ih fun peer hpeer ↦ honline peer (List.mem_append_left _ hpeer)
      rw [mem_listOnlinePeers, repositoryOf_append_singleton, lastNews_append_singleton]
      by_cases hd : e.deviceId = peer.deviceId
      · cases e with
        | discovered q =>
            have hq := honline q (List.mem_append_right _ (List.mem_singleton_self _))
            change q.deviceId = peer.deviceId at hd
            rw [← hd, DiscoveryEvent.apply, find?_onPeerDiscovered hq, DiscoveryEvent.deviceId]
            constructor
            · rintro ⟨hfind, -⟩
              exact .inl (congrArg _ (Option.some.inj hfind))
            · rintro (h | ⟨h, -⟩)
              · cases h
                exact ⟨rfl, hq⟩
              · exact absurd rfl h
        | lost deviceId =>
            refine iff_of_false ?_ ?_
            · rintro ⟨hfind, hstatus⟩
              rw [← hd] at hfind
              rw [find?_onPeerLost hfind] at hstatus
              cases hstatus
            · rintro (h | ⟨h, -⟩)
              · cases h
              · exact h hd
      · rw [find?_apply_of_ne hd, ← mem_listOnlinePeers, ih]
        constructor
        · exact fun h ↦ .inr ⟨hd, h⟩
        · rintro (rfl | ⟨-, h⟩)
          · exact absurd rfl hd
          · exact h

/-! ## From the callbacks to the repositories -/

def serviceName (deviceId : DeviceId) : String := deviceId ++ "." ++ serviceType

/-- A name tells the device that is lost as long as there is no dot in its identifier. -/
theorem deviceIdOfName_serviceName {deviceId : DeviceId} :
    deviceIdOfName (serviceName deviceId) = deviceId ↔ '.' ∉ deviceId.toList := by
  have htext : (serviceName deviceId).toList = deviceId.toList ++ '.' :: serviceType.toList := by
    simp [serviceName]
  rw [deviceIdOfName, htext]
  constructor
  · intro h hdot
    rw [← congrArg String.toList h, String.toList_ofList] at hdot
    have hall := List.all_takeWhile (p := (· ≠ '.')) (l := deviceId.toList ++ '.' ::
      serviceType.toList)
    simpa using List.all_eq_true.mp hall _ hdot
  · intro h
    have hpos : ∀ c ∈ deviceId.toList, decide (c ≠ '.') = true := by
      intro c hc
      rw [decide_eq_true_iff]
      rintro rfl
      exact h hc
    rw [List.takeWhile_append_of_pos hpos]
    simp

/-- What a callback brings to an observer. -/
inductive News where
  | advertised (info : ServiceInfo)
  | removed (deviceId : DeviceId)
  deriving DecidableEq

/-- A callback on a thread without a running loop brings nothing. -/
def DiscoveryStep.news? {ι : Type} : DiscoveryStep ι → Option News
  | .addService true (some info) => some (.advertised info)
  | .removeService true name => some (.removed (deviceIdOfName name))
  | _ => none

/-- What it becomes when its turn comes, unless the advertisement is not one of a peer. -/
def MdnsDiscoveryService.event? (service : MdnsDiscoveryService) (news : News × Timestamp) :
    Option DiscoveryEvent :=
  match news.1 with
  | .advertised info =>
      match service.peerOf info news.2 with
      | .ok (some peer) => some (.discovered peer)
      | _ => none
  | .removed deviceId => some (.lost deviceId)

variable {service : MdnsDiscoveryService}

theorem peerOf_eq_ok {info : ServiceInfo} {now : Timestamp} {peer : Peer}
    (h : service.peerOf info now = .ok (some peer)) :
    peer.deviceId ≠ service.deviceId ∧ peer.status = .online ∧ peer.address.port ≠ 0 := by
  unfold MdnsDiscoveryService.peerOf at h
  simp only [bind, Except.bind, pure, Except.pure] at h
  cases hraw : info.given? "device_id" with
  | none => simp [hraw] at h
  | some raw =>
      cases hid : decodeText raw with
      | error e => simp [hraw, hid] at h
      | ok deviceId =>
          simp only [hraw, hid] at h
          split_ifs at h with hself
          · cases h
          · split at h
            · split at h
              · split at h
                · split at h
                  · rename_i port hport
                    have hne := (Option.filter_eq_some_iff.mp hport).2
                    repeat' split at h
                    all_goals cases h
                    exact ⟨hself, rfl, of_decide_eq_true hne⟩
                  · cases h
                · cases h
              · cases h
            · cases h

theorem of_event? {p : News × Timestamp} {peer : Peer}
    (h : service.event? p = some (.discovered peer)) :
    peer.deviceId ≠ service.deviceId ∧ peer.status = .online ∧ peer.address.port ≠ 0 := by
  unfold MdnsDiscoveryService.event? at h
  split at h
  · split at h
    · rename_i info hinfo q hq
      cases h
      exact peerOf_eq_ok hq
    · cases h
  · cases h

variable {ι : Type} [DecidableEq ι] {o : ι}

/-- The news of an observer in a coroutine. -/
def Notice.newsFor? (o : ι) : Notice ι → Option News
  | .discovered info => some (.advertised info)
  | .lost observer deviceId => if observer = o then some (.removed deviceId) else none

namespace Discovery

variable {s : Discovery ι}

/-- All news of a subscribed observer has been taken in or is on the loop, in its order. -/
structure Follows (service : MdnsDiscoveryService) (o : ι) (s : Discovery ι) (news : List News)
    (handled : List (News × Timestamp)) : Prop where
  observers : s.observers.Nodup
  subscribed : o ∈ s.observers
  fifo : news = handled.map Prod.fst ++ s.queue.filterMap (Notice.newsFor? o)
  repository : s.repository o = repositoryOf (handled.filterMap service.event?)

variable {news : List News} {handled : List (News × Timestamp)}

theorem filterMap_lost (observers : List ι) (hnodup : observers.Nodup) (ho : o ∈ observers)
    (deviceId : DeviceId) :
    (observers.map (Notice.lost · deviceId)).filterMap (Notice.newsFor? o) =
      [.removed deviceId] := by
  induction observers with
  | nil => cases ho
  | cons observer observers ih =>
      obtain ⟨hfresh, hnodup⟩ := List.nodup_cons.mp hnodup
      rw [List.map_cons]
      by_cases h : observer = o
      · subst h
        have hhead : Notice.newsFor? observer (.lost observer deviceId) =
            some (.removed deviceId) := if_pos rfl
        have hnone : (observers.map (Notice.lost · deviceId)).filterMap
            (Notice.newsFor? observer) = [] := by
          rw [List.filterMap_eq_nil_iff]
          intro notice hnotice
          obtain ⟨other, hother, rfl⟩ := List.mem_map.mp hnotice
          apply if_neg
          rintro rfl
          exact hfresh hother
        rw [List.filterMap_cons_some hhead, hnone]
      · have hhead : Notice.newsFor? o (.lost observer deviceId) = none := if_neg h
        rw [List.filterMap_cons_none hhead]
        exact ih hnodup ((List.mem_cons.mp ho).resolve_left (Ne.symm h))

theorem foldl_tell (f : PeerRepository → PeerRepository) (observers : List ι)
    (hnodup : observers.Nodup) (s : Discovery ι) :
    (observers.foldl (fun s observer ↦ s.tell observer f) s).observers = s.observers ∧
      (observers.foldl (fun s observer ↦ s.tell observer f) s).queue = s.queue ∧
      (observers.foldl (fun s observer ↦ s.tell observer f) s).repository o =
        if o ∈ observers then f (s.repository o) else s.repository o := by
  induction observers generalizing s with
  | nil => exact ⟨rfl, rfl, rfl⟩
  | cons observer observers ih =>
      obtain ⟨hfresh, hnodup⟩ := List.nodup_cons.mp hnodup
      obtain ⟨hobservers, hqueue, hrepository⟩ := ih hnodup (s.tell observer f)
      refine ⟨hobservers, hqueue, hrepository.trans ?_⟩
      by_cases h : o = observer
      · subst h
        rw [if_neg hfresh, if_pos List.mem_cons_self]
        exact Function.update_self ..
      · have htell : (s.tell observer f).repository o = s.repository o :=
          Function.update_of_ne h ..
        simp only [htell, List.mem_cons, h, false_or]

/-- A callback leaves its news behind what is on the loop. -/
theorem Follows.callback (h : Follows service o s news handled) {queue : List (Notice ι)}
    {added : List News} (hadded : queue.filterMap (Notice.newsFor? o) = added) :
    Follows service o { s with queue := s.queue ++ queue } (news ++ added) handled := by
  refine { h with fifo := ?_ }
  dsimp only
  rw [List.filterMap_append, hadded, h.fifo, List.append_assoc]

theorem repositoryOf_filterMap_append (handled : List (News × Timestamp))
    (p : News × Timestamp) : repositoryOf ((handled ++ [p]).filterMap service.event?) =
      match service.event? p with
      | none => repositoryOf (handled.filterMap service.event?)
      | some e => e.apply (repositoryOf (handled.filterMap service.event?)) := by
  rw [List.filterMap_append]
  cases hp : service.event? p with
  | none => rw [List.filterMap_cons_none hp, List.filterMap_nil, List.append_nil]
  | some e => rw [List.filterMap_cons_some hp, List.filterMap_nil, repositoryOf_append_singleton]

/-- What a subscribed observer makes of an advertisement. -/
theorem repository_handleDiscoveredService (service : MdnsDiscoveryService)
    (hnodup : s.observers.Nodup) (ho : o ∈ s.observers) (info : ServiceInfo) (now : Timestamp) :
    let s' := handleDiscoveredService service s info now
    s'.observers = s.observers ∧ s'.queue = s.queue ∧ s'.repository o =
      match service.event? (.advertised info, now) with
      | none => s.repository o
      | some e => e.apply (s.repository o) := by
  intro s'
  unfold s' handleDiscoveredService
  split
  · rename_i peer hpeer
    have hevent : service.event? (.advertised info, now) = some (.discovered peer) := by
      simp only [MdnsDiscoveryService.event?, hpeer]
    obtain ⟨hobservers, hqueue, hrepository⟩ :=
      foldl_tell (o := o) (onPeerDiscovered peer) s.observers hnodup s
    refine ⟨hobservers, hqueue, ?_⟩
    rw [hrepository, if_pos ho, hevent]
    rfl
  · rename_i hnone
    have hevent : service.event? (.advertised info, now) = none := by
      unfold MdnsDiscoveryService.event?
      dsimp only
      split
      · rename_i peer hpeer
        exact absurd hpeer (hnone peer)
      · rfl
    rw [hevent]
    exact ⟨rfl, rfl, rfl⟩

theorem Follows.turn (h : Follows service o s news handled) (now : Timestamp) :
    ∃ handled', Follows service o (s.turn service now) news handled' := by
  have hfifo := h.fifo
  unfold Discovery.turn
  split
  · exact ⟨handled, h⟩
  · rename_i info queue hqueue
    have hhead : Notice.newsFor? o (.discovered info) = some (.advertised info) := rfl
    rw [hqueue, List.filterMap_cons_some hhead] at hfifo
    obtain ⟨hobservers, hqueue', hrepository⟩ :=
      repository_handleDiscoveredService service (s := { s with queue }) (o := o) h.observers
        h.subscribed info now
    refine ⟨handled ++ [(.advertised info, now)], ?_, ?_, ?_, ?_⟩
    · rw [hobservers]
      exact h.observers
    · rw [hobservers]
      exact h.subscribed
    · rw [hqueue', hfifo, List.map_append, List.append_assoc]
      rfl
    · rw [hrepository, repositoryOf_filterMap_append, ← h.repository]
  · rename_i observer deviceId queue hqueue
    rw [hqueue] at hfifo
    by_cases ho : observer = o
    · subst ho
      have hhead : Notice.newsFor? observer (.lost observer deviceId) =
          some (.removed deviceId) := if_pos rfl
      rw [List.filterMap_cons_some hhead] at hfifo
      refine ⟨handled ++ [(.removed deviceId, now)], h.observers, h.subscribed, ?_, ?_⟩
      · rw [hfifo, List.map_append, List.append_assoc]
        rfl
      · rw [repositoryOf_filterMap_append, ← h.repository]
        exact Function.update_self ..
    · have hhead : Notice.newsFor? o (.lost observer deviceId) = none := if_neg ho
      rw [List.filterMap_cons_none hhead] at hfifo
      refine ⟨handled, h.observers, h.subscribed, hfifo, ?_⟩
      rw [← h.repository]
      exact Function.update_of_ne (Ne.symm ho) ..

theorem Follows.silent (h : Follows service o s news handled) {step : DiscoveryStep ι}
    (hnone : step.news? = none) : Follows service o s (news ++ step.news?.toList) handled := by
  rw [hnone, Option.toList_none, List.append_nil]
  exact h

theorem Follows.step (h : Follows service o s news handled) {step : DiscoveryStep ι}
    (hstep : step ≠ .unsubscribe o) : ∃ handled',
      Follows service o (s.step service step) (news ++ step.news?.toList) handled' := by
  cases step with
  | subscribe observer =>
      refine ⟨handled, Follows.silent ?_ rfl⟩
      change Follows service o (s.subscribe observer) _ _
      unfold Discovery.subscribe
      split_ifs with hmem
      · exact h
      · refine { h with
          observers := ?_
          subscribed := List.mem_append_left _ h.subscribed }
        exact List.Nodup.append h.observers (List.nodup_singleton _) (by simpa using hmem)
  | unsubscribe observer =>
      refine ⟨handled, Follows.silent ?_ rfl⟩
      refine { h with
        observers := h.observers.erase _
        subscribed := (List.mem_erase_of_ne ?_).mpr h.subscribed }
      rintro rfl
      exact hstep rfl
  | addService running info =>
      refine ⟨handled, ?_⟩
      cases info with
      | none => cases running <;> exact h.silent rfl
      | some info =>
          cases running with
          | false => exact h.silent rfl
          | true => exact h.callback rfl
  | removeService running name =>
      refine ⟨handled, ?_⟩
      cases running with
      | false => exact h.silent rfl
      | true => exact h.callback (filterMap_lost s.observers h.observers h.subscribed _)
  | turn now =>
      obtain ⟨handled', hturn⟩ := h.turn now
      exact ⟨handled', hturn.silent rfl⟩

theorem Follows.run (h : Follows service o s news handled) {steps : List (DiscoveryStep ι)}
    (hkept : .unsubscribe o ∉ steps) : ∃ handled',
      Follows service o (s.run service steps) (news ++ steps.filterMap DiscoveryStep.news?)
        handled' := by
  induction steps generalizing s news handled with
  | nil =>
      refine ⟨handled, ?_⟩
      rw [List.filterMap_nil, List.append_nil]
      exact h
  | cons step steps ih =>
      obtain ⟨hstep, hkept⟩ := not_or.mp (List.mem_cons.not.mp hkept)
      obtain ⟨handled₁, h₁⟩ := h.step (Ne.symm hstep)
      obtain ⟨handled₂, h₂⟩ := ih h₁ hkept
      refine ⟨handled₂, ?_⟩
      have hnews : news ++ (step :: steps).filterMap DiscoveryStep.news? =
          news ++ step.news?.toList ++ steps.filterMap DiscoveryStep.news? := by
        rw [List.append_assoc]
        cases hs : step.news? with
        | none => rw [List.filterMap_cons_none hs]; rfl
        | some n => rw [List.filterMap_cons_some hs]; rfl
      rw [hnews]
      exact h₂

/-- Whatever comes in between, the news of an observer that stays subscribed is taken in in the
order of the callbacks; it lists as online the peers whose last news is that they were
discovered, never this device, and never one without a port. -/
theorem discovery_exact (service : MdnsDiscoveryService) (steps : List (DiscoveryStep ι))
    (hkept : .unsubscribe o ∉ steps) :
    let s := Discovery.run service {} (.subscribe o :: steps)
    ∃ handled : List (News × Timestamp),
      steps.filterMap DiscoveryStep.news? =
        handled.map Prod.fst ++ s.queue.filterMap (Notice.newsFor? o) ∧
      s.repository o = repositoryOf (handled.filterMap service.event?) ∧
      ∀ peer, peer ∈ listOnlinePeers (s.repository o) ↔
        LastNews (handled.filterMap service.event?) peer ∧
          peer.deviceId ≠ service.deviceId ∧ peer.address.port ≠ 0 := by
  intro s
  have hstart : Follows service o (({} : Discovery ι).subscribe o) [] [] :=
    ⟨List.nodup_singleton o, List.mem_singleton_self o, rfl, rfl⟩
  obtain ⟨handled, h⟩ := hstart.run hkept
  have hpeers (peer : Peer) (hmem : .discovered peer ∈ handled.filterMap service.event?) :
      peer.deviceId ≠ service.deviceId ∧ peer.status = .online ∧ peer.address.port ≠ 0 := by
    obtain ⟨p, -, hp⟩ := List.mem_filterMap.mp hmem
    exact of_event? hp
  refine ⟨handled, h.fifo, h.repository, fun peer ↦ ?_⟩
  have honline := mem_listOnlinePeers_repositoryOf (fun q hmem ↦ (hpeers q hmem).2.1) peer
  rw [← h.repository] at honline
  refine honline.trans ?_
  refine (and_iff_left_of_imp fun hlast ↦ ?_).symm
  obtain ⟨before, after, hsplit, -⟩ := hlast
  obtain ⟨hother, -, hport⟩ := hpeers peer (by simp [hsplit])
  exact ⟨hother, hport⟩

/-- Two devices are seen and one of them is lost, behind a callback that no loop takes. -/
def sampleNews : List (DiscoveryStep ℕ) :=
  let advertisement (deviceId : String) : ServiceInfo :=
    ⟨[("device_id", some (utf8 deviceId)), ("hostname", some (utf8 "host")),
      ("fingerprint", some (utf8 "f")), ("version", some (utf8 "0.1.0"))], some 8080,
      [[192, 168, 0, 7]]⟩
  [.addService true (some (advertisement "bob")), .subscribe 1, .turn 3,
    .addService true (some (advertisement "eve")), .removeService false (serviceName "bob"),
    .removeService true (serviceName "eve"), .unsubscribe 1, .turn 4, .turn 5]

theorem discovery_exact_bob :
    let s := Discovery.run ⟨"me"⟩ {} (.subscribe 0 :: sampleNews)
    ∃ handled : List (News × Timestamp),
      sampleNews.filterMap DiscoveryStep.news? =
        handled.map Prod.fst ++ s.queue.filterMap (Notice.newsFor? 0) ∧
      s.repository 0 = repositoryOf (handled.filterMap (MdnsDiscoveryService.mk "me").event?) ∧
      ∀ peer, peer ∈ listOnlinePeers (s.repository 0) ↔
        LastNews (handled.filterMap (MdnsDiscoveryService.mk "me").event?) peer ∧
          peer.deviceId ≠ "me" ∧ peer.address.port ≠ 0 :=
  discovery_exact ⟨"me"⟩ sampleNews (by decide)

end Discovery
end SecureSync.Orchestration
