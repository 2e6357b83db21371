import SecureSync.Receiver.Assembly

/-!
# Delivering the chunks of one file

A stretch of a run in which every event is a push of the same name, in the
order in which the pushes arrive.
-/

namespace SecureSync

open CountedAssembly

def delivered (es : List (Clock × IncomingPush)) : List ReceiverEvent :=
  es.map fun e ↦ .push e.1 e.2

/-- The pushes of one name that get past the checks. -/
def ReceiverSettings.acceptable (settings : ReceiverSettings) (st : ReceiverState) (name : String)
    (es : List (Clock × IncomingPush)) : List (Clock × IncomingPush) :=
  if settings.HasRoom st name then es.filter fun e ↦ settings.validate e.2 = .ok () else []

def ReceiverSettings.acceptAll (settings : ReceiverSettings) (destination : FilePath)
    (es : List (Clock × IncomingPush)) (st : ReceiverState) : ReceiverState :=
  es.foldl (fun st e ↦ settings.accepted e.1 destination e.2 st) st

section Delivery

variable {settings : ReceiverSettings} {st : ReceiverState} {name : String}
  {destination : FilePath} {clock : Clock} {incoming : IncomingPush}

theorem length_keys_erase_lt {pending : AList fun _ : String ↦ PendingFile}
    (h : name ∈ pending) : (pending.erase name).keys.length < pending.keys.length := by
  have hmem := AList.mem_keys.mp h
  have hpos := List.length_pos_of_mem hmem
  rw [AList.keys_erase, List.length_erase_of_mem hmem]
  omega

theorem hasRoom_accepted (hwf : settings.WellFormed st)
    (h : settings.Admits st incoming destination) :
    settings.HasRoom (settings.accepted clock destination incoming st) incoming.relativePath := by
  have hopened : settings.WellFormed (st.opened clock incoming.relativePath destination).2 :=
    hwf.opened clock destination h.2.2
  have hlookup := lookup_opened st clock incoming.relativePath destination
  simp only [ReceiverSettings.accepted]
  generalize st.opened clock incoming.relativePath destination = opened at hopened hlookup ⊢
  have hmem : incoming.relativePath ∈ opened.2.pending :=
    AList.lookup_isSome.mp (by simp [hlookup])
  split_ifs
  · right
    have hinsert : incoming.relativePath ∈ opened.2.pending.insert incoming.relativePath
        (opened.1.counted clock incoming) := (AList.mem_insert _).mpr (.inl rfl)
    have hlt := length_keys_erase_lt hinsert
    rw [length_keys_insert_of_mem hmem] at hlt
    exact hlt.trans_le hopened.length_le
  · left
    exact (AList.mem_insert _).mpr (.inl rfl)

theorem acceptable_sublist (es : List (Clock × IncomingPush)) :
    (settings.acceptable st name es).Sublist es := by
  unfold ReceiverSettings.acceptable
  split_ifs
  · exact List.filter_sublist
  · exact List.nil_sublist es

theorem mem_of_mem_acceptable {es : List (Clock × IncomingPush)} {e : Clock × IncomingPush}
    (h : e ∈ settings.acceptable st name es) : e ∈ es :=
  (acceptable_sublist es).subset h

theorem acceptable_eq_self_iff {es : List (Clock × IncomingPush)} (hne : es ≠ []) :
    settings.acceptable st name es = es ↔
      settings.HasRoom st name ∧ ∀ e ∈ es, settings.validate e.2 = .ok () := by
  unfold ReceiverSettings.acceptable
  split_ifs with hroom
  · simp [List.filter_eq_self, hroom]
  · simp [hroom, hne.symm]

/-- Delivering pushes of one file accepts those of them that are acceptable at
the start. -/
theorem foldl_step_delivered (hwf : settings.WellFormed st)
    (hdest : resolveWithin settings.resolver settings.syncRoot name = .ok destination)
    (es : List (Clock × IncomingPush)) (hname : ∀ e ∈ es, e.2.relativePath = name) :
    (delivered es).foldl settings.step st =
      settings.acceptAll destination (settings.acceptable st name es) st := by
  induction es generalizing st with
  | nil =>
      simp only [ReceiverSettings.acceptable, List.filter_nil, ite_self]
      rfl
  | cons e es ih =>
      obtain ⟨clock, incoming⟩ := e
      have hes : ∀ e ∈ es, e.2.relativePath = name := fun e he ↦ hname e (by simp [he])
      obtain rfl : incoming.relativePath = name := hname (clock, incoming) (by simp)
      rw [delivered, List.map_cons, List.foldl_cons]
      by_cases hadmits : settings.Admits st incoming destination
      · have hroom := hadmits.2.2
        have hroom' : settings.HasRoom (settings.accepted clock destination incoming st)
            incoming.relativePath := hasRoom_accepted hwf hadmits
        rw [step_push_of_admits clock hadmits]
        apply (ih (hwf.accepted hadmits) hes).trans
        simp only [ReceiverSettings.acceptable, if_pos hroom, if_pos hroom', List.filter_cons,
          hadmits.2.1, decide_true, if_true]
        rfl
      · have hnone : ∀ other, ¬ settings.Admits st incoming other := by
          rintro other ⟨hother, hrest⟩
          cases hdest.symm.trans hother
          exact hadmits ⟨hdest, hrest⟩
        rw [step_push_of_not_admits clock hnone]
        apply (ih hwf hes).trans
        by_cases hroom : settings.HasRoom st incoming.relativePath
        · have hinvalid : ¬ settings.validate incoming = .ok () := fun hvalid ↦
            hadmits ⟨hdest, hvalid, hroom⟩
          simp only [ReceiverSettings.acceptable, if_pos hroom, List.filter_cons, hinvalid,
            decide_false, Bool.false_eq_true, if_false]
        · simp only [ReceiverSettings.acceptable, if_neg hroom]

theorem assembly_acceptAll (es : List (Clock × IncomingPush))
    (hname : ∀ e ∈ es, e.2.relativePath = name) (st : ReceiverState) :
    (settings.acceptAll destination es st).assembly name destination =
      (es.map fun e ↦ e.2.item).foldl (State.add []) (st.assembly name destination) := by
  induction es generalizing st with
  | nil => rfl
  | cons e es ih =>
      obtain rfl : e.2.relativePath = name := hname e (by simp)
      apply (ih (fun e he ↦ hname e (by simp [he])) _).trans
      rw [assembly_accepted]
      rfl

/-! ### The file afterwards -/

/-- Those of the pushes that a commit takes in when each declares this total. -/
def ReceiverSettings.committedOf (settings : ReceiverSettings) (st : ReceiverState) (name : String)
    (destination : FilePath) (total : ℕ) (es : List (Clock × IncomingPush)) :
    List (Clock × IncomingPush) :=
  let accepted := settings.acceptable st name es
  accepted.take (committedCount total ((st.assembly name destination).opened []).2
    (accepted.map fun e ↦ e.2.chunk.metadata.index))

theorem mem_of_mem_committedOf {total : ℕ} {es : List (Clock × IncomingPush)}
    {e : Clock × IncomingPush} (h : e ∈ settings.committedOf st name destination total es) :
    e ∈ es :=
  mem_of_mem_acceptable (List.mem_of_mem_take h)

theorem map_index_item (es : List (Clock × IncomingPush)) :
    (es.map fun e ↦ e.2.item).map Item.index = es.map fun e ↦ e.2.chunk.metadata.index :=
  List.map_map ..

theorem total_item {es : List (Clock × IncomingPush)} {total : ℕ}
    (h : ∀ e ∈ es, e.2.totalChunks = total) : ∀ x ∈ es.map fun e ↦ e.2.item, x.total = total := by
  intro x hx
  obtain ⟨e, he, rfl⟩ := List.mem_map.mp hx
  simp only [IncomingPush.item, h e he, Int.toNat_natCast]

/-- What the file holds once pushes that declare one total are delivered. -/
theorem file_delivered (hwf : settings.WellFormed st)
    (hdest : resolveWithin settings.resolver settings.syncRoot name = .ok destination)
    (es : List (Clock × IncomingPush)) (hname : ∀ e ∈ es, e.2.relativePath = name) {total : ℕ}
    (htotal : ∀ e ∈ es, e.2.totalChunks = total) :
    ((delivered es).foldl settings.step st).storage.files (.file destination) =
      let committed := settings.committedOf st name destination total es
      if committed = [] then st.storage.files (.file destination)
      else some (Overlay.writeAll 0 ((st.assembly name destination).opened []).1
        (committed.map fun e ↦ e.2.chunk.piece)) := by
  have hrun := congrArg State.committed (@assembly_acceptAll settings name destination
    (settings.acceptable st name es) (fun e he ↦ hname e (mem_of_mem_acceptable he)) st)
  rw [foldl_add_committed _ (total_item fun e he ↦ htotal e (mem_of_mem_acceptable he)),
    map_index_item, ← List.map_take] at hrun
  rw [foldl_step_delivered hwf hdest es hname]
  apply hrun.trans
  have hnil : settings.committedOf st name destination total es = [] ↔
      committedCount total ((st.assembly name destination).opened []).2
        ((settings.acceptable st name es).map fun e ↦ e.2.chunk.metadata.index) = 0 := by
    rw [ReceiverSettings.committedOf, List.take_eq_nil_iff, or_iff_left_of_imp]
    intro hempty
    rw [hempty]
    rfl
  simp only [hnil, assemble_item Prod.snd]
  rfl

/-! ### The journal -/

theorem commitsAt_map_write (destination : FilePath) (path : Path) (chunks : List Chunk) :
    commitsAt destination (chunks.map (FsOp.write path)) = [] := by
  induction chunks with
  | nil => rfl
  | cons chunk chunks ih => exact ih

theorem journal_opened (st : ReceiverState) (clock : Clock) (name : String)
    (destination : FilePath) :
    ∃ created, (st.opened clock name destination).2.storage.journal =
        st.storage.journal ++ created ∧ ∀ path chunk, .write path chunk ∉ created := by
  rcases opened_cases st clock name destination with ⟨p, -, heq⟩ | ⟨-, heq⟩
  · rw [heq]
    exact ⟨[], (List.append_nil _).symm, by simp⟩
  · rw [heq]
    exact ⟨_, rfl, by simp⟩

theorem journal_hold (st : ReceiverState) (clock : Clock) (p : PendingFile)
    (incoming : IncomingPush) :
    (st.hold clock p incoming).storage.journal =
      st.storage.journal ++ [.write (.part p.partPath) incoming.chunk] := rfl

theorem journal_commit (st : ReceiverState) (clock : Clock) (destination : FilePath)
    (p : PendingFile) (incoming : IncomingPush) :
    ∃ before after, (settings.commit st clock destination p incoming).storage.journal =
      st.storage.journal ++ [.write (.part p.partPath) incoming.chunk,
        .replace p.partPath destination before after] := by
  simp only [ReceiverSettings.commit, Storage.journal_replace, journal_hold, List.append_assoc,
    List.singleton_append]
  exact ⟨_, _, rfl⟩

theorem journal_accepted (st : ReceiverState) (clock : Clock) (destination : FilePath)
    (incoming : IncomingPush) :
    ∃ ops, (settings.accepted clock destination incoming st).storage.journal =
        st.storage.journal ++ ops ∧
      ∀ path chunk, .write path chunk ∈ ops → chunk = incoming.chunk := by
  obtain ⟨created, hcreated, hnone⟩ :=
    journal_opened st clock incoming.relativePath destination
  simp only [ReceiverSettings.accepted]
  split_ifs
  · obtain ⟨before, after, hjournal⟩ := @journal_commit settings
      (st.opened clock incoming.relativePath destination).2 clock destination
      (st.opened clock incoming.relativePath destination).1 incoming
    rw [hjournal, hcreated, List.append_assoc]
    refine ⟨_, rfl, fun path chunk hmem ↦ ?_⟩
    have hmem := (List.mem_append.mp hmem).resolve_left (hnone path chunk)
    simp only [List.mem_cons, FsOp.write.injEq, List.not_mem_nil, or_false, reduceCtorEq] at hmem
    exact hmem.2
  · rw [journal_hold, hcreated, List.append_assoc]
    refine ⟨_, rfl, fun path chunk hmem ↦ ?_⟩
    have hmem := (List.mem_append.mp hmem).resolve_left (hnone path chunk)
    simp only [List.mem_cons, FsOp.write.injEq, List.not_mem_nil, or_false] at hmem
    exact hmem.2

variable (settings) in
theorem journal_acceptAll (destination : FilePath) (es : List (Clock × IncomingPush))
    (st : ReceiverState) :
    ∃ ops, (settings.acceptAll destination es st).storage.journal = st.storage.journal ++ ops ∧
      ∀ path chunk, .write path chunk ∈ ops → ∃ e ∈ es, e.2.chunk = chunk := by
  induction es generalizing st with
  | nil => exact ⟨[], (List.append_nil _).symm, by simp⟩
  | cons e es ih =>
      obtain ⟨ops, hops, hwritten⟩ := @journal_accepted settings st e.1 destination e.2
      obtain ⟨later, hlater, hwritten'⟩ := ih (settings.accepted e.1 destination e.2 st)
      refine ⟨ops ++ later, ?_, fun path chunk hmem ↦ ?_⟩
      · rw [← List.append_assoc, ← hops]
        exact hlater
      · rcases List.mem_append.mp hmem with hmem | hmem
        · exact ⟨e, by simp, (hwritten path chunk hmem).symm⟩
        · obtain ⟨e', he', hchunk⟩ := hwritten' path chunk hmem
          exact ⟨e', List.mem_cons_of_mem _ he', hchunk⟩

theorem opened_hold (st : ReceiverState) (clock clock' : Clock) (p : PendingFile)
    (incoming : IncomingPush) (destination : FilePath) :
    (st.hold clock p incoming).opened clock' incoming.relativePath destination =
      (p.counted clock incoming, st.hold clock p incoming) := by
  simp only [ReceiverState.opened, ReceiverState.hold, AList.lookup_insert]

/-- As long as the total is not reached, the chunks of an idle file gather in
one partial file. -/
theorem opened_acceptAll {total : ℕ} (es : List (Clock × IncomingPush))
    (hname : ∀ e ∈ es, e.2.relativePath = name) (htotal : ∀ e ∈ es, e.2.totalChunks = total)
    (hlength : es.length < total) (hidle : name ∉ st.pending) (clock : Clock) :
    let opened := (settings.acceptAll destination es st).opened clock name destination
    opened.1.receivedIndices = (es.map fun e ↦ e.2.chunk.metadata.index).toFinset ∧
      opened.2.storage.journal = st.storage.journal ++ .create opened.1.partPath ::
        (es.map fun e ↦ e.2.chunk).map (FsOp.write (.part opened.1.partPath)) := by
  induction es using List.reverseRecOn generalizing clock with
  | nil =>
      simp only [ReceiverSettings.acceptAll, List.foldl_nil, ReceiverState.opened,
        AList.lookup_eq_none.mpr hidle]
      exact ⟨rfl, rfl⟩
  | append_singleton es e ih =>
      rw [List.length_append, List.length_singleton] at hlength
      obtain ⟨hindices, hjournal⟩ := ih (fun e he ↦ hname e (List.mem_append_left _ he))
        (fun e he ↦ htotal e (List.mem_append_left _ he)) (by omega) e.1
      obtain rfl : e.2.relativePath = name := hname e (by simp)
      have hstep : settings.acceptAll destination (es ++ [e]) st =
          settings.accepted e.1 destination e.2 (settings.acceptAll destination es st) :=
        List.foldl_append
      have hcard := List.toFinset_card_le ((es ++ [e]).map fun e ↦ e.2.chunk.metadata.index)
      rw [List.length_map, List.length_append, List.length_singleton] at hcard
      rw [hstep, ReceiverSettings.accepted]
      generalize (settings.acceptAll destination es st).opened e.1 e.2.relativePath destination =
        opened at hindices hjournal ⊢
      have hcounted : (opened.1.counted e.1 e.2).receivedIndices =
          ((es ++ [e]).map fun e ↦ e.2.chunk.metadata.index).toFinset := by
        rw [PendingFile.counted, hindices]
        ext i
        simp
      have hshort : ¬ e.2.totalChunks ≤ (opened.1.counted e.1 e.2).receivedIndices.card := by
        rw [hcounted, htotal e (by simp)]
        omega
      simp only [if_neg hshort, opened_hold]
      refine ⟨hcounted, ?_⟩
      rw [journal_hold, hjournal]
      simp [PendingFile.counted]

end Delivery
end SecureSync
