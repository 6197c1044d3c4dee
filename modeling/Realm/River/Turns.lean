import Realm.River.Facts

/-!
# Sequences as steps

What a whole manage or render sequence, a response and the exit do to the state.
A manage sequence reports the windows that wait and turns the retained facts into
one policy turn.
-/

namespace Realm

open River Guard List Map

namespace RiverBackend

variable {b b' : RiverBackend} {c : RiverBackend} {policy : BackendExitPolicy}
  {bid : BackendWindowId} {win : WinId}

/-! ## Reporting windows -/

theorem pendingOpens_nodup (b : RiverBackend) : (b.pendingOpens.map (·.1)).Nodup := by
  have hkeys : (b.windows.entries.map (·.1)).Nodup := b.windows.nodupKeys
  have hpairs : ((b.windows.entries.map fun e => (e.1, e.2)).map (·.1)).Nodup := by
    simpa [Function.comp_def] using hkeys
  have hfilter := hpairs.sublist
    ((filter_sublist (p := fun e : ObjectId × Window => e.2.pendingOpen)).map (·.1))
  exact (((perm_insertionSort _ _).map _).nodup_iff).mpr hfilter

theorem mem_pendingOpens {e : ObjectId × Window} :
    e ∈ b.pendingOpens ↔ b.windows.lookup e.1 = some e.2 ∧ e.2.pendingOpen = true := by
  simp only [pendingOpens, mem_insertionSort, mem_filter, mem_map, and_congr_left_iff]
  intro _
  rw [← mem_entries]
  constructor
  · rintro ⟨a, ha, rfl⟩
    exact ha
  · exact fun h => ⟨_, h, rfl⟩

def openFact (w : Window) : Option BackendPolicyEvent :=
  w.backendId.map fun bid => .windowOpened bid w.appId w.title

def reported (w : Window) : Window := { w with pendingOpen := false }

theorem exists_reportOpened {entries : List (ObjectId × Window)}
    (h : entries.foldlM reportOpened b = .ok b') :
    ∃ opens, entries.map (fun e => openFact e.2) = opens.map some ∧ b' = { b with
      windows := entries.foldl (fun m e => m.insert e.1 (reported e.2)) b.windows
      policyEvents := b.policyEvents ++ opens } := by
  induction entries generalizing b with
  | nil =>
    rw [foldlM_nil, pure_eq_ok] at h
    exact ⟨[], rfl, by simp [h]⟩
  | cons e entries ih =>
    rw [foldlM_cons] at h
    obtain ⟨c, hc, h⟩ := bind_eq_ok.mp h
    unfold reportOpened at hc
    split at hc
    · cases hc
    rename_i bid hbid
    cases hc
    obtain ⟨opens, hopens, rfl⟩ := ih h
    refine ⟨.windowOpened bid e.2.appId e.2.title :: opens, ?_, ?_⟩
    · have hfact : openFact e.2 = some (.windowOpened bid e.2.appId e.2.title) := by
        rw [openFact, hbid, Option.map_some]
      rw [map_cons, map_cons, hopens, hfact]
    · simp [retain, reported]

def reportedWindows (b : RiverBackend) : Map ObjectId Window :=
  b.pendingOpens.foldl (fun m e => m.insert e.1 (reported e.2)) b.windows

theorem lookup_reportedWindows (b : RiverBackend) (id : ObjectId) : b.reportedWindows.lookup id =
      (b.windows.lookup id).map reported := by
  ext w'
  rw [reportedWindows, lookup_foldl_insert (·.1) (fun e : ObjectId × Window => reported e.2) _
    b.pendingOpens_nodup, Option.map_eq_some_iff]
  constructor
  · rintro (⟨e, he, rfl, rfl⟩ | ⟨hnone, hw'⟩)
    · exact ⟨e.2, (mem_pendingOpens.mp he).1, rfl⟩
    · refine ⟨w', hw', ?_⟩
      have hopen : w'.pendingOpen = false := by
        by_contra hpending
        exact hnone (id, w') (mem_pendingOpens.mpr ⟨hw', by simpa using hpending⟩) rfl
      simp [reported, ← hopen]
  · rintro ⟨w, hw, rfl⟩
    cases hpending : w.pendingOpen with
    | true => exact .inl ⟨(id, w), mem_pendingOpens.mpr ⟨hw, hpending⟩, rfl, rfl⟩
    | false =>
      refine .inr ⟨fun e he heq => ?_, ?_⟩
      · obtain ⟨hlookup, hopen⟩ := mem_pendingOpens.mp he
        cases hlookup.symm.trans (heq ▸ hw)
        simp [hopen] at hpending
      · simp [reported, ← hpending, hw]

/-! ## The turn of a manage sequence -/

/-- The facts of a turn: those retained, the windows that waited, the workarea of a
replacement output, and the barrier of the first turn. -/
structure TurnEvents (b : RiverBackend) (events : List BackendPolicyEvent) : Prop where
  eq : ∃ opens areas, b.pendingOpens.map (fun e => openFact e.2) = opens.map some ∧
    (areas = [] ∨ ∃ area, b.selectedOutputLost = true ∧ areas = [.workareaChanged area]) ∧
    events = b.policyEvents ++ opens ++ areas ++
      if b.replay then [.initialReplayComplete] else []
  length_le : events.length ≤ if b.replay then maxReplayPolicyEvents else maxPolicyEvents
  text_le : (events.map eventTextBytes).sum ≤ maxPolicyTextBytes

theorem exists_selectOutput (h : b.selectOutput = .ok b') : ∃ selected lost areas,
      (areas = [] ∨ ∃ area, b.selectedOutputLost = true ∧ areas = [.workareaChanged area]) ∧
      b' = { b with
        selectedOutput := selected
        selectedOutputLost := lost
        policyEvents := b.policyEvents ++ areas } := by
  unfold selectOutput at h
  split at h
  · cases h
    exact ⟨b.selectedOutput, b.selectedOutputLost, [], .inl rfl, by simp⟩
  simp only at h
  split at h
  · cases h
    exact ⟨b.chooseOutput b.selectedOutputLost, false, [], .inl rfl, by simp⟩
  rename_i hlost
  split at h
  · cases h
    exact ⟨b.chooseOutput b.selectedOutputLost, false, [], .inl rfl, by simp⟩
  split at h
  · cases h
    exact ⟨_, _, _, .inr ⟨_, by simpa using hlost, rfl⟩, rfl⟩
  · cases h

theorem exists_checkSelection (h : b.checkSelection = .ok b') :
    ∃ error, b' = { b with terminalAfterResponse := error } := by
  unfold checkSelection at h
  split at h
  · split at h
    · exact ⟨_, (Except.ok.inj h).symm⟩
    · split at h
      · cases h
      · exact ⟨_, (Except.ok.inj h).symm⟩
  · exact ⟨_, (Except.ok.inj h).symm⟩

def Within (b : RiverBackend) : Prop :=
  b.policyEvents.length ≤ (if b.replay then maxReplayPolicyEvents else maxPolicyEvents) ∧
    (b.policyEvents.map eventTextBytes).sum ≤ maxPolicyTextBytes

theorem validatePolicyCapacity_eq_ok : b.validatePolicyCapacity = .ok b' ↔ b' = b ∧ b.Within := by
  unfold validatePolicyCapacity Within
  simp only [fail, ite_error_eq_ok, Except.ok.injEq, gt_iff_lt, not_lt]
  grind

theorem markReplay_eq (b : RiverBackend) : b.markReplay = { b with
    policyEvents := b.policyEvents ++ if b.replay then [.initialReplayComplete] else [] } := by
  unfold markReplay
  split <;> simp [retain]

theorem exists_emitTurn (h : b.emitTurn = .ok b') : ∃ id, id.raw = b.nextTurn + 1 ∧ b' = { b with
      nextTurn := b.nextTurn + 1
      openTurn := some id
      publicEvents := b.publicEvents ++ [.policyTurn ⟨id, b.drainTicket, b.policyEvents⟩]
      drainTicket := none
      policyEvents := []
      replay := false } := by
  unfold emitTurn at h
  split at h
  · cases h
  simp only at h
  split at h
  · cases h
  rename_i id hid
  unfold NonZeroId.new at hid
  split at hid
  · cases hid
    exact ⟨_, rfl, (Except.ok.inj h).symm⟩
  · cases hid

theorem exists_finishPolicyTurn (h : b.finishPolicyTurn = .ok b') :
    ∃ selectedOutput selectedOutputLost terminalAfterResponse id events,
      id.raw = b.nextTurn + 1 ∧ TurnEvents b events ∧ b' = { b with
        windows := b.reportedWindows
        selectedOutput := selectedOutput
        selectedOutputLost := selectedOutputLost
        terminalAfterResponse := terminalAfterResponse
        nextTurn := b.nextTurn + 1
        openTurn := some id
        publicEvents := b.publicEvents ++ [.policyTurn ⟨id, b.drainTicket, events⟩]
        drainTicket := none
        policyEvents := []
        replay := false } := by
  obtain ⟨c, hreport, h⟩ := bind_eq_ok.mp h
  obtain ⟨d, hselect, h⟩ := bind_eq_ok.mp h
  obtain ⟨e, hcheck, h⟩ := bind_eq_ok.mp h
  obtain ⟨f, hvalid, h⟩ := bind_eq_ok.mp h
  obtain ⟨opens, hopens, rfl⟩ := exists_reportOpened hreport
  obtain ⟨selected, lost, areas, hareas, rfl⟩ := exists_selectOutput hselect
  obtain ⟨error, rfl⟩ := exists_checkSelection hcheck
  rw [markReplay_eq] at hvalid
  obtain ⟨rfl, hlength, htext⟩ := validatePolicyCapacity_eq_ok.mp hvalid
  obtain ⟨id, hid, rfl⟩ := exists_emitTurn h
  exact ⟨selected, lost, error, id, _, hid, ⟨⟨opens, areas, hopens, hareas, rfl⟩, hlength, htext⟩,
    rfl⟩

theorem TurnEvents.named {events : List BackendPolicyEvent} (h : TurnEvents b events)
    {id : ObjectId} {w : Window} (hw : b.windows.lookup id = some w)
    (hpending : w.pendingOpen = true) :
    w.backendId.isSome := by
  obtain ⟨opens, areas, hopens, -, -⟩ := h.eq
  have hmem : openFact w ∈ b.pendingOpens.map fun e => openFact e.2 :=
    mem_map.mpr ⟨(id, w), mem_pendingOpens.mpr ⟨hw, hpending⟩, rfl⟩
  rw [hopens] at hmem
  obtain ⟨fact, -, hfact⟩ := mem_map.mp hmem
  cases hbid : w.backendId with
  | none => simp [openFact, hbid] at hfact
  | some => rfl

theorem linked_finishPolicyTurn (hb : b.Linked) (h : b.finishPolicyTurn = .ok b') : b'.Linked := by
  obtain ⟨_, _, _, id, events, -, hevents, rfl⟩ := exists_finishPolicyTurn h
  have hlookup : ∀ {id w'}, b.reportedWindows.lookup id = some w' →
      ∃ w, b.windows.lookup id = some w ∧ reported w = w' := by
    intro id w' hw'
    rw [lookup_reportedWindows] at hw'
    exact Option.map_eq_some_iff.mp hw'
  constructor
  case realm =>
    intro win bid hwin
    obtain ⟨id, w, hid, hw, hassigned⟩ := hb.realm win bid hwin
    exact ⟨id, reported w, hid, by rw [lookup_reportedWindows, hw, Option.map_some], hassigned⟩
  case named =>
    intro id w' bid hw' hbid
    obtain ⟨w, hw, rfl⟩ := hlookup hw'
    exact hb.named id w bid hw hbid
  case identified =>
    intro bid id w' hbid hw'
    obtain ⟨w, hw, rfl⟩ := hlookup hw'
    exact hb.identified bid id w hbid hw
  case reported =>
    intro id w' hw' _
    obtain ⟨w, hw, rfl⟩ := hlookup hw'
    change w.backendId.isSome
    cases hpending : w.pendingOpen with
    | true => exact hevents.named hw hpending
    | false => exact hb.reported id w hw hpending
  case windows_known =>
    intro id w' hw'
    obtain ⟨w, hw, rfl⟩ := hlookup hw'
    exact hb.windows_known id w hw
  case windowIds_known => exact hb.windowIds_known

/-- What the start of a manage sequence completes first: a response that waited for
its correction. -/
inductive Completes (b : RiverBackend) : RiverBackend → Prop
  | none (h : ∀ pending, b.pendingResponse = some pending →
        pending.stage ≠ .awaitCorrectionManage) :
      Completes b { b with turnRequested := false }
  | correction {pending : PendingResponse} (h : b.pendingResponse = some pending)
      (hstage : pending.stage = .awaitCorrectionManage) (herror : pending.terminalError = .none) :
      Completes b { b with
        turnRequested := false
        pendingResponse := .none
        lastProjection := pending.response.projection.or b.lastProjection
        deferredCorrections := pending.corrections
        publicEvents := b.publicEvents ++ [.operationCompleted pending.ticket (.ok ())]
        drainTicket := some pending.ticket }

theorem exists_manageStart (h : b.manageStart = .ok b') :
    ∃ c, Completes b c ∧ c.finishPolicyTurn = .ok b' := by
  unfold manageStart at h
  simp only at h
  split at h
  · rename_i pending hpending
    split at h
    · rename_i hstage
      split at h
      · cases h
      · rename_i herror
        exact ⟨_, .correction hpending hstage (by simpa using herror), h⟩
    · rename_i hstage
      refine ⟨_, .none ?_, h⟩
      intro p hp
      cases hpending.symm.trans hp
      exact hstage
  · rename_i hpending
    exact ⟨_, .none (by simp [hpending]), h⟩

/-! ## Render sequences and responses -/

/-- What a render sequence makes of the response that waits for it. -/
inductive Rendered : Option PendingResponse → Option PendingResponse → Prop
  | standalone : Rendered none none
  | short {p : PendingResponse} (h : p.stage = .awaitCorrectionManage) :
      Rendered (some p) (some p)
  | flushing {p : PendingResponse} (h : p.stage = .awaitRender) :
      Rendered (some p) (some { p with stage := .flushingRender })
  | corrects {p : PendingResponse} (corrections : CorrectionMap) (h : p.stage = .awaitRender) :
      Rendered (some p) (some { p with
        corrections := corrections
        correctionRound := true
        stage := .awaitCorrectionManage })

theorem Repaints.setPending (h : Repaints b c) (pending : Option PendingResponse) (flush : Bool) :
    Repaints { b with pendingResponse := pending, flushPending := flush }
      { c with pendingResponse := pending, flushPending := flush } := by
  obtain ⟨⟨_, _, _, _, _, _, _, rfl⟩, hsends, hident, hbindings⟩ := h
  exact ⟨⟨_, _, _, _, _, _, _, rfl⟩, hsends, hident, hbindings⟩

theorem Repaints.setFlush (h : Repaints b c) (flush : Bool) :
    Repaints { b with flushPending := flush } { c with flushPending := flush } := by
  obtain ⟨⟨_, _, _, _, _, _, _, rfl⟩, hsends, hident, hbindings⟩ := h
  exact ⟨⟨_, _, _, _, _, _, _, rfl⟩, hsends, hident, hbindings⟩

theorem exists_renderFinish (h : b.renderFinish = .ok b') :
    b' = { b.send .renderFinish with flushPending := true } := by
  unfold renderFinish at h
  split at h
  · cases h
  · exact (Except.ok.inj h).symm

theorem exists_renderResponse {pending : PendingResponse} (hstage : pending.stage = .awaitRender)
    (h : b.renderResponse pending = .ok b') : ∃ rendered, Rendered (some pending) (some rendered) ∧
      Repaints { b with pendingResponse := some rendered, flushPending := true } b' := by
  obtain ⟨⟨c, corrections⟩, hrender, h⟩ := bind_eq_ok.mp h
  obtain ⟨d, hfinish, h⟩ := bind_eq_ok.mp h
  have hpaint := repaints_applyRenderResponse hrender
  obtain rfl := exists_renderFinish hfinish
  split at h
  · cases h
    exact ⟨_, .flushing hstage, (hpaint.setPending _ _).trans (.send _ _)⟩
  · cases h
    exact ⟨_, .corrects corrections hstage,
      (hpaint.setPending _ _).trans ((Repaints.send _ _).trans (.send _ _))⟩

theorem exists_renderStart (h : b.renderStart = .ok b') :
    ∃ pending, Rendered b.pendingResponse pending ∧
      Repaints { b with pendingResponse := pending, flushPending := true } b' := by
  unfold renderStart at h
  split at h
  · rename_i hpending
    obtain ⟨⟨c, corrections⟩, hrender, h⟩ := bind_eq_ok.mp h
    obtain ⟨d, hfinish, h⟩ := bind_eq_ok.mp h
    obtain ⟨rfl, -⟩ := validatePolicyCapacity_eq_ok.mp h
    obtain rfl := exists_renderFinish hfinish
    exact ⟨b.pendingResponse, hpending ▸ .standalone,
      ((repaints_applyRenderResponse hrender).setFlush true).trans (.send _ _)⟩
  rename_i pending hpending
  split at h
  · rename_i hstage
    obtain ⟨⟨c, corrections⟩, hrender, h⟩ := bind_eq_ok.mp h
    obtain rfl := exists_renderFinish h
    exact ⟨b.pendingResponse, hpending ▸ .short hstage,
      ((repaints_applyRenderResponse hrender).setFlush true).trans (.send _ _)⟩
  · rename_i hstage
    obtain ⟨c, hrender, h⟩ := bind_eq_ok.mp h
    obtain ⟨rfl, -⟩ := validatePolicyCapacity_eq_ok.mp h
    obtain ⟨rendered, hrendered, hpaint⟩ := exists_renderResponse hstage hrender
    exact ⟨some rendered, hpending ▸ hrendered, hpaint⟩
  · cases h

theorem exists_respondPolicyTurn {turn : BackendPolicyTurnId} {ticket : BackendTicket}
    {response : BackendPolicyResponse} (h : b.respondPolicyTurn turn ticket response = .ok b') :
    b.openTurn = some turn ∧ ∃ pending : PendingResponse, pending.ticket = ticket ∧
      Repaints { b with
        terminalAfterResponse := none
        openTurn := none
        pendingResponse := some pending
        flushPending := true } b' := by
  unfold respondPolicyTurn at h
  simp only [fail, ite_error_eq_ok, not_or, not_not, Bool.not_eq_true', Bool.not_eq_false] at h
  obtain ⟨⟨hturn, -⟩, -, -, -, -, h⟩ := h
  refine ⟨hturn, ?_⟩
  obtain ⟨⟨c, correctionRound⟩, hanswer, h⟩ := bind_eq_ok.mp h
  have hpaint : Repaints { b with terminalAfterResponse := none } c := by
    unfold answerTurn at hanswer
    split at hanswer
    · exact repaints_answerManage hanswer
    · obtain rfl := congrArg Prod.fst (Except.ok.inj hanswer)
      exact .refl _
  unfold manageFinish at h
  split at h
  · cases h
  cases h
  refine ⟨⟨ticket, response, .awaitRender, b.terminalAfterResponse, ∅, correctionRound⟩, rfl, ?_⟩
  obtain ⟨⟨_, _, _, _, _, _, _, rfl⟩, hsends, hident, hbindings⟩ := hpaint
  exact ⟨⟨_, _, _, _, _, _, _, rfl⟩, hsends.trans (.send _ _), hident, hbindings⟩

theorem exists_closeTurn (h : b.closeTurn policy = .ok b') :
    Repaints { b with openTurn := none } b' := by
  unfold closeTurn at h
  split at h
  · rename_i hopen
    cases h
    rw [← hopen]
    exact .refl _
  obtain ⟨c, hpolicy, h⟩ := bind_eq_ok.mp h
  split at h
  · cases h
  cases h
  refine Repaints.trans ?_ (.send c _)
  unfold exitPolicy at hpolicy
  split at hpolicy
  · exact repaints_applyManageResponse hpolicy
  · cases hpolicy
    exact .refl _

theorem exists_beginExitSession (h : b.beginExitSession policy = .ok b') :
    b.connected = true ∧ b.exitStarted = false ∧ Repaints { b with
      readGuard := false
      publicEvents := []
      openTurn := none
      pendingResponse := none
      flushPending := true
      flushBlocked := false
      exitStarted := true } b' := by
  unfold beginExitSession at h
  split at h
  · cases h
  rename_i hstart
  obtain ⟨c, hclose, h⟩ := bind_eq_ok.mp h
  split at h
  · cases h
  cases h
  simp only [Bool.or_eq_true, Bool.not_eq_true', not_or, Bool.not_eq_false,
    Bool.not_eq_true] at hstart
  refine ⟨hstart.1, hstart.2, ?_⟩
  obtain ⟨⟨_, _, _, _, _, _, _, rfl⟩, hsends, hident, hbindings⟩ := exists_closeTurn hclose
  exact ⟨⟨_, _, _, _, _, _, _, rfl⟩, hsends.trans (.send _ _), hident, hbindings⟩

theorem exists_requestPolicyTurn (h : b.requestPolicyTurn = .ok b') :
    b.connected = true ∧ b.exitStarted = false ∧
      ∃ flush, Repaints { b with turnRequested := true, flushPending := flush } b' := by
  unfold requestPolicyTurn at h
  split at h
  · cases h
  rename_i hstart
  simp only [Bool.or_eq_true, Bool.not_eq_true', not_or, Bool.not_eq_false,
    Bool.not_eq_true] at hstart
  refine ⟨hstart.1, hstart.2, ?_⟩
  split at h
  · rename_i hrequested
    cases h
    rw [← hrequested]
    exact ⟨b.flushPending, .refl _⟩
  split at h
  · cases h
  · cases h
    exact ⟨true, .send _ _⟩

theorem exists_assignWindow (h : b.assignWindow bid win = .ok b') :
    ∃ id w, b.windowIds.lookup bid = some id ∧ b.windows.lookup id = some w ∧
      ((w.assigned = some win ∧ b' = b) ∨
        (w.assigned = none ∧ b.realmIds.lookup win = none ∧ b' = { b with
          windows := b.windows.insert id { w with assigned := some win }
          realmIds := b.realmIds.insert win bid })) := by
  unfold assignWindow at h
  split at h
  · cases h
  rename_i id w hfound
  obtain ⟨id', hid, hmap⟩ := Option.bind_eq_some_iff.mp hfound
  obtain ⟨w', hw, heq⟩ := Option.map_eq_some_iff.mp hmap
  cases heq
  refine ⟨id, w, hid, hw, ?_⟩
  split at h
  · rename_i assigned hassigned
    split at h
    · rename_i heq
      subst heq
      exact .inl ⟨hassigned, (Except.ok.inj h).symm⟩
    · cases h
  · rename_i hassigned
    split at h
    · cases h
    · rename_i hfree
      exact .inr ⟨hassigned, AList.lookup_eq_none.mpr hfree, (Except.ok.inj h).symm⟩

theorem linked_assignWindow (hb : b.Linked) (h : b.assignWindow bid win = .ok b') : b'.Linked := by
  obtain ⟨id, w, hid, hw, ⟨-, rfl⟩ | ⟨hassigned, hfree, rfl⟩⟩ := exists_assignWindow h
  · exact hb
  have hlookup : ∀ {id' w'}, (b.windows.insert id { w with assigned := some win }).lookup id' =
      some w' → ∃ v, b.windows.lookup id' = some v ∧ w'.backendId = v.backendId ∧
        w'.pendingOpen = v.pendingOpen := by
    intro id' w' hw'
    rw [lookup_insert_eq] at hw'
    split at hw'
    · rename_i heq
      obtain rfl := Option.some.inj hw'
      exact ⟨w, heq ▸ hw, rfl, rfl⟩
    · exact ⟨w', hw', rfl, rfl⟩
  constructor
  case realm =>
    intro win' bid' hwin
    rw [lookup_insert_eq] at hwin
    split at hwin
    · rename_i heq
      cases hwin
      exact ⟨id, _, hid, by rw [lookup_insert_eq, if_pos rfl], by rw [heq]⟩
    · obtain ⟨id', w', hid', hw', hassigned'⟩ := hb.realm win' bid' hwin
      have hne : id' ≠ id := by
        rintro rfl
        cases hw'.symm.trans hw
        simp [hassigned] at hassigned'
      exact ⟨id', w', hid', by rw [lookup_insert_eq, if_neg hne, hw'], hassigned'⟩
  case named =>
    intro id' w' bid' hw' hbid
    obtain ⟨v, hv, hname, -⟩ := hlookup hw'
    exact hb.named id' v bid' hv (hname ▸ hbid)
  case identified =>
    intro bid' id' w' hbid hw'
    obtain ⟨v, hv, hname, -⟩ := hlookup hw'
    exact hname ▸ hb.identified bid' id' v hbid hv
  case reported =>
    intro id' w' hw' hopen
    obtain ⟨v, hv, hname, hpending⟩ := hlookup hw'
    exact hname ▸ hb.reported id' v hv (hpending ▸ hopen)
  case windows_known =>
    intro id' w' hw'
    obtain ⟨v, hv, -, -⟩ := hlookup hw'
    exact hb.windows_known id' v hv
  case windowIds_known => exact hb.windowIds_known

end RiverBackend

end Realm
