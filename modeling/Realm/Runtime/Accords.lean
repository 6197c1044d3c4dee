import Realm.River.Reports
import Realm.Runtime.Exchange
import Realm.Runtime.Validation

/-!
# Facts on their way to the session

The backend retains facts as they come and reports the windows that wait at the end of a
manage sequence.  The facts that are retained or queued are legal from the identities the
session knows and lead to the identities the backend has reported.  An event keeps this
when it comes in an order that the backend does not undo: no interaction with a window
before it is reported, no key before the session is live, and no manage sequence before
the last one is rendered.
-/

namespace Realm

open River RiverBackend List Option BackendPolicyEvent Session

variable {fact : Option BackendPolicyEvent}

def BackendEvent.facts : BackendEvent → List BackendPolicyEvent
  | .policyTurn turn => turn.events
  | _ => []

theorem BackendEvent.flatMap_facts_eq_nil {events : List BackendEvent}
    (h : ∀ turn, .policyTurn turn ∉ events) : events.flatMap facts = [] := by
  rw [flatMap_eq_nil_iff]
  intro event hevent
  cases event with
  | policyTurn turn => exact absurd hevent (h turn)
  | _ => rfl

namespace RiverBackend

variable {b b' : RiverBackend} {opens : List BackendPolicyEvent}

/-! ## The opens of a turn -/

theorem opens_of_pendingOpens (h : b.pendingOpens.map (fun e => openFact e.2) = opens.map some) :
    ∀ event ∈ opens, event.opens = true := by
  intro event hevent
  have hmem : some event ∈ b.pendingOpens.map fun e => openFact e.2 :=
    h ▸ mem_map_of_mem hevent
  obtain ⟨e, -, he⟩ := mem_map.mp hmem
  obtain ⟨bid, -, rfl⟩ := map_eq_some_iff.mp he
  rfl

theorem mem_foldl_opens
    (hopens : ∀ event ∈ opens, event.opens = true) {known : Finset BackendWindowId}
    {id : BackendWindowId} : id ∈ opens.foldl advance known ↔
      id ∈ known ∨ ∃ appId title, .windowOpened id appId title ∈ opens := by
  induction opens generalizing known with
  | nil => simp
  | cons event events ih =>
    obtain ⟨bid, appId, title, rfl⟩ := exists_of_opens (hopens event (by simp))
    rw [foldl_cons, ih fun e he => hopens e (by simp [he])]
    simp only [advance, Finset.mem_insert, mem_cons, windowOpened.injEq]
    grind

theorem openedIds_reportedWindows
    (h : b.pendingOpens.map (fun e => openFact e.2) = opens.map some)
    (hb' : b'.windows = b.reportedWindows) :
    b'.openedIds = opens.foldl advance b.openedIds := by
  ext bid
  rw [mem_foldl_opens (opens_of_pendingOpens h), mem_openedIds, mem_openedIds, hb']
  simp only [lookup_reportedWindows, map_eq_some_iff]
  constructor
  · rintro ⟨id, _, ⟨w, hw, rfl⟩, -, hbid⟩
    cases hpending : w.pendingOpen with
    | false => exact .inl ⟨id, w, hw, hpending, hbid⟩
    | true =>
      refine .inr ⟨w.appId, w.title, ?_⟩
      have hmem : openFact w ∈ opens.map some := h ▸ mem_map.mpr
        ⟨(id, w), mem_pendingOpens.mpr ⟨hw, hpending⟩, rfl⟩
      have hfact : openFact w = some (.windowOpened bid w.appId w.title) := by
        rw [openFact, show w.backendId = some bid from hbid, map_some]
      simpa [hfact] using hmem
  · rintro (⟨id, w, hw, hopen, hbid⟩ | ⟨appId, title, hmem⟩)
    · exact ⟨id, reported w, ⟨w, hw, rfl⟩, rfl, hbid⟩
    · have hmem' : some (.windowOpened bid appId title) ∈
          b.pendingOpens.map fun e => openFact e.2 :=
        h ▸ mem_map_of_mem hmem
      obtain ⟨e, he, hfact⟩ := mem_map.mp hmem'
      obtain ⟨bid', hbid', heq⟩ := map_eq_some_iff.mp hfact
      cases heq
      exact ⟨e.1, reported e.2, ⟨e.2, (mem_pendingOpens.mp he).1, rfl⟩, rfl, hbid'⟩

/-! ## Facts on their way to the session -/

/-- The facts the session has not read: those of a queued turn, and those retained. -/
def unread (b : RiverBackend) : List BackendPolicyEvent :=
  b.publicEvents.flatMap BackendEvent.facts ++ b.policyEvents

theorem unread_of_publicEvents_nil (h : b.publicEvents = []) : b.unread = b.policyEvents := by
  simp [unread, h]

theorem unread_of_queues (hqueues : Queues b b')
    (hfacts : b'.policyEvents = b.policyEvents ++ fact.toList) :
    b'.unread = b.unread ++ fact.toList := by
  obtain ⟨extra, heq, hnone, -⟩ := hqueues.publicEvents
  simp only [unread, heq, hfacts, flatMap_append, BackendEvent.flatMap_facts_eq_nil hnone,
    append_nil, append_assoc]

theorem canonicalModifiers_decodeModifiers {bits : ℕ} {modifiers : List BackendModifier}
    (h : decodeModifiers bits = some modifiers) : canonicalModifiers modifiers = true := by
  unfold decodeModifiers at h
  split at h
  · cases h
  cases h
  generalize (fun m => decide (bits &&& modifierBit m ≠ 0)) = p
  cases hshift : p .shift <;> cases hcontrol : p .control <;> cases halt : p .alt <;>
    cases hsuper : p .super <;> simp [hshift, hcontrol, halt, hsuper] <;> rfl

end RiverBackend

namespace System

variable {s s' : System} {events facts : List BackendPolicyEvent} {b c : RiverBackend}

/-! ## Events that come in time -/

/-- An event comes when the backend can report it in order: an interaction after its
window is reported, a key when the session is live, the modifiers after the replay, one
change of the exclusive focus in the replay, and a manage sequence after the last one is
rendered. -/
def Timely (s : System) : Incoming → Prop
  | .windowInteracted id => ∀ w, s.backend.windows.lookup id = some w → w.pendingOpen = false
  | .bindingPressed _ | .bindingReleased _ | .bindingRepeatStopped _ | .unboundKeyEaten =>
    s.phase = .live
  | .modifiersChanged .. => s.backend.replay = false
  | .exclusiveFocus _ => s.backend.replay = true →
    ∀ fact ∈ s.backend.policyEvents, fact.isExclusive = false
  | .manageStart => ∀ pending, s.backend.pendingResponse = some pending →
    pending.stage = .awaitCorrectionManage
  | _ => True

/-- River names windows once and brings its events in time. -/
def InTime (s : System) (input : Input) : Prop :=
  ∀ event, s.delivered input = some event → s.backend.NamesNew event ∧ s.Timely event

/-! ## What the session knows and what the backend reports -/

/-- The unread facts lead from what the session knows to what the backend has reported,
and a queued turn has the shape and number the session expects. -/
structure Accords (s : System) : Prop where
  legal : s.Legal s.baseIds s.backend.unread
  opened : s.backend.unread.foldl advance s.baseIds = s.backend.openedIds
  barrier : .initialReplayComplete ∉ s.backend.policyEvents
  replaying : s.backend.replay = true → s.phase = .initialReplay ∧
    s.backend.publicEvents = [] ∧
    (s.backend.policyEvents = [] ∨ ∃ b, s.backend.policyEvents = [.exclusiveFocusChanged b])
  replayed : s.phase = .initialReplay → s.backend.replay = false → s.backend.publicEvents ≠ []
  last_le : ∀ last, s.lastPolicyTurn = some last → last.raw ≤ s.backend.nextTurn
  shaped : ∀ turn, .policyTurn turn ∈ s.backend.publicEvents →
    Session.Shaped (decide (s.phase = .initialReplay)) turn.events
  numbered : ∀ turn, .policyTurn turn ∈ s.backend.publicEvents →
    turn.id.raw ≤ s.backend.nextTurn ∧
      ∀ last, s.lastPolicyTurn = some last → last.raw < turn.id.raw
  awaited : ∀ k, s.transaction = .inFlight k → ∀ turn events,
    s.backend.publicEvents ≠ .policyTurn turn :: events

theorem foldl_advance_exclusive
    (h : facts = [] ∨ ∃ b, facts = [.exclusiveFocusChanged b]) (known : Finset BackendWindowId) :
    facts.foldl advance known = known := by
  rcases h with rfl | ⟨b, rfl⟩ <;> rfl

theorem Accords.openedIds_of_replay (hs : s.Accords) (hreplay : s.backend.replay = true) :
    s.backend.openedIds = ∅ := by
  obtain ⟨hphase, hqueue, hfacts⟩ := hs.replaying hreplay
  rw [← hs.opened, unread_of_publicEvents_nil hqueue,
    foldl_advance_exclusive hfacts, baseIds, if_pos hphase]

/-- A fact that the session may be told next. -/
structure Tells (s : System) (fact : BackendPolicyEvent) : Prop where
  permits : s.Permits s.backend.openedIds fact
  barrier : fact ≠ .initialReplayComplete
  replay : s.backend.replay = true →
    s.backend.policyEvents = [] ∧ ∃ b, fact = .exclusiveFocusChanged b

theorem tells_of_timely (hs : s.Accords)
    (hkept : s.backend.Kept (· ∈ s.bindings)) {event : Incoming} (htimely : s.Timely event)
    {t : Transport} (h : { s.backend with transport := t }.applyEvent event = .ok b)
    {fact : BackendPolicyEvent} (hfact : s.backend.factOf event = some fact) : s.Tells fact := by
  have hopened {bid : BackendWindowId} (hbid : bid ∈ s.backend.openedIds) :
      s.backend.replay = true → False := by
    intro hreplay
    simp [hs.openedIds_of_replay hreplay] at hbid
  have hlive (hphase : s.phase = .live) : s.backend.replay = true → False := by
    intro hreplay
    rw [(hs.replaying hreplay).1] at hphase
    cases hphase
  cases event with
  | windowTitle id =>
    obtain ⟨w, hw, hfact⟩ := bind_eq_some_iff.mp hfact
    split at hfact
    · cases hfact
    rename_i hpending
    obtain ⟨bid, hbid, rfl⟩ := map_eq_some_iff.mp hfact
    have hmem : bid ∈ s.backend.openedIds :=
      mem_openedIds.mpr ⟨id, w, hw, by simpa using hpending, hbid⟩
    exact ⟨hmem, by simp, fun hreplay => (hopened hmem hreplay).elim⟩
  | windowDimensions id =>
    obtain ⟨bid, ⟨w, hw, hpending, hbid⟩, rect, rfl⟩ :=
      factOf_windowDimensions hfact
    have hmem : bid ∈ s.backend.openedIds :=
      mem_openedIds.mpr ⟨id, w, hw, hpending, hbid⟩
    exact ⟨hmem, by simp, fun hreplay => (hopened hmem hreplay).elim⟩
  | windowClosed =>
    obtain ⟨w, hw, hfact'⟩ := bind_eq_some_iff.mp hfact
    split at hfact'
    · cases hfact'
    obtain ⟨bid, hbid, rfl⟩ := map_eq_some_iff.mp hfact'
    have hmem := factOf_eq_windowClosed hfact
    exact ⟨hmem, by simp, fun hreplay => (hopened hmem hreplay).elim⟩
  | windowInteracted id =>
    obtain ⟨bid, hbid, rfl⟩ := map_eq_some_iff.mp hfact
    obtain ⟨w, hw, hbid⟩ := bind_eq_some_iff.mp hbid
    have hmem : bid ∈ s.backend.openedIds :=
      mem_openedIds.mpr ⟨id, w, hw, htimely w hw, hbid⟩
    exact ⟨hmem, by simp, fun hreplay => (hopened hmem hreplay).elim⟩
  | workarea =>
    obtain ⟨area, rfl⟩ := factOf_workarea hfact
    refine ⟨trivial, by simp, fun hreplay => ?_⟩
    obtain ⟨e, -, hfact⟩ := bind_eq_some_iff.mp hfact
    simp [(hkept.unselected hreplay).1] at hfact
  | exclusiveFocus exclusive =>
    cases hfact
    refine ⟨trivial, by simp, fun hreplay => ⟨?_, exclusive, rfl⟩⟩
    rcases (hs.replaying hreplay).2.2 with hnil | ⟨b, hone⟩
    · exact hnil
    · exact absurd (htimely hreplay (.exclusiveFocusChanged b) (by simp [hone]))
        (by simp [isExclusive])
  | bindingPressed id | bindingReleased id | bindingRepeatStopped id =>
    cases hfact
    simp only [applyEvent, bindingFact] at h
    split at h
    · exact ⟨⟨hkept.objects id ‹_›, htimely⟩, by simp, fun hreplay => (hlive htimely hreplay).elim⟩
    · cases h
  | unboundKeyEaten =>
    cases hfact
    exact ⟨htimely, by simp, fun hreplay => (hlive htimely hreplay).elim⟩
  | modifiersChanged old new =>
    obtain ⟨old, hold, hfact⟩ := bind_eq_some_iff.mp hfact
    obtain ⟨new, hnew, rfl⟩ := map_eq_some_iff.mp hfact
    refine ⟨⟨canonicalModifiers_decodeModifiers hold,
      canonicalModifiers_decodeModifiers hnew⟩, by simp, fun hreplay => ?_⟩
    exact absurd (htimely.symm.trans hreplay) (by simp)
  | _ => cases hfact

/-! ## Steps -/

/-- The session sees turns as before. -/
structure SameView (s s' : System) : Prop where
  bindings : s'.bindings = s.bindings
  phase : s'.phase = s.phase
  baseIds : s'.baseIds = s.baseIds
  lastPolicyTurn : s'.lastPolicyTurn = s.lastPolicyTurn
  inFlight : ∀ k, s'.transaction = .inFlight k → s.transaction = .inFlight k

/-- No response is under way in the replay. -/
def QuietReplay (s : System) : Prop := s.phase = .initialReplay →
  s.transaction = .idle ∧ s.backend.pendingResponse = none ∧ s.backend.drainTicket = none

/-- A step that queues no turn and retains a fact that the session may be told. -/
theorem Accords.of_retains (hs : s.Accords) (hquiet : s.QuietReplay) (hview : SameView s s')
    (hretains : s.backend.Retains s'.backend fact) (hqueues : s.backend.Queues s'.backend)
    (hcard : s'.backend.openedIds.card ≤ maxManagedWindows)
    (hfact : ∀ f, fact = some f → s.Tells f) : s'.Accords := by
  have hunread := unread_of_queues hqueues hretains.policyEvents
  obtain ⟨extra, hevents, hturns, hnothing⟩ := hqueues.publicEvents
  have hmem {turn : BackendPolicyTurn} (h : .policyTurn turn ∈ s'.backend.publicEvents) :
      .policyTurn turn ∈ s.backend.publicEvents := by
    rw [hevents] at h
    exact (mem_append.mp h).resolve_right (hturns turn)
  have hfacts : s.Legal s.backend.openedIds fact.toList := by
    cases fact with
    | none => trivial
    | some f =>
      have hopened : s'.backend.openedIds = advance s.backend.openedIds f := hretains.openedIds
      exact ⟨(hfact f rfl).permits, hopened ▸ hcard, trivial⟩
  constructor
  case legal =>
    rw [hunread, hview.baseIds]
    refine Legal.mono hview.bindings (fun h => hview.phase.trans h) ?_
    exact legal_append.mpr ⟨hs.legal, hs.opened ▸ hfacts⟩
  case opened =>
    rw [hunread, hview.baseIds, foldl_append, hs.opened, hretains.openedIds]
    cases fact <;> rfl
  case barrier =>
    rw [hretains.policyEvents]
    intro h
    rcases mem_append.mp h with h | h
    · exact hs.barrier h
    · exact (hfact _ (mem_toList.mp h)).barrier rfl
  case replaying =>
    intro hreplay
    rw [hretains.replay] at hreplay
    obtain ⟨hphase, hqueue, hold⟩ := hs.replaying hreplay
    obtain ⟨-, hpending, hdrain⟩ := hquiet hphase
    refine ⟨hview.phase.trans hphase, by rw [hevents, hqueue, hnothing hpending hdrain]; rfl, ?_⟩
    rw [hretains.policyEvents]
    cases fact with
    | none => simpa using hold
    | some f =>
      obtain ⟨hnil, b, rfl⟩ := (hfact f rfl).replay hreplay
      exact .inr ⟨b, by rw [hnil]; rfl⟩
  case replayed =>
    intro hphase hreplay
    rw [hevents]
    have hne := hs.replayed (hview.phase ▸ hphase) (hretains.replay ▸ hreplay)
    simp [hne]
  case last_le =>
    intro last hlast
    rw [hqueues.nextTurn]
    exact hs.last_le last (hview.lastPolicyTurn ▸ hlast)
  case shaped => exact fun turn hturn => hview.phase ▸ hs.shaped turn (hmem hturn)
  case numbered =>
    intro turn hturn
    rw [hqueues.nextTurn, hview.lastPolicyTurn]
    exact hs.numbered turn (hmem hturn)
  case awaited =>
    intro k htransaction turn events heq
    cases hqueue : s.backend.publicEvents with
    | nil =>
      rw [hqueue, nil_append] at hevents
      exact hturns turn (by simp [← hevents, heq])
    | cons event rest =>
      rw [hqueue, cons_append] at hevents
      obtain ⟨rfl, -⟩ := cons.inj (hevents.symm.trans heq)
      exact hs.awaited k (hview.inFlight k htransaction) turn rest hqueue

theorem isFocus_of_opens {event : BackendPolicyEvent} (h : event.opens = true) :
    event.isFocus = false ∧ event.isExclusive = false ∧ event.replays = true ∧
      event ≠ .initialReplayComplete := by
  obtain ⟨id, appId, title, rfl⟩ := exists_of_opens h
  exact ⟨rfl, rfl, rfl, by simp⟩

theorem checkBarrier_replay {opens : List BackendPolicyEvent}
    (hfacts : facts = [] ∨ ∃ b, facts = [.exclusiveFocusChanged b])
    (hopens : ∀ event ∈ opens, event.opens = true) :
    Session.checkBarrier true (facts ++ opens ++ [.initialReplayComplete]) = .ok () := by
  have hbarrier : .initialReplayComplete ∉ facts ++ opens := by
    intro h
    rcases mem_append.mp h with h | h
    · rcases hfacts with rfl | ⟨b, rfl⟩ <;> simp at h
    · exact (isFocus_of_opens (hopens _ h)).2.2.2 rfl
  have hfocus : opens.countP isFocus = 0 :=
    countP_eq_zero.mpr fun e he => by simp [(isFocus_of_opens (hopens e he)).1]
  have hexclusive : opens.countP isExclusive = 0 :=
    countP_eq_zero.mpr fun e he => by simp [(isFocus_of_opens (hopens e he)).2.1]
  simp only [checkBarrier, if_true, Guard.ite_error_eq_ok]
  refine ⟨?_, checkReplayEvents_iff_replayShape.mpr ⟨fun event hevent => ?_, ?_, ?_⟩⟩
  · rw [count_append, count_eq_zero.mpr hbarrier]
    simp
  · simp only [mem_append, mem_singleton] at hevent
    rcases hevent with (h | h) | rfl
    · rcases hfacts with rfl | ⟨b, rfl⟩
      · cases h
      · obtain rfl := mem_singleton.mp h
        rfl
    · exact (isFocus_of_opens (hopens event h)).2.2.1
    · rfl
  · rw [countP_append, countP_append, hfocus]
    rcases hfacts with rfl | ⟨b, rfl⟩ <;> simp [isFocus]
  · rw [countP_append, countP_append, hexclusive]
    rcases hfacts with rfl | ⟨b, rfl⟩ <;> simp [isExclusive]

theorem checkBarrier_later
    (h : .initialReplayComplete ∉ events) : Session.checkBarrier false events = .ok () := by
  simp [checkBarrier, h]

/-- What is queued before the turn of a manage sequence in time: the completion of a
response that is under way. -/
structure Begins (s : System) (c : RiverBackend) : Prop where
  policyEvents : c.policyEvents = s.backend.policyEvents
  windows : c.windows = s.backend.windows
  replay : c.replay = s.backend.replay
  lost : c.selectedOutputLost = s.backend.selectedOutputLost
  nextTurn : c.nextTurn = s.backend.nextTurn
  no_turn : ∀ turn, .policyTurn turn ∉ c.publicEvents
  completes : ∀ k, s.transaction = .inFlight k → c.publicEvents ≠ []

theorem begins_of_completes (hcoupled : Coupled s.transaction s.backend.ports)
    (hidle : s.backend.Idle) (htimely : s.Timely .manageStart)
    (h : s.backend.Completes c) : s.Begins c := by
  cases h with
  | none hnone =>
    refine ⟨rfl, rfl, rfl, rfl, rfl, by simp [hidle.publicEvents], fun k hk => ?_⟩
    simp only [ports, hidle.publicEvents, hk] at hcoupled
    generalize hpending : s.backend.pendingResponse = pending at hcoupled
    generalize s.backend.openTurn = turn, s.backend.drainTicket = ticket,
      s.backend.exitStarted = exit at hcoupled
    cases hcoupled with
    | rests hawaits => exact hawaits.elim
    | answered => exact absurd (htimely _ hpending) (hnone _ hpending)
  | correction => exact ⟨rfl, rfl, rfl, rfl, rfl, by simp [hidle.publicEvents], fun _ _ => by simp⟩

theorem advance_area {areas : List BackendPolicyEvent} {lost : Prop}
    (h : areas = [] ∨ ∃ area, lost ∧ areas = [.workareaChanged area])
    (known : Finset BackendWindowId) : areas.foldl advance known = known := by
  rcases h with rfl | ⟨area, -, rfl⟩ <;> rfl

theorem legal_of_turnEvents (hs : s.Accords) (hidle : s.backend.Idle)
    (hc : s.Begins c) (h : c.TurnEvents events)
    (hwindows : b.windows = c.reportedWindows) (hcard : b.openedIds.card ≤ maxManagedWindows) :
    s.Legal s.baseIds events ∧ events.foldl advance s.baseIds = b.openedIds := by
  obtain ⟨opens, areas, hopens, hareas, rfl⟩ := h.eq
  have hbefore : c.policyEvents.foldl advance s.baseIds = c.openedIds := by
    rw [hc.policyEvents, ← unread_of_publicEvents_nil hidle.publicEvents, hs.opened,
      RiverBackend.openedIds, RiverBackend.openedIds, hc.windows]
  have hlegal : s.Legal s.baseIds c.policyEvents := by
    rw [hc.policyEvents, ← unread_of_publicEvents_nil hidle.publicEvents]
    exact hs.legal
  have hopened := openedIds_reportedWindows hopens hwindows
  have hbarrier (known : Finset BackendWindowId) : (if c.replay then
      [initialReplayComplete] else []).foldl advance known = known := by
    split <;> rfl
  simp only [legal_append, foldl_append, hbefore, ← hopened, advance_area hareas, hbarrier]
  refine ⟨⟨⟨⟨hlegal, ?_⟩, ?_⟩, ?_⟩, trivial⟩
  · exact legal_opens (opens_of_pendingOpens hopens) (hopened ▸ hcard)
  · rcases hareas with rfl | ⟨area, -, rfl⟩
    · trivial
    · exact ⟨trivial, hcard, trivial⟩
  · split
    · exact ⟨trivial, hcard, trivial⟩
    · trivial

theorem shaped_of_turnEvents (hs : s.Accords) (hkept : s.backend.Kept (· ∈ s.bindings))
    (hidle : s.backend.Idle) {c : RiverBackend} (hc : s.Begins c)
    {events : List BackendPolicyEvent} (h : c.TurnEvents events) :
    Session.Shaped (decide (s.phase = .initialReplay)) events := by
  have hphase : decide (s.phase = .initialReplay) = c.replay := by
    rw [hc.replay]
    cases hreplay : s.backend.replay with
    | true => simp [(hs.replaying hreplay).1]
    | false => exact decide_eq_false fun hphase => hs.replayed hphase hreplay hidle.publicEvents
  rw [hphase]
  refine ⟨?_, h.length_le, h.text_le⟩
  obtain ⟨opens, areas, hopens, hareas, rfl⟩ := h.eq
  have hopens := opens_of_pendingOpens hopens
  cases hreplay : c.replay with
  | true =>
    have hreplay : s.backend.replay = true := hc.replay ▸ hreplay
    have hnone : areas = [] := by
      rcases hareas with rfl | ⟨area, hlost, -⟩
      · rfl
      · rw [hc.lost, (hkept.unselected hreplay).2] at hlost
        cases hlost
    rw [hnone, append_nil, hc.policyEvents, if_pos rfl]
    exact checkBarrier_replay (hs.replaying hreplay).2.2 hopens
  | false =>
    refine checkBarrier_later fun hmem => ?_
    simp only [Bool.false_eq_true, if_false, append_nil, mem_append, hc.policyEvents]
      at hmem
    rcases hmem with (h | h) | h
    · exact hs.barrier h
    · exact (isFocus_of_opens (hopens _ h)).2.2.2 rfl
    · rcases hareas with rfl | ⟨area, -, rfl⟩ <;> simp at h

theorem Accords.of_manageStart (hs : s.Accords) (hcoupled : Coupled s.transaction s.backend.ports)
    (hkept : s.backend.Kept (· ∈ s.bindings)) (hidle : s.backend.Idle)
    (htimely : s.Timely .manageStart) {b : RiverBackend} (h : s.backend.manageStart = .ok b)
    (hcard : b.openedIds.card ≤ maxManagedWindows) : Accords { s with backend := b } := by
  obtain ⟨c, hcompletes, hfinish⟩ := exists_manageStart h
  have hc := begins_of_completes hcoupled hidle htimely hcompletes
  obtain ⟨_, _, _, turnId, events, hid, hevents, heq⟩ :=
    exists_finishPolicyTurn hfinish
  have hpublic : b.publicEvents =
      c.publicEvents ++ [.policyTurn ⟨turnId, c.drainTicket, events⟩] := by
    rw [heq]
  have hnext : b.nextTurn = s.backend.nextTurn + 1 := by rw [heq, ← hc.nextTurn]
  have hunread : b.unread = events := by
    rw [unread, hpublic, flatMap_append,
      BackendEvent.flatMap_facts_eq_nil hc.no_turn, heq]
    simp [BackendEvent.facts]
  have hturn {turn : BackendPolicyTurn} (h : .policyTurn turn ∈ b.publicEvents) :
      turn = ⟨turnId, c.drainTicket, events⟩ := by
    rw [hpublic] at h
    rcases mem_append.mp h with h | h
    · exact absurd h (hc.no_turn turn)
    · exact BackendEvent.policyTurn.inj (mem_singleton.mp h)
  obtain ⟨hlegal, hopened⟩ := legal_of_turnEvents hs hidle hc hevents (by rw [heq]) hcard
  constructor
  case legal =>
    change Session.Legal _ s.baseIds b.unread
    rw [hunread]
    exact Legal.mono (s := s) rfl id hlegal
  case opened => exact hunread ▸ hopened
  case barrier => simp [heq]
  case replaying => simp [heq]
  case replayed => simp [hpublic]
  case last_le =>
    intro last hlast
    have hle := hs.last_le last hlast
    simp only [hnext]
    omega
  case shaped =>
    intro turn h
    rw [hturn h]
    exact shaped_of_turnEvents hs hkept hidle hc hevents
  case numbered =>
    intro turn h
    rw [hturn h]
    simp only [hid, hnext, hc.nextTurn]
    refine ⟨le_refl _, fun last hlast => ?_⟩
    exact Nat.lt_succ_of_le (hs.last_le last hlast)
  case awaited =>
    intro k hk turn rest h
    have h := hpublic.symm.trans h
    cases hdone : c.publicEvents with
    | nil => exact hc.completes k hk hdone
    | cons =>
      rw [hdone, cons_append] at h
      obtain ⟨rfl, -⟩ := cons.inj h
      exact hc.no_turn turn (by simp [hdone])

end System

end Realm
