import Realm.River.Render

/-!
# Retained facts

Between two manage sequences every move retains at most the fact of the event it
applies.  A window that is closed after it was reported is retained as closed once,
since its identity is gone afterwards.  Nothing but a manage sequence empties the
facts, so resizes of a window by itself add up.
-/

namespace Realm

open River Guard List Option

namespace RiverBackend

variable {b b' c d : RiverBackend} {bid : BackendWindowId} {event : Incoming}
  {t : Transport} {facts : List BackendPolicyEvent}

/-! ## The facts of a move -/

/-- A step retains a fact or none, and the reported identities follow it. -/
structure Retains (b b' : RiverBackend) (fact : Option BackendPolicyEvent) : Prop where
  policyEvents : b'.policyEvents = b.policyEvents ++ fact.toList
  openedIds : b'.openedIds = fact.elim b.openedIds (advance b.openedIds)
  replay : b'.replay = b.replay

theorem Retains.of_rests (h : Rests b b') : Retains b b' none :=
  ⟨by simpa using h.policyEvents, h.sameBindings.openedIds, h.replay⟩

theorem Retains.of_repaints (h : Repaints b b') : Retains b b' none := by
  have hopened := h.sameBindings.openedIds
  obtain ⟨⟨_, _, _, _, _, _, _, rfl⟩, -, -, -⟩ := h
  exact ⟨(append_nil _).symm, hopened, rfl⟩

theorem openedIds_assignWindow {win : WinId}
    (h : b.assignWindow bid win = .ok b') : b'.openedIds = b.openedIds := by
  obtain ⟨id, w, -, hw, ⟨-, rfl⟩ | ⟨-, -, rfl⟩⟩ := exists_assignWindow h
  · rfl
  ext bid'
  simp only [mem_openedIds, Map.lookup_insert_eq]
  constructor
  · rintro ⟨id', w', hw', hopen, hbid⟩
    split at hw'
    · obtain rfl := some.inj hw'
      exact ⟨id, w, hw, hopen, hbid⟩
    · exact ⟨id', w', hw', hopen, hbid⟩
  · rintro ⟨id', w', hw', hopen, hbid⟩
    by_cases heq : id' = id
    · subst heq
      cases hw'.symm.trans hw
      exact ⟨id', _, if_pos rfl, hopen, hbid⟩
    · exact ⟨id', w', by rw [if_neg heq, hw'], hopen, hbid⟩

theorem retains_of_ask (h : Ask b b') : Retains b b' none := by
  cases h with
  | assign h =>
    have hopened := openedIds_assignWindow h
    obtain ⟨_, _, _, _, ⟨-, rfl⟩ | ⟨-, -, rfl⟩⟩ := exists_assignWindow h
    · exact ⟨(append_nil _).symm, rfl, rfl⟩
    · exact ⟨(append_nil _).symm, hopened, rfl⟩
  | request h =>
    obtain ⟨-, -, _, hpaint⟩ := exists_requestPolicyTurn h
    obtain ⟨hfacts, hopened, hreplay⟩ := Retains.of_repaints hpaint
    exact ⟨hfacts, hopened, hreplay⟩
  | respond h =>
    obtain ⟨-, _, -, hpaint⟩ := exists_respondPolicyTurn h
    obtain ⟨hfacts, hopened, hreplay⟩ := Retains.of_repaints hpaint
    exact ⟨hfacts, hopened, hreplay⟩
  | exit h =>
    obtain ⟨-, -, hpaint⟩ := exists_beginExitSession h
    obtain ⟨hfacts, hopened, hreplay⟩ := Retains.of_repaints hpaint
    exact ⟨hfacts, hopened, hreplay⟩

theorem factOf_transport (t : Transport) (event : Incoming) :
    { b with transport := t }.factOf event = b.factOf event := by
  cases event <;> rfl

theorem retains_of_applyRuntimeEvent (hb : b.Linked) (hfresh : b.Fresh event)
    (hnames : b.NamesNew event) (hmanage : event ≠ .manageStart)
    (h : b.applyRuntimeEvent event = .ok b') : Retains b b' (b.factOf event) := by
  rcases applyRuntimeEvent_cases h with ⟨rfl, h⟩ | ⟨rfl, -⟩ | ⟨-, -, h, -⟩
  · obtain ⟨_, -, hpaint⟩ := exists_renderStart h
    obtain ⟨hfacts, hopened, hreplay⟩ := Retains.of_repaints hpaint
    exact ⟨hfacts, hopened, hreplay⟩
  · exact absurd rfl hmanage
  · have happlied := applied_applyEvent hmanage h
    have hexchange := happlied.exchange
    simp only [exchange, Exchange.mk.injEq] at hexchange
    exact ⟨happlied.policyEvents, openedIds_applyEvent hb hfresh hnames hmanage h, hexchange.2.2.1⟩

theorem retains_of_quantum {ready : BackendReady} {published : Option BackendEvent}
    (h : Quantum b ready published b') (hnone : b.delivered ready = none) : Retains b b' none := by
  cases h with
  | partialFlush _ ht => exact .of_rests ⟨rfl, rfl, rfl, rfl, rfl, rfl, rfl, ht.objects⟩
  | flush _ ht hflushed =>
    obtain ⟨h₁, h₂, h₃, h₄, h₅, h₆, h₇, hobjects⟩ := rests_flushed hflushed
    exact .of_rests ⟨h₁, h₂, h₃, h₄, h₅, h₆, h₇, Subset.trans ht.objects hobjects⟩
  | exitWait | exited | publish | answering =>
    exact .of_rests ⟨rfl, rfl, rfl, rfl, rfl, rfl, rfl, Subset.refl _⟩
  | read _ _ ht | drain _ _ ht => exact .of_rests ⟨rfl, rfl, rfl, rfl, rfl, rfl, rfl, ht.objects⟩
  | deliver _ hdelivered => exact absurd (hnone.symm.trans hdelivered) (by simp)

theorem retains_of_move {label : Option Incoming} (h : Move b label b') (hnone : label = none) :
    Retains b b' none := by
  cases h with
  | river move =>
    exact .of_rests ⟨rfl, rfl, rfl, rfl, rfl, rfl, rfl, move.objects_apply _ ▸ Subset.refl _⟩
  | ask h => exact retains_of_ask h
  | service h => exact retains_of_quantum (quantum_of_service h) hnone

/-! ## Closed windows -/

/-- An event retains the opening of no window; those are reported by a sequence. -/
theorem factOf_ne_windowOpened (event : Incoming) (bid : BackendWindowId) (appId title : String) :
    b.factOf event ≠ some (.windowOpened bid appId title) := by
  intro h
  by_cases hties : Ties event
  · cases event with
    | windowCreated | windowIdentifier => cases h
    | windowClosed =>
      obtain ⟨w, -, h⟩ := bind_eq_some_iff.mp h
      split at h
      · cases h
      · simp at h
    | _ => exact hties.elim
  · have hsame := advance_of_not_ties hties h (∅ : Finset BackendWindowId)
    simp [advance] at hsame

theorem factOf_eq_windowClosed (h : b.factOf event = some (.windowClosed bid)) :
    bid ∈ b.openedIds := by
  by_cases hties : Ties event
  · cases event with
    | windowCreated | windowIdentifier => cases h
    | windowClosed id =>
      obtain ⟨w, hw, h⟩ := bind_eq_some_iff.mp h
      split at h
      · cases h
      · rename_i hpending
        obtain ⟨bid', hbid, heq⟩ := map_eq_some_iff.mp h
        cases heq
        exact mem_openedIds.mpr ⟨id, w, hw, by simpa using hpending, hbid⟩
    | _ => exact hties.elim
  · have hsame := advance_of_not_ties hties h ({bid} : Finset BackendWindowId)
    simp [advance] at hsame

/-- A window is retained as closed at most once, and is not open then. -/
def ClosedOnce (b : RiverBackend) (bid : BackendWindowId) : Prop :=
  b.policyEvents.count (.windowClosed bid) ≤ 1 ∧
    (.windowClosed bid ∈ b.policyEvents → bid ∉ b.openedIds)

theorem ClosedOnce.of_retains {event : Option Incoming}
    (hb : b.ClosedOnce bid) (h : Retains b b' (event.bind b.factOf)) : b'.ClosedOnce bid := by
  obtain ⟨hfacts, hopened, -⟩ := h
  cases hfact : event.bind b.factOf with
  | none =>
    rw [hfact] at hfacts hopened
    simp only [toList_none, append_nil, elim_none] at hfacts hopened
    rw [ClosedOnce, hfacts, hopened]
    exact hb
  | some fact =>
    rw [hfact] at hfacts hopened
    simp only [toList_some, elim_some] at hfacts hopened
    obtain ⟨incoming, -, hincoming⟩ := bind_eq_some_iff.mp hfact
    by_cases hclosed : fact = .windowClosed bid
    · subst hclosed
      have hmem := factOf_eq_windowClosed hincoming
      have hnew : .windowClosed bid ∉ b.policyEvents := fun h => hb.2 h hmem
      rw [ClosedOnce, hfacts, hopened]
      simp [advance, count_eq_zero.mpr hnew]
    · have hsub : b'.openedIds ⊆ b.openedIds := by
        rw [hopened]
        cases fact with
        | windowOpened bid' appId title =>
          exact absurd hincoming (factOf_ne_windowOpened incoming bid' appId title)
        | windowClosed => exact Finset.erase_subset _ _
        | _ => exact Finset.Subset.refl _
      rw [ClosedOnce, hfacts]
      refine ⟨by simpa [count_append, count_singleton, hclosed] using hb.1, fun h => ?_⟩
      rcases mem_append.mp h with h | h
      · exact fun hopen => hb.2 h (hsub hopen)
      · exact absurd (mem_singleton.mp h).symm hclosed

/-- The turn of a manage sequence reports the closings that were retained, and no others. -/
theorem TurnEvents.count_windowClosed {events : List BackendPolicyEvent} (h : TurnEvents b events)
    (bid : BackendWindowId) :
    events.count (.windowClosed bid) = b.policyEvents.count (.windowClosed bid) := by
  obtain ⟨opens, areas, hopens, hareas, rfl⟩ := h.eq
  have hnone : .windowClosed bid ∉ opens := by
    intro hmem
    have hmem' : some (.windowClosed bid) ∈ b.pendingOpens.map fun e => openFact e.2 :=
      hopens ▸ mem_map.mpr ⟨_, hmem, rfl⟩
    obtain ⟨e, -, he⟩ := mem_map.mp hmem'
    obtain ⟨_, -, hfact⟩ := map_eq_some_iff.mp he
    cases hfact
  have hareas' : .windowClosed bid ∉ areas := by
    rcases hareas with rfl | ⟨area, -, rfl⟩ <;> simp
  have hbarrier : .windowClosed bid ∉
      if b.replay then [BackendPolicyEvent.initialReplayComplete] else [] := by
    split <;> simp
  simp [count_append, count_eq_zero.mpr hnone, count_eq_zero.mpr hareas',
    count_eq_zero.mpr hbarrier]

theorem exists_turn_manageStart (h : b.manageStart = .ok b') :
    b'.policyEvents = [] ∧ ∃ turn, .policyTurn turn ∈ b'.publicEvents ∧
      ∀ bid, turn.events.count (.windowClosed bid) = b.policyEvents.count (.windowClosed bid) := by
  obtain ⟨c, hcompletes, hfinish⟩ := exists_manageStart h
  obtain ⟨_, _, _, id, events, -, hevents, rfl⟩ := exists_finishPolicyTurn hfinish
  refine ⟨rfl, ⟨id, c.drainTicket, events⟩, by simp, fun bid => ?_⟩
  rw [← (rests_completes hcompletes).policyEvents]
  exact hevents.count_windowClosed bid

/-! ## A manage sequence and the facts before it -/

/-- The backend on another transport, with facts retained before its own. -/
def withFacts (t : Transport) (facts : List BackendPolicyEvent) (b : RiverBackend) :
    RiverBackend :=
  { b with transport := t, policyEvents := facts ++ b.policyEvents }

/-- An outcome without the facts, and the same outcome with them. -/
structure Appended (t : Transport) (facts : List BackendPolicyEvent)
    (r r' : RiverOutcome RiverBackend) : Prop where
  eq_ok : ∀ c, r' = .ok c ↔ ∃ d, r = .ok d ∧ c = d.withFacts t facts

theorem Appended.ok (h : c = d.withFacts t facts) : Appended t facts (.ok d) (.ok c) := by
  refine ⟨fun e => ?_⟩
  simp [h, eq_comm]

theorem Appended.error (e e' : BackendError × RiverBackend) :
    Appended t facts (.error e) (.error e') :=
  ⟨fun _ => by simp⟩

theorem Appended.bind {r r' : RiverOutcome RiverBackend}
    {f : RiverBackend → RiverOutcome RiverBackend} (h : Appended t facts r r')
    (hf : ∀ d, Appended t facts (f d) (f (d.withFacts t facts))) :
    Appended t facts (r >>= f) (r' >>= f) := by
  refine ⟨fun c => ?_⟩
  simp only [bind_eq_ok, h.eq_ok]
  constructor
  · rintro ⟨_, ⟨d, hd, rfl⟩, hc⟩
    obtain ⟨e, he, rfl⟩ := ((hf d).eq_ok c).mp hc
    exact ⟨e, ⟨d, hd, he⟩, rfl⟩
  · rintro ⟨e, ⟨d, hd, he⟩, rfl⟩
    exact ⟨_, ⟨d, hd, rfl⟩, ((hf d).eq_ok _).mpr ⟨e, he, rfl⟩⟩

theorem appended_reportOpened (entries : List (ObjectId × Window)) (b : RiverBackend) :
    Appended t facts (entries.foldlM reportOpened b)
      (entries.foldlM reportOpened (b.withFacts t facts)) := by
  induction entries generalizing b with
  | nil => exact .ok rfl
  | cons entry entries ih =>
    simp only [foldlM_cons]
    refine .bind ?_ ih
    unfold reportOpened
    split
    · exact .error _ _
    · exact .ok (by simp [withFacts, retain])

theorem Appended.ite {p : Prop} [Decidable p] {r r' q q' : RiverOutcome RiverBackend}
    (h : Appended t facts r r') (h' : Appended t facts q q') :
    Appended t facts (if p then r else q) (if p then r' else q') := by
  split <;> assumption

theorem appended_selectOutput (b : RiverBackend) :
    Appended t facts b.selectOutput (b.withFacts t facts).selectOutput := by
  refine .ite (.ok rfl) (.ite (.ok rfl) ?_)
  have houtputs : (b.withFacts t facts).outputs = b.outputs := rfl
  have hselected : (b.withFacts t facts).chooseOutput (b.withFacts t facts).selectedOutputLost =
    b.chooseOutput b.selectedOutputLost := rfl
  rw [houtputs, hselected]
  cases (b.chooseOutput b.selectedOutputLost).bind b.outputs.lookup with
  | none => exact .ok rfl
  | some output =>
    rcases output with ⟨_, _, _ | ⟨x, y⟩, _ | ⟨w, h⟩, _ | tiles⟩
    case some.some.some => exact .ok (by simp [withFacts, retain])
    all_goals exact .error _ _

theorem appended_checkSelection (b : RiverBackend) :
    Appended t facts b.checkSelection (b.withFacts t facts).checkSelection := by
  simp only [checkSelection, withFacts]
  split
  · split
    · exact .ok rfl
    · exact .ite (.error _ _) (.ok rfl)
  · exact .ok rfl

theorem markReplay_withFacts (t : Transport) (facts : List BackendPolicyEvent) (b : RiverBackend) :
    (b.withFacts t facts).markReplay = b.markReplay.withFacts t facts := by
  simp [markReplay_eq, withFacts]

/-- What a manage sequence does before its turn is emitted. -/
def prepareTurn (b : RiverBackend) : RiverOutcome RiverBackend := do
  let b ← b.pendingOpens.foldlM reportOpened b
  let b ← b.selectOutput
  let b ← b.checkSelection
  return b.markReplay

theorem appended_prepareTurn (b : RiverBackend) :
    Appended t facts b.prepareTurn (b.withFacts t facts).prepareTurn :=
  (appended_reportOpened _ b).bind fun d => (appended_selectOutput d).bind fun d =>
    (appended_checkSelection d).bind fun d => .ok (markReplay_withFacts t facts d)

theorem replay_of_prepareTurn (h : b.prepareTurn = .ok b') : b'.replay = b.replay := by
  obtain ⟨c, hreport, h⟩ := bind_eq_ok.mp h
  obtain ⟨d, hselect, h⟩ := bind_eq_ok.mp h
  obtain ⟨e, hcheck, h⟩ := bind_eq_ok.mp h
  obtain ⟨_, -, rfl⟩ := exists_reportOpened hreport
  obtain ⟨_, _, _, -, rfl⟩ := exists_selectOutput hselect
  obtain ⟨_, rfl⟩ := exists_checkSelection hcheck
  cases h
  rw [markReplay_eq]

theorem finishPolicyTurn_eq_ok : b.finishPolicyTurn = .ok c ↔
    ∃ d, b.prepareTurn = .ok d ∧ d.Within ∧ d.emitTurn = .ok c := by
  simp only [finishPolicyTurn, prepareTurn, bind_eq_ok, validatePolicyCapacity_eq_ok, pure_eq_ok]
  grind

theorem exists_emitTurn_withFacts :
    (∃ c, (b.withFacts t facts).emitTurn = .ok c) ↔ ∃ c, b.emitTurn = .ok c := by
  by_cases hlast : b.nextTurn = u64Max
  · simp [emitTurn, withFacts, fail, hlast]
  · cases hid : (NonZeroId.new (b.nextTurn + 1) : Option BackendPolicyTurnId) <;>
      simp [emitTurn, withFacts, fail, hlast, hid]

theorem Within.of_withFacts (h : (b.withFacts t facts).Within) : b.Within := by
  obtain ⟨hlength, htext⟩ := h
  simp only [withFacts, length_append, map_append, sum_append] at hlength htext
  exact ⟨(Nat.le_add_left _ _).trans hlength, (Nat.le_add_left _ _).trans htext⟩

/-- The facts retained before matter to a turn only through the limits. -/
theorem exists_finishPolicyTurn_withFacts : (∃ c, (b.withFacts t facts).finishPolicyTurn = .ok c) ↔
    ∃ c turn, b.finishPolicyTurn = .ok c ∧ c.publicEvents.getLast? = some (.policyTurn turn) ∧
      { b with policyEvents := facts ++ turn.events }.Within := by
  simp only [finishPolicyTurn_eq_ok, (appended_prepareTurn b).eq_ok]
  constructor
  · rintro ⟨c, _, ⟨d, hd, rfl⟩, hwithin, hemit⟩
    obtain ⟨e, he⟩ := exists_emitTurn_withFacts.mp ⟨c, hemit⟩
    obtain ⟨id, -, heq⟩ := exists_emitTurn he
    refine ⟨e, ⟨id, d.drainTicket, d.policyEvents⟩, ⟨d, hd, hwithin.of_withFacts, he⟩, ?_, ?_⟩
    · rw [heq]
      exact getLast?_concat
    · simpa [Within, withFacts, replay_of_prepareTurn hd] using hwithin
  · rintro ⟨c, turn, ⟨d, hd, -, hemit⟩, hlast, hwithin⟩
    obtain ⟨e, he⟩ := exists_emitTurn_withFacts.mpr ⟨c, hemit⟩
    refine ⟨e, _, ⟨d, hd, rfl⟩, ?_, he⟩
    obtain ⟨id, -, rfl⟩ := exists_emitTurn hemit
    rw [getLast?_concat] at hlast
    cases hlast
    simpa [Within, withFacts, replay_of_prepareTurn hd] using hwithin

/-- A manage sequence would be answered without retained facts, and those fit into its turn. -/
def Manages (b : RiverBackend) : Prop :=
  ∃ c turn, { b with policyEvents := [] }.manageStart = .ok c ∧
    c.publicEvents.getLast? = some (.policyTurn turn) ∧
    { b with policyEvents := b.policyEvents ++ turn.events }.Within

theorem exists_manageStart_iff (t : Transport) :
    (∃ c, { b with transport := t }.manageStart = .ok c) ↔ b.Manages := by
  have hfacts (c : RiverBackend) : ({ c with policyEvents := [] } : RiverBackend).withFacts t
      c.policyEvents = { c with transport := t } := by
    simp [withFacts]
  have hfinish (c : RiverBackend) : (∃ d, { c with transport := t }.finishPolicyTurn = .ok d) ↔ _ :=
    hfacts c ▸ exists_finishPolicyTurn_withFacts
  simp only [Manages, manageStart]
  cases hpending : b.pendingResponse with
  | none => exact hfinish { b with turnRequested := false, pendingResponse := none }
  | some pending =>
    dsimp only
    split_ifs
    · simp [fail]
    · exact hfinish { b with
        turnRequested := false
        pendingResponse := none
        lastProjection := pending.response.projection.or b.lastProjection
        deferredCorrections := pending.corrections
        publicEvents := b.publicEvents ++ [.operationCompleted pending.ticket (.ok ())]
        drainTicket := some pending.ticket }
    · exact hfinish { b with turnRequested := false, pendingResponse := some pending }

/-! ## Windows that change their own size -/

/-- The turn has room for one more fact. -/
def Room (b : RiverBackend) (fact : BackendPolicyEvent) : Prop :=
  b.policyEvents.length < (if b.replay then maxReplayPolicyEvents else maxPolicyEvents) ∧
    (b.policyEvents.map eventTextBytes).sum + eventTextBytes fact ≤ maxPolicyTextBytes

/-- An event of a standalone render sequence: a window reports its own size, or the
windows are rendered. -/
def Standalone (b : RiverBackend) : Incoming → Prop
  | .windowDimensions id width height => 0 < width ∧ 0 < height ∧ id ∈ b.windows
  | .renderStart => True
  | _ => False

/-- What such an event needs: room for the drift it reports, and bound windows to render. -/
def Sustained (b : RiverBackend) : Incoming → Prop
  | .renderStart => ∀ p ∈ b.lastProjection.getD [], p.win ∈ b.realmIds
  | event => ∀ fact, b.factOf event = some fact → b.Room fact

/-- Each event of a row finds what it needs. -/
def Sustains : RiverBackend → List Incoming → Prop
  | _, [] => True
  | b, event :: events =>
    b.Sustained event ∧ ∀ b', b.applyRuntimeEvent event = .ok b' → Sustains b' events

/-- The backend between two manage sequences, with no response under way. -/
structure Resting (b : RiverBackend) : Prop where
  sound : b.Sound
  exitStarted : b.exitStarted = false
  pendingResponse : b.pendingResponse = none

theorem within_append (hb : b.Within) {fact : Option BackendPolicyEvent}
    (hpolicy : b'.policyEvents = b.policyEvents ++ fact.toList) (hreplay : b'.replay = b.replay) :
    b'.Within ↔ ∀ f, fact = some f → b.Room f := by
  rw [Within, hpolicy, hreplay]
  cases fact with
  | none => simpa [Within] using hb
  | some =>
    simp only [Room, toList_some, length_append, length_singleton,
      map_append, map_singleton, sum_append, sum_singleton,
      Option.some.injEq, forall_eq', Nat.lt_iff_add_one_le]

/-- What is applied counts exactly when its fact finds room. -/
theorem exists_applyRuntimeEvent_of_applyEvent (hb : b.Within) (hrender : event ≠ .renderStart)
    (hmanage : event ≠ .manageStart) (h : b.applyEvent event = .ok c) :
    (∃ b', b.applyRuntimeEvent event = .ok b') ↔
      ∀ fact, b.factOf event = some fact → b.Room fact := by
  have happlied := applied_applyEvent hmanage h
  have hexchange := happlied.exchange
  simp only [exchange, Exchange.mk.injEq] at hexchange
  rw [applyRuntimeEvent, if_neg hrender, h]
  change (∃ b', c.validatePolicyCapacity = .ok b') ↔ _
  simp only [validatePolicyCapacity_eq_ok, exists_eq_left]
  exact within_append hb happlied.policyEvents hexchange.2.2.1

theorem exists_windowClosed_eq_ok {id : ObjectId} {w : Window} (hw : b.windows.lookup id = some w) :
    ∃ b', b.windowClosed id = .ok b' := by
  rw [windowClosed, hw]
  exact ⟨_, rfl⟩

theorem exists_windowDimensions {id : ObjectId} {width height : ℤ} (hwidth : 0 < width)
    (hheight : 0 < height) (hid : id ∈ b.windows) :
    ∃ b', b.windowDimensions id width height = .ok b' := by
  obtain ⟨w, hw⟩ := isSome_iff_exists.mp (AList.lookup_isSome.mpr hid)
  unfold windowDimensions
  rw [if_neg (by omega), hw]
  simp only
  split <;> exact ⟨_, rfl⟩

/-- An event of a standalone render sequence is applied exactly when it is sustained. -/
theorem exists_applyRuntimeEvent_iff (hb : b.Resting) (h : b.Standalone event) :
    (∃ b', b.applyRuntimeEvent event = .ok b') ↔ b.Sustained event := by
  cases event with
  | renderStart =>
    rw [applyRuntimeEvent, if_pos rfl,
      exists_renderStart_eq_ok hb.sound (by simp [hb.pendingResponse])]
    simp [projectionInForce, hb.pendingResponse, Sustained]
  | windowDimensions id width height =>
    obtain ⟨c, hc⟩ := exists_windowDimensions h.1 h.2.1 h.2.2
    exact exists_applyRuntimeEvent_of_applyEvent hb.sound.within (by simp) (by simp) hc
  | _ => exact h.elim

/-- An event of such a row leaves what the rest of the row is measured by. -/
structure Continues (b b' : RiverBackend) (event : Incoming) : Prop extends Resting b' where
  standalone : ∀ e, b.Standalone e → b'.Standalone e
  policyEvents : b'.policyEvents = b.policyEvents ++ (b.factOf event).toList
  replay : b'.replay = b.replay
  realmIds : b'.realmIds = b.realmIds
  lastProjection : b'.lastProjection = b.lastProjection

theorem continues_applyRuntimeEvent (hb : b.Resting) (h : b.Standalone event)
    (happly : b.applyRuntimeEvent event = .ok b') : Continues b b' event := by
  have hfresh : b.Fresh event := by
    rintro id rfl
    exact h.elim
  have hsound := hb.sound.of_applyRuntimeEvent hb.exitStarted hfresh happly
  have hstandalone (hsame : SameBindings b b') (e : Incoming) (he : b.Standalone e) :
      b'.Standalone e := by
    cases e with
    | windowDimensions id width height =>
      refine ⟨he.1, he.2.1, ?_⟩
      rw [← AList.lookup_isSome, ← isSome_map (f := Window.binding), hsame.windows id, isSome_map]
      exact AList.lookup_isSome.mpr he.2.2
    | renderStart => trivial
    | _ => exact he.elim
  cases event with
  | renderStart =>
    rw [applyRuntimeEvent, if_pos rfl] at happly
    obtain ⟨pending, hrendered, hpaint⟩ := exists_renderStart happly
    rw [hb.pendingResponse] at hrendered
    cases hrendered
    obtain ⟨hwindows, hids, hrealm, hobjects⟩ := hpaint.sameBindings
    obtain ⟨⟨_, _, _, _, _, _, _, rfl⟩, -, -, -⟩ := hpaint
    exact ⟨⟨hsound, hb.exitStarted, rfl⟩, hstandalone ⟨hwindows, hids, hrealm, hobjects⟩,
      (append_nil _).symm, rfl, rfl, rfl⟩
  | windowDimensions id width height =>
    rcases applyRuntimeEvent_cases happly with ⟨h, -⟩ | ⟨h, -⟩ | ⟨-, hmanage, hevent, -⟩
    · cases h
    · cases h
    have huntied := untied_windowDimensions
      (show b.windowDimensions id width height = .ok b' from hevent)
    have hexchange := huntied.exchange
    simp only [exchange, Exchange.mk.injEq] at hexchange
    exact ⟨⟨hsound, by simp [hexchange, hb.exitStarted], by simp [hexchange, hb.pendingResponse]⟩,
      hstandalone huntied.toSameBindings, huntied.policyEvents, by simp [hexchange],
      huntied.realmIds, by simp [hexchange]⟩
  | _ => exact h.elim

/-- A row of standalone render sequences is answered exactly as long as the facts fit
and the windows are bound. -/
theorem exists_foldlM_iff_sustains {events : List Incoming} (hb : b.Resting)
    (hevents : ∀ event ∈ events, b.Standalone event) :
    (∃ b', events.foldlM applyRuntimeEvent b = .ok b') ↔ b.Sustains events := by
  induction events generalizing b with
  | nil => simp [Sustains, pure, Except.pure]
  | cons event events ih =>
    obtain ⟨hevent, hrow⟩ := forall_mem_cons.mp hevents
    rw [Sustains, ← exists_applyRuntimeEvent_iff hb hevent]
    simp only [foldlM_cons, bind_eq_ok]
    have hrest {c : RiverBackend} (hc : b.applyRuntimeEvent event = .ok c) :
        (∃ b', events.foldlM applyRuntimeEvent c = .ok b') ↔ c.Sustains events :=
      have hcontinues := continues_applyRuntimeEvent hb hevent hc
      ih hcontinues.toResting fun e he => hcontinues.standalone e (hrow e he)
    constructor
    · rintro ⟨b', c, hc, hfold⟩
      refine ⟨⟨c, hc⟩, fun c' hc' => ?_⟩
      cases hc.symm.trans hc'
      exact (hrest hc).mp ⟨b', hfold⟩
    · rintro ⟨⟨c, hc⟩, hall⟩
      obtain ⟨b', hfold⟩ := (hrest hc).mpr (hall c hc)
      exact ⟨b', c, hc, hfold⟩

/-! ## The sizes of a row -/

/-- A window whose changes of size are retained, under its name, and its size. -/
def Settled (b : RiverBackend) (id : ObjectId) (bid : BackendWindowId) (size : Option (ℤ × ℤ)) :
    Prop :=
  ∃ w, b.windows.lookup id = some w ∧ w.backendId = some bid ∧ w.dimensions = size ∧
    w.pendingOpen = false ∧ w.awaitingDimensions = false ∧ w.fullscreen = false ∧
    w.position ≠ none

section Settled

variable {id id' : ObjectId} {size : Option (ℤ × ℤ)} {width height : ℤ}

theorem Settled.renderPlacement {allowCorrection raise : Bool} {p : Placement}
    {state state' : RiverBackend × CorrectionMap} (h : state.1.Settled id bid size)
    (hrender : renderPlacement allowCorrection raise state p = .ok state') :
    state'.1.Settled id bid size := by
  obtain ⟨⟨id', w'⟩, hplaced, heq⟩ := bind_eq_ok.mp hrender
  cases heq
  dsimp only
  generalize hrendered : renderWindow id' allowCorrection raise p w' = rendered
  obtain ⟨_, -, hsent⟩ := exists_sendAll
    { state.1 with windows := state.1.windows.insert id' rendered.1 } rendered.2.1
  rw [hsent]
  obtain ⟨w, hw, hbid, hsize, hopen, hawaiting, hfullscreen, hposition⟩ := h
  by_cases hid : id = id'
  · subst id'
    obtain rfl := Option.some.inj (hw.symm.trans (placed_eq_ok hplaced).2)
    refine ⟨rendered.1, AList.lookup_insert _, ?_⟩
    subst hrendered
    simp only [renderWindow, hfullscreen, Bool.false_eq_true, if_false]
    exact ⟨hbid, hsize, hopen, hawaiting, trivial, some_ne_none _⟩
  · refine ⟨w, ?_, hbid, hsize, hopen, hawaiting, hfullscreen, hposition⟩
    rw [Map.lookup_insert_eq, if_neg hid, hw]

theorem Settled.hideUnplaced (h : b.Settled id bid size) (visible : List WinId) :
    (b.hideUnplaced visible).Settled id bid size := by
  unfold RiverBackend.hideUnplaced
  dsimp only
  generalize List.filterMap _ _ = hides
  obtain ⟨t, -, heq⟩ := b.exists_sendAll hides
  rw [heq]
  obtain ⟨w, hw, hrest⟩ := h
  simp only [Settled, Map.lookup_mapValues, hw, map_some, some.injEq, exists_eq_left']
  split <;> exact hrest

theorem Settled.renderStart (h : b.Settled id bid size) (hpending : b.pendingResponse = none)
    (hrender : b.renderStart = .ok b') : b'.Settled id bid size := by
  simp only [RiverBackend.renderStart, hpending, bind_eq_ok] at hrender
  obtain ⟨⟨c, corrections⟩, hrender, d, hfinish, hvalid⟩ := hrender
  obtain ⟨rfl, -⟩ := validatePolicyCapacity_eq_ok.mp hvalid
  obtain rfl := exists_renderFinish hfinish
  unfold applyRenderResponse at hrender
  split at hrender
  · cases hrender
    exact h
  · exact foldlM_rel (R := fun s s' => s.1.Settled id bid size → s'.1.Settled id bid size)
      (fun _ h => h) (fun h h' hs => h' (h hs)) (fun h hs => hs.renderPlacement h) hrender
      (h.hideUnplaced _)

theorem Settled.windowDimensions (h : b.Settled id bid size)
    (happly : b.windowDimensions id' width height = .ok b') :
    b'.Settled id bid (if id = id' then some (width, height) else size) := by
  obtain ⟨w, hw, hbid, hsize, hopen, hawaiting, hfullscreen, hposition⟩ := h
  unfold RiverBackend.windowDimensions at happly
  split at happly
  · cases happly
  split at happly
  · cases happly
  rename_i w' hw'
  -- both branches keep a record with the new size
  have hrecord : ∃ r, (b'.windows = b.windows.insert id' r) ∧ r.dimensions = some (width, height) ∧
      r.awaitingDimensions = false ∧ (r.backendId, r.pendingOpen, r.fullscreen, r.position) =
        (w'.backendId, w'.pendingOpen, w'.fullscreen, w'.position) := by
    dsimp only at happly
    split at happly <;> cases happly <;> exact ⟨_, rfl, rfl, rfl, rfl⟩
  obtain ⟨r, hwindows, hdimensions, hawaits, hkept⟩ := hrecord
  rw [Settled, hwindows]
  by_cases hid : id = id'
  · subst id'
    cases hw.symm.trans hw'
    simp only [Prod.mk.injEq] at hkept
    obtain ⟨h₁, h₂, h₃, h₄⟩ := hkept
    exact ⟨r, AList.lookup_insert _, h₁ ▸ hbid, by rw [if_pos rfl, hdimensions], h₂ ▸ hopen,
      hawaits, h₃ ▸ hfullscreen, h₄ ▸ hposition⟩
  · refine ⟨w, ?_, hbid, by rw [if_neg hid, hsize], hopen, hawaiting, hfullscreen, hposition⟩
    rw [Map.lookup_insert_eq, if_neg hid, hw]

theorem Settled.factOf (h : b.Settled id bid size) (hpending : b.pendingResponse = none)
    (width height : ℤ) :
    ∃ rect, b.factOf (.windowDimensions id width height) =
      if size = some (width, height) then none else some (.geometryDrifted bid rect) := by
  obtain ⟨w, hw, hbid, rfl, hopen, hawaiting, hfullscreen, hposition⟩ := h
  obtain ⟨⟨x, y⟩, hposition⟩ := ne_none_iff_exists'.mp hposition
  refine ⟨⟨x, y, width, height⟩, ?_⟩
  simp only [RiverBackend.factOf, hw, bind_some, drifts, hbid, hposition, hopen, hawaiting,
    hfullscreen, hpending]
  by_cases hsame : w.dimensions = some (width, height) <;> simp [hsame]

end Settled

/-- The sizes after an event, and the window that it gives another size. -/
def resized (size : ObjectId → Option (ℤ × ℤ)) : Incoming → ObjectId → Option (ℤ × ℤ)
  | .windowDimensions id width height => Function.update size id (some (width, height))
  | _ => size

def change (size : ObjectId → Option (ℤ × ℤ)) : Incoming → List ObjectId
  | .windowDimensions id width height => if size id = some (width, height) then [] else [id]
  | _ => []

/-- The windows that change their size, in the order of the row. -/
def changes : (ObjectId → Option (ℤ × ℤ)) → List Incoming → List ObjectId
  | _, [] => []
  | size, event :: events => change size event ++ changes (resized size event) events

/-- The facts retained so far and the changes of a row are within the limits. -/
def Holds (b : RiverBackend) (name : ObjectId → BackendWindowId) (changed : List ObjectId) : Prop :=
  b.policyEvents.length + changed.length ≤
      (if b.replay then maxReplayPolicyEvents else maxPolicyEvents) ∧
    (b.policyEvents.map eventTextBytes).sum + (changed.map fun id => (name id).len).sum ≤
      maxPolicyTextBytes

/-- The window that an event gives a size is settled. -/
def Sizes (b : RiverBackend) (name : ObjectId → BackendWindowId)
    (size : ObjectId → Option (ℤ × ℤ)) : Incoming → Prop
  | .windowDimensions id _ _ => b.Settled id (name id) (size id)
  | _ => True

section Row

variable {name : ObjectId → BackendWindowId} {size : ObjectId → Option (ℤ × ℤ)}
  {changed : List ObjectId}

theorem Sizes.factOf (hb : b.Resting) (h : b.Standalone event) (hsizes : b.Sizes name size event) :
    ((b.factOf event).toList.map eventTextBytes) =
      (change size event).map fun id => (name id).len := by
  cases event with
  | renderStart => rfl
  | windowDimensions id width height =>
    obtain ⟨rect, hfact⟩ := Settled.factOf hsizes hb.pendingResponse width height
    rw [hfact, change]
    split <;> rfl
  | _ => exact h.elim

theorem Sizes.next (hb : b.Resting) (h : b.Standalone event)
    (happly : b.applyRuntimeEvent event = .ok c) {e : Incoming} (he : b.Sizes name size e) :
    c.Sizes name (resized size event) e := by
  cases e with
  | windowDimensions id =>
    cases event with
    | renderStart =>
      rw [applyRuntimeEvent, if_pos rfl] at happly
      exact Settled.renderStart he hb.pendingResponse happly
    | windowDimensions id' width height =>
      rcases applyRuntimeEvent_cases happly with ⟨h, -⟩ | ⟨h, -⟩ | ⟨-, -, hevent, -⟩
      · cases h
      · cases h
      · have hsettled := Settled.windowDimensions he hevent
        rwa [← Function.update_apply] at hsettled
    | _ => exact h.elim
  | _ => trivial

theorem Continues.holds_iff (hb : b.Resting) (h : b.Standalone event)
    (hsizes : b.Sizes name size event) (hnext : Continues b c event) :
    c.Holds name changed ↔ b.Holds name (change size event ++ changed) := by
  have hfact := hsizes.factOf hb h
  have hlength := congrArg List.length hfact
  simp only [length_map] at hlength
  simp only [Holds, hnext.policyEvents, hnext.replay, length_append, map_append, sum_append,
    hfact, hlength, Nat.add_assoc]

theorem sustained_iff (hb : b.Resting) (h : b.Standalone event)
    (hsizes : b.Sizes name size event) : b.Sustained event ↔ b.Holds name (change size event) ∧
      (event = .renderStart → ∀ p ∈ b.lastProjection.getD [], p.win ∈ b.realmIds) := by
  have hwithin : b.Holds name [] := hb.sound.within
  cases event with
  | renderStart => simp [Sustained, change, hwithin]
  | windowDimensions id width height =>
    obtain ⟨rect, hfact⟩ := Settled.factOf hsizes hb.pendingResponse width height
    simp only [Sustained, hfact, change]
    split
    · simp [hwithin]
    · simp only [Room, Holds, eventTextBytes, Option.some.injEq, forall_eq', length_singleton,
        map_singleton, sum_singleton, Nat.lt_iff_add_one_le, reduceCtorEq, false_implies, and_true]
  | _ => exact h.elim

/-- The condition on a row in closed form: the facts retained before it and the changes of
size in it are within the limits, and the windows are bound if it renders them. -/
theorem sustains_iff {events : List Incoming} (hb : b.Resting)
    (hevents : ∀ event ∈ events, b.Standalone event ∧ b.Sizes name size event) :
    b.Sustains events ↔ b.Holds name (changes size events) ∧
      (.renderStart ∈ events → ∀ p ∈ b.lastProjection.getD [], p.win ∈ b.realmIds) := by
  induction events generalizing b size with
  | nil => exact iff_of_true trivial ⟨hb.sound.within, by simp⟩
  | cons event events ih =>
    obtain ⟨⟨hevent, hsizes⟩, hrow⟩ := forall_mem_cons.mp hevents
    have hrest {c : RiverBackend} (hc : b.applyRuntimeEvent event = .ok c) :
        c.Sustains events ↔ b.Holds name (changes size (event :: events)) ∧
          (.renderStart ∈ events → ∀ p ∈ b.lastProjection.getD [], p.win ∈ b.realmIds) := by
      have hnext := continues_applyRuntimeEvent hb hevent hc
      rw [ih hnext.toResting fun e he => ⟨hnext.standalone e (hrow e he).1,
        (hrow e he).2.next hb hevent hc⟩, hnext.holds_iff hb hevent hsizes, hnext.realmIds,
        hnext.lastProjection, changes]
    rw [Sustains]
    constructor
    · rintro ⟨hsustained, hall⟩
      obtain ⟨c, hc⟩ := (exists_applyRuntimeEvent_iff hb hevent).mpr hsustained
      obtain ⟨hholds, hbound⟩ := (hrest hc).mp (hall c hc)
      have hfirst := ((sustained_iff hb hevent hsizes).mp hsustained).2
      exact ⟨hholds, fun h => (mem_cons.mp h).elim (fun h => hfirst h.symm) hbound⟩
    · rintro ⟨hholds, hbound⟩
      refine ⟨(sustained_iff hb hevent hsizes).mpr ⟨?_, fun h => hbound (h ▸ mem_cons_self)⟩,
        fun c hc => (hrest hc).mpr ⟨hholds, fun h => hbound (mem_cons_of_mem _ h)⟩⟩
      simp only [Holds, changes, length_append, map_append, sum_append] at hholds ⊢
      omega

end Row

end RiverBackend

end Realm
