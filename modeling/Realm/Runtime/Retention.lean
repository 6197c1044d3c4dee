import Realm.River.Retention
import Realm.Runtime.System

/-!
# Facts between two manage sequences

What the system does with windows that close, and with windows that change their
own size, while no manage sequence comes.
-/

namespace Realm

open River RiverBackend List Option

namespace System

variable {s s' : System} {b : RiverBackend} {input : Input}

theorem retains_quiet {allowed : Incoming → Prop} {b' : RiverBackend} (h : b.Moves allowed b')
    (hnone : ∀ event, ¬ allowed event) : b.Retains b' none := by
  induction h with
  | refl => exact ⟨(append_nil _).symm, rfl, rfl⟩
  | @tail c d label _ hmove hallowed ih =>
    have hlabel : label = none := by
      cases label with
      | none => rfl
      | some event => exact absurd (hallowed event rfl) (hnone event)
    obtain ⟨hfacts, hopened, hreplay⟩ := retains_of_move hmove hlabel
    exact ⟨by simpa using hfacts.trans (congrArg (· ++ []) ih.policyEvents),
      hopened.trans ih.openedIds, hreplay.trans ih.replay⟩

/-- River names a window before it is reported and not again. -/
def NamesOnce (s : System) (input : Input) : Prop :=
  ∀ event, s.delivered input = some event → s.backend.NamesNew event

theorem retains_of_step (hs : s.backend.Sound) (hnames : s.NamesOnce input)
    (hmanage : s.delivered input ≠ some .manageStart) (h : s.step input = some s') :
    s.backend.Retains s'.backend ((s.delivered input).bind s.backend.factOf) := by
  cases hdelivered : s.delivered input with
  | none =>
    refine retains_quiet (moves_of_step h) fun event hevent => ?_
    exact absurd (hdelivered.symm.trans hevent) (by simp)
  | some event =>
    obtain ⟨hidle, t, b, ht, happly, rfl⟩ := exists_applied hdelivered h
    obtain ⟨hfacts, hopened, hreplay⟩ := retains_of_applyRuntimeEvent
      (hs.of_transport ht.reads.objects).linked (hs.fresh_of_dispatches ht)
      (hnames event hdelivered) (fun heq => hmanage (by rw [hdelivered, heq])) happly
    rw [factOf_transport] at hfacts hopened
    exact ⟨hfacts, hopened, hreplay⟩

/-! ## Windows that close -/

theorem exists_turn_of_step (hmanage : s.delivered input = some .manageStart)
    (h : s.step input = some s') : s'.backend.policyEvents = [] ∧
      ∃ turn, .policyTurn turn ∈ s'.backend.publicEvents ∧ ∀ bid,
        turn.events.count (.windowClosed bid) =
          s.backend.policyEvents.count (.windowClosed bid) := by
  obtain ⟨-, t, b, -, happly, rfl⟩ := exists_applied hmanage h
  rcases applyRuntimeEvent_cases happly with ⟨heq, -⟩ | ⟨-, h⟩ | ⟨-, hne, -⟩
  · cases heq
  · obtain ⟨hempty, turn, hturn, hcount⟩ := exists_turn_manageStart h
    exact ⟨hempty, turn, hturn, hcount⟩
  · exact absurd rfl hne

theorem closedOnce_of_reachable (bid : BackendWindowId) (h : ReachableWhere NamesOnce s) :
    s.backend.ClosedOnce bid := by
  refine (h.invariant (I := fun s => s.backend.ClosedOnce bid) ?_ ?_).2
  · intro handshake snapshot keymap s hconnect
    obtain ⟨c, specs, hc, hspecs, -⟩ := exists_connect hconnect
    obtain ⟨-, -, d, ⟨⟨_, _, _, _, _, _, _, _, _, _, _, rfl⟩, -⟩, heq⟩ :=
      exists_connected hc hspecs
    rw [heq]
    simp [RiverBackend.ClosedOnce, fromConnection]
  · intro s input s' hreach hs hnames hstep
    by_cases hmanage : s.delivered input = some .manageStart
    · have hempty := (exists_turn_of_step hmanage hstep).1
      simp [RiverBackend.ClosedOnce, hempty]
    · exact hs.of_retains (retains_of_step hreach.sound hnames hmanage hstep)

/-- A step of River that names windows once and starts no manage sequence. -/
def BetweenSequences (s : System) (input : Input) : Prop :=
  s.NamesOnce input ∧ s.delivered input ≠ some .manageStart

theorem mem_policyEvents_of_run {s' : System} {fact : BackendPolicyEvent}
    (hs : Reachable s) (hmem : fact ∈ s.backend.policyEvents)
    (h : RunWhere BetweenSequences s s') : Reachable s' ∧ fact ∈ s'.backend.policyEvents := by
  induction h with
  | refl => exact ⟨hs, hmem⟩
  | tail _ hlast ih =>
    obtain ⟨input, ⟨hnames, hmanage⟩, hstep⟩ := hlast
    refine ⟨ih.1.step input hstep, ?_⟩
    rw [(retains_of_step ih.1.sound hnames hmanage hstep).policyEvents]
    exact mem_append_left _ ih.2

section Answered

variable {ready : BackendReady} {now : ℕ}

theorem isSome_step_of_delivered {event : Incoming}
    (h : s.delivered (.service ready now) = some event) :
    ∃ t, s.backend.transport.Dispatches t event ∧ ((s.step (.service ready now)).isSome ↔
      ∃ b, { s.backend with transport := t }.applyRuntimeEvent event = .ok b) := by
  obtain ⟨-, t, ht, hstep⟩ := step_of_delivered h
  refine ⟨t, ht, ?_⟩
  rw [hstep, isSome_map]
  cases applyRuntimeEvent { s.backend with transport := t } event <;>
    simp [Except.toOption]

theorem isSome_step_renderStart (hs : Reachable s)
    (hrender : s.delivered (.service ready now) = some .renderStart)
    (hstage : ∀ pending, s.backend.pendingResponse = some pending →
      pending.stage ≠ .flushingRender) : (s.step (.service ready now)).isSome ↔
      ∀ p ∈ s.backend.projectionInForce.getD [], p.win ∈ s.backend.realmIds := by
  obtain ⟨t, ht, hstep⟩ := isSome_step_of_delivered hrender
  rw [hstep, applyRuntimeEvent, if_pos rfl]
  exact exists_renderStart_eq_ok (hs.sound.of_transport ht.reads.objects) hstage

theorem isSome_step_windowClosed (hs : Reachable s) {id : ObjectId} {bid : BackendWindowId}
    (hclose : s.delivered (.service ready now) = some (.windowClosed id))
    (hfact : s.backend.factOf (.windowClosed id) = some (.windowClosed bid)) :
    (s.step (.service ready now)).isSome ↔ s.backend.Room (.windowClosed bid) := by
  obtain ⟨t, ht, hstep⟩ := isSome_step_of_delivered hclose
  have hb := hs.sound.of_transport ht.reads.objects
  obtain ⟨w, hw, -⟩ := bind_eq_some_iff.mp hfact
  obtain ⟨c, hc⟩ := exists_windowClosed_eq_ok (b := { s.backend with transport := t }) hw
  have happly : applyEvent { s.backend with transport := t } (.windowClosed id) =
    .ok c := hc
  rw [hstep, exists_applyRuntimeEvent_of_applyEvent hb.within (by simp) (by simp) happly,
    factOf_transport]
  simp only [hfact, some.injEq, forall_eq']
  rfl

theorem isSome_step_manageStart
    (hmanage : s.delivered (.service ready now) = some .manageStart) :
    (s.step (.service ready now)).isSome ↔ s.backend.Manages := by
  obtain ⟨t, -, hstep⟩ := isSome_step_of_delivered hmanage
  rw [hstep, ← exists_manageStart_iff t, applyRuntimeEvent, if_neg (by simp)]
  simp only [Guard.bind_eq_ok, validatePolicyCapacity_eq_ok]
  constructor
  · rintro ⟨_, c, hc, -⟩
    exact ⟨c, hc⟩
  · rintro ⟨c, hc⟩
    refine ⟨c, c, hc, rfl, ?_⟩
    have hempty := (exists_turn_manageStart hc).1
    simp [Within, hempty]

end Answered

/-! ## Scenarios of one window -/

/-- A window opens and is placed over the whole tile area. -/
def opensWindow : List (Option Input) :=
  some (sends [
    .deliver (.client 4) (.windowCreated (.server 2)),
    .deliver (.server 2) (.windowIdentifier (.server 2) "w"),
    .deliver (.client 4) .manageStart,
    .deliver (.server 2) (.windowDimensions (.server 2) 1920 1048),
    .deliver (.client 4) .renderStart]) :: quanta 14

/-- The window goes with its orbit. -/
def hidesWindow : List (Option Input) :=
  opensWindow ++ [some (.owner (.ledgerAction (.switchOrbit 1)))] ++ quanta 2 ++
    some (sends [.deliver (.client 4) .manageStart, .deliver (.client 4) .renderStart]) :: quanta 10

/-- The window is about to close, before the windows are rendered and managed again. -/
def closesWindow (plan : List (Option Input)) : List (Option Input) :=
  plan ++ [
    some (sends [
      .deliver (.server 2) (.windowClosed (.server 2)),
      .deliver (.client 4) .renderStart,
      .deliver (.client 4) .manageStart]), none]

/-- The condition on names, as a scenario checks it. -/
def namesOnce (s : System) (input : Input) : Bool :=
  match s.delivered input with
  | some (.windowIdentifier id _) => (s.backend.windows.lookup id).all (·.pendingOpen)
  | _ => true

theorem namesOnce_of_eq_true (h : s.namesOnce input = true) : s.NamesOnce input := by
  rintro event hevent id identifier w rfl hw
  simpa [namesOnce, hevent, hw] using h

theorem betweenSequences_of_eq_true
    (h : (s.namesOnce input && decide (s.delivered input ≠ some .manageStart)) = true) :
    s.BetweenSequences input := by
  simp only [Bool.and_eq_true, decide_eq_true_eq] at h
  exact ⟨namesOnce_of_eq_true h.1, h.2⟩

/-- A system whose next quantum closes its only window. -/
structure Closing (s : System) (w : Window) (bid : BackendWindowId) (s₁ : System) : Prop where
  reachable : ReachableWhere NamesOnce s
  delivered : s.delivered (s.planned none) = some (.windowClosed (.server 2))
  lookup : s.backend.windows.lookup (.server 2) = some w
  reported : w.pendingOpen = false
  backendId : w.backendId = some bid
  assigned : w.assigned.isSome
  step : s.step (s.planned none) = some s₁

/-- The quanta after the closing come to an event between the sequences. -/
def comes (event : Incoming) (n : ℕ) (answered : Bool) (s : System) : Bool :=
  s.meets (fun s input => s.namesOnce input && decide (s.delivered input ≠ some .manageStart))
    (quanta n) &&
  (s.play (quanta n)).any fun s' => s'.backend.pendingResponse.isNone &&
    decide (s'.delivered (s'.planned none) = some event) &&
    decide ((s'.step (s'.planned none)).isSome = answered)

theorem exists_of_comes {event : Incoming} {n : ℕ} {answered : Bool}
    (h : s.comes event n answered = true) : ∃ s', RunWhere BetweenSequences s s' ∧
      s'.backend.pendingResponse = none ∧ s'.delivered (s'.planned none) = some event ∧
      (s'.step (s'.planned none)).isSome = answered := by
  simp only [comes, Bool.and_eq_true, Option.any_eq_true, decide_eq_true_eq,
    Option.isNone_iff_eq_none] at h
  obtain ⟨hmeets, s', hs', ⟨hpending, hdelivered⟩, hanswered⟩ := h
  exact ⟨s', (runWhere_play hmeets hs').mono fun _ _ => betweenSequences_of_eq_true, hpending,
    hdelivered, hanswered⟩

theorem exists_closing (plan : List (Option Input)) (check : System → Bool)
    (hmeets : ((plainStart []).all fun s =>
      s.meets namesOnce (goesLive ++ closesWindow plan)) = true)
    (h : (plainLive (closesWindow plan)).any (fun s =>
      decide (s.delivered (s.planned none) = some (.windowClosed (.server 2))) &&
      ((s.backend.windows.lookup (.server 2)).any fun w =>
        !w.pendingOpen && w.backendId.isSome && w.assigned.isSome) &&
      (s.step (s.planned none)).any check) = true) :
    ∃ s w bid s₁, Closing s w bid s₁ ∧ check s₁ = true := by
  obtain ⟨s, hs, hfacts⟩ := (Option.any_eq_true _ _).mp h
  have hreach := (reachableWhere_plainLive hmeets hs).mono fun _ _ => namesOnce_of_eq_true
  simp only [Option.any_eq_true, Bool.and_eq_true, decide_eq_true_eq, Bool.not_eq_true'] at hfacts
  obtain ⟨⟨hclose, w, hw, ⟨hreported, hbid⟩, hassigned⟩, s₁, hs₁, hcheck⟩ := hfacts
  obtain ⟨bid, hbid⟩ := Option.isSome_iff_exists.mp hbid
  exact ⟨s, w, bid, s₁, ⟨hreach, hclose, hw, hreported, hbid, hassigned, hs₁⟩, hcheck⟩

/-- A reported window closes exactly when its fact finds room.  Until the next manage sequence a
render sequence is answered exactly when the projection in force places no window that is bound
no more; that manage sequence is answered exactly when its turn can be made with the facts
retained, and the turn reports the closing once. -/
theorem render_after_close {s₀ : System} (h₀ : ReachableWhere NamesOnce s₀) {ready₀ : BackendReady}
    {now₀ : ℕ} {id : ObjectId} {w : Window} {bid : BackendWindowId}
    (hclose : s₀.delivered (.service ready₀ now₀) = some (.windowClosed id))
    (hw : s₀.backend.windows.lookup id = some w) (hreported : w.pendingOpen = false)
    (hbid : w.backendId = some bid) :
    ((s₀.step (.service ready₀ now₀)).isSome ↔ s₀.backend.Room (.windowClosed bid)) ∧
    ∀ s₁ s₂, s₀.step (.service ready₀ now₀) = some s₁ → RunWhere BetweenSequences s₁ s₂ →
      ∀ ready now,
      (s₂.delivered (.service ready now) = some .renderStart →
        (∀ pending, s₂.backend.pendingResponse = some pending → pending.stage ≠ .flushingRender) →
        ((s₂.step (.service ready now)).isSome ↔
          ∀ p ∈ s₂.backend.projectionInForce.getD [], p.win ∈ s₂.backend.realmIds)) ∧
      (s₂.delivered (.service ready now) = some .manageStart →
        ((s₂.step (.service ready now)).isSome ↔ s₂.backend.Manages) ∧
        ∀ s₃, s₂.step (.service ready now) = some s₃ →
          ∃ turn, .policyTurn turn ∈ s₃.backend.publicEvents ∧
            turn.events.count (.windowClosed bid) = 1) := by
  have hnames : s₀.NamesOnce (.service ready₀ now₀) := by
    intro event hevent id' identifier w' heq
    subst heq
    exact absurd (hclose.symm.trans hevent) (by simp)
  have hreach₀ := (h₀.invariant (I := fun _ => True) (fun _ => trivial) fun _ _ _ _ _ _ _ =>
    trivial).1
  have hfact : s₀.backend.factOf (.windowClosed id) = some (.windowClosed bid) := by
    simp [factOf, hw, hreported, hbid]
  refine ⟨isSome_step_windowClosed hreach₀ hclose hfact, ?_⟩
  intro s₁ s₂ hstep hrun ready now
  have hmem : .windowClosed bid ∈ s₁.backend.policyEvents := by
    rw [(retains_of_step hreach₀.sound hnames (by simp [hclose]) hstep).policyEvents, hclose,
      bind_some, hfact]
    simp
  obtain ⟨hreach₂, hmem₂⟩ := mem_policyEvents_of_run (hreach₀.step _ hstep) hmem hrun
  refine ⟨isSome_step_renderStart hreach₂, fun hmanage => ⟨isSome_step_manageStart hmanage, ?_⟩⟩
  intro s₃ hstep'
  obtain ⟨-, turn, hturn, hcount⟩ := exists_turn_of_step hmanage hstep'
  refine ⟨turn, hturn, ?_⟩
  have honce := closedOnce_of_reachable bid
    ((h₀.run (.single ⟨_, hnames, hstep⟩)).run (hrun.mono fun _ _ h => h.1))
  rw [hcount]
  exact le_antisymm honce.1 (count_pos_iff.mpr hmem₂)

/-- A hidden window closes; the windows are rendered, and the next turn reports it. -/
theorem render_after_close_hidden : ∃ (s₀ s₁ s₂ s₃ s₄ : System) (bid : BackendWindowId)
    (turn : BackendPolicyTurn), s₀.step (s₀.planned none) = some s₁ ∧
      s₀.backend.Room (.windowClosed bid) ∧ s₂.delivered (s₂.planned none) = some .renderStart ∧
      (∀ p ∈ s₂.backend.projectionInForce.getD [], p.win ∈ s₂.backend.realmIds) ∧
      s₃.step (s₃.planned none) = some s₄ ∧ s₃.backend.Manages ∧
      .policyTurn turn ∈ s₄.backend.publicEvents ∧ turn.events.count (.windowClosed bid) = 1 := by
  obtain ⟨s₀, w, bid, s₁, h, hcheck⟩ := exists_closing hidesWindow
    (fun s => s.comes .renderStart 1 true && s.comes .manageStart 3 true)
    (by decide +kernel) (by decide +kernel)
  rw [Bool.and_eq_true] at hcheck
  obtain ⟨s₂, hrun₂, hpending, hrender, hanswered⟩ := exists_of_comes hcheck.1
  obtain ⟨s₃, hrun₃, -, hmanage, hmanaged⟩ := exists_of_comes hcheck.2
  obtain ⟨s₄, hs₄⟩ := isSome_iff_exists.mp hmanaged
  obtain ⟨hroom, hafter⟩ :=
    render_after_close h.reachable h.delivered h.lookup h.reported h.backendId
  have hbound := (hafter s₁ s₂ h.step hrun₂ _ _).1 hrender (by simp [hpending])
  obtain ⟨hmanages, hturn⟩ := (hafter s₁ s₃ h.step hrun₃ _ _).2 hmanage
  obtain ⟨turn, hmem, hcount⟩ := hturn s₄ hs₄
  exact ⟨s₀, s₁, s₂, s₃, s₄, bid, turn, h.step, hroom.mp (by rw [← planned, h.step]; rfl), hrender,
    hbound.mp hanswered, hs₄, hmanages.mp hmanaged, hmem, hcount⟩

/-- A client closes its window, River renders, and the daemon stops. -/
theorem close_stops_daemon : ¬ ∀ (s₀ s₁ s₂ : System) (input : Input) (id : ObjectId) (w : Window)
    (win : WinId), ReachableWhere NamesOnce s₀ →
    s₀.delivered input = some (.windowClosed id) → s₀.backend.windows.lookup id = some w →
    w.assigned = some win → s₀.step input = some s₁ → RunWhere BetweenSequences s₁ s₂ →
    s₂.backend.pendingResponse = none → ∀ input', s₂.delivered input' = some .renderStart →
      (s₂.step input').isSome := by
  intro hall
  obtain ⟨s, w, bid, s₁, h, hcheck⟩ := exists_closing opensWindow
    (fun s => s.comes .renderStart 1 false) (by decide +kernel) (by decide +kernel)
  obtain ⟨s₂, hrun, hpending, hrender, hfails⟩ := exists_of_comes hcheck
  obtain ⟨win, hwin⟩ := isSome_iff_exists.mp h.assigned
  have hsome := hall s s₁ s₂ _ _ w win h.reachable h.delivered h.lookup hwin h.step hrun hpending
    _ hrender
  rw [hfails] at hsome
  cases hsome

/-! ## Windows that change their own size -/

/-- While no manage sequence comes, rows of standalone render sequences in which
windows change their own size are answered exactly as long as every change finds
room in the turn and every rendered window is bound. -/
theorem standalone_renders_iff (hs : Reachable s) (hexit : s.backend.exitStarted = false)
    (hpending : s.backend.pendingResponse = none) {events : List Incoming}
    (hevents : ∀ event ∈ events, s.backend.Standalone event) :
    (∃ b, events.foldlM RiverBackend.applyRuntimeEvent s.backend = .ok b) ↔
      s.backend.Sustains events :=
  exists_foldlM_iff_sustains ⟨hs.sound, hexit, hpending⟩ hevents

/-- A window alternates between two sizes, and is rendered after every change. -/
def alternates (n : ℕ) : List Incoming :=
  (List.range n).flatMap fun i =>
    [.windowDimensions (.server 2) (1000 + (i % 2 : ℕ)) 1000, .renderStart]

theorem standalone_alternates (h : .server 2 ∈ b.windows) (n : ℕ) :
    ∀ event ∈ alternates n, b.Standalone event := by
  intro event hevent
  obtain ⟨i, -, hi⟩ := mem_flatMap.mp hevent
  simp only [mem_cons, not_mem_nil, or_false] at hi
  rcases hi with rfl | rfl
  · exact ⟨by omega, by omega, h⟩
  · trivial

theorem not_sustains_alternates {bid : BackendWindowId} (hb : b.Resting)
    (hreplay : b.replay = false) (hsettled : b.Settled (.server 2) bid (some (1920, 1048)))
    (hevents : ∀ event ∈ alternates 257, b.Standalone event) : ¬ b.Sustains (alternates 257) := by
  have hsizes : ∀ event ∈ alternates 257, b.Standalone event ∧
      b.Sizes (fun _ => bid) (fun _ => some (1920, 1048)) event := by
    intro event hevent
    refine ⟨hevents event hevent, ?_⟩
    obtain ⟨i, -, hi⟩ := mem_flatMap.mp hevent
    simp only [mem_cons, not_mem_nil, or_false] at hi
    rcases hi with rfl | rfl
    · exact hsettled
    · trivial
  rw [sustains_iff hb hsizes]
  rintro ⟨⟨hlength, -⟩, -⟩
  have hchanges : (changes (fun _ => some (1920, 1048)) (alternates 257)).length = 257 := by
    decide +kernel
  rw [hchanges, hreplay] at hlength
  exact absurd ((Nat.le_add_left 257 _).trans hlength) (by decide)

theorem exists_placedWindow : ∃ s : System, Reachable s ∧ s.backend.Idle ∧
    s.backend.pendingResponse = none ∧ .server 2 ∈ s.backend.windows ∧
    (∃ b, (alternates 1).foldlM RiverBackend.applyRuntimeEvent s.backend = .ok b) ∧
    ¬ ∃ b, (alternates 257).foldlM RiverBackend.applyRuntimeEvent s.backend = .ok b := by
  have hsome : (plainLive opensWindow).isSome := by decide +kernel
  obtain ⟨s, hs⟩ := isSome_iff_exists.mp hsome
  have hfacts : (plainLive opensWindow).all (fun s => !s.backend.exitStarted &&
      s.backend.publicEvents.isEmpty && s.backend.openTurn.isNone &&
      s.backend.pendingResponse.isNone && !s.backend.replay &&
      (s.backend.windows.lookup (.server 2)).any (fun w => w.backendId.isSome && decide
        (w.dimensions = some (1920, 1048)) && !w.pendingOpen && !w.awaitingDimensions &&
        !w.fullscreen && w.position.isSome) &&
      ((alternates 1).foldlM RiverBackend.applyRuntimeEvent s.backend).toOption.isSome) := by
    decide +kernel
  simp only [hs, all_some, Option.any_eq_true, Bool.and_eq_true, decide_eq_true_eq,
    List.isEmpty_iff, isNone_iff_eq_none, Bool.not_eq_true', isSome_iff_exists] at hfacts
  obtain ⟨⟨⟨⟨⟨⟨hexit, hpublic⟩, hopen⟩, hpending⟩, hreplay⟩, w, hw,
    ⟨⟨⟨⟨⟨bid, hbid⟩, hsize⟩, hreported⟩, hawaiting⟩, hfullscreen⟩, position, hposition⟩,
    b, hfits⟩ := hfacts
  have hwindow : .server 2 ∈ s.backend.windows := AList.lookup_isSome.mp (by rw [hw]; rfl)
  have hresting : s.backend.Resting := ⟨(reachable_plainLive hs).sound, hexit, hpending⟩
  have hevents := standalone_alternates hwindow 257
  refine ⟨s, reachable_plainLive hs, ⟨hexit, hpublic, hopen⟩, hpending, hwindow,
    ⟨b, Guard.toOption_eq_some.mp hfits⟩, ?_⟩
  rw [exists_foldlM_iff_sustains hresting hevents]
  exact not_sustains_alternates hresting hreplay ⟨w, hw, hbid, hsize, hreported, hawaiting,
    hfullscreen, by simp [hposition]⟩ hevents

theorem standalone_renders_iff_plain : ∃ s : System, Reachable s ∧
    s.backend.Sustains (alternates 1) := by
  obtain ⟨s, hs, hidle, hpending, hwindow, hfits, -⟩ := exists_placedWindow
  exact ⟨s, hs, (standalone_renders_iff hs hidle.exitStarted hpending
    (standalone_alternates hwindow 1)).mp hfits⟩

/-- One window that changes its own size often enough stops the daemon. -/
theorem resizes_stop_daemon : ¬ ∀ (s : System) (events : List Incoming), Reachable s →
    s.backend.Idle → s.backend.pendingResponse = none →
    (∀ event ∈ events, s.backend.Standalone event) →
      ∃ b, events.foldlM RiverBackend.applyRuntimeEvent s.backend = .ok b := by
  intro hall
  obtain ⟨s, hs, hidle, hpending, hwindow, -, hfull⟩ := exists_placedWindow
  exact hfull (hall s _ hs hidle hpending (standalone_alternates hwindow 257))

end System

end Realm
