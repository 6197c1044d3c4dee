import Realm.River.Moves
import Realm.Session.Effects

/-!
# A session on River

The session and its backend as one system.  River sends messages, takes bytes and
may close the connection; the runtime services the backend in quanta and hands
what it reports to the session; the other owners make session calls in between.
An error of a backend quantum ends the daemon, so a run goes on from its
successes only.
-/

namespace Realm

open Option List Session

/-- The result of one backend quantum. -/
inductive BackendTurn where
  | idle
  | progressed
  | updated (update : SessionUpdate)
  | exitComplete

def notReady : BackendReady where
  readable := false
  terminal := false
  writable := false

namespace Session

variable {B : Type} [WmBackend B]

/-- Hand the event of a quantum to the session. -/
def acceptEvent (s : Session B) (event : BackendEvent) :
    Except SessionEventError BackendTurn × Session B :=
  if event = .disconnected ∧ s.phase = .exiting then
    match s.completeExpectedExit with
    | (.ok (), s) => (.ok .exitComplete, s)
    | (.error error, s) => (.error error, s)
  else
    match s.handleBackendEvent event with
    | (.ok update, s) => (.ok (.updated update), s)
    | (.error error, s) => (.error error, s)

/-- There is a quantum to make at this readiness. -/
def due (s : Session B) (ready : BackendReady) : Bool :=
  (WmBackend.pollInterest s.backend).immediate || ready.readable || ready.terminal || ready.writable

def backendTurn (s : Session B) (ready : BackendReady) (now : ℕ) :
    Except SessionEventError BackendTurn × Session B :=
  if s.phase = .exitComplete then
    (.error (.invalidLifecycleOperation .serviceAfterExitComplete .exitComplete), s)
  else if !s.due ready then (.ok .idle, s)
  else
    match s.serviceBackend ready now with
    | (.error error, s) => (.error error, s)
    | (.ok none, s) => (.ok .progressed, s)
    | (.ok (some event), s) => s.acceptEvent event

end Session

abbrev System := Session RiverBackend

namespace System

variable {P Q : System → Input → Prop} {plan : List (Option Input)} {s s' : System} {input : Input}
  {handshake : River.Handshake} {snapshot : Option ValidatedSnapshot} {keymap : Keymap}
  {p : System → Input → Bool} {bindings : List Binding}

/-- One thing that happens to the system. -/
inductive Input where
  | river (move : RiverMove)
  | service (ready : BackendReady) (now : ℕ)
  | owner (call : OwnerCall)

/-- The phases in which the runtime services the backend. -/
def serviced (phase : SessionLifecyclePhase) : Bool :=
  phase ∈ [.initialReplay, .finalizingReplay, .live, .exiting]

def quantumDue (s : System) (ready : BackendReady) : Bool := serviced s.phase && s.due ready

/-- The event of River an input applies. -/
def delivered (s : System) : Input → Option River.Incoming
  | .service ready _ => if s.quantumDue ready then s.backend.delivered ready else none
  | _ => none

def river (s : System) (move : RiverMove) : System :=
  { s with backend := { s.backend with transport := move.apply s.backend.transport } }

def step (s : System) : Input → Option System
  | .river move => some (s.river move)
  | .owner .beginExitSession =>
    match s.beginExitSession with
    | (.ok (), s) => some s
    | (.error _, _) => none
  | .owner call => some (Session.step s call.call)
  | .service ready now =>
    if serviced s.phase then
      match s.backendTurn ready now with
      | (.ok _, s) => some s
      | (.error _, _) => none
    else some s

/-- The systems that runs reach from a connection. -/
inductive Reachable : System → Prop
  | connect {handshake : River.Handshake} {snapshot : Option ValidatedSnapshot} {keymap : Keymap}
      {s : System}
      (h : Session.connect (RiverBackend.fromConnection handshake) snapshot keymap = .ok s) :
      Reachable s
  | step {s s' : System} (h : Reachable s) (input : Input) (hstep : s.step input = some s') :
      Reachable s'

theorem Reachable.invariant {P : System → Prop}
    (hconnect : ∀ {handshake snapshot keymap s},
      Session.connect (RiverBackend.fromConnection handshake) snapshot keymap = .ok s → P s)
    (hstep : ∀ s input s', P s → s.step input = some s' → P s') (h : Reachable s) : P s := by
  induction h with
  | connect h => exact hconnect h
  | step _ input hs ih => exact hstep _ input _ ih hs

/-! ## Inversion of a step -/

section Inversion

variable {s s' : System} {b b' : RiverBackend} {ready : BackendReady}
  {result : Except SessionEventError ActiveTransaction} {event : River.Incoming} {now : ℕ}
  {active : ActiveTransaction} {events : List BackendPolicyEvent}

theorem owned_of_step {call : OwnerCall} (h : s.step (.owner call) = some s') :
    ∃ outcome, Session.Owned s outcome s' := by
  by_cases hexit : call = .beginExitSession
  · subst hexit
    simp only [step] at h
    split at h
    · rename_i hok
      cases h
      exact ⟨_, Session.owned_beginExitSession hok⟩
    · cases h
  · have hcall : s.step (.owner call) = some (Session.step s call.call) := by
      cases call <;> first | rfl | exact absurd rfl hexit
    cases hcall.symm.trans h
    exact ⟨_, s.owned_call call hexit⟩

/-- What a service quantum does to the system. -/
inductive Serviced (s : System) (ready : BackendReady) : System → Prop
  | idle (hdue : s.quantumDue ready = false) : Serviced s ready s
  | progressed {b : RiverBackend} (hdue : s.quantumDue ready = true)
      (h : s.backend.service ready = .ok (none, b)) :
      Serviced s ready { s with backend := b }
  | exited {b : RiverBackend} (hdue : s.quantumDue ready = true)
      (h : s.backend.service ready = .ok (some .disconnected, b)) (hphase : s.phase = .exiting) :
      Serviced s ready { s with backend := b, phase := .exitComplete }
  | handled {b : RiverBackend} {event : BackendEvent} {update : SessionUpdate} {s' : System}
      (hdue : s.quantumDue ready = true) (hserving : s.Serving)
      (h : s.backend.service ready = .ok (some event, b))
      (hhandled : Session.Handled { s with backend := b } event update s') : Serviced s ready s'

theorem service_eq_ok {event : Option BackendEvent}
    (h : WmBackend.service b ready now = (.ok event, b')) : b.service ready = .ok (event, b') := by
  change RiverBackend.settle (b.service ready) = _ at h
  cases hservice : b.service ready with
  | error =>
    rw [hservice] at h
    cases h
  | ok =>
    rw [hservice] at h
    simp only [RiverBackend.settle, Prod.mk.injEq, Except.ok.injEq] at h
    rw [← h.1, ← h.2]

theorem serviced_of_step (h : s.step (.service ready now) = some s') : Serviced s ready s' := by
  simp only [step] at h
  split at h
  · rename_i hphase
    split at h
    · rename_i turn c hturn
      cases h
      unfold backendTurn at hturn
      split at hturn
      · cases hturn
      split at hturn
      · cases hturn
        exact .idle (by simp_all [quantumDue])
      have hdue : s.quantumDue ready = true := by simp_all [quantumDue]
      unfold serviceBackend at hturn
      split at hturn
      · cases hturn
      all_goals rename_i hservice
      · split at hservice
        · rename_i hservice'
          cases hservice
          cases hturn
          exact .progressed hdue (service_eq_ok hservice')
        · cases hservice
      · split at hservice
        · rename_i event _ b hservice'
          cases hservice
          unfold acceptEvent at hturn
          split at hturn
          · rename_i hexit
            obtain ⟨rfl, hexiting⟩ := hexit
            unfold completeExpectedExit at hturn
            rw [if_neg (by simpa using hexiting)] at hturn
            cases hturn
            exact .exited hdue (service_eq_ok hservice') hexiting
          · split at hturn
            · rename_i hhandled
              cases hturn
              obtain ⟨hserving, hhandled⟩ := handled_of_ok hhandled
              exact .handled hdue hserving (service_eq_ok hservice') hhandled
            · cases hturn
        · cases hservice
    · cases h
  · cases h
    exact .idle (by simp_all [quantumDue])

/-! ## The backend of a system -/

theorem assigned_assignWindow
    {bid : BackendWindowId} {win : WinId} {result : Except BackendContractError Unit}
    (h : WmBackend.assignWindow b bid win = (result, b')) : b.Assigned b' := by
  simp only [WmBackend.assignWindow] at h
  split at h
  · rename_i hassign
    cases h
    exact .single ⟨_, _, hassign⟩
  · cases h
    exact .refl

theorem assigned_reduceTurn (h : s.reduceTurn events = (result, b)) : s.backend.Assigned b := by
  have hassigns := assigns_reduceTurn h
  clear h
  induction hassigns with
  | refl => exact .refl
  | tail _ hassign ih =>
    obtain ⟨bid, win, result, hassign⟩ := hassign
    exact ih.trans (assigned_assignWindow hassign)

theorem requestPolicyTurn_cases {result : BackendResult Unit}
    (h : WmBackend.requestPolicyTurn b = (result, b')) :
    b.requestPolicyTurn = .ok b' ∨ (∃ error, result = .error error) ∧ b' = b := by
  change RiverBackend.settleUnit b.requestPolicyTurn = _ at h
  cases hrequest : b.requestPolicyTurn with
  | ok =>
    rw [hrequest] at h
    cases h
    exact .inl rfl
  | error e =>
    rw [hrequest] at h
    have hb : e.2 = b := by
      unfold RiverBackend.requestPolicyTurn RiverBackend.fail at hrequest
      grind
    cases h
    exact .inr ⟨⟨_, rfl⟩, hb⟩

theorem respondPolicyTurn_eq_ok {turn : BackendPolicyTurnId}
    {ticket : BackendTicket} {response : BackendPolicyResponse} {submission : BackendSubmission}
    (h : WmBackend.respondPolicyTurn b turn ticket response = (.ok submission, b')) :
    submission = .pending ∧ b.respondPolicyTurn turn ticket response = .ok b' := by
  change RiverBackend.settle ((b.respondPolicyTurn turn ticket response).map _) = _ at h
  cases hrespond : b.respondPolicyTurn turn ticket response with
  | ok =>
    rw [hrespond] at h
    simp only [Except.map, RiverBackend.settle, Prod.mk.injEq, Except.ok.injEq] at h
    exact ⟨h.1.symm, by rw [h.2]⟩
  | error =>
    rw [hrespond] at h
    cases h

theorem settleUnit_eq_ok {outcome : RiverOutcome RiverBackend}
    (h : RiverBackend.settleUnit outcome = (.ok (), b)) : outcome = .ok b := by
  cases outcome with
  | ok => rw [(Prod.mk.inj h).2]
  | error => cases h

theorem asks_handled {event : BackendEvent} {update : SessionUpdate}
    (h : Session.Handled s event update s') : s.backend.Asks s'.backend := by
  cases h with
  | turn _ _ hreduce hrespond =>
    obtain ⟨rfl, hok⟩ := respondPolicyTurn_eq_ok hrespond
    exact (assigned_reduceTurn hreduce).asks.tail (.respond hok)
  | completed => exact .refl
  | @drained ticket active htransaction hactive =>
    obtain ⟨_, _, _, _, heq⟩ := exists_finalizeActive { s with active := none } active
    rw [heq]
    exact .refl

theorem asks_owned {outcome : Option SessionUpdate} (h : Session.Owned s outcome s') :
    s.backend.Asks s'.backend := by
  cases h with
  | quiet h => rw [h.sameExchange.backend]
  | admits _ hrequest | refused _ hrequest =>
    rcases requestPolicyTurn_cases hrequest with hok | ⟨-, rfl⟩
    · exact .single (.request hok)
    · exact .refl
  | leaves => exact .refl
  | exits _ hexit => exact .single (.exit (settleUnit_eq_ok hexit))

theorem moves_of_step (h : s.step input = some s') :
    s.backend.Moves (fun event => s.delivered input = some event) s'.backend := by
  cases input with
  | river move =>
    cases h
    exact .single (.river move) (by simp)
  | owner =>
    obtain ⟨_, howned⟩ := owned_of_step h
    exact .of_asks (asks_owned howned)
  | service =>
    cases serviced_of_step h with
    | idle => exact .refl
    | progressed hdue hservice | exited hdue hservice =>
      exact .single (.service hservice) fun _ h => by rw [delivered, if_pos hdue, h]
    | handled hdue _ hservice hhandled =>
      refine (RiverBackend.Moves.single (.service hservice) fun _ h => ?_).trans
        (.of_asks (asks_handled hhandled))
      rw [delivered, if_pos hdue, h]

theorem step_of_delivered (h : s.delivered (.service ready now) = some event) :
    s.backend.Idle ∧ ∃ t, s.backend.transport.Dispatches t event ∧ s.step (.service ready now) =
      ({ s.backend with transport := t }.applyRuntimeEvent event).toOption.map
        fun b => { s with backend := b } := by
  rw [delivered] at h
  split at h
  swap
  · cases h
  rename_i hdue
  obtain ⟨hidle, t, ht, hservice⟩ := RiverBackend.service_of_delivered h
  refine ⟨hidle, t, ht, ?_⟩
  simp only [quantumDue, Bool.and_eq_true] at hdue
  have hphase : s.phase ≠ .exitComplete := by
    intro hphase
    simp [serviced, hphase] at hdue
  simp only [step, if_pos hdue.1, backendTurn, if_neg hphase, hdue.2,
    serviceBackend, WmBackend.service, hservice]
  cases { s.backend with transport := t }.applyRuntimeEvent event <;> rfl

theorem exists_service_of_delivered (h : s.delivered input = some event) :
    ∃ ready now, input = .service ready now := by
  cases input with
  | service ready now => exact ⟨ready, now, rfl⟩
  | _ => cases h

theorem exists_applied (hdelivered : s.delivered input = some event) (h : s.step input = some s') :
    s.backend.Idle ∧ ∃ t b, s.backend.transport.Dispatches t event ∧
      { s.backend with transport := t }.applyRuntimeEvent event = .ok b ∧
      s' = { s with backend := b } := by
  obtain ⟨ready, now, rfl⟩ := exists_service_of_delivered hdelivered
  obtain ⟨hidle, t, ht, hstep⟩ := step_of_delivered hdelivered
  rw [hstep] at h
  obtain ⟨b, hb, rfl⟩ := map_eq_some_iff.mp h
  exact ⟨hidle, t, b, ht, Guard.toOption_eq_some.mp hb, rfl⟩

end Inversion

/-! ## The session of a system -/

theorem exists_calls_of_step (h : s.step input = some s') :
    ∃ calls : List (Session.Call RiverBackend), s' = calls.foldl Session.step s := by
  cases input with
  | river =>
    cases h
    exact ⟨[.backendMoves _], rfl⟩
  | owner call =>
    by_cases hexit : call = .beginExitSession
    · subst hexit
      simp only [step] at h
      split at h
      · rename_i hok
        cases h
        exact ⟨[.beginExitSession], (congrArg Prod.snd hok).symm⟩
      · cases h
    · have hcall : s.step (.owner call) = some (Session.step s call.call) := by
        cases call <;> first | rfl | exact absurd rfl hexit
      exact ⟨[call.call], (Option.some.inj (hcall.symm.trans h)).symm⟩
  | service ready now =>
    simp only [step] at h
    split at h
    swap
    · exact ⟨[], (Option.some.inj h).symm⟩
    split at h
    swap
    · cases h
    rename_i turn c hturn
    cases h
    unfold Session.backendTurn at hturn
    split at hturn
    · cases hturn
    split at hturn
    · exact ⟨[], (Prod.mk.inj hturn).2.symm⟩
    split at hturn
    · cases hturn
    all_goals rename_i hservice
    · exact ⟨[.serviceBackend ready now], (Prod.mk.inj hturn).2.symm.trans
        (congrArg Prod.snd hservice).symm⟩
    · rename_i event c
      unfold Session.acceptEvent at hturn
      split at hturn
      · split at hturn
        · rename_i hexit
          cases hturn
          refine ⟨[.serviceBackend ready now, .completeExpectedExit], ?_⟩
          simp only [foldl_cons, foldl_nil, Session.step, hservice, hexit]
        · cases hturn
      · split at hturn
        · rename_i hhandled
          cases hturn
          refine ⟨[.serviceBackend ready now, .backendEvent event], ?_⟩
          simp only [foldl_cons, foldl_nil, Session.step, hservice, hhandled]
        · cases hturn

theorem Reachable.session (h : Reachable s) : Session.Reachable s := by
  refine h.invariant (fun hconnect => .connect hconnect) fun s input s' hs hstep => ?_
  obtain ⟨calls, rfl⟩ := exists_calls_of_step hstep
  exact hs.foldl calls

/-! ## Runs under a condition -/

def StepWhere (P : System → Input → Prop) (s s' : System) : Prop :=
  ∃ input, P s input ∧ s.step input = some s'

abbrev RunWhere (P : System → Input → Prop) : System → System → Prop :=
  Relation.ReflTransGen (StepWhere P)

/-- The systems that such runs reach from a connection. -/
def ReachableWhere (P : System → Input → Prop) (s : System) : Prop :=
  ∃ handshake snapshot keymap s₀,
    Session.connect (RiverBackend.fromConnection handshake) snapshot keymap = .ok s₀ ∧
      RunWhere P s₀ s

theorem RunWhere.mono (himp : ∀ s input, P s input → Q s input) (h : RunWhere P s s') :
    RunWhere Q s s' := by
  refine Relation.ReflTransGen.mono ?_ _ _ h
  rintro a b ⟨input, hP, hstep⟩
  exact ⟨input, himp _ _ hP, hstep⟩

theorem ReachableWhere.mono (himp : ∀ s input, P s input → Q s input) (h : ReachableWhere P s) :
    ReachableWhere Q s := by
  obtain ⟨handshake, snapshot, keymap, s₀, hconnect, hrun⟩ := h
  exact ⟨handshake, snapshot, keymap, s₀, hconnect, hrun.mono himp⟩

theorem ReachableWhere.run (h : ReachableWhere P s) (hrun : RunWhere P s s') :
    ReachableWhere P s' := by
  obtain ⟨handshake, snapshot, keymap, s₀, hconnect, hrun₀⟩ := h
  exact ⟨handshake, snapshot, keymap, s₀, hconnect, hrun₀.trans hrun⟩

/-- The invariant rule of runs under a condition; the states of the run are reachable. -/
theorem ReachableWhere.invariant {I : System → Prop}
    (hconnect : ∀ {handshake snapshot keymap s},
      Session.connect (RiverBackend.fromConnection handshake) snapshot keymap = .ok s → I s)
    (hstep : ∀ s input s', Reachable s → I s → P s input → s.step input = some s' → I s')
    (h : ReachableWhere P s) : Reachable s ∧ I s := by
  obtain ⟨handshake, snapshot, keymap, s₀, hconnected, hrun⟩ := h
  induction hrun with
  | refl => exact ⟨.connect hconnected, hconnect hconnected⟩
  | tail _ hlast ih =>
    obtain ⟨input, hP, hs⟩ := hlast
    exact ⟨ih.1.step input hs, hstep _ input _ ih.1 ih.2 hP hs⟩

theorem exists_connect
    (h : Session.connect (RiverBackend.fromConnection handshake) snapshot keymap = .ok s) :
    ∃ c specs, (RiverBackend.fromConnection handshake).connect = .ok c ∧
      c.configureBindings specs = .ok s.backend ∧
      (∀ spec ∈ specs, spec.id ∈ s.bindings) ∧ s.phase = .initialReplay ∧
      s.transaction = .idle ∧ s.active = none ∧ s.lastPolicyTurn = none ∧
      s.boundBackendIds = ∅ := by
  unfold connect at h
  split at h
  · cases h
  split at h
  · cases h
  rename_i c hconnect
  simp only at h
  split at h
  · cases h
  rename_i d hconfigure
  cases h
  refine ⟨c, _, settleUnit_eq_ok hconnect, settleUnit_eq_ok hconfigure, ?_, rfl, rfl, rfl, rfl, rfl⟩
  intro spec hspec
  obtain ⟨⟨id, binding⟩, hmem, rfl⟩ := mem_map.mp hspec
  exact (Map.mem_foldl_insert (·.1) (·.2) _ _).mpr (.inl ⟨(id, binding), hmem, rfl⟩)

theorem sound_of_connect
    (h : Session.connect (RiverBackend.fromConnection handshake) snapshot keymap = .ok s) :
    s.backend.Sound := by
  obtain ⟨c, specs, hconnect, hconfigure, -⟩ := exists_connect h
  exact RiverBackend.sound_of_connected hconnect hconfigure

theorem Reachable.sound (h : Reachable s) : s.backend.Sound :=
  h.invariant sound_of_connect fun _ _ _ hs hstep =>
    (moves_of_step hstep).invariant (fun hc hmove _ => hc.of_move hmove) hs

/-! ## A session that goes live -/

/-- The readiness the event loop passes to a quantum: none when there is immediate
work, else what poll reports for the descriptor. -/
def polled (b : RiverBackend) : BackendReady :=
  if b.pollInterest.immediate then notReady
  else {
    readable := b.pollInterest.readable && (0 < b.transport.kernel || b.transport.closed)
    terminal := b.transport.closed
    writable := b.pollInterest.writable && 0 < b.transport.room }

/-- The next input of a scenario: the one given, or a quantum as the event loop makes it. -/
def planned (s : System) : Option Input → Input
  | some input => input
  | none => .service (polled s.backend) 0

def play (s : System) (plan : List (Option Input)) : Option System :=
  plan.foldlM (fun s act => s.step (s.planned act)) s

def quanta (n : ℕ) : List (Option Input) := List.replicate n none

/-- Every input of a scenario meets a condition. -/
def meets (p : System → Input → Bool) : System → List (Option Input) → Bool
  | _, [] => true
  | s, act :: plan => p s (s.planned act) && (s.step (s.planned act)).all fun s => s.meets p plan

theorem Reachable.play (h : Reachable s) (hplay : s.play plan = some s') : Reachable s' := by
  induction plan generalizing s with
  | nil =>
    cases hplay
    exact h
  | cons act plan ih =>
    obtain ⟨c, hstep, hrest⟩ := bind_eq_some_iff.mp hplay
    exact ih (h.step _ hstep) hrest

theorem runWhere_play (hmeets : s.meets p plan = true) (hplay : s.play plan = some s') :
    RunWhere (fun s input => p s input = true) s s' := by
  induction plan generalizing s with
  | nil =>
    cases hplay
    exact .refl
  | cons act plan ih =>
    obtain ⟨c, hstep, hrest⟩ := bind_eq_some_iff.mp hplay
    simp only [meets, hstep, all_some, Bool.and_eq_true] at hmeets
    exact .head ⟨_, hmeets.1, hstep⟩ (ih hmeets.2 hrest)

/-- A River that offers the required globals and has no input devices. -/
def plainHandshake : River.Handshake where
  discovery := [.global 1 "river_window_manager_v1" 4, .global 2 "river_xkb_bindings_v1" 3,
    .global 3 "river_layer_shell_v1" 1, .global 4 "river_input_manager_v1" 2,
    .global 5 "river_libinput_config_v1" 2]
  inputDiscovery := []
  inputResults := []

/-- Messages of eight bytes each. -/
def sends (messages : List River.Wire) : Input :=
  .river (.sends (messages.map fun m => (8, m)) (8 * messages.length))

/-- The first replay and the first workarea of a River with one output and one seat. -/
def plainStartup : List River.Wire := [
  .deliver (.client 4) (.outputCreated (.server 0)),
  .deliver (.server 0) (.outputPosition (.server 0) 0 0),
  .deliver (.server 0) (.outputDimensions (.server 0) 1920 1080),
  .deliver (.client 4) (.seatCreated (.server 1)),
  .deliver (.client 4) .manageStart,
  .deliver (.client 4) .renderStart,
  .deliver (.client 5) (.workarea (.client 5) 0 32 1920 1048),
  .deliver (.client 4) .manageStart,
  .deliver (.client 4) .renderStart]

/-- A session connected to that River, without a snapshot and with the bindings given. -/
def plainStart (bindings : List Binding) : Option System :=
  (Session.connect (RiverBackend.fromConnection plainHandshake) none ⟨"mod", bindings⟩).toOption

theorem exists_of_plainStart (h : plainStart bindings = some s) : ∃ handshake snapshot keymap,
      Session.connect (RiverBackend.fromConnection handshake) snapshot keymap = .ok s := by
  refine ⟨plainHandshake, none, ⟨"mod", bindings⟩, ?_⟩
  unfold plainStart at h
  cases hconnect : connect (RiverBackend.fromConnection plainHandshake) none
      ⟨"mod", bindings⟩ with
  | ok c =>
    rw [hconnect] at h
    exact congrArg Except.ok (some.inj h)
  | error e =>
    rw [hconnect] at h
    cases h

theorem reachable_plainStart (h : plainStart bindings = some s) : Reachable s := by
  obtain ⟨_, _, _, hconnect⟩ := exists_of_plainStart h
  exact .connect hconnect

/-- What makes that session live and leaves it with nothing to do. -/
def goesLive : List (Option Input) :=
  [some (sends plainStartup), some (.river (.takes 65536))] ++ quanta 24

/-- The session after it went live and a scenario. -/
def plainLive (plan : List (Option Input)) : Option System :=
  (plainStart []).bind fun s => s.play (goesLive ++ plan)

theorem reachable_plainLive (h : plainLive plan = some s) : Reachable s := by
  obtain ⟨a, hstart, hplay⟩ := bind_eq_some_iff.mp h
  exact (reachable_plainStart hstart).play hplay

theorem reachableWhere_plainLive
    (hmeets : ((plainStart []).all fun s => s.meets p (goesLive ++ plan)) = true)
    (h : plainLive plan = some s) : ReachableWhere (fun s input => p s input = true) s := by
  obtain ⟨a, hstart, hplay⟩ := bind_eq_some_iff.mp h
  rw [hstart, all_some] at hmeets
  obtain ⟨handshake, snapshot, keymap, hconnect⟩ := exists_of_plainStart hstart
  exact ⟨handshake, snapshot, keymap, a, hconnect, runWhere_play hmeets hplay⟩

example : (plainLive []).map (·.phase) = some .live := by decide +kernel

end System

end Realm
