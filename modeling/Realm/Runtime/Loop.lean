import Realm.Lib.Loop
import Realm.Runtime.System

/-!
# The combined loop

One iteration of the runtime expires what is due, advances a shutdown, polls,
services one backend quantum and then the other owners.  A backend with immediate
work is serviced without the readiness that poll reported, and as long as it has
immediate work the other owners wait.
-/

namespace Realm

open Option RiverBackend

variable {b b' : RiverBackend} {s : System}

/-- The events poll reports for one descriptor. -/
structure PollFlags where
  readable : Bool
  writable : Bool
  error : Bool
  hangup : Bool
  invalid : Bool

/-- What poll reports in one iteration, and the time around it. -/
structure Polled where
  now : ℕ
  later : ℕ
  backend : Option PollFlags
  repeatTimer : Bool
  clock : Bool
  sampler : Bool
  worker : Bool
  /-- The first ready control descriptor. -/
  control : Option (ℕ × PollFlags)

/-- The session and the other owners.  Control server, worker, timers, clock,
sampler and persistence are the `rest`. -/
structure RuntimeOwners (R : Type) where
  session : System
  rest : R
  quitReceipt : Option ℕ
  shutdownStarted : Bool
  exitStarted : Bool

/-- How the loop asks and drives the other owners.  A service that fails ends the
daemon. -/
structure Peripherals (R : Type) where
  expireControl : ℕ → R → Option R
  submitDueSnapshot : ℕ → R → Option R
  responseSettled : R → ℕ → Bool
  beginControlShutdown : ℕ → R → R
  applyRepeat : RepeatTimerDirective → R → Option R
  isShutdownComplete : R → Bool
  fenceSettled : ℕ → R → Bool
  workerHasResults : R → Bool
  handleSessionUpdate : ℕ → SessionUpdate → RuntimeOwners R → Option (RuntimeOwners R)
  serviceRepeat : ℕ → RuntimeOwners R → Option (RuntimeOwners R)
  serviceClock : ℕ → RuntimeOwners R → Option (RuntimeOwners R)
  serviceSampler : RuntimeOwners R → Option (RuntimeOwners R)
  serviceWorker : ℕ → RuntimeOwners R → Option (RuntimeOwners R)
  serviceControl : ℕ → ℕ → BackendReady → RuntimeOwners R → Option (RuntimeOwners R)

/-- How an iteration ends. -/
inductive LoopOutcome (σ : Type) where
  | continues (state : σ)
  | returns
  | fails

/-- The readiness of reported events, unless the descriptor is invalid. -/
def PollFlags.ready (f : PollFlags) : Option BackendReady :=
  if f.invalid then none
  else some { readable := f.readable, terminal := f.error || f.hangup, writable := f.writable }

namespace RuntimeOwners

variable {R : Type} (P : Peripherals R)

def serviceBackend (o : RuntimeOwners R) (now : ℕ) (ready : BackendReady) :
    Option (Bool × RuntimeOwners R) :=
  if o.session.phase ∈ [SessionLifecyclePhase.quitPending, .shuttingDown] then some (false, o)
  else
    match o.session.backendTurn ready now with
    | (.error _, _) => none
    | (.ok .idle, s) | (.ok .progressed, s) => some (false, { o with session := s })
    | (.ok (.updated update), s) =>
      (P.handleSessionUpdate now update { o with session := s }).map fun o => (false, o)
    | (.ok .exitComplete, s) => some (true, { o with session := s })

def beginShutdown (o : RuntimeOwners R) (now : ℕ) : Option (RuntimeOwners R) :=
  if o.shutdownStarted then some o
  else
    let begun := o.session.beginShutdown
    (P.applyRepeat begun.1.repeatTimer (P.beginControlShutdown now o.rest)).map fun rest =>
      { o with session := begun.2, rest := rest, quitReceipt := none, shutdownStarted := true }

def recheckQuit (o : RuntimeOwners R) (now : ℕ) : Option (RuntimeOwners R) :=
  if o.quitReceipt.any (P.responseSettled o.rest) then o.beginShutdown P now else some o

def beginExit (o : RuntimeOwners R) (now : ℕ) : Option (RuntimeOwners R) :=
  if o.shutdownStarted && !o.exitStarted && P.isShutdownComplete o.rest &&
      P.fenceSettled now o.rest then
    match o.session.beginExitSession with
    | (.ok (), s) => some { o with session := s, exitStarted := true }
    | (.error _, _) => none
  else some o

def advanceShutdown (o : RuntimeOwners R) (now : ℕ) : Option (RuntimeOwners R) :=
  (o.recheckQuit P now).bind fun o => o.beginExit P now

def prepare (o : RuntimeOwners R) (now : ℕ) : Option (RuntimeOwners R) := do
  let rest ← P.expireControl now o.rest
  let rest ← P.submitDueSnapshot now rest
  { o with rest := rest }.advanceShutdown P now

/-- The backend is polled while the session is live or exiting. -/
def backendEnabled (o : RuntimeOwners R) : Bool :=
  o.session.phase = .live || o.session.phase = .exiting

/-- The events of the backend descriptor, when it is polled. -/
def backendEvents (o : RuntimeOwners R) (w : Polled) : Option PollFlags :=
  if o.backendEnabled then w.backend else none

def backendReady (o : RuntimeOwners R) (w : Polled) : Option BackendReady :=
  if o.session.backend.pollInterest.immediate then some notReady
  else
    match o.backendEvents w with
    | some events => events.ready
    | none => some notReady

def serviceIf (ready : Bool) (service : RuntimeOwners R → Option (RuntimeOwners R))
    (o : RuntimeOwners R) : Option (RuntimeOwners R) :=
  if ready then service o else some o

def serviceFirstControl (o : RuntimeOwners R) (w : Polled) : Option (RuntimeOwners R) :=
  match w.control with
  | some (token, events) => events.ready.bind fun ready => P.serviceControl w.later token ready o
  | none => some o

/-- The owners after the backend; the sampler is polled in the live phase only. -/
def serviceRest (o : RuntimeOwners R) (w : Polled) (live : Bool) : Option (RuntimeOwners R) := do
  let o ← serviceIf w.repeatTimer (P.serviceRepeat w.later) o
  let o ← serviceIf w.clock (P.serviceClock w.later) o
  let o ← serviceIf (live && w.sampler) P.serviceSampler o
  let o ← serviceIf (P.workerHasResults o.rest || w.worker) (P.serviceWorker w.later) o
  let o ← o.serviceFirstControl P w
  o.advanceShutdown P w.later

def finish (o : RuntimeOwners R) (w : Polled) (live : Bool) : LoopOutcome (RuntimeOwners R) :=
  match o.serviceRest P w live with
  | some o => .continues o
  | none => .fails

def runPrepared (o : RuntimeOwners R) (w : Polled) : LoopOutcome (RuntimeOwners R) :=
  let live := decide (o.session.phase = .live)
  match o.backendReady w with
  | none => .fails
  | some ready =>
    if o.backendEnabled &&
        ((o.backendEvents w).isSome || o.session.backend.pollInterest.immediate) then
      match o.serviceBackend P w.later ready with
      | none => .fails
      | some (true, _) => .returns
      | some (false, o') =>
        if o.backendEnabled && o'.session.backend.pollInterest.immediate then .continues o'
        else o'.finish P w live
    else o.finish P w live

def iterate (o : RuntimeOwners R) (w : Polled) : LoopOutcome (RuntimeOwners R) :=
  match o.prepare P w.now with
  | none => .fails
  | some o => o.runPrepared P w

/-- The loop as its body: the number of iterations made selects what poll reports. -/
def next (world : ℕ → Polled) (state : ℕ × RuntimeOwners R) : Option (ℕ × RuntimeOwners R) :=
  match state.2.iterate P (world state.1) with
  | .continues o => some (state.1 + 1, o)
  | _ => none

end RuntimeOwners

/-! ## The exit of a system -/

namespace System

open RiverBackend

/-- The exit goes through its phases in order. -/
structure ExitOrder (s : System) : Prop where
  sound : s.backend.Sound
  settled : s.backend.ExitSettled
  started : s.phase = .exiting → s.backend.exitStarted = true
  complete : s.backend.exitComplete = true → s.phase = .exitComplete

theorem exit_of_asks (h : b.Asks b') (hb : b.Sound) (hs : b.ExitSettled) :
    b'.Sound ∧ b'.ExitSettled ∧ b'.exitComplete = b.exitComplete ∧
      (b.exitStarted = true → b'.exitStarted = true) := by
  induction h with
  | refl => exact ⟨hb, hs, rfl, id⟩
  | tail _ hask ih =>
    obtain ⟨hsound, hsettled, hcomplete, hstarted⟩ := ih
    obtain ⟨hcomplete', -, hstarted', -⟩ := exit_of_ask hask
    exact ⟨hsound.of_ask hask, exitSettled_of_ask hsound hsettled hask,
      hcomplete'.trans hcomplete, fun h => hstarted' (hstarted h)⟩

namespace ExitOrder

variable {s s' : System}

/-- Only a completed exit leaves the exit phase, and only then is it complete. -/
theorem of_asks (hs : s.ExitOrder) (h : s.backend.Asks s'.backend)
    (hphase : s'.phase = .exiting → s.phase = .exiting ∨ s'.backend.exitStarted = true)
    (hcomplete : s.phase = .exitComplete → s'.phase = .exitComplete) : s'.ExitOrder := by
  obtain ⟨hsound, hsettled, hsame, hstarted⟩ := exit_of_asks h hs.sound hs.settled
  refine ⟨hsound, hsettled, fun hexit => ?_, fun h => hcomplete (hs.complete (hsame ▸ h))⟩
  rcases hphase hexit with h | h
  · exact hstarted (hs.started h)
  · exact h

theorem of_owned (hs : s.ExitOrder) {outcome : Option SessionUpdate}
    (h : Session.Owned s outcome s') : s'.ExitOrder := by
  have hasks := asks_owned h
  cases h with
  | quiet h =>
    have h := h.sameExchange
    exact hs.of_asks hasks (fun hp => .inl (h.phase ▸ hp)) fun hp => h.phase ▸ hp
  | admits | refused => exact hs.of_asks hasks .inl id
  | leaves h hphase =>
    refine hs.of_asks hasks (fun hp => ?_) fun hp => absurd hp hphase.2
    rcases h with rfl | rfl <;> simp at hp
  | exits hphase hexit =>
    refine hs.of_asks hasks (fun _ => .inr ?_) fun hp => absurd (hphase.symm.trans hp) (by simp)
    obtain ⟨-, -, hpaint⟩ := exists_beginExitSession (settleUnit_eq_ok hexit)
    exact (Prod.mk.inj hpaint.exitFlags).1

theorem of_serviced (hs : s.ExitOrder) {ready : BackendReady} (h : Serviced s ready s') :
    s'.ExitOrder := by
  cases h with
  | idle => exact hs
  | progressed _ h =>
    have hquantum := quantum_of_service h
    obtain ⟨hstarted, hcomplete, hsettled⟩ := exit_of_quantum hquantum
    exact ⟨hs.sound.of_quantum hquantum, hsettled hs.settled,
      fun hp => hstarted.trans (hs.started hp),
      fun h => hs.complete ((hcomplete (by simp)).symm.trans h)⟩
  | exited _ h =>
    have hquantum := quantum_of_service h
    exact ⟨hs.sound.of_quantum hquantum, (exit_of_quantum hquantum).2.2 hs.settled,
      by simp, fun _ => rfl⟩
  | @handled b event _ s' _ hserving h hhandled =>
    have hquantum := quantum_of_service h
    obtain ⟨hexit, hcomplete⟩ := hhandled.phase hserving
    obtain ⟨-, hsame, hsettled⟩ := exit_of_quantum hquantum
    obtain ⟨hsound, hsettled', hsame', -⟩ := exit_of_asks (asks_handled hhandled)
      (hs.sound.of_quantum hquantum) (hsettled hs.settled)
    refine ⟨hsound, hsettled', fun h => absurd h hexit, fun h => ?_⟩
    have hevent : some event ≠ some .disconnected := by
      rintro ⟨⟩
      cases hhandled
    have hphase := hs.complete ((hsame hevent).symm.trans (hsame'.symm.trans h))
    simp [Session.Serving, hphase] at hserving

theorem of_step (hs : s.ExitOrder) {input : Input} (h : s.step input = some s') : s'.ExitOrder := by
  cases input with
  | river move =>
    cases h
    exact ⟨hs.sound.of_move (.river move), hs.settled, hs.started, hs.complete⟩
  | owner =>
    obtain ⟨_, howned⟩ := owned_of_step h
    exact hs.of_owned howned
  | service => exact hs.of_serviced (serviced_of_step h)

end ExitOrder

theorem exitOrder_of_connect {handshake : River.Handshake} {snapshot : Option ValidatedSnapshot}
    {keymap : Keymap}
    (h : Session.connect (RiverBackend.fromConnection handshake) snapshot keymap = .ok s) :
    s.ExitOrder := by
  obtain ⟨c, specs, hconnect, hconfigure, -, hphase, -⟩ := exists_connect h
  have hsound := sound_of_connected hconnect hconfigure
  obtain ⟨-, -, d, ⟨⟨_, _, _, _, _, _, _, _, _, _, _, rfl⟩⟩, hbackend⟩ :=
    exists_connected hconnect hconfigure
  refine ⟨hsound, ?_, by simp [hphase], ?_⟩
  · simp [ExitSettled, hbackend, fromConnection]
  · simp [hbackend, fromConnection]

theorem Reachable.exitOrder (h : Reachable s) : s.ExitOrder :=
  h.invariant exitOrder_of_connect fun _ _ _ hs hstep => hs.of_step hstep

end System

/-! ## The loop of an exiting session -/

namespace RuntimeOwners

variable {R : Type} {P : Peripherals R} {world : ℕ → Polled} {o o' : RuntimeOwners R}

/-- After the exit request no sequence is open and no read is prepared, which the
backend reports as immediate work forever. -/
theorem immediate_of_exiting (hs : s.ExitOrder) (hphase : s.phase = .exiting) :
    s.backend.pollInterest.immediate = true := by
  obtain ⟨hopen, hguard, -⟩ := hs.sound.exit (hs.started hphase)
  simp [pollInterest, hopen, hguard]

theorem prepare_exiting (hphase : o.session.phase = .exiting) {now : ℕ}
    (h : o.prepare P now = some o') : o'.session = o.session := by
  obtain ⟨rest, -, h⟩ := bind_eq_some_iff.mp h
  obtain ⟨rest', -, h⟩ := bind_eq_some_iff.mp h
  obtain ⟨c, hquit, h⟩ := bind_eq_some_iff.mp h
  have hc : c.session = o.session := by
    unfold recheckQuit at hquit
    split at hquit
    · unfold beginShutdown at hquit
      split at hquit
      · cases hquit
        rfl
      · obtain ⟨_, -, rfl⟩ := map_eq_some_iff.mp hquit
        simp [Session.beginShutdown, hphase]
    · cases hquit
      rfl
  unfold beginExit at h
  split at h
  · have hrefused : c.session.beginExitSession.1 ≠ .ok () := by
      simp [Session.beginExitSession, hc, hphase]
    split at h
    · rename_i hok
      rw [hok] at hrefused
      exact absurd rfl hrefused
    · cases h
  · cases h
    exact hc

theorem service_notReady_exiting {event : Option BackendEvent} (hstarted : b.exitStarted = true)
    (h : b.service notReady = .ok (event, b')) : event = none := by
  cases quantum_of_service h with
  | exited _ _ hready => cases hready
  | publish hexit => simp [hstarted] at hexit
  | _ => rfl

theorem backendTurn_exiting (hs : s.ExitOrder) (hphase : s.phase = .exiting) (now : ℕ) :
    (∃ error s', s.backendTurn notReady now = (.error error, s')) ∨
      ∃ b, s.backendTurn notReady now = (.ok .progressed, { s with backend := b }) := by
  have himmediate : (WmBackend.pollInterest s.backend).immediate = true :=
    immediate_of_exiting hs hphase
  unfold Session.backendTurn Session.serviceBackend
  rw [if_neg (by simp [hphase])]
  rw [if_neg (by simp [Session.due, himmediate])]
  rcases hservice : WmBackend.service s.backend notReady now with ⟨error | event, b⟩
  · exact .inl ⟨_, _, rfl⟩
  · obtain rfl := service_notReady_exiting (hs.started hphase) (System.service_eq_ok hservice)
    exact .inr ⟨b, rfl⟩

/-- An iteration of an exiting session passes no readiness, and fails or goes on
with the session still exiting. -/
theorem iterate_exiting (hs : o.session.ExitOrder) (hphase : o.session.phase = .exiting)
    (w : Polled) : o.iterate P w = .fails ∨
      ∃ o', o.iterate P w = .continues o' ∧ o'.session.phase = .exiting ∧
        o.session.step (.service notReady w.later) = some o'.session := by
  unfold iterate
  cases hprepare : o.prepare P w.now with
  | none => exact .inl rfl
  | some c =>
    have hc := prepare_exiting hphase hprepare
    have himmediate : c.session.backend.pollInterest.immediate = true :=
      hc ▸ immediate_of_exiting hs hphase
    have henabled : c.backendEnabled = true := by simp [backendEnabled, hc, hphase]
    simp only [runPrepared, backendReady, himmediate, if_true, henabled, Bool.or_true,
      Bool.and_true]
    unfold serviceBackend
    rw [if_neg (by simp [hc, hphase])]
    rw [hc]
    rcases backendTurn_exiting hs hphase w.later with ⟨error, s', hturn⟩ | ⟨b, hturn⟩
    · exact .inl (by rw [hturn])
    · right
      have hstep : o.session.step (.service notReady w.later) =
          some { o.session with backend := b } := by
        simp [System.step, System.serviced, hphase, hturn]
      have hexiting := immediate_of_exiting (hs.of_step hstep) hphase
      rw [hturn]
      exact ⟨{ c with session := { o.session with backend := b } }, by simp [hexiting], hphase,
        hstep⟩

/-- An exit that only has to be completed: the session is exiting, every byte
through the exit request is flushed, and River has closed the connection.  The
runtime has begun the exit, so its own flags say so. -/
structure Exited (o : RuntimeOwners R) : Prop where
  reachable : o.session.Reachable
  phase : o.session.phase = .exiting
  flushed : o.session.backend.exitFlushed = true
  closed : o.session.backend.transport.closed = true
  shutdownStarted : o.shutdownStarted = true
  exitStarted : o.exitStarted = true

theorem reaches_exiting (hreach : o.session.Reachable) (hphase : o.session.phase = .exiting)
    {start n : ℕ} (h : Loop.Reaches (next P world) (start, o) (n, o')) :
    o'.session.Reachable ∧ o'.session.phase = .exiting := by
  refine h.invariant (P := fun state : ℕ × RuntimeOwners R =>
    state.2.session.Reachable ∧ state.2.session.phase = .exiting) ?_ ⟨hreach, hphase⟩
  rintro ⟨n, a⟩ ⟨m, c⟩ ⟨hreach, hphase⟩ hnext
  unfold next at hnext
  rcases iterate_exiting hreach.exitOrder hphase (P := P) (world n) with
    hfails | ⟨d, hcontinues, hexiting, hstep⟩
  · rw [hfails] at hnext
    cases hnext
  · rw [hcontinues] at hnext
    obtain ⟨-, rfl⟩ := Prod.mk.inj (Option.some.inj hnext)
    exact ⟨hreach.step _ hstep, hexiting⟩

theorem service_exited (h : Exited o) :
    o.session.backend.service notReady = .ok (none, o.session.backend) := by
  have hs := h.reachable.exitOrder
  obtain ⟨hstarted, hflush⟩ := hs.settled h.flushed
  have hcomplete : o.session.backend.exitComplete = false := by
    by_contra hcomplete
    have hphase := hs.complete (by simpa using hcomplete)
    simp [h.phase] at hphase
  simp [service, hstarted, hflush, hcomplete, notReady]

theorem backendTurn_exited (h : Exited o) (now : ℕ) :
    o.session.backendTurn notReady now = (.ok .progressed, o.session) := by
  have himmediate : (WmBackend.pollInterest o.session.backend).immediate = true :=
    immediate_of_exiting h.reachable.exitOrder h.phase
  have hservice : WmBackend.service o.session.backend notReady now =
      (.ok none, o.session.backend) := by
    change settle (o.session.backend.service notReady) = _
    rw [service_exited h]
    rfl
  unfold Session.backendTurn Session.serviceBackend
  rw [if_neg (by simp [h.phase]), if_neg (by simp [Session.due, himmediate]), hservice]

theorem iterate_exited (hexpire : ∀ now rest, (P.expireControl now rest).isSome)
    (hsubmit : ∀ now rest, (P.submitDueSnapshot now rest).isSome) (h : Exited o) (w : Polled) :
    ∃ rest, o.iterate P w = .continues { o with rest := rest } := by
  obtain ⟨rest, hrest⟩ := isSome_iff_exists.mp (hexpire w.now o.rest)
  obtain ⟨rest', hrest'⟩ := isSome_iff_exists.mp (hsubmit w.now rest)
  have hprepare : o.prepare P w.now = some { o with rest := rest' } := by
    simp only [prepare, hrest, hrest', bind_eq_bind, bind_some, advanceShutdown,
      recheckQuit, beginShutdown, h.shutdownStarted, if_true, ite_self, beginExit, h.exitStarted,
      Bool.not_true, Bool.and_false, Bool.false_and, Bool.false_eq_true, if_false]
  have himmediate := immediate_of_exiting h.reachable.exitOrder h.phase
  refine ⟨rest', ?_⟩
  simp [iterate, hprepare, runPrepared, backendReady, backendEnabled, himmediate, h.phase,
    serviceBackend, backendTurn_exited h]

theorem spins_of_exited (hexpire : ∀ now rest, (P.expireControl now rest).isSome)
    (hsubmit : ∀ now rest, (P.submitDueSnapshot now rest).isSome) (h : Exited o) :
    ¬ Loop.Halts (next P world) (0, o) := by
  refine Loop.not_halts_of_invariant (P := fun state : ℕ × RuntimeOwners R => Exited state.2) ?_ h
  rintro ⟨n, a⟩ ha
  obtain ⟨rest, hcontinues⟩ := iterate_exited hexpire hsubmit ha (world n)
  refine ⟨(n + 1, { a with rest := rest }), ?_, ?_⟩
  · simp [next, hcontinues]
  · exact ⟨ha.reachable, ha.phase, ha.flushed, ha.closed, ha.shutdownStarted, ha.exitStarted⟩

/-- The exit never completes: no iteration passes terminal readiness to the backend
or returns, and while the other owners do not fail the loop spins forever. -/
theorem exit_never_completes (P : Peripherals R) (world : ℕ → Polled) (h : Exited o) :
    (∀ n o', Loop.Reaches (next P world) (0, o) (n, o') →
      o'.iterate P (world n) ≠ .returns ∧
      ∀ c, o'.prepare P (world n).now = some c → c.backendReady (world n) = some notReady) ∧
    ((∀ now rest, (P.expireControl now rest).isSome) →
      (∀ now rest, (P.submitDueSnapshot now rest).isSome) →
      ¬ Loop.Halts (next P world) (0, o)) := by
  refine ⟨fun n o' hreaches => ?_, fun hexpire hsubmit => spins_of_exited hexpire hsubmit h⟩
  obtain ⟨hreach, hphase⟩ := reaches_exiting h.reachable h.phase hreaches
  refine ⟨fun hreturns => ?_, fun c hprepare => ?_⟩
  · rcases iterate_exiting hreach.exitOrder hphase (P := P) (world n) with
      hfails | ⟨d, hcontinues, -, -⟩
    · rw [hfails] at hreturns
      cases hreturns
    · rw [hcontinues] at hreturns
      cases hreturns
  · have himmediate := immediate_of_exiting hreach.exitOrder hphase
    rw [backendReady, prepare_exiting hphase hprepare, if_pos himmediate]

/-- Owners that never fail and have nothing to do. -/
def quietPeripherals : Peripherals Unit where
  expireControl _ rest := some rest
  submitDueSnapshot _ rest := some rest
  responseSettled _ _ := true
  beginControlShutdown _ rest := rest
  applyRepeat _ rest := some rest
  isShutdownComplete _ := true
  fenceSettled _ _ := true
  workerHasResults _ := false
  handleSessionUpdate _ _ o := some o
  serviceRepeat _ o := some o
  serviceClock _ o := some o
  serviceSampler o := some o
  serviceWorker _ o := some o
  serviceControl _ _ _ o := some o

/-- Poll reports the hangup of the backend in every iteration. -/
def hungUp (n : ℕ) : Polled where
  now := n
  later := n
  backend := some ⟨true, false, false, true, false⟩
  repeatTimer := false
  clock := false
  sampler := false
  worker := false
  control := none

/-- A live session that quits, flushes its exit request and is disconnected. -/
def plainExited : Option System :=
  System.plainLive ([some (.owner .beginDirectQuit), some (.owner .beginShutdown),
    some (.owner .beginExitSession)] ++ System.quanta 1 ++ [some (.river .closes)])

theorem exists_exited : ∃ o : RuntimeOwners Unit, Exited o := by
  have hsome : plainExited.isSome := by decide +kernel
  obtain ⟨s, hs⟩ := isSome_iff_exists.mp hsome
  have hfacts : plainExited.all (fun s => s.phase = .exiting && s.backend.exitFlushed &&
      s.backend.transport.closed) := by decide +kernel
  rw [hs] at hfacts
  simp only [all_some, Bool.and_eq_true, decide_eq_true_eq] at hfacts
  exact ⟨⟨s, (), none, true, true⟩, System.reachable_plainLive hs, hfacts.1.1, hfacts.1.2, hfacts.2,
    rfl, rfl⟩

theorem exit_never_completes_plain : ∃ o : RuntimeOwners Unit, Exited o ∧
    ∀ n o', Loop.Reaches (next quietPeripherals hungUp) (0, o) (n, o') →
      o'.iterate quietPeripherals (hungUp n) ≠ .returns := by
  obtain ⟨o, ho⟩ := exists_exited
  exact ⟨o, ho, fun n o' h => ((exit_never_completes quietPeripherals hungUp ho).1 n o' h).1⟩

/-- The exit of a plain session spins forever although poll reports the hangup. -/
theorem plain_exit_spins : ¬ ∀ (R : Type) (P : Peripherals R) (world : ℕ → Polled)
    (o : RuntimeOwners R), Exited o → (∀ n, ((world n).backend.any (·.hangup)) = true) →
      Loop.Halts (next P world) (0, o) := by
  intro h
  obtain ⟨o, ho⟩ := exists_exited
  exact spins_of_exited (fun _ _ => rfl) (fun _ _ => rfl) ho
    (h Unit quietPeripherals hungUp o ho fun _ => rfl)

end RuntimeOwners

end Realm
