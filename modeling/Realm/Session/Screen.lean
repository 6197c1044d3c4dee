import Realm.Session.LastProjection

/-!
# The screen and the ledger

What a session and its backend exchange decides what is on screen: the projection of the
last response that had one and was completed.  As long as nothing fails, a live session
without a transaction finds its last projection there, so leaving the projection out of
a response never leaves the screen different from the ledger.
-/

namespace Realm

open List

namespace Session

variable {B : Type} [WmBackend B] {s s' : Session B}

/-- What the backend and the session exchange in a run. -/
inductive Exchange where
  | answered (answer : Answer)
  | completed (ticket : BackendTicket)
  /-- A backend event or a service quantum failed. -/
  | failed

/-- The calls whose errors come from the backend. -/
def Call.fromBackend : Call B → Bool
  | .backendEvent _ | .serviceBackend _ _ => true
  | _ => false

def exchanges (s : Session B) (call : Call B) : List Exchange :=
  (s.answers call).map .answered ++
    (match call with
      | .backendEvent (.operationCompleted ticket (.ok _)) => [.completed ticket]
      | _ => []) ++
    if call.fromBackend = true ∧ s.outcome call = none then [.failed] else []

def runExchanges (s : Session B) (calls : List (Call B)) : List Exchange :=
  Trace.emitted Session.step exchanges s calls

end Session

/-- A screen that shows the projection of a response when the response is completed. -/
structure Screen where
  inFlight : Option (BackendTicket × Option (List Placement)) := none
  shown : Option (List Placement) := none

namespace Screen

def observe (screen : Screen) : Session.Exchange → Screen
  | .answered answer =>
    match answer.result with
    | .ok .complete => ⟨none, answer.response.projection.or screen.shown⟩
    | .ok .pending => ⟨some (answer.ticket, answer.response.projection), screen.shown⟩
    | .error _ => screen
  | .completed ticket =>
    match screen.inFlight with
    | some (expected, projection) =>
      if ticket = expected then ⟨none, projection.or screen.shown⟩ else screen
    | none => screen
  | .failed => screen

def after (log : List Session.Exchange) : Screen := log.foldl observe {}

end Screen

namespace Session

variable {B : Type} {s s' : Session B} {shown : Option (List Placement)}
  {active : ActiveTransaction}

/-- The screen shows what the session works from, unless nothing was shown yet and the
session is not live. -/
def Expects (s : Session B) (shown : Option (List Placement)) : Prop :=
  shown = some s.shownBase ∨ s.submittedBase = false ∧ shown = none ∧ s.phase ≠ .live

/-- The screen shows what the session expects; while a response is in flight, once that
response is completed. -/
structure OnScreen (s : Session B) (screen : Screen) : Prop where
  rest : (∀ ticket, s.transaction ≠ .inFlight ticket) → s.Expects screen.shown
  inFlight : ∀ ticket, s.transaction = .inFlight ticket →
    ∃ projection, screen.inFlight = some (ticket, projection) ∧
      s.Expects (projection.or screen.shown)

theorem Expects.of_same (h : s.Expects shown)
    (hactive : s'.active = s.active) (hprojection : s'.lastProjection = s.lastProjection)
    (hphase : s'.phase = s.phase) : s'.Expects shown := by
  have hby : s'.shownBy = s.shownBy := by
    funext active
    rw [shownBy, shownBy, hprojection]
  unfold Expects shownBase submittedBase at *
  rw [hactive, hprojection, hphase, hby]
  exact h

theorem OnScreen.of_same {screen : Screen} (h : OnScreen s screen)
    (hactive : s'.active = s.active) (htransaction : s'.transaction = s.transaction)
    (hprojection : s'.lastProjection = s.lastProjection) (hphase : s'.phase = s.phase) :
    OnScreen s' screen := by
  refine ⟨fun hrest => ?_, fun ticket hticket => ?_⟩
  · exact (h.rest (htransaction ▸ hrest)).of_same hactive hprojection hphase
  · obtain ⟨projection, hinFlight, hexpects⟩ := h.inFlight ticket (htransaction ▸ hticket)
    exact ⟨projection, hinFlight, hexpects.of_same hactive hprojection hphase⟩

theorem expects_of_idle (hactive : s.active = none) :
    s.Expects shown ↔ shown = some s.lastProjection ∨ shown = none ∧ s.phase ≠ .live := by
  simp [Expects, shownBase, submittedBase, hactive]

theorem expects_of_active (hactive : s.active = some active) :
    s.Expects shown ↔ shown = some (s.shownBy active) ∨
      active.projectionSubmitted = false ∧ shown = none ∧ s.phase ≠ .live := by
  simp [Expects, shownBase, submittedBase, hactive]

theorem expects_finalizeActive {c : Session B} (h : shown = some (c.shownBy active) ∨
      active.projectionSubmitted = false ∧ shown = none ∧ c.phase ≠ .live) :
    (c.finalizeActive active).2.Expects shown := by
  refine (expects_of_idle rfl).mpr ?_
  obtain ⟨_, _, _, _, heq⟩ := c.exists_finalizeActive active
  rw [heq]
  rcases h with h | ⟨hsubmitted, hnone, hphase⟩
  · exact .inl h
  · refine .inr ⟨hnone, ?_⟩
    simp only [commitActive, enteringLive, hsubmitted, Bool.and_false]
    grind

theorem Expects.answered (h : s.Expects shown)
    (htracks : Tracks s.shownBase s.submittedBase active) :
    (s.deriveResponse active).response.projection.or shown =
        some (s.shownBy (submit (s.deriveResponse active))) ∨
      (submit (s.deriveResponse active)).projectionSubmitted = false ∧
        (s.deriveResponse active).response.projection.or shown = none ∧ s.phase ≠ .live := by
  have hprojection := deriveResponse_projection htracks s
  rw [shownBy_submit htracks]
  cases hrequired : active.projectionRequired with
  | true =>
    rw [hprojection, hrequired]
    exact .inl rfl
  | false =>
    rw [hrequired] at hprojection
    have hsubmitted : (submit (s.deriveResponse active)).projectionSubmitted = s.submittedBase := by
      change (active.projectionSubmitted ||
        (s.deriveResponse active).response.projection.isSome) = _
      rw [hprojection, htracks.submitted]
      exact Bool.or_false _
    rw [hprojection, hsubmitted, htracks.same hrequired]
    exact h

theorem not_serving_of_phase {phase : SessionLifecyclePhase}
    (h : phase = .quitPending ∨ phase = .shuttingDown ∨ phase = .exiting ∨ phase = .exitComplete)
    (hphase : s.phase = phase) : ¬ s.Serving := by
  rcases h with rfl | rfl | rfl | rfl <;> simp [Serving, hphase]

/-- The invariant of runs: as long as nothing failed, a session that serves finds on
screen what it expects. -/
structure Shows (log : List Exchange) (s : Session B) : Prop where
  orderly : s.Orderly
  clean : s.Clean
  onScreen : .failed ∉ log → s.Serving → OnScreen s (Screen.after log)

theorem Fresh.shows {snapshot : Option ValidatedSnapshot} (h : Fresh snapshot s) : Shows [] s := by
  refine ⟨orderly_of_ended h.active h.transaction, h.clean, fun _ _ => ⟨fun _ => ?_, ?_⟩⟩
  · exact (expects_of_idle h.active).mpr (.inr ⟨rfl, by simp [h.phase]⟩)
  · simp [h.transaction]

section Steps

variable [WmBackend B] {screen : Screen} {outcome : Option SessionUpdate}

theorem Owned.onScreen (h : Owned s outcome s') (ho : s.Orderly) (hs : s.Clean)
    (hserving : s'.Serving) (hscreen : s.Serving → OnScreen s screen) : OnScreen s' screen := by
  have hidle (hready : s.ready = true) : s.active = none ∧ s.transaction = .idle :=
    ⟨ho.active_eq_none hready, transaction_of_ready hready⟩
  cases h with
  | quiet h =>
    have hsame := h.sameExchange
    refine (hscreen ?_).of_same hsame.active hsame.transaction hsame.lastProjection hsame.phase
    rwa [Serving, ← hsame.phase]
  | @admits _ backend active transaction h _ _ =>
    obtain ⟨hactive, htransaction⟩ := hidle h.ready
    obtain ⟨ticket, -, hticket⟩ := h.transaction
    have hsubmitted := (h.tracks hs).submitted
    refine ⟨fun _ => (expects_of_active rfl).mpr ?_, fun ticket hinFlight => ?_⟩
    · rw [shownBy, hsubmitted]
      refine ((expects_of_idle hactive).mp ((hscreen hserving).rest ?_)).imp_right fun h => ?_
      · simp [htransaction]
      · exact ⟨rfl, h⟩
    · rcases hticket with rfl | rfl <;> cases hinFlight
  | refused hready =>
    obtain ⟨hactive, htransaction⟩ := hidle hready
    exact (hscreen hserving).of_same hactive.symm htransaction.symm rfl rfl
  | leaves h => exact absurd hserving (not_serving_of_phase (h.imp_right .inl) rfl)
  | exits => exact absurd hserving (not_serving_of_phase (.inr (.inr (.inl rfl))) rfl)

theorem Acts.onScreen (h : Acts s outcome s') (ho : s.Orderly) (hs : s.Clean)
    (hserving : s'.Serving) (hscreen : s.Serving → OnScreen s screen) : OnScreen s' screen := by
  cases h with
  | owned h => exact h.onScreen ho hs hserving hscreen
  | moves => exact (hscreen hserving).of_same rfl rfl rfl rfl
  | attempts _ hphase => exact absurd hserving (not_serving_of_phase (.inr (.inl rfl)) hphase)
  | completes => exact absurd hserving (not_serving_of_phase (.inr (.inr (.inr rfl))) rfl)

theorem Handled.onScreen {event : BackendEvent} {update : SessionUpdate}
    (h : Handled s event update s') (hs : s.Clean) (hserving : s.Serving)
    (hscreen : OnScreen s screen) (houtcome : s.outcome (.backendEvent event) = some update) :
    OnScreen s' ((s.exchanges (.backendEvent event)).foldl Screen.observe screen) := by
  cases h with
  | @turn turn ticket last active backend backend' submission hvalid hticket hreduce hrespond =>
    have hanswer := answer_of_turn hserving hvalid hticket hreduce
    have hrest : ∀ ticket, s.transaction ≠ .inFlight ticket := by
      intro ticket htransaction
      have hawaits := (awaits_of_validatePolicyTurn hvalid).1
      rw [htransaction] at hawaits
      exact hawaits
    have hexpects := (hscreen.rest hrest).answered (hs.reduceTurn hreduce)
    rw [hrespond] at hanswer
    simp only [exchanges, answers, hanswer, houtcome, Option.toList_some, map_cons,
      map_nil, append_nil, reduceCtorEq, and_false, if_false, foldl_cons, foldl_nil]
    cases submission with
    | complete =>
      refine ⟨fun _ => expects_finalizeActive hexpects, fun _ hinFlight => ?_⟩
      cases hinFlight
    | pending =>
      refine ⟨fun hrest => absurd rfl (hrest ticket), fun _ hinFlight => ?_⟩
      obtain rfl := TransactionSubstate.inFlight.inj hinFlight
      refine ⟨_, rfl, (expects_of_active rfl).mpr ?_⟩
      refine hexpects.imp_right fun hold => ⟨hold.1, hold.2.1, ?_⟩
      change (if active.bootstrap then .finalizingReplay else s.phase) ≠ _
      grind
  | @completed ticket active htransaction hactive =>
    obtain ⟨projection, hinFlight, hexpects⟩ := hscreen.inFlight ticket htransaction
    simp only [exchanges, answers, houtcome, map_nil, nil_append, reduceCtorEq,
      and_false, if_false, append_nil, foldl_cons, foldl_nil, Screen.observe, hinFlight, if_true]
    exact ⟨fun _ => hexpects.of_same rfl rfl rfl, fun _ hinFlight => by cases hinFlight⟩
  | @drained ticket active htransaction hactive =>
    have hrest : ∀ ticket, s.transaction ≠ .inFlight ticket := by simp [htransaction]
    simp only [exchanges, answers, houtcome, map_nil, nil_append, reduceCtorEq,
      and_false, if_false, foldl_nil]
    refine ⟨fun _ => expects_finalizeActive ((expects_of_active hactive).mp
      (hscreen.rest hrest)), fun _ hinFlight => ?_⟩
    cases hinFlight

theorem exchanges_eq_nil {call : Call B} (hcall : ∀ event, call ≠ .backendEvent event)
    (h : .failed ∉ s.exchanges call) : s.exchanges call = [] := by
  cases call with
  | backendEvent event => exact absurd rfl (hcall event)
  | serviceBackend ready now =>
    by_cases hnone : s.outcome (.serviceBackend ready now) = none <;>
      simp_all [exchanges, answers, Call.fromBackend]
  | _ => rfl

theorem Shows.step {log : List Exchange} (h : Shows log s) (call : Call B) :
    Shows (log ++ s.exchanges call) (s.step call) := by
  refine ⟨h.orderly.step call, h.clean.step h.orderly call, fun hfailed hserving => ?_⟩
  have hbefore : .failed ∉ log := fun hmem => hfailed (mem_append_left _ hmem)
  have hscreen := h.onScreen hbefore
  have hemitted : .failed ∉ s.exchanges call := fun hmem => hfailed (mem_append_right _ hmem)
  rw [Screen.after, foldl_append]
  change OnScreen _ ((s.exchanges call).foldl Screen.observe (Screen.after log))
  have hstep := s.step_spec call
  generalize houtcome : s.outcome call = outcome, s.step call = s' at hstep hserving ⊢
  cases hstep with
  | acts hcall hacts =>
    rw [exchanges_eq_nil hcall hemitted]
    exact hacts.onScreen h.orderly h.clean hserving hscreen
  | drops => simp [exchanges, answers, Call.fromBackend, houtcome] at hemitted
  | handles hs hhandled => exact hhandled.onScreen h.clean hs (hscreen hs) houtcome
  | fails => simp [exchanges, Call.fromBackend, houtcome] at hemitted

/-- In every run the last projection is the one of the committed authority.  When the
session is live without a transaction and no event or quantum of the backend has failed,
it is also the last projection that was completed. -/
theorem screen_follows_ledger {backend : B} {snapshot : Option ValidatedSnapshot} {keymap : Keymap}
    (h : connect backend snapshot keymap = .ok s) (calls : List (Call B)) :
    (calls.foldl Session.step s).lastProjection =
        projectAuthority (calls.foldl Session.step s).currentAuthority ∧
      ((calls.foldl Session.step s).phase = .live →
        (calls.foldl Session.step s).transaction = .idle → .failed ∉ s.runExchanges calls →
        (Screen.after (s.runExchanges calls)).shown =
          some (calls.foldl Session.step s).lastProjection) := by
  have hshows := Trace.invariant (P := Shows) (fun _ _ call h => h.step call) calls
    (fresh_of_connect h).shows
  refine ⟨hshows.clean.committed, fun hlive hidle hfailed => ?_⟩
  have hscreen := hshows.onScreen hfailed (by simp [Serving, hlive])
  have hexpects := hscreen.rest (by simp [hidle])
  rcases (expects_of_idle (hshows.orderly.paired.mpr hidle)).mp hexpects with hshown | ⟨_, hphase⟩
  · exact hshown
  · exact absurd hlive hphase

/-- A session that shows one window. -/
theorem screen_follows_prompt : ∃ s : Session PromptBackend,
    (promptTurns.foldl Session.step s).lastProjection.length = 1 ∧
      (Screen.after (s.runExchanges promptTurns)).shown =
        some (promptTurns.foldl Session.step s).lastProjection := by
  have hconnect : ∃ s, connect PromptBackend.mk none Keymap.default = .ok s ∧
      (promptTurns.foldl Session.step s).lastProjection.length = 1 ∧
      (promptTurns.foldl Session.step s).phase = .live ∧
      (promptTurns.foldl Session.step s).transaction = .idle ∧
      (s.runExchanges promptTurns).all (fun e => match e with | .failed => false | _ => true) :=
    ⟨_, rfl, by decide +kernel, by decide +kernel, by decide +kernel, by decide +kernel⟩
  obtain ⟨s, hs, hlength, hlive, hidle, hfailed⟩ := hconnect
  refine ⟨s, hlength, (screen_follows_ledger hs promptTurns).2 hlive hidle fun hmem => ?_⟩
  exact absurd (all_eq_true.mp hfailed _ hmem) (by simp)

end Steps

end Session

end Realm
