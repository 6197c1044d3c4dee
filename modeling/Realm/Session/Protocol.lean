import Realm.Lib.Trace
import Realm.Session.Atomicity

/-!
# The transaction protocol

What a session exchanges with its backend: it answers policy turns under a ticket, and a
pending answer is completed under that ticket before the session drains it.  Every other
order of events fails and ends the transaction.  Over a whole run the answered turns and
the tickets only go up.
-/

namespace Realm

open Option List

/-- A call of the backend's respond method and its result. -/
structure Answer where
  turn : BackendPolicyTurnId
  ticket : BackendTicket
  response : BackendPolicyResponse
  result : BackendResult BackendSubmission

namespace TransactionSubstate

/-- The drain tag a turn must carry in the substate. -/
def Awaits : TransactionSubstate → Option BackendTicket → Prop
  | .idle, drains => drains = none
  | .awaitingExternalTurn _, drains => drains = none
  | .awaitingInternalTurn _, drains => drains = none
  | .inFlight _, _ => False
  | .awaitingDrain ticket, drains => drains = some ticket

/-- The event is the next one of the transaction. -/
def InOrder (transaction : TransactionSubstate) : BackendEvent → Prop
  | .policyTurn turn => transaction.Awaits turn.drains
  | .operationCompleted ticket (.ok _) => transaction = .inFlight ticket
  | .operationCompleted _ (.error _) => False
  | .retainedObservationsDrained ticket => transaction = .awaitingDrain ticket
  | .disconnected => False

/-- The orders of events inside a transaction: a turn is answered, and the backend
completes it at once or leaves it pending; a pending answer is completed under its
ticket, and then it is drained under the same ticket, alone or with the next turn. -/
inductive Accepts : TransactionSubstate → BackendEvent → Option Answer → TransactionSubstate → Prop
  | complete {transaction : TransactionSubstate} {turn : BackendPolicyTurn} {answer : Answer}
      (h : transaction.Awaits turn.drains) (hturn : answer.turn = turn.id)
      (hresult : answer.result = .ok .complete) :
      Accepts transaction (.policyTurn turn) (some answer) .idle
  | pending {transaction : TransactionSubstate} {turn : BackendPolicyTurn} {answer : Answer}
      (h : transaction.Awaits turn.drains) (hturn : answer.turn = turn.id)
      (hresult : answer.result = .ok .pending) :
      Accepts transaction (.policyTurn turn) (some answer) (.inFlight answer.ticket)
  | completed (ticket : BackendTicket) :
      Accepts (.inFlight ticket) (.operationCompleted ticket (.ok ())) none (.awaitingDrain ticket)
  | drained (ticket : BackendTicket) :
      Accepts (.awaitingDrain ticket) (.retainedObservationsDrained ticket) none .idle

/-- The ticket of a transaction that waits for its turn. -/
def awaitedTicket : TransactionSubstate → Option BackendTicket
  | .awaitingExternalTurn ticket => some ticket
  | .awaitingInternalTurn ticket => some ticket
  | _ => none

end TransactionSubstate

namespace Session

variable {B : Type} {s s' : Session B} {turn : BackendPolicyTurn} {ticket : BackendTicket}
  {a : Answer} {event : BackendEvent} {last : ℕ}

theorem awaits_of_checkSequence (h : s.checkSequence turn = .ok ()) :
    s.transaction.Awaits turn.drains ∧ ∀ last ∈ s.lastPolicyTurn, last.raw < turn.id.raw := by
  unfold checkSequence at h
  split at h
  · cases h
  rename_i hnew
  refine ⟨?_, fun last hlast => ?_⟩
  · split at h <;> rename_i htransaction <;> rw [htransaction]
    all_goals try
      split at h
      · assumption
      · cases h
    cases h
  · simp only [mem_def] at hlast
    simpa [hlast] using hnew

theorem awaits_of_validatePolicyTurn (h : s.validatePolicyTurn turn = .ok ()) :
    s.transaction.Awaits turn.drains ∧ ∀ last ∈ s.lastPolicyTurn, last.raw < turn.id.raw := by
  obtain ⟨_, hsequence, -⟩ := Guard.bind_eq_ok.mp h
  exact awaits_of_checkSequence hsequence

theorem responseTicket_eq_ok (h : s.responseTicket = .ok (ticket, last)) :
    s.transaction.awaitedTicket = none ∧ ticket.raw = s.lastBackendTicket + 1 ∧
        last = s.lastBackendTicket + 1 ∨
      s.transaction.awaitedTicket = some ticket ∧ last = s.lastBackendTicket := by
  unfold responseTicket at h
  split at h <;> rename_i htransaction <;> rw [htransaction]
  case h_1 | h_2 =>
    split at h
    · rename_i hticket
      obtain ⟨hraw, rfl⟩ := allocateTicket_eq_some hticket
      cases h
      exact .inl ⟨rfl, hraw, rfl⟩
    · cases h
  case h_3 | h_4 =>
    cases h
    exact .inr ⟨rfl, rfl⟩
  case h_5 => cases h

theorem le_of_responseTicket (h : s.responseTicket = .ok (ticket, last)) :
    s.lastBackendTicket ≤ last := by
  rcases responseTicket_eq_ok h with ⟨-, -, rfl⟩ | ⟨-, rfl⟩
  · exact Nat.le_succ _
  · exact le_rfl

/-- What a step does to the tickets: it lifts the last one by at most one, and a
transaction that waits for its turn was waiting before or waits with the new ticket. -/
structure Counts (s s' : Session B) : Prop where
  le : s.lastBackendTicket ≤ s'.lastBackendTicket
  awaited : ∀ ticket, s'.transaction.awaitedTicket = some ticket →
    s.transaction.awaitedTicket = some ticket ∧ s'.lastBackendTicket = s.lastBackendTicket ∨
      s.transaction.awaitedTicket = none ∧ ticket.raw = s.lastBackendTicket + 1 ∧
        s'.lastBackendTicket = s.lastBackendTicket + 1

theorem counts_of_same (hticket : s'.lastBackendTicket = s.lastBackendTicket)
    (htransaction : s'.transaction = s.transaction) : Counts s s' :=
  ⟨hticket.ge, fun _ h => .inl ⟨htransaction ▸ h, hticket⟩⟩

theorem counts_of_ended (hticket : s.lastBackendTicket ≤ s'.lastBackendTicket)
    (htransaction : s'.transaction.awaitedTicket = none) : Counts s s' :=
  ⟨hticket, fun _ h => by simp [htransaction] at h⟩

theorem counts_of_finalizeActive {c : Session B} (active : ActiveTransaction)
    (hticket : s.lastBackendTicket ≤ c.lastBackendTicket) :
    Counts s (c.finalizeActive active).2 := by
  obtain ⟨_, _, _, _, heq⟩ := c.exists_finalizeActive active
  rw [heq]
  exact counts_of_ended hticket rfl

/-- A transaction that waits for its turn waits with the last ticket. -/
def Ticketed (s : Session B) : Prop :=
  ∀ ticket, s.transaction.awaitedTicket = some ticket → ticket.raw = s.lastBackendTicket

theorem Fresh.ticketed {snapshot : Option ValidatedSnapshot} (h : Fresh snapshot s) :
    s.Ticketed := by
  intro ticket hticket
  rw [h.transaction] at hticket
  cases hticket

def turnMark (s : Session B) : ℕ := (s.lastPolicyTurn.map (·.raw)).getD 0

theorem turnMark_lt (h : s.validatePolicyTurn turn = .ok ()) : s.turnMark < turn.id.raw := by
  have hlast := (awaits_of_validatePolicyTurn h).2
  unfold turnMark
  cases hturn : s.lastPolicyTurn with
  | none => exact turn.id.pos
  | some last => exact hlast last hturn

variable [WmBackend B] {update : SessionUpdate} {call : Call B}

/-- The answer that handling a turn gives to the backend. -/
def answer (s : Session B) (turn : BackendPolicyTurn) : Option Answer :=
  if s.phase ∈ [SessionLifecyclePhase.quitPending, .shuttingDown, .exiting, .exitComplete] then none
  else
    match s.validatePolicyTurn turn, s.responseTicket, s.reduceTurn turn.events with
    | .ok (), .ok (ticket, _), (.ok active, backend) =>
      let response := (s.deriveResponse active).response
      some ⟨turn.id, ticket, response,
        (WmBackend.respondPolicyTurn backend turn.id ticket response).1⟩
    | _, _, _ => none

def answers (s : Session B) : Call B → List Answer
  | .backendEvent (.policyTurn turn) => (s.answer turn).toList
  | _ => []

/-- The ticket that a call puts into operation: the one of a transaction it admits, or of
an answer that no admitted transaction waited for. -/
def operations (s : Session B) (call : Call B) : List BackendTicket :=
  match s.transaction.awaitedTicket with
  | some _ => []
  | none => (s.step call).transaction.awaitedTicket.toList ++ (s.answers call).map (·.ticket)

/-! ## Answers -/

theorem answer_of_turn {active : ActiveTransaction} {backend : B} (hs : s.Serving)
    (hvalid : s.validatePolicyTurn turn = .ok ()) (hticket : s.responseTicket = .ok (ticket, last))
    (hreduce : s.reduceTurn turn.events = (.ok active, backend)) :
    s.answer turn = some ⟨turn.id, ticket, (s.deriveResponse active).response,
      (WmBackend.respondPolicyTurn backend turn.id ticket (s.deriveResponse active).response).1⟩ :=
        by
  rw [answer, if_neg hs]
  simp only [hvalid, hticket, hreduce]

theorem exists_of_answer (h : s.answer turn = some a) :
    s.Serving ∧ s.validatePolicyTurn turn = .ok () ∧ ∃ last active backend,
      s.responseTicket = .ok (a.ticket, last) ∧ s.reduceTurn turn.events = (.ok active, backend) ∧
      a = ⟨turn.id, a.ticket, (s.deriveResponse active).response,
        (WmBackend.respondPolicyTurn backend turn.id a.ticket
          (s.deriveResponse active).response).1⟩ := by
  unfold answer at h
  split at h
  · cases h
  rename_i hs
  split at h
  · rename_i hvalid hticket hreduce
    cases h
    exact ⟨hs, hvalid, _, _, _, hticket, hreduce, rfl⟩
  · cases h

theorem counters_of_answer (h : s.answer turn = some a) :
    ∃ last, s.responseTicket = .ok (a.ticket, last) ∧
      (s.step (.backendEvent (.policyTurn turn))).lastPolicyTurn = some turn.id ∧
      (s.step (.backendEvent (.policyTurn turn))).lastBackendTicket = last ∧
      (s.step (.backendEvent (.policyTurn turn))).transaction.awaitedTicket = none := by
  obtain ⟨hs, hvalid, last, active, backend, hticket, hreduce, -⟩ := exists_of_answer h
  refine ⟨last, hticket, ?_⟩
  have hphase : s.phase ∉
    [SessionLifecyclePhase.quitPending, .shuttingDown, .exiting, .exitComplete] := hs
  simp only [step, handleBackendEvent, if_neg hphase, handlePolicyTurn, hvalid, hticket,
    hreduce]
  split
  · exact ⟨rfl, rfl, rfl⟩
  · rename_i submission backend' _
    cases submission with
    | pending => exact ⟨rfl, rfl, rfl⟩
    | complete =>
      simp only [settleSubmission]
      obtain ⟨_, _, _, _, heq⟩ := exists_finalizeActive { s with
        backend := backend'
        lastBackendTicket := last
        lastPolicyTurn := some turn.id } { s.deriveResponse active with
          closeTarget := none
          projectionSubmitted := (s.deriveResponse active).projectionSubmitted ||
            (s.deriveResponse active).response.projection.isSome }
      rw [heq]
      exact ⟨rfl, rfl, rfl⟩

/-! ## The order of events -/

/-- An event out of order is rejected: the session drops the transaction and does not
touch the backend. -/
theorem rejected_of_not_inOrder (h : ¬ s.transaction.InOrder event) :
    (∃ error, s.handleBackendEvent event = (.error error, s.abandonPrivateTransaction)) ∧
      s.answers (.backendEvent event) = [] := by
  have hturn (turn : BackendPolicyTurn) (hevent : event = .policyTurn turn) :
      ∃ error, s.validatePolicyTurn turn = .error error := by
    subst hevent
    cases hvalid : s.validatePolicyTurn turn with
    | error error => exact ⟨error, rfl⟩
    | ok => exact absurd (awaits_of_validatePolicyTurn hvalid).1 h
  constructor
  · unfold handleBackendEvent
    split
    · exact ⟨_, rfl⟩
    cases event with
    | policyTurn turn =>
      obtain ⟨error, herror⟩ := hturn turn rfl
      exact ⟨error, by simp [handlePolicyTurn, herror]⟩
    | operationCompleted ticket result =>
      simp only [handleOperationCompleted]
      split
      · rename_i expected htransaction
        split
        · exact ⟨_, rfl⟩
        rename_i hticket
        obtain rfl := not_not.mp hticket
        cases result with
        | error => exact ⟨_, rfl⟩
        | ok => exact absurd htransaction h
      · exact ⟨_, rfl⟩
    | retainedObservationsDrained =>
      simp only [handleObservationsDrained]
      split
      · rename_i expected htransaction
        split
        · exact ⟨_, rfl⟩
        rename_i hticket
        obtain rfl := not_not.mp hticket
        exact absurd htransaction h
      · exact ⟨_, rfl⟩
    | disconnected => exact ⟨_, rfl⟩
  · cases event with
    | policyTurn turn =>
      obtain ⟨error, herror⟩ := hturn turn rfl
      simp [answers, answer, herror]
    | _ => rfl

theorem Handled.accepts (hs : s.Serving) (h : Handled s event update s') :
    s.transaction.Accepts event (s.answers (.backendEvent event)).head? s'.transaction := by
  cases h with
  | @turn turn ticket last active backend backend' submission hvalid hticket hreduce hrespond =>
    have hawaits := (awaits_of_validatePolicyTurn hvalid).1
    have hanswer := answer_of_turn hs hvalid hticket hreduce
    simp only [answers, hanswer, toList_some, head?_cons]
    rw [hrespond]
    cases submission with
    | pending => exact .pending hawaits rfl rfl
    | complete => exact .complete hawaits rfl rfl
  | completed htransaction =>
    rw [htransaction]
    exact .completed _
  | drained htransaction =>
    rw [htransaction]
    exact .drained _

theorem Failed.ends (ho : s.Orderly) (h : Failed s event s') :
    s'.active = none ∧ s'.transaction = .idle := by
  cases h with
  | unpaired h =>
    rcases h with h | h
    · exact ⟨h, ho.paired.mp h⟩
    · exact ⟨ho.paired.mpr h, h⟩
  | _ => exact ⟨rfl, rfl⟩

theorem result_of_outcome_none
    (h : s.outcome (.backendEvent event) = none) (ha : a ∈ s.answers (.backendEvent event)) :
    ∃ error, a.result = .error error := by
  cases event with
  | policyTurn =>
    obtain ⟨hs, hvalid, last, active, backend, hticket, hreduce, heq⟩ :=
      exists_of_answer (mem_toList.mp ha)
    have hphase : s.phase ∉
      [SessionLifecyclePhase.quitPending, .shuttingDown, .exiting, .exitComplete] := hs
    simp only [outcome, handleBackendEvent, if_neg hphase, handlePolicyTurn, hvalid, hticket,
      hreduce] at h
    rw [heq]
    split at h
    · rename_i error _ hrespond
      exact ⟨error, by rw [hrespond]⟩
    · simp [Except.toOption] at h
  | _ => simp [answers] at ha

/-! ## Tickets and turns of a run -/

theorem Owned.counts {outcome : Option SessionUpdate} (h : Owned s outcome s') : Counts s s' := by
  cases h with
  | quiet h => exact counts_of_same h.sameExchange.lastBackendTicket h.sameExchange.transaction
  | admits h =>
    refine ⟨Nat.le_succ _, fun ticket hticket => .inr ?_⟩
    rw [transaction_of_ready h.ready]
    obtain ⟨ticket', hraw, rfl | rfl⟩ := h.transaction <;> obtain rfl := some.inj hticket <;>
      exact ⟨rfl, hraw, rfl⟩
  | refused => exact counts_of_ended (Nat.le_succ _) rfl
  | leaves => exact counts_of_ended le_rfl rfl
  | exits => exact counts_of_same rfl rfl

theorem Failed.counts (h : Failed s event s') : Counts s s' := by
  cases h with
  | rejected => exact counts_of_ended le_rfl rfl
  | unpaired => exact counts_of_same rfl rfl
  | unreduced _ hticket => exact counts_of_ended (le_of_responseTicket hticket) rfl
  | unanswered _ hticket => exact counts_of_ended (le_of_responseTicket hticket) rfl

theorem Handled.counts (h : Handled s event update s') : Counts s s' := by
  cases h with
  | @turn _ _ _ _ _ _ submission _ hticket =>
    have hle := le_of_responseTicket hticket
    cases submission with
    | pending => exact counts_of_ended hle rfl
    | complete => exact counts_of_finalizeActive _ hle
  | completed => exact counts_of_ended le_rfl rfl
  | drained => exact counts_of_finalizeActive _ le_rfl

theorem counts_step (s : Session B) (call : Call B) : Counts s (s.step call) := by
  have hstep := s.step_spec call
  generalize s.outcome call = outcome, s.step call = s' at hstep
  cases hstep with
  | acts _ h =>
    cases h with
    | owned h => exact h.counts
    | _ => exact counts_of_same rfl rfl
  | drops => exact counts_of_ended le_rfl rfl
  | handles _ h | fails h => exact h.counts

theorem Ticketed.step (h : s.Ticketed) (call : Call B) : (s.step call).Ticketed := by
  intro ticket hticket
  rcases (s.counts_step call).awaited ticket hticket with ⟨hbefore, hlast⟩ | ⟨-, hraw, hlast⟩
  · rw [hlast]
    exact h ticket hbefore
  · rw [hlast, hraw]

/-- The last ticket that was answered or given up. -/
def ticketMark (s : Session B) : ℕ :=
  s.lastBackendTicket - if s.transaction.awaitedTicket.isSome then 1 else 0

theorem ticketMark_step (s : Session B) (call : Call B) :
    s.ticketMark ≤ (s.step call).ticketMark := by
  have hcounts := s.counts_step call
  have hle := hcounts.le
  unfold ticketMark
  cases hawaited : (s.step call).transaction.awaitedTicket with
  | none =>
    simp only [isSome_none]
    grind
  | some ticket =>
    rcases hcounts.awaited ticket hawaited with ⟨hbefore, hlast⟩ | ⟨hbefore, -, hlast⟩ <;>
      simp [hbefore, hlast]

theorem turnMark_step (s : Session B) (call : Call B) : s.turnMark ≤ (s.step call).turnMark := by
  have hsame {s' : Session B} (h : s'.lastPolicyTurn = s.lastPolicyTurn) :
      s.turnMark ≤ s'.turnMark := by
    rw [turnMark, turnMark, h]
  have hturn {s' : Session B} {turn : BackendPolicyTurn}
      (hvalid : s.validatePolicyTurn turn = .ok ())
      (h : s'.lastPolicyTurn = some turn.id) : s.turnMark ≤ s'.turnMark := by
    rw [turnMark.eq_1 s', h]
    exact (turnMark_lt hvalid).le
  have hfinal (c : Session B) (active : ActiveTransaction) :
      (c.finalizeActive active).2.lastPolicyTurn = c.lastPolicyTurn := by
    obtain ⟨_, _, _, _, heq⟩ := c.exists_finalizeActive active
    rw [heq]
    rfl
  have hstep := s.step_spec call
  generalize s.outcome call = outcome, s.step call = s' at hstep
  cases hstep with
  | acts _ h =>
    cases h with
    | owned h =>
      cases h with
      | quiet h => exact hsame h.sameExchange.lastPolicyTurn
      | _ => exact hsame rfl
    | _ => exact hsame rfl
  | drops => exact hsame rfl
  | handles _ h =>
    cases h with
    | @turn _ _ _ _ _ _ submission hvalid =>
      cases submission with
      | pending => exact hturn hvalid rfl
      | complete => exact hturn hvalid (hfinal _ _)
    | completed => exact hsame rfl
    | drained => exact hsame (hfinal _ _)
  | fails h =>
    cases h with
    | unanswered hvalid => exact hturn hvalid rfl
    | _ => exact hsame rfl

def runAnswers (s : Session B) (calls : List (Call B)) : List Answer :=
  Trace.emitted step answers s calls

/-! ## A backend that keeps what it is asked -/

/-- A backend with the list of the answers it was given. -/
structure Recorder (B : Type) where
  inner : B
  answered : List Answer

instance : WmBackend (Recorder B) where
  connect b := (WmBackend.connect b.inner).map id (⟨·, b.answered⟩)
  assignWindow b bid win := (WmBackend.assignWindow b.inner bid win).map id (⟨·, b.answered⟩)
  configureBindings b specs := (WmBackend.configureBindings b.inner specs).map id (⟨·, b.answered⟩)
  requestPolicyTurn b := (WmBackend.requestPolicyTurn b.inner).map id (⟨·, b.answered⟩)
  respondPolicyTurn b turn ticket response :=
    let (result, inner) := WmBackend.respondPolicyTurn b.inner turn ticket response
    (result, ⟨inner, b.answered ++ [⟨turn, ticket, response, result⟩]⟩)
  beginExitSession b policy := (WmBackend.beginExitSession b.inner policy).map id (⟨·, b.answered⟩)
  pollInterest b := WmBackend.pollInterest b.inner
  service b ready now := (WmBackend.service b.inner ready now).map id (⟨·, b.answered⟩)

omit [WmBackend B] in
theorem backend_finalizeActive (s : Session B) (active : ActiveTransaction) :
    (s.finalizeActive active).2.backend = s.backend := by
  obtain ⟨_, _, _, _, heq⟩ := s.exists_finalizeActive active
  rw [heq]
  rfl

namespace Recorder

variable {b b' : Recorder B}

theorem answered_of_assigns (h : Assigns b b') : b'.answered = b.answered := by
  induction h with
  | refl => rfl
  | tail _ hassign ih =>
    obtain ⟨_, _, _, hassign⟩ := hassign
    cases hassign
    exact ih

theorem answered_of_respond {turn : BackendPolicyTurnId} {response : BackendPolicyResponse}
    {result : BackendResult BackendSubmission}
    (h : WmBackend.respondPolicyTurn b turn ticket response = (result, b')) :
    b'.answered = b.answered ++ [⟨turn, ticket, response, result⟩] := by
  cases h
  rfl

variable {s s' : Session (Recorder B)} {call : Call (Recorder B)}

theorem answered_of_owned {outcome : Option SessionUpdate} (h : Owned s outcome s') :
    s'.backend.answered = s.backend.answered := by
  cases h with
  | quiet h => rw [h.sameExchange.backend]
  | admits _ hrequest | refused _ hrequest => exact congrArg (·.2.answered) hrequest.symm
  | leaves => rfl
  | exits _ h => exact congrArg (·.2.answered) h.symm

theorem answered_handlePolicyTurn (hs : s.Serving) (turn : BackendPolicyTurn) :
    (s.handlePolicyTurn turn).2.backend.answered =
      s.backend.answered ++ (s.answer turn).toList := by
  rw [answer, if_neg hs]
  unfold handlePolicyTurn
  cases s.validatePolicyTurn turn with
  | error => simp [abandonPrivateTransaction]
  | ok =>
    cases s.responseTicket with
    | error =>
      dsimp only
      split <;> simp [abandonPrivateTransaction]
    | ok ticket =>
      cases hreduce : s.reduceTurn turn.events with
      | mk reduced backend =>
        have hassigns := answered_of_assigns (assigns_reduceTurn hreduce)
        cases reduced with
        | error => simp [abandonPrivateTransaction, hassigns]
        | ok active =>
          dsimp only
          cases hrespond : WmBackend.respondPolicyTurn backend turn.id ticket.1
              (s.deriveResponse active).response with
          | mk result backend' =>
            have hanswered := answered_of_respond hrespond
            rw [hassigns] at hanswered
            cases result with
            | error => exact hanswered
            | ok submission =>
              cases submission with
              | pending => exact hanswered
              | complete =>
                simp only [settleSubmission, backend_finalizeActive]
                exact hanswered

theorem answered_handleBackendEvent (s : Session (Recorder B)) (event : BackendEvent) :
    (s.handleBackendEvent event).2.backend.answered =
      s.backend.answered ++ s.answers (.backendEvent event) := by
  unfold handleBackendEvent
  split
  · rename_i hphase
    cases event with
    | policyTurn turn =>
      rw [answers, answer, if_pos hphase]
      exact (append_nil _).symm
    | _ => exact (append_nil _).symm
  · rename_i hs
    cases event with
    | policyTurn turn => exact answered_handlePolicyTurn hs turn
    | operationCompleted =>
      simp only [answers, append_nil, handleOperationCompleted]
      repeat' split
      all_goals rfl
    | retainedObservationsDrained =>
      simp only [answers, append_nil, handleObservationsDrained]
      repeat' split
      all_goals first | rfl | rw [backend_finalizeActive]
    | disconnected => exact (append_nil _).symm

/-- What such a backend keeps of a call are the answers of the session. -/
theorem answered_step (h : ∀ b, call = .backendMoves b → b.answered = s.backend.answered) :
    (s.step call).backend.answered = s.backend.answered ++ s.answers call := by
  have howned (c : OwnerCall) (hexit : c ≠ .beginExitSession) :
      (s.step c.call).backend.answered = s.backend.answered ++ [] := by
    rw [append_nil]
    exact answered_of_owned (s.owned_call c hexit)
  cases call with
  | backendMoves b => exact (h b rfl).trans (append_nil _).symm
  | ledgerAction action => exact howned (.ledgerAction action) nofun
  | requestCloseFocused => exact howned .requestCloseFocused nofun
  | requestSpawn argv => exact howned (.requestSpawn argv) nofun
  | toggleWhichkey => exact howned .toggleWhichkey nofun
  | updateModules modules => exact howned (.updateModules modules) nofun
  | fireKeyRepeat => exact howned .fireKeyRepeat nofun
  | beginDirectQuit => exact howned .beginDirectQuit nofun
  | beginShutdown => exact howned .beginShutdown nofun
  | backendEvent event => exact answered_handleBackendEvent s event
  | serviceBackend ready now =>
    simp only [Session.step, serviceBackend, answers, append_nil]
    split
    all_goals
      rename_i hservice
      exact congrArg (·.2.answered) hservice.symm
  | beginExitSession =>
    simp only [Session.step, Session.beginExitSession, answers, append_nil]
    split
    · rfl
    · split
      all_goals
        rename_i hexit
        exact congrArg (·.2.answered) hexit.symm
  | completeExpectedExit =>
    simp only [Session.step, completeExpectedExit, answers, append_nil]
    split <;> rfl

theorem answered_foldl {calls : List (Call (Recorder B))} (h : ∀ b, .backendMoves b ∉ calls) :
    (calls.foldl Session.step s).backend.answered = s.backend.answered ++ s.runAnswers calls := by
  induction calls generalizing s with
  | nil => exact (append_nil _).symm
  | cons call calls ih =>
    simp only [mem_cons, not_or] at h
    rw [foldl_cons, ih fun b => (h b).2, answered_step fun b hb => absurd hb.symm (h b).1,
      append_assoc]
    rfl

end Recorder

/-- The tickets a run puts into operation, in order. -/
def runOperations (s : Session B) (calls : List (Call B)) : List BackendTicket :=
  Trace.emitted step operations s calls

theorem mem_answers (h : a ∈ s.answers call) :
    ∃ turn, call = .backendEvent (.policyTurn turn) ∧ s.answer turn = some a := by
  unfold answers at h
  split at h
  · exact ⟨_, rfl, mem_toList.mp h⟩
  · simp at h

theorem length_answers_le (s : Session B) (call : Call B) : (s.answers call).length ≤ 1 := by
  unfold answers
  split
  · cases s.answer _ <;> simp
  · simp

theorem turnMark_of_answer (h : a ∈ s.answers call) :
    s.turnMark < a.turn.raw ∧ a.turn.raw ≤ (s.step call).turnMark := by
  obtain ⟨turn, rfl, hanswer⟩ := mem_answers h
  obtain ⟨-, hvalid, _, _, _, -, -, heq⟩ := exists_of_answer hanswer
  obtain ⟨_, -, hturn, -⟩ := counters_of_answer hanswer
  rw [turnMark.eq_1 (s.step _), hturn, heq]
  exact ⟨turnMark_lt hvalid, le_rfl⟩

theorem ticketMark_of_answer (hs : s.Ticketed) (h : a ∈ s.answers call) :
    s.ticketMark < a.ticket.raw ∧ a.ticket.raw ≤ (s.step call).ticketMark := by
  obtain ⟨turn, rfl, hanswer⟩ := mem_answers h
  obtain ⟨last, hticket, -, hlast, hawaited⟩ := counters_of_answer hanswer
  rw [ticketMark, ticketMark, hlast, hawaited]
  have hpos := a.ticket.pos
  rcases responseTicket_eq_ok hticket with ⟨hnone, hraw, rfl⟩ | ⟨hsome, rfl⟩
  · simp [hnone, hraw]
  · have hraw := hs _ hsome
    simp only [hsome, isSome_some, isSome_none]
    grind

theorem lastBackendTicket_of_operation (h : ticket ∈ s.operations call) :
    s.lastBackendTicket < ticket.raw ∧ ticket.raw ≤ (s.step call).lastBackendTicket := by
  unfold operations at h
  split at h
  · simp at h
  rename_i hnone
  rcases mem_append.mp h with h | h
  · rcases (s.counts_step call).awaited ticket (mem_toList.mp h) with
      ⟨hsome, -⟩ | ⟨-, hraw, hlast⟩
    · simp [hnone] at hsome
    · rw [hraw, hlast]
      exact ⟨Nat.lt_succ_self _, le_rfl⟩
  · obtain ⟨a, ha, rfl⟩ := mem_map.mp h
    obtain ⟨turn, rfl, hanswer⟩ := mem_answers ha
    obtain ⟨last, hticket, -, hlast, -⟩ := counters_of_answer hanswer
    rcases responseTicket_eq_ok hticket with ⟨-, hraw, rfl⟩ | ⟨hsome, -⟩
    · rw [hraw, hlast]
      exact ⟨Nat.lt_succ_self _, le_rfl⟩
    · simp [hnone] at hsome

theorem length_operations_le (s : Session B) (call : Call B) : (s.operations call).length ≤ 1 := by
  unfold operations
  split
  · simp
  cases hanswers : s.answers call with
  | nil => cases (s.step call).transaction.awaitedTicket <;> simp
  | cons a =>
    have hone := s.length_answers_le call
    obtain ⟨turn, rfl, hanswer⟩ := mem_answers (hanswers ▸ mem_cons_self : a ∈ s.answers call)
    obtain ⟨_, -, -, -, hawaited⟩ := counters_of_answer hanswer
    rw [hanswers] at hone
    rw [hawaited]
    simpa using hone

/-! ## The protocol -/

/-- What the next event does: it is accepted in order, or it fails and ends the
transaction; then the session gave no answer or the backend refused it.  An event out
of order fails without an answer, and the backend is not touched. -/
structure Disciplined (s : Session B) (event : BackendEvent) : Prop where
  accepted : ∀ update, s.outcome (.backendEvent event) = some update →
    s.transaction.Accepts event (s.answers (.backendEvent event)).head?
      (s.step (.backendEvent event)).transaction
  failed : s.outcome (.backendEvent event) = none →
    (s.step (.backendEvent event)).active = none ∧
      (s.step (.backendEvent event)).transaction = .idle ∧
      ∀ a ∈ s.answers (.backendEvent event), ∃ error, a.result = .error error
  rejected : ¬ s.transaction.InOrder event → s.outcome (.backendEvent event) = none ∧
    s.answers (.backendEvent event) = [] ∧ (s.step (.backendEvent event)).backend = s.backend

theorem Orderly.disciplined (ho : s.Orderly) (event : BackendEvent) : Disciplined s event := by
  have hstep := s.step_spec (.backendEvent event)
  refine ⟨fun update hupdate => ?_, fun hnone => ?_, fun horder => ?_⟩
  · rw [hupdate] at hstep
    cases hstep with
    | acts hcall => exact absurd rfl (hcall event)
    | handles hs h => exact h.accepts hs
  · rw [hnone] at hstep
    cases hstep with
    | acts hcall => exact absurd rfl (hcall event)
    | fails h =>
      obtain ⟨hactive, hidle⟩ := h.ends ho
      exact ⟨hactive, hidle, fun a ha => result_of_outcome_none hnone ha⟩
  · obtain ⟨⟨error, herror⟩, hanswers⟩ := rejected_of_not_inOrder horder
    simp only [outcome, Session.step, herror]
    exact ⟨rfl, hanswers, rfl⟩

theorem pairwise_runAnswers (hs : s.Ticketed) (calls : List (Call B)) :
    (s.runAnswers calls).Pairwise fun a b =>
      a.turn.raw < b.turn.raw ∧ a.ticket.raw < b.ticket.raw := by
  have hshort (key : Answer → ℕ) (s : Session B) (call : Call B) :
      (s.answers call).Pairwise (key · < key ·) := by
    have hlength := s.length_answers_le call
    rcases hanswers : s.answers call with _ | ⟨a, _ | ⟨b, rest⟩⟩
    · exact .nil
    · exact pairwise_singleton _ a
    · simp [hanswers] at hlength
  apply Pairwise.and
  · exact (Trace.pairwise (I := fun _ => True) (m := turnMark) (fun _ _ _ => trivial)
      (fun s call _ => s.turnMark_step call) (hshort (·.turn.raw))
      (fun s call _ a ha => turnMark_of_answer ha) calls trivial).1
  · exact (Trace.pairwise (I := Ticketed) (m := ticketMark) (fun s call h => h.step call)
      (fun s call _ => s.ticketMark_step call) (hshort (·.ticket.raw))
      (fun s call h a ha => ticketMark_of_answer h ha) calls hs).1

theorem pairwise_runOperations (s : Session B) (calls : List (Call B)) :
    (s.runOperations calls).Pairwise (·.raw < ·.raw) := by
  refine (Trace.pairwise (I := fun _ => True) (m := lastBackendTicket) (fun _ _ _ => trivial)
    (fun s call _ => (s.counts_step call).le) (fun s call => ?_)
    (fun s call _ ticket h => lastBackendTicket_of_operation h) calls trivial).1
  have hlength := s.length_operations_le call
  rcases hoperations : s.operations call with _ | ⟨a, _ | ⟨b, rest⟩⟩
  · exact .nil
  · exact pairwise_singleton _ a
  · simp [hoperations] at hlength

/-- In every run a transaction is active exactly when the substate is not idle, the turns
that are answered and the tickets only go up, and every event is taken in order or fails
and ends the transaction. -/
theorem events_in_order {backend : B} {snapshot : Option ValidatedSnapshot} {keymap : Keymap}
    (h : connect backend snapshot keymap = .ok s) (calls : List (Call B)) :
    ((calls.foldl Session.step s).active.isSome ↔
      (calls.foldl Session.step s).transaction ≠ .idle) ∧
    (s.runAnswers calls).Pairwise (fun a b =>
      a.turn.raw < b.turn.raw ∧ a.ticket.raw < b.ticket.raw) ∧
    (s.runOperations calls).Pairwise (·.raw < ·.raw) ∧
    ∀ event, Disciplined (calls.foldl Session.step s) event := by
  have ho : (calls.foldl step s).Orderly := ((Reachable.connect h).foldl calls).orderly
  refine ⟨?_, pairwise_runAnswers (fresh_of_connect h).ticketed calls,
    s.pairwise_runOperations calls, ho.disciplined⟩
  rw [← ne_none_iff_isSome]
  exact not_congr ho.paired

/-- The two turns of a session that goes live. -/
theorem events_in_order_prompt : ∃ s : Session PromptBackend,
    (s.runAnswers promptTurns).length = 2 ∧
      (s.runAnswers promptTurns).Pairwise fun a b =>
        a.turn.raw < b.turn.raw ∧ a.ticket.raw < b.ticket.raw := by
  have hconnect : ∃ s, connect PromptBackend.mk none Keymap.default = .ok s ∧
      (s.runAnswers promptTurns).length = 2 := ⟨_, rfl, by decide +kernel⟩
  obtain ⟨s, hs, hlength⟩ := hconnect
  exact ⟨s, hlength, (events_in_order hs promptTurns).2.1⟩

end Session

end Realm
