import Realm.Runtime.System

/-!
# The exchange of turns and responses

The transaction of the session and the queues of the backend move together.  A turn
is queued only while no response is under way, the events of a response come in
order, and what the backend still owes is what the transaction waits for.
-/

namespace Realm

open River RiverBackend Session

/-- The side of the backend that faces the session. -/
structure Ports where
  pendingResponse : Option PendingResponse
  publicEvents : List BackendEvent
  openTurn : Option BackendPolicyTurnId
  drainTicket : Option BackendTicket
  exitStarted : Bool

def RiverBackend.ports (b : RiverBackend) : Ports where
  pendingResponse := b.pendingResponse
  publicEvents := b.publicEvents
  openTurn := b.openTurn
  drainTicket := b.drainTicket
  exitStarted := b.exitStarted

/-- The transaction may take the turn that comes next. -/
def TransactionSubstate.AwaitsTurn : TransactionSubstate → Prop
  | .idle | .awaitingExternalTurn _ | .awaitingInternalTurn _ => True
  | _ => False

/-- The transaction and the backend agree on what comes next. -/
inductive Coupled : TransactionSubstate → Ports → Prop
  | rests {tr : TransactionSubstate} (h : tr.AwaitsTurn) : Coupled tr ⟨none, [], none, none, false⟩
  | turned {tr : TransactionSubstate} {turn : BackendPolicyTurn} (h : tr.AwaitsTurn)
      (hdrains : turn.drains = none) :
      Coupled tr ⟨none, [.policyTurn turn], some turn.id, none, false⟩
  | answered {k : BackendTicket} {pending : PendingResponse} (h : pending.ticket = k) :
      Coupled (.inFlight k) ⟨some pending, [], none, none, false⟩
  /-- A manage sequence came before the response was rendered; its turn is refused. -/
  | overtaken {k : BackendTicket} {turn : BackendPolicyTurn} {events : List BackendEvent}
      {pending : Option PendingResponse} {id : Option BackendPolicyTurnId}
      {ticket : Option BackendTicket} :
      Coupled (.inFlight k) ⟨pending, .policyTurn turn :: events, id, ticket, false⟩
  | failed {k : BackendTicket} {error : BackendError} :
      Coupled (.inFlight k) ⟨none, [.operationCompleted k (.error error)], none, none, false⟩
  | completed {k : BackendTicket} :
      Coupled (.inFlight k) ⟨none, [.operationCompleted k (.ok ())], none, some k, false⟩
  | corrected {k : BackendTicket} {turn : BackendPolicyTurn} (hdrains : turn.drains = some k) :
      Coupled (.inFlight k)
        ⟨none, [.operationCompleted k (.ok ()), .policyTurn turn], some turn.id, none, false⟩
  | draining {k : BackendTicket} : Coupled (.awaitingDrain k) ⟨none, [], none, some k, false⟩
  | drained {k : BackendTicket} :
      Coupled (.awaitingDrain k) ⟨none, [.retainedObservationsDrained k], none, none, false⟩
  | superseded {k : BackendTicket} {turn : BackendPolicyTurn} (hdrains : turn.drains = some k) :
      Coupled (.awaitingDrain k) ⟨none, [.policyTurn turn], some turn.id, none, false⟩

namespace RiverBackend

variable {b b' : RiverBackend} {tr : TransactionSubstate}

theorem ports_of_repaints (h : Repaints b b') : b'.ports = b.ports := by
  obtain ⟨⟨_, _, _, _, _, _, _, rfl⟩, -, -, -⟩ := h
  rfl

theorem ports_of_assigned (h : b.Assigned b') : b'.ports = b.ports := by
  induction h with
  | refl => rfl
  | tail _ hassign ih =>
    obtain ⟨bid, win, hassign⟩ := hassign
    obtain ⟨_, _, _, _, ⟨-, rfl⟩ | ⟨-, -, rfl⟩⟩ := exists_assignWindow hassign
    · exact ih
    · exact ih

theorem exitStarted_of_coupled (hc : Coupled tr b.ports) : b.exitStarted = false := by
  change b.ports.exitStarted = false
  generalize b.ports = ports at hc
  cases hc <;> rfl

theorem coupled_of_flushed (hc : Coupled tr b.ports) (h : Flushed b b') : Coupled tr b'.ports := by
  have hexit := exitStarted_of_coupled hc
  cases h with
  | exit hexit' => exact absurd (hexit.symm.trans hexit') (by simp)
  | quiet => exact hc
  | failed _ hpending | completed _ hpending =>
    simp only [ports, hpending, hexit] at hc ⊢
    generalize b.publicEvents = events at hc ⊢
    generalize b.openTurn = id at hc ⊢
    generalize b.drainTicket = ticket at hc ⊢
    cases hc with
    | answered hticket => exact hticket ▸ by constructor
    | overtaken => exact .overtaken

theorem coupled_of_manageStart (hc : Coupled tr b.ports) (hidle : b.Idle)
    (h : b.manageStart = .ok b') : Coupled tr b'.ports := by
  obtain ⟨c, hcompletes, hfinish⟩ := exists_manageStart h
  obtain ⟨_, _, _, id, events, -, -, rfl⟩ := exists_finishPolicyTurn hfinish
  simp only [ports, hidle.publicEvents, hidle.openTurn, hidle.exitStarted] at hc
  cases hcompletes with
  | none =>
    simp only [ports, hidle.publicEvents, hidle.exitStarted, List.nil_append]
    generalize b.pendingResponse = pending at hc ⊢
    generalize b.drainTicket = ticket at hc ⊢
    cases hc with
    | rests hawaits => exact .turned hawaits rfl
    | answered => exact .overtaken
    | draining => exact .superseded rfl
  | correction hpending =>
    simp only [ports, hidle.publicEvents, hidle.exitStarted, List.nil_append, List.cons_append]
    rw [hpending] at hc
    generalize b.drainTicket = ticket at hc
    cases hc with
    | answered hticket => exact hticket ▸ .corrected rfl

theorem coupled_of_renderStart (hc : Coupled tr b.ports) (h : b.renderStart = .ok b') :
    Coupled tr b'.ports := by
  obtain ⟨pending, hrendered, hpaint⟩ := exists_renderStart h
  rw [ports_of_repaints hpaint]
  simp only [ports] at hc ⊢
  generalize b.pendingResponse = old at hc hrendered
  generalize b.publicEvents = events at hc ⊢
  generalize b.openTurn = id at hc ⊢
  generalize b.drainTicket = ticket at hc ⊢
  generalize b.exitStarted = exit at hc ⊢
  cases hrendered with
  | standalone | short => exact hc
  | flushing | corrects =>
    cases hc with
    | answered hticket => exact .answered hticket
    | overtaken => exact .overtaken

theorem coupled_of_applyRuntimeEvent (hc : Coupled tr b.ports) (hidle : b.Idle) {event : Incoming}
    (h : b.applyRuntimeEvent event = .ok b') : Coupled tr b'.ports := by
  rcases applyRuntimeEvent_cases h with ⟨-, h⟩ | ⟨-, h⟩ | ⟨-, hmanage, h, -⟩
  · exact coupled_of_renderStart hc h
  · exact coupled_of_manageStart hc hidle h
  · have hexchange := (applied_applyEvent hmanage h).exchange
    simp only [exchange, Exchange.mk.injEq] at hexchange
    simpa only [ports, hexchange] using hc

theorem coupled_of_quantum (hc : Coupled tr b.ports) {ready : BackendReady}
    (h : Quantum b ready none b') : Coupled tr b'.ports := by
  cases h with
  | partialFlush | answering | read | exitWait => exact hc
  | @flush t _ _ _ hflushed =>
    have hc' : Coupled tr { b with transport := t }.ports := hc
    exact coupled_of_flushed hc' hflushed
  | drain hidle _ _ hticket =>
    simp only [ports, hidle.publicEvents, hidle.openTurn, hidle.exitStarted, hticket] at hc ⊢
    generalize b.pendingResponse = pending at hc ⊢
    cases hc with
    | draining => exact .drained
  | @deliver t _ _ hidle _ _ happly =>
    have hc' : Coupled tr { b with transport := t }.ports := hc
    exact coupled_of_applyRuntimeEvent hc'
      ⟨hidle.exitStarted, hidle.publicEvents, hidle.openTurn⟩ happly

end RiverBackend

namespace System

variable {s s' : System}

/-- While the session serves, it and the backend agree on what comes next. -/
def Engaged (s : System) : Prop := s.Serving → Coupled s.transaction s.backend.ports

theorem transaction_of_validatePolicyTurn {turn : BackendPolicyTurn}
    (h : s.validatePolicyTurn turn = .ok ()) (k : BackendTicket) : s.transaction ≠ .inFlight k := by
  intro htransaction
  obtain ⟨_, hsequence, -⟩ := Guard.bind_eq_ok.mp h
  unfold checkSequence at hsequence
  split at hsequence
  · cases hsequence
  · rw [htransaction] at hsequence
    cases hsequence

theorem coupled_of_handled {event : BackendEvent} {events : List BackendEvent}
    {update : SessionUpdate}
    (hc : Coupled s.transaction s.backend.ports) (hqueue : s.backend.publicEvents = event :: events)
    (h : Session.Handled { s with backend := { s.backend with publicEvents := events } } event
      update s') :
    Coupled s'.transaction s'.backend.ports := by
  simp only [ports, hqueue] at hc
  cases h with
  | @turn turn ticket _ active backend backend' _ hvalid hticket hreduce hrespond =>
    obtain ⟨rfl, hok⟩ := respondPolicyTurn_eq_ok hrespond
    obtain ⟨hturn, pending, hpending, hpaint⟩ := exists_respondPolicyTurn hok
    have hports := ports_of_assigned (assigned_reduceTurn hreduce)
    have hinFlight := transaction_of_validatePolicyTurn hvalid
    have hanswered := ports_of_repaints hpaint
    simp only [ports, Ports.mk.injEq] at hports hanswered
    simp only [settleSubmission, ports, hanswered, hports]
    generalize s.transaction = tr at hc hinFlight
    generalize s.backend.pendingResponse = old at hc
    generalize s.backend.openTurn = id at hc
    generalize s.backend.drainTicket = owed at hc ⊢
    generalize s.backend.exitStarted = exit at hc ⊢
    cases hc with
    | turned | superseded => exact .answered hpending
    | overtaken => exact absurd rfl (hinFlight _)
  | completed htransaction =>
    simp only at htransaction
    rw [htransaction] at hc
    simp only [ports]
    generalize s.backend.pendingResponse = old at hc ⊢
    generalize s.backend.openTurn = id at hc ⊢
    generalize s.backend.drainTicket = owed at hc ⊢
    generalize s.backend.exitStarted = exit at hc ⊢
    cases hc with
    | completed => exact .draining
    | corrected hdrains => exact .superseded hdrains
  | @drained _ active htransaction hactive =>
    obtain ⟨_, _, _, _, heq⟩ := exists_finalizeActive
      { s with backend := { s.backend with publicEvents := events }, active := none } active
    simp only at htransaction
    rw [htransaction] at hc
    simp only [heq, ports, commitActive, installAuthority]
    generalize s.backend.pendingResponse = old at hc ⊢
    generalize s.backend.openTurn = id at hc ⊢
    generalize s.backend.drainTicket = owed at hc ⊢
    generalize s.backend.exitStarted = exit at hc ⊢
    cases hc with
    | drained => exact .rests trivial

theorem ports_of_requestPolicyTurn {b b' : RiverBackend} {result : BackendResult Unit}
    (h : WmBackend.requestPolicyTurn b = (result, b')) : b'.ports = b.ports := by
  rcases requestPolicyTurn_cases h with hok | ⟨-, rfl⟩
  · obtain ⟨-, -, flush, hpaint⟩ := exists_requestPolicyTurn hok
    have hports := ports_of_repaints hpaint
    exact hports
  · rfl

theorem engaged_of_owned (hs : s.Engaged) {outcome : Option SessionUpdate}
    (h : Session.Owned s outcome s') : s'.Engaged := by
  intro hserving
  cases h with
  | quiet h =>
    have h := h.sameExchange
    rw [h.backend, h.transaction]
    refine hs ?_
    rw [Session.Serving, ← h.phase]
    exact hserving
  | @admits _ backend active transaction hadmits hrequest =>
    have hc := hs hserving
    rw [transaction_of_ready hadmits.ready] at hc
    have hawaits : transaction.AwaitsTurn := by
      obtain ⟨_, _, rfl | rfl⟩ := hadmits.transaction <;> trivial
    change Coupled transaction backend.ports
    rw [ports_of_requestPolicyTurn hrequest]
    generalize s.backend.ports = ports at hc
    cases hc with
    | rests => exact .rests hawaits
    | turned _ hdrains => exact .turned hawaits hdrains
  | refused hready hrequest =>
    have hc := hs hserving
    rw [transaction_of_ready hready] at hc
    exact ports_of_requestPolicyTurn hrequest ▸ hc
  | leaves h =>
    rcases h with rfl | rfl <;> simp [Session.Serving] at hserving
  | exits => simp [Session.Serving] at hserving

theorem engaged_of_step (hs : s.Engaged) {input : Input} (h : s.step input = some s') :
    s'.Engaged := by
  cases input with
  | river =>
    cases h
    exact hs
  | owner =>
    obtain ⟨_, howned⟩ := owned_of_step h
    exact engaged_of_owned hs howned
  | service =>
    cases serviced_of_step h with
    | idle => exact hs
    | progressed _ hservice =>
      intro hserving
      exact coupled_of_quantum (hs hserving) (quantum_of_service hservice)
    | exited => intro hserving; simp [Session.Serving] at hserving
    | handled _ hserving hservice hhandled =>
      intro _
      have hc := hs hserving
      cases quantum_of_service hservice with
      | publish _ hqueue => exact coupled_of_handled hc hqueue hhandled
      | exited hexit => simp [exitStarted_of_coupled hc] at hexit

theorem Reachable.engaged (h : Reachable s) : s.Engaged := by
  refine h.invariant (fun {handshake snapshot keymap s} hconnect _ => ?_)
    fun s input s' hs hstep => engaged_of_step hs hstep
  obtain ⟨c, specs, hc, hspecs, -, -, htransaction, -⟩ := exists_connect hconnect
  obtain ⟨-, -, d, ⟨⟨_, _, _, _, _, _, _, _, _, _, _, rfl⟩, -⟩, heq⟩ :=
    exists_connected hc hspecs
  rw [htransaction, heq]
  exact .rests trivial

/-- The backend owes a transaction what it waits for, and nothing to one that waits for a
turn. -/
def Owes (p : Ports) : TransactionSubstate → Prop
  | .inFlight _ => p.pendingResponse.isSome ∨ p.publicEvents ≠ []
  | .awaitingDrain k => p.drainTicket = some k ∨
    .retainedObservationsDrained k ∈ p.publicEvents ∨
    ∃ turn, .policyTurn turn ∈ p.publicEvents ∧ turn.drains = some k
  | _ => p.pendingResponse = none ∧ p.drainTicket = none

/-- No reachable session that serves waits for an answer or a drain that is lost. -/
theorem Reachable.owes (h : Reachable s) (hserving : s.Serving) :
    Owes s.backend.ports s.transaction := by
  have hcoupled := h.engaged hserving
  generalize s.backend.ports = ports, s.transaction = tr at hcoupled ⊢
  cases hcoupled with
  | rests h | turned h => cases tr <;> simp_all [Owes, TransactionSubstate.AwaitsTurn]
  | _ => simp_all [Owes]

/-- A turn that is answered and then rendered, and what follows. -/
def answersTurn (n : ℕ) : List (Option Input) :=
  some (sends [.deliver (.client 4) .manageStart]) :: quanta 5 ++
    some (sends [.deliver (.client 4) .renderStart]) :: quanta n

theorem exists_answersTurn (n : ℕ) (transaction : TransactionSubstate)
    (h : (plainLive (answersTurn n)).any
      (fun s => decide (s.phase = .live) && decide (s.transaction = transaction)) = true) :
    ∃ s, Reachable s ∧ s.Serving ∧ s.transaction = transaction := by
  obtain ⟨s, hs, hfacts⟩ := (Option.any_eq_true _ _).mp h
  simp only [Bool.and_eq_true, decide_eq_true_eq] at hfacts
  exact ⟨s, reachable_plainLive hs, by simp [Session.Serving, hfacts.1], hfacts.2⟩

/-- The response is in flight, and two quanta later its drain is awaited. -/
theorem owes_answersTurn : ∃ (s s' : System) (k : BackendTicket),
    s.transaction = .inFlight k ∧ Owes s.backend.ports s.transaction ∧
      s'.transaction = .awaitingDrain k ∧ Owes s'.backend.ports s'.transaction := by
  obtain ⟨s, hs, hserving, hinFlight⟩ :=
    exists_answersTurn 2 (.inFlight ⟨3, by decide, by decide⟩) (by decide +kernel)
  obtain ⟨s', hs', hserving', hdrain⟩ :=
    exists_answersTurn 4 (.awaitingDrain ⟨3, by decide, by decide⟩) (by decide +kernel)
  exact ⟨s, s', _, hinFlight, hs.owes hserving, hdrain, hs'.owes hserving'⟩

end System

end Realm
