import Realm.Runtime.Accords
import Realm.Runtime.Retention
import Realm.Session.LastProjection

/-!
# Every turn is accepted

A turn that the session answers moves its facts from the queue to what the session knows,
so what accords before a step accords after it.  In a run whose events come in time the
session accepts each turn.  A window that is used before it is reported makes the session
refuse the turn that reports it.
-/

namespace Realm

open River RiverBackend List Option Session AuthorityState

namespace System

variable {s s' : System} {events : List BackendEvent} {turn : BackendPolicyTurn} {b : RiverBackend}
  {event : BackendEvent} {input : Input} {outcome : Option SessionUpdate}

/-! ## Turns that are answered -/

theorem nextTurn_of_assigned {b' : RiverBackend} (h : b.Assigned b') :
    b'.nextTurn = b.nextTurn := by
  induction h with
  | refl => rfl
  | tail _ hassign ih =>
    obtain ⟨bid, win, hassign⟩ := hassign
    obtain ⟨_, _, _, _, ⟨-, rfl⟩ | ⟨-, -, rfl⟩⟩ := exists_assignWindow hassign
    · exact ih
    · exact ih

/-- The session reads the first event of the queue. -/
structure Reads (s : System) (event : BackendEvent) (events : List BackendEvent) (s' : System) :
    Prop where
  queue : s.backend.publicEvents = event :: events
  publicEvents : s'.backend.publicEvents = events
  retains : s.backend.Retains s'.backend none
  nextTurn : s'.backend.nextTurn = s.backend.nextTurn
  bindings : s'.bindings = s.bindings
  live : s.phase = .live → s'.phase = .live
  phase : s'.phase ≠ .initialReplay
  baseIds : s'.baseIds = event.facts.foldl advance s.baseIds
  last_le : ∀ last, s'.lastPolicyTurn = some last → last.raw ≤ s.backend.nextTurn
  rest : events = [] ∨ s.phase ≠ .initialReplay ∧ s'.lastPolicyTurn = s.lastPolicyTurn ∧
    ∀ k, s'.transaction ≠ .inFlight k

theorem Accords.of_reads (hs : s.Accords) (h : Reads s event events s') : s'.Accords := by
  have hfacts : s'.backend.policyEvents = s.backend.policyEvents := by
    simpa using h.retains.policyEvents
  have hunread : s.backend.unread = event.facts ++ s'.backend.unread := by
    simp only [unread, h.queue, h.publicEvents, hfacts, flatMap_cons, append_assoc]
  have hlegal := hs.legal
  have hopened := hs.opened
  rw [hunread, legal_append, ← h.baseIds] at hlegal
  rw [hunread, foldl_append, ← h.baseIds] at hopened
  have hreplay : s'.backend.replay = false := by
    rw [h.retains.replay]
    by_contra hne
    have hqueue := (hs.replaying (by simpa using hne)).2.1
    simp [h.queue] at hqueue
  have hmem {turn : BackendPolicyTurn} (hturn : .policyTurn turn ∈ s'.backend.publicEvents) :
      .policyTurn turn ∈ s.backend.publicEvents ∧ s.phase ≠ .initialReplay ∧
        s'.lastPolicyTurn = s.lastPolicyTurn := by
    rw [h.publicEvents] at hturn
    rcases h.rest with rfl | ⟨hphase, hlast, -⟩
    · cases hturn
    · exact ⟨h.queue ▸ mem_cons_of_mem _ hturn, hphase, hlast⟩
  constructor
  case legal => exact hlegal.2.mono h.bindings h.live
  case opened => exact hopened.trans h.retains.openedIds.symm
  case barrier => exact hfacts ▸ hs.barrier
  case replaying => exact fun h => absurd (hreplay.symm.trans h) (by simp)
  case replayed => exact fun hphase => absurd hphase h.phase
  case last_le => exact h.nextTurn ▸ h.last_le
  case shaped =>
    intro turn hturn
    obtain ⟨hold, hphase, -⟩ := hmem hturn
    rw [decide_eq_false h.phase, ← decide_eq_false hphase]
    exact hs.shaped turn hold
  case numbered =>
    intro turn hturn
    obtain ⟨hold, -, hlast⟩ := hmem hturn
    rw [h.nextTurn, hlast]
    exact hs.numbered turn hold
  case awaited =>
    intro k htransaction turn rest heq
    rcases h.rest with hnil | ⟨-, -, hnone⟩
    · exact absurd (h.publicEvents.symm.trans heq) (by simp [hnil])
    · exact hnone k htransaction

theorem events_eq_nil_of_coupled {tr : TransactionSubstate} (h : Coupled tr b.ports)
    (hqueue : b.publicEvents = .policyTurn turn :: events) (hflight : ∀ k, tr ≠ .inFlight k) :
    events = [] := by
  simp only [ports, hqueue] at h
  generalize b.pendingResponse = pending, b.openTurn = id, b.drainTicket = ticket,
    b.exitStarted = exit at h
  cases h with
  | turned | superseded => rfl
  | overtaken => exact absurd rfl (hflight _)

theorem reads_of_handled {update : SessionUpdate} (hs : s.Accords) (hquiet : s.QuietReplay)
    (hcoupled : Coupled s.transaction s.backend.ports) (hc : Session.Consistent s)
    (ho : Session.Orderly s) (hqueue : s.backend.publicEvents = event :: events)
    (hserving : s'.Serving)
    (h : Session.Handled { s with backend := { s.backend with publicEvents := events } } event
      update s') :
    Reads s event events s' := by
  have hphase : s'.phase ≠ .initialReplay := h.phase_ne fun hphase => (hquiet hphase).1
  have hretains : s.backend.Retains s'.backend none := by
    have hmoves : RiverBackend.Moves (fun _ => False)
        { s.backend with publicEvents := events } s'.backend := .of_asks (asks_handled h)
    obtain ⟨h₁, h₂, h₃⟩ := retains_quiet hmoves fun _ => id
    exact ⟨h₁, h₂, h₃⟩
  cases h with
  | @turn turn ticket _ active backend backend' _ hvalid hticket hreduce hrespond =>
    have hflight := transaction_of_validatePolicyTurn hvalid
    have hshaped := hs.shaped turn (by simp [hqueue])
    have hknown := knownIds_of_reduceTurn (s := { s with
      backend := { s.backend with publicEvents := events } })
      (Session.Upholds.turnBase ⟨hc.committed, hc.working⟩) hshaped hreduce
    have hlive : s.phase = .live → active.bootstrap = false := by
      intro hlive
      have hreduce' := hreduce
      rw [reduceTurn, if_neg (by simp [hlive])] at hreduce'
      rw [(reductions_reducePolicyEvents hreduce').bootstrap]
      exact openTurn_bootstrap ⟨ho.paired, ho.live⟩ hlive
    have hassigned := assigned_reduceTurn hreduce
    obtain ⟨rfl, hok⟩ := respondPolicyTurn_eq_ok hrespond
    obtain ⟨-, _, -, hpaint⟩ := exists_respondPolicyTurn hok
    have hports := ports_of_assigned hassigned
    have hnext := nextTurn_of_assigned hassigned
    have hanswered : backend'.publicEvents = backend.publicEvents ∧
        backend'.nextTurn = backend.nextTurn := by
      obtain ⟨⟨_, _, _, _, _, _, _, rfl⟩, -, -, -⟩ := hpaint
      exact ⟨rfl, rfl⟩
    have hpublic : backend'.publicEvents = events :=
      hanswered.1.trans (congrArg Ports.publicEvents hports)
    have hnil := events_eq_nil_of_coupled hcoupled hqueue hflight
    refine ⟨hqueue, hpublic, hretains, hanswered.2.trans hnext, rfl, fun h => ?_, hphase, ?_, ?_,
      .inl hnil⟩
    · change (if active.bootstrap then _ else s.phase) = _
      rw [hlive h]
      exact h
    · rw [baseIds, if_neg hphase]
      exact hknown
    · rintro last ⟨⟩
      exact (hs.numbered turn (by simp [hqueue])).1
  | @completed ticket active htransaction hactive =>
    refine ⟨hqueue, rfl, hretains, rfl, rfl, id, hphase, rfl, hs.last_le, .inr ⟨?_, rfl, ?_⟩⟩
    · exact fun h => absurd (htransaction.symm.trans (hquiet h).1) (by simp)
    · simp
  | @drained ticket active htransaction hactive =>
    have hbefore : s.phase ≠ .initialReplay := fun h =>
      absurd (htransaction.symm.trans (hquiet h).1) (by simp)
    have hbase : s.baseIds = active.working.knownIds := by
      rw [baseIds, if_neg hbefore, turnBase, show s.active = some active from hactive]
      rfl
    have hnil : events = [] := by
      simp only [ports, hqueue, show s.transaction = _ from htransaction] at hcoupled
      generalize s.backend.pendingResponse = pending, s.backend.openTurn = id,
        s.backend.drainTicket = owed, s.backend.exitStarted = exit at hcoupled
      cases hcoupled with
      | drained => rfl
    obtain ⟨_, _, _, _, heq⟩ := exists_finalizeActive
      { s with backend := { s.backend with publicEvents := events }, active := none } active
    rw [heq] at hphase hretains hserving ⊢
    refine ⟨hqueue, rfl, hretains, rfl, rfl, fun hlive => ?_, hphase, ?_, hs.last_le, .inl hnil⟩
    · have hquit : active.quitStaged = false := by
        by_contra hquit
        simp [Session.Serving, hquit] at hserving
      have hboot : active.bootstrap = false := ho.live hlive active hactive
      simp only [hquit, commitActive, hboot, Bool.false_eq_true, if_false]
      split
      · rfl
      · exact hlive
    · rw [baseIds, if_neg hphase]
      exact (knownIds_of_identities rfl).trans hbase.symm

/-! ## Whole runs -/

theorem bindings_finalizeActive (s : System) (active : ActiveTransaction) :
    (s.finalizeActive active).2.bindings = s.bindings := by
  obtain ⟨_, _, _, _, heq⟩ := s.exists_finalizeActive active
  rw [heq]
  rfl

theorem bindings_of_step (h : s.step input = some s') : s'.bindings = s.bindings := by
  cases input with
  | river =>
    cases h
    rfl
  | owner =>
    obtain ⟨_, howned⟩ := owned_of_step h
    cases howned with
    | quiet h => exact h.sameExchange.bindings
    | _ => rfl
  | service =>
    cases serviced_of_step h with
    | idle | progressed | exited => rfl
    | handled _ _ _ hhandled =>
      cases hhandled with
      | @turn _ _ _ _ _ _ submission =>
        cases submission with
        | pending => rfl
        | complete => exact bindings_finalizeActive _ _
      | completed => rfl
      | drained => exact bindings_finalizeActive _ _

theorem Reachable.kept (h : Reachable s) : s.backend.Kept (· ∈ s.bindings) := by
  refine h.invariant (P := fun s => s.backend.Kept (· ∈ s.bindings)) (fun hconnect => ?_)
    fun s input s' hs hstep => ?_
  · obtain ⟨c, specs, hc, hspecs, hbindings, -⟩ := exists_connect hconnect
    exact .of_connected hc hspecs hbindings
  · rw [bindings_of_step hstep]
    exact (moves_of_step hstep).invariant (fun hc hmove _ => hc.of_move hmove) hs

theorem Reachable.card_openedIds_le (h : Reachable s) :
    s.backend.openedIds.card ≤ maxManagedWindows :=
  s.backend.card_openedIds_le.trans h.kept.windows_le

theorem Reachable.quietReplay (h : Reachable s) : s.QuietReplay := by
  intro hphase
  have hserving : s.Serving := by simp [Session.Serving, hphase]
  have htransaction : s.transaction = .idle :=
    h.session.orderly.paired.mp (h.session.clean.replay hphase).1
  have hcoupled := h.engaged hserving
  rw [htransaction] at hcoupled
  refine ⟨htransaction, ?_⟩
  change s.backend.ports.pendingResponse = none ∧ s.backend.ports.drainTicket = none
  generalize s.backend.ports = ports at hcoupled
  cases hcoupled <;> exact ⟨rfl, rfl⟩

theorem baseIds_of_ready (ho : Session.Orderly s) (hready : s.ready = true)
    (hphase : s'.phase = s.phase) (hbase : s'.turnBase.identities = s.currentAuthority.identities) :
    s'.baseIds = s.baseIds := by
  have hactive := ho.active_eq_none hready
  rw [baseIds, baseIds, hphase]
  split
  · rfl
  · refine knownIds_of_identities (hbase.trans ?_)
    rw [turnBase, hactive]
    rfl

theorem SameView.of_sameExchange (h : Session.SameExchange s s') : SameView s s' where
  bindings := h.bindings
  phase := h.phase
  baseIds := by
    rw [Session.baseIds, Session.baseIds, h.phase]
    split
    · rfl
    · refine knownIds_of_identities ?_
      rw [turnBase, turnBase, h.active]
      cases s.active with
      | none => exact h.identities
      | some => rfl
  lastPolicyTurn := h.lastPolicyTurn
  inFlight k := h.transaction ▸ id

/-- What a call of an owner leaves of the session and the queue, while the session serves. -/
theorem sameView_of_owned (ho : Session.Orderly s) (hserving : s'.Serving)
    (h : Session.Owned s outcome s') : SameView s s' ∧ s.backend.Queues s'.backend := by
  have hqueues {b : RiverBackend} {result : BackendResult Unit}
      (h : WmBackend.requestPolicyTurn s.backend = (result, b)) : s.backend.Queues b := by
    rcases requestPolicyTurn_cases h with hok | ⟨-, rfl⟩
    · exact .of_requestPolicyTurn hok
    · exact .of_eq rfl rfl
  cases h with
  | quiet h =>
    have h := h.sameExchange
    exact ⟨.of_sameExchange h, .of_eq (by rw [h.backend]) (by rw [h.backend])⟩
  | admits h hrequest =>
    refine ⟨⟨rfl, rfl, ?_, rfl, fun k hk => ?_⟩, hqueues hrequest⟩
    · exact baseIds_of_ready ho h.ready rfl h.toStages.identities
    · obtain ⟨_, -, htransaction⟩ := h.transaction
      rcases htransaction with rfl | rfl <;> cases hk
  | refused hready hrequest =>
    refine ⟨⟨rfl, rfl, ?_, rfl, fun k hk => ?_⟩, hqueues hrequest⟩
    · exact baseIds_of_ready ho hready rfl rfl
    · cases hk
  | leaves h => rcases h with rfl | rfl <;> simp [Session.Serving] at hserving
  | exits => simp [Session.Serving] at hserving

theorem accords_of_progressed (hreach : Reachable s) (hreach' : Reachable s') (hs : s.Accords)
    (hserving : s.Serving) {ready : BackendReady} {now : ℕ}
    (hintime : s.InTime (.service ready now)) (hdue : s.quantumDue ready = true)
    (hservice : s.backend.service ready = .ok (none, b)) (hs' : s' = { s with backend := b })
    (h : s.step (.service ready now) = some s') : s'.Accords := by
  have hdelivered : s.delivered (.service ready now) = s.backend.delivered ready := by
    rw [delivered, if_pos hdue]
  by_cases hmanage : s.delivered (.service ready now) = some .manageStart
  · obtain ⟨hidle, t, b', ht, happly, heq⟩ := exists_applied hmanage h
    rcases applyRuntimeEvent_cases happly with ⟨hne, -⟩ | ⟨-, hstart⟩ | ⟨-, hne, -⟩
    · cases hne
    · have hretains : s.backend.Retains { s.backend with transport := t } none :=
        ⟨(append_nil _).symm, rfl, rfl⟩
      have hread : Accords { s with backend := { s.backend with transport := t } } :=
        hs.of_retains hreach.quietReplay ⟨rfl, rfl, rfl, rfl, fun _ => id⟩ hretains (.of_eq rfl rfl)
          hreach.card_openedIds_le (by simp)
      subst heq
      exact hread.of_manageStart (hreach.engaged hserving)
        (hreach.kept.of_rests rfl rfl rfl rfl rfl rfl)
        ⟨hidle.exitStarted, hidle.publicEvents, hidle.openTurn⟩ (hintime _ hmanage).2 hstart
        hreach'.card_openedIds_le
    · exact absurd rfl hne
  · have hretains := retains_of_step hreach.sound (fun e he => (hintime e he).1) hmanage h
    refine hs.of_retains hreach.quietReplay ?_ hretains ?_ hreach'.card_openedIds_le fun f hf => ?_
    · subst hs'
      exact ⟨rfl, rfl, rfl, rfl, fun _ => id⟩
    · subst hs'
      exact .of_quantum (quantum_of_service hservice) (hdelivered ▸ hmanage)
    · obtain ⟨event, hevent, hfact⟩ := bind_eq_some_iff.mp hf
      obtain ⟨-, t, b', -, happly, -⟩ := exists_applied hevent h
      rcases applyRuntimeEvent_cases happly with ⟨rfl, -⟩ | ⟨rfl, -⟩ | ⟨-, -, happly, -⟩
      · cases hfact
      · cases hfact
      · exact tells_of_timely hs hreach.kept (hintime event hevent).2 happly hfact

theorem serving_of_owned (hserving : s'.Serving) (h : Session.Owned s outcome s') : s.Serving := by
  cases h with
  | quiet h =>
    rw [Session.Serving, ← h.sameExchange.phase]
    exact hserving
  | admits | refused => exact hserving
  | leaves h => rcases h with rfl | rfl <;> simp [Session.Serving] at hserving
  | exits => simp [Session.Serving] at hserving

theorem accords_of_step (hreach : Reachable s) (hs : s.Serving → s.Accords)
    (hintime : s.InTime input) (h : s.step input = some s') : s'.Serving → s'.Accords := by
  intro hserving
  have hreach' := hreach.step input h
  have hquiet (hnone : s.delivered input = none) : s.backend.Retains s'.backend none := by
    have hretains := retains_of_step hreach.sound (fun e he => (hintime e he).1) (by simp [hnone]) h
    rwa [hnone] at hretains
  cases input with
  | river =>
    have hretains := hquiet rfl
    cases h
    exact (hs hserving).of_retains hreach.quietReplay ⟨rfl, rfl, rfl, rfl, fun _ => id⟩ hretains
      (.of_eq rfl rfl) hreach'.card_openedIds_le (by simp)
  | owner =>
    obtain ⟨_, howned⟩ := owned_of_step h
    obtain ⟨hview, hqueues⟩ := sameView_of_owned hreach.session.orderly hserving howned
    exact (hs (serving_of_owned hserving howned)).of_retains hreach.quietReplay hview (hquiet rfl)
      hqueues hreach'.card_openedIds_le (by simp)
  | service =>
    cases serviced_of_step h with
    | idle => exact hs hserving
    | progressed hdue hservice =>
      exact accords_of_progressed hreach hreach' (hs hserving) hserving hintime hdue hservice rfl h
    | exited => simp [Session.Serving] at hserving
    | handled _ hbefore hservice hhandled =>
      have hcoupled := hreach.engaged hbefore
      cases quantum_of_service hservice with
      | publish _ hqueue =>
        exact (hs hbefore).of_reads (reads_of_handled (hs hbefore) hreach.quietReplay hcoupled
          hreach.session.consistent hreach.session.orderly hqueue hserving hhandled)
      | exited hexit => simp [exitStarted_of_coupled hcoupled] at hexit

theorem accords_of_connect {handshake : Handshake} {snapshot : Option ValidatedSnapshot}
    {keymap : Keymap}
    (h : Session.connect (RiverBackend.fromConnection handshake) snapshot keymap = .ok s) :
    s.Accords := by
  obtain ⟨c, specs, hc, hspecs, -, hphase, htransaction, -, hlast, -⟩ := exists_connect h
  obtain ⟨-, -, d, ⟨⟨_, _, _, _, _, _, _, _, _, _, _, rfl⟩, -⟩, heq⟩ :=
    exists_connected hc hspecs
  have hbase : s.baseIds = ∅ := by rw [baseIds, if_pos hphase]
  constructor <;> simp [heq, hbase, hphase, htransaction, hlast, RiverBackend.fromConnection,
    RiverBackend.unread, RiverBackend.openedIds, Session.Legal]

theorem ReachableWhere.accords (h : ReachableWhere InTime s) (hserving : s.Serving) :
    Reachable s ∧ s.Accords := by
  obtain ⟨hreach, haccords⟩ := h.invariant (I := fun s => s.Serving → s.Accords)
    (fun hconnect _ => accords_of_connect hconnect)
    fun _ _ _ hreach hs hintime hstep => accords_of_step hreach hs hintime hstep
  exact ⟨hreach, haccords hserving⟩

theorem Accords.checkSequence (hs : s.Accords) (hcoupled : Coupled s.transaction s.backend.ports)
    (hqueue : s.backend.publicEvents = .policyTurn turn :: events) :
    s.checkSequence turn = .ok () := by
  have hnumbered := (hs.numbered turn (by simp [hqueue])).2
  have hawaited := hs.awaited
  unfold Session.checkSequence
  rw [if_neg]
  · simp only [RiverBackend.ports, hqueue] at hcoupled
    generalize s.transaction = tr at hcoupled hawaited ⊢
    generalize s.backend.pendingResponse = pending, s.backend.openTurn = id,
      s.backend.drainTicket = ticket, s.backend.exitStarted = exit at hcoupled
    cases hcoupled with
    | turned hawaits hdrains =>
      cases tr with
      | idle | awaitingExternalTurn _ | awaitingInternalTurn _ => simp [hdrains]
      | _ => exact hawaits.elim
    | overtaken => exact absurd hqueue (hawaited _ rfl turn events)
    | superseded hdrains => simp [hdrains]
  · cases hlast : s.lastPolicyTurn with
    | none => simp
    | some last => simpa using hnumbered last hlast

theorem reference_of_legal {known : Finset BackendWindowId}
    {before after : List BackendPolicyEvent} {event : BackendPolicyEvent} {id : BackendWindowId}
    (h : s.Legal known (before ++ event :: after)) (hid : event.reference = some id) :
    id ∈ before.foldl advance known :=
  ((legal_append.mp h).2.1).reference hid

/-- A turn that comes to the session in a run in time is accepted when there are ids and
effects left for it: each window it refers to was opened before and is not closed, and the
replay turn has the shape of a replay. -/
theorem turn_accepted (h : ReachableWhere InTime s) (hserving : s.Serving)
    {turn : BackendPolicyTurn} {events : List BackendEvent}
    (hqueue : s.backend.publicEvents = .policyTurn turn :: events)
    (hroom : s.HasRoom turn.events) :
    s.validatePolicyTurn turn = .ok () ∧
      (∀ before event after id, turn.events = before ++ event :: after →
        event.reference = some id → id ∈ before.foldl advance s.baseIds) ∧
      (s.phase = .initialReplay → Session.ReplayShape turn.events) := by
  obtain ⟨hreach, hs⟩ := h.accords hserving
  have hshaped := hs.shaped turn (by simp [hqueue])
  have hlegal : s.Legal s.baseIds turn.events := by
    have hlegal := hs.legal
    rw [unread, hqueue, flatMap_cons, append_assoc,
      Session.legal_append] at hlegal
    exact hlegal.1
  refine ⟨?_, fun before event after id heq hid => ?_, fun hphase => ?_⟩
  · exact validatePolicyTurn_of_legal
      (hs.checkSequence (hreach.engaged hserving) hqueue) hshaped hlegal hroom
  · rw [heq] at hlegal
    exact reference_of_legal hlegal hid
  · exact (decide_eq_true hphase ▸ hshaped : Session.Shaped true turn.events).replayShape

/-! ## A window that is used at once -/

/-- The condition on the order of events, as a scenario checks it. -/
def inTime (s : System) (input : Input) : Bool :=
  match s.delivered input with
  | some (.windowIdentifier id _) => (s.backend.windows.lookup id).all (·.pendingOpen)
  | some (.windowInteracted id) => (s.backend.windows.lookup id).all fun w => !w.pendingOpen
  | some (.bindingPressed _) | some (.bindingReleased _) | some (.bindingRepeatStopped _)
  | some .unboundKeyEaten => s.phase = .live
  | some (.modifiersChanged ..) => !s.backend.replay
  | some (.exclusiveFocus _) =>
    !s.backend.replay || s.backend.policyEvents.all fun fact => !fact.isExclusive
  | some .manageStart => s.backend.pendingResponse.all fun p => p.stage = .awaitCorrectionManage
  | _ => true

theorem inTime_of_eq_true (h : s.inTime input = true) : s.InTime input := by
  intro event hevent
  refine ⟨?_, ?_⟩
  · rintro id identifier w rfl hw
    simpa [inTime, hevent, hw] using h
  · cases event with
    | windowInteracted =>
      intro w hw
      simpa [inTime, hevent, hw] using h
    | manageStart =>
      intro pending hpending
      simpa [inTime, hevent, hpending] using h
    | exclusiveFocus =>
      intro hreplay
      simpa [inTime, hevent, hreplay] using h
    | bindingPressed _ | bindingReleased _ | bindingRepeatStopped _ | unboundKeyEaten
      | modifiersChanged _ _ => simpa [inTime, hevent, Timely] using h
    | _ => trivial

/-- A window is created and named, more messages come, and a manage sequence starts. -/
def managesWindow (messages : List Wire) : List (Option Input) :=
  some (sends ([
    .deliver (.client 4) (.windowCreated (.server 2)),
    .deliver (.server 2) (.windowIdentifier (.server 2) "w")] ++ messages ++
    [.deliver (.client 4) .manageStart])) :: quanta (5 + messages.length)

def nextTurn (s : System) : Option BackendPolicyTurn :=
  match s.backend.publicEvents with
  | .policyTurn turn :: _ => some turn
  | _ => none

theorem exists_of_nextTurn (h : s.nextTurn = some turn) :
    ∃ events, s.backend.publicEvents = .policyTurn turn :: events := by
  unfold nextTurn at h
  split at h
  · rename_i heq
    cases h
    exact ⟨_, heq⟩
  · cases h

/-- A scenario whose next turn finds ids and effects left, in the live phase. -/
def managed (p : BackendPolicyTurn → System → Bool) (s : System) : Bool :=
  decide (s.phase = .live) && s.nextTurn.any fun turn =>
    decide (s.turnBase.nextWinId + turn.events.countP BackendPolicyEvent.opens ≤ u64Max) &&
    decide ((s.active.map (·.stagedEffects.length)).getD 0 + turn.events.countP s.stages ≤
      maxStagedEffects) && p turn s

theorem exists_of_managed {p : BackendPolicyTurn → System → Bool} (h : s.managed p = true) :
    s.Serving ∧ ∃ turn events, s.backend.publicEvents = .policyTurn turn :: events ∧
      s.HasRoom turn.events ∧ p turn s = true := by
  simp only [managed, Bool.and_eq_true, decide_eq_true_eq, Option.any_eq_true] at h
  obtain ⟨hphase, turn, hturn, ⟨hids, heffects⟩, hp⟩ := h
  obtain ⟨events, hqueue⟩ := exists_of_nextTurn hturn
  exact ⟨by simp [Session.Serving, hphase], turn, events, hqueue, ⟨hids, heffects⟩, hp⟩

theorem turn_accepted_plain : ∃ (s : System) (turn : BackendPolicyTurn),
    ReachableWhere InTime s ∧ s.Serving ∧ turn.events.any BackendPolicyEvent.opens = true ∧
      s.validatePolicyTurn turn = .ok () := by
  have hsome : (plainLive (managesWindow [])).isSome := by decide +kernel
  obtain ⟨s, hs⟩ := isSome_iff_exists.mp hsome
  have hmeets : ((plainStart []).all fun s =>
      s.meets inTime (goesLive ++ managesWindow [])) = true := by decide +kernel
  have hreach := (reachableWhere_plainLive hmeets hs).mono fun _ _ => inTime_of_eq_true
  have hmanaged : (plainLive (managesWindow [])).all
      (·.managed fun turn _ => turn.events.any BackendPolicyEvent.opens) := by decide +kernel
  rw [hs, all_some] at hmanaged
  obtain ⟨hserving, turn, events, hqueue, hroom, hopens⟩ := exists_of_managed hmanaged
  exact ⟨s, turn, hreach, hserving, hopens, (turn_accepted hreach hserving hqueue hroom).1⟩

/-- A window is clicked as soon as it is named, and the turn that reports it is refused. -/
theorem turn_refused : ¬ ∀ (s : System) (turn : BackendPolicyTurn) (events : List BackendEvent),
    ReachableWhere NamesOnce s → s.Serving →
    s.backend.publicEvents = .policyTurn turn :: events → s.HasRoom turn.events →
      s.validatePolicyTurn turn = .ok () := by
  intro hall
  let clicks : List Wire := [.deliver (.server 1) (.windowInteracted (.server 2))]
  have hsome : (plainLive (managesWindow clicks)).isSome := by decide +kernel
  obtain ⟨s, hs⟩ := isSome_iff_exists.mp hsome
  have hmeets : ((plainStart []).all fun s =>
      s.meets namesOnce (goesLive ++ managesWindow clicks)) = true := by decide +kernel
  have hreach := (reachableWhere_plainLive hmeets hs).mono fun _ _ => namesOnce_of_eq_true
  have hmanaged : (plainLive (managesWindow clicks)).all
      (·.managed fun turn s => decide (s.validatePolicyTurn turn ≠ .ok ())) := by decide +kernel
  rw [hs, all_some] at hmanaged
  obtain ⟨hserving, turn, events, hqueue, hroom, hrefused⟩ := exists_of_managed hmanaged
  exact (of_decide_eq_true hrefused) (hall s turn events hreach hserving hqueue hroom)

end System

end Realm
