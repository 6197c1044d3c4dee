import Realm.River.Turns

/-!
# Moves of the backend

The backend changes by the operations the session asks for, by service quanta and
by what River and the kernel do.  A quantum does one of a few things, and only one
of them applies an event of River.
-/

namespace Realm

open River Guard Transport

/-- What River and the kernel do by themselves. -/
inductive RiverMove where
  | sends (messages : List (ℕ × Wire)) (bytes : ℕ)
  | takes (room : ℕ)
  | closes

def RiverMove.apply : RiverMove → Transport → Transport
  | sends messages bytes, t =>
    { t with stream := t.stream ++ messages, kernel := t.kernel + bytes }
  | takes room, t => { t with room := room }
  | closes, t => { t with closed := true }

theorem RiverMove.objects_apply (move : RiverMove) (t : Transport) :
    (move.apply t).objects = t.objects := by
  cases move <;> rfl

namespace River.Transport

variable {t t' : Transport} {result : DispatchOne}

/-- Only the incoming side of the connection changed. -/
structure Reads (t t' : Transport) : Prop where
  frame : ∃ stream inData kernel boundedNeedsRead objects, t' = { t with
    stream := stream
    inData := inData
    kernel := kernel
    boundedNeedsRead := boundedNeedsRead
    objects := objects }
  objects : t.objects ⊆ t'.objects

theorem Reads.refl (t : Transport) : t.Reads t := ⟨⟨_, _, _, _, _, rfl⟩, List.Subset.refl _⟩

theorem reads_readOnce (h : t.readOnce = (.ok (), t')) : t.Reads t' := by
  unfold readOnce at h
  split at h
  · cases h
  split at h
  · cases h
  split at h
  · split at h
    · cases h
    · cases h
      exact ⟨⟨_, _, _, _, _, rfl⟩, List.Subset.refl _⟩
  · cases h
    exact ⟨⟨_, _, _, _, _, rfl⟩, List.Subset.refl _⟩

def Flushes (t t' : Transport) : Prop :=
  ∃ outBytes room, t' = { t with outBytes := outBytes, room := room }

theorem flushes_flushOnce {result : FlushOnce} (h : t.flushOnce = (.ok result, t')) :
    t.Flushes t' := by
  unfold flushOnce at h
  split at h
  · cases h
  split at h
  · cases h
    exact ⟨_, _, rfl⟩
  split at h
  · cases h
  split at h
  · cases h
    exact ⟨_, _, rfl⟩
  · simp only [Prod.mk.injEq] at h
    exact ⟨_, _, h.2.symm⟩

theorem Flushes.objects (h : t.Flushes t') : t.objects ⊆ t'.objects := by
  obtain ⟨_, _, rfl⟩ := h
  exact List.Subset.refl _

/-- A dispatched event names what River may name; a created object is new. -/
structure Dispatches (t t' : Transport) (event : Incoming) : Prop where
  reads : t.Reads t'
  creates : ∀ id, event.creates = some id → id ∉ t.objects ∧ id ∈ t'.objects

theorem exists_callback {sender : ObjectId} {event : Incoming}
    (h : t.callback sender event = (.ok result, t')) :
    t.Dispatches t' event ∧ (result = .dispatched none ∨ result = .dispatched (some event)) := by
  unfold callback at h
  split at h
  · cases h
  rename_i hknown
  simp only [Prod.mk.injEq, Except.ok.injEq] at h
  obtain ⟨rfl, rfl⟩ := h
  refine ⟨⟨⟨⟨_, _, _, _, _, rfl⟩, List.subset_append_right _ _⟩, fun id hid => ?_⟩, ?_⟩
  · simp only [not_or, hid, Option.any_some, decide_eq_true_eq] at hknown
    exact ⟨hknown.2.2.2, by simp [hid]⟩
  · split
    · exact .inl rfl
    · exact .inr rfl

theorem Reads.trans {t'' : Transport} (h : t.Reads t') (h' : t'.Reads t'') : t.Reads t'' := by
  obtain ⟨⟨_, _, _, _, _, rfl⟩, hobjects⟩ := h
  obtain ⟨⟨_, _, _, _, _, rfl⟩, hobjects'⟩ := h'
  exact ⟨⟨_, _, _, _, _, rfl⟩, List.Subset.trans hobjects hobjects'⟩

theorem exists_dispatchOnePending {preparedRead : Bool}
    (h : t.dispatchOnePending preparedRead = (.ok result, t')) :
    t.Reads t' ∧ ∀ event, result = .dispatched (some event) → t.Dispatches t' event := by
  unfold dispatchOnePending at h
  split at h
  · cases h
    exact ⟨.refl _, by simp⟩
  split at h
  · cases h
  split at h
  · cases h
    exact ⟨⟨⟨_, _, _, _, _, rfl⟩, List.Subset.refl _⟩, by simp⟩
  split at h
  · cases h
    exact ⟨⟨⟨_, _, _, _, _, rfl⟩, List.Subset.refl _⟩, by simp⟩
  simp only at h
  split at h
  · cases h
    exact ⟨⟨⟨_, _, _, _, _, rfl⟩, List.Subset.refl _⟩, by simp⟩
  · cases h
  · obtain ⟨hdispatch, hresult⟩ := exists_callback h
    have hreads : t.Reads t' := by
      refine Reads.trans ?_ hdispatch.reads
      exact ⟨⟨_, _, _, _, _, rfl⟩, List.Subset.refl _⟩
    refine ⟨hreads, fun event heq => ?_⟩
    rcases hresult with rfl | rfl
    · cases heq
    · cases heq
      exact ⟨hreads, hdispatch.creates⟩

end River.Transport

namespace RiverBackend

variable {b b' : RiverBackend} {ready : BackendReady} {event : Incoming}
  {specs : List BackendBindingSpec} {t : Transport} {label : Option Incoming} {c : RiverBackend}
  {handshake : Handshake}

/-! ## Service quanta -/

/-- A quantum at this readiness flushes. -/
def flushDue (b : RiverBackend) (ready : BackendReady) : Bool :=
  b.flushPending && (!b.flushBlocked || ready.writable)

/-- The event a quantum applies, when it applies one. -/
def delivered (b : RiverBackend) (ready : BackendReady) : Option Incoming :=
  if b.flushDue ready || b.exitStarted || !b.publicEvents.isEmpty || b.openTurn.isSome ||
      b.readGuard then none
  else
    match (b.transport.dispatchOnePending b.readGuard).1 with
    | .ok (.dispatched event) => event
    | _ => none

/-- Events of River are received in these states only. -/
structure Idle (b : RiverBackend) : Prop where
  exitStarted : b.exitStarted = false
  publicEvents : b.publicEvents = []
  openTurn : b.openTurn = none

/-- What a complete flush does: the response that waited for it is complete. -/
inductive Flushed (b : RiverBackend) : RiverBackend → Prop
  | exit (h : b.exitStarted = true) : Flushed b { b with
      flushPending := false
      flushBlocked := false
      exitFlushed := true
      pendingResponse := none }
  | quiet (h : b.exitStarted = false)
      (hstage : ∀ pending, b.pendingResponse = some pending → pending.stage ≠ .flushingRender) :
      Flushed b { b with flushPending := false, flushBlocked := false }
  | failed {pending : PendingResponse} {error : BackendError} (h : b.exitStarted = false)
      (hpending : b.pendingResponse = some pending) (hstage : pending.stage = .flushingRender)
      (herror : pending.terminalError = some error) : Flushed b { b with
        flushPending := false
        flushBlocked := false
        pendingResponse := none
        publicEvents := b.publicEvents ++ [.operationCompleted pending.ticket (.error error)] }
  | completed {pending : PendingResponse} (h : b.exitStarted = false)
      (hpending : b.pendingResponse = some pending) (hstage : pending.stage = .flushingRender)
      (herror : pending.terminalError = none) : Flushed b { b with
        flushPending := false
        flushBlocked := false
        pendingResponse := none
        lastProjection := pending.response.projection.or b.lastProjection
        publicEvents := b.publicEvents ++ [.operationCompleted pending.ticket (.ok ())]
        drainTicket := some pending.ticket }

theorem flushed_spec (b : RiverBackend) : Flushed b b.flushed := by
  unfold flushed
  simp only
  split
  · exact .exit ‹_›
  rename_i hexit
  have hexit : b.exitStarted = false := by simpa using hexit
  split
  · rename_i hpending
    exact .quiet hexit (by simp [hpending])
  rename_i pending hpending
  split
  · rename_i hstage
    refine .quiet hexit fun p hp => ?_
    cases hpending.symm.trans hp
    exact hstage
  rename_i hstage
  have hstage : pending.stage = .flushingRender := not_not.mp hstage
  split
  · exact .failed hexit hpending hstage ‹_›
  · exact .completed hexit hpending hstage ‹_›

/-- One quantum of service, by what it does. -/
inductive Quantum (b : RiverBackend) (ready : BackendReady) :
    Option BackendEvent → RiverBackend → Prop
  | partialFlush {t : Transport} {blocked : Bool} (h : b.flushDue ready = true)
      (ht : b.transport.Flushes t) :
      Quantum b ready none { b with transport := t, flushBlocked := blocked }
  | flush {t : Transport} {b' : RiverBackend} (h : b.flushDue ready = true)
      (ht : b.transport.Flushes t) (hflushed : Flushed { b with transport := t } b') :
      Quantum b ready none b'
  | exitWait (h : b.exitStarted = true) : Quantum b ready none b
  | exited (h : b.exitStarted = true) (hflushed : b.exitFlushed = true)
      (hready : ready.terminal = true) :
      Quantum b ready (some .disconnected) { b with exitComplete := true }
  | publish {event : BackendEvent} {events : List BackendEvent} (hexit : b.exitStarted = false)
      (h : b.publicEvents = event :: events) :
      Quantum b ready (some event) { b with publicEvents := events }
  | answering (h : b.openTurn.isSome) : Quantum b ready none b
  | read {t : Transport} {guard : Bool} (h : b.Idle) (hdelivered : b.delivered ready = none)
      (ht : b.transport.Reads t) :
      Quantum b ready none { b with transport := t, readGuard := guard }
  | drain {t : Transport} {ticket : BackendTicket} (h : b.Idle)
      (hdelivered : b.delivered ready = none) (ht : b.transport.Reads t)
      (hticket : b.drainTicket = some ticket) : Quantum b ready none { b with
        transport := t
        drainTicket := none
        publicEvents := [.retainedObservationsDrained ticket] }
  | deliver {t : Transport} {event : Incoming} {b' : RiverBackend} (h : b.Idle)
      (hdelivered : b.delivered ready = some event) (ht : b.transport.Dispatches t event)
      (happly : { b with transport := t }.applyRuntimeEvent event = .ok b') :
      Quantum b ready none b'

theorem quantum_of_flush (hdue : b.flushDue ready = true)
    (h : b.flush = .ok b') : Quantum b ready none b' := by
  unfold flush at h
  split at h
  · cases h
  all_goals
    rename_i hflush
    have hflushes := flushes_flushOnce hflush
    cases h
  · exact .flush hdue hflushes (flushed_spec _)
  · exact .partialFlush hdue hflushes
  · exact .partialFlush hdue hflushes

theorem quantum_of_read (hidle : b.Idle) (hdelivered : b.delivered ready = none)
    (ht : b.transport.Reads t) (h : { b with transport := t }.read ready = .ok b') :
    Quantum b ready none b' := by
  unfold read at h
  split at h
  · split at h
    · cases h
    · rename_i hread
      cases h
      exact .read hidle hdelivered (ht.trans (reads_readOnce hread))
  split at h
  · cases h
    exact .read hidle hdelivered ht
  · cases h
    exact .read hidle hdelivered ht

theorem quantum_of_receive (hidle : b.Idle)
    (hdue : b.flushDue ready = false) (h : b.receive ready = .ok b') : Quantum b ready none b' := by
  unfold receive at h
  split at h
  · rename_i hguard
    exact quantum_of_read hidle (by simp [delivered, hguard]) (.refl _) h
  rename_i hguard
  have hdelivered : b.delivered ready =
      match (b.transport.dispatchOnePending b.readGuard).1 with
      | .ok (.dispatched event) => event
      | _ => none := by
    simp [delivered, hdue, hidle.exitStarted, hidle.publicEvents, hidle.openTurn, hguard]
  split at h
  · cases h
  · rename_i hdispatch
    cases h
    exact .read hidle (by rw [hdelivered, hdispatch])
      (exists_dispatchOnePending hdispatch).1
  · rename_i event t hdispatch
    exact .deliver hidle (by rw [hdelivered, hdispatch])
      ((exists_dispatchOnePending hdispatch).2 event rfl) h
  · cases h
  · rename_i hdispatch
    have ht := (exists_dispatchOnePending hdispatch).1
    have hnone : b.delivered ready = none := by rw [hdelivered, hdispatch]
    split at h
    · cases h
      rw [hidle.publicEvents]
      exact .drain hidle hnone ht ‹_›
    · exact quantum_of_read hidle hnone ht h

theorem quantum_of_service {event : Option BackendEvent}
    (h : b.service ready = .ok (event, b')) : Quantum b ready event b' := by
  unfold service at h
  split at h
  · cases h
  split at h
  · rename_i hdue
    obtain ⟨c, hflush, heq⟩ := map_eq_ok.mp h
    simp only [Prod.mk.injEq] at heq
    obtain ⟨rfl, rfl⟩ := heq
    exact quantum_of_flush hdue hflush
  rename_i hdue
  split at h
  · rename_i hexit
    split at h
    · cases h
    split at h
    · rename_i hready
      cases h
      simp only [Bool.and_eq_true] at hready
      exact .exited hexit hready.2 hready.1
    · cases h
      exact .exitWait hexit
  rename_i hexit
  have hexit : b.exitStarted = false := by simpa using hexit
  split at h
  · cases h
    exact .publish hexit ‹_›
  rename_i hpublic
  split at h
  · cases h
    exact .answering ‹_›
  rename_i hopen
  obtain ⟨c, hreceive, heq⟩ := map_eq_ok.mp h
  simp only [Prod.mk.injEq] at heq
  obtain ⟨rfl, rfl⟩ := heq
  refine quantum_of_receive ⟨hexit, hpublic, by simpa using hopen⟩ ?_ hreceive
  simpa [flushDue] using hdue

theorem service_of_delivered
    (h : b.delivered ready = some event) : b.Idle ∧ ∃ t, b.transport.Dispatches t event ∧
      b.service ready =
        ({ b with transport := t }.applyRuntimeEvent event).map fun b => (none, b) := by
  unfold delivered at h
  split at h
  · cases h
  rename_i hidle
  simp only [flushDue, Bool.or_eq_true, not_or, Bool.not_eq_true, Bool.not_eq_true',
    Bool.not_eq_false, List.isEmpty_iff, Option.isSome_eq_false_iff, Option.isNone_iff_eq_none]
    at hidle
  obtain ⟨⟨⟨⟨hflush, hexit⟩, hpublic⟩, hopen⟩, hguard⟩ := hidle
  refine ⟨⟨hexit, hpublic, hopen⟩, ?_⟩
  split at h
  · rename_i hdispatch
    obtain rfl := h
    have hpair : b.transport.dispatchOnePending b.readGuard =
        (.ok (.dispatched (some event)), (b.transport.dispatchOnePending b.readGuard).2) := by
      rw [← hdispatch]
    refine ⟨_, (exists_dispatchOnePending hpair).2 event rfl, ?_⟩
    unfold service receive
    rw [hpair]
    simp [hexit, hflush, hpublic, hopen, hguard]
  · cases h

/-! ## Moves -/

/-- One thing the session asks of the backend. -/
inductive Ask (b : RiverBackend) : RiverBackend → Prop
  | assign {bid : BackendWindowId} {win : WinId} {b' : RiverBackend}
      (h : b.assignWindow bid win = .ok b') : Ask b b'
  | request {b' : RiverBackend} (h : b.requestPolicyTurn = .ok b') : Ask b b'
  | respond {turn : BackendPolicyTurnId} {ticket : BackendTicket}
      {response : BackendPolicyResponse} {b' : RiverBackend}
      (h : b.respondPolicyTurn turn ticket response = .ok b') : Ask b b'
  | exit {policy : BackendExitPolicy} {b' : RiverBackend}
      (h : b.beginExitSession policy = .ok b') : Ask b b'

/-- What the session asks in a row. -/
abbrev Asks : RiverBackend → RiverBackend → Prop := Relation.ReflTransGen Ask

/-- Windows are assigned in a row. -/
abbrev Assigned : RiverBackend → RiverBackend → Prop :=
  Relation.ReflTransGen fun b b' => ∃ bid win, b.assignWindow bid win = .ok b'

theorem Assigned.asks (h : b.Assigned b') : b.Asks b' := by
  refine Relation.ReflTransGen.mono ?_ _ _ h
  rintro c d ⟨bid, win, hassign⟩
  exact .assign hassign

/-- One change of the backend, with the event of River it applies. -/
inductive Move (b : RiverBackend) : Option Incoming → RiverBackend → Prop
  | river (move : RiverMove) : Move b none { b with transport := move.apply b.transport }
  | ask {b' : RiverBackend} (h : Ask b b') : Move b none b'
  | service {ready : BackendReady} {event : Option BackendEvent} {b' : RiverBackend}
      (h : b.service ready = .ok (event, b')) : Move b (b.delivered ready) b'

/-- A sequence of moves that apply allowed events only. -/
inductive Moves (allowed : Incoming → Prop) (b : RiverBackend) : RiverBackend → Prop
  | refl : Moves allowed b b
  | tail {c d : RiverBackend} {label : Option Incoming} (h : Moves allowed b c)
      (hmove : Move c label d) (hallowed : ∀ event, label = some event → allowed event) :
      Moves allowed b d

namespace Moves

variable {allowed allowed' : Incoming → Prop} {c : RiverBackend}

theorem single (hmove : Move b label b') (hallowed : ∀ event, label = some event → allowed event) :
    Moves allowed b b' :=
  .tail .refl hmove hallowed

theorem trans (h : Moves allowed b b') (h' : Moves allowed b' c) : Moves allowed b c := by
  induction h' with
  | refl => exact h
  | tail _ hmove hallowed ih => exact ih.tail hmove hallowed

theorem of_asks (h : Asks b b') : Moves allowed b b' := by
  induction h with
  | refl => exact .refl
  | tail _ hask ih => exact ih.tail (.ask hask) (by simp)

theorem invariant {P : RiverBackend → Prop}
    (hstep : ∀ {c label d}, P c → Move c label d → (∀ event, label = some event → allowed event) →
      P d) (h : Moves allowed b b') (hb : P b) : P b' := by
  induction h with
  | refl => exact hb
  | tail _ hmove hallowed ih => exact hstep ih hmove hallowed

end Moves

/-! ## What every move keeps -/

theorem applyRuntimeEvent_cases (h : b.applyRuntimeEvent event = .ok b') :
    event = .renderStart ∧ b.renderStart = .ok b' ∨ event = .manageStart ∧ b.manageStart = .ok b' ∨
    event ≠ .renderStart ∧ event ≠ .manageStart ∧ b.applyEvent event = .ok b' ∧ b'.Within := by
  unfold applyRuntimeEvent at h
  split at h
  · exact .inl ⟨‹_›, h⟩
  rename_i hrender
  obtain ⟨c, happly, hvalid⟩ := bind_eq_ok.mp h
  obtain ⟨rfl, hwithin⟩ := validatePolicyCapacity_eq_ok.mp hvalid
  by_cases hmanage : event = .manageStart
  · subst hmanage
    exact .inr (.inl ⟨rfl, happly⟩)
  · exact .inr (.inr ⟨hrender, hmanage, happly, hwithin⟩)

/-- Windows, identities and facts rest while the exchange with the session goes on. -/
structure Rests (b b' : RiverBackend) : Prop where
  connected : b'.connected = b.connected
  windowManager : b'.windowManager = b.windowManager
  windows : b'.windows = b.windows
  windowIds : b'.windowIds = b.windowIds
  realmIds : b'.realmIds = b.realmIds
  policyEvents : b'.policyEvents = b.policyEvents
  replay : b'.replay = b.replay
  objects : b.transport.objects ⊆ b'.transport.objects

theorem Rests.sameBindings (h : Rests b b') : SameBindings b b' :=
  ⟨fun _ => by rw [h.windows], h.windowIds, h.realmIds, h.objects⟩

theorem rests_flushed (h : Flushed b b') : Rests b b' := by
  cases h <;> exact ⟨rfl, rfl, rfl, rfl, rfl, rfl, rfl, List.Subset.refl _⟩

theorem rests_completes (h : Completes b b') : Rests b b' := by
  cases h <;> exact ⟨rfl, rfl, rfl, rfl, rfl, rfl, rfl, List.Subset.refl _⟩

/-- The connected backend: its identities are linked, its facts fit into a turn,
and after the exit request nothing is received any more. -/
structure Sound (b : RiverBackend) : Prop where
  connected : b.connected = true
  windowManager : b.windowManager.isSome
  linked : b.Linked
  within : b.Within
  exit : b.exitStarted = true → b.openTurn = none ∧ b.readGuard = false ∧ b.publicEvents = []

namespace Sound

theorem of_rests (hb : b.Sound) (h : Rests b b') (hexit : b'.exitStarted = true →
      b'.openTurn = none ∧ b'.readGuard = false ∧ b'.publicEvents = []) : b'.Sound where
  connected := h.connected.trans hb.connected
  windowManager := h.windowManager ▸ hb.windowManager
  linked := h.sameBindings.linked hb.linked
  within := by
    rw [Within, h.policyEvents, h.replay]
    exact hb.within
  exit := hexit

theorem of_repaints (h : Repaints b b') (hb : b.Sound) : b'.Sound := by
  have hlinked := h.sameBindings.linked hb.linked
  obtain ⟨⟨_, _, _, _, _, _, _, rfl⟩, -, -, -⟩ := h
  exact ⟨hb.connected, hb.windowManager, hlinked, hb.within, hb.exit⟩

theorem of_transport (hb : b.Sound) (h : b.transport.objects ⊆ t.objects) :
    { b with transport := t }.Sound :=
  hb.of_rests ⟨rfl, rfl, rfl, rfl, rfl, rfl, rfl, h⟩ hb.exit

theorem of_flushed (hb : b.Sound) (h : Flushed b b') : b'.Sound := by
  refine hb.of_rests (rests_flushed h) ?_
  cases h with
  | exit | quiet => exact hb.exit
  | failed hexit | completed hexit => exact fun h => absurd (hexit.symm.trans h) (by simp)

theorem of_finishPolicyTurn (hb : b.Sound) (hexit : b.exitStarted = false)
    (h : b.finishPolicyTurn = .ok b') : b'.Sound := by
  have hlinked := linked_finishPolicyTurn hb.linked h
  obtain ⟨_, _, _, id, events, -, -, rfl⟩ := exists_finishPolicyTurn h
  exact ⟨hb.connected, hb.windowManager, hlinked, ⟨Nat.zero_le _, Nat.zero_le _⟩,
    fun h => absurd (hexit.symm.trans h) (by simp)⟩

theorem of_completes (hb : b.Sound) (hexit : b.exitStarted = false) (h : Completes b c) :
    c.Sound ∧ c.exitStarted = false := by
  have hc : c.exitStarted = false := by
    cases h <;> exact hexit
  exact ⟨hb.of_rests (rests_completes h) fun h => absurd (hc.symm.trans h) (by simp), hc⟩

theorem of_applyRuntimeEvent (hb : b.Sound) (hexit : b.exitStarted = false) (hfresh : b.Fresh event)
    (h : b.applyRuntimeEvent event = .ok b') : b'.Sound := by
  rcases applyRuntimeEvent_cases h with ⟨-, h⟩ | ⟨-, h⟩ | ⟨-, hmanage, h, hwithin⟩
  · obtain ⟨pending, -, hpaint⟩ := exists_renderStart h
    refine of_repaints hpaint (hb.of_rests ⟨rfl, rfl, rfl, rfl, rfl, rfl, rfl, ?_⟩ hb.exit)
    exact List.Subset.refl _
  · obtain ⟨c, hcompletes, hfinish⟩ := exists_manageStart h
    obtain ⟨hc, hcexit⟩ := hb.of_completes hexit hcompletes
    exact hc.of_finishPolicyTurn hcexit hfinish
  · have hexchange := (applied_applyEvent hmanage h).exchange
    simp only [exchange, Exchange.mk.injEq] at hexchange
    refine ⟨hexchange.1.trans hb.connected, hexchange.2.1 ▸ hb.windowManager,
      linked_applyEvent hb.linked hfresh hmanage h, hwithin, fun h => ?_⟩
    simp [hexchange, hexit] at h

/-- What River creates is new to the backend. -/
theorem fresh_of_dispatches (hb : b.Sound) (ht : b.transport.Dispatches t event) :
    { b with transport := t }.Fresh event := by
  rintro id rfl
  obtain ⟨hnew, hknown⟩ := ht.creates id rfl
  have hunlinked := hb.linked.unlinked hnew
  exact ⟨⟨hunlinked.windows, hunlinked.windowIds⟩, hknown⟩

theorem of_quantum (hb : b.Sound) {ready : BackendReady} {event : Option BackendEvent}
    (h : Quantum b ready event b') : b'.Sound := by
  cases h with
  | partialFlush _ ht => exact hb.of_rests ⟨rfl, rfl, rfl, rfl, rfl, rfl, rfl, ht.objects⟩ hb.exit
  | flush _ ht hflushed => exact (hb.of_transport ht.objects).of_flushed hflushed
  | exitWait | answering => exact hb
  | exited =>
    exact hb.of_rests ⟨rfl, rfl, rfl, rfl, rfl, rfl, rfl, List.Subset.refl _⟩ hb.exit
  | publish hexit =>
    exact hb.of_rests ⟨rfl, rfl, rfl, rfl, rfl, rfl, rfl, List.Subset.refl _⟩
      fun h => absurd (hexit.symm.trans h) (by simp)
  | read hidle _ ht | drain hidle _ ht =>
    exact hb.of_rests ⟨rfl, rfl, rfl, rfl, rfl, rfl, rfl, ht.objects⟩
      fun h => absurd (hidle.exitStarted.symm.trans h) (by simp)
  | deliver hidle _ ht happly =>
    exact (hb.of_transport ht.reads.objects).of_applyRuntimeEvent hidle.exitStarted
      (hb.fresh_of_dispatches ht) happly

theorem of_ask (hb : b.Sound) (h : Ask b b') : b'.Sound := by
  cases h with
  | assign h =>
    have hlinked := linked_assignWindow hb.linked h
    obtain ⟨_, _, _, _, ⟨-, rfl⟩ | ⟨-, -, rfl⟩⟩ := exists_assignWindow h
    · exact hb
    · exact ⟨hb.connected, hb.windowManager, hlinked, hb.within, hb.exit⟩
  | request h =>
    obtain ⟨-, -, flush, hpaint⟩ := exists_requestPolicyTurn h
    refine of_repaints hpaint (hb.of_rests ⟨rfl, rfl, rfl, rfl, rfl, rfl, rfl, ?_⟩ hb.exit)
    exact List.Subset.refl _
  | respond h =>
    obtain ⟨hturn, pending, -, hpaint⟩ := exists_respondPolicyTurn h
    refine of_repaints hpaint (hb.of_rests ⟨rfl, rfl, rfl, rfl, rfl, rfl, rfl, ?_⟩ fun hexit => ?_)
    · exact List.Subset.refl _
    · exact absurd ((hb.exit hexit).1.symm.trans hturn) (by simp)
  | exit h =>
    obtain ⟨-, -, hpaint⟩ := exists_beginExitSession h
    refine of_repaints hpaint (hb.of_rests ⟨rfl, rfl, rfl, rfl, rfl, rfl, rfl, ?_⟩
      fun _ => ⟨rfl, rfl, rfl⟩)
    exact List.Subset.refl _

theorem of_move (hb : b.Sound) (h : Move b label b') : b'.Sound := by
  cases h with
  | river move => exact hb.of_transport (move.objects_apply _ ▸ List.Subset.refl _)
  | ask h => exact hb.of_ask h
  | service h => exact hb.of_quantum (quantum_of_service h)

end Sound

/-! ## The connection -/

theorem sends_of_applyRuntimeEvent (h : b.applyRuntimeEvent event = .ok b') :
    b.transport.Sends b'.transport := by
  rcases applyRuntimeEvent_cases h with ⟨-, h⟩ | ⟨-, h⟩ | ⟨-, hmanage, h, -⟩
  · obtain ⟨pending, -, hpaint⟩ := exists_renderStart h
    exact hpaint.sends
  · obtain ⟨c, hcompletes, hfinish⟩ := exists_manageStart h
    obtain ⟨_, _, _, _, _, -, -, rfl⟩ := exists_finishPolicyTurn hfinish
    cases hcompletes <;> exact .refl _
  · exact (applied_applyEvent hmanage h).sends

theorem lastError_of_sends {t' : Transport} (h : t.Sends t') : t'.lastError = t.lastError := by
  obtain ⟨⟨_, _, _, _, _, rfl⟩, -⟩ := h
  rfl

/-- A fault of the connection ends the daemon, so none is ever left behind. -/
theorem lastError_of_move (h : Move b label b') :
    b'.transport.lastError = b.transport.lastError := by
  cases h with
  | river move => cases move <;> rfl
  | ask h =>
    cases h with
    | assign h =>
      obtain ⟨_, _, _, _, ⟨-, rfl⟩ | ⟨-, -, rfl⟩⟩ := exists_assignWindow h <;> rfl
    | request h =>
      obtain ⟨-, -, _, hpaint⟩ := exists_requestPolicyTurn h
      exact lastError_of_sends hpaint.sends
    | respond h =>
      obtain ⟨-, _, -, hpaint⟩ := exists_respondPolicyTurn h
      exact lastError_of_sends hpaint.sends
    | exit h =>
      obtain ⟨-, -, hpaint⟩ := exists_beginExitSession h
      exact lastError_of_sends hpaint.sends
  | service h =>
    cases quantum_of_service h with
    | partialFlush _ ht =>
      obtain ⟨_, _, rfl⟩ := ht
      rfl
    | flush _ ht hflushed =>
      obtain ⟨_, _, rfl⟩ := ht
      cases hflushed <;> rfl
    | exitWait | exited | publish | answering => rfl
    | read _ _ ht | drain _ _ ht =>
      obtain ⟨⟨_, _, _, _, _, rfl⟩, -⟩ := ht
      rfl
    | deliver _ _ ht happly =>
      have hsends := sends_of_applyRuntimeEvent happly
      obtain ⟨⟨⟨_, _, _, _, _, rfl⟩, -⟩, -⟩ := ht
      have hkept := lastError_of_sends hsends
      exact hkept

/-! ## The exit -/

def exitFlags (b : RiverBackend) : Bool × Bool × Bool :=
  (b.exitStarted, b.exitFlushed, b.exitComplete)

theorem Repaints.exitFlags (h : Repaints b b') : b'.exitFlags = b.exitFlags := by
  obtain ⟨⟨_, _, _, _, _, _, _, rfl⟩, -, -, -⟩ := h
  rfl

theorem exitFlags_applyRuntimeEvent (h : b.applyRuntimeEvent event = .ok b') :
    b'.exitFlags = b.exitFlags := by
  rcases applyRuntimeEvent_cases h with ⟨-, h⟩ | ⟨-, h⟩ | ⟨-, hmanage, h, -⟩
  · obtain ⟨pending, -, hpaint⟩ := exists_renderStart h
    exact hpaint.exitFlags
  · obtain ⟨c, hcompletes, hfinish⟩ := exists_manageStart h
    obtain ⟨_, _, _, _, _, -, -, rfl⟩ := exists_finishPolicyTurn hfinish
    cases hcompletes <;> rfl
  · have hexchange := (applied_applyEvent hmanage h).exchange
    simp only [exchange, Exchange.mk.injEq] at hexchange
    simp [exitFlags, hexchange]

/-- The exit is flushed after it started, and nothing is queued behind it. -/
def ExitSettled (b : RiverBackend) : Prop :=
  b.exitFlushed = true → b.exitStarted = true ∧ b.flushPending = false

/-- What the session asks never takes the exit back. -/
theorem exit_of_ask (h : Ask b b') : b'.exitComplete = b.exitComplete ∧
    b'.exitFlushed = b.exitFlushed ∧ (b.exitStarted = true → b'.exitStarted = true) ∧
    (b.Sound → b.exitStarted = true → b'.flushPending = b.flushPending) := by
  cases h with
  | assign h =>
    obtain ⟨_, _, _, _, ⟨-, rfl⟩ | ⟨-, -, rfl⟩⟩ := exists_assignWindow h
    · exact ⟨rfl, rfl, id, fun _ _ => rfl⟩
    · exact ⟨rfl, rfl, id, fun _ _ => rfl⟩
  | request h =>
    obtain ⟨-, hexit, flush, hpaint⟩ := exists_requestPolicyTurn h
    have hflags := hpaint.exitFlags
    simp only [exitFlags, Prod.mk.injEq] at hflags
    exact ⟨hflags.2.2, hflags.2.1, fun h => hflags.1.trans h, fun _ h => by simp [hexit] at h⟩
  | respond h =>
    obtain ⟨hturn, pending, -, hpaint⟩ := exists_respondPolicyTurn h
    have hflags := hpaint.exitFlags
    simp only [exitFlags, Prod.mk.injEq] at hflags
    refine ⟨hflags.2.2, hflags.2.1, fun h => hflags.1.trans h, fun hb h => ?_⟩
    exact absurd ((hb.exit h).1.symm.trans hturn) (by simp)
  | exit h =>
    obtain ⟨-, hexit, hpaint⟩ := exists_beginExitSession h
    have hflags := hpaint.exitFlags
    simp only [exitFlags, Prod.mk.injEq] at hflags
    exact ⟨hflags.2.2, hflags.2.1, fun _ => hflags.1, fun _ h => by simp [hexit] at h⟩

theorem exitSettled_of_ask (hb : b.Sound) (hsettled : b.ExitSettled) (h : Ask b b') :
    b'.ExitSettled := by
  obtain ⟨-, hflushed, hstarted, hpending⟩ := exit_of_ask h
  intro hflushed'
  obtain ⟨hexit, hflush⟩ := hsettled (hflushed ▸ hflushed')
  exact ⟨hstarted hexit, (hpending hb hexit).trans hflush⟩

theorem exit_of_quantum {event : Option BackendEvent}
    (h : Quantum b ready event b') : b'.exitStarted = b.exitStarted ∧
    (event ≠ some .disconnected → b'.exitComplete = b.exitComplete) ∧
    (b.ExitSettled → b'.ExitSettled) := by
  cases h with
  | partialFlush h =>
    refine ⟨rfl, fun _ => rfl, fun hsettled hflushed => ?_⟩
    have hpending := (hsettled hflushed).2
    simp [flushDue, hpending] at h
  | flush h ht hflushed =>
    cases hflushed with
    | exit hexit => exact ⟨rfl, fun _ => rfl, fun _ _ => ⟨hexit, rfl⟩⟩
    | quiet hexit | failed hexit | completed hexit =>
      refine ⟨rfl, fun _ => rfl, fun hsettled hflushed => ⟨(hsettled hflushed).1, rfl⟩⟩
  | exitWait | answering => exact ⟨rfl, fun _ => rfl, id⟩
  | exited => exact ⟨rfl, fun h => absurd rfl h, fun hsettled hflushed => hsettled hflushed⟩
  | publish | read | drain =>
    exact ⟨rfl, fun _ => rfl, fun hsettled hflushed => hsettled hflushed⟩
  | deliver hidle _ _ happly =>
    have hflags := exitFlags_applyRuntimeEvent happly
    simp only [exitFlags, Prod.mk.injEq] at hflags
    refine ⟨hflags.1, fun _ => hflags.2.2, fun hsettled hflushed => ?_⟩
    have hexit := (hsettled (hflags.2.1 ▸ hflushed)).1
    simp [hidle.exitStarted] at hexit

/-! ## A new connection -/

/-- Setting up a connection binds objects and settles input devices. -/
structure SetUp (b b' : RiverBackend) : Prop where
  frame : ∃ transport windowManager xkbBindings layerShell connected inputDevices
    libinputDevices libinputResults nextInputOrdinal nextLibinputOrdinal flushPending,
    b' = { b with
      transport := transport
      windowManager := windowManager
      xkbBindings := xkbBindings
      layerShell := layerShell
      connected := connected
      inputDevices := inputDevices
      libinputDevices := libinputDevices
      libinputResults := libinputResults
      nextInputOrdinal := nextInputOrdinal
      nextLibinputOrdinal := nextLibinputOrdinal
      flushPending := flushPending }
  sends : b.transport.Sends b'.transport

theorem SetUp.refl (b : RiverBackend) : SetUp b b :=
  ⟨⟨_, _, _, _, _, _, _, _, _, _, _, rfl⟩, .refl _⟩

theorem SetUp.trans (h : SetUp b c) (h' : SetUp c b') : SetUp b b' := by
  obtain ⟨⟨_, _, _, _, _, _, _, _, _, _, _, rfl⟩, hsends⟩ := h
  obtain ⟨⟨_, _, _, _, _, _, _, _, _, _, _, rfl⟩, hsends'⟩ := h'
  exact ⟨⟨_, _, _, _, _, _, _, _, _, _, _, rfl⟩, hsends.trans hsends'⟩

theorem setUp_inputRound {events : List Incoming} (h : b.inputRound events = .ok b') :
    SetUp b b' := by
  unfold inputRound at h
  split at h
  · cases h
  refine foldlM_rel SetUp.refl SetUp.trans (fun {c event c'} hc => ?_) h
  obtain ⟨hsends, heq⟩ := applyInputEvent_eq_ok hc
  exact ⟨⟨_, _, _, _, _, _, _, _, _, _, _, heq⟩, hsends⟩

theorem setUp_connect (hb : b.connected = false) (h : b.connect = .ok b') :
    SetUp b b' ∧ b'.connected = true ∧ b'.windowManager.isSome := by
  unfold connect at h
  rw [if_neg (by simp [hb])] at h
  split at h
  · cases h
  split at h
  · cases h
  obtain ⟨c, hdevices, h⟩ := bind_eq_ok.mp h
  obtain ⟨d, hresults, h⟩ := bind_eq_ok.mp h
  split at h
  · cases h
  cases h
  refine ⟨?_, rfl, rfl⟩
  have hround := (setUp_inputRound hdevices).trans (setUp_inputRound hresults)
  obtain ⟨⟨_, _, _, _, _, _, _, _, _, _, _, rfl⟩, hsends⟩ := hround
  refine ⟨⟨_, _, _, _, _, _, _, _, _, _, _, rfl⟩, ?_⟩
  have hbound : b.transport.Sends
      b.transport.construct.2.construct.2.construct.2.construct.2 :=
    ((Transport.Sends.construct _).trans (.construct _)).trans
      ((Transport.Sends.construct _).trans (.construct _))
  refine (hbound.trans hsends).trans ((Sends.construct _).trans ?_)
  exact ⟨⟨_, _, _, _, _, rfl⟩, List.Subset.refl _⟩

theorem exists_configureBindings (h : b.configureBindings specs = .ok b') :
    b' = { b with bindings := specs.foldl (fun m s => m.insert s.id s) ∅ } := by
  unfold configureBindings at h
  simp only [fail, ite_error_eq_ok, Except.ok.injEq] at h
  exact h.2.2.2.symm

theorem exists_connected (hconnect : (fromConnection handshake).connect = .ok c)
    (h : c.configureBindings specs = .ok b') :
    b'.connected = true ∧ b'.windowManager.isSome ∧ ∃ d, SetUp (fromConnection handshake) d ∧
      b' = { d with bindings := specs.foldl (fun m s => m.insert s.id s) ∅ } := by
  obtain ⟨hsetup, hconnected, hmanager⟩ := setUp_connect rfl hconnect
  obtain rfl := exists_configureBindings h
  exact ⟨hconnected, hmanager, c, hsetup, rfl⟩

theorem sound_of_connected (hconnect : (fromConnection handshake).connect = .ok c)
    (h : c.configureBindings specs = .ok b') : b'.Sound := by
  obtain ⟨hconnected, hmanager, d, ⟨⟨_, _, _, _, _, _, _, _, _, _, _, rfl⟩, -⟩, rfl⟩ :=
    exists_connected hconnect h
  refine ⟨hconnected, hmanager, ?_, ⟨Nat.zero_le _, Nat.zero_le _⟩, fun h => ?_⟩
  · constructor <;> simp [fromConnection]
  · simp [fromConnection] at h

end RiverBackend

end Realm
