import Realm.Runtime.Exchange

/-!
# The end of a transaction

After a response is complete the backend owes the session a barrier: everything
River had said before is handed over, in a turn or as drained.  The backend pays
as soon as it has looked at its buffer once more.  It does not look while it
holds a prepared read, and a prepared read is given up only when bytes arrive.
-/

namespace Realm

open River RiverBackend Guard List Transport

/-- An event that ends the wait for a drained ticket. -/
def Answers (k : BackendTicket) : BackendEvent → Prop
  | .retainedObservationsDrained ticket => ticket = k
  | .policyTurn turn => turn.drains = some k
  | _ => False

namespace RiverBackend

variable {b b' : RiverBackend} {k : BackendTicket} {t t' : Transport} {room : ℕ}

/-! ## Iterations of the event loop -/

def withRoom (b : RiverBackend) (room : ℕ) : RiverBackend :=
  { b with transport := { b.transport with room := room } }

/-- An iteration of the event loop on the backend, when River sends nothing: a
quantum is made with the readiness the loop passes, if there is one to make. -/
def iterateLoop (b : RiverBackend) (room : ℕ) : RiverOutcome (Option BackendEvent × RiverBackend) :=
  let b := b.withRoom room
  let ready := System.polled b
  if b.pollInterest.immediate || ready.readable || ready.terminal || ready.writable then
    b.service ready
  else .ok (none, b)

/-- Whatever room the socket has, no iteration fails, and finitely many end with an event
that answers the ticket. -/
inductive Drains (k : BackendTicket) : RiverBackend → Prop
  | intro {b : RiverBackend} (hsucceeds : ∀ room error, b.iterateLoop room ≠ .error error)
      (hemits : ∀ room event b', b.iterateLoop room = .ok (some event, b') → Answers k event)
      (hgoes : ∀ room b', b.iterateLoop room = .ok (none, b') → Drains k b') : Drains k b

/-- After iterations that publish nothing one fails: a whole message waits in the buffer and is
refused, or more bytes wait in the socket than the buffer may retain. -/
inductive Chokes : RiverBackend → Prop
  | refuses {b : RiverBackend} {room size : ℕ} {wire : Wire} {stream : List (ℕ × Wire)}
      {error : BackendError × RiverBackend} (hguard : b.readGuard = false)
      (hstream : b.transport.stream = (size, wire) :: stream) (hsize : size ≤ b.transport.inData)
      (h : b.iterateLoop room = .error error) : Chokes b
  | overflows {b : RiverBackend} {room : ℕ} {error : BackendError × RiverBackend}
      (hguard : b.readGuard = true)
      (hkernel : 0 < b.transport.kernel) (hfull : maxRetainedBytesIn ≤ b.transport.inData)
      (h : b.iterateLoop room = .error error) : Chokes b
  | goes {b b' : RiverBackend} {room : ℕ} (h : b.iterateLoop room = .ok (none, b'))
      (hb' : Chokes b') : Chokes b

theorem iterateLoop_of_immediate (h : (b.withRoom room).pollInterest.immediate = true) :
    b.iterateLoop room = (b.withRoom room).service notReady := by
  simp [iterateLoop, System.polled, h]

theorem service_eq (hexit : b.exitStarted = false) (ready : BackendReady) : b.service ready =
      if b.flushDue ready then b.flush.map fun b => (none, b) else
        match b.publicEvents with
        | event :: events => .ok (some event, { b with publicEvents := events })
        | [] =>
          if b.openTurn.isSome then .ok (none, b)
          else (b.receive ready).map fun b => (none, b) := by
  unfold service flushDue
  rw [if_neg (by simp [hexit])]
  by_cases hflush : (b.flushPending && (!b.flushBlocked || ready.writable)) = true
  · rw [if_pos hflush, if_pos hflush]
  · rw [if_neg hflush, if_neg hflush]
    exact if_neg (by simp [hexit])

/-! ## Flushing -/

/-- A partial send takes bytes; only a full socket blocks. -/
theorem flushOnce_progress {result : Transport.FlushOnce} (h : t.flushOnce = (.ok result, t')) :
    (result = .progress → t'.outBytes < t.outBytes) ∧
      (result = .wouldBlock → t' = t ∧ t.room = 0) := by
  unfold flushOnce at h
  split at h
  · cases h
  split at h
  · cases h
    exact ⟨by simp, by simp⟩
  rename_i hbytes
  split at h
  · cases h
  split at h
  · rename_i hroom
    cases h
    exact ⟨by simp, fun _ => ⟨rfl, hroom⟩⟩
  · rename_i hroom
    simp only [Prod.mk.injEq, Except.ok.injEq] at h
    obtain ⟨rfl, rfl⟩ := h
    refine ⟨fun _ => ?_, fun hblock => ?_⟩
    · simp only [maxBytesOut]
      omega
    · split at hblock <;> cases hblock

/-- How many flushes are left at most. -/
def flushWork (b : RiverBackend) : ℕ :=
  if b.flushPending then 2 * b.transport.outBytes + (if b.flushBlocked then 0 else 1) + 1 else 0

/-- A flush that is no attempt at a full socket is progress, and touches nothing else. -/
theorem exists_flush (hpending : b.pendingResponse = none) (hexit : b.exitStarted = false)
    (hdue : b.flushPending = true) (hroom : b.flushBlocked = true → 0 < b.transport.room)
    (h : b.flush = .ok b') :
    b'.flushWork < b.flushWork ∧ ∃ t pending blocked, b.transport.Flushes t ∧
      b' = { b with transport := t, flushPending := pending, flushBlocked := blocked } := by
  have hwork : b.flushWork =
      2 * b.transport.outBytes + (if b.flushBlocked then 0 else 1) + 1 := if_pos hdue
  unfold flush at h
  split at h
  · cases h
  all_goals
    rename_i hflush
    have hflushes := flushes_flushOnce hflush
    cases h
  · simp only [flushed, hexit, hpending]
    refine ⟨?_, _, _, _, hflushes, rfl⟩
    rw [hwork]
    simp [flushWork]
  · refine ⟨?_, _, _, _, hflushes, rfl⟩
    rw [hwork]
    have hless := (flushOnce_progress hflush).1 rfl
    simp only [flushWork, hdue, if_true, Bool.false_eq_true, if_false]
    split <;> omega
  · refine ⟨?_, _, _, _, hflushes, rfl⟩
    rw [hwork]
    obtain ⟨rfl, hfull⟩ := (flushOnce_progress hflush).2 rfl
    have hblocked : b.flushBlocked = false := by
      by_contra hblocked
      exact absurd (hroom (by simpa using hblocked)) (by omega)
    simp [flushWork, hdue, hblocked]

/-! ## What is owed is paid -/

theorem owed_cases (h : Coupled (.awaitingDrain k) b.ports) :
    b.exitStarted = false ∧ b.pendingResponse = none ∧
      (b.publicEvents = [] ∧ b.openTurn = none ∧ b.drainTicket = some k ∨
        ∃ event, b.publicEvents = [event] ∧ Answers k event) := by
  generalize hports : b.ports = p at h
  simp only [ports] at hports
  cases h with
  | rests h | turned h => exact h.elim
  | draining =>
    obtain ⟨hpending, hqueue, hopen, hticket, hexit⟩ := Ports.mk.inj hports
    exact ⟨hexit, hpending, .inl ⟨hqueue, hopen, hticket⟩⟩
  | drained =>
    obtain ⟨hpending, hqueue, -, -, hexit⟩ := Ports.mk.inj hports
    exact ⟨hexit, hpending, .inr ⟨_, hqueue, rfl⟩⟩
  | superseded hdrains =>
    obtain ⟨hpending, hqueue, -, -, hexit⟩ := Ports.mk.inj hports
    exact ⟨hexit, hpending, .inr ⟨_, hqueue, hdrains⟩⟩

/-- A backend that owes the drain of a ticket, on an open connection. -/
structure Owing (k : BackendTicket) (b : RiverBackend) : Prop where
  coupled : Coupled (.awaitingDrain k) b.ports
  closed : b.transport.closed = false
  lastError : b.transport.lastError = none

theorem exists_flushOnce (hlast : t.lastError = none) (hclosed : t.closed = false) :
    ∃ result t', t.flushOnce = (.ok result, t') := by
  simp only [flushOnce, hlast, hclosed, Bool.false_eq_true, if_false]
  split_ifs <;> exact ⟨_, _, rfl⟩

theorem Owing.exists_flush_eq_ok (hb : Owing k b) (room : ℕ) :
    ∃ b', (b.withRoom room).flush = .ok b' := by
  obtain ⟨result, t, h⟩ :=
    exists_flushOnce (t := (b.withRoom room).transport) hb.lastError hb.closed
  cases result <;> exact ⟨_, by rw [flush, h]⟩

theorem Owing.flush (hb : Owing k b) (hdue : b.flushPending = true)
    (hroom : b.flushBlocked = true → 0 < room) :
    ∃ b', (b.withRoom room).flush = .ok b' ∧ Owing k b' ∧ b'.flushWork < b.flushWork ∧
      b'.publicEvents = b.publicEvents ∧ b'.readGuard = b.readGuard ∧
      b'.connected = b.connected ∧ b'.transport.stream = b.transport.stream ∧
      b'.transport.inData = b.transport.inData ∧ b'.transport.kernel = b.transport.kernel := by
  obtain ⟨hexit, hpending, -⟩ := owed_cases hb.coupled
  obtain ⟨b', h⟩ := hb.exists_flush_eq_ok room
  obtain ⟨hwork, t, _, _, ⟨_, _, rfl⟩, rfl⟩ := exists_flush (b := b.withRoom room) hpending hexit
    hdue hroom h
  exact ⟨_, h, ⟨hb.coupled, hb.closed, hb.lastError⟩, hwork, rfl, rfl, rfl, rfl, rfl, rfl⟩

theorem stream_of_dispatched {preparedRead : Bool} {event : Option Incoming}
    (h : t.dispatchOnePending preparedRead = (.ok (.dispatched event), t')) :
    t'.stream.length < t.stream.length := by
  unfold dispatchOnePending at h
  split at h
  · cases h
  split at h
  · cases h
  split at h
  · cases h
  rename_i size wire stream hstream
  split at h
  · cases h
  simp only at h
  split at h
  · cases h
    simp [hstream]
  · cases h
  · unfold callback at h
    split at h
    · cases h
    · simp only [Prod.mk.injEq] at h
      rw [← h.2]
      simp [hstream]

theorem exists_message (hlast : t.lastError = none)
    (h : (t.dispatchOnePending false).1 ≠ .ok .needRead) :
    ∃ size wire stream, t.stream = (size, wire) :: stream ∧ size ≤ t.inData := by
  simp only [dispatchOnePending, hlast, Bool.false_eq_true, if_false] at h
  cases hstream : t.stream with
  | nil => simp [hstream] at h
  | cons message stream =>
    refine ⟨message.1, message.2, stream, rfl, not_lt.mp fun hless => ?_⟩
    simp [hstream, hless] at h

theorem readGuard_of_applyRuntimeEvent {event : Incoming}
    (h : b.applyRuntimeEvent event = .ok b') : b'.readGuard = b.readGuard := by
  rcases applyRuntimeEvent_cases h with ⟨-, h⟩ | ⟨-, h⟩ | ⟨-, hmanage, h, -⟩
  · obtain ⟨_, -, ⟨⟨_, _, _, _, _, _, _, rfl⟩, -, -, -⟩⟩ := exists_renderStart h
    rfl
  · obtain ⟨c, hcompletes, hfinish⟩ := exists_manageStart h
    obtain ⟨_, _, _, _, _, -, -, rfl⟩ := exists_finishPolicyTurn hfinish
    cases hcompletes <;> rfl
  · have hexchange := (applied_applyEvent hmanage h).exchange
    simp only [exchange, Exchange.mk.injEq] at hexchange
    simp [hexchange]

theorem Owing.of_reads (hb : Owing k b) (ht : b.transport.Reads t)
    (hc : Coupled (.awaitingDrain k) b'.ports) (h : t.Sends b'.transport) : Owing k b' := by
  obtain ⟨⟨_, _, _, _, _, rfl⟩, -⟩ := ht
  obtain ⟨⟨_, _, _, _, _, heq⟩, -⟩ := h
  refine ⟨hc, ?_, ?_⟩ <;> rw [heq]
  · exact hb.closed
  · exact hb.lastError

/-- Without a prepared read the next look at the buffer hands over a message or
seals what was retained. -/
theorem Owing.receive (hb : Owing k b) (hqueue : b.publicEvents = []) (hguard : b.readGuard = false)
    (h : b.receive notReady = .ok b') : Owing k b' ∧ (b'.publicEvents ≠ [] ∨
      b'.readGuard = false ∧ b'.transport.stream.length < b.transport.stream.length) := by
  obtain ⟨hexit, -, ⟨-, hopen, hticket⟩ | ⟨answer, hanswer, -⟩⟩ := owed_cases hb.coupled
  swap
  · simp [hqueue] at hanswer
  unfold RiverBackend.receive at h
  rw [if_neg (by simp [hguard])] at h
  split at h
  · cases h
  · rename_i hdispatch
    cases h
    have hreads := (exists_dispatchOnePending hdispatch).1
    exact ⟨hb.of_reads hreads hb.coupled (.refl _),
      .inr ⟨hguard, stream_of_dispatched hdispatch⟩⟩
  · rename_i event t hdispatch
    have hc' : Coupled (.awaitingDrain k) { b with transport := t }.ports := hb.coupled
    have hsends := sends_of_applyRuntimeEvent h
    have hkept := readGuard_of_applyRuntimeEvent h
    have hless := stream_of_dispatched hdispatch
    refine ⟨hb.of_reads (exists_dispatchOnePending hdispatch).1
      (coupled_of_applyRuntimeEvent hc' ⟨hexit, hqueue, hopen⟩ h) hsends,
      .inr ⟨hkept.trans hguard, ?_⟩⟩
    obtain ⟨⟨_, _, _, _, _, heq⟩, -⟩ := hsends
    rw [heq]
    exact hless
  · cases h
  · rename_i hdispatch
    rw [hticket] at h
    cases h
    refine ⟨hb.of_reads (exists_dispatchOnePending hdispatch).1 ?_ (.refl _), .inl (by simp)⟩
    have hc := hb.coupled
    simp only [ports, hqueue, hopen, hexit, hticket, nil_append] at hc ⊢
    generalize b.pendingResponse = pending at hc ⊢
    cases hc with
    | draining => exact .drained

/-! ## Iterations while a drain is owed -/

/-- What an iteration does. -/
inductive Iterates (k : BackendTicket) (b : RiverBackend) :
    RiverOutcome (Option BackendEvent × RiverBackend) → Prop
  | emits {event : BackendEvent} {b' : RiverBackend} (hqueue : b.publicEvents = [event])
      (hanswers : Answers k event) : Iterates k b (.ok (some event, b'))
  | flushes {b' : RiverBackend} (hb' : Owing k b') (hwork : b'.flushWork < b.flushWork)
      (hqueue : b'.publicEvents = b.publicEvents) (hguard : b'.readGuard = b.readGuard)
      (hconnected : b'.connected = b.connected)
      (hstream : b'.transport.stream = b.transport.stream)
      (hdata : b'.transport.inData = b.transport.inData)
      (hkernel : b'.transport.kernel = b.transport.kernel) : Iterates k b (.ok (none, b'))
  | dispatches {b' : RiverBackend} (hguard : b.readGuard = false) (hqueue : b.publicEvents = [])
      (hb' : Owing k b') (hgoes : b'.publicEvents ≠ [] ∨ b'.readGuard = false ∧
        b'.transport.stream.length < b.transport.stream.length) : Iterates k b (.ok (none, b'))
  | reads {b' : RiverBackend} (hguard : b.readGuard = true) (hqueue : b.publicEvents = [])
      (hkernel : 0 < b.transport.kernel)
      (hb' : Owing k b') (hguard' : b'.readGuard = false)
      (hstream : b'.transport.stream = b.transport.stream) : Iterates k b (.ok (none, b'))
  | waits {room : ℕ} (hguard : b.readGuard = true) (hqueue : b.publicEvents = [])
      (hidle : b.connected = true → b.transport.kernel = 0) :
      Iterates k b (.ok (none, b.withRoom room))
  | refuses {size : ℕ} {wire : Wire} {stream : List (ℕ × Wire)}
      {error : BackendError × RiverBackend}
      (hguard : b.readGuard = false) (hqueue : b.publicEvents = [])
      (hstream : b.transport.stream = (size, wire) :: stream)
      (hsize : size ≤ b.transport.inData) : Iterates k b (.error error)
  | overflows {error : BackendError × RiverBackend} (hguard : b.readGuard = true)
      (hqueue : b.publicEvents = []) (hkernel : 0 < b.transport.kernel)
      (hfull : maxRetainedBytesIn ≤ b.transport.inData) : Iterates k b (.error error)

theorem Owing.iterates_flush (hb : Owing k b) {ready : BackendReady}
    (hdue : (b.withRoom room).flushDue ready = true) (hroom : ready.writable = true → 0 < room) :
    Iterates k b ((b.withRoom room).flush.map fun b => (none, b)) := by
  simp only [flushDue, Bool.and_eq_true, Bool.or_eq_true, Bool.not_eq_true'] at hdue
  obtain ⟨b', hflush, hb', hwork, hqueue, hguard, hconnected, hstream, hdata, hkernel⟩ :=
    hb.flush hdue.1 fun hblocked => hroom (hdue.2.resolve_left fun hfree =>
      absurd (hfree.symm.trans hblocked) (by simp))
  rw [hflush]
  exact .flushes hb' hwork hqueue hguard hconnected hstream hdata hkernel

theorem Owing.iterates_receive (hb : Owing k b) (hqueue : b.publicEvents = [])
    (hguard : b.readGuard = false) :
    Iterates k b (((b.withRoom room).receive notReady).map fun b => (none, b)) := by
  obtain ⟨-, -, ⟨-, -, hticket⟩ | ⟨answer, hanswer, -⟩⟩ := owed_cases hb.coupled
  swap
  · simp [hqueue] at hanswer
  have hroom : Owing k (b.withRoom room) := ⟨hb.coupled, hb.closed, hb.lastError⟩
  cases h : (b.withRoom room).receive notReady with
  | ok b' =>
    obtain ⟨hb', hgoes⟩ := hroom.receive hqueue hguard h
    exact .dispatches hguard hqueue hb' hgoes
  | error =>
    obtain ⟨size, wire, stream, hstream, hsize⟩ :
        ∃ size wire stream, b.transport.stream = (size, wire) :: stream ∧
          size ≤ b.transport.inData := by
      refine exists_message (t := (b.withRoom room).transport) hb.lastError fun hneeds => ?_
      have hguard' : (b.withRoom room).readGuard = false := hguard
      have hticket' : (b.withRoom room).drainTicket = some k := hticket
      rw [RiverBackend.receive, hguard', if_neg Bool.false_ne_true] at h
      split at h <;> rename_i hdispatch <;> rw [hdispatch] at hneeds <;> try cases hneeds
      rw [hticket'] at h
      cases h
    exact .refuses hguard hqueue hstream hsize

theorem Owing.iterates_read (hb : Owing k b) (hqueue : b.publicEvents = [])
    (hguard : b.readGuard = true) {ready : BackendReady} (hready : ready.readable = true)
    (hkernel : 0 < b.transport.kernel) :
    Iterates k b (((b.withRoom room).receive ready).map fun b => (none, b)) := by
  have hguard' : (b.withRoom room).readGuard = true := hguard
  rw [RiverBackend.receive, if_pos hguard', RiverBackend.read, if_pos (by simp [hready, hguard'])]
  have hlast : (b.withRoom room).transport.lastError = none := hb.lastError
  have hkernel' : (b.withRoom room).transport.kernel ≠ 0 := hkernel.ne'
  rw [readOnce, hlast]
  dsimp only
  split_ifs with hfull
  · exact .overflows hguard hqueue hkernel hfull
  · exact .reads hguard hqueue hkernel ⟨hb.coupled, hb.closed, rfl⟩ rfl rfl

theorem service_of_idle (hexit : b.exitStarted = false) (hqueue : b.publicEvents = [])
    (hopen : b.openTurn = none) (ready : BackendReady) : b.service ready =
      if b.flushDue ready then b.flush.map fun b => (none, b)
      else (b.receive ready).map fun b => (none, b) := by
  rw [service_eq hexit, hqueue]
  simp only [hopen, Option.isSome_none, Bool.false_eq_true, if_false]

/-- With nothing immediate to do a read is prepared, and the loop waits for the socket. -/
theorem Owing.iterates_polled (hb : Owing k b) (hexit : b.exitStarted = false)
    (hqueue : b.publicEvents = []) (hopen : b.openTurn = none)
    (himmediate : ¬ (b.withRoom room).pollInterest.immediate = true) :
    Iterates k b (b.iterateLoop room) := by
  have hguard : b.readGuard = true := by
    simp only [pollInterest, withRoom, hopen, Option.isNone_none, Bool.true_and, Bool.or_eq_true,
      Bool.not_eq_true', not_or] at himmediate
    simpa using himmediate.2
  have hpolled : System.polled (b.withRoom room) = {
      readable := b.connected && decide (0 < b.transport.kernel)
      terminal := false
      writable := (b.withRoom room).pollInterest.writable && decide (0 < room) } := by
    rw [System.polled, if_neg himmediate]
    simp [pollInterest, withRoom, hexit, hb.closed]
  rw [iterateLoop]
  split_ifs with hdue
  · rw [service_of_idle (b := b.withRoom room) hexit hqueue hopen, hpolled]
    split
    · refine hb.iterates_flush ‹_› fun hwritable => ?_
      simp only [Bool.and_eq_true, decide_eq_true_eq] at hwritable
      exact hwritable.2
    · rename_i hidle
      simp only [hpolled, Bool.or_eq_true, Bool.and_eq_true, decide_eq_true_eq,
        Bool.false_eq_true, or_false] at hdue
      obtain (himmediate' | hreadable) | ⟨hwritable, hroom⟩ := hdue
      · exact absurd himmediate' himmediate
      · exact hb.iterates_read hqueue hguard (by simp [hreadable]) hreadable.2
      · -- a loop that wakes for the room of the socket flushes
        have hpending : (b.withRoom room).flushPending = true := by
          simp only [pollInterest, Bool.and_eq_true] at hwritable
          exact hwritable.1
        exact absurd (by simp [flushDue, hpending, hwritable, hroom]) hidle
  · refine .waits hguard hqueue fun hconnected => ?_
    simp only [hpolled, hconnected, Bool.true_and, Bool.or_eq_true, decide_eq_true_eq, not_or]
      at hdue
    omega

theorem Owing.iterates (hb : Owing k b) (room : ℕ) : Iterates k b (b.iterateLoop room) := by
  obtain ⟨hexit, -, ⟨hqueue, hopen, -⟩ | ⟨answer, hanswer, hanswers⟩⟩ := owed_cases hb.coupled
  · by_cases himmediate : (b.withRoom room).pollInterest.immediate = true
    · rw [iterateLoop_of_immediate himmediate,
        service_of_idle (b := b.withRoom room) hexit hqueue hopen]
      split
      · exact hb.iterates_flush ‹_› (by simp [notReady])
      · rename_i hdue
        refine hb.iterates_receive hqueue ?_
        have hpublic : (b.withRoom room).publicEvents = [] := hqueue
        simp only [pollInterest, hpublic, isEmpty_nil, Bool.not_true, Bool.or_false,
          Bool.or_eq_true, Bool.and_eq_true, Bool.not_eq_true'] at himmediate
        obtain ⟨hpending, hfree⟩ | ⟨-, hguard⟩ := himmediate
        · exact absurd (by simp [flushDue, hpending, hfree]) hdue
        · exact hguard
    · exact hb.iterates_polled hexit hqueue hopen himmediate
  · rw [iterateLoop_of_immediate (by simp [pollInterest, withRoom, hanswer]),
      service_eq (b := b.withRoom room) hexit]
    split
    · exact hb.iterates_flush ‹_› (by simp [notReady])
    · have hpublic : (b.withRoom room).publicEvents = [answer] := hanswer
      rw [hpublic]
      exact .emits hanswer hanswers

theorem Drains.of_iterates (hb : Owing k b) (hfree : ¬Chokes b)
    (hgoes : ∀ b', ¬Chokes b' → Iterates k b (.ok (none, b')) → Drains k b') : Drains k b := by
  refine .intro (fun room error h => hfree ?_) (fun room event b' h => ?_) fun room b' h => ?_
  all_goals have hiterates := h ▸ hb.iterates room
  · cases hiterates with
    | refuses hguard _ hstream hsize => exact .refuses hguard hstream hsize h
    | overflows hguard _ hkernel hfull => exact .overflows hguard hkernel hfull h
  · cases hiterates with
    | emits _ hanswers => exact hanswers
  · exact hgoes b' (fun hchokes => hfree (.goes h hchokes)) hiterates

theorem drains_of_queued (hb : Owing k b) (hfree : ¬Chokes b) (hqueue : b.publicEvents ≠ []) :
    Drains k b := by
  induction hwork : b.flushWork using Nat.strong_induction_on generalizing b with
  | _ n ih =>
    refine .of_iterates hb hfree fun b' hfree' h => ?_
    cases h with
    | flushes hb' hless hsame => exact ih _ (hwork ▸ hless) hb' hfree' (hsame ▸ hqueue) rfl
    | dispatches _ hempty | reads _ hempty | waits _ hempty => exact absurd hempty hqueue

theorem drains_of_unguarded (hb : Owing k b) (hfree : ¬Chokes b) (hguard : b.readGuard = false) :
    Drains k b := by
  -- Each message handed over shortens the buffer, and flushes in between end by themselves.
  induction hstream : b.transport.stream.length using Nat.strong_induction_on generalizing b with
  | _ length ihStream =>
    induction hwork : b.flushWork using Nat.strong_induction_on generalizing b with
    | _ work ihWork =>
      refine .of_iterates hb hfree fun b' hfree' h => ?_
      cases h with
      | flushes hb' hless _ hguard' _ hsame =>
        exact ihWork _ (hwork ▸ hless) hb' hfree' (hguard'.trans hguard)
          ((congrArg List.length hsame).trans hstream) rfl
      | dispatches _ _ hb' hgoes =>
        obtain hqueue | ⟨hguard', hless⟩ := hgoes
        · exact drains_of_queued hb' hfree' hqueue
        · exact ihStream _ (hstream ▸ hless) hb' hfree' hguard' rfl
      | reads hheld | waits hheld => exact absurd (hheld.symm.trans hguard) nofun

theorem drains_of_kernel (hb : Owing k b) (hfree : ¬Chokes b) (hconnected : b.connected = true)
    (hkernel : 0 < b.transport.kernel) : Drains k b := by
  induction hwork : b.flushWork using Nat.strong_induction_on generalizing b with
  | _ work ih =>
    by_cases hguard : b.readGuard = false
    · exact drains_of_unguarded hb hfree hguard
    refine .of_iterates hb hfree fun b' hfree' h => ?_
    cases h with
    | flushes hb' hless _ _ hconnected' _ _ hkernel' =>
      exact ih _ (hwork ▸ hless) hb' hfree' (hconnected'.trans hconnected) (hkernel' ▸ hkernel) rfl
    | dispatches hguard' => exact absurd hguard' hguard
    | reads _ _ _ hb' hguard' => exact drains_of_unguarded hb' hfree' hguard'
    | waits _ _ hidle => exact absurd (hidle hconnected) hkernel.ne'

theorem Drains.not_chokes (h : Drains k b) : ¬Chokes b := by
  intro hchokes
  induction hchokes with
  | refuses _ _ _ hfails | overflows _ _ _ hfails =>
    cases h with
    | intro hsucceeds => exact hsucceeds _ _ hfails
  | goes hgoes _ ih =>
    cases h with
    | intro _ _ hdrains => exact ih (hdrains _ _ hgoes)

theorem not_chokes (hb : Owing k b) (h : b.publicEvents ≠ [] ∨ b.transport.stream = [] ∧
    (b.readGuard = true → b.transport.inData < maxRetainedBytesIn)) : ¬Chokes b := by
  intro hchokes
  induction hchokes with
  | refuses _ _ _ hfails | overflows _ _ _ hfails =>
    cases hfails ▸ hb.iterates _ with
    | refuses _ hempty hmessage =>
      cases (h.resolve_left (not_not.mpr hempty)).1.symm.trans hmessage
    | overflows hguard hempty _ hfull =>
      exact absurd ((h.resolve_left (not_not.mpr hempty)).2 hguard) (not_lt.mpr hfull)
  | goes hgoes _ ih =>
    cases hgoes ▸ hb.iterates _ with
    | flushes hb' _ hqueue hguard _ hstream hdata =>
      exact ih hb' (by rwa [hqueue, hguard, hstream, hdata])
    | dispatches _ hempty hb' hgoes =>
      refine ih hb' (.inl (hgoes.resolve_right fun hless => ?_))
      simp [(h.resolve_left (not_not.mpr hempty)).1] at hless
    | reads _ hempty _ hb' hguard hstream =>
      refine ih hb' (.inr ⟨hstream.trans (h.resolve_left (not_not.mpr hempty)).1, fun hheld => ?_⟩)
      cases hguard.symm.trans hheld
    | waits => exact ih ⟨hb.coupled, hb.closed, hb.lastError⟩ h

/-! ## A prepared read without bytes -/

/-- The backend owes a drain, holds a prepared read, and River is silent. -/
structure Held (k : BackendTicket) (b : RiverBackend) : Prop extends Owing k b where
  publicEvents : b.publicEvents = []
  readGuard : b.readGuard = true
  kernel : b.transport.kernel = 0

/-- A held backend never pays by itself: an iteration flushes or waits, and the read stays
prepared. -/
theorem not_drains_of_held (hb : Held k b) : ¬Drains k b := by
  intro hdrains
  induction hdrains with
  | @intro b hsucceeds hemits hgoes ih =>
    have hiterates := hb.iterates 0
    generalize houtcome : b.iterateLoop 0 = outcome at hiterates
    cases hiterates with
    | emits hqueue => cases hb.publicEvents.symm.trans hqueue
    | flushes hb' _ hqueue hguard _ _ _ hkernel =>
      exact ih 0 _ houtcome ⟨hb', hqueue.trans hb.publicEvents, hguard.trans hb.readGuard,
        hkernel.trans hb.kernel⟩
    | dispatches hguard | refuses hguard => cases hb.readGuard.symm.trans hguard
    | reads _ _ hkernel | overflows _ _ hkernel => exact absurd hb.kernel hkernel.ne'
    | waits =>
      exact ih 0 _ houtcome ⟨⟨hb.coupled, hb.closed, hb.lastError⟩, hb.publicEvents, hb.readGuard,
        hb.kernel⟩

end RiverBackend

namespace System

variable {s s' : System}

theorem Reachable.lastError (h : Reachable s) : s.backend.transport.lastError = none := by
  refine h.invariant (P := fun s => s.backend.transport.lastError = none)
    (fun {handshake snapshot keymap s} hconnect => ?_) fun s input s' hs hstep => ?_
  · obtain ⟨c, specs, hc, hspecs, -⟩ := exists_connect hconnect
    obtain ⟨-, -, d, hsetup, heq⟩ := exists_connected hc hspecs
    rw [heq]
    exact lastError_of_sends hsetup.sends
  · exact (moves_of_step hstep).invariant (P := fun b => b.transport.lastError = none)
      (fun hc hmove _ => (lastError_of_move hmove).trans hc) hs

theorem transaction_of_completed {ready : BackendReady} {now : ℕ} {k : BackendTicket}
    {b : RiverBackend} (hdue : s.quantumDue ready = true)
    (hemit : s.backend.service ready = .ok (some (.operationCompleted k (.ok ())), b))
    (h : s.step (.service ready now) = some s') :
    s'.Serving ∧ s'.transaction = .awaitingDrain k := by
  cases serviced_of_step h with
  | idle hidle => exact absurd (hdue.symm.trans hidle) (by simp)
  | progressed _ hservice | exited _ hservice => exact absurd (hemit.symm.trans hservice) (by simp)
  | handled _ hserving hservice hhandled =>
    have heq := Except.ok.inj (hemit.symm.trans hservice)
    simp only [Prod.mk.injEq, Option.some.injEq] at heq
    obtain ⟨rfl, rfl⟩ := heq
    cases hhandled with
    | completed => exact ⟨hserving, rfl⟩

theorem owing_of_completed {ready : BackendReady} {now : ℕ} {k : BackendTicket} {b : RiverBackend}
    (hs : Reachable s) (hdue : s.quantumDue ready = true)
    (hemit : s.backend.service ready = .ok (some (.operationCompleted k (.ok ())), b))
    (h : s.step (.service ready now) = some s') (hopen : s'.backend.transport.closed = false) :
    s'.backend.Owing k := by
  obtain ⟨hserving, htransaction⟩ := transaction_of_completed hdue hemit h
  have hreach := hs.step _ h
  exact ⟨htransaction ▸ hreach.engaged hserving, hopen, hreach.lastError⟩

/-- After a completed response, while River sends nothing, the event loop drains the
ticket exactly when the turn is queued already, no read is prepared, or bytes wait
in the socket, and nothing that River sent before fails. -/
theorem drains_after_completion {s s' : System} (hs : Reachable s) {ready : BackendReady} {now : ℕ}
    {k : BackendTicket} {b : RiverBackend} (hdue : s.quantumDue ready = true)
    (hemit : s.backend.service ready = .ok (some (.operationCompleted k (.ok ())), b))
    (hstep : s.step (.service ready now) = some s') (hopen : s'.backend.transport.closed = false) :
    s'.backend.Drains k ↔ (s'.backend.publicEvents ≠ [] ∨ s'.backend.readGuard = false ∨
      0 < s'.backend.transport.kernel) ∧ ¬s'.backend.Chokes := by
  have hb := owing_of_completed hs hdue hemit hstep hopen
  constructor
  · intro hdrains
    refine ⟨by_contra fun hcond => ?_, hdrains.not_chokes⟩
    simp only [not_or, not_not, not_lt, Nat.le_zero, Bool.not_eq_false] at hcond
    exact not_drains_of_held ⟨hb, hcond.1, hcond.2.1, hcond.2.2⟩ hdrains
  · rintro ⟨hqueue | hguard | hkernel, hfree⟩
    · exact drains_of_queued hb hfree hqueue
    · exact drains_of_unguarded hb hfree hguard
    · exact drains_of_kernel hb hfree (hs.step _ hstep).sound.connected hkernel

/-- A turn is answered and rendered; the socket has room as given while the end of
the rendering is flushed, and takes everything later. -/
def rendersTurn (room waits : ℕ) : List (Option Input) :=
  some (sends [.deliver (.client 4) .manageStart]) :: quanta 5 ++
    [some (.river (.takes room)), some (sends [.deliver (.client 4) .renderStart])] ++
    quanta waits ++ [some (.river (.takes 65536))] ++ quanta 1

/-- The next quantum completes a response, and finds the read prepared or not. -/
def completing (guard : Bool) (s : System) : Bool :=
  s.quantumDue (polled s.backend) &&
    (match s.backend.service (polled s.backend) with
      | .ok (some (.operationCompleted _ (.ok ())), _) => true
      | _ => false) &&
    (s.step (.service (polled s.backend) 0)).any fun s' => s'.backend.publicEvents.isEmpty &&
      decide (s'.backend.readGuard = guard) && s'.backend.transport.stream.isEmpty &&
      decide (s'.backend.transport.inData = 0) && decide (s'.backend.transport.kernel = 0) &&
      !s'.backend.transport.closed

theorem exists_completion (room waits : ℕ) (guard : Bool)
    (h : (plainLive (rendersTurn room waits)).any (completing guard) = true) :
    ∃ s s' k b, Reachable s ∧ s.quantumDue (polled s.backend) = true ∧
      s.backend.service (polled s.backend) = .ok (some (.operationCompleted k (.ok ())), b) ∧
      s.step (.service (polled s.backend) 0) = some s' ∧ s'.backend.publicEvents = [] ∧
      s'.backend.readGuard = guard ∧ s'.backend.transport.kernel = 0 ∧
      s'.backend.transport.closed = false ∧ ¬s'.backend.Chokes := by
  obtain ⟨s, hs, hfacts⟩ := (Option.any_eq_true _ _).mp h
  simp only [completing, Bool.and_eq_true, Option.any_eq_true, List.isEmpty_iff, decide_eq_true_eq,
    Bool.not_eq_true'] at hfacts
  obtain ⟨⟨hdue, hemits⟩, s', hstep, ⟨⟨⟨⟨hqueue, hguard⟩, hstream⟩, hdata⟩, hkernel⟩, hclosed⟩ :=
    hfacts
  split at hemits
  · rename_i k b hservice
    have hreach := reachable_plainLive hs
    refine ⟨s, s', k, b, hreach, hdue, hservice, hstep, hqueue, hguard, hkernel, hclosed, ?_⟩
    refine not_chokes (owing_of_completed hreach hdue hservice hstep hclosed)
      (.inr ⟨hstream, fun _ => ?_⟩)
    rw [hdata]
    decide
  · cases hemits

theorem drains_after_completion_plain : ∃ s' : System, ∃ k, Reachable s' ∧
    s'.transaction = .awaitingDrain k ∧ s'.backend.Drains k := by
  obtain ⟨s, s', k, b, hs, hdue, hemit, hstep, -, hguard, -, hclosed, hfree⟩ :=
    exists_completion 65536 2 false (by decide +kernel)
  exact ⟨s', k, hs.step _ hstep, (transaction_of_completed hdue hemit hstep).2,
    (drains_after_completion hs hdue hemit hstep hclosed).mpr ⟨.inr (.inl hguard), hfree⟩⟩

/-- When the socket was full while the rendering was flushed, the transaction waits
for the next bytes of River. -/
theorem completion_waits_for_traffic : ¬ ∀ (s s' : System) (ready : BackendReady) (now : ℕ)
    (k : BackendTicket) (b : RiverBackend), Reachable s → s.quantumDue ready = true →
    s.backend.service ready = .ok (some (.operationCompleted k (.ok ())), b) →
    s.step (.service ready now) = some s' → s'.backend.transport.closed = false →
      ¬s'.backend.Chokes → s'.backend.Drains k := by
  intro hall
  obtain ⟨s, s', k, b, hs, hdue, hemit, hstep, hqueue, hguard, hkernel, hclosed, hfree⟩ :=
    exists_completion 0 4 true (by decide +kernel)
  exact not_drains_of_held
    ⟨owing_of_completed hs hdue hemit hstep hclosed, hqueue, hguard, hkernel⟩
    (hall s s' _ 0 k b hs hdue hemit hstep hclosed hfree)

end System

end Realm
