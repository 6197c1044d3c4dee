import Realm.Control.Line

/-!
# A connection follows the conversation

Every call of the server on a connection is a move of the conversation, with the traffic of that
move.
-/

namespace Realm

open Text Ipc List Option Talk Sending

variable {s : Sending}

/-- What of a connection the conversation sees. -/
structure ConnectionView where
  phase : ConnectionPhase
  output : Option OutputCursor
  latest : Option OutputCursor
  retained : Option RetainedFrame
  asked : Option Bool
  shuttingDown : Bool
  shutdownFixed : Bool

def ConnectionMachine.view (m : ConnectionMachine) : ConnectionView where
  phase := m.phase
  output := m.output
  latest := m.latest
  retained := m.retained
  asked := if m.requestPending then some m.pendingSubscribe else none
  shuttingDown := m.shuttingDown
  shutdownFixed := m.shutdownDeadline.isSome

namespace Talk

/-- How a connection in each state looks, one that is closed apart. -/
def view : Talk → ConnectionView
  | awaiting => ⟨.awaitHello, none, none, none, none, false, false⟩
  | greeting s retained => ⟨.sendingHello, some s.cursor, none, retained, none, false, false⟩
  | ready => ⟨.ready, none, none, none, none, false, false⟩
  | asked subscribe => ⟨.ready, none, none, none, some subscribe, false, false⟩
  | answering s => ⟨.ready, some s.cursor, none, none, none, false, false⟩
  | parting s => ⟨.closeAfterReply, some s.cursor, none, none, none, false, false⟩
  | idle => ⟨.subscriber, none, none, none, none, false, false⟩
  | subscribed s latest =>
    ⟨.subscriber, some s.cursor, latest.map cursor, none, none, false, false⟩
  | leaving s last =>
    ⟨.subscriber, some s.cursor, last.map cursor, none, none, true, true⟩
  | closed => ⟨.closing, none, none, none, none, false, false⟩

/-- Which frames stand in which state. -/
def Classed : Talk → Prop
  | greeting s _ => s.frame.outputClass = .hello
  | answering s => s.frame.outputClass = .ordinary
  | parting s => s.frame.outputClass = .hello ∨ s.frame.outputClass = .terminal
  | subscribed s latest =>
    (s.frame.outputClass = .initialState ∨ s.frame.outputClass = .state) ∧
      ∀ l ∈ latest, l.frame.outputClass = .state
  | leaving s last =>
    (s.frame.outputClass = .initialState ∨ s.frame.outputClass = .state ∨
        s.frame.outputClass = .shutdown) ∧
      ∀ l ∈ last, l.frame.outputClass = .shutdown ∧ s.frame.outputClass = .initialState
  | awaiting | ready | asked _ | idle | closed => True

variable {t t' : Talk} {a : Traffic}

theorem classed_withCurrent {c : Sending} (h : t.Classed) (hc : t.current = some c)
    (hframe : s.frame = c.frame) : (t.withCurrent s).Classed := by
  cases t <;> simp_all [Classed, withCurrent, current]

theorem Moves.classed (hm : t.Moves a t') (h : t.Classed) : t'.Classed := by
  cases hm with
  | stay => exact h
  | close => trivial
  | send ht => exact classed_withCurrent h ht rfl
  | finish ht hf =>
    cases hf <;> simp_all [Classed]
  | finishAlone => simp_all [Classed]; tauto
  | _ => simp_all [Classed]

end Talk

namespace ConnectionMachine

/-- The state of the conversation a connection is in. -/
structure Stands (m : ConnectionMachine) (t : Talk) : Prop where
  classed : t.Classed
  view : t ≠ .closed → m.view = t.view
  closed : t = .closed →
    m.phase = .closing ∧ m.output = none ∧ m.latest = none ∧ m.requestPending = false

/-- What a call does to a connection is a move: it is removed and the conversation closed, or
goes on. -/
def Tracks (t : Talk) (a : Traffic) (r : MachineAction × ConnectionMachine) : Prop :=
  r.1.removes = true ∧ t.Moves a .closed ∨
    r.1.removes = false ∧ ∃ t', r.2.Stands t' ∧ t.Moves a t'

variable {m m' : ConnectionMachine} {t t' : Talk} {a : Traffic} {action : MachineAction}

theorem Stands.goes (h : m.Stands t) (hm : t.Moves a t') (hopen : t' ≠ .closed)
    (haction : action.removes = false) (hview : m'.view = t'.view) : Tracks t a (action, m') :=
  .inr ⟨haction, t', ⟨hm.classed h.classed, fun _ => hview, fun h => absurd h hopen⟩, hm⟩

theorem tracks_close (t : Talk) (m : ConnectionMachine) (reason : MachineClose) :
    Tracks t {} (m.close reason) :=
  .inl ⟨rfl, .close t⟩

theorem Stands.stays (h : m.Stands t) (hview : m'.view = m.view) : Tracks t {} (.none, m') := by
  refine .inr ⟨rfl, t, ⟨h.classed, fun ht => hview.trans (h.view ht), fun ht => ?_⟩, .stay t⟩
  have hc := h.closed ht
  simp only [ConnectionMachine.view, ConnectionView.mk.injEq, hc] at hview
  grind

theorem Stands.expire (h : m.Stands t) (now : ℕ) : Tracks t {} (m.expire now) := by
  unfold ConnectionMachine.expire
  split
  · split
    · exact tracks_close ..
    · exact h.stays rfl
  · exact h.stays rfl

theorem Stands.readEof (h : m.Stands t) : Tracks t {} m.readEof := by
  unfold ConnectionMachine.readEof
  split_ifs
  · exact h.stays rfl
  · exact tracks_close ..
  · dsimp only
    split
    · exact tracks_close ..
    · split
      · exact tracks_close ..
      · exact h.stays rfl
    · exact h.stays rfl

theorem Stands.eq_asked (h : m.Stands t) (hasked : m.requestPending = true) :
    t = .asked m.pendingSubscribe := by
  have hview := h.view
  have hclosed := h.closed
  cases t <;> simp_all [ConnectionMachine.view, Talk.view]

theorem Stands.of_subscriber (h : m.Stands t) (hphase : m.phase = .subscriber) :
    t = .idle ∨ (∃ s l, t = .subscribed s l) ∨ ∃ s l, t = .leaving s l := by
  have hview := h.view
  have hclosed := h.closed
  cases t <;> simp_all [ConnectionMachine.view, Talk.view]

variable [IpcJson] {bytes : Bytes} {c : OutputCursor} {count : ℕ}

theorem Stands.completeRequest (h : m.Stands t) (now : ℕ) (response : Response) :
    Tracks t (m.traffic (.completeRequest now response)) (m.completeRequest now response) := by
  simp only [traffic, call, queues, MachineCall.sends, MachineCall.delivers,
    ConnectionMachine.completeRequest]
  split_ifs with hguard
  · exact h.stays rfl
  · simp only [Bool.or_eq_true, Bool.not_eq_true', not_or, Bool.not_eq_false,
      Bool.not_eq_true] at hguard
    obtain ⟨⟨hdown, hpending⟩, hsub⟩ := hguard
    cases hencode : encodeResponse response with
    | none => exact .inl ⟨rfl, .close t⟩
    | some =>
      obtain rfl := h.eq_asked hpending
      have hview := h.view (by simp)
      have hmove := Talk.Moves.answer (s := .start .ordinary (getLast?_of_encode hencode)) rfl rfl
      rw [hsub] at h ⊢
      refine h.goes hmove (by simp) rfl ?_
      simp_all [ConnectionMachine.view, Talk.view, setCurrent, cursor, start, OutputCursor.new]

theorem Stands.completeSubscribe (h : m.Stands t) (now : ℕ) (state : RealmState) :
    Tracks t (m.traffic (.completeSubscribe now state)) (m.completeSubscribe now state) := by
  simp only [traffic, call, queues, MachineCall.sends, MachineCall.delivers,
    ConnectionMachine.completeSubscribe]
  split_ifs with hguard
  · exact h.stays rfl
  · simp only [Bool.or_eq_true, Bool.not_eq_true', not_or, Bool.not_eq_false,
      Bool.not_eq_true] at hguard
    obtain ⟨⟨hdown, hpending⟩, hsub⟩ := hguard
    cases hencode : encodeEvent (.state state) with
    | none => exact .inl ⟨rfl, .close t⟩
    | some =>
      obtain rfl := h.eq_asked hpending
      have hview := h.view (by simp)
      have hmove :=
        Talk.Moves.subscribe (s := .start .initialState (getLast?_of_encode hencode)) rfl rfl
      rw [hsub] at h ⊢
      refine h.goes hmove (by simp) rfl ?_
      simp_all [ConnectionMachine.view, Talk.view, setCurrent, cursor, start, OutputCursor.new]

theorem publishState_of_encode {event : Event} (now : ℕ) (hencode : encodeEvent event = some bytes)
    (hphase : m.phase = .subscriber) (hdown : m.shuttingDown = false) : m.publishState now bytes =
      (.none, if m.output.isSome then { m with latest := some (.new bytes .state) }
        else m.setCurrent bytes .state now) := by
  have hlength := length_of_encode hencode
  simp only [publishState, hphase, hdown, ne_eq, not_true_eq_false, decide_false, Bool.or_self,
    Bool.false_eq_true, if_false, getLast?_of_encode hencode, Bool.or_false, decide_eq_true_eq,
    if_neg (not_lt.2 hlength)]
  split_ifs <;> rfl

theorem Stands.publishState (h : m.Stands t) (now : ℕ) (state : RealmState) :
    Tracks t (m.traffic (.publishState now state)) (m.call (.publishState now state)) := by
  simp only [traffic, call, queues, MachineCall.sends, MachineCall.delivers]
  by_cases hphase : m.phase = .subscriber
  · simp only [hphase, ne_eq, not_true_eq_false, if_false, decide_false, Bool.false_or]
    cases hencode : encodeEvent (.state state) with
    | none =>
      simp only [toList_none, map_nil, ite_self]
      exact .inl ⟨rfl, .close t⟩
    | some =>
      have hview := h.view
      cases hdown : m.shuttingDown with
      | true =>
        simp only [ConnectionMachine.publishState, hdown, Bool.or_true, if_true]
        exact h.stays rfl
      | false =>
        simp only [publishState_of_encode now hencode hphase hdown, Bool.false_eq_true, if_false]
        let s : Sending := .start .state (getLast?_of_encode hencode)
        rcases h.of_subscriber hphase with rfl | ⟨c, l, rfl⟩ | ⟨c, l, rfl⟩
        · refine h.goes (.publish (s := s) rfl rfl) (by simp) rfl ?_
          simp_all [ConnectionMachine.view, Talk.view, setCurrent, cursor,
            start, OutputCursor.new, s]
        · refine h.goes (.replace (s := s) rfl rfl) (by simp) rfl ?_
          simp_all [ConnectionMachine.view, Talk.view, cursor, start, OutputCursor.new, s]
        · simp_all [ConnectionMachine.view, Talk.view]
  · simp only [hphase, ne_eq, not_false_eq_true, if_true, decide_true, Bool.true_or]
    exact h.stays rfl

omit [IpcJson] in
theorem placeShutdown_of_output {shutdown : OutputCursor} (hout : m.output = some c) :
    m.placeShutdown shutdown =
      if c.outputClass = .initialState ∧ c.offset = 0 then { m with latest := some shutdown }
      else if (c.outputClass = .initialState ∨ c.outputClass = .state) ∧ 0 < c.offset ∨
        c.outputClass = .shutdown then m
      else { m with output := some shutdown } := by
  obtain ⟨bytes, offset, outputClass⟩ := c
  cases outputClass <;> cases offset <;>
    simp [placeShutdown, hout, OutputCursor.isUnstarted]

omit [IpcJson] in
/-- The shutdown of a subscriber takes the place its current frame leaves it. -/
theorem Stands.placeShutdown (h : m.Stands t) (hbytes : bytes.getLast? = some lf)
    (hphase : m.phase = .subscriber) (hfixed : m.shutdownDeadline = none)
    (hview' : m'.view = { m.view with
      latest := none, shuttingDown := true, shutdownFixed := true }) :
    Tracks t
      { queued := (m'.placeShutdown (.new bytes .shutdown)).pending.filter
          (·.outputClass = .shutdown) }
      (.none, m'.placeShutdown (.new bytes .shutdown)) := by
  have hview := h.view
  let s : Sending := .start .shutdown hbytes
  have hs : OutputCursor.new bytes .shutdown = s.cursor := rfl
  have hclass : s.frame.outputClass = .shutdown := rfl
  rw [hs]
  simp only [ConnectionMachine.view, ConnectionView.mk.injEq] at hview'
  rcases h.of_subscriber hphase with rfl | ⟨c, l, rfl⟩ | ⟨c, l, rfl⟩
  · have hout : m.output = none := by simp_all [ConnectionMachine.view, Talk.view]
    have hplace : m'.placeShutdown s.cursor = { m' with output := some s.cursor } := by
      simp [ConnectionMachine.placeShutdown, hview', hout]
    rw [hplace]
    simp only [pending, hview', toList_some, toList_none, append_nil,
      map_cons, map_nil, frame_cursor, filter_singleton, hclass, decide_true, cond_true]
    refine h.goes (.tell (s := s) rfl rfl) (by simp) rfl ?_
    simp_all [ConnectionMachine.view, Talk.view]
  · have hout : m.output = some c.cursor := by simp_all [ConnectionMachine.view, Talk.view]
    have hc := h.classed.1
    have hout' : m'.output = some c.cursor := hview'.2.1.trans hout
    rcases Nat.eq_zero_or_pos c.offset with hzero | hpos
    · rcases hc with hc | hc
      · have hq : m'.placeShutdown s.cursor = { m' with latest := some s.cursor } := by
          rw [placeShutdown_of_output hout', if_pos ⟨hc, hzero⟩]
        simp only [hq, pending, hview', hout, toList_some, singleton_append,
          map_cons, map_nil, frame_cursor, filter_cons, hc, hclass,
          filter_nil, decide_true, if_true, reduceCtorEq, decide_false, Bool.false_eq_true,
          if_false]
        refine h.goes (.tellBehind (s := s) hc hzero rfl rfl) (by simp) rfl ?_
        simp_all [ConnectionMachine.view, Talk.view]
      · have hother : ¬c.cursor.outputClass = .initialState := by simp [cursor, hc]
        have hq : m'.placeShutdown s.cursor = { m' with output := some s.cursor } := by
          rw [placeShutdown_of_output hout', if_neg (fun h => hother h.1), if_neg]
          simp [cursor, hc, hzero]
        simp only [hq, pending, hview', toList_some, toList_none, append_nil,
          map_cons, map_nil, frame_cursor, filter_singleton, hclass, decide_true, cond_true]
        refine h.goes (.tellInstead (s := s) hc hzero rfl rfl) (by simp) rfl ?_
        simp_all [ConnectionMachine.view, Talk.view]
    · have hq : m'.placeShutdown s.cursor = m' := by
        rw [placeShutdown_of_output hout', if_neg (fun h => hpos.ne' h.2), if_pos (.inl ⟨hc, hpos⟩)]
      have hother : c.frame.outputClass ≠ .shutdown := by rcases hc with hc | hc <;> simp [hc]
      simp only [hq, pending, hview', hout, toList_some, toList_none,
        append_nil, map_cons, map_nil, frame_cursor,
        filter_singleton, hother, decide_false, cond_false]
      refine h.goes (.finishAlone hpos) (by simp) rfl ?_
      simp_all [ConnectionMachine.view, Talk.view]
  · simp_all [ConnectionMachine.view, Talk.view]

theorem Stands.beginShutdown (h : m.Stands t) (now : ℕ) :
    Tracks t (m.traffic (.beginShutdown now)) (m.beginShutdown now) := by
  simp only [traffic, call, queues, MachineCall.sends, MachineCall.delivers,
    ConnectionMachine.beginShutdown]
  by_cases hphase : m.phase = .subscriber
  · cases hfixed : m.shutdownDeadline with
    | some =>
      simp only [hphase, isSome_some, Bool.true_or, if_true, Bool.or_true]
      exact h.stays rfl
    | none =>
      simp only [hphase, isSome_none, ne_eq, not_true_eq_false, decide_false,
        Bool.or_self, Bool.false_eq_true, if_false, reduceCtorEq]
      cases hencode : encodeEvent .shutdown with
      | none => exact tracks_close ..
      | some =>
        refine h.placeShutdown (getLast?_of_encode hencode) hphase hfixed ?_
        simp [ConnectionMachine.view, hphase]
  · simp only [hphase, ne_eq, not_false_eq_true, if_true, decide_true, Bool.true_or]
    split_ifs
    · exact h.stays rfl
    · exact tracks_close ..

omit [IpcJson] in
theorem Stands.output_eq (h : m.Stands t) : m.output = t.current.map Sending.cursor := by
  have hview := h.view
  have hclosed := h.closed
  cases t <;> simp_all [ConnectionMachine.view, Talk.view, Talk.current]

/-- What a refusal makes of a connection: it parts with an error, or is closed if the error
cannot be sent. -/
theorem queueTerminalError_cases (m : ConnectionMachine) (now : ℕ) (message : String) :
    (m.queueTerminalError now message).Stands .closed ∨
      ∃ s : Sending, s.offset = 0 ∧ s.frame.outputClass = .terminal ∧
        (m.queueTerminalError now message).view =
          { m.view with phase := .closeAfterReply, output := some s.cursor } := by
  unfold queueTerminalError
  cases hencode : encodeResponse (.error .unknownRequest message) with
  | none => exact .inl ⟨trivial, by simp, fun _ => ⟨rfl, rfl, rfl, rfl⟩⟩
  | some =>
    exact .inr ⟨.start .terminal (getLast?_of_encode hencode), rfl, rfl, rfl⟩

/-- What is queued and handed over behind a complete frame. -/
def finishTraffic (m : ConnectionMachine) (r : MachineAction × ConnectionMachine) : Traffic where
  queued := if r.2.phase = .closeAfterReply ∧ m.phase ≠ .closeAfterReply then r.2.pending else []
  handed := r.1.requests

/-- What follows a complete frame of a connection follows it in the conversation. -/
def Finishes (m : ConnectionMachine) (t : Talk) (r : MachineAction × ConnectionMachine) : Prop :=
  r.1.removes = true ∧ Talk.Follows t (m.finishTraffic r) .closed ∨
    r.1.removes = false ∧ ∃ t', r.2.Stands t' ∧ Talk.Follows t (m.finishTraffic r) t'

omit [IpcJson] in
theorem finishes_close (m m' : ConnectionMachine) (reason : MachineClose)
    (hlatest : t.latest = none) (hsubscribed : ∀ s, t ≠ .subscribed s none) :
    Finishes m t (m'.close reason) :=
  .inl ⟨rfl, .close hlatest hsubscribed⟩

omit [IpcJson] in
theorem Stands.finishes (h : m.Stands t) (hs : t.current = some s)
    (haction : action.removes = false) (hopen : t' ≠ .closed)
    (hphase : t'.view.phase ≠ .closeAfterReply) (hview : m'.view = t'.view)
    (hf : Talk.Follows t { handed := action.requests } t') : Finishes m t (action, m') := by
  have hphase' : m'.phase ≠ .closeAfterReply := fun hp => hphase (hview ▸ hp)
  have hclassed := (Moves.finish hs hf).classed h.classed
  refine .inr ⟨haction, t', ⟨hclassed, fun _ => hview, fun hc => absurd hc hopen⟩, ?_⟩
  simpa [finishTraffic, hphase'] using hf

theorem Stands.finishOutput_greeting {retained : Option RetainedFrame}
    (h : m.Stands (.greeting s retained)) (now : ℕ)
    (hview' : m'.view = { m.view with output := none }) :
    Finishes m (.greeting s retained) (m'.finishOutput now .hello) := by
  rw [h.view (by simp)] at hview'
  simp only [ConnectionMachine.view, Talk.view, ConnectionView.mk.injEq] at hview'
  obtain ⟨hphase, hout, hlatest, hretained, hasked, hdown, hfixed⟩ := hview'
  have hpending : m'.requestPending = false := by
    cases hp : m'.requestPending <;> simp_all
  simp only [ConnectionMachine.finishOutput, hphase, hretained, reduceCtorEq, if_false]
  rcases retained with - | request | message
  · simp only
    split_ifs
    · exact finishes_close _ _ _ rfl (by simp)
    · refine h.finishes rfl rfl (by simp) (by simp [Talk.view]) ?_ (.greeted s)
      simp_all [ConnectionMachine.view, Talk.view]
  · refine h.finishes rfl rfl (by simp) (by simp [Talk.view]) ?_ (.hand s request)
    simp_all [ConnectionMachine.view, Talk.view, handOver]
  · rcases queueTerminalError_cases { m' with phase := .ready, retained := none } now message with
      hclosed | ⟨s', hfresh, hclass, hview⟩
    · refine .inr ⟨rfl, .closed, hclosed, ?_⟩
      simpa [finishTraffic, (hclosed.closed rfl).1] using .close rfl (by simp)
    · have hstands : ConnectionView.mk .closeAfterReply (some s'.cursor) none none none false
          false = (Talk.parting s').view := rfl
      have hparting := hview.trans (Eq.trans (by simp_all [ConnectionMachine.view]) hstands)
      have hf := Talk.Follows.refuse s message hfresh hclass
      refine .inr ⟨rfl, .parting s', ⟨.inr hclass, fun _ => hparting, by simp⟩, ?_⟩
      have hm : m.phase ≠ .closeAfterReply := by
        rw [show m.phase = .sendingHello from congrArg ConnectionView.phase (h.view (by simp))]
        simp
      simp only [ConnectionMachine.view, Talk.view, ConnectionView.mk.injEq] at hparting
      simpa [finishTraffic, hm, hparting, pending, MachineAction.requests] using hf

theorem Stands.finishOutput (h : m.Stands t) (hs : t.current = some s) (now : ℕ)
    (hview' : m'.view = { m.view with output := none }) :
    Finishes m t (m'.finishOutput now s.frame.outputClass) := by
  have hclassed := h.classed
  cases t with
  | greeting c =>
    obtain rfl : c = s := Option.some.inj hs
    rw [show c.frame.outputClass = .hello from hclassed]
    exact h.finishOutput_greeting now hview'
  | answering c =>
    obtain rfl : c = s := Option.some.inj hs
    rw [show c.frame.outputClass = .ordinary from hclassed]
    simp only [ConnectionMachine.finishOutput]
    split_ifs
    · exact finishes_close _ _ _ rfl (by simp)
    · refine h.finishes rfl rfl (by simp) (by simp [Talk.view]) ?_ (.answered c)
      rw [hview', h.view (by simp)]
      rfl
  | parting c =>
    cases hs
    have hphase : m'.phase = .closeAfterReply := by
      have := congrArg ConnectionView.phase (hview'.trans (by rw [h.view (by simp)]))
      exact this
    rcases hclassed with hc | hc <;> rw [hc]
    · simp only [ConnectionMachine.finishOutput, hphase, if_true]
      exact finishes_close _ _ _ rfl (by simp)
    · exact finishes_close _ _ _ rfl (by simp)
  | subscribed c latest =>
    obtain rfl : c = s := Option.some.inj hs
    have hfinish : m'.finishOutput now c.frame.outputClass = m'.finishSubscriberOutput now := by
      rcases hclassed.1 with hc | hc <;> rw [hc] <;> rfl
    rw [h.view (by simp)] at hview'
    simp only [ConnectionMachine.view, Talk.view, ConnectionView.mk.injEq] at hview'
    rw [hfinish]
    cases latest with
    | none =>
      simp only [finishSubscriberOutput, hview', map_none, Bool.false_eq_true, if_false]
      refine h.finishes rfl rfl (by simp) (by simp [Talk.view]) ?_ (.drained c)
      simp [ConnectionMachine.view, Talk.view, hview']
    | some next =>
      simp only [finishSubscriberOutput, hview', map_some]
      refine h.finishes rfl rfl (by simp) (by simp [Talk.view]) ?_ (.promote c next)
      simp [ConnectionMachine.view, Talk.view, hview']
  | leaving c last =>
    obtain rfl : c = s := Option.some.inj hs
    rw [h.view (by simp)] at hview'
    simp only [ConnectionMachine.view, Talk.view, ConnectionView.mk.injEq] at hview'
    cases last with
    | none =>
      have hfinish : m'.finishOutput now c.frame.outputClass = m'.close .shutdown := by
        rcases hclassed.1 with hc | hc | hc <;> rw [hc] <;>
          simp [ConnectionMachine.finishOutput, finishSubscriberOutput, hview']
      rw [hfinish]
      exact finishes_close _ _ _ rfl (by simp)
    | some next =>
      rw [(hclassed.2 next rfl).2]
      simp only [ConnectionMachine.finishOutput, finishSubscriberOutput, hview', map_some]
      refine h.finishes rfl rfl (by simp) (by simp [Talk.view]) ?_ (.last c next)
      simp [ConnectionMachine.view, Talk.view, hview']
  | _ => simp [Talk.current] at hs

omit [IpcJson] in
theorem view_touchOutput (m : ConnectionMachine) (now count : ℕ) :
    (m.touchOutput now count).view = m.view := by
  unfold touchOutput
  split_ifs <;> rfl

theorem advanceOutput_of_lt (hout : m.output = some c) (now : ℕ)
    (hne : c.offset + count ≠ c.bytes.length) : m.advanceOutput now count = (.none,
      { m.touchOutput now count with output := some { c with offset := c.offset + count } }) := by
  simp only [advanceOutput, hout, OutputCursor.advance, hne, decide_false]

theorem advanceOutput_of_eq (hout : m.output = some c) (now : ℕ)
    (heq : c.offset + count = c.bytes.length) : m.advanceOutput now count = finishOutput
        { m.touchOutput now count with output := none, outputDeadline := none } now
        c.outputClass := by
  simp only [advanceOutput, hout, OutputCursor.advance, heq, decide_true]

omit [IpcJson] in
theorem Stands.withCurrent {s' : Sending} (h : m.Stands t) (hs : t.current = some s)
    (hview : m'.view = { m.view with output := some s'.cursor }) :
    m'.view = (t.withCurrent s').view := by
  rw [hview, h.view (by rintro rfl; simp [current] at hs)]
  cases t <;> first | rfl | simp [current] at hs

theorem Stands.advanceOutput (h : m.Stands t) {now : ℕ}
    (hallows : m.Allows (.advanceOutput now count)) :
    Tracks t (m.traffic (.advanceOutput now count)) (m.advanceOutput now count) := by
  obtain ⟨c, hout, hcount⟩ := hallows
  obtain ⟨s, hs, rfl⟩ : ∃ s, t.current = some s ∧ s.cursor = c := by
    simpa [h.output_eq] using hout
  have hrest : s.cursor.remaining = s.rest := rfl
  rw [hrest, rest, length_drop] at hcount
  have hunfinished := s.unfinished
  by_cases heq : s.offset + count = s.frame.bytes.length
  · have hadvance := advanceOutput_of_eq hout now heq
    have hview : ConnectionMachine.view
        { m.touchOutput now count with output := none, outputDeadline := none } =
          { m.view with output := none } := by
      rw [← view_touchOutput m now count]
      rfl
    have htraffic : m.traffic (.advanceOutput now count) =
        { m.finishTraffic (m.advanceOutput now count) with
          sent := s.rest, delivered := [s.frame] } := by
      have htake : s.rest.take count = s.rest := by
        rw [take_of_length_le]
        rw [rest, length_drop]
        omega
      simp [traffic, call, queues, MachineCall.sends, MachineCall.delivers, finishTraffic, hout,
        hrest, htake, heq]
    rw [htraffic, hadvance]
    rcases h.finishOutput hs now hview with ⟨hremoves, hf⟩ | ⟨hremoves, t', hstands, hf⟩
    · exact .inl ⟨hremoves, .finish hs hf⟩
    · exact .inr ⟨hremoves, t', hstands, .finish hs hf⟩
  · have hlt : s.offset + count < s.frame.bytes.length := by omega
    have hadvance := advanceOutput_of_lt hout now heq
    have htraffic : m.traffic (.advanceOutput now count) = { sent := s.rest.take count } := by
      have hphase : (m.touchOutput now count).phase = m.phase :=
        congrArg ConnectionView.phase (view_touchOutput m now count)
      simp [traffic, call, queues, MachineCall.sends, MachineCall.delivers, hout,
        hrest, heq, hadvance, hphase, MachineAction.requests]
    rw [htraffic, hadvance]
    refine h.goes (.send hs hlt) (withCurrent_ne_closed hs) rfl (h.withCurrent hs ?_)
    rw [← view_touchOutput m now count]
    rfl

end ConnectionMachine

end Realm
