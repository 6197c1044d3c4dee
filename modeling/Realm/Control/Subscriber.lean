import Realm.Control.Requests

/-!
# What a subscriber receives

A subscriber gets the state it subscribed with, then states that were published since, in order
and with the newest one last, and at a shutdown what its current frame leaves room for.
-/

namespace Realm

open Text Ipc List ConnectionMachine Talk

variable [IpcJson] {new : List RealmState} {plan : List Frame} {m : ConnectionMachine}

namespace MachineCall

def published : MachineCall → List RealmState
  | publishState _ state => [state]
  | _ => []

def isShutdown : MachineCall → Bool
  | beginShutdown _ => true
  | _ => false

end MachineCall

def eventFrame (outputClass : OutputClass) (event : Event) : Frame :=
  ⟨outputClass, IpcJson.event event ++ [lf]⟩

def shutdownFrame : Frame := eventFrame .shutdown .shutdown

/-- The state subscribed with, and later ones. -/
def feed (state : RealmState) (later : List RealmState) : List Frame :=
  eventFrame .initialState (.state state) :: later.map fun s => eventFrame .state (.state s)

theorem eq_of_encodeEvent {event : Event} {bytes : Bytes} (h : encodeEvent event = some bytes) :
    bytes = IpcJson.event event ++ [lf] := by
  unfold encodeEvent encode at h
  split at h
  · exact (Option.some.inj h).symm
  · simp at h

namespace Talk

variable {c s : Sending}

/-- How what a subscriber received, and what waits, stands to what was published. -/
def Feeds (state : RealmState) (published : List RealmState) (frames : List Frame) : Talk → Prop
  | idle => ∃ later, frames = feed state later ∧ later.Sublist published ∧
      later.getLast? = published.getLast?
  | subscribed c latest => ∃ later, frames ++ (subscribed c latest).waiting = feed state later ∧
      later.Sublist published ∧ later.getLast? = published.getLast?
  | leaving c last => ∃ later, later.Sublist published ∧
      (frames ++ (leaving c last).waiting = feed state later ∨
        frames ++ (leaving c last).waiting = feed state later ++ [shutdownFrame])
  | closed => frames = [] ∨ ∃ later, later.Sublist published ∧
      (frames = feed state later ∨ frames = feed state later ++ [shutdownFrame])
  | _ => False

variable {t t' : Talk} {a : Traffic} {state : RealmState} {published : List RealmState}
  {frames : List Frame} {latest : Option Sending}

theorem feed_of_beginning {later : List RealmState} (h : frames <+: feed state later) :
    frames = [] ∨ ∃ before, before.Sublist later ∧ frames = feed state before := by
  cases frames with
  | nil => exact .inl rfl
  | cons f frames =>
    obtain ⟨rfl, hpre⟩ := cons_prefix_cons.1 h
    refine .inr ⟨later.take frames.length, take_sublist .., ?_⟩
    rw [feed, map_take, ← prefix_iff_eq_take.1 hpre]

theorem Feeds.received (h : t.Feeds state published frames) :
    closed.Feeds state published frames := by
  have hbeginning : ∀ {later : List RealmState}, later.Sublist published →
      frames <+: feed state later → closed.Feeds state published frames := by
    intro later hsub hpre
    rcases feed_of_beginning hpre with rfl | ⟨before, hbefore, rfl⟩
    · exact .inl rfl
    · exact .inr ⟨before, hbefore.trans hsub, .inl rfl⟩
  cases t with
  | idle =>
    obtain ⟨later, rfl, hsub, -⟩ := h
    exact .inr ⟨later, hsub, .inl rfl⟩
  | subscribed =>
    obtain ⟨later, heq, hsub, -⟩ := h
    exact hbeginning hsub (heq ▸ prefix_append ..)
  | leaving =>
    obtain ⟨later, hsub, heq | heq⟩ := h
    · exact hbeginning hsub (heq ▸ prefix_append ..)
    · have hpre : frames <+: feed state later ++ [shutdownFrame] :=
        heq ▸ prefix_append ..
      rcases prefix_concat_iff.1 hpre with rfl | hpre
      · exact .inr ⟨later, hsub, .inr rfl⟩
      · exact hbeginning hsub hpre
  | closed => exact h
  | _ => exact h.elim

/-- What a call publishes and what it queues. -/
structure Publishes (t t' : Talk) (a : Traffic) (new : List RealmState) : Prop where
  state : ∀ f ∈ a.queued, f.outputClass = .state →
    ∃ s, new = [s] ∧ f = eventFrame .state (.state s)
  shutdown : ∀ f ∈ a.queued, f.outputClass = .shutdown → f = shutdownFrame
  queued : new ≠ [] → t' = closed ∨ (∃ c last, t = leaving c last) ∨ a.queued ≠ []

/-- What is published behind a shutdown reaches no subscriber. -/
theorem Feeds.mono (h : t.Feeds state published frames)
    (hnew : new ≠ [] → t = closed ∨ ∃ c last, t = leaving c last) :
    t.Feeds state (published ++ new) frames := by
  have hmore : published.Sublist (published ++ new) := sublist_append_left ..
  by_cases hnil : new = []
  · rwa [hnil, append_nil]
  · rcases hnew hnil with rfl | ⟨c, last, rfl⟩
    · rcases h with h | ⟨later, hsub, h⟩
      · exact .inl h
      · exact .inr ⟨later, hsub.trans hmore, h⟩
    · obtain ⟨later, hsub, h⟩ := h
      exact ⟨later, hsub.trans hmore, h⟩

theorem Feeds.to_current (h : (subscribed c latest).Feeds state published frames) :
    ∃ later, later.Sublist published ∧ frames ++ [c.frame] = feed state later := by
  obtain ⟨later, heq, hsub, -⟩ := h
  have hpre : frames ++ [c.frame] <+: feed state later := by
    rw [← heq, prefix_append_right_inj]
    simp [waiting, current]
  rcases feed_of_beginning hpre with hnil | ⟨before, hbefore, hfeed⟩
  · simp at hnil
  · exact ⟨before, hbefore.trans hsub, hfeed⟩

theorem feed_concat (later : List RealmState) (new : RealmState) :
    feed state (later ++ [new]) = feed state later ++ [eventFrame .state (.state new)] := by
  simp [feed]

theorem Feeds.finish (h : t.Feeds state published frames)
    (ht : t.current = some s) (hf : Follows t a t') :
    t'.Feeds state published (frames ++ [s.frame]) := by
  cases hf with
  | close hlatest hsubscribed =>
    cases t with
    | leaving c last =>
      cases ht
      obtain rfl : last = none := hlatest
      obtain ⟨later, hsub, heq⟩ := h
      exact .inr ⟨later, hsub, heq⟩
    | subscribed c latest =>
      obtain rfl : latest = none := hlatest
      exact absurd rfl (hsubscribed c)
    | idle | closed => simp [current] at ht
    | _ => exact h.elim
  | drained c =>
    cases ht
    exact h
  | promote c | last c =>
    cases ht
    simpa [Feeds, waiting, current, latest] using h
  | _ => exact h.elim

theorem Feeds.send (h : t.Feeds state published frames)
    (ht : t.current = some c) (hframe : s.frame = c.frame) :
    (t.withCurrent s).Feeds state published frames := by
  cases t with
  | subscribed c₀ latest | leaving c₀ =>
    cases ht
    simpa [Feeds, withCurrent, waiting, current, Talk.latest, hframe] using h
  | idle | closed => exact h
  | _ => exact h.elim

/-- A state that is published waits behind the current frame, in the place of the one before. -/
theorem Feeds.replace {new : RealmState} (h : (subscribed c latest).Feeds state published frames)
    (hs : s.frame = eventFrame .state (.state new)) :
    (subscribed c (some s)).Feeds state (published ++ [new]) frames := by
  obtain ⟨later, hsub, heq⟩ := h.to_current
  refine ⟨later ++ [new], ?_, hsub.append_right _, by simp⟩
  rw [feed_concat, ← heq]
  simp [waiting, current, Talk.latest, hs]

theorem Feeds.move (h : t.Feeds state published frames) (hm : t.Moves a t')
    (hp : Publishes t t' a new) : t'.Feeds state (published ++ new) (frames ++ a.delivered) := by
  have hmore : published.Sublist (published ++ new) := sublist_append_left ..
  cases hm with
  | stay =>
    rw [append_nil]
    exact h.mono fun hnew => (hp.queued hnew).imp_right (·.resolve_right (by simp))
  | close =>
    rw [append_nil]
    exact h.received.mono fun _ => .inl rfl
  | @send t s count ht hlt =>
    rw [append_nil]
    refine (h.send (s := s.advance hlt) ht rfl).mono fun hnew => ?_
    rcases hp.queued hnew with hc | ⟨c, last, rfl⟩ | hq
    · exact .inl hc
    · exact .inr ⟨_, _, rfl⟩
    · exact absurd rfl hq
  | finish ht hf =>
    refine (h.finish ht hf).mono fun hnew => ?_
    rcases hp.queued hnew with hc | ⟨c, last, rfl⟩ | hq
    · exact .inl hc
    · cases hf with
      | close => exact .inl rfl
      | last => exact .inr ⟨_, _, rfl⟩
    · cases hf with
      | refuse => exact h.elim
      | _ => exact absurd rfl hq
  | @publish s hfresh hclass =>
    obtain ⟨x, rfl, hs⟩ := hp.state s.frame (by simp) hclass
    obtain ⟨later, rfl, hsub, -⟩ := h
    refine ⟨later ++ [x], ?_, hsub.append_right _, by simp⟩
    rw [feed_concat]
    simp [waiting, current, latest, hs]
  | @replace c s latest hfresh hclass =>
    obtain ⟨x, rfl, hs⟩ := hp.state s.frame (by simp) hclass
    rw [append_nil]
    exact h.replace hs
  | @tell s hfresh hclass =>
    obtain ⟨later, rfl, hsub, -⟩ := h
    refine ⟨later, hsub.trans hmore, .inr ?_⟩
    simp [waiting, current, latest, hp.shutdown s.frame (by simp) hclass]
  | @tellBehind c s latest hinitial hunstarted hfresh hclass =>
    obtain ⟨later, hsub, heq⟩ := h.to_current
    refine ⟨later, hsub.trans hmore, .inr ?_⟩
    rw [← heq]
    simp [waiting, current, Talk.latest, hp.shutdown s.frame (by simp) hclass]
  | @tellInstead c s latest hstate hunstarted hfresh hclass =>
    -- the state that is replaced is not the first frame
    obtain ⟨later, hsub, heq⟩ := h.to_current
    rcases feed_of_beginning (heq ▸ prefix_append frames _) with rfl | ⟨before, hb, rfl⟩
    · rw [nil_append, feed, List.cons.injEq] at heq
      simp [heq.1, eventFrame] at hstate
    · refine ⟨before, (hb.trans hsub).trans hmore, .inr ?_⟩
      simp [waiting, current, Talk.latest, hp.shutdown s.frame (by simp) hclass]
  | finishAlone =>
    obtain ⟨later, hsub, heq⟩ := h.to_current
    refine ⟨later, hsub.trans hmore, .inl ?_⟩
    rw [← heq]
    simp [waiting, current, latest]
  | part ht => rcases ht with rfl | rfl <;> exact h.elim
  | _ => exact h.elim

end Talk

namespace Talk

variable {t t' : Talk} {a : Traffic} {state : RealmState} {published : List RealmState}
  {frames : List Frame}

omit [IpcJson] in
theorem Moves.of_asked {subscribe : Bool} (h : (asked subscribe).Moves a t') :
    t' = asked subscribe ∨ t' = closed ∨ (∃ s, t' = answering s) ∨
      ∃ s, t' = subscribed s none ∧ a.queued = [s.frame] ∧ a.delivered = [] := by
  cases h with
  | stay => exact .inl rfl
  | close => exact .inr (.inl rfl)
  | part ht => simp at ht
  | send ht | finish ht => simp [current] at ht
  | answer => exact .inr (.inr (.inl ⟨_, rfl⟩))
  | subscribe => exact .inr (.inr (.inr ⟨_, rfl, rfl, rfl⟩))

theorem Feeds.of_closed (h : closed.Feeds state published frames) (hm : closed.Moves a t') :
    t'.Feeds state (published ++ new) (frames ++ a.delivered) := by
  obtain rfl : t' = closed := by
    by_contra hopen
    exact hm.ne_closed hopen rfl
  have hnone : a.delivered = [] := by
    rcases (hm.closes rfl).2.2 with ⟨-, hd⟩ | ⟨s, hs, -⟩
    · exact hd
    · simp [current] at hs
  rw [hnone, append_nil]
  exact h.mono fun _ => .inl rfl

theorem phase_of_feeds (h : t.Feeds state published frames) (hopen : t ≠ closed) :
    t.view.phase = .subscriber := by
  cases t with
  | idle | subscribed | leaving => rfl
  | closed => exact absurd rfl hopen
  | _ => exact h.elim

end Talk

namespace ConnectionMachine

variable {m : ConnectionMachine} {t t' : Talk} {f : Frame} {now : ℕ} {call : MachineCall}

omit [IpcJson] in
theorem mem_pending_placeShutdown {shutdown : OutputCursor}
    (h : f ∈ (m.placeShutdown shutdown).pending) : f ∈ m.pending ∨ f = shutdown.frame := by
  obtain ⟨ho | ho, hl | hl⟩ : ((m.placeShutdown shutdown).output = m.output ∨
      (m.placeShutdown shutdown).output = some shutdown) ∧
      ((m.placeShutdown shutdown).latest = m.latest ∨
        (m.placeShutdown shutdown).latest = some shutdown) := by
    unfold placeShutdown
    repeat' split
    all_goals simp
  all_goals
    simp only [pending, ho, hl, map_append, mem_append] at h ⊢
    aesop

omit [IpcJson] in
theorem finishSubscriberOutput_phase_ne (hphase : m.phase = .subscriber) (now : ℕ) :
    (m.finishSubscriberOutput now).2.phase ≠ .closeAfterReply := by
  unfold finishSubscriberOutput
  repeat' split
  all_goals simp [close, hphase]

omit [IpcJson] in
theorem Stands.subscriber (h : m.Stands t) (hphase : m.phase = .subscriber) :
    m.requestPending = false ∧ ((∃ c last, t = .leaving c last) ↔ m.shuttingDown = true) ∧
      m.shutdownDeadline.isSome = m.shuttingDown := by
  have hview := h.view (by rintro rfl; simpa [hphase] using (h.closed rfl).1)
  rcases h.of_subscriber hphase with rfl | ⟨c, l, rfl⟩ | ⟨c, l, rfl⟩ <;>
    simp_all [ConnectionMachine.view, Talk.view]

/-- A subscriber's frame is followed by the latest state or by nothing. -/
theorem Stands.queues_advanceOutput (h : m.Stands t) (hphase : m.phase = .subscriber) {count : ℕ}
    (hallows : m.Allows (.advanceOutput now count)) : m.queues (.advanceOutput now count) = [] := by
  obtain ⟨c, hout, -⟩ := hallows
  have htouch : (m.touchOutput now count).phase = m.phase :=
    congrArg ConnectionView.phase (view_touchOutput m now count)
  have hclass : c.outputClass = .initialState ∨ c.outputClass = .state ∨
      c.outputClass = .shutdown := by
    have heq := h.output_eq.symm.trans hout
    have hclassed := h.classed
    rcases h.of_subscriber hphase with rfl | ⟨s, l, rfl⟩ | ⟨s, l, rfl⟩
    · simp [current] at heq
    · cases heq
      exact hclassed.1.imp_right .inl
    · cases heq
      exact hclassed.1
  have hne : (m.advanceOutput now count).2.phase ≠ .closeAfterReply := by
    by_cases hdone : c.offset + count = c.bytes.length
    · rw [advanceOutput_of_eq hout now hdone]
      rcases hclass with hc | hc | hc <;> rw [hc]
      · apply finishSubscriberOutput_phase_ne
        exact htouch.trans hphase
      · apply finishSubscriberOutput_phase_ne
        exact htouch.trans hphase
      · simp [ConnectionMachine.finishOutput, close]
    · rw [advanceOutput_of_lt hout now hdone]
      simp [htouch, hphase]
  simp [queues, hne]

theorem Stands.queues_beginShutdown (h : m.Stands t) (hphase : m.phase = .subscriber)
    (hf : f ∈ m.queues (.beginShutdown now)) : f = shutdownFrame := by
  obtain ⟨-, hleaving, hdown⟩ := h.subscriber hphase
  cases hfixed : m.shutdownDeadline with
  | some => simp [queues, hfixed] at hf
  | none =>
    simp only [queues, hphase, hfixed, ne_eq, not_true_eq_false, decide_false,
      Option.isSome_none, Bool.or_self, Bool.false_eq_true, if_false, mem_filter,
      decide_eq_true_eq] at hf
    obtain ⟨hmem, hclass⟩ := hf
    simp only [ConnectionMachine.beginShutdown, hfixed, hphase, Option.isSome_none, reduceCtorEq,
      decide_false, Bool.or_self, Bool.false_eq_true, if_false, ne_eq, not_true_eq_false] at hmem
    cases hencode : encodeEvent .shutdown with
    | none => simp [hencode, close, pending] at hmem
    | some =>
      rw [hencode] at hmem
      rcases mem_pending_placeShutdown hmem with hold | rfl
      · -- no frame of a subscriber that was not told is the word of a shutdown
        simp only [pending, h.output_eq, Option.toList_none, append_nil, mem_map,
          Option.mem_toList, Option.map_eq_some_iff] at hold
        obtain ⟨c, ⟨s, hs, rfl⟩, rfl⟩ := hold
        have hclassed := h.classed
        rcases h.of_subscriber hphase with rfl | ⟨c, l, rfl⟩ | ⟨c, l, rfl⟩
        · simp [current] at hs
        · cases hs
          rcases hclassed.1 with hc | hc <;> simp [hc] at hclass
        · simp [← hdown, hfixed] at hleaving
      · rw [eq_of_encodeEvent hencode]
        rfl

theorem Stands.publishes (h : m.Stands t) (hphase : m.phase = .subscriber) (hallows : m.Allows call)
    (hgone : (m.call call).1.removes = true → t' = .closed) :
    Talk.Publishes t t' (m.traffic call) call.published := by
  obtain ⟨hpending, hleaving, -⟩ := h.subscriber hphase
  have hnothing : m.queues call = [] → call.published = [] →
      Talk.Publishes t t' (m.traffic call) call.published := by
    intro hq hnew
    have hq' : (m.traffic call).queued = [] := hq
    exact ⟨by simp [hq'], by simp [hq'], absurd hnew⟩
  cases call with
  | ingest =>
    refine hnothing ?_ rfl
    simp [queues, ConnectionMachine.ingest, hphase, hallows.2, pending, close]
  | readEof => exact hnothing rfl rfl
  | advanceOutput => exact hnothing (h.queues_advanceOutput hphase hallows) rfl
  | completeRequest | completeSubscribe => exact hnothing (by simp [queues, hpending]) rfl
  | publishState now state =>
    cases hdown : m.shuttingDown with
    | true =>
      have hq : (m.traffic (.publishState now state)).queued = [] := by
        simp [traffic, queues, hdown]
      exact ⟨by simp [hq], by simp [hq], fun _ => .inr (.inl (hleaving.mpr hdown))⟩
    | false =>
      cases hencode : encodeEvent (.state state) with
      | none =>
        have hq : (m.traffic (.publishState now state)).queued = [] := by
          simp [traffic, queues, hencode]
        refine ⟨by simp [hq], by simp [hq], fun _ => .inl (hgone ?_)⟩
        simp [call, hphase, hencode, MachineAction.removes]
      | some =>
        have hq : (m.traffic (.publishState now state)).queued =
            [eventFrame .state (.state state)] := by
          simp [traffic, queues, hencode, hphase, hdown, eventFrame, eq_of_encodeEvent hencode]
        refine ⟨fun f hf _ => ⟨state, rfl, ?_⟩, fun f hf hclass => ?_, fun _ => ?_⟩
        · simpa [hq] using hf
        · rw [hq, mem_singleton] at hf
          simp [hf, eventFrame] at hclass
        · simp [hq]
  | beginShutdown now =>
    have hclass : ∀ f ∈ m.queues (.beginShutdown now), f.outputClass = .shutdown := by
      intro f hf
      simp only [queues] at hf
      split at hf
      · simp at hf
      · simpa using (mem_filter.1 hf).2
    refine ⟨fun f hf hstate => ?_, fun f hf _ => h.queues_beginShutdown hphase hf, absurd rfl⟩
    simp [hclass f hf] at hstate
  | expire => exact hnothing rfl rfl

theorem shuttingDown_finishOutput (m : ConnectionMachine) (now : ℕ) (outputClass : OutputClass) :
    (m.finishOutput now outputClass).2.shuttingDown = m.shuttingDown := by
  cases outputClass <;>
    simp only [finishOutput, finishSubscriberOutput, queueTerminalError, handOver, close]
  all_goals
    repeat' split
    all_goals rfl

theorem shuttingDown_call (hphase : m.phase = .subscriber) (hcall : call.isShutdown = false) :
    (m.call call).2.shuttingDown = m.shuttingDown := by
  cases call with
  | ingest =>
    simp only [call, ingest, hphase, if_true]
    split <;> rfl
  | readEof | completeRequest | completeSubscribe | publishState | expire =>
    simp only [call, readEof, completeRequest, completeSubscribe, publishState, expire]
    repeat' split
    all_goals rfl
  | advanceOutput now count =>
    have htouch : (m.touchOutput now count).shuttingDown = m.shuttingDown :=
      congrArg ConnectionView.shuttingDown (view_touchOutput m now count)
    simp only [call, advanceOutput]
    split
    · rfl
    · split
      · exact htouch
      · rw [shuttingDown_finishOutput]
        exact htouch
  | beginShutdown => simp [MachineCall.isShutdown] at hcall

theorem Stands.subscribes (h : m.Stands t) (hasked : m.requestPending = true)
    (hsubscribe : m.pendingSubscribe = true) {state : RealmState}
    (hstarted : (m.completeSubscribe now state).1.removes = false) :
    ∃ bytes, encodeEvent (.state state) = some bytes ∧
      (m.completeSubscribe now state).2.phase = .subscriber ∧
      m.queues (.completeSubscribe now state) = [eventFrame .initialState (.state state)] := by
  obtain rfl := h.eq_asked hasked
  have hview := h.view (by simp)
  have hdown : m.shuttingDown = false := by simp_all [ConnectionMachine.view, Talk.view]
  cases hencode : encodeEvent (.state state) with
  | none =>
    simp [ConnectionMachine.completeSubscribe, hdown, hasked, hsubscribe, hencode,
      MachineAction.removes] at hstarted
  | some bytes =>
    refine ⟨bytes, rfl, ?_, ?_⟩
    · simp [ConnectionMachine.completeSubscribe, hdown, hasked, hsubscribe, hencode, setCurrent]
    · simp [queues, hdown, hasked, hsubscribe, hencode, eventFrame, eq_of_encodeEvent hencode]

end ConnectionMachine

namespace Line

/-- A subscriber: the state it subscribed with, the frames it had before, what was published
since, and whether it was told of a shutdown. -/
inductive Subscribed (state : RealmState) (before : List Frame) :
    List RealmState → Bool → Line → Prop where
  | start {l : Line} (h : Reachable l) (hopen : l.gone = false)
      (hbefore : l.traffic.delivered = before) (hasked : l.machine.requestPending = true)
      (hsubscribe : l.machine.pendingSubscribe = true) {now : ℕ}
      (hstarted : (l.step (.completeSubscribe now state)).gone = false) :
      Subscribed state before [] false (l.step (.completeSubscribe now state))
  | step {published : List RealmState} {down : Bool} {l : Line}
      (h : Subscribed state before published down l) (hopen : l.gone = false)
      {call : MachineCall} (hallows : l.machine.Allows call) :
      Subscribed state before (published ++ call.published) (down || call.isShutdown)
        (l.step call)
  | remove {published : List RealmState} {down : Bool} {l : Line}
      (h : Subscribed state before published down l) :
      Subscribed state before published down { l with gone := true }

/-- A connection, and one that calls of the server lead to from it. -/
inductive Later (l₀ : Line) : Line → Prop where
  | refl : Later l₀ l₀
  | step {l : Line} (h : Later l₀ l) (hopen : l.gone = false) {call : MachineCall}
      (hallows : l.machine.Allows call) : Later l₀ (l.step call)
  | remove {l : Line} (h : Later l₀ l) : Later l₀ { l with gone := true }

variable {state : RealmState} {before : List Frame} {published : List RealmState} {down : Bool}
  {l : Line}

/-- What is known of a subscriber. -/
structure Fed (state : RealmState) (before : List Frame) (published : List RealmState)
    (down : Bool) (l : Line) (t : Talk) (frames : List Frame) : Prop where
  keeps : l.Keeps t
  delivered : l.traffic.delivered = before ++ frames
  feeds : t.Feeds state published frames
  not_told : down = false → ∀ c last, t ≠ .leaving c last

theorem Subscribed.fed (h : Subscribed state before published down l) :
    ∃ t frames, Fed state before published down l t frames := by
  induction h with
  | @start l h hopen hbefore hasked hsubscribe now hstarted =>
    obtain ⟨t, ht⟩ := h.keeps
    obtain ⟨bytes, hencode, hphase, hqueues⟩ :=
      (ht.stands hopen).subscribes hasked hsubscribe hstarted
    have hallows : l.machine.Allows (.completeSubscribe now state) := trivial
    obtain ⟨t', ht', hm⟩ := ht.step hopen hallows
    have hstands := ht'.stands hstarted
    obtain rfl := (ht.stands hopen).eq_asked hasked
    have hphase' : (l.step (.completeSubscribe now state)).machine.phase = .subscriber := hphase
    rcases hm.of_asked with rfl | rfl | ⟨s, rfl⟩ | ⟨s, rfl, hq, hd⟩
    · have hp := congrArg ConnectionView.phase (hstands.view (by simp))
      exact absurd (hphase'.symm.trans hp) (by simp [Talk.view])
    · exact absurd (hphase'.symm.trans (hstands.closed rfl).1) (by simp)
    · have hp := congrArg ConnectionView.phase (hstands.view (by simp))
      exact absurd (hphase'.symm.trans hp) (by simp [Talk.view])
    · have hframe : s.frame = eventFrame .initialState (.state state) :=
        singleton_inj.1 (hq.symm.trans hqueues)
      refine ⟨_, [], ht', ?_, ⟨[], ?_, List.Sublist.refl _, rfl⟩, by simp⟩
      · simp [Line.step, Traffic.add, hd, hbefore]
      · simp [Talk.waiting, Talk.current, Talk.latest, feed, hframe]
  | @step published down l h hopen call hallows ih =>
    obtain ⟨t, frames, hf⟩ := ih
    obtain ⟨t', ht', hm⟩ := hf.keeps.step hopen hallows
    have hstands := hf.keeps.stands hopen
    have hphase : t ≠ .closed → l.machine.phase = .subscriber := fun hclosed =>
      (congrArg ConnectionView.phase (hstands.view hclosed)).trans
        (Talk.phase_of_feeds hf.feeds hclosed)
    refine ⟨t', frames ++ (l.machine.traffic call).delivered, ht', ?_, ?_, ?_⟩
    · simp [Line.step, Traffic.add, hf.delivered]
    · by_cases hclosed : t = .closed
      · subst hclosed
        exact hf.feeds.of_closed hm
      · exact hf.feeds.move hm (hstands.publishes (hphase hclosed) hallows ht'.gone)
    · rintro hdown c last rfl
      obtain ⟨hnot, hcall⟩ := Bool.or_eq_false_iff.1 hdown
      have hclosed := hm.ne_closed (by simp)
      have hgone : (l.step call).gone = false := by
        by_contra hgone
        simpa using ht'.gone (by simpa using hgone)
      have htold : (l.step call).machine.shuttingDown = true :=
        congrArg ConnectionView.shuttingDown ((ht'.stands hgone).view (by simp))
      have hsame : (l.step call).machine.shuttingDown = l.machine.shuttingDown :=
        shuttingDown_call (hphase hclosed) hcall
      have hview := congrArg ConnectionView.shuttingDown (hstands.view hclosed)
      have hbefore : t.view.shuttingDown = true := hview.symm.trans (hsame.symm.trans htold)
      cases t with
      | leaving c last => exact hf.not_told hnot c last rfl
      | _ => simp [Talk.view] at hbefore
  | remove h ih =>
    obtain ⟨t, frames, hf⟩ := ih
    exact ⟨.closed, frames, hf.keeps.remove, hf.delivered, hf.feeds.received, by simp⟩

end Line

/-- The frames a subscriber still gets at a shutdown: an initial state that was not begun goes
before its word, a frame that was begun goes alone, and a later state gives way to it. -/
def ConnectionMachine.partingFrames (m : ConnectionMachine) : List Frame :=
  match m.output with
  | none => [shutdownFrame]
  | some c =>
    if 0 < c.offset then [c.frame]
    else if c.outputClass = .initialState then [c.frame, shutdownFrame]
    else [shutdownFrame]

namespace Talk

variable {t t' : Talk} {a : Traffic} {frames : List Frame}

/-- Once a subscriber was told, `plan` is all it gets. -/
def Parts (plan frames : List Frame) : Talk → Prop
  | leaving c last => frames ++ (leaving c last).waiting = plan
  | closed => frames <+: plan
  | _ => False

omit [IpcJson] in
theorem Parts.move (h : t.Parts plan frames) (hm : t.Moves a t') :
    t'.Parts plan (frames ++ a.delivered) := by
  have hpre : frames <+: plan := by
    cases t with
    | leaving => exact h ▸ prefix_append ..
    | closed => exact h
    | _ => exact h.elim
  cases hm with
  | stay | close => rwa [append_nil]
  | @send t s count ht hlt =>
    rw [append_nil]
    cases t with
    | leaving c =>
      cases ht
      simpa [Parts, withCurrent, waiting, current, latest, Sending.advance] using h
    | closed => simp [current] at ht
    | _ => exact h.elim
  | finish ht hf =>
    cases hf with
    | @close t hlatest hsubscribed =>
      cases t with
      | leaving c last =>
        obtain rfl : last = none := hlatest
        obtain rfl := Option.some.inj ht
        exact (show frames ++ [c.frame] = plan from h) ▸ prefix_rfl
      | closed => simp [current] at ht
      | _ => exact h.elim
    | last =>
      cases ht
      simpa [Parts, waiting, current, latest] using h
    | _ => exact h.elim
  | part ht => rcases ht with rfl | rfl <;> exact h.elim
  | _ => exact h.elim

theorem Moves.told {c : Sending} {last : Option Sending} (hm : t.Moves a (leaving c last))
    (hnot : ∀ c last, t ≠ leaving c last) (hout : m.output = t.current.map Sending.cursor)
    (hqueued : ∀ f ∈ a.queued, f = shutdownFrame) : (leaving c last).waiting = m.partingFrames := by
  generalize ht' : leaving c last = t' at hm
  cases hm with
  | stay => exact absurd ht'.symm (hnot c last)
  | @send t s _ ht hlt => cases t <;> simp_all [withCurrent]
  | finish ht hf => cases hf <;> simp_all
  | tell | tellBehind | tellInstead | finishAlone =>
    simp_all [waiting, current, latest, partingFrames]
  | _ => simp at ht'

end Talk

namespace ConnectionMachine

theorem beginShutdown_told (hphase : m.phase = .subscriber) (hfixed : m.shutdownDeadline = none)
    (now : ℕ) :
    (m.beginShutdown now).1.removes = true ∨ (m.beginShutdown now).2.shuttingDown = true := by
  simp only [beginShutdown, hfixed, hphase, Option.isSome_none, reduceCtorEq, decide_false,
    Bool.or_self, Bool.false_eq_true, if_false, ne_eq, not_true_eq_false]
  split
  · exact .inl rfl
  · right
    unfold placeShutdown
    repeat' split
    all_goals rfl

end ConnectionMachine

namespace Line

variable {state : RealmState} {before : List Frame} {published : List RealmState} {down : Bool}
  {l l' : Line} {t : Talk} {frames : List Frame}

theorem Fed.told (h : Fed state before published false l t frames) (hopen : l.gone = false)
    (now : ℕ) : ∃ t', (l.step (.beginShutdown now)).Keeps t' ∧
      t'.Parts l.machine.partingFrames [] := by
  have hallows : l.machine.Allows (.beginShutdown now) := trivial
  obtain ⟨t', ht', hm⟩ := h.keeps.step hopen hallows
  have hstands := h.keeps.stands hopen
  have hnot := h.not_told rfl
  refine ⟨t', ht', ?_⟩
  by_cases hclosed : t' = .closed
  · subst hclosed
    exact nil_prefix
  · have hne := hm.ne_closed hclosed
    have hphase : l.machine.phase = .subscriber :=
      (congrArg ConnectionView.phase (hstands.view hne)).trans
        (Talk.phase_of_feeds h.feeds hne)
    obtain ⟨-, hleaving, hdown⟩ := hstands.subscriber hphase
    have hfixed : l.machine.shutdownDeadline = none := by
      simpa [← hdown, hnot] using hleaving
    have hgone : (l.step (.beginShutdown now)).gone = false := by
      by_contra hgone
      exact hclosed (ht'.gone (by simpa using hgone))
    have htold : t'.view.shuttingDown = true := by
      rw [← (ht'.stands hgone).view hclosed]
      exact (beginShutdown_told hphase hfixed now).resolve_left (by
        simpa [Line.step, call] using hgone)
    cases t' with
    | leaving =>
      exact hm.told hnot hstands.output_eq fun f hf => hstands.queues_beginShutdown hphase hf
    | _ => simp [Talk.view] at htold

theorem Later.parts {delivered : List Frame} (h : Later l l')
    (hstart : ∃ t, l.Keeps t ∧ t.Parts plan []) (hdelivered : l.traffic.delivered = delivered) :
    ∃ t frames, l'.Keeps t ∧ l'.traffic.delivered = delivered ++ frames ∧ t.Parts plan frames := by
  induction h with
  | refl =>
    obtain ⟨t, ht, hp⟩ := hstart
    exact ⟨t, [], ht, by rw [hdelivered, append_nil], hp⟩
  | @step l' h hopen call hallows ih =>
    obtain ⟨t, frames, ht, hd, hp⟩ := ih
    obtain ⟨t', ht', hm⟩ := ht.step hopen hallows
    refine ⟨t', _, ht', ?_, hp.move hm⟩
    simp [Line.step, Traffic.add, hd]
  | remove h ih =>
    obtain ⟨t, frames, ht, hd, hp⟩ := ih
    refine ⟨.closed, frames, ht.remove, hd, ?_⟩
    cases t with
    | leaving => exact (show frames ++ _ = plan from hp) ▸ prefix_append ..
    | closed => exact hp
    | _ => exact hp.elim

/-- For every subscriber, whatever is published and however its frames are sent: the first frame
is the state it subscribed with, the later ones are published states in order, and only the word
of a shutdown may end them; once everything is sent without a shutdown the last frame is the
newest state; and from the moment it is told of a shutdown it gets an initial state not begun
and then the word, or only the word in the place of a later state, or the frame that was begun
alone, and is closed behind that. -/
theorem subscriber_receives (h : Subscribed state before published down l) :
    ∃ frames, l.traffic.delivered = before ++ frames ∧
      (frames = [] ∨ ∃ later, later.Sublist published ∧
        (frames = feed state later ∨ frames = feed state later ++ [shutdownFrame])) ∧
      (down = false → l.gone = false → l.machine.phase ≠ .closing → l.machine.output = none →
        frames.getLast? = some ((published.getLast?.map fun s =>
          eventFrame .state (.state s)).getD (eventFrame .initialState (.state state)))) ∧
      (down = false → l.gone = false → ∀ now l', Later (l.step (.beginShutdown now)) l' →
        ∃ last, l'.traffic.delivered = l.traffic.delivered ++ last ∧
          last <+: l.machine.partingFrames ∧
          (l'.gone = false → l'.machine.phase ≠ .closing →
            l'.machine.pending ≠ [] ∧ last ++ l'.machine.pending = l.machine.partingFrames)) := by
  obtain ⟨t, frames, hf⟩ := h.fed
  refine ⟨frames, hf.delivered, hf.feeds.received, ?_, ?_⟩
  · intro hdown hopen hphase hout
    have hstands := hf.keeps.stands hopen
    have hcurrent : t.current = none := by
      simpa using hstands.output_eq.symm.trans hout
    have hfeeds := hf.feeds
    cases t with
    | idle =>
      obtain ⟨later, rfl, -, hlast⟩ := hfeeds
      simp [feed, getLast?_cons, hlast]
    | closed => exact absurd (hstands.closed rfl).1 hphase
    | subscribed | leaving => simp [current] at hcurrent
    | _ => exact hfeeds.elim
  · rintro rfl hopen now l' hlater
    have hsame : (l.step (.beginShutdown now)).traffic.delivered = l.traffic.delivered :=
      append_nil _
    obtain ⟨t', last, ht', hd, hp⟩ := hlater.parts (hf.told hopen now) hsame
    refine ⟨last, hd, ?_, fun hopen' hphase' => ?_⟩
    · cases t' with
      | leaving => exact (show last ++ _ = _ from hp) ▸ prefix_append ..
      | closed => exact hp
      | _ => exact hp.elim
    · have hstands := ht'.stands hopen'
      rw [hstands.pending_eq]
      cases t' with
      | leaving => exact ⟨by simp [waiting, current], hp⟩
      | closed => exact absurd (hstands.closed rfl).1 hphase'
      | _ => exact hp.elim

def initialFrame : Frame :=
  let _ := plainJson
  eventFrame .initialState (.state .default)

/-- The next state. -/
def nextState : RealmState := { RealmState.default with revision := 1, focusedTitle := "logs" }

def nextFrame : Frame :=
  let _ := plainJson
  eventFrame .state (.state nextState)

omit [IpcJson] in
/-- A subscriber to which another state was published while the first was being sent, with
everything sent. -/
theorem subscriber_receives_drained :
    let _ := plainJson
    ∃ l, Subscribed .default [helloFrame] [nextState] false l ∧
      l.traffic.delivered = [helloFrame, initialFrame, nextFrame] ∧
      ∃ frames, l.traffic.delivered = [helloFrame] ++ frames ∧
        frames.getLast? = some nextFrame := by
  let _ := plainJson
  have hasked : Reachable (greeted.step (.ingest 0 subscribeLine)) :=
    .step reachable_greeted rfl ⟨by decide +kernel, by decide +kernel⟩
  have hstart : Subscribed .default [helloFrame] [] false
      ((greeted.step (.ingest 0 subscribeLine)).step (.completeSubscribe 0 .default)) :=
    .start hasked rfl (by decide +kernel) (by decide +kernel) (by decide +kernel)
      (by decide +kernel)
  have hbegun := @Subscribed.step _ _ _ _ _ _ hstart (by decide +kernel) (.advanceOutput 0 1)
    (allows_advanceOutput (by decide +kernel))
  have hpublished := @Subscribed.step _ _ _ _ _ _ hbegun (by decide +kernel)
    (.publishState 0 nextState) trivial
  have hfirst := @Subscribed.step _ _ _ _ _ _ hpublished (by decide +kernel)
    (.advanceOutput 0 (initialFrame.bytes.length - 1)) (allows_advanceOutput (by decide +kernel))
  have hsecond := @Subscribed.step _ _ _ _ _ _ hfirst (by decide +kernel)
    (.advanceOutput 0 nextFrame.bytes.length) (allows_advanceOutput (by decide +kernel))
  obtain ⟨frames, hdelivered, -, hdrained, -⟩ := subscriber_receives hsecond
  exact ⟨_, hsecond, by decide +kernel, frames, hdelivered,
    hdrained rfl (by decide +kernel) (by decide +kernel) (by decide +kernel)⟩

end Line

end Realm
