import Realm.Control.Machine

/-!
# The conversation on a connection

A connection as its peer sees it: what was said, what is being sent and what waits, without the
deadlines.  A frame that is being sent is never complete and ends in a newline, so neither has
to be said again of the states of the conversation.
-/

namespace Realm

open Text Ipc List

variable {count : ℕ}

/-- A frame for the peer. -/
structure Frame where
  outputClass : OutputClass
  bytes : Bytes
  deriving DecidableEq

def OutputCursor.frame (c : OutputCursor) : Frame := ⟨c.outputClass, c.bytes⟩

/-- Whether a frame answers a request of the session. -/
def Frame.isAnswer (f : Frame) : Bool :=
  f.outputClass = .ordinary || f.outputClass = .initialState

/-- A frame that is being sent. -/
structure Sending where
  frame : Frame
  offset : ℕ
  unfinished : offset < frame.bytes.length
  ends : frame.bytes.getLast? = some lf

namespace Sending

def start (outputClass : OutputClass) {bytes : Bytes} (h : bytes.getLast? = some lf) :
    Sending where
  frame := ⟨outputClass, bytes⟩
  offset := 0
  unfinished := length_pos_of_ne_nil (by rintro rfl; simp at h)
  ends := h

def cursor (s : Sending) : OutputCursor := ⟨s.frame.bytes, s.offset, s.frame.outputClass⟩

def begun (s : Sending) : Bytes := s.frame.bytes.take s.offset

def rest (s : Sending) : Bytes := s.frame.bytes.drop s.offset

def advance (s : Sending) {count : ℕ} (h : s.offset + count < s.frame.bytes.length) : Sending :=
  { s with offset := s.offset + count, unfinished := h }

variable (s : Sending)

@[simp]
theorem frame_cursor : s.cursor.frame = s.frame := rfl

@[simp]
theorem offset_cursor : s.cursor.offset = s.offset := rfl

@[simp]
theorem bytes_cursor : s.cursor.bytes = s.frame.bytes := rfl

@[simp]
theorem outputClass_cursor : s.cursor.outputClass = s.frame.outputClass := rfl

theorem begun_append_rest : s.begun ++ s.rest = s.frame.bytes :=
  take_append_drop ..

theorem begun_advance (h : s.offset + count < s.frame.bytes.length) :
    (s.advance h).begun = s.begun ++ s.rest.take count := by
  simp only [begun, rest, advance, take_add]

theorem begun_of_offset {s : Sending} (h : s.offset = 0) : s.begun = [] := by
  rw [begun, h, take_zero]

end Sending

/-- What went over a connection: the frames queued for the peer, the bytes sent, the frames sent
whole, and the requests handed to the session. -/
structure Traffic where
  queued : List Frame := []
  sent : Bytes := []
  delivered : List Frame := []
  handed : List Request := []

namespace Traffic

def add (h a : Traffic) : Traffic where
  queued := h.queued ++ a.queued
  sent := h.sent ++ a.sent
  delivered := h.delivered ++ a.delivered
  handed := h.handed ++ a.handed

/-- What was sent is the frames delivered and `count` bytes of the next frame, all in the order
they were queued in. -/
structure Holds (h : Traffic) (next : Option Frame) (count : ℕ) : Prop where
  sent_eq : h.sent = h.delivered.flatMap Frame.bytes ++ next.elim [] (·.bytes.take count)
  count_lt : ∀ f ∈ next, count < f.bytes.length
  sublist : (h.delivered ++ next.toList).Sublist h.queued

def answers (h : Traffic) : ℕ := h.queued.countP Frame.isAnswer

end Traffic

/-- The states of a conversation.  A subscriber that sends a frame may have a later state behind
it; one that is told to leave may have the word of the shutdown behind it. -/
inductive Talk where
  | awaiting
  | greeting (current : Sending) (retained : Option RetainedFrame)
  | ready
  | asked (subscribe : Bool)
  | answering (current : Sending)
  | parting (current : Sending)
  | idle
  | subscribed (current : Sending) (latest : Option Sending)
  | leaving (current : Sending) (last : Option Sending)
  | closed

namespace Talk

variable {c s : Sending}

def current : Talk → Option Sending
  | greeting s _ | answering s | parting s | subscribed s _ | leaving s _ => some s
  | awaiting | ready | asked _ | idle | closed => none

def latest : Talk → Option Sending
  | subscribed _ s | leaving _ s => s
  | _ => none

def withCurrent (s : Sending) : Talk → Talk
  | greeting _ retained => greeting s retained
  | answering _ => answering s
  | parting _ => parting s
  | subscribed _ latest => subscribed s latest
  | leaving _ last => leaving s last
  | t => t

def waiting (t : Talk) : List Frame := (t.current.toList ++ t.latest.toList).map Sending.frame

def begun (t : Talk) : Bytes := t.current.elim [] Sending.begun

def outstanding : Talk → ℕ
  | asked _ => 1
  | _ => 0

/-- What follows a complete frame. -/
inductive Follows : Talk → Traffic → Talk → Prop where
  | close {t : Talk} (hlatest : t.latest = none) (hsubscribed : ∀ s, t ≠ subscribed s none) :
      Follows t {} closed
  | greeted (s : Sending) : Follows (greeting s none) {} ready
  | hand (s : Sending) (request : Request) : Follows (greeting s (some (.request request)))
      { handed := [request] } (asked (request = .subscribe))
  | refuse (s : Sending) (message : String) {s' : Sending} (hfresh : s'.offset = 0)
      (hclass : s'.frame.outputClass = .terminal) :
      Follows (greeting s (some (.terminalError message))) { queued := [s'.frame] } (parting s')
  | answered (s : Sending) : Follows (answering s) {} ready
  | drained (s : Sending) : Follows (subscribed s none) {} idle
  | promote (s next : Sending) : Follows (subscribed s (some next)) {} (subscribed next none)
  | last (s next : Sending) : Follows (leaving s (some next)) {} (leaving next none)

/-- One move of a conversation, with what goes over the connection. -/
inductive Moves : Talk → Traffic → Talk → Prop where
  | stay (t : Talk) : Moves t {} t
  | close (t : Talk) : Moves t {} closed
  | greet {s : Sending} (retained : Option RetainedFrame) (hfresh : s.offset = 0)
      (hclass : s.frame.outputClass = .hello) :
      Moves awaiting { queued := [s.frame] } (greeting s retained)
  | part {t : Talk} {s : Sending} (ht : t = awaiting ∨ t = ready) (hfresh : s.offset = 0)
      (hclass : s.frame.outputClass = .hello ∨ s.frame.outputClass = .terminal) :
      Moves t { queued := [s.frame] } (parting s)
  | ask (request : Request) :
      Moves ready { handed := [request] } (asked (request = .subscribe))
  | send {t : Talk} {s : Sending} {count : ℕ} (ht : t.current = some s)
      (hlt : s.offset + count < s.frame.bytes.length) :
      Moves t { sent := s.rest.take count } (t.withCurrent (s.advance hlt))
  | finish {t t' : Talk} {s : Sending} {a : Traffic} (ht : t.current = some s)
      (hfollows : Follows t a t') :
      Moves t { a with sent := s.rest, delivered := [s.frame] } t'
  | answer {s : Sending} (hfresh : s.offset = 0) (hclass : s.frame.outputClass = .ordinary) :
      Moves (asked false) { queued := [s.frame] } (answering s)
  | subscribe {s : Sending} (hfresh : s.offset = 0)
      (hclass : s.frame.outputClass = .initialState) :
      Moves (asked true) { queued := [s.frame] } (subscribed s none)
  | publish {s : Sending} (hfresh : s.offset = 0) (hclass : s.frame.outputClass = .state) :
      Moves idle { queued := [s.frame] } (subscribed s none)
  | replace {c s : Sending} {latest : Option Sending} (hfresh : s.offset = 0)
      (hclass : s.frame.outputClass = .state) :
      Moves (subscribed c latest) { queued := [s.frame] } (subscribed c (some s))
  | tell {s : Sending} (hfresh : s.offset = 0) (hclass : s.frame.outputClass = .shutdown) :
      Moves idle { queued := [s.frame] } (leaving s none)
  | tellBehind {c s : Sending} {latest : Option Sending}
      (hinitial : c.frame.outputClass = .initialState) (hunstarted : c.offset = 0)
      (hfresh : s.offset = 0) (hclass : s.frame.outputClass = .shutdown) :
      Moves (subscribed c latest) { queued := [s.frame] } (leaving c (some s))
  | tellInstead {c s : Sending} {latest : Option Sending} (hstate : c.frame.outputClass = .state)
      (hunstarted : c.offset = 0) (hfresh : s.offset = 0)
      (hclass : s.frame.outputClass = .shutdown) :
      Moves (subscribed c latest) { queued := [s.frame] } (leaving s none)
  | finishAlone {c : Sending} {latest : Option Sending} (hstarted : 0 < c.offset) :
      Moves (subscribed c latest) {} (leaving c none)

/-- While a conversation goes on the next frame is the current one, and what waits behind it was
queued later. -/
structure Wire (t : Talk) (h : Traffic) : Prop where
  sent_eq : h.sent = h.delivered.flatMap Frame.bytes ++ t.begun
  sublist : (h.delivered ++ t.waiting).Sublist h.queued
  unstarted : ∀ s, t.latest = some s → s.offset = 0

variable {t t' : Talk} {a h : Traffic}

theorem Wire.holds (hw : t.Wire h) : ∃ next count, h.Holds next count := by
  obtain ⟨hsent, hsub, hlate⟩ := hw
  cases hcurrent : t.current with
  | none =>
    refine ⟨none, 0, by simpa [begun, hcurrent] using hsent, by simp, ?_⟩
    simpa using (sublist_append_left _ _).trans hsub
  | some s =>
    refine ⟨some s.frame, s.offset, ?_, ?_, ?_⟩
    · simpa [begun, hcurrent, Sending.begun] using hsent
    · rintro f ⟨⟩
      exact s.unfinished
    · refine Sublist.trans (Sublist.append_left ?_ _) hsub
      simp [waiting, hcurrent]

theorem Moves.ne_closed (hm : t.Moves a t') (h : t' ≠ closed) : t ≠ closed := by
  rintro rfl
  cases hm with
  | stay | close => exact h rfl
  | part ht => simp at ht
  | send ht | finish ht => simp [current] at ht

theorem current_withCurrent (h : t.current = some c) : (t.withCurrent s).current = some s := by
  cases t <;> simp_all [current, withCurrent]

theorem latest_withCurrent (s : Sending) : (t.withCurrent s).latest = t.latest := by
  cases t <;> rfl

theorem Wire.queue_first (hw : t.Wire h) (hnone : t.current = none)
    (hlatest : t.latest = none) (hs : t'.current = some s) (hfresh : s.offset = 0)
    (hlatest' : t'.latest = none) : t'.Wire (h.add { queued := [s.frame] }) where
  sent_eq := by
    simpa [Traffic.add, begun, hnone, hs, Sending.begun_of_offset hfresh] using hw.sent_eq
  sublist := by
    have hsub : h.delivered.Sublist h.queued := by
      simpa [waiting, hnone, hlatest] using hw.sublist
    simpa [Traffic.add, waiting, hs, hlatest'] using hsub.append_right [s.frame]
  unstarted := by simp [hlatest']

theorem Wire.current_sublist (hw : t.Wire h) (hc : t.current = some c) :
    (h.delivered ++ [c.frame]).Sublist h.queued := by
  refine Sublist.trans (Sublist.append_left ?_ _) hw.sublist
  simp [waiting, hc]

theorem Wire.queue_last (hw : t.Wire h) (hc : t.current = some c)
    (hc' : t'.current = some c) (hfresh : s.offset = 0) (hlatest' : t'.latest = some s) :
    t'.Wire (h.add { queued := [s.frame] }) where
  sent_eq := by simpa [Traffic.add, begun, hc, hc'] using hw.sent_eq
  sublist := by
    simpa [Traffic.add, waiting, hc', hlatest'] using
      (hw.current_sublist hc).append_right [s.frame]
  unstarted := by simp [hlatest', hfresh]

theorem Wire.queue_instead (hw : t.Wire h) (hc : t.current = some c)
    (hunstarted : c.offset = 0) (hs : t'.current = some s) (hfresh : s.offset = 0)
    (hlatest' : t'.latest = none) : t'.Wire (h.add { queued := [s.frame] }) where
  sent_eq := by
    simpa [Traffic.add, begun, hc, hs, Sending.begun_of_offset hfresh,
      Sending.begun_of_offset hunstarted] using hw.sent_eq
  sublist := by
    have hsub : h.delivered.Sublist h.queued :=
      (sublist_append_left _ _).trans hw.sublist
    simpa [Traffic.add, waiting, hs, hlatest'] using hsub.append_right [s.frame]
  unstarted := by simp [hlatest']

theorem Wire.send (hw : t.Wire h) (ht : t.current = some s)
    (hlt : s.offset + count < s.frame.bytes.length) :
    (t.withCurrent (s.advance hlt)).Wire (h.add { sent := s.rest.take count }) where
  sent_eq := by
    simp only [Traffic.add, begun, current_withCurrent ht, ht, Option.elim_some, hw.sent_eq,
      Sending.begun_advance, append_nil, append_assoc]
  sublist := by
    simpa [Traffic.add, waiting, current_withCurrent ht, latest_withCurrent, ht,
      Sending.advance] using hw.sublist
  unstarted := by simpa [latest_withCurrent] using hw.unstarted

theorem Wire.complete (hw : t.Wire h) (ht : t.current = some s) (a : Traffic) :
    (h.add { a with sent := s.rest, delivered := [s.frame] }).sent =
      (h.add { a with sent := s.rest, delivered := [s.frame] }).delivered.flatMap Frame.bytes := by
  simp [Traffic.add, hw.sent_eq, begun, ht, Sending.begun_append_rest]

theorem Wire.finish (hw : t.Wire h) (ht : t.current = some s)
    (hf : Follows t a t') (hopen : t' ≠ closed) :
    t'.Wire (h.add { a with sent := s.rest, delivered := [s.frame] }) := by
  have hsub := hw.sublist
  have hdelivered := hw.current_sublist ht
  have hlate := hw.unstarted
  refine ⟨?_, ?_, ?_⟩
  · rw [hw.complete ht]
    cases hf <;> simp_all [begun, current, latest, Sending.begun_of_offset]
  · cases hf with
    | refuse =>
      simpa [Traffic.add, waiting, current, latest] using hdelivered.append_right _
    | _ => simp_all [Traffic.add, waiting, current, latest]
  · cases hf <;> simp_all [latest]

/-- A move that sends and queues nothing leaves the current frame, and may drop the latest. -/
theorem Wire.quiet (hw : t.Wire h) (hcurrent : t'.current = t.current)
    (hlatest : t'.latest = t.latest ∨ t'.latest = none) (handed : List Request) :
    t'.Wire (h.add { handed := handed }) where
  sent_eq := by simpa [Traffic.add, begun, hcurrent] using hw.sent_eq
  sublist := by
    have hsub : t'.waiting.Sublist t.waiting := by
      rcases hlatest with hl | hl <;> simp [waiting, hcurrent, hl]
    simpa [Traffic.add] using (Sublist.append_left hsub _).trans hw.sublist
  unstarted s hs := by
    rcases hlatest with hl | hl
    · exact hw.unstarted s (hl ▸ hs)
    · simp [hl] at hs

theorem Moves.wire (hm : t.Moves a t') (hw : t.Wire h) (hopen : t' ≠ closed) :
    t'.Wire (h.add a) := by
  cases hm with
  | stay => exact hw.quiet rfl (.inl rfl) []
  | close => exact absurd rfl hopen
  | greet retained hfresh => exact hw.queue_first rfl rfl rfl hfresh rfl
  | part ht hfresh =>
    rcases ht with rfl | rfl <;> exact hw.queue_first rfl rfl rfl hfresh rfl
  | ask request =>
    have hcurrent : (asked (request = .subscribe)).current = ready.current := rfl
    exact hw.quiet hcurrent (.inl rfl) [request]
  | send ht hlt => exact hw.send ht hlt
  | finish ht hf => exact hw.finish ht hf hopen
  | answer hfresh | subscribe hfresh | publish hfresh => exact hw.queue_first rfl rfl rfl hfresh rfl
  | replace hfresh => exact hw.queue_last rfl rfl hfresh rfl
  | tell hfresh => exact hw.queue_first rfl rfl rfl hfresh rfl
  | tellBehind _ _ hfresh => exact hw.queue_last rfl rfl hfresh rfl
  | tellInstead _ hunstarted hfresh => exact hw.queue_instead rfl hunstarted rfl hfresh rfl
  | @finishAlone c latest =>
    have hcurrent : (leaving c none).current = (subscribed c latest).current := rfl
    exact hw.quiet hcurrent (.inr rfl) []

theorem Moves.ends (hm : t.Moves a t') : ∀ f ∈ a.queued, f.bytes.getLast? = some lf := by
  cases hm with
  | finish ht hf =>
    cases hf with
    | @refuse s message s' => simpa using s'.ends
    | _ => simp
  | _ => simp [Sending.ends]

theorem withCurrent_ne_closed (h : t.current = some c) : t.withCurrent s ≠ closed := by
  cases t <;> simp_all [current, withCurrent]

theorem outstanding_withCurrent (s : Sending) : (t.withCurrent s).outstanding = t.outstanding := by
  cases t <;> rfl

theorem Moves.outstanding (hm : t.Moves a t') (hopen : t' ≠ closed) :
    t.outstanding + a.handed.length = a.answers + t'.outstanding := by
  cases hm with
  | close => exact absurd rfl hopen
  | part ht _ hclass =>
    rcases ht with rfl | rfl <;> rcases hclass with hclass | hclass <;>
      simp [outstanding, Traffic.answers, Frame.isAnswer, hclass]
  | send => simp [outstanding_withCurrent, Traffic.answers]
  | finish ht hf =>
    cases hf <;> simp_all [outstanding, Traffic.answers, Frame.isAnswer]
  | _ => simp_all [Talk.outstanding, Traffic.answers, Frame.isAnswer]

theorem Moves.closes (hm : t.Moves a t') (hclosed : t' = closed) : a.handed = [] ∧ a.queued = [] ∧
      (a.sent = [] ∧ a.delivered = [] ∨
        ∃ s, t.current = some s ∧ a.sent = s.rest ∧ a.delivered = [s.frame]) := by
  cases hm with
  | send ht => exact absurd hclosed (withCurrent_ne_closed ht)
  | finish ht hf =>
    cases hf with
    | close => exact ⟨rfl, rfl, .inr ⟨_, ht, rfl, rfl⟩⟩
    | _ => simp at hclosed
  | stay | close => exact ⟨rfl, rfl, .inl ⟨rfl, rfl⟩⟩
  | _ => simp at hclosed

/-- A frame that was begun stays current with its bytes until it is complete or the conversation
is closed. -/
theorem Moves.begun_stays (hm : t.Moves a t') (hs : t.current = some s) (hbegun : 0 < s.offset) :
    t' = closed ∨ a.delivered = [s.frame] ∨
      ∃ s', t'.current = some s' ∧ s'.frame = s.frame ∧ s.offset ≤ s'.offset := by
  cases hm with
  | stay => exact .inr (.inr ⟨s, hs, rfl, le_rfl⟩)
  | close => exact .inl rfl
  | part ht => rcases ht with rfl | rfl <;> simp [current] at hs
  | send ht =>
    cases hs.symm.trans ht
    exact .inr (.inr ⟨_, current_withCurrent ht, rfl, Nat.le_add_right ..⟩)
  | finish ht =>
    cases hs.symm.trans ht
    exact .inr (.inl rfl)
  | replace | tellBehind => exact .inr (.inr ⟨s, hs, rfl, le_rfl⟩)
  | tellInstead _ =>
    cases hs
    omega
  | finishAlone => exact .inr (.inr ⟨s, hs, rfl, le_rfl⟩)
  | _ => simp [current] at hs

/-- What holds of a conversation and its traffic at every moment. -/
structure Kept (t : Talk) (h : Traffic) : Prop where
  ends : ∀ f ∈ h.queued, f.bytes.getLast? = some lf
  holds : ∃ next count, h.Holds next count
  wire : t ≠ closed → t.Wire h
  answers_le : h.answers ≤ h.handed.length
  handed_le : h.handed.length ≤ h.answers + 1
  handed_eq : t ≠ closed → h.handed.length = h.answers + t.outstanding

theorem kept_awaiting : awaiting.Kept {} where
  ends := by simp
  holds := ⟨none, 0, by simp, by simp, by simp⟩
  wire _ := ⟨rfl, by simp [waiting, current, latest], by simp [latest]⟩
  answers_le := by simp [Traffic.answers]
  handed_le := by simp
  handed_eq _ := rfl

theorem answers_add (h a : Traffic) : (h.add a).answers = h.answers + a.answers := by
  simp [Traffic.answers, Traffic.add]

theorem Kept.move (hk : t.Kept h) (hm : t.Moves a t') : t'.Kept (h.add a) := by
  have hends : ∀ f ∈ (h.add a).queued, f.bytes.getLast? = some lf := by
    intro f hf
    rcases mem_append.1 hf with hf | hf
    · exact hk.ends f hf
    · exact hm.ends f hf
  have hlength : (h.add a).handed.length = h.handed.length + a.handed.length :=
    length_append
  by_cases hclosed : t' = closed
  · -- the wire stays as it was cut, or ends with the frame that was completed
    obtain ⟨hhanded, hqueued, hsent⟩ := hm.closes hclosed
    have hanswers : (h.add a).answers = h.answers := by
      simp [Traffic.answers, Traffic.add, hqueued]
    rw [hhanded] at hlength
    refine ⟨hends, ?_, absurd hclosed, ?_, ?_, absurd hclosed⟩
    · rcases hsent with ⟨hs, hd⟩ | ⟨s, hcurrent, hs, hd⟩
      · obtain ⟨next, count, h₁, h₂, h₃⟩ := hk.holds
        exact ⟨next, count, by simpa [Traffic.add, hs, hd] using h₁, h₂,
          by simpa [Traffic.add, hd, hqueued] using h₃⟩
      · have hw := hk.wire (by rintro rfl; simp [current] at hcurrent)
        refine ⟨none, 0, ?_, by simp, ?_⟩
        · simp [Traffic.add, hs, hd, hw.sent_eq, begun, hcurrent, Sending.begun_append_rest]
        · simpa [Traffic.add, hd, hqueued] using hw.current_sublist hcurrent
    · rw [hanswers, hlength]
      exact hk.answers_le
    · rw [hanswers, hlength]
      exact hk.handed_le
  · have hw := hm.wire (hk.wire (hm.ne_closed hclosed)) hclosed
    have heq := hk.handed_eq (hm.ne_closed hclosed)
    have hout := hm.outstanding hclosed
    have hle : t'.outstanding ≤ 1 := by cases t' <;> simp [outstanding]
    refine ⟨hends, hw.holds, fun _ => hw, ?_, ?_, fun _ => ?_⟩ <;>
      rw [answers_add, hlength] <;> omega

end Talk

end Realm
