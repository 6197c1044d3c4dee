import Realm.Control.Conversation

/-!
# What a connection reads

Lines come in pieces of any size.  A read ends the line that is being read or not; what it makes
of the conversation depends on that line alone, and on whether bytes follow it.
-/

namespace Realm

open Text Ipc List ConnectionMachine

def pushLine (lines : List Bytes × Bytes) (byte : Byte) : List Bytes × Bytes :=
  if byte = lf then (lines.1 ++ [lines.2 ++ [byte]], []) else (lines.1, lines.2 ++ [byte])

/-- The complete lines of what came in, and the beginning of the next. -/
def splitLines (received : Bytes) : List Bytes × Bytes := received.foldl pushLine ([], [])

theorem splitLines_concat (received : Bytes) (byte : Byte) :
    splitLines (received ++ [byte]) = pushLine (splitLines received) byte := by
  simp [splitLines]

theorem splitLines_append (received bytes : Bytes) :
    (splitLines received).1 <+: (splitLines (received ++ bytes)).1 := by
  induction bytes generalizing received with
  | nil => simp
  | cons byte rest ih =>
    refine IsPrefix.trans ?_ (append_cons received byte rest ▸ ih (received ++ [byte]))
    rw [splitLines_concat, pushLine]
    split_ifs <;> simp

namespace ConnectionMachine

variable {m m' : ConnectionMachine} {t : Talk} [IpcJson] {lines : List Bytes} {received : Bytes}

omit [IpcJson] in
theorem Stands.of_view (h : m.Stands t) (hopen : t ≠ .closed) (hview : m'.view = m.view) :
    m'.Stands t :=
  ⟨h.classed, fun ht => hview.trans (h.view ht), fun ht => absurd ht hopen⟩

/-- Reading goes on behind a frame, or is left. -/
def readOn (now : ℕ) (rest : Bytes) : FrameStep → MachineAction × ConnectionMachine
  | .goOn action m => ingestBytes now rest action m
  | .leave action m => (action, m)

omit [IpcJson] in
theorem view_beginLine (m : ConnectionMachine) (now : ℕ) : (m.beginLine now).view = m.view := by
  unfold beginLine
  split_ifs <;> rfl

section Bytes

variable (now : ℕ) (rest : Bytes) (hretained : ¬(m.phase = .sendingHello ∧ m.retained.isSome))
include hretained

theorem ingestBytes_more {byte : Byte} (hbyte : byte ≠ lf)
    (hlength : (m.input ++ [byte]).length ≠ maxFrameBytes) :
    ingestBytes now (byte :: rest) .none m =
      ingestBytes now rest .none { m.beginLine now with input := m.input ++ [byte] } := by
  rw [ingestBytes, if_neg hretained, pushInput, if_neg hbyte, if_neg hlength]

theorem ingestBytes_lf : ingestBytes now (lf :: rest) .none m =
    readOn now rest (takeFrame { m.beginLine now with input := [], partialDeadline := none } now
      (m.input ++ [lf]) (rest = [])) := by
  rw [ingestBytes, if_neg hretained, pushInput, if_pos rfl]
  rfl

/-- What one byte does: it closes the connection, it is one more of its line, or it ends it. -/
theorem ingestBytes_cons (byte : Byte) : (∃ (m' : ConnectionMachine) (reason : MachineClose),
        ingestBytes now (byte :: rest) .none m = m'.close reason) ∨
      (byte ≠ lf ∧ ∃ m' : ConnectionMachine, m'.view = m.view ∧ m'.input = m.input ++ [byte] ∧
        ingestBytes now (byte :: rest) .none m = ingestBytes now rest .none m') ∨
      (byte = lf ∧ ∃ m' : ConnectionMachine, m'.view = m.view ∧ m'.input = [] ∧
        ingestBytes now (byte :: rest) .none m =
          readOn now rest (takeFrame m' now (m.input ++ [byte]) (rest = []))) := by
  by_cases hbyte : byte = lf
  · rw [hbyte]
    refine .inr (.inr ⟨rfl, _, ?_, rfl, ingestBytes_lf now rest hretained⟩)
    exact view_beginLine m now
  · by_cases hlength : (m.input ++ [byte]).length = maxFrameBytes
    · refine .inl ⟨m.beginLine now, .frameTooLarge, ?_⟩
      rw [ingestBytes, if_neg hretained, pushInput, if_neg hbyte, if_pos hlength]
    · refine .inr (.inl ⟨hbyte, _, ?_, rfl, ingestBytes_more now rest hretained hbyte hlength⟩)
      exact view_beginLine m now

end Bytes

/-- A request that is retained is the one the line holds. -/
def Retains (line : Bytes) (retained : RetainedFrame) : Prop :=
  ∀ request, retained = .request request → IpcJson.decodeFrame line = .request request

/-- What a read makes of a conversation in the state `t` that has had `lines`, when `received` is
all that came in. -/
inductive Reads : Talk → List Bytes → Bytes → MachineAction × ConnectionMachine → Prop where
  | more {t : Talk} {lines : List Bytes} {received : Bytes} {m : ConnectionMachine}
      (stands : m.Stands t) (split : splitLines received = (lines, m.input)) :
      Reads t lines received (.none, m)
  | retain {s : Sending} {lines : List Bytes} {line received : Bytes} {m : ConnectionMachine}
      {retained : RetainedFrame} (stands : m.Stands (.greeting s (some retained)))
      (split : splitLines received = (lines ++ [line], m.input))
      (hretained : Retains line retained) :
      Reads (.greeting s none) lines received (.none, m)
  | ask {lines : List Bytes} {line received : Bytes} {m : ConnectionMachine} {request : Request}
      (stands : m.Stands (.asked (request = .subscribe)))
      (split : splitLines received = (lines ++ [line], m.input))
      (hdecode : IpcJson.decodeFrame line = .request request) :
      Reads .ready lines received (.request request, m)
  | part {t : Talk} (ht : t = .awaiting ∨ t = .ready) {s : Sending} (hfresh : s.offset = 0)
      {lines : List Bytes} {received : Bytes} {m : ConnectionMachine}
      (stands : m.Stands (.parting s)) : Reads t lines received (.none, m)
  | greet {s : Sending} (hfresh : s.offset = 0) (hclass : s.frame.outputClass = .hello)
      {lines : List Bytes} {line received : Bytes} {r : MachineAction × ConnectionMachine}
      (h : Reads (.greeting s none) (lines ++ [line]) received r) :
      Reads .awaiting lines received r
  | close {t : Talk} {lines : List Bytes} {received : Bytes}
      {r : MachineAction × ConnectionMachine} (hrequests : r.1.requests = [])
      (hpending : r.2.pending = []) (h : r.1.removes = true ∨ r.2.Stands .closed) :
      Reads t lines received r

theorem reads_close (m : ConnectionMachine) (reason : MachineClose) :
    Reads t lines received (m.close reason) :=
  .close rfl rfl (.inl rfl)

theorem reads_queueTerminalError (hview : m.view = t.view) (ht : t = .awaiting ∨ t = .ready)
    (now : ℕ) (message : String) :
    Reads t lines received (.none, m.queueTerminalError now message) := by
  rcases queueTerminalError_cases m now message with hclosed | ⟨s, hfresh, hclass, hparts⟩
  · have hc := hclosed.closed rfl
    exact .close rfl (by simp [pending, hc]) (.inr hclosed)
  · refine .part ht hfresh ⟨.inr hclass, fun _ => ?_, by simp⟩
    rw [hparts, hview]
    rcases ht with rfl | rfl <;> rfl

/-- What a state makes of a whole line, wherever the read that ends it goes on. -/
def Takes (t : Talk) (now : ℕ) (lines : List Bytes) : Prop :=
  ∀ ⦃m : ConnectionMachine⦄ ⦃line received : Bytes⦄ (rest : Bytes), m.Stands t → m.input = [] →
    splitLines received = (lines ++ [line], []) →
    Reads t lines (received ++ rest) (readOn now rest (takeFrame m now line (rest = [])))

/-- A read is one byte after the other: until a line is complete the conversation stays. -/
theorem Stands.reads {now : ℕ} (htakes : Takes t now lines) (hopen : t ≠ .closed)
    (hretained : t.view.retained = none) :
    ∀ {bytes received : Bytes} {m : ConnectionMachine}, m.Stands t →
      splitLines received = (lines, m.input) →
      Reads t lines (received ++ bytes) (ingestBytes now bytes .none m)
  | [], received, m, h, hsplit => by
    rw [append_nil]
    exact .more h hsplit
  | byte :: rest, received, m, h, hsplit => by
    have hnone : m.retained = none :=
      (congrArg ConnectionView.retained (h.view hopen)).trans hretained
    have hsplit' := splitLines_concat received byte
    rw [hsplit, pushLine] at hsplit'
    rw [append_cons]
    rcases ingestBytes_cons (m := m) now rest (by simp [hnone]) byte with
      ⟨m', reason, heq⟩ | ⟨hbyte, m', hview', hinput, heq⟩ | ⟨hbyte, m', hview', hinput, heq⟩
    · rw [heq]
      exact reads_close m' reason
    · rw [heq]
      refine Stands.reads htakes hopen hretained (h.of_view hopen hview') ?_
      rw [hsplit', if_neg hbyte, hinput]
    · rw [heq]
      rw [if_pos hbyte] at hsplit'
      exact htakes rest (h.of_view hopen hview') hinput hsplit'

theorem takes_ready (now : ℕ) (lines : List Bytes) : Takes .ready now lines := by
  intro m line received rest h hinput hsplit
  have hview := h.view (by simp)
  have hphase : m.phase = .ready := congrArg ConnectionView.phase hview
  simp only [takeFrame, hphase]
  split
  · exact reads_queueTerminalError hview (.inr rfl) now _
  · rename_i request hother hdecode
    cases rest with
    | nil =>
      rw [append_nil]
      refine .ask ⟨trivial, fun _ => ?_, by simp⟩ (hsplit.trans (by rw [← hinput]; rfl)) hdecode
      simp_all [view, Talk.view, handOver]
    | cons => exact reads_close m _
  · exact reads_queueTerminalError hview (.inr rfl) now _
  · exact reads_close m _

theorem Stands.retains {s : Sending} (h : m.Stands (.greeting s none)) (hinput : m.input = [])
    (now : ℕ) {line : Bytes} (hsplit : splitLines received = (lines ++ [line], [])) (rest : Bytes)
    (retained : RetainedFrame) (hretained : Retains line retained) :
    Reads (.greeting s none) lines (received ++ rest)
      (readOn now rest (m.retain (rest = []) retained)) := by
  cases rest with
  | nil =>
    rw [append_nil]
    refine .retain ⟨h.classed, fun _ => ?_, by simp⟩ (hsplit.trans (by rw [← hinput])) hretained
    have hview := h.view (by simp)
    simp_all [ConnectionMachine.view, Talk.view]
  | cons => exact reads_close m _

theorem takes_greeting (s : Sending) (now : ℕ) (lines : List Bytes) :
    Takes (.greeting s none) now lines := by
  intro m line received rest h hinput hsplit
  have hphase : m.phase = .sendingHello := congrArg ConnectionView.phase (h.view (by simp))
  simp only [takeFrame, hphase]
  split
  · exact h.retains hinput now hsplit rest (.terminalError _) (by simp [Retains])
  · rename_i request hother hdecode
    exact h.retains hinput now hsplit rest (.request request) (by simp [Retains, hdecode])
  · exact h.retains hinput now hsplit rest (.terminalError _) (by simp [Retains])
  · exact reads_close m _

theorem takes_awaiting (now : ℕ) (lines : List Bytes) : Takes .awaiting now lines := by
  intro m line received rest h hinput hsplit
  have hview := h.view (by simp)
  have hphase : m.phase = .awaitHello := congrArg ConnectionView.phase hview
  simp only [takeFrame, hphase]
  split
  · rename_i version client hdecode
    unfold queueHello
    cases hencode : encodeResponse (.hello protocolVersion m.session) with
    | none => exact reads_close m _
    | some =>
      let s : Sending := .start .hello (getLast?_of_encode hencode)
      by_cases hversion : version = protocolVersion
      · simp only [hversion, decide_true, if_true, ne_eq, not_true_eq_false, if_false]
        have hgreets := takes_greeting s now (lines ++ [line])
        refine .greet (s := s) rfl rfl
          (Stands.reads hgreets (by simp) rfl ⟨rfl, fun _ => ?_, by simp⟩ ?_)
        · simp_all [view, Talk.view, setCurrent, Sending.cursor, Sending.start, OutputCursor.new, s]
        · rw [hsplit, ← hinput]
          rfl
      · simp only [hversion, decide_false, Bool.false_eq_true, if_false, ne_eq,
          not_false_eq_true, if_true]
        refine .part (s := s) (.inl rfl) rfl ⟨.inl rfl, fun _ => ?_, by simp⟩
        simp_all [view, Talk.view, Sending.cursor, Sending.start, OutputCursor.new, s]
  · exact reads_queueTerminalError hview (.inl rfl) now _
  · exact reads_queueTerminalError hview (.inl rfl) now _
  · exact reads_close m _

end ConnectionMachine

end Realm
