import Realm.Control.Reading

/-!
# Requests over a connection

What holds of a connection whatever calls the server makes: what was sent is whole frames in the
order they were queued in and the beginning of the next, and the requests handed to the session
are those that came in, one at a time.
-/

namespace Realm

open Text Ipc List ConnectionMachine

def Ipc.DecodedFrame.request? : DecodedFrame → Option Request
  | request r => some r
  | validNonRequest | invalid => none

variable [IpcJson] {hello : Bytes} {lines : List Bytes}

def requests (received : Bytes) : List Request :=
  ((splitLines received).1.drop 1).filterMap fun line => (IpcJson.decodeFrame line).request?

theorem requests_append (received bytes : Bytes) :
    requests received <+: requests (received ++ bytes) :=
  ((splitLines_append received bytes).drop 1).filterMap _

theorem requests_of_split {received input : Bytes}
    (h : splitLines received = (hello :: lines, input)) :
    requests received = lines.filterMap fun line => (IpcJson.decodeFrame line).request? := by
  rw [requests, h, drop_one, tail_cons]

namespace Talk

/-- How what came in stands to the requests handed over, in each state of the conversation. -/
def Heard (input received : Bytes) (handed : List Request) : Talk → Prop
  | awaiting => splitLines received = ([], input) ∧ handed = []
  | greeting _ none => handed = [] ∧ ∃ hello, splitLines received = ([hello], input)
  | greeting _ (some retained) => handed = [] ∧ ∃ hello line,
      splitLines received = ([hello, line], input) ∧ ConnectionMachine.Retains line retained
  | ready | asked _ | answering _ | idle | subscribed _ _ | leaving _ _ =>
    ∃ hello lines, splitLines received = (hello :: lines, input) ∧
      lines.map IpcJson.decodeFrame = handed.map .request
  | parting _ | closed => handed <+: requests received

variable {t t' : Talk} {a : Traffic} {input input' received : Bytes} {handed : List Request}

theorem requests_of_map (hsplit : splitLines received = (hello :: lines, input))
    (h : lines.map IpcJson.decodeFrame = handed.map .request) : requests received = handed := by
  have hmap := congrArg (filterMap DecodedFrame.request?) h
  rw [filterMap_map, filterMap_map] at hmap
  rw [requests_of_split hsplit]
  exact hmap.trans (filterMap_some)

theorem Heard.came_in (h : t.Heard input received handed) : handed <+: requests received := by
  cases t with
  | awaiting => simp [h.2]
  | greeting s retained => cases retained <;> simp [h.1]
  | parting | closed => exact h
  | _ =>
    obtain ⟨hello, lines, hsplit, hlines⟩ := h
    rw [requests_of_map hsplit hlines]

/-- Whether a conversation is about to end. -/
def Ending (t : Talk) : Prop := t = closed ∨ ∃ s, t = parting s

theorem Heard.ending (h : t.Heard input received handed) (ht : t'.Ending) (bytes : Bytes) :
    t'.Heard input' (received ++ bytes) handed := by
  have hpre := h.came_in.trans (requests_append received bytes)
  rcases ht with rfl | ⟨s, rfl⟩ <;> exact hpre

theorem Heard.move (h : t.Heard input received handed) (hm : t.Moves a t')
    (hgreet : t = awaiting → a.queued = []) (hask : t = ready → a.handed = [])
    (hinput : t'.Ending ∨ input' = input) : t'.Heard input' received (handed ++ a.handed) := by
  by_cases hending : t'.Ending
  · have hnone : a.handed = [] := by
      cases hm with
      | finish ht hf => cases hf <;> simp [Ending] at hending ⊢
      | ask => simp [Ending] at hending
      | _ => rfl
    have hend : t'.Heard input' (received ++ []) handed := h.ending hending []
    rwa [append_nil, ← append_nil handed, ← hnone] at hend
  · obtain rfl := hinput.resolve_left hending
    cases hm with
    | stay => simpa using h
    | close => exact absurd (.inl rfl) hending
    | greet => simp at hgreet
    | part => exact absurd (.inr ⟨_, rfl⟩) hending
    | ask => simp at hask
    | @send t s count ht hlt =>
      rw [append_nil]
      cases t with
      | greeting c retained => cases retained <;> exact h
      | _ => exact h
    | finish ht hf =>
      cases hf with
      | close => exact absurd (.inl rfl) hending
      | greeted =>
        obtain ⟨rfl, hello, hsplit⟩ := h
        exact ⟨hello, [], hsplit, rfl⟩
      | hand s request =>
        obtain ⟨rfl, hello, line, hsplit, hretained⟩ := h
        exact ⟨hello, [line], hsplit, by simp [hretained request rfl]⟩
      | refuse => exact absurd (.inr ⟨_, rfl⟩) hending
      | _ => simpa [Heard] using h
    | _ => simpa [Heard] using h

end Talk

namespace ConnectionMachine

variable {call : MachineCall} {bytes hello input received : Bytes} {handed : List Request}
  {r : MachineAction × ConnectionMachine} {m : ConnectionMachine}

/-- The line that is being read stays, unless the conversation ends. -/
def KeepsInput (m : ConnectionMachine) (r : MachineAction × ConnectionMachine) : Prop :=
  r.1.removes = true ∨ r.2.phase = .closing ∨ r.2.phase = .closeAfterReply ∨ r.2.input = m.input

omit [IpcJson] in
theorem keepsInput_close (m m' : ConnectionMachine) (reason : MachineClose) :
    KeepsInput m (m'.close reason) :=
  .inl rfl

omit [IpcJson] in
theorem keepsInput_of_eq {m' : ConnectionMachine} (action : MachineAction)
    (h : m'.input = m.input) : KeepsInput m (action, m') :=
  .inr (.inr (.inr h))

theorem keepsInput_finishOutput (m : ConnectionMachine) (now : ℕ) (outputClass : OutputClass) :
    KeepsInput m (m.finishOutput now outputClass) := by
  have herror : ∀ (m' : ConnectionMachine) (message : String),
      KeepsInput m (.none, m'.queueTerminalError now message) := by
    intro m' message
    unfold queueTerminalError
    split
    · exact .inr (.inl rfl)
    · exact .inr (.inr (.inl rfl))
  have hsubscriber : KeepsInput m (m.finishSubscriberOutput now) := by
    unfold finishSubscriberOutput
    split
    · exact keepsInput_of_eq _ rfl
    · split
      · exact keepsInput_close ..
      · exact keepsInput_of_eq _ rfl
  cases outputClass with
  | hello =>
    simp only [finishOutput]
    split_ifs
    · exact keepsInput_close ..
    · split
      · exact keepsInput_of_eq _ rfl
      · exact herror ..
      · exact keepsInput_close ..
    · split
      · exact keepsInput_of_eq _ rfl
      · exact herror ..
      · exact keepsInput_of_eq _ rfl
  | ordinary =>
    simp only [finishOutput]
    split_ifs
    · exact keepsInput_close ..
    · exact keepsInput_of_eq _ rfl
  | initialState | state => exact hsubscriber
  | shutdown | terminal => exact keepsInput_close ..

theorem keepsInput_advanceOutput (m : ConnectionMachine) (now count : ℕ) :
    KeepsInput m (m.advanceOutput now count) := by
  have htouch : (m.touchOutput now count).input = m.input := by
    unfold touchOutput
    split_ifs <;> rfl
  unfold advanceOutput
  split
  · exact keepsInput_of_eq _ rfl
  · dsimp only
    split
    · exact keepsInput_of_eq _ htouch
    · rcases keepsInput_finishOutput _ now _ with h | h | h | h
      · exact .inl h
      · exact .inr (.inl h)
      · exact .inr (.inr (.inl h))
      · exact .inr (.inr (.inr (h.trans htouch)))

theorem keepsInput_call (hcall : ∀ now bytes, call ≠ .ingest now bytes) :
    KeepsInput m (m.call call) := by
  cases call with
  | ingest now bytes => exact absurd rfl (hcall now bytes)
  | advanceOutput => exact keepsInput_advanceOutput ..
  | readEof | completeRequest | completeSubscribe | publishState | beginShutdown | expire =>
    simp only [call, readEof, completeRequest, completeSubscribe, publishState,
      beginShutdown, placeShutdown, expire]
    repeat' split
    all_goals first | exact keepsInput_close .. | exact keepsInput_of_eq _ rfl

variable {m : ConnectionMachine} {t : Talk} {s : Sending}

theorem requests_call (hingest : ∀ now bytes, call ≠ .ingest now bytes)
    (hadvance : ∀ now count, call ≠ .advanceOutput now count) : (m.call call).1.requests = [] := by
  cases call with
  | ingest now bytes => exact absurd rfl (hingest now bytes)
  | advanceOutput now count => exact absurd rfl (hadvance now count)
  | readEof | completeRequest | completeSubscribe | publishState | beginShutdown | expire =>
    simp only [call, readEof, completeRequest, completeSubscribe, publishState,
      beginShutdown, expire]
    repeat' split
    all_goals rfl

theorem Stands.tracks (h : m.Stands t) (hallows : m.Allows call)
    (hcall : ∀ now bytes, call ≠ .ingest now bytes) : Tracks t (m.traffic call) (m.call call) := by
  cases call with
  | ingest now bytes => exact absurd rfl (hcall now bytes)
  | readEof =>
    have hnone : (m.call .readEof).1.requests = [] := requests_call hcall (by simp)
    have ht : m.traffic .readEof = {} := by
      simp [traffic, queues, MachineCall.sends, MachineCall.delivers, hnone]
    rw [ht]
    exact h.readEof
  | advanceOutput => exact h.advanceOutput hallows
  | completeRequest now response => exact h.completeRequest now response
  | completeSubscribe now state => exact h.completeSubscribe now state
  | publishState now state => exact h.publishState now state
  | beginShutdown now => exact h.beginShutdown now
  | expire now =>
    have hnone : (m.call (.expire now)).1.requests = [] := requests_call hcall (by simp)
    have ht : m.traffic (.expire now) = {} := by
      simp [traffic, queues, MachineCall.sends, MachineCall.delivers, hnone]
    rw [ht]
    exact h.expire now

omit [IpcJson] in
theorem Stands.pending_eq (h : m.Stands t) : m.pending = t.waiting := by
  have hlatest : m.latest = t.latest.map Sending.cursor := by
    have hview := h.view
    have hclosed := h.closed
    cases t <;> simp_all [ConnectionMachine.view, Talk.view, Talk.latest]
  rw [pending, Talk.waiting, h.output_eq, hlatest]
  cases t.current <;> cases t.latest <;> rfl

/-- What a call comes to: the state of the conversation behind it, the move, and what was heard. -/
structure Reaches (t : Talk) (a : Traffic) (received : Bytes) (handed : List Request)
    (r : MachineAction × ConnectionMachine) (t' : Talk) : Prop where
  stands : r.1.removes = false → r.2.Stands t'
  gone : r.1.removes = true → t' = .closed
  move : t.Moves a t'
  heard : t'.Heard r.2.input received (handed ++ r.1.requests)

/-- What a read queues and hands over. -/
def readTraffic (r : MachineAction × ConnectionMachine) : Traffic where
  queued := r.2.pending
  handed := r.1.requests

theorem reaches_close (hheard : t.Heard input received handed)
    (hrequests : r.1.requests = []) (hpending : r.2.pending = [])
    (hclosed : r.1.removes = true ∨ r.2.Stands .closed) :
    Reaches t (readTraffic r) (received ++ bytes) handed r .closed where
  stands hr := hclosed.resolve_left (by simp [hr])
  gone _ := rfl
  move := by simpa [readTraffic, hrequests, hpending] using Talk.Moves.close t
  heard := by
    rw [hrequests, append_nil]
    exact hheard.ending (.inl rfl) bytes

theorem reaches_part (hheard : t.Heard input received handed) (ht : t = .awaiting ∨ t = .ready)
    (hfresh : s.offset = 0) (hs : m.Stands (.parting s)) :
    Reaches t (readTraffic (.none, m)) (received ++ bytes) handed (.none, m) (.parting s) where
  stands _ := hs
  gone hr := by simp [MachineAction.removes] at hr
  move := by
    simpa [readTraffic, hs.pending_eq, Talk.waiting, Talk.current, Talk.latest,
      MachineAction.requests] using Talk.Moves.part ht hfresh hs.classed
  heard := by
    rw [MachineAction.requests, append_nil]
    · exact hheard.ending (.inr ⟨s, rfl⟩) bytes
    · simp

theorem Reads.greeting (hheard : Talk.awaiting.Heard input received []) (hfresh : s.offset = 0)
    (hclass : s.frame.outputClass = .hello)
    (h : Reads (.greeting s none) [hello] (received ++ bytes) r) :
    ∃ t', Reaches .awaiting (readTraffic r) (received ++ bytes) [] r t' := by
  cases h with
  | more hs hsplit =>
    refine ⟨_, fun _ => hs, by simp [MachineAction.removes], ?_, rfl, hello, hsplit⟩
    simpa [readTraffic, hs.pending_eq, Talk.waiting, Talk.current, Talk.latest,
      MachineAction.requests] using Talk.Moves.greet none hfresh hclass
  | @retain _ _ line _ _ retained hs hsplit hretained =>
    refine ⟨_, fun _ => hs, by simp [MachineAction.removes], ?_, rfl, hello, line, hsplit,
      hretained⟩
    simpa [readTraffic, hs.pending_eq, Talk.waiting, Talk.current, Talk.latest,
      MachineAction.requests] using Talk.Moves.greet (some retained) hfresh hclass
  | part ht => simp at ht
  | close hrequests hpending hclosed =>
    exact ⟨_, reaches_close hheard hrequests hpending hclosed⟩

theorem Reads.awaiting (hheard : Talk.awaiting.Heard input received [])
    (h : Reads .awaiting [] (received ++ bytes) r) :
    ∃ t', Reaches .awaiting (readTraffic r) (received ++ bytes) [] r t' := by
  cases h with
  | more hs hsplit =>
    refine ⟨_, fun _ => hs, by simp [MachineAction.removes], ?_, hsplit, rfl⟩
    simpa [readTraffic, hs.pending_eq, Talk.waiting, Talk.current, Talk.latest,
      MachineAction.requests] using Talk.Moves.stay .awaiting
  | part ht hfresh hs => exact ⟨_, reaches_part hheard ht hfresh hs⟩
  | greet hfresh hclass h => exact h.greeting hheard hfresh hclass
  | close hrequests hpending hclosed =>
    exact ⟨_, reaches_close hheard hrequests hpending hclosed⟩

theorem Reads.ready (hsplit : splitLines received = (hello :: lines, input))
    (hlines : lines.map IpcJson.decodeFrame = handed.map .request)
    (h : Reads .ready (hello :: lines) (received ++ bytes) r) :
    ∃ t', Reaches .ready (readTraffic r) (received ++ bytes) handed r t' := by
  have hheard : Talk.ready.Heard input received handed := ⟨hello, lines, hsplit, hlines⟩
  cases h with
  | more hs hsplit' =>
    refine ⟨_, fun _ => hs, by simp [MachineAction.removes], ?_, hello, lines, hsplit', ?_⟩
    · simpa [readTraffic, hs.pending_eq, Talk.waiting, Talk.current, Talk.latest,
        MachineAction.requests] using Talk.Moves.stay .ready
    · simpa [MachineAction.requests] using hlines
  | @ask _ line _ m request hs hsplit' hdecode =>
    refine ⟨_, fun _ => hs, by simp [MachineAction.removes], ?_, hello, lines ++ [line], hsplit',
      ?_⟩
    · simpa [readTraffic, hs.pending_eq, Talk.waiting, Talk.current, Talk.latest,
        MachineAction.requests] using Talk.Moves.ask request
    · simp [MachineAction.requests, hlines, hdecode]
  | part ht hfresh hs => exact ⟨_, reaches_part hheard ht hfresh hs⟩
  | close hrequests hpending hclosed =>
    exact ⟨_, reaches_close hheard hrequests hpending hclosed⟩

theorem Stands.ingest (h : m.Stands t) {now : ℕ} (hallows : m.Allows (.ingest now bytes))
    (hheard : t.Heard m.input received handed) :
    ∃ t', Reaches t (m.traffic (.ingest now bytes)) (received ++ bytes) handed
      (m.ingest now bytes) t' := by
  obtain ⟨henabled, hbytes⟩ := hallows
  have ht : m.traffic (.ingest now bytes) = readTraffic (m.ingest now bytes) := rfl
  rw [ht]
  have hview := h.view
  have hclosed := h.closed
  by_cases hphase : m.phase = .subscriber
  · have heq : m.ingest now bytes = m.close .subscriberInput := by
      simp [ConnectionMachine.ingest, hbytes, hphase]
    rw [heq]
    exact ⟨_, reaches_close hheard rfl rfl (.inl rfl)⟩
  · have hread : m.readHalfClosed = false := by
      by_contra hr
      simp [inputEnabled, hr] at henabled
    cases t with
    | awaiting =>
      have heq : m.ingest now bytes = ingestBytes now bytes .none m := by
        simp_all [ConnectionMachine.ingest, ConnectionMachine.view, Talk.view]
      obtain ⟨hsplit, rfl⟩ := hheard
      rw [heq]
      exact (Stands.reads (takes_awaiting now []) (by simp) rfl h hsplit).awaiting ⟨hsplit, rfl⟩
    | ready =>
      have heq : m.ingest now bytes = ingestBytes now bytes .none m := by
        simp_all [ConnectionMachine.ingest, ConnectionMachine.view, Talk.view]
      obtain ⟨hello, lines, hsplit, hlines⟩ := hheard
      rw [heq]
      exact (Stands.reads (takes_ready now _) (by simp) rfl h hsplit).ready hsplit hlines
    | _ => simp_all [ConnectionMachine.view, Talk.view, inputEnabled]

theorem Stands.queues_awaiting (h : m.Stands .awaiting)
    (hallows : m.Allows call) (hcall : ∀ now bytes, call ≠ .ingest now bytes) :
    m.queues call = [] := by
  have hview := h.view (by simp)
  simp only [ConnectionMachine.view, Talk.view, ConnectionView.mk.injEq] at hview
  obtain ⟨hphase, hout, -, -, hasked, -, -⟩ := hview
  have hpending : m.requestPending = false := by
    cases hp : m.requestPending <;> simp_all
  cases call with
  | ingest now bytes => exact absurd rfl (hcall now bytes)
  | advanceOutput =>
    obtain ⟨c, hc, -⟩ := hallows
    simp [hout] at hc
  | _ => simp [queues, hphase, hpending]

omit [IpcJson] in
theorem Stands.ending (h : m.Stands t) (hphase : m.phase = .closing ∨ m.phase = .closeAfterReply) :
    t.Ending := by
  have hview := h.view
  have hclosed := h.closed
  cases t with
  | closed => exact .inl rfl
  | parting s => exact .inr ⟨s, rfl⟩
  | _ => rcases hphase with hp | hp <;> simp_all [ConnectionMachine.view, Talk.view]

theorem Stands.reaches (h : m.Stands t) (hallows : m.Allows call)
    (hheard : t.Heard m.input received handed) :
    ∃ t', Reaches t (m.traffic call) (received ++ call.received) handed (m.call call) t' := by
  by_cases hcall : ∃ now bytes, call = .ingest now bytes
  · obtain ⟨now, bytes, rfl⟩ := hcall
    exact h.ingest hallows hheard
  · have hcall' : ∀ now bytes, call ≠ .ingest now bytes := fun now bytes hc =>
      hcall ⟨now, bytes, hc⟩
    have hreceived : call.received = [] := by
      cases call <;> first | rfl | exact absurd rfl (hcall' _ _)
    have hgreet : t = .awaiting → (m.traffic call).queued = [] := by
      rintro rfl
      exact h.queues_awaiting hallows hcall'
    have hask : t = .ready → (m.traffic call).handed = [] := by
      rintro rfl
      refine requests_call hcall' ?_
      rintro now count rfl
      obtain ⟨c, hc, -⟩ := hallows
      simp [h.output_eq, Talk.current] at hc
    have hhanded : (m.traffic call).handed = (m.call call).1.requests := rfl
    rw [hreceived, append_nil]
    rcases h.tracks hallows hcall' with ⟨hremoves, hm⟩ | ⟨hremoves, t', hstands, hm⟩
    · exact ⟨.closed, by simp [hremoves], fun _ => rfl, hm,
        hhanded ▸ hheard.move hm hgreet hask (.inl (.inl rfl))⟩
    · refine ⟨t', fun _ => hstands, by simp [hremoves], hm, hhanded ▸ hheard.move hm hgreet hask ?_⟩
      rcases keepsInput_call (m := m) hcall' with hk | hk | hk | hk
      · simp [hremoves] at hk
      · exact .inl (hstands.ending (.inl hk))
      · exact .inl (hstands.ending (.inr hk))
      · exact .inr hk

end ConnectionMachine

namespace Line

variable {l : Line} {t : Talk} {call : MachineCall}

/-- A connection in a state of the conversation, with its history. -/
structure Keeps (l : Line) (t : Talk) : Prop where
  stands : l.gone = false → l.machine.Stands t
  gone : l.gone = true → t = .closed
  kept : t.Kept l.traffic
  heard : t.Heard l.machine.input l.received l.traffic.handed

theorem keeps_new (now : ℕ) (session : String) : (new now session).Keeps .awaiting where
  stands _ := ⟨trivial, fun _ => rfl, by simp⟩
  gone h := by simp [new] at h
  kept := Talk.kept_awaiting
  heard := ⟨rfl, rfl⟩

theorem Keeps.step (h : l.Keeps t) (hopen : l.gone = false) (hallows : l.machine.Allows call) :
    ∃ t', (l.step call).Keeps t' ∧ t.Moves (l.machine.traffic call) t' := by
  obtain ⟨t', hr⟩ := (h.stands hopen).reaches hallows h.heard
  exact ⟨t', ⟨hr.stands, hr.gone, h.kept.move hr.move, hr.heard⟩, hr.move⟩

theorem Keeps.remove (h : l.Keeps t) : ({ l with gone := true } : Line).Keeps .closed where
  stands hgone := by simp at hgone
  gone _ := rfl
  kept := ⟨h.kept.ends, h.kept.holds, absurd rfl, h.kept.answers_le, h.kept.handed_le, absurd rfl⟩
  heard := h.heard.came_in

theorem Reachable.keeps (h : Reachable l) : ∃ t, l.Keeps t := by
  induction h with
  | new now session => exact ⟨_, keeps_new now session⟩
  | step h hopen hallows ih =>
    obtain ⟨t, ht⟩ := ih
    obtain ⟨t', ht', -⟩ := ht.step hopen hallows
    exact ⟨t', ht'⟩
  | remove h ih =>
    obtain ⟨t, ht⟩ := ih
    exact ⟨_, ht.remove⟩

theorem Keeps.serving (h : l.Keeps t) (hopen : l.gone = false)
    (hphase : l.machine.phase = .ready ∨ l.machine.phase = .subscriber) :
    l.traffic.handed = requests l.received := by
  have hview := (h.stands hopen).view
  have hclosed := (h.stands hopen).closed
  have hheard := h.heard
  cases t with
  | awaiting | greeting | parting | closed =>
    rcases hphase with hp | hp <;> simp_all [view, Talk.view]
  | _ =>
    obtain ⟨hello, lines, hsplit, hlines⟩ := hheard
    exact (Talk.requests_of_map hsplit hlines).symm

theorem Keeps.greeting (h : l.Keeps t) (hopen : l.gone = false)
    (hphase : l.machine.phase = .sendingHello) : l.traffic.handed = [] ∧
      ∀ request, l.machine.retained = some (.request request) →
        requests l.received = [request] := by
  have hview := (h.stands hopen).view
  have hclosed := (h.stands hopen).closed
  have hheard := h.heard
  cases t with
  | greeting s retained =>
    have hretained : l.machine.retained = retained :=
      congrArg ConnectionView.retained (hview (by simp))
    cases retained with
    | none => exact ⟨hheard.1, by simp [hretained]⟩
    | some =>
      obtain ⟨hnone, hello, line, hsplit, hof⟩ := hheard
      refine ⟨hnone, fun request hr => ?_⟩
      rw [hretained, Option.some.injEq] at hr
      simp [requests_of_split hsplit, hof request hr, DecodedFrame.request?]
  | _ => simp_all [view, Talk.view]

theorem Keeps.outstanding (h : l.Keeps t) (hopen : l.gone = false)
    (hphase : l.machine.phase ≠ .closing) : l.traffic.handed.length =
      l.traffic.answers + if l.machine.requestPending then 1 else 0 := by
  have hne : t ≠ .closed := fun ht => hphase ((h.stands hopen).closed ht).1
  have hview := (h.stands hopen).view hne
  rw [h.kept.handed_eq hne]
  cases t <;> simp_all [view, Talk.view, Talk.outstanding]

theorem Keeps.begun (h : l.Keeps t) (hopen : l.gone = false) (hallows : l.machine.Allows call)
    {c : OutputCursor} (hc : l.machine.output = some c) (hbegun : 0 < c.offset) :
    (l.step call).gone = true ∨ (l.step call).machine.phase = .closing ∨
      (l.step call).traffic.delivered = l.traffic.delivered ++ [c.frame] ∨
      ∃ c', (l.step call).machine.output = some c' ∧ c'.frame = c.frame ∧ c.offset ≤ c'.offset := by
  obtain ⟨t', ht', hm⟩ := h.step hopen hallows
  obtain ⟨s, hs, rfl⟩ : ∃ s, t.current = some s ∧ s.cursor = c := by
    simpa [(h.stands hopen).output_eq] using hc
  cases hgone : (l.step call).gone with
  | true => exact .inl rfl
  | false =>
    have hstands := ht'.stands hgone
    refine .inr ?_
    rcases hm.begun_stays hs hbegun with rfl | hdelivered | ⟨s', hs', hframe, hle⟩
    · exact .inl (hstands.closed rfl).1
    · exact .inr (.inl (congrArg (l.traffic.delivered ++ ·) hdelivered))
    · exact .inr (.inr ⟨s'.cursor, by rw [hstands.output_eq, hs']; rfl, hframe, hle⟩)

/-- On every connection, whatever calls the server makes: what was sent is whole frames, each
ended by a newline, in the order they were queued in, and at most a proper beginning of the
next; a frame that was begun is completed unless the connection closes; at most one request
waits for an answer and none gets two.  The requests handed over are the first of those that
came in behind the greeting: all of them while the connection serves, and one that came in
while the greeting was sent is kept until then. -/
theorem reachable_traffic {l : Line} (h : Reachable l) :
    (∀ f ∈ l.traffic.queued, f.bytes.getLast? = some lf) ∧
      (∃ next count, l.traffic.Holds next count) ∧
      (l.gone = false → ∀ call, l.machine.Allows call → ∀ c, l.machine.output = some c →
        0 < c.offset →
        (l.step call).gone = true ∨ (l.step call).machine.phase = .closing ∨
          (l.step call).traffic.delivered = l.traffic.delivered ++ [c.frame] ∨
          ∃ c', (l.step call).machine.output = some c' ∧ c'.frame = c.frame ∧
            c.offset ≤ c'.offset) ∧
      l.traffic.answers ≤ l.traffic.handed.length ∧
      l.traffic.handed.length ≤ l.traffic.answers + 1 ∧
      (l.gone = false → l.machine.phase ≠ .closing →
        l.traffic.handed.length =
          l.traffic.answers + if l.machine.requestPending then 1 else 0) ∧
      l.traffic.handed <+: requests l.received ∧
      (l.gone = false → l.machine.phase = .ready ∨ l.machine.phase = .subscriber →
        l.traffic.handed = requests l.received) ∧
      (l.gone = false → l.machine.phase = .sendingHello →
        l.traffic.handed = [] ∧
          ∀ request, l.machine.retained = some (.request request) →
            requests l.received = [request]) := by
  obtain ⟨t, ht⟩ := h.keeps
  exact ⟨ht.kept.ends, ht.kept.holds,
    fun hopen call hallows c hc hbegun => ht.begun hopen hallows hc hbegun,
    ht.kept.answers_le, ht.kept.handed_le, ht.outstanding, ht.heard.came_in, ht.serving,
    ht.greeting⟩

end Line

/-! ## The texts of the protocol -/

section Texts

def utf8 (text : String) : Bytes := text.toUTF8.data.toList.map UInt8.toFin

def quoted (text : String) : String := "\"" ++ text ++ "\""

def array (items : List String) : String := "[" ++ ",".intercalate items ++ "]"

def object (fields : List (String × String)) : String :=
  "\x7b" ++ ",".intercalate (fields.map fun f => quoted f.1 ++ ":" ++ f.2) ++ "\x7d"

def OrbitCell.json (cell : OrbitCell) : String :=
  let display := match cell.display with
    | .active => "active"
    | .occupied => "occupied"
    | .empty => "empty"
  object [("number", toString cell.number), ("rune", quoted cell.rune),
    ("display", quoted display), ("windows", toString cell.windows)]

def Module.json (m : Module) : String :=
  object [("id", quoted m.id), ("text", quoted m.text),
    ("accent", (m.accent.map quoted).getD "null"),
    ("urgent", toString m.urgent)]

def RealmState.json (s : RealmState) : String :=
  let layout := match s.layout with
    | .triptych => "triptych"
    | .mono => "mono"
    | .even => "even"
  let mode := match s.mode with
    | .nav => "nav"
    | .resize => "resize"
    | .move => "move"
  object [("revision", toString s.revision), ("orbits", array (s.orbits.map OrbitCell.json)),
    ("layout", quoted layout), ("mode", quoted mode), ("focused_title", quoted s.focusedTitle),
    ("chord_echo", quoted s.chordEcho), ("whichkey", toString s.whichkey),
    ("grimoire", toString s.grimoire), ("modules", array (s.modules.map Module.json))]

def requestLine (fields : List (String × String)) : Bytes := utf8 (object fields) ++ [lf]

def helloLine : Bytes :=
  requestLine [("cmd", quoted "hello"),
    ("arg", object [("version", toString protocolVersion), ("client", quoted "")])]

def getStateLine : Bytes := requestLine [("cmd", quoted "get-state")]

def subscribeLine : Bytes := requestLine [("cmd", quoted "subscribe")]

/-- The JSON texts of the values that the runs below exchange, with nothing to be escaped in
them.  The replies that none of these runs holds are not told apart. -/
@[reducible] def plainJson : IpcJson where
  response
    | .hello version session => utf8 (object [("reply", quoted "hello"),
        ("data", object [("version", toString version), ("session", quoted session)])])
    | .state state => utf8 (object [("reply", quoted "state"), ("data", state.json)])
    | _ => utf8 (object [("reply", quoted "ok")])
  event
    | .state state => utf8 (object [("event", quoted "state"), ("data", state.json)])
    | .shutdown => utf8 (object [("event", quoted "shutdown")])
  decodeFrame line :=
    if line = helloLine then .request (.hello protocolVersion "")
    else if line = subscribeLine then .request .subscribe
    else if line = getStateLine then .request .getState
    else .invalid

end Texts

namespace Line

omit [IpcJson] in
theorem allows_advanceOutput {m : ConnectionMachine} {now count : ℕ}
    (h : m.output.any (fun c => count ≤ c.remaining.length) = true) :
    m.Allows (.advanceOutput now count) := by
  obtain ⟨c, hout, hcount⟩ := (Option.any_eq_true _ _).mp h
  exact ⟨c, hout, of_decide_eq_true hcount⟩

def helloFrame : Frame :=
  let _ := plainJson
  ⟨.hello, IpcJson.response (.hello protocolVersion "") ++ [lf]⟩

def greeted : Line :=
  let _ := plainJson
  ((new 0 "").step (.ingest 0 helloLine)).step (.advanceOutput 0 helloFrame.bytes.length)

omit [IpcJson] in
theorem reachable_greeted : @Reachable plainJson greeted := by
  let _ := plainJson
  have hread : Reachable ((new 0 "").step (.ingest 0 helloLine)) :=
    .step (.new 0 "") rfl ⟨rfl, by decide +kernel⟩
  exact .step hread rfl (allows_advanceOutput (by decide +kernel))

omit [IpcJson] in
/-- A request that was read is not handed over if a byte follows it in the same read: the
connection is closed instead. -/
theorem handed_ne_requests :
    let _ := plainJson
    ∃ l, Reachable l ∧ requests l.received = [.getState] ∧ l.traffic.handed = [] := by
  let _ := plainJson
  have hread : Reachable (greeted.step (.ingest 0 (getStateLine ++ [lf]))) :=
    .step reachable_greeted rfl ⟨by decide +kernel, by decide +kernel⟩
  exact ⟨_, hread, by decide +kernel, by decide +kernel⟩

omit [IpcJson] in
/-- A request that ends its read is handed over. -/
theorem reachable_traffic_getState :
    let _ := plainJson
    ∃ l, Reachable l ∧ l.gone = false ∧ l.machine.phase = .ready ∧
      l.traffic.handed = requests l.received ∧ requests l.received = [.getState] := by
  let _ := plainJson
  have hread : Reachable (greeted.step (.ingest 0 getStateLine)) :=
    .step reachable_greeted rfl ⟨by decide +kernel, by decide +kernel⟩
  have hready : (greeted.step (.ingest 0 getStateLine)).machine.phase = .ready := by decide +kernel
  obtain ⟨-, -, -, -, -, -, -, hserving, -⟩ := reachable_traffic hread
  exact ⟨_, hread, rfl, hready, hserving rfl (.inl hready), by decide +kernel⟩

end Line

end Realm
