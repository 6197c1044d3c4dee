import Realm.Session.Replay

/-!
# Recovery after a restart

Until its replay turn is answered a session keeps the authority of its snapshot, whatever
else is called.  So the replay turn, whenever it comes, recovers the persisted ledger.
The focus of an orbit survives only where the windows dropped from the orbit leave it.
-/

namespace Realm.Session

variable {B : Type} {s : Session B} {a : AuthorityState}

/-! ## Runs before the replay -/

/-- While the session waits for its replay it has no transaction, and its authority is the
given one. -/
structure Waiting (a : AuthorityState) (s : Session B) : Prop where
  idle : s.phase = .initialReplay → s.active = none ∧ s.transaction = .idle
  authority_eq : s.phase = .initialReplay → s.currentAuthority = a

theorem waiting_of_phase (h : s.phase ≠ .initialReplay) : Waiting a s :=
  ⟨fun hphase => absurd hphase h, fun hphase => absurd hphase h⟩

theorem Waiting.turnBase_eq (hs : Waiting a s) (hphase : s.phase = .initialReplay) :
    s.turnBase = a := by
  rw [turnBase, (hs.idle hphase).1]
  exact hs.authority_eq hphase

theorem Fresh.waiting {snapshot : Option ValidatedSnapshot} (h : Fresh snapshot s) :
    Waiting s.currentAuthority s :=
  ⟨fun _ => ⟨h.active, h.transaction⟩, fun _ => rfl⟩

variable [WmBackend B] {backend : B} {event : BackendEvent} {s' : Session B} {v : ValidatedSnapshot}

theorem bootstrap_of_reduceTurn {events : List BackendPolicyEvent} {active : ActiveTransaction}
    (hphase : s.phase = .initialReplay) (h : s.reduceTurn events = (.ok active, backend)) :
    active.bootstrap = true := by
  rw [reduceTurn, if_pos hphase] at h
  obtain ⟨_, _, _, _, rfl⟩ := exists_reduceInitialReplay h
  rfl

theorem Handled.phase_ne {update : SessionUpdate} (h : Handled s event update s')
    (hidle : s.phase = .initialReplay → s.transaction = .idle) : s'.phase ≠ .initialReplay := by
  have hfinal (c : Session B) (active : ActiveTransaction)
      (hphase : c.phase = .initialReplay → active.bootstrap = true) :
      (c.finalizeActive active).2.phase ≠ .initialReplay := by
    obtain ⟨_, _, _, _, heq⟩ := c.exists_finalizeActive active
    rw [heq]
    simp only [commitActive]
    grind
  cases h with
  | @turn _ _ _ active _ _ submission _ _ hreduce _ =>
    have hboot := fun hphase => bootstrap_of_reduceTurn (s := s) hphase hreduce
    cases submission with
    | complete => exact hfinal _ _ hboot
    | pending =>
      change (if active.bootstrap then .finalizingReplay else s.phase) ≠ _
      grind
  | completed htransaction =>
    exact fun hphase => by simp [hidle hphase] at htransaction
  | drained htransaction =>
    refine hfinal _ _ fun hphase => ?_
    simp [hidle hphase] at htransaction

theorem Owned.waiting {outcome : Option SessionUpdate} (h : Owned s outcome s') (hs : Waiting a s) :
    Waiting a s' := by
  have hready : s.ready = true → s.phase ≠ .initialReplay := by
    intro hready hphase
    simp [ready, hphase] at hready
  cases h with
  | quiet h =>
    rcases h.eq_or_ready with rfl | hr
    · exact hs
    · exact waiting_of_phase (h.sameExchange.phase ▸ hready hr)
  | admits h => exact waiting_of_phase (hready h.ready)
  | refused h => exact waiting_of_phase (hready h)
  | leaves h =>
    refine waiting_of_phase ?_
    rcases h with rfl | rfl <;> simp
  | exits => exact waiting_of_phase (by simp)

theorem Failed.waiting (h : Failed s event s') (hs : Waiting a s) : Waiting a s' := by
  cases h with
  | unpaired => exact hs
  | _ => exact ⟨fun _ => ⟨rfl, rfl⟩, hs.authority_eq⟩

/-- Nothing but an answered turn ends the wait, and until then the authority stays. -/
theorem Waiting.step (hs : Waiting a s) (call : Call B) : Waiting a (s.step call) := by
  have hstep := s.step_spec call
  generalize s.outcome call = outcome, s.step call = s' at hstep
  cases hstep with
  | acts _ h =>
    cases h with
    | owned h => exact h.waiting hs
    | moves => exact ⟨hs.idle, hs.authority_eq⟩
    | attempts _ hphase => exact waiting_of_phase (by simp [hphase])
    | completes => exact waiting_of_phase (by simp)
  | drops => exact ⟨fun _ => ⟨rfl, rfl⟩, hs.authority_eq⟩
  | handles _ h => exact waiting_of_phase (h.phase_ne fun hphase => (hs.idle hphase).2)
  | fails h => exact h.waiting hs

theorem Waiting.foldl (hs : Waiting a s) (calls : List (Call B)) :
    Waiting a (calls.foldl Session.step s) := by
  induction calls generalizing s with
  | nil => exact hs
  | cons call calls ih => exact ih (hs.step call)

theorem restores_of_connect {keymap : Keymap} (h : connect backend (some v) keymap = .ok s)
    (calls : List (Call B)) (hphase : (calls.foldl Session.step s).phase = .initialReplay) :
    Restores v.snapshot (calls.foldl Session.step s).turnBase := by
  have hfresh := fresh_of_connect h
  rw [(hfresh.waiting.foldl calls).turnBase_eq hphase]
  exact ⟨hfresh.ledger, hfresh.backendIds, hfresh.nextWinId⟩

/-! ## Recovery -/

/-- For every run from a connection with a snapshot and every replay turn it accepts:
recovery fails only with the error of the backend that refuses a reported window, and
otherwise it recovers the snapshot. -/
theorem replay_recovers {backend : B} {v : ValidatedSnapshot} {keymap : Keymap}
    (hconnect : connect backend (some v) keymap = .ok s) (hnext : v.snapshot.nextWinId ≤ u64Max)
    (calls : List (Call B)) (hphase : (calls.foldl Session.step s).phase = .initialReplay)
    {turn : BackendPolicyTurn}
    (hturn : (calls.foldl Session.step s).validatePolicyTurn turn = .ok ()) :
    (∀ error backend',
      (calls.foldl Session.step s).reduceTurn turn.events = (.error error, backend') →
        ∃ id ∈ reportedIds turn.events [], ∃ (b : B) (win : WinId) (refused : BackendContractError),
          WmBackend.assignWindow b id win = (.error refused, backend') ∧
            error = .backendContract refused) ∧
    ∀ active backend',
      (calls.foldl Session.step s).reduceTurn turn.events = (.ok active, backend') →
        v.snapshot.Recovered (reportedIds turn.events []) active.working := by
  obtain ⟨hfails, hok⟩ := reduceTurn_recovers hphase (restores_of_connect hconnect calls hphase)
    hnext hturn
  exact ⟨hfails, fun active backend' h => (hok active backend' h).2⟩

/-- Three persisted windows in the first orbit, the last of them focused. -/
def persisted : ValidatedSnapshot where
  snapshot := .assemble (Ledger.run [.summon 0 0, .summon 1 0, .summon 2 0])
    [⟨0, term0⟩, ⟨1, term1⟩, ⟨2, term2⟩] 3
  valid := by decide +kernel
  fresh := ⟨rfl, rfl⟩

def replayTurn (ids : List BackendWindowId) : BackendPolicyTurn where
  id := firstTurn
  drains := none
  events := ids.map (fun id => .windowOpened id "foot" "shell") ++ [.initialReplayComplete]

/-- The reported identities of a restart: the last persisted window, a new one and the
first. -/
def restartIds : List BackendWindowId :=
  [term2, ⟨"new", by decide⟩, term0]

theorem replay_recovers_restart : ∃ (s : Session PromptBackend) (active : ActiveTransaction),
    s.reduceTurn (replayTurn restartIds).events = (.ok active, ⟨⟩) ∧
    (active.working.ledger.orbit 0).windows = [0, 2, 3] ∧
    persisted.snapshot.Recovered restartIds active.working := by
  have hconnect : ∃ s active, connect PromptBackend.mk (some persisted) Keymap.default = .ok s ∧
      s.phase = .initialReplay ∧ s.validatePolicyTurn (replayTurn restartIds) = .ok () ∧
      s.reduceTurn (replayTurn restartIds).events = (.ok active, ⟨⟩) ∧
      (active.working.ledger.orbit 0).windows = [0, 2, 3] :=
    ⟨_, _, rfl, rfl, by decide +kernel, rfl, by decide +kernel⟩
  obtain ⟨s, active, hs, hphase, hturn, hreduce, hwindows⟩ := hconnect
  have hids : reportedIds (replayTurn restartIds).events [] = restartIds := by decide +kernel
  have hrecovers := replay_recovers hs (by decide) [] hphase hturn
  exact ⟨s, active, hreduce, hwindows, hids ▸ hrecovers.2 active ⟨⟩ hreduce⟩

/-! ## The focus of what survives -/

/-- Recovery without new windows moves the focus of an orbit unless the dropped windows
leave it. -/
theorem focused_reconciled {reported : List BackendWindowId}
    (hunbound : v.snapshot.unbound reported = []) (i : OrbitId) :
    ((v.snapshot.reconciled reported).orbit i).focused = (v.snapshot.ledger.orbit i).focused ↔
      (v.snapshot.ledger.orbit i).KeepsFocus (!v.snapshot.survives reported ·) := by
  have hwf : v.snapshot.ledger.WellFormed := (Bound.of_validatedSnapshot v).ledger_wf
  rw [← Orbit.focused_foldl_banished (hwf.orbit_wf i), ← Ledger.orbit_banishAll_filter hwf]
  simp only [SessionSnapshotV1.reconciled, hunbound]
  rfl

/-- Banishing another window of an orbit, and dropping the windows that were not replayed,
keep a focused window in focus if and only if the windows dropped leave the focus where
it is; a banished window leaves the other orbits and the active one alone in any case. -/
theorem keeps_focus_iff {B : Type} [WmBackend B] :
    (∀ (ops : List LedgerOp) (i : OrbitId) (focus win : WinId),
      ((Ledger.run ops).orbit i).focused = some focus → win ∈ ((Ledger.run ops).orbit i).windows →
      win ≠ focus →
        ((((Ledger.run ops).banish win).1.orbit i).focused = some focus ∧
          (∀ j, j ≠ i → ((Ledger.run ops).banish win).1.orbit j = (Ledger.run ops).orbit j) ∧
          ((Ledger.run ops).banish win).1.active = (Ledger.run ops).active ↔
        ((Ledger.run ops).orbit i).KeepsFocus (· = win))) ∧
    ∀ (backend backend' : B) (v : ValidatedSnapshot) (keymap : Keymap) (s : Session B)
      (calls : List (Call B)) (turn : BackendPolicyTurn) (active : ActiveTransaction)
      (i : OrbitId) (focus : WinId),
      connect backend (some v) keymap = .ok s → v.snapshot.nextWinId ≤ u64Max →
      (calls.foldl Session.step s).phase = .initialReplay →
      (calls.foldl Session.step s).validatePolicyTurn turn = .ok () →
      (calls.foldl Session.step s).reduceTurn turn.events = (.ok active, backend') →
      v.snapshot.unbound (reportedIds turn.events []) = [] →
      (v.snapshot.ledger.orbit i).focused = some focus →
      v.snapshot.survives (reportedIds turn.events []) focus = true →
        ((active.working.ledger.orbit i).focused = some focus ↔
          (v.snapshot.ledger.orbit i).KeepsFocus
            (!v.snapshot.survives (reportedIds turn.events []) ·)) := by
  constructor
  · intro ops i focus win hfocus hwin _
    have hwf := (Ledger.valid_run ops).wf
    rw [← Ledger.focused_banish hwf hwin, hfocus]
    refine ⟨And.left, fun h => ⟨h, fun j hj => ?_, Ledger.active_banish _ win⟩⟩
    exact Ledger.orbit_banish_of_not_mem hwf fun hmem => hj (hwf.now.unique j i win hmem hwin)
  · intro backend backend' v keymap s calls turn active i focus hconnect hnext hphase hturn hreduce
      hunbound hfocus _
    obtain ⟨hledger, -⟩ := (reduceTurn_recovers hphase
      (restores_of_connect hconnect calls hphase) hnext hturn).2 active backend' hreduce
    rw [hledger, ← focused_reconciled hunbound, hfocus]

/-- The focus stays when the window before it is banished, or was not replayed. -/
theorem keeps_focus_of_next :
    ((Ledger.run [.summon 1 0, .summon 2 0]).banish 1).1.activeOrbit.focused = some 2 ∧
    ∃ (s : Session PromptBackend) (active : ActiveTransaction),
      s.reduceTurn (replayTurn [⟨"term-2", by decide⟩, ⟨"term-0", by decide⟩]).events =
        (.ok active, ⟨⟩) ∧ (active.working.ledger.orbit 0).focused = some 2 := by
  obtain ⟨hbanish, hreplay⟩ := keeps_focus_iff (B := PromptBackend)
  refine ⟨((hbanish [.summon 1 0, .summon 2 0] 0 2 1 (by decide) (by decide) (by decide)).mpr
    (.inr ⟨[], 1, [2], by decide⟩)).1, ?_⟩
  have hconnect : ∃ s active, connect PromptBackend.mk (some persisted) Keymap.default = .ok s ∧
      s.phase = .initialReplay ∧
      s.validatePolicyTurn (replayTurn [⟨"term-2", by decide⟩, ⟨"term-0", by decide⟩]) = .ok () ∧
      s.reduceTurn (replayTurn [⟨"term-2", by decide⟩, ⟨"term-0", by decide⟩]).events =
        (.ok active, ⟨⟩) :=
    ⟨_, _, rfl, rfl, by decide +kernel, rfl⟩
  obtain ⟨s, active, hs, hphase, hturn, hreduce⟩ := hconnect
  refine ⟨s, active, hreduce, (hreplay _ _ _ _ s [] _ active 0 2 hs (by decide) hphase hturn
    hreduce (by decide +kernel) (by decide +kernel) (by decide +kernel)).mpr ?_⟩
  exact .inr ⟨[0], 1, [2], by decide +kernel⟩

/-- Banishing the last of three windows moves the focus from the first to the second. -/
theorem banish_moves_focus : ¬ ∀ (ops : List LedgerOp) (i : OrbitId) (focus win : WinId),
    ((Ledger.run ops).orbit i).focused = some focus → win ∈ ((Ledger.run ops).orbit i).windows →
    win ≠ focus → (((Ledger.run ops).banish win).1.orbit i).focused = some focus := by
  intro h
  have hkept := h [.summon 1 0, .summon 2 0, .summon 3 0, .desire (.focusWindow 1)] 0 1 3
    (by decide) (by decide) (by decide)
  revert hkept
  decide

end Realm.Session
