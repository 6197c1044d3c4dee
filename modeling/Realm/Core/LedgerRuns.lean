import Realm.Core.LedgerInvariant
import Realm.Lib.Timeline
import Mathlib.Data.List.DropRight

/-!
# Runs of ledger operations

The public operations of a ledger as data, what every run of them preserves, and the
ledger as a timeline of its orbits: a desired change records the orbits it leaves,
undo goes back and redo goes forward.
-/

namespace Realm

open List Option Snapshot Timeline Orbit

variable {win : WinId} {f : Orbit → Orbit}

/-- A change of the ledger that the user asks for. -/
inductive Desire where
  | focusWindow (win : WinId)
  | focusStep (dir : Dir)
  | swap (dir : Dir)
  | moveToOrbit (target : OrbitId)
  | switchOrbit (target : OrbitId)
  | toggleStow
  | toggleFullscreen
  | setLayout (layout : Layout)
deriving DecidableEq

/-- A public operation that mutates a ledger. -/
inductive LedgerOp where
  | summon (win : WinId) (orbit : OrbitId)
  | banish (win : WinId)
  | desire (d : Desire)
  | undo
  | redo
  | discardUndoHistory
deriving DecidableEq

namespace Snapshot

variable {s : Snapshot} {i : OrbitId}

theorem mem_orbit_insertWindow (h : s.orbits.length = 6) :
    win ∈ ((s.modifyOrbit i fun o => o.insertWindow win).orbit i).windows := by
  rw [orbit_modifyOrbit h, if_pos rfl]
  exact mem_insertWindow.mpr (.inl rfl)

theorem modifyOrbit_eq_self (h : s.orbits.length = 6) (hf : f (s.orbit i) = s.orbit i) :
    s.modifyOrbit i f = s := by
  refine congrArg (mk · s.active) (ext_getElem? fun k => ?_)
  rw [getElem?_modify]
  split
  · rename_i hk
    have hlt : k < s.orbits.length := by omega
    have horbit : s.orbit i = s.orbits[k] := by simp [orbit, getD_eq_getElem?_getD, hk, hlt]
    rw [getElem?_eq_getElem hlt, ← horbit]
    exact congrArg some hf
  · simp

end Snapshot

namespace Ledger

variable {l l' : Ledger} {d : Desire} {i : OrbitId} {ds : List Desire}

def desire (l : Ledger) : Desire → Ledger
  | .focusWindow win => (l.focusWindow win).1
  | .focusStep dir => l.focusStep dir
  | .swap dir => (l.swap dir).1
  | .moveToOrbit target => (l.moveToOrbit target).1
  | .switchOrbit target => l.switchOrbit target
  | .toggleStow => l.toggleStow.1
  | .toggleFullscreen => l.toggleFullscreen.1
  | .setLayout layout => l.setLayout layout

def step (l : Ledger) : LedgerOp → Ledger
  | .summon win orbit => l.summon win orbit
  | .banish win => (l.banish win).1
  | .desire d => l.desire d
  | .undo => l.undo.1
  | .redo => l.redo.1
  | .discardUndoHistory => l.discardUndoHistory

def run (ops : List LedgerOp) : Ledger := ops.foldl step new

/-! ## The invariant of runs -/

/-- A well-formed ledger whose snapshots fit the history. -/
structure Valid (l : Ledger) : Prop where
  wf : l.WellFormed
  depth : l.history.length + l.redoStack.length ≤ historyDepth

theorem Valid.history_le (h : l.Valid) : l.history.length ≤ historyDepth :=
  (Nat.le_add_right _ _).trans h.depth

theorem desire_desired (h : l.WellFormed) (d : Desire) : Desired l (l.desire d) := by
  cases d with
  | focusWindow win => exact focusWindow_desired h win
  | focusStep dir => exact focusStep_desired h dir
  | swap dir => exact swap_desired h dir
  | moveToOrbit target => exact moveToOrbit_desired h target
  | switchOrbit target => exact switchOrbit_desired h target
  | toggleStow => exact toggleStow_desired h
  | toggleFullscreen => exact toggleFullscreen_desired h
  | setLayout layout => exact setLayout_desired h layout

theorem desire_cases (l : Ledger) (d : Desire) : l.desire d = l ∨
    (l.desire d).history = l.checkpoint.history ∧ (l.desire d).redoStack = [] := by
  cases d with
  | focusWindow | focusStep | switchOrbit | toggleStow | toggleFullscreen | setLayout =>
    simp only [desire, focusWindow, focusStep, switchOrbit, toggleStow, toggleFullscreen, setLayout]
    split
    · exact .inl rfl
    · exact .inr ⟨rfl, rfl⟩
  | swap | moveToOrbit =>
    simp only [desire, swap, moveToOrbit]
    split
    · exact .inl rfl
    · split
      · exact .inl rfl
      · exact .inr ⟨rfl, rfl⟩

theorem length_checkpoint_history (h : l.history.length ≤ historyDepth) :
    l.checkpoint.history.length ≤ historyDepth := by
  simp only [checkpoint]
  split
  · rw [length_drop, length_append, length_singleton]
    omega
  · omega

theorem Valid.desire (h : l.Valid) (d : Desire) : (l.desire d).Valid where
  wf := (desire_desired h.wf d).wf
  depth := by
    rcases desire_cases l d with heq | ⟨hhistory, hredo⟩
    · rw [heq]
      exact h.depth
    · rw [hhistory, hredo, length_nil]
      exact length_checkpoint_history h.history_le

theorem Valid.undo (h : l.Valid) : l.undo.1.Valid where
  wf := (undo_desired h.wf).wf
  depth := by
    have hdepth := h.depth
    unfold Ledger.undo
    split
    · exact hdepth
    · rename_i prev hprev
      have hpos : 0 < l.history.length := length_pos_of_mem (mem_of_getLast? hprev)
      simp only [length_dropLast, length_append, length_singleton]
      omega

theorem Valid.redo (h : l.Valid) : l.redo.1.Valid where
  wf := (redo_desired h.wf).wf
  depth := by
    have hdepth := h.depth
    unfold Ledger.redo
    split
    · exact hdepth
    · rename_i next hnext
      have hpos : 0 < l.redoStack.length := length_pos_of_mem (mem_of_getLast? hnext)
      simp only [length_dropLast, length_append, length_singleton]
      omega

theorem valid_of_no_history (h : l.WellFormed) (hhistory : l.history = [])
    (hredo : l.redoStack = []) : l.Valid :=
  ⟨h, by simp [hhistory, hredo]⟩

theorem Valid.summon (h : l.Valid) (win : WinId) (orbit : OrbitId) :
    (l.summon win orbit).Valid where
  wf := h.wf.summon win orbit
  depth := by
    unfold Ledger.summon
    split
    · exact h.depth
    · exact Nat.zero_le _

theorem Valid.banish (h : l.Valid) (win : WinId) : (l.banish win).1.Valid where
  wf := h.wf.banish win
  depth := by
    unfold Ledger.banish
    split
    · exact h.depth
    · simp only
      split <;> exact Nat.zero_le _

theorem Valid.step (h : l.Valid) (op : LedgerOp) : (l.step op).Valid := by
  cases op with
  | summon win orbit => exact h.summon win orbit
  | banish win => exact h.banish win
  | desire d => exact h.desire d
  | undo => exact h.undo
  | redo => exact h.redo
  | discardUndoHistory => exact valid_of_no_history h.wf.discardUndoHistory rfl rfl

theorem valid_new : Ledger.new.Valid := valid_of_no_history wellFormed_new rfl rfl

theorem valid_run (ops : List LedgerOp) : (run ops).Valid := by
  unfold run
  generalize hstart : Ledger.new = start
  have hvalid : start.Valid := hstart ▸ valid_new
  clear hstart
  induction ops generalizing start with
  | nil => exact hvalid
  | cons op ops ih => exact ih (start.step op) (hvalid.step op)

/-- In every run the orbits and the snapshots stay well formed, hold the same windows,
and fit the history. -/
theorem wellFormed_run (ops : List LedgerOp) : (run ops).WellFormed ∧
    (run ops).history.length + (run ops).redoStack.length ≤ historyDepth :=
  ⟨(valid_run ops).wf, (valid_run ops).depth⟩

/-! ## The windows a run leaves -/

/-- What an operation makes of the set of open windows. -/
def windowsAfter (ws : Set WinId) : LedgerOp → Set WinId
  | .summon win _ => insert win ws
  | .banish win => ws \ {win}
  | _ => ws

theorem holds_step (h : l.WellFormed) (op : LedgerOp) :
    {w | (l.step op).Holds w} = windowsAfter {w | l.Holds w} op := by
  ext w
  cases op with
  | summon => exact holds_summon h
  | banish => exact holds_banish h
  | desire d => exact (desire_desired h d).holds w
  | undo => exact (undo_desired h).holds w
  | redo => exact (redo_desired h).holds w
  | discardUndoHistory => exact Iff.rfl

/-- A ledger holds the windows that were summoned and not banished since: no desired
change, undo or redo loses a window or brings one back. -/
theorem setOf_holds_run (ops : List LedgerOp) :
    {w | (run ops).Holds w} = ops.foldl windowsAfter ∅ := by
  induction ops using reverseRecOn with
  | nil => exact Set.ext fun w => iff_of_false (not_holds_new w) id
  | append_singleton ops op ih =>
    rw [foldl_concat, ← ih, ← holds_step (valid_run ops).wf, run, foldl_concat, run]

/-! ## One undo step for each change -/

/-- The second ledger came from the first by one change that undo takes back: the
orbits or the active orbit differ, the first ones were pushed and redo was cleared. -/
structure Records (l l' : Ledger) : Prop where
  changes : l'.snapshot ≠ l.snapshot
  pushes : l'.history = (l.history ++ [l.snapshot]).rtake historyDepth
  clears : l'.redoStack = []

theorem checkpoint_history (h : l.history.length ≤ historyDepth) :
    l.checkpoint.history = (l.history ++ [l.snapshot]).rtake historyDepth := by
  have hlength : (l.history ++ [l.snapshot]).length = l.history.length + 1 := by simp
  simp only [checkpoint, rtake, hlength]
  split
  · rw [show l.history.length + 1 - historyDepth = 1 by omega]
  · rw [show l.history.length + 1 - historyDepth = 0 by omega, drop_zero]

/-- A desired change that changes anything records what it changed. -/
theorem Valid.records (h : l.Valid) (hd : (l.desire d).snapshot ≠ l.snapshot) :
    Records l (l.desire d) := by
  rcases desire_cases l d with heq | ⟨hhistory, hredo⟩
  · exact absurd (congrArg snapshot heq) hd
  · exact ⟨hd, hhistory.trans (checkpoint_history h.history_le), hredo⟩

theorem eq_of_snapshot (hsnapshot : l'.snapshot = l.snapshot) (hhistory : l'.history = l.history)
    (hredo : l'.redoStack = l.redoStack) : l' = l := by
  obtain ⟨horbits, hactive⟩ := Snapshot.mk.inj hsnapshot
  cases l
  cases l'
  simp_all

theorem snapshot_modifyOrbit_ne (h : l.WellFormed) (hf : f (l.orbit i) ≠ l.orbit i) :
    (l.checkpoint.modifyOrbit i f).snapshot ≠ l.snapshot := by
  intro heq
  apply hf
  have horbit := orbit_modifyOrbit h.now.length_eq i i f
  rw [if_pos rfl] at horbit
  rw [orbit_eq_snapshot_orbit, ← horbit]
  exact congrArg (Snapshot.orbit · i) heq

theorem neighbour_ne (dir : Dir) {cur n : ℕ} (hcur : cur < n) (hn : 2 ≤ n) :
    neighbour dir cur n ≠ cur := by
  cases dir with
  | next =>
    simp only [neighbour]
    rcases Nat.lt_or_ge (cur + 1) n with hlt | hge
    · rw [Nat.mod_eq_of_lt hlt]
      omega
    · rw [show cur + 1 = n by omega, Nat.mod_self]
      omega
  | prev =>
    simp only [neighbour]
    rcases Nat.eq_zero_or_pos cur with rfl | hpos
    · rw [Nat.zero_add, Nat.mod_eq_of_lt (by omega)]
      omega
    · rw [show cur + n - 1 = cur - 1 + n by omega, Nat.add_mod_right, Nat.mod_eq_of_lt (by omega)]
      omega

theorem focused_eq_some_iff (h : l.WellFormed) : l.focused = some win ↔
      win ∈ (l.orbit l.active).windows ∧
        (l.orbit l.active).windows.idxOf? win = (l.orbit l.active).focus := by
  have hnodup := (h.orbit_wf l.active).nodup
  simp only [focused, activeOrbit, Orbit.focused, bind_eq_some_iff]
  constructor
  · rintro ⟨k, hfocus, hk⟩
    refine ⟨mem_of_getElem? hk, ?_⟩
    obtain ⟨hlt, rfl⟩ := List.getElem?_eq_some_iff.mp hk
    rw [hfocus, List.idxOf?_eq_some_iff]
    exact ⟨hlt, rfl, fun j hj heq => absurd (hnodup.getElem_inj_iff.mp heq) (by omega)⟩
  · rintro ⟨hmem, hfocus⟩
    obtain ⟨k, hk⟩ := isSome_iff_exists.mp (isSome_idxOf?.mpr hmem)
    obtain ⟨hlt, hget, _⟩ := List.idxOf?_eq_some_iff.mp hk
    exact ⟨k, hfocus ▸ hk, by rw [List.getElem?_eq_getElem hlt, hget]⟩

/-- The change does nothing at all or shows in the orbits. -/
def Effective (l l' : Ledger) : Prop := l' = l ∨ l'.snapshot ≠ l.snapshot

theorem focusStep_effective (h : l.WellFormed) (dir : Dir) : Effective l (l.focusStep dir) := by
  simp only [focusStep]
  split
  · exact .inl rfl
  rename_i hn
  refine .inr (snapshot_modifyOrbit_ne h fun heq => ?_)
  have hfocus : some (neighbour dir ((l.orbit l.active).focus.getD 0) _) =
      (l.orbit l.active).focus := congrArg focus heq
  cases hcur : (l.orbit l.active).focus with
  | none => simp [hcur] at hfocus
  | some cur =>
    have hlt := (h.orbit_wf l.active).focus_lt cur hcur
    simp only [hcur, getD_some, some.injEq, activeOrbit] at hfocus hn
    exact neighbour_ne dir hlt (by omega) hfocus

theorem swap_effective (h : l.WellFormed) (dir : Dir) : Effective l (l.swap dir).1 := by
  simp only [swap]
  split
  · exact .inl rfl
  rename_i cur hcur
  split
  · exact .inl rfl
  rename_i hn
  refine .inr (snapshot_modifyOrbit_ne h fun heq => ?_)
  have hfocus := (congrArg focus heq).trans hcur
  have hlt := (h.orbit_wf l.active).focus_lt cur hcur
  simp only [some.injEq, activeOrbit] at hfocus hn
  exact neighbour_ne dir hlt (by omega) hfocus

theorem moveToOrbit_effective (h : l.WellFormed) (target : OrbitId) :
    Effective l (l.moveToOrbit target).1 := by
  simp only [moveToOrbit]
  split
  · exact .inl rfl
  rename_i win hfocus
  split
  · exact .inl rfl
  rename_i hne
  refine .inr fun heq => hne ?_
  -- The target orbit holds the window now, and the active one held it before.
  have hmem : win ∈ (l.orbit l.active).windows := mem_of_focused hfocus
  have htarget : win ∈ (l.orbit target).windows := by
    rw [orbit_eq_snapshot_orbit, ← heq]
    refine mem_orbit_insertWindow (s := (l.checkpoint.modifyOrbit l.active _).snapshot) ?_
    exact (length_modify _ _ _).trans h.now.length_eq
  exact h.now.unique target l.active win htarget hmem

theorem switchOrbit_effective (l : Ledger) (target : OrbitId) :
    Effective l (l.switchOrbit target) := by
  simp only [switchOrbit]
  split
  · exact .inl rfl
  · rename_i hne
    exact .inr fun heq => hne (congrArg Snapshot.active heq)

theorem toggleStow_effective (h : l.WellFormed) : Effective l l.toggleStow.1 := by
  simp only [toggleStow]
  split
  · exact .inl rfl
  refine .inr (snapshot_modifyOrbit_ne h fun heq => ?_)
  have hlength := congrArg (fun o => o.stowed.length) heq
  split at hlength
  · rename_i k hk
    have hlt := (idxOf?_eq_some_iff.mp hk).1
    rw [length_eraseIdx_of_lt hlt] at hlength
    omega
  · simp at hlength

theorem toggleFullscreen_effective (h : l.WellFormed) : Effective l l.toggleFullscreen.1 := by
  simp only [toggleFullscreen]
  split
  · exact .inl rfl
  refine .inr (snapshot_modifyOrbit_ne h fun heq => ?_)
  have hfullscreen := congrArg fullscreen heq
  simp only at hfullscreen
  split at hfullscreen
  · rename_i hsome
    simp [hsome] at hfullscreen
  · rename_i hother
    exact hother hfullscreen.symm

theorem setLayout_effective (h : l.WellFormed) (layout : Layout) :
    Effective l (l.setLayout layout) := by
  simp only [setLayout]
  split
  · exact .inl rfl
  rename_i hne
  refine .inr (snapshot_modifyOrbit_ne h fun heq => hne ?_)
  exact (congrArg Orbit.layout heq).symm

theorem snapshot_focusWindow (h : l.WellFormed) (hi : l.orbitOf win = some i) :
    (l.focusWindow win).1.snapshot = l.snapshot ↔ l.focused = some win := by
  have hmem := (orbitOf_eq_some h).mp hi
  rw [focused_eq_some_iff h]
  simp only [focusWindow, hi]
  constructor
  · intro heq
    obtain rfl : i = l.active := congrArg Snapshot.active heq
    refine ⟨hmem, ?_⟩
    by_contra hne
    refine snapshot_modifyOrbit_ne h (i := l.active) ?_ heq
    exact fun horbit => hne (congrArg focus horbit)
  · rintro ⟨hactive, hfocus⟩
    obtain rfl := h.now.unique i l.active win hmem hactive
    exact modifyOrbit_eq_self h.now.length_eq (by rw [← orbit_eq_snapshot_orbit, hfocus])

theorem desire_effective (h : l.WellFormed)
    (hd : ∀ win, d = .focusWindow win → l.focused ≠ some win) : Effective l (l.desire d) := by
  cases d with
  | focusWindow win =>
    cases hi : l.orbitOf win with
    | none => exact .inl (by simp only [desire, focusWindow, hi])
    | some => exact .inr fun heq => hd win rfl ((snapshot_focusWindow h hi).mp heq)
  | focusStep dir => exact focusStep_effective h dir
  | swap dir => exact swap_effective h dir
  | moveToOrbit target => exact moveToOrbit_effective h target
  | switchOrbit target => exact switchOrbit_effective l target
  | toggleStow => exact toggleStow_effective h
  | toggleFullscreen => exact toggleFullscreen_effective h
  | setLayout layout => exact setLayout_effective h layout

theorem eq_replicate_of_append_eq_cons {α : Type*} {a b : α} {as : List α}
    (h : as ++ [b] = a :: as) : a :: as = .replicate (as.length + 1) b := by
  induction as generalizing a with
  | nil => simpa using h.symm
  | cons c as ih =>
    obtain ⟨rfl, hrest⟩ := cons_eq_cons.mp h
    have hcopies := ih hrest
    obtain ⟨rfl, _⟩ := cons_eq_cons.mp hcopies
    rw [length_cons, replicate_succ, ← hcopies]

/-- A full history of one snapshot takes another copy of it unnoticed. -/
theorem rtake_append_eq_self_iff {s : Snapshot} {history : List Snapshot}
    (h : history.length ≤ historyDepth) :
    (history ++ [s]).rtake historyDepth = history ↔ history = .replicate historyDepth s := by
  constructor
  · intro heq
    have hlength := congrArg length heq
    simp only [rtake, length_drop, length_append, length_singleton]
      at heq hlength
    have hfull : history.length = historyDepth := by
      unfold historyDepth at *
      omega
    cases history with
    | nil => simp [historyDepth] at hfull
    | cons =>
      rw [← hfull, Nat.add_sub_cancel_left, cons_append, drop_one] at heq
      rw [eq_replicate_of_append_eq_cons heq, ← hfull, length_cons]
  · intro heq
    rw [heq, rtake, ← replicate_succ', length_replicate, drop_replicate]
    congr 1

theorem desire_of_focused (h : l.Valid) (hfocus : l.focused = some win) :
    (l.desire (.focusWindow win)).snapshot = l.snapshot ∧
      (l.desire (.focusWindow win) = l ↔ l.history = .replicate historyDepth l.snapshot) := by
  have hi := (orbitOf_eq_some h.wf).mpr ((focused_eq_some_iff h.wf).mp hfocus).1
  have hsnapshot := (snapshot_focusWindow h.wf hi).mpr hfocus
  have hhistory : (l.desire (.focusWindow win)).history =
      (l.history ++ [l.snapshot]).rtake historyDepth := by
    rw [← checkpoint_history h.history_le]
    simp only [desire, focusWindow, hi, modifyOrbit]
  have hredo : (l.desire (.focusWindow win)).redoStack = [] := by
    simp only [desire, focusWindow, hi, modifyOrbit, checkpoint]
  refine ⟨hsnapshot, ?_⟩
  rw [← rtake_append_eq_self_iff h.history_le, ← hhistory]
  constructor
  · exact congrArg history
  · intro hsame
    have hfull : l.history.length = historyDepth := by
      rw [(rtake_append_eq_self_iff h.history_le).mp (hhistory.symm.trans hsame), length_replicate]
    have hdepth := h.depth
    have hnil : l.redoStack = [] := eq_nil_of_length_eq_zero (by omega)
    exact eq_of_snapshot hsnapshot hsame (hredo.trans hnil.symm)

/-- Every desired change of a reachable ledger is one undo step or leaves the whole
ledger alone, except when it focuses the focused window over a history that is not
full of the present orbits. -/
theorem records_or_eq_iff (ops : List LedgerOp) (d : Desire) :
    (Records (run ops) ((run ops).desire d) ∨ (run ops).desire d = run ops) ↔
      (∀ win, d = .focusWindow win → (run ops).focused ≠ some win) ∨
        (run ops).history = .replicate historyDepth (run ops).snapshot := by
  have h := valid_run ops
  generalize run ops = l at h
  by_cases hd : ∀ win, d = .focusWindow win → l.focused ≠ some win
  · refine iff_of_true ?_ (.inl hd)
    rcases desire_effective h.wf hd with heq | hchanges
    · exact .inr heq
    · exact .inl (h.records hchanges)
  · push Not at hd
    obtain ⟨win, rfl, hfocus⟩ := hd
    obtain ⟨hsnapshot, hsame⟩ := desire_of_focused h hfocus
    rw [hsame]
    constructor
    · rintro (hrecords | hfull)
      · exact absurd hsnapshot hrecords.changes
      · exact .inr hfull
    · rintro (hother | hfull)
      · exact absurd hfocus (hother win rfl)
      · exact .inr hfull

/-- Focusing the only window twice leaves an undo step that changes nothing. -/
theorem focus_of_focused_records_nothing :
    ¬ (Records (run [.summon 1 0]) ((run [.summon 1 0]).desire (.focusWindow 1)) ∨
      (run [.summon 1 0]).desire (.focusWindow 1) = run [.summon 1 0]) := by
  rintro (h | h)
  · exact h.changes (by decide)
  · revert h
    decide

/-! ## The ledger as a timeline -/

/-- The orbits now, between those undo and those redo return to. -/
def timeline (l : Ledger) : Timeline Snapshot := ⟨l.history, l.snapshot, l.redoStack⟩

theorem timeline_injective : Function.Injective timeline := by
  intro l l' h
  obtain ⟨hhistory, hsnapshot, hredo⟩ := Timeline.mk.inj h
  exact eq_of_snapshot hsnapshot hhistory hredo

theorem timeline_undo (l : Ledger) : l.undo.1.timeline = l.timeline.back := by
  cases hlast : l.history.getLast? <;> simp [undo, back, timeline, snapshot, hlast]

theorem timeline_redo (l : Ledger) : l.redo.1.timeline = l.timeline.forward := by
  cases hlast : l.redoStack.getLast? <;> simp [redo, forward, timeline, snapshot, hlast]

theorem undo_snd (l : Ledger) : l.undo.2 = decide (0 < l.timeline.past.length) := by
  simp only [undo, timeline]
  split
  · rename_i hnone
    simp [getLast?_eq_none_iff.mp hnone]
  · rename_i prev hprev
    exact (decide_eq_true (length_pos_of_mem (mem_of_getLast? hprev))).symm

theorem Records.timeline (h : Records l l') (hl : l.Valid) :
    l'.timeline = l.timeline.record historyDepth l'.snapshot := by
  refine Timeline.ext ?_ rfl h.clears
  rw [Timeline.past_record hl.history_le]
  refine h.pushes.trans ?_
  rw [List.rtake, length_append]
  rfl

def undos (n : ℕ) (l : Ledger) : Ledger := (fun l => l.undo.1)^[n] l

def redos (n : ℕ) (l : Ledger) : Ledger := (fun l => l.redo.1)^[n] l

theorem timeline_undos (n : ℕ) (l : Ledger) : (l.undos n).timeline = Timeline.back^[n] l.timeline :=
  Function.Semiconj.iterate_right timeline_undo n l

theorem timeline_redos (n : ℕ) (l : Ledger) :
    (l.redos n).timeline = Timeline.forward^[n] l.timeline :=
  Function.Semiconj.iterate_right timeline_redo n l

def desires (l : Ledger) (ds : List Desire) : Ledger := ds.foldl desire l

/-- Each of the desired changes changes the orbits or the active orbit. -/
def Changing (l : Ledger) : List Desire → Prop
  | [] => True
  | d :: ds => (l.desire d).snapshot ≠ l.snapshot ∧ Changing (l.desire d) ds

instance Changing.decidable : (l : Ledger) → (ds : List Desire) → Decidable (l.Changing ds)
  | _, [] => inferInstanceAs (Decidable True)
  | l, d :: ds =>
    have := Changing.decidable (l.desire d) ds
    inferInstanceAs (Decidable (_ ∧ _))

/-- The orbits after each of the desired changes. -/
def trail (l : Ledger) : List Desire → List Snapshot
  | [] => []
  | d :: ds => (l.desire d).snapshot :: trail (l.desire d) ds

theorem length_trail (l : Ledger) (ds : List Desire) : (l.trail ds).length = ds.length := by
  induction ds generalizing l with
  | nil => rfl
  | cons d ds ih => rw [trail, length_cons, length_cons, ih]

theorem getElem?_trail (l : Ledger) {i : ℕ} (hi : i ≤ ds.length) :
    (l.snapshot :: l.trail ds)[i]? = some (l.desires (ds.take i)).snapshot := by
  induction ds generalizing l i with
  | nil =>
    obtain rfl := Nat.le_zero.mp hi
    rfl
  | cons d ds ih =>
    cases i with
    | zero => rfl
    | succ => exact ih (l.desire d) (Nat.le_of_succ_le_succ hi)

theorem Valid.timeline_desires (h : l.Valid) (hds : l.Changing ds) :
    (l.desires ds).timeline = (l.trail ds).foldl (Timeline.record historyDepth) l.timeline := by
  induction ds generalizing l with
  | nil => rfl
  | cons d ds ih =>
    rw [trail, foldl_cons, ← (h.records hds.1).timeline h]
    exact ih (h.desire d) hds.2

/-- Undo takes desired changes of a reachable ledger back one by one and redo makes
them again; of more changes than the history holds, exactly the latest ones. -/
theorem undos_desires (ops : List LedgerOp) (ds : List Desire) (hds : (run ops).Changing ds) :
    (∀ j ≤ min ds.length historyDepth,
      (((run ops).desires ds).undos j).snapshot =
          ((run ops).desires (ds.take (ds.length - j))).snapshot ∧
        (((run ops).desires ds).undos j).redos j = (run ops).desires ds) ∧
      (historyDepth ≤ ds.length →
        ∀ j, (((run ops).desires ds).undos j).undo.2 = decide (j < historyDepth)) := by
  have h := valid_run ops
  generalize run ops = l at h hds
  obtain ⟨hpast, hstates⟩ := past_foldl_record (t := l.timeline) h.history_le
    (l.trail ds)
  rw [← h.timeline_desires hds, length_trail] at hpast hstates
  refine ⟨fun j hj => ⟨?_, ?_⟩, fun hlong j => ?_⟩
  · have hnow := (l.desires ds).timeline.now_iterate_back j
    rw [hstates, getElem?_drop, ← timeline_undos] at hnow
    have hindex : l.timeline.past.length + ds.length - historyDepth +
        ((l.desires ds).timeline.past.length - j) =
          l.timeline.past.length + (ds.length - j) := by omega
    rw [hindex, getElem?_append_right (Nat.le_add_right _ _), Nat.add_sub_cancel_left] at hnow
    exact some.inj (hnow.symm.trans (l.getElem?_trail (Nat.sub_le _ _)))
  · apply timeline_injective
    rw [timeline_redos, timeline_undos]
    exact iterate_forward_iterate_back _ (by omega)
  · rw [undo_snd, timeline_undos, length_past_iterate_back, hpast]
    simp only [decide_eq_decide]
    omega

/-- Undo takes a swap and a stow back. -/
theorem undos_desires_swap :
    (run [.summon 1 0, .summon 2 0]).Changing [.swap .next, .toggleStow] ∧
      (((run [.summon 1 0, .summon 2 0]).desires [.swap .next, .toggleStow]).undos 2).snapshot =
        (run [.summon 1 0, .summon 2 0]).snapshot :=
  ⟨by decide, ((undos_desires [.summon 1 0, .summon 2 0] [.swap .next, .toggleStow]
    (by decide)).1 2 (by decide)).1⟩

end Ledger

end Realm
