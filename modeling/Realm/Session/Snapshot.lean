import Realm.Lib.Guard
import Realm.Core.LedgerInvariant
import Realm.Session.Contract
import Mathlib.Data.Finset.Lattice.Lemmas
import Mathlib.Data.Finset.Dedup

/-!
# Session snapshots

A snapshot is the persisted part of a live session: the ledger, the bindings of
windows to compositor identities and the next window id.  `validate` goes
through the checks of the source in their order; `validate_eq_ok_iff` says what
they amount to.  A `ValidatedSnapshot` is what the two constructors of the
source return.
-/

namespace Realm

open List Ledger

def snapshotSchemaVersion : ℕ := 1

def protocolVersion : ℕ := 2

/-- One persisted binding of a window to a compositor identity. -/
structure SnapshotBinding where
  winId : WinId
  backendId : BackendWindowId
deriving DecidableEq

structure SessionSnapshotV1 where
  schemaVersion : ℕ
  protocolVersion : ℕ
  ledger : Ledger
  bindings : List SnapshotBinding
  nextWinId : ℕ
  activeOrbit : OrbitId
deriving DecidableEq

/-- A violated snapshot invariant, with the text of the source. -/
inductive SessionSnapshotError where
  | invalid (message : String)
deriving DecidableEq

namespace SessionSnapshotV1

variable {r seen : Finset WinId} {wins : List WinId} {l : Ledger} {nextWinId : ℕ} {orbit : Orbit}

/-- Every window of an orbit is below the watermark and not seen before. -/
def validateWindows (nextWinId : ℕ) :
    List WinId → Finset WinId → Except SessionSnapshotError (Finset WinId)
  | [], seen => .ok seen
  | win :: wins, seen =>
    if win ≥ nextWinId ∨ win ∈ seen then
      .error (.invalid "window ids must be unique and below the watermark")
    else validateWindows nextWinId wins (insert win seen)

/-- Every stowed window belongs to the orbit and is stowed once. -/
def validateStowed (windows : List WinId) :
    List WinId → Finset WinId → Except SessionSnapshotError Unit
  | [], _ => .ok ()
  | win :: wins, seen =>
    if win ∉ windows ∨ win ∈ seen then
      .error (.invalid "stowed windows must be a unique subset of the orbit")
    else validateStowed windows wins (insert win seen)

def validateFocus (orbit : Orbit) : Except SessionSnapshotError Unit :=
  match orbit.focus with
  | none =>
    if orbit.windows.isEmpty then .ok () else .error (.invalid "occupied orbit has no focus")
  | some focus =>
    if orbit.windows.isEmpty then .error (.invalid "empty orbit has a focus")
    else if focus ≥ orbit.windows.length then .error (.invalid "orbit focus is out of range")
    else .ok ()

/-- The checks of the orbit at an index; the windows seen so far are passed
along. -/
def validateOrbit (nextWinId index : ℕ) (orbit : Orbit) (seen : Finset WinId) :
    Except SessionSnapshotError (Finset WinId) :=
  if orbit.id.val ≠ index then .error (.invalid "orbit ids are not canonical")
  else if some orbit.name ≠ Orbit.names[index]? then
    .error (.invalid "orbit names are not canonical")
  else do
    validateFocus orbit
    let seen ← validateWindows nextWinId orbit.windows seen
    validateStowed orbit.windows orbit.stowed ∅
    if orbit.fullscreen.any (· ∉ orbit.windows) then
      .error (.invalid "fullscreen window must belong to the orbit")
    else .ok seen

def validateOrbits (nextWinId : ℕ) :
    ℕ → List Orbit → Finset WinId → Except SessionSnapshotError (Finset WinId)
  | _, [], seen => .ok seen
  | index, orbit :: orbits, seen => do
    let seen ← validateOrbit nextWinId index orbit seen
    validateOrbits nextWinId (index + 1) orbits seen

/-- The bindings are one-to-one and strictly sorted by window. -/
def validateBindings :
    List SnapshotBinding → Finset WinId → Finset BackendWindowId → Option WinId →
      Except SessionSnapshotError (Finset WinId)
  | [], bound, _, _ => .ok bound
  | binding :: bindings, bound, ids, previous =>
    if binding.winId ∈ bound ∨ binding.backendId ∈ ids then
      .error (.invalid "bindings must be a one-to-one mapping")
    else if previous.any (· ≥ binding.winId) then
      .error (.invalid "bindings must be strictly sorted by window id")
    else
      validateBindings bindings (insert binding.winId bound) (insert binding.backendId ids)
        (some binding.winId)

def validate (s : SessionSnapshotV1) : Except SessionSnapshotError Unit :=
  if s.schemaVersion ≠ snapshotSchemaVersion then .error (.invalid "unsupported schema version")
  else if s.protocolVersion ≠ Realm.protocolVersion then
    .error (.invalid "protocol version mismatch")
  else if s.activeOrbit ≠ s.ledger.active then
    .error (.invalid "active orbit disagrees with ledger")
  else if s.activeOrbit.val ≥ orbitCount then .error (.invalid "active orbit is out of range")
  else if s.ledger.orbits.length ≠ orbitCount then
    .error (.invalid "ledger must contain six orbits")
  else do
    let ledgerWindows ← validateOrbits s.nextWinId 0 s.ledger.orbits ∅
    let boundWindows ← validateBindings s.bindings ∅ ∅ none
    if boundWindows ≠ ledgerWindows then
      .error (.invalid "bindings must cover the ledger exactly")
    else .ok ()

/-- The snapshot of a ledger, without its undo history. -/
def assemble (ledger : Ledger) (bindings : List SnapshotBinding) (nextWinId : ℕ) :
    SessionSnapshotV1 where
  schemaVersion := snapshotSchemaVersion
  protocolVersion := Realm.protocolVersion
  ledger := ledger.discardUndoHistory
  bindings := bindings
  nextWinId := nextWinId
  activeOrbit := ledger.active

def new (ledger : Ledger) (bindings : List SnapshotBinding) (nextWinId : ℕ) :
    Except SessionSnapshotError SessionSnapshotV1 := do
  (assemble ledger bindings nextWinId).validate
  return assemble ledger bindings nextWinId

/-! ## What the checks amount to -/

open Guard

theorem validateWindows_eq_ok : validateWindows nextWinId wins seen = .ok r ↔
      (∀ w ∈ wins, w < nextWinId) ∧ wins.Nodup ∧ (∀ w ∈ wins, w ∉ seen) ∧
        r = seen ∪ wins.toFinset := by
  induction wins generalizing seen with
  | nil =>
    simp only [validateWindows, Except.ok.injEq, not_mem_nil, false_imp_iff, implies_true,
      nodup_nil, toFinset_nil, Finset.union_empty, true_and]
    exact eq_comm
  | cons w ws ih =>
    rw [validateWindows, ite_error_eq_ok, ih]
    simp only [mem_cons, forall_eq_or_imp, nodup_cons, Finset.mem_insert,
      toFinset_cons, Finset.insert_union, Finset.union_insert]
    grind

theorem validateStowed_eq_ok {windows : List WinId} : validateStowed windows wins seen = .ok () ↔
      wins ⊆ windows ∧ wins.Nodup ∧ ∀ w ∈ wins, w ∉ seen := by
  induction wins generalizing seen with
  | nil => simp [validateStowed]
  | cons w ws ih =>
    rw [validateStowed, ite_error_eq_ok, ih]
    simp only [mem_cons, forall_eq_or_imp, nodup_cons, Finset.mem_insert, cons_subset]
    grind

theorem validateFocus_eq_ok : validateFocus orbit = .ok () ↔
      (orbit.focus = none ↔ orbit.windows = []) ∧
        ∀ k, orbit.focus = some k → k < orbit.windows.length := by
  unfold validateFocus
  cases orbit.focus with
  | none | some => by_cases h : orbit.windows = [] <;> simp [h]

theorem validateOrbit_eq_ok {index : OrbitId} : validateOrbit nextWinId index orbit seen = .ok r ↔
      orbit.WellFormed index ∧ (∀ w ∈ orbit.windows, w < nextWinId) ∧
        (∀ w ∈ orbit.windows, w ∉ seen) ∧ r = seen ∪ orbit.windows.toFinset := by
  have hname : Orbit.names[index.val]? = some (Orbit.names.get index) := by
    revert index
    decide
  unfold validateOrbit
  simp only [bind_eq_ok, ite_error_eq_ok, exists_unit_eq_ok, validateFocus_eq_ok,
    validateWindows_eq_ok, validateStowed_eq_ok, hname, Except.ok.injEq]
  constructor
  · rintro ⟨hid, hname, ⟨hnone, hlt⟩, r', ⟨hbelow, hnodup, hfresh, rfl⟩, ⟨hsub, hsnodup, _⟩,
      hfull, rfl⟩
    refine ⟨⟨?_, ?_, hnodup, hnone, hlt, hsnodup, hsub, ?_⟩, hbelow, hfresh, rfl⟩
    · exact Fin.ext (not_not.mp hid)
    · simpa using hname
    · intro w hw
      simpa [hw] using hfull
  · rintro ⟨h, hbelow, hfresh, rfl⟩
    refine ⟨by simp [h.id_eq], by simp [h.name_eq], ⟨h.focus_none, h.focus_lt⟩, _,
      ⟨hbelow, h.nodup, hfresh, rfl⟩, ⟨h.stowed_subset, h.stowed_nodup, by simp⟩, ?_, rfl⟩
    cases hw : orbit.fullscreen with
    | none => simp
    | some w => simpa using h.fullscreen_mem w hw

theorem validateOrbits_eq_ok {k : ℕ} {orbits : List Orbit} (hk : k + orbits.length ≤ 6) :
    validateOrbits nextWinId k orbits seen = .ok r ↔
      (∀ p ∈ orbits.zipIdx k, ∃ h : p.2 < 6, p.1.WellFormed ⟨p.2, h⟩ ∧
        ∀ w ∈ p.1.windows, w < nextWinId ∧ w ∉ seen) ∧
      orbits.Pairwise (fun o o' => ∀ w ∈ o.windows, w ∉ o'.windows) ∧
      r = seen ∪ (orbits.flatMap (·.windows)).toFinset := by
  induction orbits generalizing k seen with
  | nil =>
    simp only [validateOrbits, Except.ok.injEq, zipIdx_nil, not_mem_nil,
      false_imp_iff, implies_true, List.Pairwise.nil, flatMap_nil, toFinset_nil,
      Finset.union_empty, true_and]
    exact eq_comm
  | cons o os ih =>
    rw [length_cons] at hk
    have hlt : k < 6 := by omega
    have horbit r := @validateOrbit_eq_ok r seen nextWinId o ⟨k, hlt⟩
    simp only at horbit
    simp only [validateOrbits, bind_eq_ok, horbit, ih (show k + 1 + os.length ≤ 6 by omega),
      zipIdx_cons, mem_cons, forall_eq_or_imp, pairwise_cons, flatMap_cons, toFinset_append]
    have hzip : ∀ o' ∈ os, ∃ j, (o', j) ∈ os.zipIdx (k + 1) := by
      intro o' ho'
      obtain ⟨j, hj, rfl⟩ := mem_iff_getElem.mp ho'
      exact ⟨k + 1 + j, mk_mem_zipIdx_iff_le_and_getElem?_sub.mpr ⟨by omega, by simp [hj]⟩⟩
    constructor
    · rintro ⟨_, ⟨hwf, hbelow, hfresh, rfl⟩, hrest, hpair, rfl⟩
      refine ⟨⟨⟨hlt, hwf, fun w hw => ⟨hbelow w hw, hfresh w hw⟩⟩, fun p hp => ?_⟩,
        ⟨fun o' ho' w hw hw' => ?_, hpair⟩, by rw [Finset.union_assoc]⟩
      · obtain ⟨h, hwf', hp⟩ := hrest p hp
        exact ⟨h, hwf', fun w hw => ⟨(hp w hw).1, fun hs =>
          (hp w hw).2 (Finset.mem_union_left _ hs)⟩⟩
      · obtain ⟨j, hj⟩ := hzip o' ho'
        obtain ⟨_, _, hp⟩ := hrest _ hj
        exact (hp w hw').2 (Finset.mem_union_right _ (mem_toFinset.mpr hw))
    · rintro ⟨⟨⟨_, hwf, ho⟩, hrest⟩, ⟨hfirst, hpair⟩, rfl⟩
      refine ⟨_, ⟨hwf, fun w hw => (ho w hw).1, fun w hw => (ho w hw).2, rfl⟩, fun p hp => ?_,
        hpair, by rw [Finset.union_assoc]⟩
      obtain ⟨h, hwf', hp'⟩ := hrest p hp
      refine ⟨h, hwf', fun w hw => ⟨(hp' w hw).1, fun hs => ?_⟩⟩
      rcases Finset.mem_union.mp hs with hs | hs
      · exact (hp' w hw).2 hs
      · exact hfirst p.1 (fst_mem_of_mem_zipIdx hp) w (mem_toFinset.mp hs) hw

theorem validateBindings_eq_ok {bindings : List SnapshotBinding} {bound : Finset WinId}
    {ids : Finset BackendWindowId} {previous : Option WinId} :
    validateBindings bindings bound ids previous = .ok r ↔
      (bindings.map (·.winId)).Pairwise (· < ·) ∧ (bindings.map (·.backendId)).Nodup ∧
      (∀ b ∈ bindings, b.winId ∉ bound ∧ b.backendId ∉ ids) ∧
      (∀ p ∈ previous, ∀ b ∈ bindings, p < b.winId) ∧
      r = bound ∪ (bindings.map (·.winId)).toFinset := by
  induction bindings generalizing bound ids previous with
  | nil =>
    simp only [validateBindings, Except.ok.injEq, map_nil, List.Pairwise.nil,
      nodup_nil, not_mem_nil, false_imp_iff, implies_true, toFinset_nil,
      Finset.union_empty, true_and]
    exact eq_comm
  | cons b bs ih =>
    simp only [validateBindings, ite_error_eq_ok, ih, map_cons, pairwise_cons,
      nodup_cons, mem_cons, forall_eq_or_imp, Finset.mem_insert, toFinset_cons,
      Finset.insert_union, Finset.union_insert, mem_map, forall_exists_index, and_imp,
      forall_apply_eq_imp_iff₂, Option.mem_def, Option.some.injEq, forall_eq']
    constructor
    · rintro ⟨hnew, hprev, hsorted, hnodup, hfresh, hlt, rfl⟩
      simp only [not_or] at hnew hfresh
      refine ⟨⟨hlt, hsorted⟩, ⟨?_, hnodup⟩, ⟨hnew, fun c hc => ?_⟩, fun p hp => ?_, rfl⟩
      · rintro ⟨c, hc, heq⟩
        exact (hfresh c hc).2.1 heq
      · exact ⟨(hfresh c hc).1.2, (hfresh c hc).2.2⟩
      · have hpb : p < b.winId := by simpa [hp] using hprev
        exact ⟨hpb, fun c hc => hpb.trans (hlt c hc)⟩
    · rintro ⟨⟨hlt, hsorted⟩, ⟨hid, hnodup⟩, ⟨hnew, hfresh⟩, hprev, rfl⟩
      refine ⟨by tauto, ?_, hsorted, hnodup, fun c hc => ⟨?_, ?_⟩, hlt, rfl⟩
      · cases previous with
        | none => simp
        | some p => simpa using (hprev p rfl).1
      · rintro (heq | hmem)
        · exact (hlt c hc).ne' heq
        · exact (hfresh c hc).1 hmem
      · rintro (heq | hmem)
        · exact hid ⟨c, hc, heq⟩
        · exact (hfresh c hc).2 hmem

/-- What validation establishes: the versions and the active orbit agree, the
orbits are well formed with every window below the watermark, and the bindings
are a strictly sorted one-to-one mapping of exactly those windows. -/
structure Valid (s : SessionSnapshotV1) : Prop where
  schema_eq : s.schemaVersion = snapshotSchemaVersion
  protocol_eq : s.protocolVersion = Realm.protocolVersion
  active_eq : s.activeOrbit = s.ledger.active
  ledger_wf : s.ledger.snapshot.WellFormed
  below : ∀ w, s.ledger.Holds w → w < s.nextWinId
  sorted : (s.bindings.map (·.winId)).Pairwise (· < ·)
  ids_nodup : (s.bindings.map (·.backendId)).Nodup
  covers : ∀ w, w ∈ s.bindings.map (·.winId) ↔ s.ledger.Holds w

theorem mem_zipIdx_orbits (h : l.orbits.length = 6) {p : Orbit × ℕ} :
    p ∈ l.orbits.zipIdx ↔ ∃ i : OrbitId, p = (l.orbit i, i.val) := by
  obtain ⟨o, k⟩ := p
  rw [mk_mem_zipIdx_iff_getElem?]
  constructor
  · intro hk
    obtain ⟨hlt, rfl⟩ := List.getElem?_eq_some_iff.mp hk
    exact ⟨⟨k, lt_of_lt_of_eq hlt h⟩, by simp [orbit, getD_eq_getElem?_getD, hlt]⟩
  · rintro ⟨i, heq⟩
    cases heq
    have hi : (i : ℕ) < l.orbits.length := lt_of_lt_of_eq i.isLt h.symm
    simp [orbit, getD_eq_getElem?_getD, hi]

theorem pairwise_orbits_iff (h : l.orbits.length = 6) :
    l.orbits.Pairwise (fun o o' => ∀ w ∈ o.windows, w ∉ o'.windows) ↔
      ∀ (i j : OrbitId) (w : WinId), w ∈ (l.orbit i).windows → w ∈ (l.orbit j).windows → i = j := by
  have horbit (k : ℕ) (hk : k < l.orbits.length) :
      l.orbits[k] = l.orbit ⟨k, lt_of_lt_of_eq hk h⟩ := by
    simp [orbit, getD_eq_getElem?_getD, hk]
  rw [pairwise_iff_getElem]
  constructor
  · intro hpair i j w hi hj
    have hlen (i : OrbitId) : i.val < l.orbits.length := lt_of_lt_of_eq i.isLt h.symm
    rcases lt_trichotomy i.val j.val with hlt | heq | hgt
    · exact absurd (horbit j (hlen j) ▸ hj) (hpair i j (hlen i) (hlen j) hlt w
        (horbit i (hlen i) ▸ hi))
    · exact Fin.ext heq
    · exact absurd (horbit i (hlen i) ▸ hi) (hpair j i (hlen j) (hlen i) hgt w
        (horbit j (hlen j) ▸ hj))
  · intro hunique i j hi hj hlt w hw hw'
    rw [horbit] at hw hw'
    exact absurd (Fin.mk.inj (hunique _ _ w hw hw')) hlt.ne

theorem mem_flatMap_orbits (h : l.orbits.length = 6) {w : WinId} :
    w ∈ l.orbits.flatMap (·.windows) ↔ l.Holds w := by
  rw [mem_flatMap]
  constructor
  · rintro ⟨o, ho, hw⟩
    obtain ⟨k, hk, rfl⟩ := mem_iff_getElem.mp ho
    exact ⟨⟨k, lt_of_lt_of_eq hk h⟩, by
      simpa [Snapshot.orbit, snapshot, getD_eq_getElem?_getD, hk] using hw⟩
  · rintro ⟨i, hw⟩
    have hi : (i : ℕ) < l.orbits.length := lt_of_lt_of_eq i.isLt h.symm
    exact ⟨l.orbits[i.val], getElem_mem hi, by
      simpa [Snapshot.orbit, snapshot, getD_eq_getElem?_getD, hi] using hw⟩

theorem validate_eq_ok_iff (s : SessionSnapshotV1) : s.validate = .ok () ↔ s.Valid := by
  unfold validate
  simp only [ite_error_eq_ok, bind_eq_ok, not_not]
  constructor
  · rintro ⟨hschema, hprotocol, hactive, _, hlen, _, horbits, _, hbindings, hcover, -⟩
    replace hlen : s.ledger.orbits.length = 6 := hlen
    obtain ⟨hwf, hpair, rfl⟩ := (validateOrbits_eq_ok (by omega)).mp horbits
    obtain ⟨hsorted, hnodup, _, _, rfl⟩ := validateBindings_eq_ok.mp hbindings
    have hwf (i : OrbitId) := hwf _ ((mem_zipIdx_orbits hlen).mpr ⟨i, rfl⟩)
    refine ⟨hschema, hprotocol, hactive, ⟨hlen, fun i => (hwf i).2.1,
      (pairwise_orbits_iff hlen).mp hpair⟩, ?_, hsorted, hnodup, fun w => ?_⟩
    · rintro w ⟨i, hw⟩
      exact ((hwf i).2.2 w hw).1
    · rw [← mem_flatMap_orbits hlen, ← mem_toFinset, ← mem_toFinset]
      simp only [Finset.empty_union] at hcover
      rw [hcover]
  · intro h
    have hlen : s.ledger.orbits.length = 6 := h.ledger_wf.length_eq
    refine ⟨h.schema_eq, h.protocol_eq, h.active_eq, Nat.not_le.mpr s.activeOrbit.isLt, hlen, _,
      (validateOrbits_eq_ok (by omega)).mpr ⟨?_, ?_, rfl⟩, _,
      validateBindings_eq_ok.mpr ⟨h.sorted, h.ids_nodup, by simp, by simp, rfl⟩, ?_, trivial⟩
    · intro p hp
      obtain ⟨i, rfl⟩ := (mem_zipIdx_orbits hlen).mp hp
      exact ⟨i.isLt, h.ledger_wf.orbit_wf i, fun w hw => ⟨h.below w ⟨i, hw⟩, by simp⟩⟩
    · exact (pairwise_orbits_iff hlen).mpr h.ledger_wf.unique
    · ext w
      simp only [Finset.empty_union, mem_toFinset]
      rw [h.covers, mem_flatMap_orbits hlen]

end SessionSnapshotV1

/-- A snapshot as its constructors return it: it passed validation, and its
ledger carries no undo history, which is never persisted. -/
structure ValidatedSnapshot where
  snapshot : SessionSnapshotV1
  valid : snapshot.validate = .ok ()
  fresh : snapshot.ledger.history = [] ∧ snapshot.ledger.redoStack = []

end Realm
