import Realm.Session.Reduction

/-!
# Every authority is consistent

The ledger, the map of compositor identities and the id watermark belong
together: the identities map one-to-one onto exactly the windows of the ledger,
and every window is below the watermark.  Every change a session makes to an
authority preserves this, for the committed authority and for the working copy
of an active transaction, so the snapshot of a live session always validates.
-/

namespace Realm

open List Map Ledger

/-- The identities are a one-to-one map onto the windows of a well-formed
ledger, all below the watermark. -/
structure Bound (l : Ledger) (ids : Map BackendWindowId WinId) (nextWinId : ℕ) : Prop where
  ledger_wf : l.WellFormed
  injective : ∀ id id' w, ids.lookup id = some w → ids.lookup id' = some w → id = id'
  covers : ∀ w, l.Holds w ↔ ∃ id, ids.lookup id = some w
  below : ∀ w, l.Holds w → w < nextWinId

namespace Bound

variable {l l' : Ledger} {ids : Map BackendWindowId WinId} {n : ℕ} {id : BackendWindowId}
  {w : WinId} {o : OrbitId}

theorem empty : Bound Ledger.new ∅ 0 where
  ledger_wf := wellFormed_new
  injective := by simp
  covers w := by simp [not_holds_new w]
  below w hw := absurd hw (not_holds_new w)

theorem desired (h : Bound l ids n) (hl : Ledger.Desired l l') : Bound l' ids n where
  ledger_wf := hl.wf
  injective := h.injective
  covers w := (hl.holds w).trans (h.covers w)
  below w hw := h.below w ((hl.holds w).mp hw)

theorem discardUndoHistory (h : Bound l ids n) : Bound l.discardUndoHistory ids n :=
  ⟨h.ledger_wf.discardUndoHistory, h.injective, h.covers, h.below⟩

theorem holds_of_lookup (h : Bound l ids n) (hid : ids.lookup id = some w) : l.Holds w :=
  (h.covers w).mpr ⟨id, hid⟩

theorem summon_of_lookup (h : Bound l ids n) (hid : ids.lookup id = some w) : l.summon w o = l := by
  have : (l.orbitOf w).isSome := (orbitOf_isSome h.ledger_wf).mpr (h.holds_of_lookup hid)
  rw [summon, if_pos this]

theorem summon (h : Bound l ids n) (hid : ids.lookup id = none) :
    Bound (l.summon n o) (ids.insert id n) (n + 1) := by
  have hfresh : ∀ id', ids.lookup id' ≠ some n := fun id' hid' =>
    lt_irrefl n (h.below n (h.holds_of_lookup hid'))
  refine ⟨h.ledger_wf.summon n o, ?_, fun w => ?_, fun w hw => ?_⟩
  · intro id₁ id₂ w h₁ h₂
    rw [lookup_insert_eq] at h₁ h₂
    split at h₁ <;> split at h₂
    · simp_all
    · exact absurd (Option.some.inj h₁ ▸ h₂) (hfresh id₂)
    · exact absurd (Option.some.inj h₂ ▸ h₁) (hfresh id₁)
    · exact h.injective id₁ id₂ w h₁ h₂
  · rw [holds_summon h.ledger_wf, h.covers]
    constructor
    · rintro (rfl | ⟨id', hid'⟩)
      · exact ⟨id, by simp⟩
      · refine ⟨id', ?_⟩
        rw [lookup_insert_eq, if_neg]
        · exact hid'
        · rintro rfl
          simp [hid] at hid'
    · rintro ⟨id', hid'⟩
      rw [lookup_insert_eq] at hid'
      split at hid'
      · exact .inl (Option.some.inj hid').symm
      · exact .inr ⟨id', hid'⟩
  · rcases (holds_summon h.ledger_wf).mp hw with rfl | hw
    · exact Nat.lt_succ_self w
    · exact (h.below w hw).trans (Nat.lt_succ_self n)

theorem banish (h : Bound l ids n) (hid : ids.lookup id = some w) :
    Bound (l.banish w).1 (ids.erase id) n := by
  refine ⟨h.ledger_wf.banish w, ?_, fun w' => ?_, fun w' hw => ?_⟩
  · intro id₁ id₂ w' h₁ h₂
    rw [lookup_erase_eq] at h₁ h₂
    split at h₁
    · cases h₁
    split at h₂
    · cases h₂
    exact h.injective id₁ id₂ w' h₁ h₂
  · rw [holds_banish h.ledger_wf, h.covers]
    constructor
    · rintro ⟨⟨id', hid'⟩, hne⟩
      refine ⟨id', ?_⟩
      rw [lookup_erase_eq, if_neg]
      · exact hid'
      · rintro rfl
        exact hne (Option.some.inj (hid'.symm.trans hid))
    · rintro ⟨id', hid'⟩
      rw [lookup_erase_eq] at hid'
      split at hid'
      · cases hid'
      rename_i hne
      refine ⟨⟨id', hid'⟩, ?_⟩
      rintro rfl
      exact hne (h.injective id' id w' hid' hid)
  · exact h.below w' ((holds_banish h.ledger_wf).mp hw).1

theorem of_validatedSnapshot (v : ValidatedSnapshot) :
    Bound v.snapshot.ledger (v.snapshot.bindings.foldl (fun m b => m.insert b.backendId b.winId) ∅)
      v.snapshot.nextWinId := by
  have hvalid := (v.snapshot.validate_eq_ok_iff).mp v.valid
  have hlookup (id : BackendWindowId) (w : WinId) :
      (v.snapshot.bindings.foldl (fun (m : Map BackendWindowId WinId) b =>
        m.insert b.backendId b.winId) ∅).lookup id = some w ↔
      ∃ b ∈ v.snapshot.bindings, b.backendId = id ∧ b.winId = w := by
    rw [lookup_foldl_insert _ _ _ hvalid.ids_nodup]
    simp
  refine ⟨⟨hvalid.ledger_wf, by simp [v.fresh.1, v.fresh.2]⟩, ?_, fun w => ?_, hvalid.below⟩
  · intro id id' w h₁ h₂
    obtain ⟨b₁, hb₁, rfl, hw₁⟩ := (hlookup id w).mp h₁
    obtain ⟨b₂, hb₂, rfl, hw₂⟩ := (hlookup id' w).mp h₂
    have hinj := inj_on_of_nodup_map (hvalid.sorted.imp ne_of_lt)
    rw [hinj hb₁ hb₂ (hw₁.trans hw₂.symm)]
  · rw [← hvalid.covers, mem_map]
    constructor
    · rintro ⟨b, hb, rfl⟩
      exact ⟨b.backendId, (hlookup _ _).mpr ⟨b, hb, rfl, rfl⟩⟩
    · rintro ⟨id, hid⟩
      obtain ⟨b, hb, -, hw⟩ := (hlookup id w).mp hid
      exact ⟨b, hb, hw⟩

end Bound

/-- The ledger, the identities and the watermark of the authority agree. -/
def AuthorityState.Consistent (a : AuthorityState) : Prop :=
  Bound a.ledger a.backendIds a.nextWinId

namespace Session

variable {B : Type} {active active' : ActiveTransaction} {id : BackendWindowId}
  {replayed : List ReplayWindow} {a a' : AuthorityState} {backend : B}
  {events : List BackendPolicyEvent}

/-! ## The initial replay -/

theorem consistent_dropUnreplayed (h : a.Consistent) (win : WinId) :
    (dropUnreplayed replayed a win).Consistent := by
  unfold dropUnreplayed
  split
  · exact h
  rename_i id hid
  split
  · exact h
  obtain ⟨e, hfind, rfl⟩ := Option.map_eq_some_iff.mp hid
  have hwin : e.2 = win := by simpa using find?_some hfind
  have hlookup : a.backendIds.lookup e.1 = some win :=
    mem_entries.mp (hwin ▸ mem_of_find?_eq_some hfind)
  exact Bound.banish h hlookup

theorem consistent_foldl_dropUnreplayed (h : a.Consistent) (wins : List WinId) :
    (wins.foldl (dropUnreplayed replayed) a).Consistent := by
  induction wins generalizing a with
  | nil => exact h
  | cons win wins ih => exact ih (consistent_dropUnreplayed h win)

theorem consistent_allocateReplayed (h : a.Consistent) (id : BackendWindowId) :
    (allocateReplayed a id).2.Consistent := by
  unfold allocateReplayed
  split
  · exact h
  · rename_i hnone
    exact Bound.summon h hnone

section Replay

variable [WmBackend B] {backend' : B}

theorem consistent_bindReplayed {windows : List ReplayWindow} (h : a.Consistent)
    (hbind : bindReplayed backend a windows = (.ok a', backend')) : a'.Consistent := by
  induction windows generalizing backend a with
  | nil =>
    obtain rfl : a = a' := by simpa [bindReplayed] using congrArg Prod.fst hbind
    exact h
  | cons window windows ih =>
    simp only [bindReplayed] at hbind
    split at hbind
    · simp at hbind
    · refine ih ?_ hbind
      exact consistent_allocateReplayed h window.backendId

theorem consistent_reduceInitialReplay {active active' : ActiveTransaction}
    (h : active.working.Consistent)
    (hreduce : reduceInitialReplay backend active events = (.ok active', backend')) :
    active'.working.Consistent := by
  obtain ⟨facts, a, _, hbind, rfl⟩ := exists_reduceInitialReplay hreduce
  have hbound : a.Consistent := by
    refine consistent_bindReplayed ?_ hbind
    exact consistent_foldl_dropUnreplayed h _
  exact Bound.discardUndoHistory hbound

end Replay

/-! ## Later turns -/

theorem consistent_of_desired (h : a.Consistent) (hidentities : a'.identities = a.identities)
    (hledger : a.ledger.WellFormed → Ledger.Desired a.ledger a'.ledger) : a'.Consistent := by
  simp only [AuthorityState.identities, Prod.mk.injEq] at hidentities
  unfold AuthorityState.Consistent
  rw [hidentities.1, hidentities.2.2.2]
  exact Bound.desired h (hledger h.ledger_wf)

theorem Rewrites.consistent {event : BackendPolicyEvent} (h : Rewrites a event a')
    (hc : a.Consistent) : a'.Consistent := by
  cases h with
  | opened halloc =>
    unfold allocateOpened at halloc
    split at halloc
    · rename_i hwin
      cases halloc
      unfold AuthorityState.Consistent
      rw [hc.summon_of_lookup hwin]
      exact hc
    · rename_i hnone
      split at halloc <;> cases halloc
      exact Bound.summon hc hnone
  | closed hwin => exact Bound.banish hc hwin
  | titled => exact hc
  | keeps _ hidentities hledger => exact consistent_of_desired hc hidentities hledger

theorem Reductions.consistent (h : Reductions active events active')
    (hc : active.working.Consistent) : active'.working.Consistent := by
  induction h with
  | nil => exact hc
  | cons h _ ih => exact ih (h.rewrites.consistent hc)

/-! ## Whole runs -/

/-- The committed authority has a property, and so has the working copy of an active
transaction. -/
structure Upholds (P : AuthorityState → Prop) (s : Session B) : Prop where
  committed : P s.currentAuthority
  working : ∀ active ∈ s.active, P active.working

section Upholds

variable {P : AuthorityState → Prop} {s s' : Session B} {outcome : Option SessionUpdate}

theorem Upholds.turnBase (h : s.Upholds P) : P s.turnBase := by
  unfold Session.turnBase
  cases hactive : s.active with
  | none => exact h.committed
  | some active => exact h.working active hactive

/-- The property depends on the identities alone, apart from the changes a user desires. -/
def Lasts (P : AuthorityState → Prop) : Prop :=
  ∀ {a a' : AuthorityState}, P a → a'.identities = a.identities →
    (a.ledger.WellFormed → Ledger.Desired a.ledger a'.ledger) → P a'

theorem Lasts.same (hP : Lasts P) (h : P a) (hidentities : a'.identities = a.identities)
    (hledger : a'.ledger = a.ledger) : P a' :=
  hP h hidentities fun hwf => hledger.symm ▸ Ledger.Desired.refl hwf

theorem Lasts.finalizeActive (hP : Lasts P) (h : P active.working) :
    (s.finalizeActive active).2.Upholds P := by
  obtain ⟨_, _, _, _, heq⟩ := s.exists_finalizeActive active
  rw [heq]
  exact ⟨hP.same h rfl rfl, by simp⟩

theorem Lasts.settles (hP : Lasts P) (h : Settles s outcome s') (hs : s.Upholds P) :
    s'.Upholds P := by
  cases h with
  | nothing => exact hs
  | @commits active _ h =>
    have hactive : P active.working := hP hs.committed h.alters.identities h.alters.ledger
    unfold commitAtOnce
    obtain ⟨state, heq⟩ := publishCurrentState_snd (s.installAuthority active.working) false
    simp only [heq]
    exact ⟨hP.same hactive rfl rfl, hs.working⟩
  | toggles hready =>
    simp only [toggleWhichkey, hready]
    exact ⟨hP.same hs.committed rfl rfl, hs.working⟩
  | updates hready hne =>
    simp only [updateModules, hready, hne]
    exact ⟨hP.same hs.committed rfl rfl, hs.working⟩

variable [WmBackend B] {event : BackendEvent}

theorem Lasts.owned (hP : Lasts P) (h : Owned s outcome s') (hs : s.Upholds P) : s'.Upholds P := by
  cases h with
  | quiet h => exact hP.settles h hs
  | admits h =>
    refine ⟨hs.committed, ?_⟩
    rintro _ ⟨⟩
    exact hP hs.committed h.alters.identities h.alters.ledger
  | refused | leaves => exact ⟨hs.committed, by simp [abandonPrivateTransaction]⟩
  | exits => exact ⟨hs.committed, hs.working⟩

/-- The turns that validate keep the property. -/
def Turns (B : Type) [WmBackend B] (P : AuthorityState → Prop) : Prop :=
  ∀ {s : Session B} {turn : BackendPolicyTurn} {active : ActiveTransaction} {backend : B},
    P s.turnBase → s.validatePolicyTurn turn = .ok () →
      s.reduceTurn turn.events = (.ok active, backend) → P active.working

theorem Lasts.handled (hP : Lasts P) (hturn : Turns B P) {update : SessionUpdate}
    (h : Handled s event update s') (hs : s.Upholds P) : s'.Upholds P := by
  cases h with
  | @turn _ _ _ _ _ _ submission hvalid _ hreduce =>
    have hactive := hturn hs.turnBase hvalid hreduce
    cases submission with
    | complete => exact hP.finalizeActive hactive
    | pending =>
      refine ⟨hs.committed, ?_⟩
      rintro active' ⟨⟩
      exact hactive
  | completed => exact ⟨hs.committed, hs.working⟩
  | drained _ hactive => exact hP.finalizeActive (hs.working _ hactive)

theorem Upholds.failed (h : Failed s event s') (hs : s.Upholds P) : s'.Upholds P := by
  cases h with
  | unpaired => exact hs
  | _ => exact ⟨hs.committed, by simp [abandonPrivateTransaction]⟩

theorem Lasts.step (hP : Lasts P) (hturn : Turns B P) (hs : s.Upholds P) (call : Call B) :
    (s.step call).Upholds P := by
  have hstep := s.step_spec call
  generalize s.outcome call = outcome, s.step call = s' at hstep
  cases hstep with
  | acts _ h =>
    cases h with
    | owned h => exact hP.owned h hs
    | _ => exact ⟨hs.committed, hs.working⟩
  | drops => exact ⟨hs.committed, by simp [abandonPrivateTransaction]⟩
  | handles _ h => exact hP.handled hturn h hs
  | fails h => exact hs.failed h

end Upholds

/-- The committed authority is consistent, and so is the working copy of an
active transaction. -/
structure Consistent (s : Session B) : Prop where
  committed : s.currentAuthority.Consistent
  working : ∀ active ∈ s.active, active.working.Consistent

variable {s : Session B}

theorem Consistent.bound (h : s.Consistent) : Bound s.ledger s.backendIds s.nextWinId :=
  h.committed

section Calls

variable [WmBackend B]

theorem turns_consistent : Turns B AuthorityState.Consistent := by
  intro s turn active backend hs _ h
  rw [← openTurn_working] at hs
  unfold reduceTurn at h
  split at h
  · exact consistent_reduceInitialReplay hs h
  · exact (reductions_reducePolicyEvents h).consistent hs

theorem Consistent.step (hs : s.Consistent) (call : Call B) : (s.step call).Consistent :=
  let h := Lasts.step consistent_of_desired turns_consistent ⟨hs.committed, hs.working⟩ call
  ⟨h.committed, h.working⟩

theorem consistent_of_connect {snapshot : Option ValidatedSnapshot} {keymap : Keymap}
    (h : connect backend snapshot keymap = .ok s) : s.Consistent := by
  have hfresh := fresh_of_connect h
  refine ⟨?_, by simp [hfresh.active]⟩
  change Bound s.ledger s.backendIds s.nextWinId
  rw [hfresh.ledger, hfresh.backendIds, hfresh.nextWinId]
  cases snapshot with
  | none => exact Bound.empty
  | some v => exact Bound.of_validatedSnapshot v

theorem Reachable.consistent (h : Reachable s) : s.Consistent :=
  h.invariant consistent_of_connect fun _ call hs => hs.step call

end Calls

/-! ## The snapshot -/

theorem mem_snapshotBindings {b : SnapshotBinding} :
    b ∈ s.snapshotBindings ↔ s.backendIds.lookup b.backendId = some b.winId := by
  rw [snapshotBindings, mem_insertionSort, mem_map, ← mem_entries]
  constructor
  · rintro ⟨e, he, rfl⟩
    exact he
  · intro h
    exact ⟨_, h, rfl⟩

theorem Consistent.snapshot_valid (h : s.Consistent) :
    (SessionSnapshotV1.assemble s.ledger s.snapshotBindings s.nextWinId).Valid := by
  have hperm : s.snapshotBindings.Perm (s.backendIds.entries.map fun e => ⟨e.2, e.1⟩) :=
    perm_insertionSort _ _
  have hids : (s.snapshotBindings.map (·.backendId)).Nodup := by
    have := (hperm.map (·.backendId)).nodup_iff.mpr
    refine this ?_
    rw [map_map]
    exact s.backendIds.nodupKeys
  have hwins : (s.snapshotBindings.map (·.winId)).Nodup := by
    refine List.Nodup.map_on ?_ (List.Nodup.of_map _ hids)
    intro b hb b' hb' heq
    rw [mem_snapshotBindings] at hb hb'
    have hid := h.bound.injective _ _ _ hb (heq ▸ hb')
    cases b
    cases b'
    simp_all
  refine ⟨rfl, rfl, rfl, h.bound.ledger_wf.now, h.bound.below, ?_, hids, fun w => ?_⟩
  · have hsorted : s.snapshotBindings.Pairwise (fun a b => a.winId ≤ b.winId) :=
      pairwise_insertionSort _ _
    have hle := pairwise_map.mpr hsorted
    exact hle.imp₂ (fun _ _ hle hne => lt_of_le_of_ne hle hne) hwins
  · refine Iff.trans ?_ (h.bound.covers w).symm
    rw [mem_map]
    constructor
    · rintro ⟨b, hb, rfl⟩
      exact ⟨b.backendId, mem_snapshotBindings.mp hb⟩
    · rintro ⟨id, hid⟩
      exact ⟨⟨w, id⟩, mem_snapshotBindings.mpr hid, rfl⟩

theorem Consistent.snapshotResult_eq (h : s.Consistent) : s.snapshotResult =
    .ok (SessionSnapshotV1.assemble s.ledger s.snapshotBindings s.nextWinId) := by
  rw [snapshotResult, SessionSnapshotV1.new,
    (SessionSnapshotV1.validate_eq_ok_iff _).mpr h.snapshot_valid]
  rfl

theorem Consistent.snapshot_eq (h : s.Consistent) (hlive : s.phase = .live) : s.snapshot =
    some (SessionSnapshotV1.assemble s.ledger s.snapshotBindings s.nextWinId) := by
  rw [snapshot, if_pos hlive, h.snapshotResult_eq]
  rfl

/-- In every reachable live session the snapshot is built without a panic: it
passes validation. -/
theorem exists_snapshot_of_live [WmBackend B] (h : Reachable s) (hlive : s.phase = .live) :
    ∃ snap, s.snapshotResult = .ok snap ∧ s.snapshot = some snap ∧ snap.validate = .ok () ∧
      snap.Valid ∧ snap.ledger = s.ledger.discardUndoHistory ∧
      snap.bindings = s.snapshotBindings ∧ snap.nextWinId = s.nextWinId := by
  have hvalid := h.consistent.snapshot_valid
  exact ⟨_, h.consistent.snapshotResult_eq, h.consistent.snapshot_eq hlive,
    (SessionSnapshotV1.validate_eq_ok_iff _).mpr hvalid, hvalid, rfl, rfl, rfl⟩

/-- A backend that completes every response at once. -/
structure PromptBackend where

instance : WmBackend PromptBackend where
  connect b := (.ok (), b)
  assignWindow b _ _ := (.ok (), b)
  configureBindings b _ := (.ok (), b)
  requestPolicyTurn b := (.ok (), b)
  respondPolicyTurn b _ _ _ := (.ok .complete, b)
  beginExitSession b _ := (.ok (), b)
  pollInterest _ := ⟨false, true, false⟩
  service b _ _ := (.ok none, b)

def firstTurn : BackendPolicyTurnId := ⟨1, by decide, by decide⟩

def secondTurn : BackendPolicyTurnId := ⟨2, by decide, by decide⟩

def term0 : BackendWindowId := ⟨"term-0", by decide⟩

def term1 : BackendWindowId := ⟨"term-1", by decide⟩

def term2 : BackendWindowId := ⟨"term-2", by decide⟩

/-- The replay turn of one terminal window, and the turn that reports the first
workarea. -/
def promptTurns : List (Call PromptBackend) :=
  [.backendEvent (.policyTurn ⟨firstTurn, none,
     [.windowOpened term1 "foot" "shell", .initialReplayComplete]⟩),
   .backendEvent (.policyTurn ⟨secondTurn, none,
     [.workareaChanged (Workarea.new 1920 1080 32 26)]⟩)]

theorem exists_snapshot_of_live_prompt :
    ∃ s : Session PromptBackend, s.phase = .live ∧ s.ledger.len = 1 ∧
      ∃ snap, s.snapshot = some snap ∧ snap.validate = .ok () := by
  have hconnect : ∃ s, connect (PromptBackend.mk) none Keymap.default = .ok s ∧
      (promptTurns.foldl step s).phase = .live ∧ (promptTurns.foldl step s).ledger.len = 1 :=
    ⟨_, rfl, by decide +kernel, by decide +kernel⟩
  obtain ⟨s, hs, hlive, hlen⟩ := hconnect
  obtain ⟨snap, -, hsnap, hok, -⟩ :=
    exists_snapshot_of_live ((Reachable.connect hs).foldl promptTurns) hlive
  exact ⟨_, hlive, hlen, snap, hsnap, hok⟩

end Session

end Realm
