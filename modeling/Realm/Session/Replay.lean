import Realm.Core.Focus
import Realm.Session.Authority

/-!
# The initial replay

A restarted session begins with the ledger of its snapshot.  The initial replay turn
reports the windows that still exist: the persisted windows among them keep their ids,
orbits and order, the others are dropped one after the other, and every identity the
snapshot does not know gets a fresh id and enters the active orbit.
-/

namespace Realm

open Guard List Map Ledger

variable {l : Ledger} {id : BackendWindowId} {w win : WinId}

theorem Bound.lookup_erase {ids : Map BackendWindowId WinId} {n : ℕ} (h : Bound l ids n)
    (hid : ids.lookup id = some w) (id' : BackendWindowId) (w' : WinId) :
    (ids.erase id).lookup id' = some w' ↔ ids.lookup id' = some w' ∧ w' ≠ w := by
  rw [lookup_erase_eq]
  by_cases heq : id' = id
  · subst heq
    rw [if_pos rfl, hid]
    simp [eq_comm]
  · rw [if_neg heq]
    refine ⟨fun hw => ⟨hw, ?_⟩, And.left⟩
    rintro rfl
    exact heq (h.injective id' id w' hw hid)

namespace Ledger

variable {l : Ledger} {n k : ℕ}

/-- Enter windows with consecutive ids into the active orbit. -/
def summonFrom (l : Ledger) (n k : ℕ) : Ledger :=
  (List.range' n k).foldl (fun l w => l.summon w l.active) l

theorem summonFrom_succ (l : Ledger) (n k : ℕ) :
    l.summonFrom n (k + 1) = (l.summon n l.active).summonFrom (n + 1) k := rfl

theorem active_summon (l : Ledger) (win : WinId) (i : OrbitId) :
    (l.summon win i).active = l.active := by
  unfold summon
  split <;> rfl

theorem filter_insertIdx {α : Type*} {p : α → Bool} {a : α} (ha : p a = false) (as : List α)
    (k : ℕ) : (as.insertIdx k a).filter p = as.filter p := by
  induction as generalizing k with
  | nil => cases k <;> simp [ha]
  | cons b as ih =>
    cases k with
    | zero => simp [ha]
    | succ => rw [insertIdx_succ_cons, filter_cons, filter_cons, ih]

theorem orbit_summon (h : l.WellFormed) (hwin : ¬ l.Holds win) (i j : OrbitId) :
    (l.summon win i).orbit j = if i = j then (l.orbit j).insertWindow win else l.orbit j := by
  rw [summon, if_neg (mt (orbitOf_isSome h).mp hwin)]
  exact Snapshot.orbit_modifyOrbit h.now.length_eq i j _

/-- Windows with `k` ids from `n` on entered the active orbit of `l`, and every orbit kept
its other windows in order and its stowed ones. -/
structure Summoned (l l' : Ledger) (n k : ℕ) : Prop where
  active_eq : l'.active = l.active
  mem : ∀ j (w : ℕ), w ∈ (l'.orbit j).windows ↔
    w ∈ (l.orbit j).windows ∨ j = l.active ∧ n ≤ w ∧ w < n + k
  order : ∀ j (p : WinId → Bool), (∀ w : ℕ, n ≤ w → p w = false) →
    (l'.orbit j).windows.filter p = (l.orbit j).windows.filter p
  stowed : ∀ j, (l'.orbit j).stowed = (l.orbit j).stowed

theorem summonFrom_spec (h : l.WellFormed) (hfresh : ∀ w, l.Holds w → w < n) (k : ℕ) :
    Summoned l (l.summonFrom n k) n k := by
  induction k generalizing l n with
  | zero => exact ⟨rfl, fun j w => by simp [summonFrom], fun _ _ _ => rfl, fun _ => rfl⟩
  | succ k ih =>
    have hn : ¬ l.Holds n := fun hn => absurd (hfresh n hn) (lt_irrefl n)
    have horbit := orbit_summon h hn l.active
    obtain ⟨hactive, hmem, horder, hstowed⟩ := ih (h.summon n l.active) (n := n + 1)
      fun w hw => by
        rcases (holds_summon h).mp hw with rfl | hw
        · exact Nat.lt_succ_self w
        · exact (hfresh w hw).trans (Nat.lt_succ_self n)
    rw [summonFrom_succ]
    refine ⟨hactive.trans (l.active_summon n l.active), fun j w => ?_, fun j p hp => ?_,
      fun j => ?_⟩
    · rw [hmem, horbit, active_summon]
      by_cases hj : l.active = j
      · rw [if_pos hj, Orbit.mem_insertWindow]
        by_cases hw : w ∈ (l.orbit j).windows
        · simp [hw]
        · simp only [hj, hw, or_false, false_or, eq_self, true_and]
          constructor
          · rintro (rfl | hlater) <;> omega
          · rintro ⟨hle, hlt⟩
            exact hle.eq_or_lt.imp Eq.symm fun hlater => ⟨hlater, by omega⟩
      · rw [if_neg hj]
        simp [Ne.symm hj]
    · rw [horder j p fun w hw => hp w (by omega), horbit]
      split
      · exact filter_insertIdx (hp n le_rfl) _ _
      · rfl
    · rw [hstowed, horbit]
      split <;> rfl

end Ledger

namespace Session

variable {B : Type} {events : List BackendPolicyEvent} {a : AuthorityState} {id : BackendWindowId}
  {c c' : TurnCheck} {ids : List BackendWindowId}

/-! ## The reported identities -/

/-- The identities that events report after others, each at its first report. -/
def reportedIds : List BackendPolicyEvent → List BackendWindowId → List BackendWindowId
  | [], ids => ids
  | .windowOpened id _ _ :: events, ids =>
    reportedIds events (if id ∈ ids then ids else ids ++ [id])
  | _ :: events, ids => reportedIds events ids

theorem nodup_reportedIds (h : ids.Nodup) : (reportedIds events ids).Nodup := by
  fun_induction reportedIds events ids with
  | case1 => exact h
  | case2 id _ _ events ids ih =>
    apply ih
    split
    · exact h
    · exact h.append (nodup_singleton id) (by simpa using ‹id ∉ ids›)
  | case3 _ _ _ _ ih => exact ih h

theorem recordReplayed_ids (replayed : List ReplayWindow) (window : ReplayWindow) :
    (recordReplayed replayed window).map (·.backendId) =
      if window.backendId ∈ replayed.map (·.backendId) then replayed.map (·.backendId)
      else replayed.map (·.backendId) ++ [window.backendId] := by
  have hany : (replayed.any fun r => r.backendId = window.backendId) = true ↔
      window.backendId ∈ replayed.map (·.backendId) := by
    simp
  simp only [recordReplayed]
  by_cases hmem : window.backendId ∈ replayed.map (·.backendId)
  · rw [if_pos (hany.mpr hmem), if_pos hmem, map_map]
    refine map_congr_left fun r _ => ?_
    simp only [Function.comp_apply]
    split
    · exact ‹r.backendId = window.backendId›.symm
    · rfl
  · rw [if_neg (mt hany.mp hmem), if_neg hmem, map_append, map_singleton]

theorem collectReplay_ids {facts facts' : ReplayFacts}
    (h : collectReplay events facts = .ok facts') :
    facts'.replayed.map (·.backendId) = reportedIds events (facts.replayed.map (·.backendId)) := by
  induction events generalizing facts with
  | nil =>
    cases h
    rfl
  | cons event events ih =>
    cases event with
    | windowOpened =>
      rw [ih h, reportedIds, recordReplayed_ids]
    | focusChanged focus => exact @ih { facts with effectiveFocus := focus } h
    | exclusiveFocusChanged exclusive =>
      exact @ih { facts with exclusiveFocus := exclusive } h
    | initialReplayComplete => exact ih h
    | _ => cases h

theorem exists_collectReplay {focus exclusive : ℕ}
    (h : checkReplayEvents events focus exclusive = .ok ()) (facts : ReplayFacts) :
    ∃ facts', collectReplay events facts = .ok facts' := by
  induction events generalizing focus exclusive facts with
  | nil => exact ⟨facts, rfl⟩
  | cons event events ih =>
    cases event with
    | windowOpened | initialReplayComplete => exact ih h _
    | focusChanged | exclusiveFocusChanged =>
      simp only [checkReplayEvents] at h
      split at h
      · cases h
      · exact ih h _
    | _ => cases h

/-! ## Dropping what was not replayed -/

theorem identityOf_eq_some (h : a.Consistent) (hid : a.backendIds.lookup id = some win) :
    identityOf a win = some id := by
  have hsome : (a.backendIds.entries.find? fun e => e.2 = win).isSome := by
    rw [find?_isSome]
    exact ⟨⟨id, win⟩, mem_entries.mpr hid, by simp⟩
  obtain ⟨e, he⟩ := Option.isSome_iff_exists.mp hsome
  have hwin : e.2 = win := by simpa using find?_some he
  have hlookup : a.backendIds.lookup e.1 = some win :=
    mem_entries.mp (hwin ▸ mem_of_find?_eq_some he)
  rw [identityOf, he, Option.map_some, h.injective e.1 id win hlookup hid]

theorem dropUnreplayed_eq (replayed : List ReplayWindow) (h : a.Consistent)
    (hid : a.backendIds.lookup id = some win) : dropUnreplayed replayed a win =
      if id ∈ replayed.map (·.backendId) then a else { a with
        ledger := (a.ledger.banish win).1
        backendIds := a.backendIds.erase id } := by
  have hany : (replayed.any fun r => r.backendId = id) = true ↔
      id ∈ replayed.map (·.backendId) := by
    simp
  simp only [dropUnreplayed, identityOf_eq_some h hid, hany]

/-- Dropping the windows of a list removes those that were not replayed from the ledger,
one after the other, and their identities with them. -/
theorem foldl_dropUnreplayed (replayed : List ReplayWindow) (dropped : WinId → Bool)
    {wins : List WinId} (h : a.Consistent) (hnodup : wins.Nodup)
    (hheld : ∀ w ∈ wins, a.ledger.Holds w)
    (hdropped : ∀ w ∈ wins, ∀ id, a.backendIds.lookup id = some w →
      (dropped w = true ↔ id ∉ replayed.map (·.backendId))) : ∃ ids : Map BackendWindowId WinId,
      wins.foldl (dropUnreplayed replayed) a =
        { a with ledger := a.ledger.banishAll (wins.filter dropped), backendIds := ids } ∧
      ∀ id w, ids.lookup id = some w ↔
        a.backendIds.lookup id = some w ∧ (w ∈ wins → dropped w = false) := by
  induction wins generalizing a with
  | nil => exact ⟨a.backendIds, rfl, fun id w => by simp⟩
  | cons win wins ih =>
    obtain ⟨hwin, hnodup⟩ := nodup_cons.mp hnodup
    obtain ⟨id, hid⟩ := (h.covers win).mp (hheld win mem_cons_self)
    have hstep := dropUnreplayed_eq replayed h hid
    have hdrop := hdropped win mem_cons_self id hid
    by_cases hmem : id ∈ replayed.map (·.backendId)
    · have hstays : dropped win = false := by simpa [hmem] using hdrop
      rw [if_pos hmem] at hstep
      obtain ⟨ids, hfold, hlookup⟩ := ih h hnodup
        (fun w hw => hheld w (mem_cons_of_mem win hw))
        (fun w hw => hdropped w (mem_cons_of_mem win hw))
      refine ⟨ids, ?_, fun id' w => ?_⟩
      · rw [foldl_cons, hstep, hfold, filter_cons_of_neg (by simp [hstays])]
      · rw [hlookup, mem_cons, or_imp]
        exact and_congr_right fun _ => ⟨fun hw => ⟨fun heq => heq ▸ hstays, hw⟩, And.right⟩
    · have hleaves : dropped win = true := by simpa [hmem] using hdrop
      rw [if_neg hmem] at hstep
      have herase := h.lookup_erase hid
      obtain ⟨ids, hfold, hlookup⟩ := ih (a := { a with
          ledger := (a.ledger.banish win).1
          backendIds := a.backendIds.erase id }) (Bound.banish h hid) hnodup
        (fun w hw => (holds_banish h.ledger_wf).mpr
          ⟨hheld w (mem_cons_of_mem win hw), fun heq => hwin (heq ▸ hw)⟩)
        (fun w hw id' hid' => hdropped w (mem_cons_of_mem win hw) id' ((herase id' w).mp hid').1)
      refine ⟨ids, ?_, fun id' w => ?_⟩
      · rw [foldl_cons, hstep, hfold, filter_cons_of_pos hleaves]
        rfl
      · rw [hlookup, herase, mem_cons, or_imp, and_assoc]
        refine and_congr_right fun _ => and_congr_left fun _ => ?_
        constructor
        · exact fun hne heq => absurd heq hne
        · intro hkeep heq
          rw [heq] at hkeep
          simp [hleaves] at hkeep

/-! ## Binding what was replayed -/

/-- The reported identities an authority does not know. -/
def unknownIds (a : AuthorityState) (ids : List BackendWindowId) : List BackendWindowId :=
  ids.filter (· ∉ a.backendIds)

theorem unknownIds_insert {a' : AuthorityState} (hid : id ∉ ids)
    (ha : a'.backendIds = a.backendIds.insert id win) : unknownIds a' ids = unknownIds a ids := by
  refine filter_congr fun id' hid' => ?_
  have hne : id' ≠ id := fun heq => hid (heq ▸ hid')
  simp [ha, hne]

section Bind

variable [WmBackend B] {windows : List ReplayWindow} {backend backend' : B} {a' : AuthorityState}

theorem bindReplayed_eq_error {error : SessionEventError}
    (h : bindReplayed backend a windows = (.error error, backend')) :
    ∃ window ∈ windows, ∃ (b : B) (win : WinId) (refused : BackendContractError),
      WmBackend.assignWindow b window.backendId win = (.error refused, backend') ∧
        error = .backendContract refused := by
  induction windows generalizing backend a with
  | nil => simp [bindReplayed] at h
  | cons window windows ih =>
    simp only [bindReplayed] at h
    split at h
    · rename_i refused _ hassign
      obtain ⟨herror, rfl⟩ := Prod.mk.inj h
      exact ⟨window, by simp, _, _, refused, hassign, (Except.error.inj herror).symm⟩
    · obtain ⟨refusing, hmem, h⟩ := ih h
      exact ⟨refusing, mem_cons_of_mem _ hmem, h⟩

/-- Binding gives every unknown identity the next id and enters it into the active orbit,
in order. -/
theorem bindReplayed_eq_ok (hnodup : (windows.map (·.backendId)).Nodup)
    (h : bindReplayed backend a windows = (.ok a', backend')) :
    a'.ledger = a.ledger.summonFrom a.nextWinId (unknownIds a (windows.map (·.backendId))).length ∧
      ∀ id, a'.backendIds.lookup id = (a.backendIds.lookup id).or
        (((unknownIds a (windows.map (·.backendId))).idxOf? id).map (a.nextWinId + ·)) := by
  induction windows generalizing backend a with
  | nil =>
    obtain rfl : a = a' := by simpa [bindReplayed] using congrArg Prod.fst h
    exact ⟨rfl, fun id => by simp [unknownIds]⟩
  | cons window windows ih =>
    obtain ⟨hnew, hnodup⟩ := nodup_cons.mp hnodup
    simp only [bindReplayed] at h
    split at h
    · simp at h
    obtain ⟨hledger, hids⟩ := ih hnodup h
    cases hlookup : a.backendIds.lookup window.backendId with
    | some =>
      have hknown : window.backendId ∈ a.backendIds := by
        rw [← AList.lookup_isSome, hlookup]
        rfl
      have hunknown : unknownIds a ((window :: windows).map (·.backendId)) =
          unknownIds a (windows.map (·.backendId)) :=
        filter_cons_of_neg (by simpa using hknown)
      simp only [allocateReplayed, hlookup] at hledger hids
      rw [hunknown]
      exact ⟨hledger, hids⟩
    | none =>
      have hknown : window.backendId ∉ a.backendIds := by
        rw [← AList.lookup_isSome, hlookup]
        simp
      simp only [allocateReplayed, hlookup] at hledger hids
      have hunknown : unknownIds a ((window :: windows).map (·.backendId)) =
          window.backendId :: unknownIds a (windows.map (·.backendId)) :=
        filter_cons_of_pos (by simpa using hknown)
      rw [unknownIds_insert hnew rfl] at hledger hids
      rw [hunknown]
      refine ⟨hledger, fun id => ?_⟩
      rw [hids, lookup_insert_eq, idxOf?_cons]
      by_cases heq : id = window.backendId
      · subst heq
        simp [hlookup]
      · simp [heq, Ne.symm heq, Function.comp_def, Nat.add_right_comm, Nat.add_assoc]

end Bind

/-! ## Validation of a replay -/

theorem checkEvent_opened (s : Session B)
    {appId title : String} (h : s.checkEvent true c (.windowOpened id appId title) = .ok c') :
    (id ∈ c.mapped ∧ c'.mapped = c.mapped ∧ c'.nextWinId = c.nextWinId) ∨
      (id ∉ c.mapped ∧ c.nextWinId ≠ u64Max ∧ c'.mapped = insert id c.mapped ∧
        c'.nextWinId = c.nextWinId + 1) := by
  simp only [checkEvent, ite_error_eq_ok, Except.ok.injEq] at h
  obtain ⟨hroom, _, rfl⟩ := h
  by_cases hid : id ∈ c.mapped
  · exact .inl ⟨hid, by simp [hid], by simp [hid]⟩
  · exact .inr ⟨hid, fun hmax => hroom ⟨hid, hmax⟩, by simp [hid], by simp [hid]⟩

theorem checkEvent_other (s : Session B) {event : BackendPolicyEvent}
    (hevent : ∀ id appId title, event ≠ .windowOpened id appId title)
    (h : s.checkEvent true c event = .ok c') :
    c'.mapped = c.mapped ∧ c'.nextWinId = c.nextWinId := by
  cases event with
  | windowOpened id appId title => exact absurd rfl (hevent id appId title)
  | windowClosed => simp [checkEvent, ite_error_eq_ok] at h
  | focusChanged focus =>
    cases focus with
    | none =>
      cases h
      exact ⟨rfl, rfl⟩
    | some =>
      simp only [checkEvent, ite_error_eq_ok, Except.ok.injEq] at h
      obtain ⟨_, rfl⟩ := h
      exact ⟨rfl, rfl⟩
  | bindingPressed =>
    simp only [checkEvent] at h
    split at h
    · cases h
    · simp only [ite_error_eq_ok] at h
      obtain ⟨_, h⟩ := h
      split at h
      · cases h
        exact ⟨rfl, rfl⟩
      · cases h
        exact ⟨rfl, rfl⟩
  | bindingReleased | bindingRepeatStopped =>
    simp only [checkEvent] at h
    split at h
    · cases h
    · simp only [ite_error_eq_ok, Except.ok.injEq] at h
      exact ⟨by rw [h.2], by rw [h.2]⟩
  | titleChanged | workareaChanged | geometryDrifted => cases h
  | exclusiveFocusChanged | initialReplayComplete =>
    cases h
    exact ⟨rfl, rfl⟩
  | unboundKeyEaten | modifiersChanged =>
    simp only [checkEvent, ite_error_eq_ok, Except.ok.injEq] at h
    exact ⟨by rw [h.2], by rw [h.2]⟩

theorem checkEvents_room (s : Session B)
    (known ids : List BackendWindowId) (n : ℕ) (h : s.checkEvents true events c = .ok c')
    (hmapped : ∀ id, id ∈ c.mapped ↔ id ∈ known ∨ id ∈ ids)
    (hnext : c.nextWinId = n + (ids.filter (· ∉ known)).length) (hle : c.nextWinId ≤ u64Max) :
    n + ((reportedIds events ids).filter (· ∉ known)).length ≤ u64Max := by
  induction events generalizing c ids with
  | nil => rwa [reportedIds, ← hnext]
  | cons event events ih =>
    obtain ⟨c₁, hevent, hevents⟩ := bind_eq_ok.mp h
    by_cases hopened : ∃ id appId title, event = .windowOpened id appId title
    · obtain ⟨id, appId, title, rfl⟩ := hopened
      rw [reportedIds]
      rcases s.checkEvent_opened hevent with ⟨hid, hm, hn⟩ | ⟨hid, hmax, hm, hn⟩
      · refine ih _ hevents (fun id' => ?_) (hn.trans (hnext.trans ?_)) (hn.trans_le hle)
        · rw [hm, hmapped]
          split
          · rfl
          · rw [mem_append, mem_singleton, ← or_assoc]
            exact ⟨.inl, fun hid' => hid'.elim (fun h => h) fun heq => heq ▸ (hmapped id).mp hid⟩
        · split
          · rfl
          · have hknown := ((hmapped id).mp hid).resolve_right ‹id ∉ ids›
            rw [filter_append, filter_cons_of_neg (by simpa using hknown)]
            simp
      · obtain ⟨hknown, hids⟩ := not_or.mp (mt (hmapped id).mpr hid)
        rw [if_neg hids]
        refine ih _ hevents (fun id' => ?_) ?_ (by omega)
        · rw [hm, Finset.mem_insert, hmapped, mem_append, mem_singleton]
          tauto
        · rw [hn, hnext, filter_append, filter_cons_of_pos (by simpa using hknown)]
          simp [Nat.add_assoc]
    · push Not at hopened
      obtain ⟨hm, hn⟩ := s.checkEvent_other hopened hevent
      have hids : reportedIds (event :: events) ids = reportedIds events ids := by
        cases event with
        | windowOpened id appId title => exact absurd rfl (hopened id appId title)
        | _ => rfl
      rw [hids]
      exact ih ids hevents (fun id => hm ▸ hmapped id) (hn.trans hnext) (hn.trans_le hle)

/-! ## The recovered authority -/

/-- The session works on the ledger, the identities and the watermark of the snapshot. -/
structure Restores (v : SessionSnapshotV1) (a : AuthorityState) : Prop where
  ledger_eq : a.ledger = v.ledger
  ids_eq : a.backendIds = v.bindings.foldl (fun m b => m.insert b.backendId b.winId) ∅
  next_eq : a.nextWinId = v.nextWinId

end Session

namespace SessionSnapshotV1

/-- The window of the snapshot has a reported identity. -/
def survives (v : SessionSnapshotV1) (reported : List BackendWindowId) (win : WinId) : Bool :=
  v.bindings.any fun b => b.winId = win && b.backendId ∈ reported

/-- The reported identities the snapshot does not bind, in order. -/
def unbound (v : SessionSnapshotV1) (reported : List BackendWindowId) : List BackendWindowId :=
  reported.filter (· ∉ v.bindings.map (·.backendId))

/-- The ledger that recovery makes of the snapshot: without the windows that were not
reported, and with one for every unbound identity. -/
def reconciled (v : SessionSnapshotV1) (reported : List BackendWindowId) : Ledger :=
  ((v.ledger.banishAll ((v.ledger.orbits.flatMap (·.windows)).filter
    (!v.survives reported ·))).summonFrom v.nextWinId (v.unbound reported).length
    ).discardUndoHistory

/-- The authority after a replay of the reported identities over the snapshot. -/
structure Recovered (v : SessionSnapshotV1) (reported : List BackendWindowId)
    (a : AuthorityState) : Prop where
  /-- The windows are exactly those of the reported identities. -/
  windows : ∀ w, a.ledger.Holds w ↔ ∃ id ∈ reported, a.backendIds.lookup id = some w
  identities : ∀ id, id ∈ a.backendIds ↔ id ∈ reported
  distinct : ∀ id id' w, a.backendIds.lookup id = some w → a.backendIds.lookup id' = some w →
    id = id'
  /-- A bound identity keeps its window, and the window its orbit, order and stow mark. -/
  kept : ∀ b ∈ v.bindings, b.backendId ∈ reported →
    a.backendIds.lookup b.backendId = some b.winId
  order : ∀ i, (a.ledger.orbit i).windows.filter (v.survives reported) =
    (v.ledger.orbit i).windows.filter (v.survives reported)
  stowed : ∀ i, (a.ledger.orbit i).stowed = (v.ledger.orbit i).stowed.filter (v.survives reported)
  /-- An unbound identity gets the next id in report order, in the active orbit. -/
  fresh : ∀ (k : ℕ) (id : BackendWindowId), (v.unbound reported)[k]? = some id →
    a.backendIds.lookup id = some (v.nextWinId + k) ∧
      v.nextWinId + k ∈ (a.ledger.orbit v.activeOrbit).windows
  active_eq : a.ledger.active = v.activeOrbit
  history_nil : a.ledger.history = [] ∧ a.ledger.redoStack = []

end SessionSnapshotV1

namespace ValidatedSnapshot

variable {v : ValidatedSnapshot} {a : AuthorityState} {reported : List BackendWindowId}

theorem lookup_restored (ha : Session.Restores v.snapshot a) (id : BackendWindowId) (w : WinId) :
    a.backendIds.lookup id = some w ↔
      ∃ b ∈ v.snapshot.bindings, b.backendId = id ∧ b.winId = w := by
  have hvalid := (v.snapshot.validate_eq_ok_iff).mp v.valid
  rw [ha.ids_eq, lookup_foldl_insert _ _ _ hvalid.ids_nodup]
  simp

theorem consistent_restored (ha : Session.Restores v.snapshot a) : a.Consistent := by
  unfold AuthorityState.Consistent
  rw [ha.ledger_eq, ha.ids_eq, ha.next_eq]
  exact Bound.of_validatedSnapshot v

theorem survives_iff (ha : Session.Restores v.snapshot a) (hid : a.backendIds.lookup id = some w) :
    v.snapshot.survives reported w = true ↔ id ∈ reported := by
  simp only [SessionSnapshotV1.survives, any_eq_true, Bool.and_eq_true, decide_eq_true_eq]
  constructor
  · rintro ⟨b, hb, hwin, hmem⟩
    have hlookup := (lookup_restored ha b.backendId w).mpr ⟨b, hb, rfl, hwin⟩
    rwa [(consistent_restored ha).injective id b.backendId w hid hlookup]
  · intro hmem
    obtain ⟨b, hb, rfl, hwin⟩ := (lookup_restored ha id w).mp hid
    exact ⟨b, hb, hwin, hmem⟩

theorem lt_of_survives (hw : v.snapshot.survives reported w = true) : w < v.snapshot.nextWinId := by
  have hvalid := (v.snapshot.validate_eq_ok_iff).mp v.valid
  simp only [SessionSnapshotV1.survives, any_eq_true, Bool.and_eq_true, decide_eq_true_eq] at hw
  obtain ⟨b, hb, rfl, _⟩ := hw
  exact hvalid.below _ ((hvalid.covers _).mp (mem_map_of_mem hb))

end ValidatedSnapshot

theorem Ledger.nodup_flatMap_windows (h : l.WellFormed) : (l.orbits.flatMap (·.windows)).Nodup := by
  refine nodup_flatMap.mpr ⟨fun o ho => ?_, ?_⟩
  · obtain ⟨i, rfl⟩ := exists_orbit_of_mem h ho
    exact (h.orbit_wf i).nodup
  · have hpair := (SessionSnapshotV1.pairwise_orbits_iff h.now.length_eq).mpr h.now.unique
    exact hpair.imp fun hdisjoint w hw hw' => hdisjoint w hw hw'

theorem Ledger.orbit_banishAll_windows (h : l.WellFormed) (dropped : WinId → Bool) (i : OrbitId) :
    ((l.banishAll ((l.orbits.flatMap (·.windows)).filter dropped)).orbit i).windows =
        (l.orbit i).windows.filter (!dropped ·) ∧
      ((l.banishAll ((l.orbits.flatMap (·.windows)).filter dropped)).orbit i).stowed =
        (l.orbit i).stowed.filter (!dropped ·) := by
  have hwf := h.orbit_wf i
  rw [orbit_banishAll_filter h, Orbit.windows_foldl_banished hwf, Orbit.stowed_foldl_banished hwf]
  exact ⟨filter_congr fun w hw => by simp [hw],
    filter_congr fun w hw => by simp [hwf.stowed_subset hw]⟩

namespace Session

open SessionSnapshotV1 ValidatedSnapshot

variable {s : Session B} {v : ValidatedSnapshot} {a a' : AuthorityState} {turn : BackendPolicyTurn}

/-- The authority when every window that was not replayed is dropped. -/
structure Dropped (v : SessionSnapshotV1) (reported : List BackendWindowId) (a : AuthorityState) :
    Prop where
  consistent : a.Consistent
  ledger_eq : a.ledger = v.ledger.banishAll ((v.ledger.orbits.flatMap (·.windows)).filter
    (!v.survives reported ·))
  lookup : ∀ id w, a.backendIds.lookup id = some w ↔
    id ∈ reported ∧ ∃ b ∈ v.bindings, b.backendId = id ∧ b.winId = w
  next_eq : a.nextWinId = v.nextWinId

theorem dropped_of_foldl (ha : Restores v.snapshot a)
    (replayed : List ReplayWindow) : Dropped v.snapshot (replayed.map (·.backendId))
      ((a.ledger.orbits.flatMap (·.windows)).foldl (dropUnreplayed replayed) a) := by
  have hc := consistent_restored ha
  have hmem (w : WinId) : w ∈ a.ledger.orbits.flatMap (·.windows) ↔ a.ledger.Holds w :=
    mem_flatMap_orbits hc.ledger_wf.now.length_eq
  obtain ⟨ids, hfold, hlookup⟩ := foldl_dropUnreplayed replayed
    (!v.snapshot.survives (replayed.map (·.backendId)) ·) hc
    (nodup_flatMap_windows hc.ledger_wf) (fun w hw => (hmem w).mp hw)
    (fun w _ id hid => by
      rw [Bool.not_eq_true', ← Bool.not_eq_true, survives_iff ha hid])
  refine ⟨consistent_foldl_dropUnreplayed hc _, ?_, fun id w => ?_, ?_⟩
  · rw [hfold, ha.ledger_eq]
  · rw [hfold]
    refine (hlookup id w).trans ?_
    rw [← lookup_restored ha]
    constructor
    · rintro ⟨hid, hw⟩
      have hheld := (hmem w).mpr (hc.holds_of_lookup hid)
      exact ⟨(survives_iff ha hid).mp (by simpa using hw hheld), hid⟩
    · rintro ⟨hreported, hid⟩
      exact ⟨hid, fun _ => by simpa using (survives_iff ha hid).mpr hreported⟩
  · rw [hfold, ← ha.next_eq]

theorem unknownIds_of_dropped {v : SessionSnapshotV1} {reported : List BackendWindowId}
    (h : Dropped v reported a) : unknownIds a reported = v.unbound reported := by
  refine filter_congr fun id hid => ?_
  have hiff : id ∈ a.backendIds ↔ id ∈ v.bindings.map (·.backendId) := by
    rw [mem_iff_lookup, mem_map]
    constructor
    · rintro ⟨w, hw⟩
      obtain ⟨_, b, hb, hbid, _⟩ := (h.lookup id w).mp hw
      exact ⟨b, hb, hbid⟩
    · rintro ⟨b, hb, hbid⟩
      exact ⟨b.winId, (h.lookup id b.winId).mpr ⟨hid, b, hb, hbid, rfl⟩⟩
  simp only [hiff]

theorem validatePolicyTurn_replay (hphase : s.phase = .initialReplay)
    (h : s.validatePolicyTurn turn = .ok ()) : checkReplayEvents turn.events 0 0 = .ok () ∧
      ∃ c, s.checkEvents true turn.events (s.initialCheck true) = .ok c := by
  simp only [validatePolicyTurn, hphase, decide_true, bind_eq_ok, ite_error_eq_ok]
    at h
  obtain ⟨_, _, _, hbarrier, _, c, hcheck, _⟩ := h
  simp only [checkBarrier, if_true, ite_error_eq_ok] at hbarrier
  exact ⟨hbarrier.2, c, hcheck⟩

theorem unknown_le_of_accepted (hphase : s.phase = .initialReplay)
    (hnext : s.turnBase.nextWinId ≤ u64Max) (hturn : s.validatePolicyTurn turn = .ok ()) :
    (unknownIds s.turnBase (reportedIds turn.events [])).length ≤
      u64Max - s.turnBase.nextWinId := by
  obtain ⟨_, c, hcheck⟩ := validatePolicyTurn_replay hphase hturn
  have hroom := s.checkEvents_room s.turnBase.backendIds.keys [] s.turnBase.nextWinId hcheck
    (by simp [initialCheck]) (by simp [initialCheck]) hnext
  have hsame : unknownIds s.turnBase (reportedIds turn.events []) =
      (reportedIds turn.events []).filter (· ∉ s.turnBase.backendIds.keys) :=
    filter_congr fun id _ => by simp [AList.mem_keys]
  rw [hsame]
  omega

section Replays

variable [WmBackend B]

theorem recovered_of_bind {replayed : List ReplayWindow}
    {backend backend' : B} (h : Dropped v.snapshot (replayed.map (·.backendId)) a)
    (hnodup : (replayed.map (·.backendId)).Nodup)
    (hbind : bindReplayed backend a replayed = (.ok a', backend')) :
    a'.ledger.discardUndoHistory = v.snapshot.reconciled (replayed.map (·.backendId)) ∧
      v.snapshot.Recovered (replayed.map (·.backendId))
        { a' with ledger := a'.ledger.discardUndoHistory } := by
  have hvalid := (v.snapshot.validate_eq_ok_iff).mp v.valid
  have hwf : v.snapshot.ledger.WellFormed := (Bound.of_validatedSnapshot v).ledger_wf
  have hconsistent := consistent_bindReplayed h.consistent hbind
  obtain ⟨hledger, hlookup⟩ := bindReplayed_eq_ok hnodup hbind
  rw [unknownIds_of_dropped h, h.next_eq] at hledger hlookup
  generalize replayed.map (·.backendId) = reported at *
  have hbelow : ∀ w, a.ledger.Holds w → w < v.snapshot.nextWinId := fun w hw =>
    h.next_eq ▸ h.consistent.below w hw
  have hsummoned := summonFrom_spec h.consistent.ledger_wf hbelow (v.snapshot.unbound
    reported).length
  rw [← hledger] at hsummoned
  have hfresh : ∀ (k : ℕ) (id : BackendWindowId),
      (v.snapshot.unbound reported)[k]? = some id →
        a'.backendIds.lookup id = some (v.snapshot.nextWinId + k) := by
    intro k id hk
    have hunbound := (mem_filter.mp (mem_of_getElem? hk)).2
    have hnone : a.backendIds.lookup id = none := by
      refine Option.eq_none_iff_forall_ne_some.mpr fun w hw => ?_
      obtain ⟨_, b, hb, hbid, _⟩ := (h.lookup id w).mp hw
      exact absurd (mem_map.mpr ⟨b, hb, hbid⟩) (by simpa using hunbound)
    have hindex : (v.snapshot.unbound reported).idxOf? id = some k := by
      obtain ⟨hlt, rfl⟩ := List.getElem?_eq_some_iff.mp hk
      exact List.idxOf?_eq_some_iff.mpr ⟨hlt, rfl, fun j hj heq =>
        absurd ((hnodup.filter _).getElem_inj_iff.mp heq) (by omega)⟩
    rw [hlookup, hnone, hindex]
    rfl
  have hkept : ∀ b ∈ v.snapshot.bindings, b.backendId ∈ reported →
      a'.backendIds.lookup b.backendId = some b.winId := by
    intro b hb hid
    rw [hlookup, (h.lookup b.backendId b.winId).mpr ⟨hid, b, hb, rfl, rfl⟩]
    rfl
  have hidentities : ∀ id, id ∈ a'.backendIds ↔ id ∈ reported := by
    intro id
    rw [mem_iff_lookup]
    constructor
    · rintro ⟨w, hw⟩
      rw [hlookup, Option.or_eq_some_iff] at hw
      rcases hw with hw | ⟨_, hw⟩
      · exact ((h.lookup id w).mp hw).1
      · obtain ⟨k, hk, _⟩ := Option.map_eq_some_iff.mp hw
        obtain ⟨hlt, hget, _⟩ := List.idxOf?_eq_some_iff.mp hk
        exact mem_of_mem_filter (hget ▸ getElem_mem hlt)
    · intro hid
      by_cases hbound : id ∈ v.snapshot.bindings.map (·.backendId)
      · obtain ⟨b, hb, rfl⟩ := mem_map.mp hbound
        exact ⟨b.winId, hkept b hb hid⟩
      · have hmem : id ∈ v.snapshot.unbound reported :=
          mem_filter.mpr ⟨hid, by simpa using hbound⟩
        obtain ⟨k, hk⟩ := mem_iff_getElem?.mp hmem
        exact ⟨_, hfresh k id hk⟩
  have hactive : a.ledger.active = v.snapshot.activeOrbit := by
    rw [h.ledger_eq, active_banishAll, hvalid.active_eq]
  have hwindows (i : OrbitId) := orbit_banishAll_windows hwf
    (!v.snapshot.survives reported ·) i
  rw [← h.ledger_eq] at hwindows
  simp only [Bool.not_not] at hwindows
  refine ⟨by rw [hledger, h.ledger_eq]; rfl, ?_⟩
  refine ⟨fun w => ?_, hidentities, hconsistent.injective, hkept, fun i => ?_, fun i => ?_,
    fun k id hk => ⟨hfresh k id hk, ?_⟩, hsummoned.active_eq.trans hactive, rfl, rfl⟩
  · refine (hconsistent.covers w).trans (exists_congr fun id => ?_)
    exact ⟨fun hid => ⟨(hidentities id).mp (mem_iff_lookup.mpr ⟨w, hid⟩), hid⟩, And.right⟩
  · refine (hsummoned.order i _ fun w hw => ?_).trans ?_
    · rw [← Bool.not_eq_true]
      exact fun hsurvives => absurd (lt_of_survives hsurvives) (Nat.not_lt.mpr hw)
    · rw [(hwindows i).1, filter_filter]
      simp
  · exact (hsummoned.stowed i).trans (hwindows i).2
  · refine (hsummoned.mem _ _).mpr (.inr ⟨hactive.symm, Nat.le_add_right _ _, ?_⟩)
    exact Nat.add_lt_add_left (List.getElem?_eq_some_iff.mp hk).1 _

/-- Recovery from a restored authority fails only when the backend refuses a window. -/
theorem reduceTurn_recovers (hphase : s.phase = .initialReplay)
    (hrestores : Restores v.snapshot s.turnBase) (hnext : v.snapshot.nextWinId ≤ u64Max)
    (hturn : s.validatePolicyTurn turn = .ok ()) :
    (∀ error backend, s.reduceTurn turn.events = (.error error, backend) →
      ∃ id ∈ reportedIds turn.events [], ∃ (b : B) (win : WinId) (refused : BackendContractError),
        WmBackend.assignWindow b id win = (.error refused, backend) ∧
          error = .backendContract refused) ∧
    ∀ active backend, s.reduceTurn turn.events = (.ok active, backend) →
      active.working.ledger = v.snapshot.reconciled (reportedIds turn.events []) ∧
        v.snapshot.Recovered (reportedIds turn.events []) active.working := by
  obtain ⟨hreplay, c, hcheck⟩ := validatePolicyTurn_replay hphase hturn
  obtain ⟨facts, hfacts⟩ := exists_collectReplay hreplay {}
  have hids : facts.replayed.map (·.backendId) = reportedIds turn.events [] :=
    collectReplay_ids hfacts
  have hroom := unknown_le_of_accepted hphase (hrestores.next_eq ▸ hnext) hturn
  have hunknown : (facts.replayed.filter fun r => r.backendId ∉ s.turnBase.backendIds).length =
      (unknownIds s.turnBase (reportedIds turn.events [])).length := by
    rw [← hids, unknownIds, filter_map, length_map]
    rfl
  have hdropped := dropped_of_foldl hrestores facts.replayed
  simp only [reduceTurn, hphase, if_true, reduceInitialReplay, hfacts, openTurn_working, hunknown]
  rw [if_neg (Nat.not_lt.mpr hroom)]
  split
  · rename_i error backend hbind
    refine ⟨fun error' backend' h => ?_, fun active backend h => by simp at h⟩
    obtain ⟨herror, rfl⟩ := Prod.mk.inj h
    cases herror
    obtain ⟨window, hwindow, hrefused⟩ := bindReplayed_eq_error hbind
    exact ⟨window.backendId, hids ▸ mem_map.mpr ⟨window, hwindow, rfl⟩, hrefused⟩
  · rename_i a backend hbind
    refine ⟨fun error backend h => by simp at h, fun active backend h => ?_⟩
    obtain ⟨hactive, _⟩ := Prod.mk.inj h
    cases hactive
    have hrecovered := recovered_of_bind (v := v) ?_ (hids ▸ nodup_reportedIds nodup_nil) hbind
    · rw [hids] at hrecovered
      obtain ⟨hledger, h₁, h₂, h₃, h₄, h₅, h₆, h₇, h₈, h₉⟩ := hrecovered
      exact ⟨hledger, h₁, h₂, h₃, h₄, h₅, h₆, h₇, h₈, h₉⟩
    · exact ⟨hdropped.consistent, hdropped.ledger_eq, hdropped.lookup, hdropped.next_eq⟩

end Replays

end Session

end Realm
