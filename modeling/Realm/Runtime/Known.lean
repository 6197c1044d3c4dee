import Realm.River.Facts
import Realm.Session.Replay

/-!
# The identities a session knows

A fact about a window is accepted when the session knows the identity it names.  The
session learns identities from the opens of its turns and forgets them with the closes,
so the identities known after a turn are those known before it, advanced by its facts.
-/

namespace Realm

open River List AList AuthorityState

variable {win : WinId}

namespace AuthorityState

variable {a a' : AuthorityState} {id : BackendWindowId}

/-- The identities that facts may name: bound ones with a window on record. -/
def knownIds (a : AuthorityState) : Finset BackendWindowId :=
  ((a.backendIds.entries.filter fun e =>
    e.1 ∈ a.boundBackendIds ∧ e.2 ∈ a.windows).map (·.1)).toFinset

theorem mem_knownIds : id ∈ a.knownIds ↔
    ∃ win, a.backendIds.lookup id = some win ∧ id ∈ a.boundBackendIds ∧ win ∈ a.windows := by
  simp only [knownIds, mem_toFinset, mem_map, mem_filter, decide_eq_true_eq]
  constructor
  · rintro ⟨e, ⟨he, hbound, hwindow⟩, rfl⟩
    exact ⟨e.2, Map.mem_entries.mp he, hbound, hwindow⟩
  · rintro ⟨win, hid, hbound, hwindow⟩
    exact ⟨⟨id, win⟩, ⟨Map.mem_entries.mpr hid, hbound, hwindow⟩, rfl⟩

theorem knownIds_of_identities (h : a'.identities = a.identities) : a'.knownIds = a.knownIds := by
  simp only [identities, Prod.mk.injEq] at h
  simp only [knownIds, h]

/-- An identity has a window, and nothing else has changed. -/
structure Allocates (a : AuthorityState) (id : BackendWindowId) (win : WinId)
    (a' : AuthorityState) : Prop where
  lookup : a'.backendIds.lookup id = some win
  others : ∀ id', id' ≠ id → a'.backendIds.lookup id' = a.backendIds.lookup id'
  windows : a'.windows = a.windows
  bound : a'.boundBackendIds = a.boundBackendIds

theorem Allocates.knownIds {metadata : WindowMetadata} {c : AuthorityState}
    (h : Allocates a id win c)
    (hinjective : ∀ id id' win, c.backendIds.lookup id = some win →
      c.backendIds.lookup id' = some win → id = id')
    (hids : a'.backendIds = c.backendIds) (hwindows : a'.windows = c.windows.insert win metadata)
    (hbound : a'.boundBackendIds = insert id c.boundBackendIds) :
    a'.knownIds = insert id a.knownIds := by
  ext id'
  rw [Finset.mem_insert, mem_knownIds, mem_knownIds, hids, hwindows, hbound, h.windows, h.bound]
  by_cases hsame : id' = id
  · subst hsame
    simp [h.lookup]
  simp only [h.others id' hsame, hsame, Finset.mem_insert, mem_insert, false_or]
  constructor
  · rintro ⟨win', hid', hmem, rfl | hwindow⟩
    · exact absurd (hinjective id' id win' ((h.others id' hsame).trans hid') h.lookup) hsame
    · exact ⟨win', hid', hmem, hwindow⟩
  · rintro ⟨win', hid', hmem, hwindow⟩
    exact ⟨win', hid', hmem, .inr hwindow⟩

theorem knownIds_drop (hid : a.backendIds.lookup id = some win)
    (hinjective : ∀ id', a.backendIds.lookup id' = some win → id' = id)
    (hids : a'.backendIds = a.backendIds.erase id) (hwindows : a'.windows = a.windows.erase win)
    (hbound : a'.boundBackendIds = a.boundBackendIds.erase id) :
    a'.knownIds = a.knownIds.erase id := by
  ext id'
  rw [Finset.mem_erase, mem_knownIds, mem_knownIds, hids, hwindows, hbound, Map.lookup_erase_eq]
  by_cases hsame : id' = id
  · simp [hsame]
  simp only [ne_eq, hsame, not_false_eq_true, true_and, Finset.mem_erase, mem_erase]
  constructor
  · rintro ⟨win', hid', hmem, -, hwindow⟩
    exact ⟨win', hid', hmem, hwindow⟩
  · rintro ⟨win', hid', hmem, hwindow⟩
    refine ⟨win', hid', hmem, ?_, hwindow⟩
    rintro rfl
    exact hsame (hinjective id' hid')

end AuthorityState

namespace Session

variable {B : Type} {s : Session B} {active active' : ActiveTransaction} {a a' : AuthorityState}
  {id : BackendWindowId} {events : List BackendPolicyEvent}

/-! ## Later turns -/

theorem allocates_allocateOpened (h : allocateOpened a id = .ok (win, a')) :
    a.Allocates id win a' := by
  unfold allocateOpened at h
  split at h
  · cases h
    exact ⟨‹_›, fun _ _ => rfl, rfl, rfl⟩
  · split at h
    · cases h
    · cases h
      exact ⟨lookup_insert _, fun _ hne => lookup_insert_ne hne, rfl, rfl⟩

theorem Rewrites.knownIds {event : BackendPolicyEvent} (h : Rewrites a event a')
    (hc : a.Consistent) : a'.knownIds = advance a.knownIds event := by
  have hinjective := (h.consistent hc).injective
  cases h with
  | opened halloc => exact (allocates_allocateOpened halloc).knownIds hinjective rfl rfl rfl
  | @closed id win hid =>
    exact knownIds_drop hid (fun id' hid' => hc.injective id' id win hid' hid)
      rfl rfl rfl
  | @titled _ win _ metadata hmetadata =>
    have hwin : win ∈ a.windows := Map.mem_iff_lookup.mpr ⟨metadata, hmetadata⟩
    ext id'
    simp only [advance, mem_knownIds, mem_insert]
    refine exists_congr fun win' => and_congr_right fun _ => and_congr_right fun _ => ?_
    exact or_iff_right_of_imp fun heq => heq ▸ hwin
  | keeps hrebinds hidentities =>
    rw [knownIds_of_identities hidentities]
    cases event with
    | windowOpened _ _ _ | windowClosed _ => cases hrebinds
    | _ => rfl

theorem Reductions.knownIds (h : Reductions active events active')
    (hc : active.working.Consistent) :
    active'.working.knownIds = events.foldl advance active.working.knownIds := by
  induction h with
  | nil => rfl
  | cons h _ ih =>
    rw [ih (h.rewrites.consistent hc), h.rewrites.knownIds hc, foldl_cons]

/-! ## The initial replay -/

variable [WmBackend B] {backend backend' : B}

theorem allocates_allocateReplayed (a : AuthorityState) (id : BackendWindowId) :
    a.Allocates id (allocateReplayed a id).1 (allocateReplayed a id).2 := by
  unfold allocateReplayed
  split
  · exact ⟨‹_›, fun _ _ => rfl, rfl, rfl⟩
  · exact ⟨lookup_insert _, fun _ hne => lookup_insert_ne hne, rfl, rfl⟩

theorem mem_knownIds_bindReplayed {windows : List ReplayWindow} (hc : a.Consistent)
    (h : bindReplayed backend a windows = (.ok a', backend')) :
    id ∈ a'.knownIds ↔ id ∈ a.knownIds ∨ id ∈ windows.map (·.backendId) := by
  induction windows generalizing backend a with
  | nil =>
    obtain rfl : a = a' := by simpa [bindReplayed] using congrArg Prod.fst h
    simp
  | cons window windows ih =>
    simp only [bindReplayed] at h
    split at h
    · simp at h
    have hallocated := consistent_allocateReplayed hc window.backendId
    rw [ih ?consistent h, (allocates_allocateReplayed a window.backendId).knownIds
      hallocated.injective ?ids ?windows ?bound, Finset.mem_insert, map_cons, mem_cons]
    · tauto
    case consistent => exact hallocated
    case ids => rfl
    case windows => rfl
    case bound => rfl

theorem mem_foldl_advance {focus exclusive : ℕ}
    (h : checkReplayEvents events focus exclusive = .ok ()) {known : Finset BackendWindowId}
    {ids : List BackendWindowId} (hids : ∀ id, id ∈ known ↔ id ∈ ids) (id : BackendWindowId) :
    id ∈ events.foldl advance known ↔ id ∈ reportedIds events ids := by
  induction events generalizing focus exclusive known ids with
  | nil => exact hids id
  | cons event events ih =>
    cases event with
    | windowOpened =>
      refine ih h fun id' => ?_
      simp only [advance, Finset.mem_insert, hids]
      grind
    | focusChanged _ | exclusiveFocusChanged _ =>
      simp only [checkReplayEvents] at h
      split at h
      · cases h
      · exact ih h hids
    | initialReplayComplete => exact ih h hids
    | _ => cases h

theorem knownIds_reduceInitialReplay
    (hc : active.working.Consistent) (hreplay : checkReplayEvents events 0 0 = .ok ())
    (h : reduceInitialReplay backend active events = (.ok active', backend')) :
    active'.working.knownIds = events.foldl advance ∅ := by
  obtain ⟨facts, a, hfacts, hbind, rfl⟩ := exists_reduceInitialReplay h
  ext id
  have hids : facts.replayed.map (·.backendId) = reportedIds events [] := collectReplay_ids hfacts
  have hnone (id : BackendWindowId) : id ∈ (∅ : Finset BackendWindowId) ↔ id ∈ [] := by simp
  rw [mem_foldl_advance hreplay hnone id, ← hids]
  refine (mem_knownIds_bindReplayed ?_ hbind).trans (or_iff_right ?_)
  · exact consistent_foldl_dropUnreplayed hc _
  · simp [mem_knownIds]

end Session

end Realm
