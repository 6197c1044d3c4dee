import Realm.Core.Ledger
import Mathlib.Data.List.Nodup
import Mathlib.Tactic.Common

/-!
# Well-formed ledgers

A well-formed ledger has six orbits in canonical order, holds every window at
most once, and keeps focus, stow and fullscreen marks inside the windows of
their orbit; its undo and redo snapshots are well formed and hold the same
windows.  Every operation preserves this, and each says which windows the ledger
holds afterwards: a desired change holds the same ones, `summon` adds its window
and `banish` removes it.
-/

namespace Realm

open List Snapshot Orbit

variable {w : WinId} {k : ℕ}

namespace Orbit

/-- The marks of an orbit stay inside its windows. -/
structure WellFormed (i : OrbitId) (o : Orbit) : Prop where
  id_eq : o.id = i
  name_eq : o.name = names.get i
  nodup : o.windows.Nodup
  focus_none : o.focus = none ↔ o.windows = []
  focus_lt : ∀ k, o.focus = some k → k < o.windows.length
  stowed_nodup : o.stowed.Nodup
  stowed_subset : o.stowed ⊆ o.windows
  fullscreen_mem : ∀ w, o.fullscreen = some w → w ∈ o.windows

variable {o : Orbit} {i : OrbitId} {win : WinId}

theorem wellFormed_new (i : OrbitId) : (new i).WellFormed i := by
  constructor <;> simp [new]

theorem slotAfterFocus_le (o : Orbit) : o.slotAfterFocus ≤ o.windows.length :=
  min_le_right _ _

theorem mem_insertWindow : w ∈ (o.insertWindow win).windows ↔ w = win ∨ w ∈ o.windows := by
  simp only [insertWindow]
  rw [mem_insertIdx o.slotAfterFocus_le]

theorem WellFormed.insertWindow (h : o.WellFormed i) (hwin : win ∉ o.windows) :
    (o.insertWindow win).WellFormed i where
  id_eq := h.id_eq
  name_eq := h.name_eq
  nodup := by
    have hperm := perm_insertIdx win o.windows o.slotAfterFocus_le
    exact hperm.nodup_iff.mpr (nodup_cons.mpr ⟨hwin, h.nodup⟩)
  focus_none := by
    have : win ∈ (o.insertWindow win).windows := mem_insertWindow.mpr (.inl rfl)
    simp only [Orbit.insertWindow, reduceCtorEq, false_iff]
    exact ne_nil_of_mem this
  focus_lt := by
    rintro k ⟨⟩
    simp only [Orbit.insertWindow, length_insertIdx_of_le_length o.slotAfterFocus_le]
    exact Nat.lt_succ_of_le o.slotAfterFocus_le
  stowed_nodup := h.stowed_nodup
  stowed_subset w hw := mem_insertWindow.mpr (.inr (h.stowed_subset hw))
  fullscreen_mem w hw := mem_insertWindow.mpr (.inr (h.fullscreen_mem w hw))

theorem mem_removeWindow (h : o.windows.Nodup) (hk : o.windows[k]? = some win) :
    w ∈ (o.removeWindow k win).windows ↔ w ∈ o.windows ∧ w ≠ win := by
  obtain ⟨hlt, rfl⟩ := List.getElem?_eq_some_iff.mp hk
  simp only [removeWindow]
  rw [← h.erase_getElem k hlt, h.mem_erase_iff]
  exact and_comm

theorem WellFormed.removeWindow (h : o.WellFormed i) (hk : o.windows[k]? = some win) (hint : ℕ) :
    ((o.removeWindow k win).reseatFocus hint).WellFormed i where
  id_eq := h.id_eq
  name_eq := h.name_eq
  nodup := h.nodup.sublist (eraseIdx_sublist o.windows k)
  focus_none := by
    simp only [reseatFocus]
    split <;> simp_all
  focus_lt := by
    intro j hj
    simp only [reseatFocus] at hj ⊢
    split at hj
    · cases hj
    · rename_i hne
      have := length_pos_iff.mpr (by simpa using hne)
      simp only [Option.some.injEq] at hj
      omega
  stowed_nodup := h.stowed_nodup.filter _
  stowed_subset := by
    intro w hw
    obtain ⟨hw, hne⟩ := mem_filter.mp hw
    exact (mem_removeWindow h.nodup hk).mpr ⟨h.stowed_subset hw, by simpa using hne⟩
  fullscreen_mem := by
    intro w hw
    simp only [reseatFocus, Orbit.removeWindow] at hw
    split at hw
    · cases hw
    · rename_i hne
      refine (mem_removeWindow h.nodup hk).mpr ⟨h.fullscreen_mem w hw, ?_⟩
      rintro rfl
      exact hne hw

theorem mem_of_focused (h : o.focused = some win) : win ∈ o.windows := by
  obtain ⟨k, _, hk⟩ := Option.bind_eq_some_iff.mp h
  exact mem_of_getElem? hk

end Orbit

namespace Snapshot

variable {f : Orbit → Orbit}

def orbit (s : Snapshot) (i : OrbitId) : Orbit := s.orbits.getD i (Orbit.new i)

def Holds (s : Snapshot) (w : WinId) : Prop := ∃ i, w ∈ (s.orbit i).windows

/-- Six orbits in canonical order, each well formed, no window in two of them. -/
structure WellFormed (s : Snapshot) : Prop where
  length_eq : s.orbits.length = 6
  orbit_wf : ∀ i, (s.orbit i).WellFormed i
  unique : ∀ i j w, w ∈ (s.orbit i).windows → w ∈ (s.orbit j).windows → i = j

variable {s : Snapshot} {i : OrbitId}

def modifyOrbit (s : Snapshot) (i : OrbitId) (f : Orbit → Orbit) : Snapshot :=
  { s with orbits := s.orbits.modify i f }

theorem orbit_modifyOrbit (h : s.orbits.length = 6) (i j : OrbitId) (f : Orbit → Orbit) :
    (s.modifyOrbit i f).orbit j = if i = j then f (s.orbit j) else s.orbit j := by
  have hj : (j : ℕ) < s.orbits.length := by omega
  simp only [orbit, modifyOrbit, getD_eq_getElem?_getD, getElem?_modify,
    List.getElem?_eq_getElem hj, Fin.ext_iff]
  split <;> rfl

/-- Changing one orbit keeps the snapshot well formed when the new orbit is, and
takes no window from another orbit. -/
theorem WellFormed.modifyOrbit (h : s.WellFormed) (hf : (f (s.orbit i)).WellFormed i)
    (hnew : ∀ w ∈ (f (s.orbit i)).windows, w ∈ (s.orbit i).windows ∨ ¬ s.Holds w) :
    (s.modifyOrbit i f).WellFormed where
  length_eq := by simpa [Snapshot.modifyOrbit] using h.length_eq
  orbit_wf j := by
    rw [orbit_modifyOrbit h.length_eq]
    split
    · rename_i heq
      exact heq ▸ hf
    · exact h.orbit_wf j
  unique := by
    intro j k w hj hk
    rw [orbit_modifyOrbit h.length_eq] at hj hk
    have hother : ∀ j, w ∈ (f (s.orbit i)).windows → w ∈ (s.orbit j).windows → i = j := by
      intro j hw hj
      rcases hnew w hw with hold | hfresh
      · exact h.unique i j w hold hj
      · exact absurd ⟨j, hj⟩ hfresh
    split at hj <;> split at hk
    · exact ‹i = j› ▸ ‹i = k›
    · obtain rfl := ‹i = j›
      exact hother k hj hk
    · obtain rfl := ‹i = k›
      exact (hother j hk hj).symm
    · exact h.unique j k w hj hk

theorem holds_modifyOrbit (h : s.WellFormed) : (s.modifyOrbit i f).Holds w ↔
      w ∈ (f (s.orbit i)).windows ∨ ∃ j, j ≠ i ∧ w ∈ (s.orbit j).windows := by
  simp only [Holds, orbit_modifyOrbit h.length_eq]
  constructor
  · rintro ⟨j, hj⟩
    split at hj
    · rename_i heq
      exact .inl (heq ▸ hj)
    · rename_i hne
      exact .inr ⟨j, fun h => hne h.symm, hj⟩
  · rintro (hw | ⟨j, hne, hw⟩)
    · exact ⟨i, by rwa [if_pos rfl]⟩
    · exact ⟨j, by rwa [if_neg (fun h => hne h.symm)]⟩

theorem holds_iff (i : OrbitId) :
    s.Holds w ↔ w ∈ (s.orbit i).windows ∨ ∃ j, j ≠ i ∧ w ∈ (s.orbit j).windows := by
  constructor
  · rintro ⟨j, hw⟩
    by_cases hj : j = i
    · exact .inl (hj ▸ hw)
    · exact .inr ⟨j, hj, hw⟩
  · rintro (hw | ⟨j, _, hw⟩)
    · exact ⟨i, hw⟩
    · exact ⟨j, hw⟩

theorem holds_modifyOrbit_of_mem_iff (h : s.WellFormed)
    (hf : ∀ w, w ∈ (f (s.orbit i)).windows ↔ w ∈ (s.orbit i).windows) (w : WinId) :
    (s.modifyOrbit i f).Holds w ↔ s.Holds w := by
  rw [holds_modifyOrbit h, hf, ← holds_iff]

section Windows

variable {i : OrbitId} {w win : WinId}

theorem WellFormed.insertWindow (h : s.WellFormed) (hfresh : ¬ s.Holds win) :
    (s.modifyOrbit i fun o => o.insertWindow win).WellFormed := by
  refine h.modifyOrbit ((h.orbit_wf i).insertWindow fun hw => hfresh ⟨i, hw⟩) fun w hw => ?_
  rcases mem_insertWindow.mp hw with rfl | hw
  · exact .inr hfresh
  · exact .inl hw

theorem holds_insertWindow (h : s.WellFormed) :
    (s.modifyOrbit i fun o => o.insertWindow win).Holds w ↔ w = win ∨ s.Holds w := by
  rw [holds_modifyOrbit h, mem_insertWindow, or_assoc, ← holds_iff]

theorem WellFormed.removeWindow (h : s.WellFormed) (hk : (s.orbit i).windows[k]? = some win)
    (hint : Orbit → ℕ) :
    (s.modifyOrbit i fun o => (o.removeWindow k win).reseatFocus (hint o)).WellFormed :=
  h.modifyOrbit ((h.orbit_wf i).removeWindow hk _) fun _ hw =>
    .inl ((mem_removeWindow (h.orbit_wf i).nodup hk).mp hw).1

theorem holds_removeWindow (h : s.WellFormed) (hk : (s.orbit i).windows[k]? = some win)
    (hint : Orbit → ℕ) :
    (s.modifyOrbit i fun o => (o.removeWindow k win).reseatFocus (hint o)).Holds w ↔
      s.Holds w ∧ w ≠ win := by
  have hmem : win ∈ (s.orbit i).windows := mem_of_getElem? hk
  have hremove := mem_removeWindow (h.orbit_wf i).nodup hk (w := w)
  have hother : ∀ j, j ≠ i → w ∈ (s.orbit j).windows → w ≠ win := by
    rintro j hj hw rfl
    exact hj (h.unique j i w hw hmem)
  rw [holds_modifyOrbit h, holds_iff i, show w ∈ ((((s.orbit i).removeWindow k win).reseatFocus
    (hint (s.orbit i))).windows) ↔ _ from hremove]
  grind

end Windows

end Snapshot

namespace Ledger

def Holds (l : Ledger) (w : WinId) : Prop := l.snapshot.Holds w

/-- The current orbits and every snapshot are well formed and hold the same
windows. -/
structure WellFormed (l : Ledger) : Prop where
  now : l.snapshot.WellFormed
  past : ∀ s ∈ l.history ++ l.redoStack, s.WellFormed ∧ ∀ w, s.Holds w ↔ l.Holds w

/-- A change that keeps the ledger well formed and its windows the same. -/
structure Desired (l l' : Ledger) : Prop where
  wf : l'.WellFormed
  holds : ∀ w, l'.Holds w ↔ l.Holds w

variable {l : Ledger} {w win : WinId} {i : OrbitId} {s : Snapshot}

theorem orbit_eq_snapshot_orbit (l : Ledger) (i : OrbitId) : l.orbit i = l.snapshot.orbit i := rfl

theorem WellFormed.orbit_wf (h : l.WellFormed) (i : OrbitId) : (l.orbit i).WellFormed i :=
  h.now.orbit_wf i

theorem Desired.refl (h : l.WellFormed) : Desired l l := ⟨h, fun _ => Iff.rfl⟩

theorem exists_orbit_of_mem (h : l.WellFormed) {o : Orbit} (ho : o ∈ l.orbits) :
    ∃ i, l.orbit i = o := by
  obtain ⟨k, hk, rfl⟩ := mem_iff_getElem.mp ho
  have h6 : k < 6 := lt_of_lt_of_eq hk h.now.length_eq
  exact ⟨⟨k, h6⟩, by simp [orbit, getD_eq_getElem?_getD, hk]⟩

theorem orbit_mem (h : l.WellFormed) (i : OrbitId) : l.orbit i ∈ l.orbits := by
  have hi : (i : ℕ) < l.orbits.length := lt_of_lt_of_eq i.isLt h.now.length_eq.symm
  simp [orbit, getD_eq_getElem?_getD, hi]

theorem orbit_new (i : OrbitId) : Ledger.new.snapshot.orbit i = Orbit.new i := by
  simp [Snapshot.orbit, new, snapshot, OrbitId.all]

theorem not_holds_new (w : WinId) : ¬ Ledger.new.Holds w := by
  rintro ⟨i, hi⟩
  rw [orbit_new] at hi
  cases hi

theorem wellFormed_new : Ledger.new.WellFormed where
  now := {
    length_eq := rfl
    orbit_wf i := orbit_new i ▸ Orbit.wellFormed_new i
    unique i _ w hi := absurd ⟨i, hi⟩ (not_holds_new w) }
  past := by simp [new]

theorem orbitOf_eq_some (h : l.WellFormed) : l.orbitOf w = some i ↔ w ∈ (l.orbit i).windows := by
  constructor
  · intro ho
    obtain ⟨o, hfind, rfl⟩ := Option.map_eq_some_iff.mp ho
    obtain ⟨j, rfl⟩ := exists_orbit_of_mem h (mem_of_find?_eq_some hfind)
    have hmem := find?_some hfind
    rw [(h.orbit_wf j).id_eq]
    simpa using hmem
  · intro hw
    have hsome : (l.orbits.find? fun o => w ∈ o.windows).isSome := by
      rw [find?_isSome]
      exact ⟨l.orbit i, orbit_mem h i, by simpa using hw⟩
    obtain ⟨o, hfind⟩ := Option.isSome_iff_exists.mp hsome
    obtain ⟨j, rfl⟩ := exists_orbit_of_mem h (mem_of_find?_eq_some hfind)
    have hmem : w ∈ (l.orbit j).windows := by simpa using find?_some hfind
    obtain rfl : j = i := h.now.unique j i w hmem hw
    simp only [orbitOf, hfind, Option.map_some, (h.orbit_wf j).id_eq]

theorem orbitOf_isSome (h : l.WellFormed) : (l.orbitOf w).isSome ↔ l.Holds w := by
  rw [Option.isSome_iff_exists]
  exact exists_congr fun i => orbitOf_eq_some h

theorem WellFormed.discardUndoHistory (h : l.WellFormed) : l.discardUndoHistory.WellFormed where
  now := h.now
  past := by simp [Ledger.discardUndoHistory]

theorem WellFormed.summon (h : l.WellFormed) (win : WinId) (i : OrbitId) :
    (l.summon win i).WellFormed := by
  unfold Ledger.summon
  split
  · exact h
  rename_i hnone
  have hfresh : ¬ l.Holds win := fun hw => hnone ((orbitOf_isSome h).mpr hw)
  exact ⟨h.now.insertWindow hfresh, by simp [Ledger.discardUndoHistory, Ledger.modifyOrbit]⟩

theorem holds_summon (h : l.WellFormed) : (l.summon win i).Holds w ↔ w = win ∨ l.Holds w := by
  unfold summon
  split
  · rename_i hsome
    have hwin := (orbitOf_isSome h).mp hsome
    exact ⟨.inr, fun hw => hw.elim (fun heq => heq ▸ hwin) id⟩
  · exact holds_insertWindow h.now

theorem banish_of_orbitOf_eq_none (h : l.orbitOf win = none) : l.banish win = (l, false) := by
  simp only [banish, h]

theorem banish_of_mem (h : l.WellFormed) (hw : win ∈ (l.orbit i).windows) :
    ∃ (k : ℕ) (hint : Orbit → ℕ), (l.orbit i).windows[k]? = some win ∧
      (l.banish win).1 = l.discardUndoHistory.modifyOrbit i fun o =>
        (o.removeWindow k win).reseatFocus (hint o) := by
  obtain ⟨k, hk⟩ := Option.isSome_iff_exists.mp (isSome_idxOf?.mpr hw)
  refine ⟨k, fun o => k - if k ≥ max (o.removeWindow k win).windows.length 1 then 1 else 0, ?_, ?_⟩
  · obtain ⟨hlt, hget, _⟩ := idxOf?_eq_some_iff.mp hk
    rw [getElem?_eq_getElem hlt, hget]
  · have hk' : (l.discardUndoHistory.orbit i).windows.idxOf? win = some k := hk
    simp only [banish, (orbitOf_eq_some h).mpr hw, hk']

theorem WellFormed.banish (h : l.WellFormed) (win : WinId) : (l.banish win).1.WellFormed := by
  cases ho : l.orbitOf win with
  | none => rwa [banish_of_orbitOf_eq_none ho]
  | some =>
    obtain ⟨k, hint, hk, heq⟩ := banish_of_mem h ((orbitOf_eq_some h).mp ho)
    rw [heq]
    exact ⟨h.now.removeWindow hk hint, by simp [Ledger.discardUndoHistory, Ledger.modifyOrbit]⟩

theorem holds_banish (h : l.WellFormed) : (l.banish win).1.Holds w ↔ l.Holds w ∧ w ≠ win := by
  cases ho : l.orbitOf win with
  | none =>
    rw [banish_of_orbitOf_eq_none ho]
    refine ⟨fun hw => ⟨hw, ?_⟩, And.left⟩
    rintro rfl
    have := (orbitOf_isSome h).mpr hw
    simp [ho] at this
  | some =>
    obtain ⟨k, hint, hk, heq⟩ := banish_of_mem h ((orbitOf_eq_some h).mp ho)
    rw [heq]
    exact holds_removeWindow h.now hk hint

/-! ## Desired changes -/

theorem mem_checkpoint_history (hs : s ∈ l.checkpoint.history) :
    s ∈ l.history ∨ s = l.snapshot := by
  simp only [checkpoint] at hs
  split at hs
  · simpa using mem_of_mem_drop hs
  · simpa using hs

/-- A desired change installs well-formed orbits with the same windows over a
checkpoint. -/
theorem WellFormed.desired (h : l.WellFormed) (hs : s.WellFormed)
    (hholds : ∀ w, s.Holds w ↔ l.Holds w) :
    Desired l { l.checkpoint with orbits := s.orbits, active := s.active } := by
  refine ⟨⟨hs, ?_⟩, hholds⟩
  intro t ht
  have ht : t ∈ l.history ∨ t = l.snapshot := by
    rcases mem_append.mp ht with ht | ht
    · exact mem_checkpoint_history ht
    · cases ht
  rcases ht with ht | rfl
  · obtain ⟨hwf, hsame⟩ := h.past t (mem_append_left _ ht)
    exact ⟨hwf, fun w => (hsame w).trans (hholds w).symm⟩
  · exact ⟨h.now, fun w => (hholds w).symm⟩

theorem WellFormed.desired_modifyOrbit (h : l.WellFormed) {f : Orbit → Orbit} (i : OrbitId)
    (hf : (f (l.orbit i)).WellFormed i)
    (hmem : ∀ w, w ∈ (f (l.orbit i)).windows ↔ w ∈ (l.orbit i).windows) :
    Desired l (l.checkpoint.modifyOrbit i f) :=
  h.desired (h.now.modifyOrbit hf fun w hw => .inl ((hmem w).mp hw))
    (holds_modifyOrbit_of_mem_iff h.now hmem)

theorem neighbour_lt (dir : Dir) (cur : ℕ) {n : ℕ} (hn : 2 ≤ n) : neighbour dir cur n < n := by
  cases dir <;> exact Nat.mod_lt _ (by omega)

theorem focusWindow_desired (h : l.WellFormed) (win : WinId) :
    Desired l (l.focusWindow win).1 := by
  simp only [focusWindow]
  split
  · exact Desired.refl h
  rename_i i ho
  have hmem := (orbitOf_eq_some h).mp ho
  have hf : ({ l.orbit i with focus := (l.orbit i).windows.idxOf? win } : Orbit).WellFormed i :=
    { h.orbit_wf i with
      focus_none := by
        have hne := ne_nil_of_mem hmem
        simp [hne, idxOf?_eq_none_iff, hmem]
      focus_lt := fun k hk => (List.idxOf?_eq_some_iff.mp hk).1 }
  let f : Orbit → Orbit := fun o => { o with focus := o.windows.idxOf? win }
  have hs := h.now.modifyOrbit (f := f) hf fun w hw => .inl hw
  exact h.desired (s := { l.snapshot.modifyOrbit i f with active := i }) ⟨hs.1, hs.2, hs.3⟩
    (holds_modifyOrbit_of_mem_iff h.now fun _ => Iff.rfl)

theorem focusStep_desired (h : l.WellFormed) (dir : Dir) : Desired l (l.focusStep dir) := by
  simp only [focusStep]
  split
  · exact Desired.refl h
  rename_i hn
  refine h.desired_modifyOrbit l.active ?_ fun _ => Iff.rfl
  exact { h.orbit_wf l.active with
    focus_none := by
      simp only [activeOrbit] at hn
      simp only [reduceCtorEq, false_iff]
      rintro hnil
      simp [hnil] at hn
    focus_lt := by
      rintro k ⟨⟩
      exact neighbour_lt _ _ (not_lt.mp hn) }

theorem swapAt_perm (ws : List WinId) (i j : ℕ) : (swapAt ws i j).Perm ws := by
  unfold swapAt
  split
  · rename_i a b ha hb
    obtain ⟨hi, rfl⟩ := List.getElem?_eq_some_iff.mp ha
    obtain ⟨hj, rfl⟩ := List.getElem?_eq_some_iff.mp hb
    exact set_set_perm hi hj
  · exact List.Perm.refl ws

theorem swap_desired (h : l.WellFormed) (dir : Dir) : Desired l (l.swap dir).1 := by
  simp only [swap]
  split
  · exact Desired.refl h
  rename_i cur hcur
  split
  · exact Desired.refl h
  rename_i hn
  have hn : 2 ≤ (l.orbit l.active).windows.length := not_lt.mp hn
  have hwf := h.orbit_wf l.active
  have hperm := swapAt_perm (l.orbit l.active).windows cur
    (neighbour dir cur (l.orbit l.active).windows.length)
  refine h.desired_modifyOrbit l.active ?_ fun _ => hperm.mem_iff
  exact { hwf with
    nodup := hperm.nodup_iff.mpr hwf.nodup
    focus_none := by
      simp only [reduceCtorEq, false_iff]
      intro hnil
      have := hperm.length_eq
      simp only [activeOrbit] at hnil
      rw [hnil] at this
      simp at this
      omega
    focus_lt := by
      rintro k ⟨⟩
      simp only [activeOrbit]
      rw [hperm.length_eq]
      exact neighbour_lt _ _ hn
    stowed_subset := fun w hw => hperm.mem_iff.mpr (hwf.stowed_subset hw)
    fullscreen_mem := fun w hw => hperm.mem_iff.mpr (hwf.fullscreen_mem w hw) }

theorem moveToOrbit_desired (h : l.WellFormed) (target : OrbitId) :
    Desired l (l.moveToOrbit target).1 := by
  simp only [moveToOrbit]
  split
  · exact Desired.refl h
  rename_i win hfocus
  split
  · exact Desired.refl h
  rename_i hne
  have hmem : win ∈ (l.orbit l.active).windows := mem_of_focused hfocus
  have hk : (l.orbit l.active).windows[(l.activeOrbit.windows.idxOf win)]? = some win := by
    simp only [activeOrbit]
    rw [getElem?_eq_getElem (idxOf_lt_length_iff.mpr hmem), getElem_idxOf]
  -- First the window leaves the active orbit, so that no orbit holds it.
  have hleft := h.now.removeWindow hk fun _ => l.activeOrbit.windows.idxOf win - 1
  have hholds (w : WinId) := holds_removeWindow (w := w) h.now hk
    fun _ => l.activeOrbit.windows.idxOf win - 1
  have hfresh := mt (hholds win).mp (by simp)
  -- Then it enters the target orbit.
  refine h.desired (hleft.insertWindow (i := target) hfresh) fun w => ?_
  rw [holds_insertWindow hleft, hholds]
  have hwin : l.Holds win := ⟨l.active, hmem⟩
  constructor
  · rintro (rfl | ⟨hw, _⟩)
    · exact hwin
    · exact hw
  · intro hw
    exact (em (w = win)).imp id fun hne => ⟨hw, hne⟩

theorem switchOrbit_desired (h : l.WellFormed) (target : OrbitId) :
    Desired l (l.switchOrbit target) := by
  simp only [switchOrbit]
  split
  · exact Desired.refl h
  · exact h.desired (s := { l.snapshot with active := target }) ⟨h.now.1, h.now.2, h.now.3⟩
      fun _ => Iff.rfl

theorem toggleStow_desired (h : l.WellFormed) : Desired l l.toggleStow.1 := by
  simp only [toggleStow]
  split
  · exact Desired.refl h
  rename_i win hfocus
  have hmem : win ∈ (l.orbit l.active).windows := mem_of_focused hfocus
  have hwf := h.orbit_wf l.active
  refine h.desired_modifyOrbit l.active ?_ fun w => by split <;> rfl
  split
  · rename_i k hk
    exact { hwf with
      stowed_nodup := hwf.stowed_nodup.sublist (eraseIdx_sublist _ k)
      stowed_subset := fun w hw =>
        hwf.stowed_subset ((eraseIdx_sublist _ k).subset hw) }
  · rename_i hnone
    exact { hwf with
      stowed_nodup := by
        have : win ∉ (l.orbit l.active).stowed := idxOf?_eq_none_iff.mp hnone
        exact Nodup.append hwf.stowed_nodup (nodup_singleton win) (by simpa using this)
      stowed_subset := by
        intro w hw
        rcases mem_append.mp hw with hw | hw
        · exact hwf.stowed_subset hw
        · exact mem_singleton.mp hw ▸ hmem }

theorem toggleFullscreen_desired (h : l.WellFormed) : Desired l l.toggleFullscreen.1 := by
  simp only [toggleFullscreen]
  split
  · exact Desired.refl h
  rename_i win hfocus
  have hmem : win ∈ (l.orbit l.active).windows := mem_of_focused hfocus
  refine h.desired_modifyOrbit l.active ?_ fun _ => Iff.rfl
  exact { h.orbit_wf l.active with
    fullscreen_mem := by
      intro w hw
      simp only at hw
      split at hw
      · cases hw
      · exact Option.some.inj hw ▸ hmem }

theorem setLayout_desired (h : l.WellFormed) (layout : Layout) :
    Desired l (l.setLayout layout) := by
  simp only [setLayout]
  split
  · exact Desired.refl h
  · exact h.desired_modifyOrbit l.active { h.orbit_wf l.active with } fun _ => Iff.rfl

/-- Going to a recorded snapshot, while only recorded snapshots and the current
one stay recorded, is a desired change. -/
theorem WellFormed.desired_of_mem (h : l.WellFormed) {history redo : List Snapshot}
    (hs : s ∈ l.history ++ l.redoStack)
    (hpast : ∀ t ∈ history ++ redo, t ∈ l.history ++ l.redoStack ∨ t = l.snapshot) :
    Desired l ⟨s.orbits, s.active, history, redo⟩ := by
  obtain ⟨hwf, hholds⟩ := h.past s hs
  refine ⟨⟨hwf, fun t ht => ?_⟩, hholds⟩
  rcases hpast t ht with ht | rfl
  · exact ⟨(h.past t ht).1, fun w => ((h.past t ht).2 w).trans (hholds w).symm⟩
  · exact ⟨h.now, fun w => (hholds w).symm⟩

theorem undo_desired (h : l.WellFormed) : Desired l l.undo.1 := by
  simp only [undo]
  split
  · exact Desired.refl h
  rename_i prev hprev
  refine h.desired_of_mem (mem_append_left _ (mem_of_getLast? hprev)) fun t ht => ?_
  have hsub := (dropLast_sublist l.history).subset (a := t)
  simp only [mem_append, mem_singleton] at ht ⊢
  tauto

theorem redo_desired (h : l.WellFormed) : Desired l l.redo.1 := by
  simp only [redo]
  split
  · exact Desired.refl h
  rename_i next hnext
  refine h.desired_of_mem (mem_append_right _ (mem_of_getLast? hnext)) fun t ht => ?_
  have hsub := (dropLast_sublist l.redoStack).subset (a := t)
  simp only [mem_append, mem_singleton] at ht ⊢
  tauto

end Ledger

end Realm
