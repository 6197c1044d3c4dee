import Realm.Core.LedgerRuns
import Mathlib.Data.List.Induction

/-!
# Where the focus goes

Banishing a window moves the focus of its orbit to the window that slid into the
vacated slot, whichever window was focused.  Dropping several windows one after the
other therefore leaves the focus beside the last of them.
-/

namespace Realm

namespace Orbit

variable {o : Orbit} {i : OrbitId} {win : WinId} {ws before after : List WinId}

/-- An orbit without a window: what `Ledger.banish` makes of the orbit that holds it. -/
def banished (o : Orbit) (win : WinId) : Orbit :=
  match o.windows.idxOf? win with
  | none => o
  | some at_ =>
    let o := o.removeWindow at_ win
    o.reseatFocus (at_ - if at_ ≥ max o.windows.length 1 then 1 else 0)

theorem banished_of_not_mem (h : win ∉ o.windows) : o.banished win = o := by
  rw [banished, List.idxOf?_eq_none_iff.mpr h]

theorem WellFormed.banished (h : o.WellFormed i) (win : WinId) : (o.banished win).WellFormed i := by
  by_cases hmem : win ∈ o.windows
  · obtain ⟨k, hk⟩ := Option.isSome_iff_exists.mp (List.isSome_idxOf?.mpr hmem)
    obtain ⟨hlt, hget, _⟩ := List.idxOf?_eq_some_iff.mp hk
    simp only [Orbit.banished, hk]
    exact h.removeWindow (by rw [List.getElem?_eq_getElem hlt, hget]) _
  · rwa [banished_of_not_mem hmem]

theorem filter_ne_eq_self (h : win ∉ ws) : ws.filter (· ≠ win) = ws :=
  List.filter_eq_self.mpr fun _ hw => decide_eq_true fun heq => h (heq ▸ hw)

theorem filter_not_mem_cons (ws : List WinId) (d : WinId) (ds : List WinId) :
    (ws.filter (· ≠ d)).filter (· ∉ ds) = ws.filter (· ∉ d :: ds) := by
  rw [List.filter_filter]
  exact List.filter_congr fun w _ => by simp [Bool.and_comm]

theorem windows_banished (h : o.windows.Nodup) (win : WinId) :
    (o.banished win).windows = o.windows.filter (· ≠ win) := by
  by_cases hmem : win ∈ o.windows
  · obtain ⟨k, hk⟩ := Option.isSome_iff_exists.mp (List.isSome_idxOf?.mpr hmem)
    obtain ⟨hlt, hget, _⟩ := List.idxOf?_eq_some_iff.mp hk
    simp only [banished, hk, reseatFocus, removeWindow]
    rw [← h.erase_getElem k hlt, hget, h.erase_eq_filter]
    exact List.filter_congr fun w _ => by simp [bne, beq_eq_decide]
  · rw [banished_of_not_mem hmem, filter_ne_eq_self hmem]

theorem stowed_banished (h : o.WellFormed i) (win : WinId) :
    (o.banished win).stowed = o.stowed.filter (· ≠ win) := by
  by_cases hmem : win ∈ o.windows
  · obtain ⟨k, hk⟩ := Option.isSome_iff_exists.mp (List.isSome_idxOf?.mpr hmem)
    simp only [banished, hk, reseatFocus, removeWindow]
  · rw [banished_of_not_mem hmem, filter_ne_eq_self fun hw => hmem (h.stowed_subset hw)]

/-- The focus falls to the window after the banished one, or to the one before it at
the end of the orbit. -/
theorem focused_banished (h : o.windows = before ++ win :: after) (hbefore : win ∉ before) :
    (o.banished win).focused = after.head?.or before.getLast? := by
  have hk : o.windows.idxOf? win = some before.length := by
    rw [h, List.idxOf?_eq_some_iff]
    refine ⟨by simp, by simp, fun j hj heq => hbefore ?_⟩
    rw [List.getElem_append_left hj] at heq
    exact heq ▸ List.getElem_mem hj
  have hwindows : o.windows.eraseIdx before.length = before ++ after := by
    rw [h, List.eraseIdx_append_of_length_le le_rfl]
    simp
  simp only [banished, hk, reseatFocus, removeWindow, focused, hwindows]
  cases after with
  | nil =>
    rcases List.eq_nil_or_concat before with rfl | ⟨before, last, rfl⟩
    · rfl
    · simp
  | cons next after =>
    have hslot : ¬ before.length ≥ max (before ++ next :: after).length 1 := by simp
    have hlast : before.length ≤ (before ++ next :: after).length - 1 := by simp
    rw [if_neg hslot, Nat.sub_zero, min_eq_left hlast]
    simp

/-- Dropping windows one after the other keeps the focus of the orbit: none is dropped,
or the focused window is the one beside the last of them that stays, the next one if
there is one. -/
def KeepsFocus (o : Orbit) (dropped : WinId → Bool) : Prop :=
  (∀ w ∈ o.windows, dropped w = false) ∨
    ∃ before last after, o.windows = before ++ last :: after ∧ dropped last = true ∧
      (∀ w ∈ after, dropped w = false) ∧
        after.head?.or (before.filter fun w => !dropped w).getLast? = o.focused

section Drops

variable {ds : List WinId} {dropped : WinId → Bool}

theorem windows_foldl_banished (h : o.WellFormed i) (ds : List WinId) :
    (ds.foldl banished o).windows = o.windows.filter (· ∉ ds) := by
  induction ds generalizing o with
  | nil => simp
  | cons d ds ih =>
    rw [List.foldl_cons, ih (h.banished d), windows_banished h.nodup, filter_not_mem_cons]

theorem stowed_foldl_banished (h : o.WellFormed i) (ds : List WinId) :
    (ds.foldl banished o).stowed = o.stowed.filter (· ∉ ds) := by
  induction ds generalizing o with
  | nil => simp
  | cons d ds ih =>
    rw [List.foldl_cons, ih (h.banished d), stowed_banished h, filter_not_mem_cons]

theorem foldl_banished_filter (h : o.WellFormed i) (ds : List WinId) :
    ds.foldl banished o = (ds.filter (· ∈ o.windows)).foldl banished o := by
  induction ds using List.reverseRecOn with
  | nil => rfl
  | append_singleton ds d ih =>
    rw [List.foldl_append, ih, List.filter_append, List.foldl_append]
    by_cases hd : d ∈ o.windows
    · simp [hd]
    · have hnot : d ∉ ((ds.filter (· ∈ o.windows)).foldl banished o).windows := by
        rw [windows_foldl_banished h]
        exact fun hmem => hd (List.mem_of_mem_filter hmem)
      simp [hd, banished_of_not_mem hnot]

theorem exists_last_dropped (h : ¬ ∀ w ∈ ws, dropped w = false) :
    ∃ before last after, ws = before ++ last :: after ∧ dropped last = true ∧
      ∀ w ∈ after, dropped w = false := by
  induction ws using List.reverseRecOn with
  | nil => simp at h
  | append_singleton ws w ih =>
    by_cases hw : dropped w = true
    · exact ⟨ws, w, [], rfl, hw, by simp⟩
    · rw [Bool.not_eq_true] at hw
      obtain ⟨before, last, after, rfl, hlast, hafter⟩ := ih fun hall => h (by
        simpa [or_imp, forall_and, hw] using hall)
      exact ⟨before, last, after ++ [w], by simp, hlast, by simpa [or_imp, forall_and, hw] using
        hafter⟩

theorem focused_foldl_of_last (h : o.WellFormed i) {last : WinId}
    (hsplit : o.windows = before ++ last :: after) (hlast : dropped last = true)
    (hafter : ∀ w ∈ after, dropped w = false) :
    ((o.windows.filter dropped).foldl banished o).focused =
      after.head?.or (before.filter fun w => !dropped w).getLast? := by
  have hnodup := hsplit ▸ h.nodup
  have hdisjoint : ∀ w ∈ last :: after, w ∉ before := by
    intro w hw hmem
    exact (List.nodup_append.mp hnodup).2.2 w hmem w hw rfl
  have hdrops : o.windows.filter dropped = before.filter dropped ++ [last] := by
    have hnil : after.filter dropped = [] :=
      List.filter_eq_nil_iff.mpr fun w hw => by simp [hafter w hw]
    rw [hsplit, List.filter_append, List.filter_cons_of_pos hlast, hnil]
  have hstay : (last :: after).filter (· ∉ before.filter dropped) = last :: after :=
    List.filter_eq_self.mpr fun w hw =>
      decide_eq_true fun hmem => hdisjoint w hw (List.mem_of_mem_filter hmem)
  have hleft : before.filter (· ∉ before.filter dropped) = before.filter fun w => !dropped w :=
    List.filter_congr fun w hw => by simp [hw]
  rw [hdrops, List.foldl_append]
  apply focused_banished
  · rw [windows_foldl_banished h, hsplit, List.filter_append, hstay, hleft]
  · exact fun hmem => hdisjoint last (List.mem_cons_self) (List.mem_of_mem_filter hmem)

/-- Dropping windows of an orbit in order moves the focus unless it keeps it. -/
theorem focused_foldl_banished (h : o.WellFormed i) (dropped : WinId → Bool) :
    ((o.windows.filter dropped).foldl banished o).focused = o.focused ↔ o.KeepsFocus dropped := by
  constructor
  · intro hfocus
    by_cases hnone : ∀ w ∈ o.windows, dropped w = false
    · exact .inl hnone
    · obtain ⟨before, last, after, hsplit, hlast, hafter⟩ := exists_last_dropped hnone
      rw [focused_foldl_of_last h hsplit hlast hafter] at hfocus
      exact .inr ⟨before, last, after, hsplit, hlast, hafter, hfocus⟩
  · rintro (hnone | ⟨before, last, after, hsplit, hlast, hafter, hfocus⟩)
    · rw [List.filter_eq_nil_iff.mpr fun w hw => by simp [hnone w hw], List.foldl_nil]
    · rw [focused_foldl_of_last h hsplit hlast hafter, hfocus]

end Drops

end Orbit

namespace Ledger

variable {l : Ledger} {i : OrbitId} {win : WinId}

theorem orbit_banish (h : l.WellFormed) (win : WinId) (i : OrbitId) :
    (l.banish win).1.orbit i = (l.orbit i).banished win := by
  cases hj : l.orbitOf win with
  | none =>
    have hnot : win ∉ (l.orbit i).windows := fun hmem => by
      simp [(orbitOf_eq_some h).mpr hmem] at hj
    rw [banish_of_orbitOf_eq_none hj, Orbit.banished_of_not_mem hnot]
  | some j =>
    have hmem := (orbitOf_eq_some h).mp hj
    obtain ⟨k, hk⟩ := Option.isSome_iff_exists.mp (List.isSome_idxOf?.mpr hmem)
    have hk' : (l.discardUndoHistory.orbit j).windows.idxOf? win = some k := hk
    simp only [banish, hj, hk']
    refine (Snapshot.orbit_modifyOrbit h.now.length_eq j i _).trans ?_
    split
    · rename_i heq
      subst heq
      simp only [← orbit_eq_snapshot_orbit, Orbit.banished, hk]
      rfl
    · rename_i hne
      exact (Orbit.banished_of_not_mem fun hw => hne (h.now.unique j i win hmem hw)).symm

theorem active_banish (l : Ledger) (win : WinId) : (l.banish win).1.active = l.active := by
  simp only [banish]
  split
  · rfl
  · split <;> rfl

def banishAll (l : Ledger) (ds : List WinId) : Ledger := ds.foldl (fun l d => (l.banish d).1) l

theorem active_banishAll (l : Ledger) (ds : List WinId) : (l.banishAll ds).active = l.active := by
  induction ds generalizing l with
  | nil => rfl
  | cons d ds ih => exact (ih _).trans (l.active_banish d)

theorem orbit_banishAll (h : l.WellFormed) (ds : List WinId) (i : OrbitId) :
    (l.banishAll ds).orbit i = ds.foldl Orbit.banished (l.orbit i) := by
  induction ds generalizing l with
  | nil => rfl
  | cons d ds ih => exact (ih (h.banish d)).trans (by rw [orbit_banish h, List.foldl_cons])

theorem filter_flatMap_of_forall_ne {α β : Type*} {f : α → List β} {p : β → Bool} {as : List α}
    {i : ℕ} {a : α} (ha : as[i]? = some a)
    (hother : ∀ (k : ℕ) (b : α), as[k]? = some b → k ≠ i → (f b).filter p = []) :
    (as.flatMap f).filter p = (f a).filter p := by
  induction as generalizing i with
  | nil => simp at ha
  | cons b as ih =>
    rw [List.flatMap_cons, List.filter_append]
    cases i with
    | zero =>
      have hrest : (as.flatMap f).filter p = [] := by
        rw [List.filter_flatMap, List.flatMap_eq_nil_iff]
        intro c hc
        obtain ⟨k, hk⟩ := List.mem_iff_getElem?.mp hc
        exact hother (k + 1) c hk (Nat.succ_ne_zero k)
      rw [hrest, List.append_nil, Option.some.inj ha]
    | succ i =>
      rw [hother 0 b rfl (Nat.succ_ne_zero i).symm, List.nil_append]
      exact ih ha fun k c hk hne => hother (k + 1) c hk (mt Nat.succ.inj hne)

theorem filter_flatMap_windows (h : l.WellFormed) (i : OrbitId) :
    (l.orbits.flatMap (·.windows)).filter (· ∈ (l.orbit i).windows) = (l.orbit i).windows := by
  have hi : i.val < l.orbits.length := by
    rw [show l.orbits.length = 6 from h.now.length_eq]
    exact i.isLt
  have horbit : l.orbit i = l.orbits[i.val] := by
    simp [orbit, List.getD_eq_getElem?_getD, hi]
  have hother : ∀ (k : ℕ) (o : Orbit), l.orbits[k]? = some o → k ≠ i →
      o.windows.filter (· ∈ (l.orbit i).windows) = [] := by
    intro k o hk hne
    refine List.filter_eq_nil_iff.mpr fun w hw => ?_
    have hlt : k < 6 := by
      rw [← show l.orbits.length = 6 from h.now.length_eq]
      exact (List.getElem?_eq_some_iff.mp hk).1
    have hko : l.orbit ⟨k, hlt⟩ = o := by simp [orbit, List.getD_eq_getElem?_getD, hk]
    rw [← hko] at hw
    have hnot : w ∉ (l.orbit i).windows := fun hmem =>
      hne (congrArg Fin.val (h.now.unique ⟨k, hlt⟩ i w hw hmem))
    simpa using hnot
  rw [filter_flatMap_of_forall_ne (List.getElem?_eq_getElem hi) hother, ← horbit]
  exact List.filter_eq_self.mpr fun w hw => decide_eq_true hw

theorem orbit_banishAll_filter (h : l.WellFormed) (dropped : WinId → Bool) (i : OrbitId) :
    (l.banishAll ((l.orbits.flatMap (·.windows)).filter dropped)).orbit i =
      ((l.orbit i).windows.filter dropped).foldl Orbit.banished (l.orbit i) := by
  rw [orbit_banishAll h, Orbit.foldl_banished_filter (h.orbit_wf i), List.filter_comm,
    filter_flatMap_windows h]

theorem focused_banish (h : l.WellFormed) (hwin : win ∈ (l.orbit i).windows) :
    ((l.banish win).1.orbit i).focused = (l.orbit i).focused ↔
      (l.orbit i).KeepsFocus (· = win) := by
  have hwf := h.orbit_wf i
  have hdrops : (l.orbit i).windows.filter (decide <| · = win) = [win] := by
    obtain ⟨before, after, hsplit⟩ := List.append_of_mem hwin
    have hnodup := hsplit ▸ hwf.nodup
    have hbefore : before.filter (decide <| · = win) = [] :=
      List.filter_eq_nil_iff.mpr fun w hw => by
        simpa using (List.nodup_append.mp hnodup).2.2 w hw win List.mem_cons_self
    have hafter : after.filter (decide <| · = win) = [] :=
      List.filter_eq_nil_iff.mpr fun w hw => by
        have hnot := (List.nodup_cons.mp (List.nodup_append.mp hnodup).2.1).1
        have hne : w ≠ win := fun heq => hnot (heq ▸ hw)
        simpa using hne
    rw [hsplit, List.filter_append, hbefore, List.filter_cons_of_pos (by simp), hafter]
    rfl
  rw [orbit_banish h, ← Orbit.focused_foldl_banished hwf, hdrops, List.foldl_cons, List.foldl_nil]

theorem orbit_banish_of_not_mem (h : l.WellFormed) (hwin : win ∉ (l.orbit i).windows) :
    (l.banish win).1.orbit i = l.orbit i := by
  rw [orbit_banish h, Orbit.banished_of_not_mem hwin]

end Ledger

end Realm
