import Realm.Lib.Rounding
import Realm.Core.Focus
import Realm.Core.Tiling

/-!
# Projections of an orbit

What a projection places: the visible windows in ledger order, tiled without gaps or
overlaps in the triptych and the even layout, and stacked on each other in mono.
-/

namespace Realm

open List Ledger

variable {fl : ℚ → ℚ} {o : Orbit} {area : Workarea} {α β : Type*} {i : OrbitId}

def Orbit.NoFullscreen (o : Orbit) : Prop := ∀ w ∈ o.fullscreen, w ∉ o.visible

/-- The rectangles of a layout for the visible windows. -/
def layoutRects (fl : ℚ → ℚ) (o : Orbit) (area : Rect) (params : TriptychParams) : List Rect :=
  match o.layout with
  | .triptych => triptych fl o.visible.length area (params.sanitised fl)
  | .mono => List.replicate o.visible.length area
  | .even => even fl o.visible.length area

theorem project_eq (hfull : o.NoFullscreen) (hvisible : o.visible ≠ []) (hw : 0 < area.tiles.w)
    (hh : 0 < area.tiles.h) (params : TriptychParams) : project fl o area params =
      (o.visible.zip (layoutRects fl o area.tiles params)).map fun (win, rect) =>
        ⟨win, rect, o.focused = some win,
          o.layout = .mono && o.focused.or o.visible.head? ≠ some win⟩ := by
  have hnone : o.fullscreen.filter (· ∈ o.visible) = none := by
    rw [Option.filter_eq_none_iff]
    intro w hw
    simpa using hfull w hw
  have hguard : ¬ (o.visible.isEmpty ∨ area.tiles.w ≤ 0 ∨ area.tiles.h ≤ 0) := by
    simp [hvisible, hw, hh]
  simp only [project, hnone]
  rw [if_neg hguard]
  cases hlayout : o.layout <;> simp [layoutRects, hlayout]

/-! ## Mono -/

theorem zip_replicate_length (as : List α) (b : β) :
    as.zip (List.replicate as.length b) = as.map fun a => (a, b) := by
  induction as with
  | nil => rfl
  | cons a as ih => rw [length_cons, replicate_succ, zip_cons_cons, ih, map_cons]

theorem Orbit.WellFormed.exists_focused (h : o.WellFormed i) (hvisible : o.visible ≠ []) :
    ∃ win, o.focused = some win := by
  have hne : o.windows ≠ [] := fun hnil => hvisible (by simp [Orbit.visible, hnil])
  obtain ⟨k, hk⟩ := Option.ne_none_iff_exists'.mp (mt h.focus_none.mp hne)
  have hlt := h.focus_lt k hk
  exact ⟨o.windows[k], by simp [Orbit.focused, hk, hlt]⟩

/-- A mono projection stacks the visible windows and puts the focused window on top. -/
theorem project_mono {focus : WinId} (hmono : o.layout = .mono) (hfull : o.NoFullscreen)
    (hvisible : o.visible ≠ []) (hfocus : o.focused = some focus) (hw : 0 < area.tiles.w)
    (hh : 0 < area.tiles.h) (params : TriptychParams) :
    project fl o area params = o.visible.map fun win =>
      ⟨win, area.tiles, focus = win, focus ≠ win⟩ := by
  rw [project_eq hfull hvisible hw hh, layoutRects, hmono]
  simp only [zip_replicate_length, map_map]
  refine map_congr_left fun win _ => ?_
  simp [hfocus]

theorem Orbit.WellFormed.visible_nodup (h : o.WellFormed i) : o.visible.Nodup :=
  h.nodup.filter _

/-- In a mono stack exactly the focused window is on top, if it is visible; the focus may
be on a stowed window, and then no window is. -/
theorem mono_top_iff (ops : List LedgerOp) (i : OrbitId) (area : Workarea)
    (params : TriptychParams) (hmono : ((Ledger.run ops).orbit i).layout = .mono)
    (hvisible : ((Ledger.run ops).orbit i).visible ≠ [])
    (hfull : ((Ledger.run ops).orbit i).NoFullscreen) (hw : 0 < area.tiles.w)
    (hh : 0 < area.tiles.h) :
    ((project fl ((Ledger.run ops).orbit i) area params).countP (fun p => !p.occluded) = 1 ∧
        ∀ win ∈ ((Ledger.run ops).orbit i).visible,
          ((Ledger.run ops).orbit i).focused = some win →
            ∀ p ∈ project fl ((Ledger.run ops).orbit i) area params,
              p.occluded = false → p.win = win) ↔
      ∃ win ∈ ((Ledger.run ops).orbit i).visible,
        ((Ledger.run ops).orbit i).focused = some win := by
  have hwf := (valid_run ops).wf.orbit_wf i
  generalize (Ledger.run ops).orbit i = o at *
  obtain ⟨focus, hfocus⟩ := hwf.exists_focused hvisible
  have hcount : (project fl o area params).countP (fun p => !p.occluded) =
      o.visible.count focus := by
    rw [project_mono hmono hfull hvisible hfocus hw hh, countP_map, count]
    refine countP_congr fun win _ => ?_
    simpa using eq_comm
  rw [hcount]
  constructor
  · rintro ⟨hone, _⟩
    exact ⟨focus, count_pos_iff.mp (by omega), hfocus⟩
  · rintro ⟨win, hmem, hwin⟩
    cases hfocus.symm.trans hwin
    refine ⟨count_eq_one_of_mem hwf.visible_nodup hmem, ?_⟩
    intro win' _ hwin' p hp htop
    cases hfocus.symm.trans hwin'
    rw [project_mono hmono hfull hvisible hfocus hw hh] at hp
    obtain ⟨win, _, rfl⟩ := mem_map.mp hp
    have hsame : focus = win := by simpa using htop
    exact hsame.symm

/-- The calls that make a mono stack of two windows. -/
def monoPair : List LedgerOp := [.summon 1 0, .summon 2 0, .desire (.setLayout .mono)]

/-- The focused window of a mono stack of two is on top. -/
theorem mono_top_of_pair :
    (project FloatRound.binary32.round ((Ledger.run monoPair).orbit 0) (Workarea.new 100 100 0 0)
      (TriptychParams.default FloatRound.binary32.round)).countP (fun p => !p.occluded) = 1 :=
  ((mono_top_iff monoPair 0 (Workarea.new 100 100 0 0) _ (by decide) (by decide)
    (by simp [Orbit.NoFullscreen, show ((Ledger.run monoPair).orbit 0).fullscreen = none by decide])
    (by decide) (by decide)).mpr ⟨2, by decide, by decide⟩).1

/-- Stowing the focused window of a mono stack leaves no window on top. -/
theorem mono_stow_hides_all :
    ((Ledger.run (monoPair ++ [.desire .toggleStow])).orbit 0).layout = .mono ∧
      ((Ledger.run (monoPair ++ [.desire .toggleStow])).orbit 0).visible = [1] ∧
      ((Ledger.run (monoPair ++ [.desire .toggleStow])).orbit 0).fullscreen = none ∧
      (project FloatRound.binary32.round ((Ledger.run (monoPair ++ [.desire .toggleStow])).orbit 0)
        (Workarea.new 100 100 0 0) (TriptychParams.default FloatRound.binary32.round)).countP
          (fun p => !p.occluded) = 0 := by
  decide +kernel

/-! ## Tiled layouts -/

section Tiled

variable {params : TriptychParams} {tiles : Rect}

theorem tiles_layoutRects (hlayout : o.layout ≠ .mono) (hvisible : o.visible ≠ [])
    (hw : 0 < tiles.w) (hh : 0 < tiles.h) (htiles : tiles.Fits) :
    tiles.Tiles (layoutRects id o tiles params) := by
  have hn : o.visible.length ≠ 0 := by simpa using hvisible
  unfold layoutRects
  split
  · exact tiles_triptych params hn hw hh htiles
  · rename_i hmono
    exact absurd hmono hlayout
  · exact tiles_grid _ hn hw hh htiles (by simp)

theorem length_layoutRects_le (hvisible : o.visible ≠ []) :
    (layoutRects fl o tiles params).length ≤ o.visible.length := by
  have hpos : 0 < o.visible.length := length_pos_iff.mpr hvisible
  unfold layoutRects
  split
  · unfold triptych
    split
    · exact hpos
    · have hle := length_grid_le fl (o.visible.length - 1)
      simp only [length_cons]
      exact Nat.add_le_of_le_sub hpos (hle _ _ _)
  · exact (length_replicate).le
  · exact length_grid_le _ _ _ _ _

theorem stack_pos_default {w : ℤ} (hw : 0 < w) (hmax : w < 2 ^ 31) :
    0 < (partition id w [((TriptychParams.default id).sanitised id).masterRatio,
      id (1 - ((TriptychParams.default id).sanitised id).masterRatio)]).getD 1 0 := by
  have hratio : ((TriptychParams.default id).sanitised id).masterRatio = 1 / 3 := by
    decide +kernel
  rw [hratio]
  rcases eq_or_lt_of_le (Int.add_one_le_of_lt hw) with rfl | htwo
  · decide +kernel
  · obtain ⟨_, _, hfloors⟩ := partition_id w [1 / 3, id (1 - 1 / 3)]
      (by norm_num) (by norm_num) hw hmax
    obtain ⟨master, stack, heq⟩ := length_eq_two.mp (length_partition id w [1 / 3, id (1 - 1 / 3)])
    have hstack :
        floorShare id w (weightSum id [1 / 3, id (1 - 1 / 3)]) (id (1 - 1 / 3)) ≤ stack := by
      rw [heq] at hfloors
      simpa [floors] using (forall₂_cons.mp (forall₂_cons.mp hfloors).2).1
    have hsum : weightSum id [1 / 3, id (1 - 1 / 3)] = 1 := by decide +kernel
    have hfloor : 1 ≤ ⌊exactShare id w 1 (id (1 - 1 / 3))⌋ := by
      have hcast : (2 : ℚ) ≤ w := by exact_mod_cast htwo
      rw [Int.le_floor, exactShare]
      norm_num
      linarith
    rw [hsum, floorShare, saturate32] at hstack
    rw [heq, getD_cons_succ, getD_cons_zero]
    omega

theorem length_layoutRects_default (hvisible : o.visible ≠ []) (hw : 0 < tiles.w) (hh : 0 < tiles.h)
    (hmax : tiles.w < 2 ^ 31) :
    (layoutRects id o tiles (TriptychParams.default id)).length = o.visible.length := by
  have hpos : 0 < o.visible.length := length_pos_iff.mpr hvisible
  unfold layoutRects
  split
  · unfold triptych
    split
    · rename_i hone
      exact hone.symm
    · rename_i hmany
      refine (congrArg (· + 1) (length_grid _ _ (by omega) ?_ ?_)).trans (by omega)
      · exact stack_pos_default hw hmax
      · exact hh
  · exact length_replicate
  · exact length_grid _ _ (by omega) hw hh

theorem map_fst_zip_eq_take (as : List α) (bs : List β) :
    (as.zip bs).map Prod.fst = as.take bs.length := by
  rw [zip_eq_zip_take_min, map_fst_zip (by simp), take_eq_take_iff]
  simp [min_comm]

/-- The placements of a tiled layout are in ledger order and tile the area in exact
arithmetic; with the default parameters no visible window is left out. -/
theorem project_tiles (o : Orbit) (area : Workarea) (params : TriptychParams)
    (hfull : o.NoFullscreen) (hlayout : o.layout = .triptych ∨ o.layout = .even)
    (hw : 0 < area.tiles.w) (hh : 0 < area.tiles.h) (htiles : area.tiles.Fits)
    (hvisible : o.visible ≠ []) :
    (project id o area params).map (·.win) <+: o.visible ∧
      area.tiles.Tiles ((project id o area params).map (·.rect)) ∧
      (project id o area (TriptychParams.default id)).map (·.win) = o.visible := by
  have hmono : o.layout ≠ .mono := by
    rcases hlayout with h | h <;> simp [h]
  have hwins (params : TriptychParams) : (project id o area params).map (·.win) =
      o.visible.take (layoutRects id o area.tiles params).length := by
    rw [project_eq hfull hvisible hw hh, map_map]
    exact map_fst_zip_eq_take _ _
  have hrects : (project id o area params).map (·.rect) = layoutRects id o area.tiles params := by
    rw [project_eq hfull hvisible hw hh, map_map]
    exact map_snd_zip (length_layoutRects_le hvisible)
  refine ⟨?_, ?_, ?_⟩
  · rw [hwins]
    exact take_prefix _ _
  · rw [hrects]
    exact tiles_layoutRects hmono hvisible hw hh htiles
  · rw [hwins, length_layoutRects_default hvisible hw hh htiles.width, take_length]

/-- Three windows tile a full-screen area. -/
theorem project_tiles_three :
    Rect.Tiles ⟨0, 0, 1920, 1080⟩ ((project id
      ((Ledger.run [.summon 1 0, .summon 2 0, .summon 3 0]).orbit 0) (Workarea.new 1920 1080 0 0)
        (TriptychParams.default id)).map (·.rect)) :=
  (project_tiles ((Ledger.run [.summon 1 0, .summon 2 0, .summon 3 0]).orbit 0)
    (Workarea.new 1920 1080 0 0) (TriptychParams.default id)
    (by simp [Orbit.NoFullscreen, show ((Ledger.run [.summon 1 0, .summon 2 0,
      .summon 3 0]).orbit 0).fullscreen = none by decide])
    (by decide) (by decide) (by decide) ⟨by decide, by decide, by decide, by decide, by decide,
      by decide⟩ (by decide)).2.1

/-- An orbit without windows leaves the area empty. -/
theorem project_empty_orbit :
    ¬ Rect.Tiles ⟨0, 0, 1920, 1080⟩ ((project id (Orbit.new 0) (Workarea.new 1920 1080 0 0)
      (TriptychParams.default id)).map (·.rect)) :=
  fun h => absurd h.sizes (by decide)

end Tiled

end Realm
