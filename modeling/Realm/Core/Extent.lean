import Realm.Core.Splits
import Realm.Core.Projection

/-!
# Positive extents

Which layouts place only rectangles with positive sides: those with a pixel for each column
and each row.
-/

namespace Realm

open List

open FloatRound (binary32)

/-! ## Grids -/

section Grids

variable {fl : ℚ → ℚ} {n cols : ℕ} {area : Rect}

namespace Rect

def Solid (r : Rect) : Prop := 0 < r.w ∧ 0 < r.h

instance : DecidablePred Solid := fun r => inferInstanceAs (Decidable (0 < r.w ∧ 0 < r.h))

end Rect

theorem map_size_columns (x y h : ℤ) (widths : List ℤ) :
    (columns x y h widths).map (fun r => (r.w, r.h)) = widths.map (·, h) := by
  rw [columns, map_map]
  have hsnd : ((offsets x widths).zip widths).map Prod.snd = widths :=
    map_snd_zip (by simp)
  conv_rhs => rw [← hsnd, map_map]
  rfl

theorem solid_columns_iff {x y h : ℤ} {widths : List ℤ} (hwidths : widths ≠ []) :
    (∀ r ∈ columns x y h widths, r.Solid) ↔ 0 < h ∧ Positive widths := by
  have hsizes : (∀ r ∈ columns x y h widths, r.Solid) ↔
      ∀ size ∈ (columns x y h widths).map (fun r => (r.w, r.h)), 0 < size.1 ∧ 0 < size.2 := by
    rw [forall_mem_map]
    rfl
  obtain ⟨w, hw⟩ := exists_mem_of_ne_nil widths hwidths
  rw [hsizes, map_size_columns, forall_mem_map]
  exact ⟨fun hall => ⟨(hall w hw).2, fun v hv => (hall v hv).1⟩,
    fun hall v hv => ⟨hall.2 v hv, hall.1⟩⟩

theorem solid_rows_iff (x y : ℤ) (widths : ℕ → List ℤ) (heights : List ℤ) (k : ℕ)
    (hwidths : ∀ row < k + heights.length, widths row ≠ []) :
    (∀ r ∈ rows x y widths heights k, r.Solid) ↔ Positive heights ∧
      ∀ row, k ≤ row → row < k + heights.length → Positive (widths row) := by
  induction heights generalizing y k with
  | nil => simp [rows, Positive]; omega
  | cons h heights ih =>
    rw [length_cons] at hwidths
    have htail := ih (wrap32 (y + h)) (k + 1) fun row hrow => hwidths row (by omega)
    rw [rows_cons, forall_mem_append, htail, solid_columns_iff (hwidths k (by omega)), length_cons]
    constructor
    · rintro ⟨⟨hh, hrow⟩, hheights, hrest⟩
      refine ⟨forall_mem_cons.mpr ⟨hh, hheights⟩, fun row hk hlt => ?_⟩
      rcases hk.eq_or_lt with rfl | hk
      · exact hrow
      · exact hrest row hk (by omega)
    · rintro ⟨hheights, hrest⟩
      obtain ⟨hh, hheights⟩ := forall_mem_cons.mp hheights
      exact ⟨⟨hh, hrest k le_rfl (by omega)⟩, hheights,
        fun row hk hlt => hrest row (by omega) (by omega)⟩

theorem grid_min (p : Option TriptychParams) :
    grid fl n area (min cols n) p = grid fl n area cols p := by
  simp [grid]

/-- A grid of rectangles with pixels needs a pixel for every column of its first row and
for every row. -/
theorem solid_grid_iff (p : Option TriptychParams) (hn : n ≠ 0) (hcols : 0 < cols)
    (hcols' : cols ≤ n) (hw : 0 < area.w) (hw' : area.w < 2 ^ 31) (hh : 0 < area.h)
    (hh' : area.h < 2 ^ 31) (hcolumns : ∀ m, 0 < m → m ≤ cols →
      Splits fl (gridWeights fl m (p.map (·.stackPrimaryRatio))))
    (hrows : ∀ m, 0 < m → m ≤ n → Splits fl (gridWeights fl m (p.map (·.primaryRowRatio)))) :
    (∀ r ∈ grid fl n area cols p, r.Solid) ↔
      (cols : ℤ) ≤ area.w ∧ (((n + cols - 1) / cols : ℕ) : ℤ) ≤ area.h := by
  have hclamp : max 1 (min cols n) = cols := by omega
  rw [grid_eq_rows cols p hn hw hh, hclamp]
  have hcount : 0 < (n + cols - 1) / cols := Nat.div_pos (by omega) hcols
  have hcount' : (n + cols - 1) / cols ≤ n := by
    refine Nat.div_le_of_le_mul ?_
    obtain ⟨n, rfl⟩ := Nat.exists_eq_succ_of_ne_zero hn
    obtain ⟨cols, rfl⟩ := Nat.exists_eq_succ_of_ne_zero hcols.ne'
    rw [Nat.succ_add_sub_one]
    nlinarith [Nat.zero_le (n * cols)]
  have hlength : (partition fl area.h (gridWeights fl ((n + cols - 1) / cols)
      (p.map (·.primaryRowRatio)))).length = (n + cols - 1) / cols := by simp
  have hrow {row : ℕ} (h : row < (n + cols - 1) / cols) :
      rowWidths fl n area.w cols (p.map (·.stackPrimaryRatio)) row = partition fl area.w
        (gridWeights fl (min cols (n - row * cols)) (p.map (·.stackPrimaryRatio))) :=
    if_neg (not_le.mpr (row_mul_lt hcols h))
  have hpositive {row : ℕ} (h : row < (n + cols - 1) / cols) :
      Positive (rowWidths fl n area.w cols (p.map (·.stackPrimaryRatio)) row) ↔
        ((min cols (n - row * cols) : ℕ) : ℤ) ≤ area.w := by
    have hlt := row_mul_lt hcols h
    rw [hrow h, hcolumns _ (by omega) (by omega) area.w hw hw', length_gridWeights]
  rw [solid_rows_iff, hrows _ hcount hcount' area.h hh hh', length_gridWeights, hlength, zero_add]
  · refine ⟨fun ⟨hheight, hwidths⟩ => ⟨?_, hheight⟩, fun ⟨hwidth, hheight⟩ => ⟨hheight, ?_⟩⟩
    · have hfirst := (hpositive hcount).mp (hwidths 0 le_rfl hcount)
      rwa [zero_mul, Nat.sub_zero, min_eq_left hcols'] at hfirst
    · intro row _ hlt
      exact (hpositive hlt).mpr (le_trans (by exact_mod_cast min_le_left _ _) hwidth)
  · intro row hlt
    rw [hlength, zero_add] at hlt
    have hpos := row_mul_lt hcols hlt
    rw [hrow hlt, ← length_pos_iff, length_partition, length_gridWeights]
    omega

/-! ## Layouts -/

theorem splits_gridWeights {m : ℕ} (hm : 0 < m) (hm' : m ≤ 256) {ratio : Option ℚ}
    (hratio : ∀ r ∈ ratio, Splits binary32.round [r, binary32.round (1 - r)]) :
    Splits binary32.round (gridWeights binary32.round m ratio) := by
  unfold gridWeights
  split
  · exact hratio _ rfl
  · exact splits_equal hm hm'

theorem ceilSqrt_spec (n : ℕ) : n ≤ ceilSqrt n * ceilSqrt n ∧ ceilSqrt n ≤ n := by
  have hself : n ≤ n * n := Nat.le_mul_self n
  obtain ⟨c, hc⟩ : ∃ c, ((range (n + 1)).find? fun c => n ≤ c * c) = some c := by
    rw [← Option.isSome_iff_exists, find?_isSome]
    exact ⟨n, by simp, by simpa using hself⟩
  have hmem := mem_of_find?_eq_some hc
  have hle := find?_some hc
  rw [ceilSqrt, hc, Option.getD_some]
  exact ⟨by simpa using hle, by simpa [Nat.lt_succ_iff] using hmem⟩

/-- The tile rectangle has a pixel for every column and every row of the layout of `n`
windows. -/
def Layout.HasRoom (layout : Layout) (n : ℕ) (tiles : Rect) : Prop :=
  match layout with
  | .mono => True
  | .triptych =>
    -- A master column, two columns of a stack and its rows.
    n ≤ 1 ∨ (if n = 2 then 2 else 3) ≤ tiles.w ∧ ((n / 2 : ℕ) : ℤ) ≤ tiles.h
  | .even =>
    (ceilSqrt n : ℤ) ≤ tiles.w ∧ (((n + ceilSqrt n - 1) / ceilSqrt n : ℕ) : ℤ) ≤ tiles.h

theorem Layout.hasRoom_zero (layout : Layout) (tiles : Rect) :
    tiles.w ≤ 0 ∨ tiles.h ≤ 0 ∨ layout.HasRoom ([] : List WinId).length tiles := by
  have hsqrt : ceilSqrt 0 = 0 := rfl
  cases layout with
  | triptych => exact .inr (.inr (.inl (by simp)))
  | mono => exact .inr (.inr trivial)
  | even =>
    simp only [Layout.HasRoom, length_nil, hsqrt, Nat.div_zero, Nat.cast_zero]
    omega

theorem solid_even_iff (hn : n ≠ 0) (hn' : n ≤ 256) (hw : 0 < area.w) (hw' : area.w < 2 ^ 31)
    (hh : 0 < area.h) (hh' : area.h < 2 ^ 31) :
    (∀ r ∈ even binary32.round n area, r.Solid) ↔ Layout.even.HasRoom n area := by
  obtain ⟨hsquare, hle⟩ := ceilSqrt_spec n
  have hpos : 0 < ceilSqrt n := by
    refine Nat.pos_of_ne_zero fun hzero => hn ?_
    simpa [hzero] using hsquare
  rw [even, max_eq_left hpos]
  exact solid_grid_iff none hn hpos hle hw hw' hh hh'
    (fun m hm hm' => splits_gridWeights hm (by omega) nofun)
    (fun m hm hm' => splits_gridWeights hm (by omega) nofun)

theorem solid_stack_iff (area : Rect) (hn : n ≠ 0) (hn' : n ≤ 256) (hw : 0 < area.w)
    (hw' : area.w < 2 ^ 31) (hh : 0 < area.h) (hh' : area.h < 2 ^ 31) :
    (∀ r ∈ grid binary32.round n area sessionParams.stackColumns (some sessionParams), r.Solid) ↔
      ((min 2 n : ℕ) : ℤ) ≤ area.w ∧ (((n + 1) / 2 : ℕ) : ℤ) ≤ area.h := by
  have hcount : (n + min 2 n - 1) / min 2 n = (n + 1) / 2 := by
    rcases (by omega : n = 1 ∨ 2 ≤ n) with rfl | htwo
    · rfl
    · rw [min_eq_left htwo]
      rfl
  rw [← grid_min, ← hcount]
  exact solid_grid_iff (some sessionParams) hn (Nat.lt_min.mpr ⟨by decide +kernel, by omega⟩)
    (min_le_right _ _) hw hw' hh hh'
    (fun m hm hm' => splits_gridWeights hm (by omega)
      (by rintro _ ⟨⟩; exact splits_stackPrimaryRatio))
    (fun m hm hm' => splits_gridWeights hm (by omega)
      (by rintro _ ⟨⟩; exact splits_primaryRowRatio))

theorem triptych_eq (area : Rect) (hn : n ≠ 1) : ∃ master stack,
    partition binary32.round area.w [sessionParams.masterRatio,
      binary32.round (1 - sessionParams.masterRatio)] = [master, stack] ∧ stack < 2 ^ 31 ∧
    triptych binary32.round n area sessionParams = ⟨area.x, area.y, master, area.h⟩ ::
      grid binary32.round (n - 1) ⟨wrap32 (area.x + master), area.y, stack, area.h⟩
        sessionParams.stackColumns (some sessionParams) := by
  obtain ⟨master, stack, hcolumns⟩ := length_eq_two.mp
    (length_partition binary32.round area.w
      [sessionParams.masterRatio, binary32.round (1 - sessionParams.masterRatio)])
  refine ⟨master, stack, hcolumns, ?_, ?_⟩
  · refine partition_lt binary32.round area.w [sessionParams.masterRatio,
      binary32.round (1 - sessionParams.masterRatio)] stack ?_
    rw [hcolumns]
    simp
  · rw [triptych, if_neg hn, hcolumns]
    rfl

theorem solid_triptych_iff (hn : n ≠ 0) (hn' : n ≤ 256) (hw : 0 < area.w) (hw' : area.w < 2 ^ 31)
    (hh : 0 < area.h) (hh' : area.h < 2 ^ 31) :
    (∀ r ∈ triptych binary32.round n area sessionParams, r.Solid) ↔
      Layout.triptych.HasRoom n area := by
  by_cases hone : n = 1
  · subst hone
    simp [triptych, Layout.HasRoom, Rect.Solid, hw, hh]
  obtain ⟨master, stack, hcolumns, hstack, heq⟩ := triptych_eq area hone
  obtain ⟨hmaster, hpos, htwo⟩ := masterRatio_spec hw hw' hcolumns
  rw [heq, forall_mem_cons]
  rcases lt_or_ge area.w 2 with hlt | hge
  · simp only [Layout.HasRoom, Rect.Solid, hmaster]
    constructor
    · omega
    · split <;> omega
  · rw [solid_stack_iff ⟨wrap32 (area.x + master), area.y, stack, area.h⟩ (by omega) (by omega)
      (hpos hge) hstack hh hh']
    simp only [Layout.HasRoom, Rect.Solid, hmaster]
    split <;> omega

end Grids

/-! ## Projections -/

section Projections

variable {o : Orbit} {area : Workarea} {params : TriptychParams} {fl : ℚ → ℚ}

/-- The projection places only rectangles with pixels: a fullscreen window has the whole
output, and otherwise the tiles are empty or have room for the layout. -/
def Orbit.HasRoom (o : Orbit) (area : Workarea) : Prop :=
  ¬ o.NoFullscreen ∨ area.tiles.w ≤ 0 ∨ area.tiles.h ≤ 0 ∨
    o.layout.HasRoom o.visible.length area.tiles

/-- The number of windows that the projection places when there is room. -/
def Orbit.shown (o : Orbit) (area : Workarea) : ℕ :=
  if o.fullscreen.any (· ∈ o.visible) then 1
  else if area.tiles.w ≤ 0 ∨ area.tiles.h ≤ 0 then 0
  else o.visible.length

theorem Orbit.noFullscreen_iff : o.NoFullscreen ↔ o.fullscreen.any (· ∈ o.visible) = false := by
  cases hfull : o.fullscreen <;> simp [Orbit.NoFullscreen, hfull]

theorem project_of_fullscreen (h : ¬ o.NoFullscreen) :
    ∃ full focused, project fl o area params = [⟨full, area.output, focused, false⟩] := by
  unfold Orbit.NoFullscreen at h
  push Not at h
  obtain ⟨full, hfull, hmem⟩ := h
  have hfilter : o.fullscreen.filter (· ∈ o.visible) = some full := by
    rw [hfull]
    simp [Option.filter, hmem]
  refine ⟨full, o.focused = some full, ?_⟩
  simp only [project, hfilter]

theorem project_of_empty (hfull : o.NoFullscreen)
    (h : o.visible = [] ∨ area.tiles.w ≤ 0 ∨ area.tiles.h ≤ 0) : project fl o area params = [] := by
  have hnone : o.fullscreen.filter (· ∈ o.visible) = none := by
    rw [Option.filter_eq_none_iff]
    intro w hw
    simpa using hfull w hw
  simp only [project, hnone]
  rw [if_pos (by simpa using h)]

theorem map_rect_project (hfull : o.NoFullscreen) (hvisible : o.visible ≠ [])
    (hw : 0 < area.tiles.w) (hh : 0 < area.tiles.h) :
    (project fl o area params).map (·.rect) = layoutRects fl o area.tiles params := by
  rw [project_eq hfull hvisible hw hh, map_map]
  exact map_snd_zip (length_layoutRects_le hvisible)

section Room

variable (hvisible : o.visible.length ≤ 256) (hw : area.tiles.w < 2 ^ 31)
include hvisible hw

theorem solid_layoutRects_iff (hne : o.visible ≠ []) (hw' : 0 < area.tiles.w)
    (hh : area.tiles.h < 2 ^ 31) (hh' : 0 < area.tiles.h) :
    (∀ r ∈ layoutRects binary32.round o area.tiles (TriptychParams.default binary32.round),
      r.Solid) ↔ o.layout.HasRoom o.visible.length area.tiles := by
  have hn : o.visible.length ≠ 0 := by simpa using hne
  cases hlayout : o.layout with
  | triptych =>
    simp only [layoutRects, hlayout]
    exact solid_triptych_iff hn hvisible hw' hw hh' hh
  | mono => simp [layoutRects, hlayout, Layout.HasRoom, Rect.Solid, hw', hh']
  | even =>
    simp only [layoutRects, hlayout]
    exact solid_even_iff hn hvisible hw' hw hh' hh

theorem project_solid_iff (houtput : area.output.Solid) (hh : area.tiles.h < 2 ^ 31) :
    (∀ p ∈ project binary32.round o area (TriptychParams.default binary32.round),
      p.rect.Solid) ↔ o.HasRoom area := by
  by_cases hfull : o.NoFullscreen
  · by_cases hempty : o.visible = [] ∨ area.tiles.w ≤ 0 ∨ area.tiles.h ≤ 0
    · rw [project_of_empty hfull hempty]
      refine iff_of_true (by simp) (.inr ?_)
      rcases hempty with hnil | hw | hh
      · rw [hnil]
        exact o.layout.hasRoom_zero area.tiles
      · exact .inl hw
      · exact .inr (.inl hh)
    · push Not at hempty
      obtain ⟨hne, hw', hh'⟩ := hempty
      have hrects : (∀ p ∈ project binary32.round o area (TriptychParams.default binary32.round),
          p.rect.Solid) ↔ ∀ r ∈ layoutRects binary32.round o area.tiles
            (TriptychParams.default binary32.round), r.Solid := by
        rw [← map_rect_project hfull hne hw' hh', forall_mem_map]
      rw [hrects, solid_layoutRects_iff hvisible hw hne hw' hh hh']
      simp [Orbit.HasRoom, hfull, not_le.mpr hw', not_le.mpr hh']
  · obtain ⟨full, focused, heq⟩ := project_of_fullscreen hfull
    rw [heq]
    simp [Orbit.HasRoom, hfull, houtput]

theorem length_layoutRects (hne : o.visible ≠ []) (hw' : 0 < area.tiles.w)
    (hh' : 0 < area.tiles.h) (hroom : o.layout.HasRoom o.visible.length area.tiles) :
    (layoutRects binary32.round o area.tiles (TriptychParams.default binary32.round)).length =
      o.visible.length := by
  have hn : o.visible.length ≠ 0 := by simpa using hne
  cases hlayout : o.layout with
  | mono => simp [layoutRects, hlayout]
  | even =>
    simp only [layoutRects, hlayout]
    exact length_grid _ _ hn hw' hh'
  | triptych =>
    simp only [layoutRects, hlayout]
    change (triptych binary32.round _ _ sessionParams).length = _
    by_cases hone : o.visible.length = 1
    · simp [triptych, hone]
    have htwo : 2 ≤ area.tiles.w := by
      simp only [hlayout, Layout.HasRoom] at hroom
      split at hroom <;> omega
    obtain ⟨master, stack, hcolumns, -, heq⟩ := triptych_eq area.tiles hone
    have hstack := (masterRatio_spec hw' hw hcolumns).2.1 htwo
    have hlength : (grid binary32.round (o.visible.length - 1)
        ⟨wrap32 (area.tiles.x + master), area.tiles.y, stack, area.tiles.h⟩
        sessionParams.stackColumns (some sessionParams)).length = o.visible.length - 1 :=
      length_grid _ _ (by omega) hstack hh'
    rw [heq, length_cons, hlength]
    omega

theorem length_project (hroom : o.HasRoom area) :
    (project binary32.round o area (TriptychParams.default binary32.round)).length =
      o.shown area := by
  by_cases hfull : o.NoFullscreen
  · have hany := Orbit.noFullscreen_iff.mp hfull
    by_cases hempty : o.visible = [] ∨ area.tiles.w ≤ 0 ∨ area.tiles.h ≤ 0
    · rw [project_of_empty hfull hempty, Orbit.shown, hany]
      simp only [length_nil, Bool.false_eq_true, if_false]
      split
      · rfl
      · rename_i htiles
        simp [hempty.resolve_right htiles]
    · push Not at hempty
      obtain ⟨hne, hw', hh'⟩ := hempty
      have hlayout : o.layout.HasRoom o.visible.length area.tiles := by
        simpa [Orbit.HasRoom, hfull, not_le.mpr hw', not_le.mpr hh'] using hroom
      rw [← length_map (·.rect), map_rect_project hfull hne hw' hh',
        length_layoutRects hvisible hw hne hw' hh' hlayout, Orbit.shown, hany]
      simp [not_le.mpr hw', not_le.mpr hh']
  · obtain ⟨full, focused, heq⟩ := project_of_fullscreen hfull
    have hany : o.fullscreen.any (· ∈ o.visible) = true := by
      simpa using mt Orbit.noFullscreen_iff.mpr hfull
    rw [heq, Orbit.shown, if_pos hany]
    rfl

end Room

end Projections

end Realm
