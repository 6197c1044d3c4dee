import Realm.Core.Layout
import Mathlib.Tactic.Linarith
import Mathlib.Algebra.Order.BigOperators.Group.List
import Mathlib.Algebra.BigOperators.Ring.Finset

/-!
# Partitions and tilings

A partition in exact arithmetic has nonnegative parts that sum to the whole, and
the grids and columns built from partitions tile their area: no pixel is covered
twice and none is left over, however small the area is.
-/

namespace Realm

open List

/-! ## Machine integers -/

theorem wrap32_of_mem {z : ℤ} (hlower : -2 ^ 31 ≤ z) (hupper : z < 2 ^ 31) : wrap32 z = z := by
  simp only [wrap32, Int.bmod]
  omega

/-! ## Handing out the leftover -/

def Nonneg (parts : List ℤ) : Prop := ∀ p ∈ parts, 0 ≤ p

section HandOut

variable {order : List ℕ} {parts : List ℤ} {k : ℕ} {m : ℕ}

theorem handOut_zero (order : List ℕ) (parts : List ℤ) : handOut order 0 parts = parts := rfl

theorem handOut_succ (order : List ℕ) (m : ℕ) (parts : List ℤ) : handOut order (m + 1) parts =
      (handOut order m parts).modify (order.getD (m % order.length) 0) (wrap32 <| · + 1) := by
  rw [handOut, range_succ, foldl_append]
  rfl

@[simp]
theorem length_handOut (order : List ℕ) (m : ℕ) (parts : List ℤ) :
    (handOut order m parts).length = parts.length := by
  induction m with
  | zero => rfl
  | succ m ih => rw [handOut_succ, length_modify, ih]

theorem Nonneg.modify_add_one (h : Nonneg parts) (k : ℕ) : Nonneg (parts.modify k (· + 1)) := by
  intro p hp
  obtain ⟨j, hj, rfl⟩ := mem_iff_getElem.mp hp
  rw [getElem_modify]
  have hpart := h _ (getElem_mem (by simpa using hj))
  split <;> omega

theorem sum_modify_add_one (hk : k < parts.length) :
    (parts.modify k (· + 1)).sum = parts.sum + 1 := by
  induction parts generalizing k with
  | nil => simp at hk
  | cons p parts ih =>
    cases k with
    | zero =>
      rw [modify_zero_cons, sum_cons, sum_cons]
      omega
    | succ =>
      rw [modify_succ_cons, sum_cons, sum_cons, ih (Nat.lt_of_succ_lt_succ hk)]
      omega

/-- A pixel more does not overflow while the parts sum to less than the maximum. -/
theorem modify_wrap32 (h : Nonneg parts) (hsum : parts.sum + 1 < 2 ^ 31) (k : ℕ) :
    parts.modify k (wrap32 <| · + 1) = parts.modify k (· + 1) := by
  refine ext_getElem? fun j => ?_
  rw [getElem?_modify, getElem?_modify]
  split
  · cases hj : parts[j]? with
    | none => rfl
    | some p =>
      have hmem := mem_of_getElem? hj
      have hlow := h p hmem
      have hhigh := single_le_sum h p hmem
      exact congrArg some (wrap32_of_mem (by omega) (by omega))
  · rfl

theorem sum_handOut (h : Nonneg parts) (hne : parts ≠ [])
    (horder : order.Perm (List.range parts.length)) (hsum : parts.sum + m < 2 ^ 31) :
    Nonneg (handOut order m parts) ∧ (handOut order m parts).sum = parts.sum + m := by
  have hlength : order.length = parts.length := by simpa using horder.length_eq
  induction m with
  | zero => exact ⟨h, by simp [handOut_zero]⟩
  | succ m ih =>
    obtain ⟨hnonneg, hsame⟩ := ih (by omega)
    have hindex : m % order.length < order.length :=
      Nat.mod_lt _ (hlength ▸ length_pos_iff.mpr hne)
    have hk : order.getD (m % order.length) 0 < (handOut order m parts).length := by
      rw [length_handOut, getD_eq_getElem?_getD, getElem?_eq_getElem hindex]
      exact mem_range.mp (horder.mem_iff.mp (getElem_mem hindex))
    rw [handOut_succ, modify_wrap32 hnonneg (by omega)]
    refine ⟨hnonneg.modify_add_one _, ?_⟩
    rw [sum_modify_add_one hk, hsame]
    omega

theorem le_handOut (h : Nonneg parts) (hne : parts ≠ [])
    (horder : order.Perm (List.range parts.length)) (hsum : parts.sum + m < 2 ^ 31) :
    List.Forall₂ (· ≤ ·) parts (handOut order m parts) := by
  induction m with
  | zero => exact forall₂_refl _
  | succ m ih =>
    obtain ⟨hnonneg, hsame⟩ := sum_handOut h hne horder (m := m) (by omega)
    rw [handOut_succ, modify_wrap32 hnonneg (by omega)]
    refine forall₂_iff_get.mpr ⟨by simp, fun j hj hj' => ?_⟩
    have hle := (forall₂_iff_get.mp (ih (by omega))).2 j hj (by simpa using hj)
    simp only [get_eq_getElem, getElem_modify] at hle ⊢
    split <;> omega

end HandOut

/-! ## Shares -/

section Shares

variable {fl : ℚ → ℚ} {total : ℤ} {weights : List ℚ}

def floors (fl : ℚ → ℚ) (total : ℤ) (weights : List ℚ) : List ℤ :=
  weights.map (floorShare fl total (weightSum fl weights))

variable (fl total weights)

theorem floorShare_nonneg (sum w : ℚ) : 0 ≤ floorShare fl total sum w := by
  simp only [floorShare, saturate32]
  omega

theorem nonneg_floors : Nonneg (floors fl total weights) := by
  intro p hp
  obtain ⟨w, _, rfl⟩ := mem_map.mp hp
  exact floorShare_nonneg fl total _ w

@[simp]
theorem length_floors : (floors fl total weights).length = weights.length := length_map _

/-- What the share at a position loses when it is rounded down. -/
def loss (fl : ℚ → ℚ) (total : ℤ) (weights : List ℚ) (i : ℕ) : ℚ :=
  let share := exactShare fl total (weightSum fl weights) (weights.getD i 0)
  fl (share - fl (floorShare fl total (weightSum fl weights) (weights.getD i 0)))

/-- The positions are ordered by falling loss, and equal losses by position. -/
def ByLoss (loss : ℕ → ℚ) (order : List ℕ) : Prop :=
  order.Pairwise fun i j => loss j < loss i ∨ (loss i = loss j ∧ i ≤ j)

theorem byLoss_remainderOrder (loss : ℕ → ℚ) {remainders : List (ℚ × ℕ)}
    (h : ∀ p ∈ remainders, p.1 = loss p.2) : ByLoss loss (remainderOrder remainders) := by
  have : Std.Total fun a b : ℚ × ℕ => b.1 < a.1 ∨ (a.1 = b.1 ∧ a.2 ≤ b.2) := ⟨fun a b => by grind⟩
  have : IsTrans _ fun a b : ℚ × ℕ => b.1 < a.1 ∨ (a.1 = b.1 ∧ a.2 ≤ b.2) := ⟨fun a b c => by grind⟩
  rw [ByLoss, remainderOrder, pairwise_map]
  refine (pairwise_insertionSort _ remainders).imp_of_mem fun {a b} ha hb hab => ?_
  rwa [h a ((mem_insertionSort _).mp ha), h b ((mem_insertionSort _).mp hb)] at hab

/-- The leftover pixels go around the parts in the order of their losses. -/
theorem exists_shares_eq :
    ∃ order : List ℕ, order.Perm (List.range (floors fl total weights).length) ∧
      ByLoss (loss fl total weights) order ∧ shares fl total weights =
        handOut order (wrap32 (total - (floors fl total weights).foldl
          (fun acc p => wrap32 (acc + p)) 0)).toNat (floors fl total weights) := by
  refine ⟨_, ?_, ?_, rfl⟩
  · refine ((perm_insertionSort _ _).map Prod.snd).trans (Perm.of_eq ?_)
    rw [length_floors, map_map, range_eq_range']
    exact zipIdx_map_snd 0 weights
  · refine byLoss_remainderOrder _ fun p hp => ?_
    obtain ⟨⟨w, i⟩, hmem, rfl⟩ := mem_map.mp hp
    simp only [loss, getD_eq_getElem?_getD, mk_mem_zipIdx_iff_getElem?.mp hmem]
    rfl

theorem wrap32_sub_foldl (total acc : ℤ) (parts : List ℤ) :
    wrap32 (total - parts.foldl (fun acc p => wrap32 (acc + p)) acc) =
      wrap32 (total - (acc + parts.sum)) := by
  induction parts generalizing acc with
  | nil => simp
  | cons p parts ih =>
    have hcongr : wrap32 (total - (wrap32 (acc + p) + parts.sum)) =
        wrap32 (total - parts.sum - wrap32 (acc + p)) := by
      congr 1
      ring
    rw [foldl_cons, ih, hcongr, sum_cons]
    unfold wrap32
    rw [Int.sub_bmod_bmod]
    congr 1
    ring

variable {fl total weights}

/-- The leftover is what the floors leave of the total, also when they exceed it. -/
theorem exists_shares_eq_handOut (htotal : 0 ≤ total) (hmax : total < 2 ^ 31)
    (hfloors : (floors fl total weights).sum ≤ total + 2 ^ 31) :
    ∃ order : List ℕ, order.Perm (List.range (floors fl total weights).length) ∧
      ByLoss (loss fl total weights) order ∧ shares fl total weights =
        handOut order (total - (floors fl total weights).sum).toNat (floors fl total weights) := by
  obtain ⟨order, hperm, hlosses, heq⟩ := exists_shares_eq fl total weights
  have hpos := sum_nonneg (nonneg_floors fl total weights)
  rw [wrap32_sub_foldl, zero_add, wrap32_of_mem (by omega) (by omega)] at heq
  exact ⟨order, hperm, hlosses, heq⟩

theorem shares_spec (hweights : weights ≠ []) (htotal : total < 2 ^ 31)
    (hfloors : (floors fl total weights).sum ≤ total) :
    Nonneg (shares fl total weights) ∧ (shares fl total weights).sum = total ∧
      List.Forall₂ (· ≤ ·) (floors fl total weights) (shares fl total weights) := by
  have hnonneg := nonneg_floors fl total weights
  have hpos := sum_nonneg hnonneg
  obtain ⟨order, hperm, -, heq⟩ := exists_shares_eq_handOut (by omega) htotal
    (hfloors.trans (by omega))
  have hne : floors fl total weights ≠ [] := by simpa [floors] using hweights
  obtain ⟨hparts, hsum⟩ := sum_handOut hnonneg hne hperm
    (m := (total - (floors fl total weights).sum).toNat) (by omega)
  rw [heq]
  exact ⟨hparts, hsum.trans (by omega), le_handOut hnonneg hne hperm (by omega)⟩

theorem weightSum_id (h : ∀ w ∈ weights, 0 ≤ w) : weightSum id weights = weights.sum := by
  have hfold : ∀ acc : ℚ, weights.foldl (fun acc w => id (acc + max w 0)) acc =
      acc + weights.sum := by
    induction weights with
    | nil => simp
    | cons w weights ih =>
      intro acc
      rw [foldl_cons, ih fun v hv => h v (mem_cons_of_mem w hv), sum_cons,
        max_eq_left (h w mem_cons_self), id, add_assoc]
  rw [weightSum, hfold, zero_add]

section Exact

variable (h : ∀ w ∈ weights, 0 ≤ w) (hsum : 0 < weights.sum) (htotal : 0 ≤ total)
  (hmax : total < 2 ^ 31)

include h in
theorem exactShare_id {w : ℚ} (hw : w ∈ weights) :
    exactShare id total weights.sum w = total * w / weights.sum := by
  rw [exactShare, max_eq_left (h w hw), id, id, id]

include h hsum htotal hmax

theorem floorShare_id {w : ℚ} (hw : w ∈ weights) :
    floorShare id total weights.sum w = ⌊total * w / weights.sum⌋ := by
  have htotal' : (0 : ℚ) ≤ total := by exact_mod_cast htotal
  have hlow : 0 ≤ ⌊total * w / weights.sum⌋ :=
    Int.floor_nonneg.mpr (div_nonneg (mul_nonneg htotal' (h w hw)) hsum.le)
  have hhigh : ⌊total * w / weights.sum⌋ ≤ total := by
    refine Int.floor_le_iff.mpr (lt_of_le_of_lt ?_ (lt_add_one _))
    exact div_le_of_le_mul₀ hsum.le htotal'
      (mul_le_mul_of_nonneg_left (single_le_sum h w hw) htotal')
  rw [floorShare, exactShare_id h hw, saturate32]
  omega

theorem sum_floors_id : (floors id total weights).sum ≤ total := by
  have hcast : (((floors id total weights).sum : ℤ) : ℚ) ≤ total := calc
    (((floors id total weights).sum : ℤ) : ℚ)
      = (weights.map fun w => (floorShare id total weights.sum w : ℚ)).sum := by
        rw [floors, weightSum_id h, Int.cast_list_sum, map_map]
        rfl
    _ ≤ (weights.map fun w => total / weights.sum * w).sum := by
        refine sum_le_sum fun w hw => ?_
        rw [floorShare_id h hsum htotal hmax hw, div_mul_eq_mul_div]
        exact Int.floor_le _
    _ = total / weights.sum * weights.sum := by rw [sum_map_mul_left, map_id']
    _ = total := div_mul_cancel₀ _ hsum.ne'
  exact_mod_cast hcast

end Exact

theorem partition_id (total : ℤ) (weights : List ℚ) (h : ∀ w ∈ weights, 0 ≤ w)
    (hsum : 0 < weights.sum) (htotal : 0 < total) (hmax : total < 2 ^ 31) :
    Nonneg (partition id total weights) ∧ (partition id total weights).sum = total ∧
      List.Forall₂ (· ≤ ·) (floors id total weights) (partition id total weights) := by
  have hne : weights ≠ [] := by
    rintro rfl
    simp at hsum
  have hpartition : partition id total weights = shares id total weights := by
    rw [partition, if_neg (by simpa using hne), if_neg (not_le.mpr htotal), weightSum_id h,
      if_neg (not_le.mpr hsum)]
  rw [hpartition]
  exact shares_spec hne hmax (sum_floors_id h hsum htotal.le hmax)

end Shares

/-! ## Tilings -/

namespace Rect

def Contains (r : Rect) (px py : ℤ) : Prop :=
  r.x ≤ px ∧ px < r.x + r.w ∧ r.y ≤ py ∧ py < r.y + r.h

/-- The rectangle lies within the borders of the area. -/
structure Inside (r area : Rect) : Prop where
  w_nonneg : 0 ≤ r.w
  h_nonneg : 0 ≤ r.h
  left : area.x ≤ r.x
  right : r.x + r.w ≤ area.x + area.w
  top : area.y ≤ r.y
  bottom : r.y + r.h ≤ area.y + area.h

def Apart (r r' : Rect) : Prop := ∀ px py, ¬ (r.Contains px py ∧ r'.Contains px py)

def size (r : Rect) : ℤ := r.w * r.h

/-- The corners of the rectangle are `i32` coordinates. -/
structure Fits (r : Rect) : Prop where
  left : -2 ^ 31 ≤ r.x
  width : r.w < 2 ^ 31
  right : r.x + r.w < 2 ^ 31
  top : -2 ^ 31 ≤ r.y
  height : r.h < 2 ^ 31
  bottom : r.y + r.h < 2 ^ 31

/-- The rectangles lie inside the area, apart from each other, and fill it. -/
structure Tiles (area : Rect) (rs : List Rect) : Prop where
  inside : ∀ r ∈ rs, r.Inside area
  apart : rs.Pairwise Apart
  sizes : (rs.map size).sum = area.size

variable {r : Rect} {rs rs' : List Rect} {x y w w' h h' : ℤ}

theorem tiles_nil (hsize : r.size = 0) : Tiles r [] := ⟨by simp, List.Pairwise.nil, by simp [hsize]⟩

theorem tiles_singleton (hw : 0 ≤ r.w) (hh : 0 ≤ r.h) : Tiles r [r] where
  inside := by
    intro s hs
    obtain rfl := mem_singleton.mp hs
    exact ⟨hw, hh, le_rfl, le_rfl, le_rfl, le_rfl⟩
  apart := pairwise_singleton _ _
  sizes := by simp

theorem Tiles.beside (hrs : Tiles ⟨x, y, w, h⟩ rs) (hrs' : Tiles ⟨x + w, y, w', h⟩ rs')
    (hw : 0 ≤ w) (hw' : 0 ≤ w') : Tiles ⟨x, y, w + w', h⟩ (rs ++ rs') where
  inside := by
    intro r hr
    rcases mem_append.mp hr with hr | hr
    · obtain ⟨hw, hh, hleft, hright, htop, hbottom⟩ := hrs.inside r hr
      simp only at hleft hright
      exact ⟨hw, hh, hleft, by simp only; omega, htop, hbottom⟩
    · obtain ⟨hw, hh, hleft, hright, htop, hbottom⟩ := hrs'.inside r hr
      simp only at hleft hright
      exact ⟨hw, hh, by simp only; omega, by simp only; omega, htop, hbottom⟩
  apart := by
    refine pairwise_append.mpr ⟨hrs.apart, hrs'.apart, fun r hr r' hr' px py ⟨hp, hp'⟩ => ?_⟩
    have hright := (hrs.inside r hr).right
    have hleft := (hrs'.inside r' hr').left
    simp only at hright hleft
    have := hp.2.1
    have := hp'.1
    omega
  sizes := by
    have hsizes := hrs.sizes
    have hsizes' := hrs'.sizes
    simp only [size] at hsizes hsizes' ⊢
    rw [map_append, sum_append, hsizes, hsizes', add_mul]

theorem Tiles.above (hrs : Tiles ⟨x, y, w, h⟩ rs) (hrs' : Tiles ⟨x, y + h, w, h'⟩ rs')
    (hh : 0 ≤ h) (hh' : 0 ≤ h') : Tiles ⟨x, y, w, h + h'⟩ (rs ++ rs') where
  inside := by
    intro r hr
    rcases mem_append.mp hr with hr | hr
    · obtain ⟨hw, hh, hleft, hright, htop, hbottom⟩ := hrs.inside r hr
      simp only at htop hbottom
      exact ⟨hw, hh, hleft, hright, htop, by simp only; omega⟩
    · obtain ⟨hw, hh, hleft, hright, htop, hbottom⟩ := hrs'.inside r hr
      simp only at htop hbottom
      exact ⟨hw, hh, hleft, hright, by simp only; omega, by simp only; omega⟩
  apart := by
    refine pairwise_append.mpr ⟨hrs.apart, hrs'.apart, fun r hr r' hr' px py ⟨hp, hp'⟩ => ?_⟩
    have hbottom := (hrs.inside r hr).bottom
    have htop := (hrs'.inside r' hr').top
    simp only at hbottom htop
    have := hp.2.2.2
    have := hp'.2.2.1
    omega
  sizes := by
    have hsizes := hrs.sizes
    have hsizes' := hrs'.sizes
    simp only [size] at hsizes hsizes' ⊢
    rw [map_append, sum_append, hsizes, hsizes', mul_add]

end Rect

open Rect

section Grids

variable {widths heights : List ℤ} {x y w h : ℤ} {cols n : ℕ} {fl : ℚ → ℚ} {area : Rect}

def columns (x y h : ℤ) (widths : List ℤ) : List Rect :=
  ((offsets x widths).zip widths).map fun (x, w) => ⟨x, y, w, h⟩

@[simp]
theorem length_offsets (x : ℤ) (widths : List ℤ) : (offsets x widths).length = widths.length := by
  induction widths generalizing x with
  | nil => rfl
  | cons w widths ih => rw [offsets, length_cons, length_cons, ih]

@[simp]
theorem length_columns (x y h : ℤ) (widths : List ℤ) :
    (columns x y h widths).length = widths.length := by
  simp [columns]

theorem tiles_columns (hwidths : Nonneg widths) (hh : 0 ≤ h) (hx : -2 ^ 31 ≤ x)
    (hright : x + widths.sum < 2 ^ 31) : Tiles ⟨x, y, widths.sum, h⟩ (columns x y h widths) := by
  induction widths generalizing x with
  | nil => exact tiles_nil (by simp [size])
  | cons w widths ih =>
    have hw := hwidths w mem_cons_self
    have hrest : Nonneg widths := fun v hv => hwidths v (mem_cons_of_mem w hv)
    have hsum := sum_nonneg hrest
    rw [sum_cons] at hright ⊢
    have hstep : wrap32 (x + w) = x + w := wrap32_of_mem (by omega) (by omega)
    have htail := ih hrest (x := x + w) (by omega) (by omega)
    have hcolumns : columns x y h (w :: widths) =
        [⟨x, y, w, h⟩] ++ columns (x + w) y h widths := by
      simp [columns, offsets, hstep]
    rw [hcolumns]
    exact (tiles_singleton hw hh).beside htail hw hsum

/-- The rows below each other, each with the widths of its index. -/
def rows (x y : ℤ) (widths : ℕ → List ℤ) (heights : List ℤ) (k : ℕ) : List Rect :=
  (((offsets y heights).zip heights).zipIdx k).flatMap fun ((y, h), row) =>
    columns x y h (widths row)

theorem rows_cons (x y : ℤ) (widths : ℕ → List ℤ) (h : ℤ) (heights : List ℤ) (k : ℕ) :
    rows x y widths (h :: heights) k =
      columns x y h (widths k) ++ rows x (wrap32 (y + h)) widths heights (k + 1) := rfl

theorem tiles_rows (widths : ℕ → List ℤ) {k : ℕ} (hheights : Nonneg heights)
    (hwidths : ∀ row, k ≤ row → row < k + heights.length →
      Nonneg (widths row) ∧ (widths row).sum = w)
    (hx : -2 ^ 31 ≤ x) (hright : x + w < 2 ^ 31) (hy : -2 ^ 31 ≤ y)
    (hbottom : y + heights.sum < 2 ^ 31) :
    Tiles ⟨x, y, w, heights.sum⟩ (rows x y widths heights k) := by
  induction heights generalizing y k with
  | nil => exact tiles_nil (by simp [size])
  | cons h heights ih =>
    have hh := hheights h mem_cons_self
    have hrest : Nonneg heights := fun v hv => hheights v (mem_cons_of_mem h hv)
    have hsum := sum_nonneg hrest
    rw [sum_cons] at hbottom ⊢
    rw [rows_cons, wrap32_of_mem (by omega) (by omega)]
    obtain ⟨hnonneg, hfills⟩ := hwidths k le_rfl (by simp)
    have hrow : Tiles ⟨x, y, w, h⟩ (columns x y h (widths k)) := by
      rw [← hfills] at hright ⊢
      exact tiles_columns hnonneg hh hx hright
    refine hrow.above (ih hrest ?_ (by omega) (by omega)) hh hsum
    intro row hk hlt
    rw [length_cons] at hwidths
    exact hwidths row (by omega) (by omega)

theorem length_rows (x y : ℤ) (widths : ℕ → List ℤ) (heights : List ℤ) (k : ℕ) :
    (rows x y widths heights k).length =
      ((List.range' k heights.length).map fun row => (widths row).length).sum := by
  induction heights generalizing y k with
  | nil => rfl
  | cons h heights ih =>
    rw [rows_cons, length_append, ih, length_cons, range'_succ, map_cons,
      sum_cons, length_columns]

/-- The widths of a row of a grid of `n` rectangles. -/
def rowWidths (fl : ℚ → ℚ) (n : ℕ) (w : ℤ) (cols : ℕ) (ratio : Option ℚ) (row : ℕ) : List ℤ :=
  if n ≤ row * cols then []
  else partition fl w (gridWeights fl (min cols (n - row * cols)) ratio)

theorem grid_eq_rows (cols : ℕ) (p : Option TriptychParams) (hn : n ≠ 0) (hw : 0 < area.w)
    (hh : 0 < area.h) : grid fl n area cols p = rows area.x area.y
        (rowWidths fl n area.w (max 1 (min cols n)) (p.map (·.stackPrimaryRatio)))
        (partition fl area.h (gridWeights fl
          ((n + max 1 (min cols n) - 1) / max 1 (min cols n)) (p.map (·.primaryRowRatio)))) 0 := by
  rw [grid, if_neg (by omega)]
  refine congrArg (flatMap · _) (funext fun ((y, h), row) => ?_)
  simp only [rowWidths]
  split <;> rfl

/-! ## Whole layouts -/

@[simp]
theorem length_gridWeights (fl : ℚ → ℚ) (n : ℕ) (ratio : Option ℚ) :
    (gridWeights fl n ratio).length = n := by
  unfold gridWeights
  split
  · rfl
  · exact length_replicate

@[simp]
theorem length_partition (fl : ℚ → ℚ) (total : ℤ) (weights : List ℚ) :
    (partition fl total weights).length = weights.length := by
  have hshares (weights : List ℚ) : (shares fl total weights).length = weights.length := by
    obtain ⟨order, -, -, heq⟩ := exists_shares_eq fl total weights
    rw [heq, length_handOut, length_floors]
  unfold partition
  split
  · rename_i hnil
    rw [isEmpty_iff.mp hnil]
    rfl
  split
  · exact length_replicate
  split
  · rw [hshares, length_replicate]
  · exact hshares weights

theorem sum_min_row (hcols : 0 < cols) (m : ℕ) :
    ((List.range m).map fun row => if n ≤ row * cols then 0 else min cols (n - row * cols)).sum =
      min (m * cols) n := by
  induction m with
  | zero => simp
  | succ m ih =>
    rw [range_succ, map_append, sum_append, ih, map_singleton, sum_singleton, Nat.succ_mul]
    split <;> omega

theorem le_ceil_mul (hcols : 0 < cols) : n ≤ (n + cols - 1) / cols * cols := by
  have hdiv := Nat.div_add_mod (n + cols - 1) cols
  have hmod := Nat.mod_lt (n + cols - 1) hcols
  rw [mul_comm] at hdiv
  omega

theorem length_grid (cols : ℕ) (p : Option TriptychParams) (hn : n ≠ 0) (hw : 0 < area.w)
    (hh : 0 < area.h) : (grid fl n area cols p).length = n := by
  have hcols : 0 < max 1 (min cols n) := by omega
  have hlength (row : ℕ) : (rowWidths fl n area.w (max 1 (min cols n))
      (p.map (·.stackPrimaryRatio)) row).length = if n ≤ row * max 1 (min cols n) then 0 else
        min (max 1 (min cols n)) (n - row * max 1 (min cols n)) := by
    unfold rowWidths
    split
    · rfl
    · simp
  rw [grid_eq_rows cols p hn hw hh, length_rows, length_partition, length_gridWeights,
    ← range_eq_range', funext hlength, sum_min_row hcols]
  exact min_eq_right (le_ceil_mul hcols)

theorem length_grid_le (fl : ℚ → ℚ) (n : ℕ) (area : Rect) (cols : ℕ)
    (p : Option TriptychParams) : (grid fl n area cols p).length ≤ n := by
  by_cases hempty : n = 0 ∨ area.w ≤ 0 ∨ area.h ≤ 0
  · rw [grid, if_pos hempty]
    exact Nat.zero_le n
  · push Not at hempty
    exact (length_grid cols p hempty.1 hempty.2.1 hempty.2.2).le

/-- The split of two parts is a ratio. -/
def Ratio (r : ℚ) : Prop := 0 ≤ r ∧ r ≤ 1

theorem partition_gridWeights {total : ℤ} (ratio : Option ℚ) (hn : n ≠ 0)
    (hratio : ∀ r ∈ ratio, Ratio r) (htotal : 0 < total) (hmax : total < 2 ^ 31) :
    Nonneg (partition id total (gridWeights id n ratio)) ∧
      (partition id total (gridWeights id n ratio)).sum = total := by
  have hweights : (∀ w ∈ gridWeights id n ratio, 0 ≤ w) ∧ (gridWeights id n ratio).sum = 1 := by
    unfold gridWeights
    split
    · rename_i r
      obtain ⟨hlow, hhigh⟩ := hratio r rfl
      refine ⟨fun w hw => ?_, by simp⟩
      rcases mem_pair.mp hw with rfl | rfl
      · exact hlow
      · exact sub_nonneg.mpr hhigh
    · have hcast : (n : ℚ) ≠ 0 := Nat.cast_ne_zero.mpr hn
      refine ⟨fun w hw => ?_, ?_⟩
      · rw [eq_of_mem_replicate hw]
        exact one_div_nonneg.mpr n.cast_nonneg
      · rw [sum_replicate, nsmul_eq_mul]
        exact mul_one_div_cancel hcast
  obtain ⟨hnonneg, hsum, _⟩ :=
    partition_id total _ hweights.1 (by rw [hweights.2]; exact one_pos) htotal hmax
  exact ⟨hnonneg, hsum⟩

theorem row_mul_lt {row : ℕ} (hcols : 0 < cols)
    (hrow : row < (n + cols - 1) / cols) : row * cols < n := by
  have hle := Nat.mul_le_of_le_div cols (row + 1) (n + cols - 1) hrow
  rw [Nat.succ_mul] at hle
  omega

theorem tiles_grid (cols : ℕ) {p : Option TriptychParams} (hn : n ≠ 0) (hw : 0 < area.w)
    (hh : 0 < area.h) (harea : area.Fits)
    (hp : ∀ q ∈ p, Ratio q.stackPrimaryRatio ∧ Ratio q.primaryRowRatio) :
    Tiles area (grid id n area cols p) := by
  have hcols : 0 < max 1 (min cols n) := by omega
  have hrows : (n + max 1 (min cols n) - 1) / max 1 (min cols n) ≠ 0 := by
    intro hzero
    have hle := le_ceil_mul (n := n) hcols
    rw [hzero, Nat.zero_mul] at hle
    omega
  obtain ⟨hnonneg, hsum⟩ := partition_gridWeights (p.map (·.primaryRowRatio)) hrows
    (by simpa using fun q hq => (hp q hq).2) hh harea.height
  have hright := harea.right
  have hbottom := harea.bottom
  rw [← hsum] at hbottom
  have htiles := tiles_rows (rowWidths id n area.w (max 1 (min cols n))
    (p.map (·.stackPrimaryRatio))) (k := 0) hnonneg ?_ harea.left hright harea.top hbottom
  · rw [grid_eq_rows cols p hn hw hh]
    rwa [hsum] at htiles
  · intro row _ hrow
    rw [length_partition, length_gridWeights, Nat.zero_add] at hrow
    have hlt := row_mul_lt hcols hrow
    rw [rowWidths, if_neg (by omega)]
    exact partition_gridWeights _ (by omega) (by simpa using fun q hq => (hp q hq).1) hw harea.width

theorem ratio_sanitised (p : TriptychParams) : Ratio (p.sanitised id).masterRatio ∧
    Ratio (p.sanitised id).stackPrimaryRatio ∧ Ratio (p.sanitised id).primaryRowRatio := by
  have hclamp (r : ℚ) : Ratio (max (id (15 / 100)) (min r (id (85 / 100)))) :=
    ⟨(by norm_num : (0 : ℚ) ≤ 15 / 100).trans (le_max_left _ _),
      max_le (by norm_num) ((min_le_right _ _).trans (by norm_num))⟩
  exact ⟨hclamp _, hclamp _, hclamp _⟩

theorem exists_columns {w : ℤ} {r : ℚ} (hr : Ratio r) (hw : 0 < w) (hmax : w < 2 ^ 31) :
    ∃ master stack, partition id w [r, id (1 - r)] = [master, stack] ∧ 0 ≤ master ∧ 0 ≤ stack ∧
      master + stack = w := by
  obtain ⟨hnonneg, hsum, _⟩ := partition_id w [r, id (1 - r)]
    (by simpa using ⟨hr.1, hr.2⟩) (by simp) hw hmax
  obtain ⟨master, stack, heq⟩ := length_eq_two.mp (length_partition id w [r, id (1 - r)])
  rw [heq] at hnonneg hsum
  exact ⟨master, stack, heq, hnonneg _ (by simp), hnonneg _ (by simp), by simpa using hsum⟩

/-- The triptych tiles its area in exact arithmetic, with any sanitised parameters. -/
theorem tiles_triptych (p : TriptychParams) (hn : n ≠ 0) (hw : 0 < area.w) (hh : 0 < area.h)
    (harea : area.Fits) : Tiles area (triptych id n area (p.sanitised id)) := by
  obtain ⟨hmaster, hprimary, hrow⟩ := ratio_sanitised p
  unfold triptych
  split
  · exact tiles_singleton hw.le hh.le
  obtain ⟨master, stack, heq, hmaster, hstack, hsum⟩ := exists_columns hmaster hw harea.width
  obtain ⟨hleft, hwidth, hright, htop, hheight, hbottom⟩ := harea
  simp only [heq, getD_cons_zero, getD_cons_succ]
  rw [wrap32_of_mem (by omega) (by omega)]
  have hgrid : Tiles ⟨area.x + master, area.y, stack, area.h⟩ (grid id (n - 1)
      ⟨area.x + master, area.y, stack, area.h⟩ (p.sanitised id).stackColumns
        (some (p.sanitised id))) := by
    rcases hstack.eq_or_lt with hzero | hpos
    · rw [grid, if_pos (by simp; omega)]
      exact tiles_nil (by simp [size, ← hzero])
    · refine tiles_grid _ (by omega) hpos hh ⟨?_, ?_, ?_, htop, hheight, hbottom⟩ ?_
      · simp only; omega
      · simp only; omega
      · simp only; omega
      · simpa using ⟨hprimary, hrow⟩
  have htiles := (tiles_singleton (r := ⟨area.x, area.y, master, area.h⟩) hmaster hh.le).beside
    hgrid hmaster hstack
  rwa [hsum] at htiles

end Grids

end Realm
