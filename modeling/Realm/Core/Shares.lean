import Realm.Core.Tiling
import Mathlib.Algebra.Order.BigOperators.Group.Finset
import Mathlib.Algebra.BigOperators.Fin
import Mathlib.Algebra.BigOperators.Field
import Mathlib.Data.List.GetD

/-!
# Fair shares

In exact arithmetic a partition rounds every proportional share up or down, and hands the
pixels that are left to the shares that lost the most.
-/

namespace Realm

open Finset (range)

/-! ## Largest remainders -/

section Rounds

/-- Every part is its share rounded down or up, the parts sum to what the shares do, and the
shares that lose the most are rounded up, the earlier one of two that lose the same. -/
structure Rounds (n : ℕ) (share : ℕ → ℚ) (part : ℕ → ℤ) : Prop where
  near : ∀ i < n, part i = ⌊share i⌋ ∨ part i = ⌊share i⌋ + 1
  sum : ∑ i ∈ range n, (part i : ℚ) = ∑ i ∈ range n, share i
  first : ∀ i < n, ∀ j < n, part i = ⌊share i⌋ + 1 → part j = ⌊share j⌋ →
    Int.fract (share j) < Int.fract (share i) ∨ Int.fract (share i) = Int.fract (share j) ∧ i ≤ j

variable {n i j : ℕ} {share : ℕ → ℚ} {part : ℕ → ℤ}

/-- A share that is rounded up is not whole: else the parts would sum to more. -/
theorem Rounds.lt_share (h : Rounds n share part) (hi : i < n) (hup : part i = ⌊share i⌋ + 1) :
    (⌊share i⌋ : ℚ) < share i := by
  by_contra hwhole
  have hfract : Int.fract (share i) = 0 := by
    rw [Int.fract, sub_eq_zero]
    exact le_antisymm (not_lt.mp hwhole) (Int.floor_le _)
  have hle : ∀ k ∈ range n, share k ≤ part k := by
    intro k hk
    rcases h.near k (Finset.mem_range.mp hk) with hdown | hup'
    · have hzero : Int.fract (share k) = 0 := by
        rcases h.first i hi k (Finset.mem_range.mp hk) hup hdown with hlt | ⟨heq, -⟩
        · exact absurd (hfract ▸ hlt) (not_lt.mpr (Int.fract_nonneg _))
        · exact heq.symm.trans hfract
      rw [hdown]
      exact (sub_eq_zero.mp hzero).le
    · rw [hup', Int.cast_add, Int.cast_one]
      exact (Int.lt_floor_add_one _).le
  refine (Finset.sum_lt_sum hle ⟨i, Finset.mem_range.mpr hi, ?_⟩).ne h.sum.symm
  rw [hup, Int.cast_add, Int.cast_one]
  exact Int.lt_floor_add_one _

theorem Rounds.abs_sub_lt (h : Rounds n share part) (hi : i < n) :
    |(part i : ℚ) - share i| < 1 := by
  have hlow := Int.floor_le (share i)
  have hhigh := Int.lt_floor_add_one (share i)
  rw [abs_lt]
  rcases h.near i hi with hdown | hup
  · rw [hdown]
    constructor <;> linarith
  · have hlt := h.lt_share hi hup
    rw [hup, Int.cast_add, Int.cast_one]
    constructor <;> linarith

theorem Rounds.le_of_lt (h : Rounds n share part) (hi : i < n) (hj : j < n)
    (hlt : share i < share j) : part i ≤ part j := by
  have hfloor := Int.floor_le_floor hlt.le
  by_contra hgt
  have hup : part i = ⌊share i⌋ + 1 := by grind [h.near i hi, h.near j hj]
  have hdown : part j = ⌊share j⌋ := by grind [h.near i hi, h.near j hj]
  have hsame : ⌊share i⌋ = ⌊share j⌋ := by omega
  have hfract : Int.fract (share i) < Int.fract (share j) := by
    rw [Int.fract, Int.fract, hsame]
    linarith
  rcases h.first i hi j hj hup hdown with hless | ⟨heq, -⟩
  · exact lt_asymm hfract hless
  · exact hfract.ne heq

/-- Of two equal shares the earlier one gets no less, and at most one more. -/
theorem Rounds.of_eq (h : Rounds n share part) (hij : i < j) (hj : j < n)
    (heq : share i = share j) : part j ≤ part i ∧ part i ≤ part j + 1 := by
  have hi := hij.trans hj
  have hnear := h.near i hi
  rw [heq] at hnear
  refine ⟨?_, by grind [h.near j hj]⟩
  by_contra hgt
  have hup : part j = ⌊share j⌋ + 1 := by grind [h.near j hj]
  rcases h.first j hj i hi hup (by grind [h.near j hj]) with hless | ⟨-, hle⟩
  · exact lt_irrefl _ (heq ▸ hless)
  · omega

end Rounds

/-! ## Shares of a length -/

section Shares

variable {order : List ℕ} {parts : List ℤ} {total : ℤ} {weights : List ℚ} {i j : ℕ}

theorem sum_range_getD {M : Type*} [AddCommMonoid M] {l : List M} {n : ℕ} (h : l.length = n) :
    ∑ i ∈ range n, l.getD i 0 = l.sum := by
  subst h
  rw [Finset.sum_range, ← Fin.sum_univ_getElem]
  simp

theorem sum_share (total : ℤ) (hsum : 0 < weights.sum) :
    (∑ i ∈ range weights.length, total * weights.getD i 0 / weights.sum : ℚ) = total := by
  rw [← Finset.sum_div, ← Finset.mul_sum, sum_range_getD rfl, mul_div_assoc, div_self hsum.ne',
    mul_one]

theorem getD_handOut (h : Nonneg parts) (hne : parts ≠ [])
    (horder : order.Perm (List.range parts.length)) {m : ℕ} (hm : m ≤ parts.length)
    (hsum : parts.sum + m < 2 ^ 31) (hi : i < parts.length) :
    (handOut order m parts).getD i 0 = parts.getD i 0 + if i ∈ order.take m then 1 else 0 := by
  have hlength : order.length = parts.length := by simpa using horder.length_eq
  induction m with
  | zero => simp [handOut_zero]
  | succ m ih =>
    obtain ⟨hnonneg, hsame⟩ := sum_handOut h hne horder (show parts.sum + m < 2 ^ 31 by omega)
    have hlt : m < order.length := by omega
    have hfresh : order[m] ∉ order.take m := fun hmem => by
      obtain ⟨k, hk, heq⟩ := List.mem_take_iff_getElem.mp hmem
      have := (horder.nodup_iff.mpr List.nodup_range).getElem_inj_iff.mp heq
      omega
    have ih := ih (by omega) (by omega)
    rw [handOut_succ, modify_wrap32 hnonneg (by omega), Nat.mod_eq_of_lt hlt,
      List.getD_eq_getElem _ _ hlt, ← List.take_append_getElem hlt]
    rw [List.getD_eq_getElem _ _ (by simpa using hi)] at ih ⊢
    rw [List.getElem_modify, ih]
    simp only [List.mem_append, List.mem_singleton]
    by_cases hturn : order[m] = i
    · subst hturn
      simp [hfresh]
    · simp [hturn, Ne.symm hturn]

section Exact

variable (hnonneg : ∀ w ∈ weights, 0 ≤ w) (hsum : 0 < weights.sum) (htotal : 0 ≤ total)
  (hmax : total < 2 ^ 31)

include hnonneg hsum htotal hmax

theorem getD_floors_id (hi : i < weights.length) :
    (floors id total weights).getD i 0 = ⌊total * weights.getD i 0 / weights.sum⌋ := by
  rw [List.getD_eq_getElem _ _ (by simpa using hi), List.getD_eq_getElem _ _ hi]
  simp only [floors, List.getElem_map, weightSum_id hnonneg]
  exact floorShare_id hnonneg hsum htotal hmax (List.getElem_mem hi)

theorem loss_id (hi : i < weights.length) :
    loss id total weights i = Int.fract (total * weights.getD i 0 / weights.sum) := by
  have hmem : weights.getD i 0 ∈ weights := by
    rw [List.getD_eq_getElem _ _ hi]
    exact List.getElem_mem hi
  simp only [loss, weightSum_id hnonneg, exactShare_id hnonneg hmem,
    floorShare_id hnonneg hsum htotal hmax hmem, id, Int.fract]

theorem leftover_le : total ≤ (floors id total weights).sum + weights.length := by
  have hloss : (∑ i ∈ range weights.length, total * weights.getD i 0 / weights.sum : ℚ) ≤
      ∑ i ∈ range weights.length, (((floors id total weights).getD i 0 : ℚ) + 1) := by
    refine Finset.sum_le_sum fun i hi => ?_
    rw [getD_floors_id hnonneg hsum htotal hmax (Finset.mem_range.mp hi)]
    exact (Int.lt_floor_add_one _).le
  rw [sum_share total hsum, Finset.sum_add_distrib, ← Int.cast_sum,
    sum_range_getD (length_floors _ _ _), Finset.sum_const, Finset.card_range,
    nsmul_eq_mul, mul_one] at hloss
  exact_mod_cast hloss

theorem rounds_shares : Rounds weights.length (fun i => total * weights.getD i 0 / weights.sum)
    (fun i => (shares id total weights).getD i 0) := by
  have hne : weights ≠ [] := by
    rintro rfl
    simp at hsum
  have hfloors := sum_floors_id hnonneg hsum htotal hmax
  have hleft := leftover_le hnonneg hsum htotal hmax
  have hparts := nonneg_floors id total weights
  have hpos := List.sum_nonneg hparts
  obtain ⟨order, hperm, hlosses, heq⟩ := exists_shares_eq_handOut htotal hmax
    (hfloors.trans (by omega))
  generalize hm : (total - (floors id total weights).sum).toNat = m at heq
  have hpart : ∀ i < weights.length, (shares id total weights).getD i 0 =
      ⌊total * weights.getD i 0 / weights.sum⌋ + if i ∈ order.take m then 1 else 0 := by
    intro i hi
    rw [heq, getD_handOut hparts (by simpa [floors] using hne) hperm (by simp; omega) (by omega)
      (by simpa using hi), getD_floors_id hnonneg hsum htotal hmax hi]
  refine ⟨fun i hi => ?_, ?_, fun i hi j hj hup hdown => ?_⟩
  · rw [hpart i hi]
    split <;> simp
  · have hlength : (shares id total weights).length = weights.length := by
      rw [heq, length_handOut, length_floors]
    rw [sum_share total hsum, ← Int.cast_sum, sum_range_getD hlength,
      (shares_spec hne hmax hfloors).2.1]
  · rw [hpart i hi] at hup
    rw [hpart j hj] at hdown
    have hturn : i ∈ order.take m := by grind
    have hlater : j ∈ order.drop m := by
      have hall : j ∈ order.take m ++ order.drop m := by
        rw [List.take_append_drop, hperm.mem_iff]
        simpa using hj
      exact (List.mem_append.mp hall).resolve_left (by grind)
    rw [ByLoss, ← List.take_append_drop m order, List.pairwise_append] at hlosses
    have hfirst := hlosses.2.2 i hturn j hlater
    rwa [loss_id hnonneg hsum htotal hmax hi, loss_id hnonneg hsum htotal hmax hj] at hfirst

end Exact

/-! ## Partitions -/

/-- The weights a partition goes by: none counts as negative, and all count the same when
none is positive. -/
def effectiveWeights (weights : List ℚ) : List ℚ :=
  if ∃ w ∈ weights, 0 < w then weights.map (max · 0) else List.replicate weights.length 1

theorem effectiveWeights_spec (hne : weights ≠ []) : (∀ w ∈ effectiveWeights weights, 0 ≤ w) ∧
    0 < (effectiveWeights weights).sum ∧ (effectiveWeights weights).length = weights.length := by
  unfold effectiveWeights
  split
  · rename_i hpos
    obtain ⟨w, hw, hpos⟩ := hpos
    have hnonneg : ∀ v ∈ weights.map (max · 0), 0 ≤ v := by simp
    refine ⟨hnonneg, ?_, List.length_map _⟩
    calc 0 < max w 0 := lt_max_of_lt_left hpos
      _ ≤ (weights.map (max · 0)).sum :=
        List.single_le_sum hnonneg _ (List.mem_map_of_mem (f := (max · 0)) hw)
  · have hlength := List.length_pos_iff.mpr hne
    simpa using hlength

theorem partition_eq_shares_effective (hne : weights ≠ []) (htotal : 0 < total) :
    partition id total weights = shares id total (effectiveWeights weights) := by
  have hsum : weightSum id weights = weightSum id (weights.map (max · 0)) := by
    simp only [weightSum, List.foldl_map, max_assoc, max_self]
  have hexact (sum w : ℚ) : exactShare id total sum (max w 0) = exactShare id total sum w := by
    simp only [exactShare, max_assoc, max_self]
  have hclip : shares id total weights = shares id total (weights.map (max · 0)) := by
    simp only [shares, ← hsum, List.map_map, List.zipIdx_map, Function.comp_def, Prod.map,
      floorShare, hexact]
    rfl
  have hspec := effectiveWeights_spec hne
  rw [partition, if_neg (by simpa using hne), if_neg (not_le.mpr htotal), hsum,
    weightSum_id (by simp)]
  by_cases hpos : ∃ w ∈ weights, 0 < w
  · rw [effectiveWeights, if_pos hpos] at hspec ⊢
    rw [if_neg (not_le.mpr hspec.2.1), hclip]
  · rw [effectiveWeights, if_neg hpos, if_pos (List.sum_eq_zero fun v hv => ?_).le]
    obtain ⟨w, hw, rfl⟩ := List.mem_map.mp hv
    exact max_eq_right (not_lt.mp fun hlt => hpos ⟨w, hw, hlt⟩)

/-- A partition in exact arithmetic fills the length with nonnegative parts, each less than
one away from its share; a part with larger weight is never smaller, and of two with equal
weights the earlier one gets no less and at most one more. -/
theorem partition_fair (total : ℤ) {weights : List ℚ} (hne : weights ≠ []) (hmax : total < 2 ^ 31) :
    (partition id total weights).length = weights.length ∧
    let parts := partition id total weights
    let effective := effectiveWeights weights
    Nonneg parts ∧ parts.sum = max total 0 ∧
    (∀ i < weights.length,
      |(parts.getD i 0 : ℚ) - max total 0 * effective.getD i 0 / effective.sum| < 1) ∧
    (∀ i < weights.length, ∀ j < weights.length, effective.getD i 0 < effective.getD j 0 →
      parts.getD i 0 ≤ parts.getD j 0) ∧
    ∀ i j, i < j → j < weights.length → effective.getD i 0 = effective.getD j 0 →
      parts.getD j 0 ≤ parts.getD i 0 ∧ parts.getD i 0 ≤ parts.getD j 0 + 1 := by
  refine ⟨length_partition _ _ _, ?_⟩
  intro parts effective
  obtain ⟨hnonneg, hsum, hlength⟩ := effectiveWeights_spec hne
  rcases le_or_gt total 0 with hle | hpos
  · have hzero : parts = List.replicate weights.length 0 := by
      simp only [parts, partition, if_neg (show ¬ weights.isEmpty by simpa using hne), if_pos hle]
    have hpart (i : ℕ) : parts.getD i 0 = 0 := by
      rw [hzero, List.getD_eq_getElem?_getD, List.getElem?_replicate]
      split <;> rfl
    rw [max_eq_right hle]
    simp only [hpart]
    simp [hzero, Nonneg]
  · have hshares : parts = shares id total effective := partition_eq_shares_effective hne hpos
    have hrounds := rounds_shares hnonneg hsum hpos.le hmax
    have hne' : effective ≠ [] :=
      List.ne_nil_of_length_pos (hlength ▸ List.length_pos_iff.mpr hne)
    obtain ⟨hparts, htotal, -⟩ := shares_spec hne' hmax (sum_floors_id hnonneg hsum hpos.le hmax)
    have hscale : 0 < (total : ℚ) := by exact_mod_cast hpos
    rw [hlength] at hrounds
    rw [max_eq_left hpos.le, hshares]
    refine ⟨hparts, htotal, fun i hi => hrounds.abs_sub_lt hi, fun i hi j hj hlt => ?_,
      fun i j hij hj heq => hrounds.of_eq hij hj (by rw [heq])⟩
    exact hrounds.le_of_lt hi hj (div_lt_div_of_pos_right (mul_lt_mul_of_pos_left hlt hscale) hsum)

theorem partition_fair_three : (partition id 10 [1, -2, 2]).sum = 10 :=
  (partition_fair 10 (by simp : ([1, -2, 2] : List ℚ) ≠ []) (by norm_num)).2.2.1

/-- Without weights nothing is filled, and among weights that all count the same a larger one
may come later. -/
theorem partition_degenerate : (partition id 1 []).sum = 0 ∧
    partition id 1 [-1, 0] = [1, 0] := by
  decide +kernel

end Shares

end Realm
