import Realm.Lib.Rounding
import Realm.Core.Tiling

/-!
# Partitions with positive parts

A partition by equal weights, or by one of the ratios of the triptych, has positive parts
exactly when there is a pixel for each of them: the floors of the shares are all positive, or
the leftover goes around all parts before one of them gets a second pixel.  The shares are
those of single precision, so the floors may also exceed the length.
-/

namespace Realm

open List

variable {k : ℤ}

open FloatRound (binary32 binary32_mono binary32_mem_Icc)

def Positive (parts : List ℤ) : Prop := ∀ p ∈ parts, 0 < p

instance : DecidablePred Positive := fun parts => inferInstanceAs (Decidable (∀ p ∈ parts, 0 < p))

/-! ## Handing out the leftover -/

section HandOut

variable {order : List ℕ} {parts : List ℤ} {m : ℕ}

theorem positive_take_handOut (h : Nonneg parts) (hne : parts ≠ [])
    (horder : order.Perm (List.range parts.length)) (hsum : parts.sum + m < 2 ^ 31) :
    ∀ j ∈ order.take m, ∀ p, (handOut order m parts)[j]? = some p → 0 < p := by
  have hlength : order.length = parts.length := by simpa using horder.length_eq
  induction m with
  | zero => simp
  | succ m ih =>
    obtain ⟨hnonneg, hsame⟩ := sum_handOut h hne horder (show parts.sum + m < 2 ^ 31 by omega)
    intro j hj p hp
    rw [handOut_succ, modify_wrap32 hnonneg (by omega), List.getElem?_modify] at hp
    obtain ⟨q, hq, rfl⟩ := Option.map_eq_some_iff.mp hp
    have hpart := hnonneg q (mem_of_getElem? hq)
    rw [take_add_one, mem_append] at hj
    rcases hj with hj | hj
    · have hpos := ih (by omega) j hj q hq
      split <;> omega
    · -- The part whose turn it is gets its first pixel.
      have hm : order[m]? = some j := by simpa using hj
      have hlt : m < order.length := (List.getElem?_eq_some_iff.mp hm).1
      rw [Nat.mod_eq_of_lt hlt, getD_eq_getElem?_getD, hm, Option.getD_some, if_pos rfl]
      omega

theorem handOut_lt (order : List ℕ) (m : ℕ) (h : ∀ p ∈ parts, p < 2 ^ 31) :
    ∀ p ∈ handOut order m parts, p < 2 ^ 31 := by
  induction m with
  | zero => exact h
  | succ m ih =>
    intro p hp
    obtain ⟨j, hj, rfl⟩ := mem_iff_getElem.mp hp
    simp only [handOut_succ, getElem_modify]
    split
    · simp only [wrap32, Int.bmod]
      omega
    · exact ih _ (getElem_mem _)

theorem positive_handOut (h : Nonneg parts) (hne : parts ≠ [])
    (horder : order.Perm (List.range parts.length)) (hsum : parts.sum + m < 2 ^ 31)
    (hm : parts.length ≤ m) : Positive (handOut order m parts) := by
  have hlength : order.length = parts.length := by simpa using horder.length_eq
  intro p hp
  obtain ⟨j, hj, rfl⟩ := mem_iff_getElem.mp hp
  refine positive_take_handOut h hne horder hsum j ?_ _ (getElem?_eq_getElem hj)
  rw [take_of_length_le (by omega), horder.mem_iff, mem_range]
  simpa using hj

end HandOut

/-! ## Shares -/

section Shares

variable {fl : ℚ → ℚ} {total : ℤ} {weights : List ℚ}

theorem floors_le_shares (hweights : weights ≠ []) (htotal : 0 ≤ total) (hmax : total < 2 ^ 31)
    (hfloors : (floors fl total weights).sum ≤ total + 2 ^ 31) :
    List.Forall₂ (· ≤ ·) (floors fl total weights) (shares fl total weights) := by
  rcases le_total (floors fl total weights).sum total with hle | hge
  · exact (shares_spec hweights hmax hle).2.2
  · obtain ⟨order, -, -, heq⟩ := exists_shares_eq_handOut htotal hmax hfloors
    rw [heq, Int.toNat_of_nonpos (by omega), handOut_zero]
    exact forall₂_refl _

theorem Positive.of_forall₂ {parts parts' : List ℤ} (h : Positive parts)
    (hle : List.Forall₂ (· ≤ ·) parts parts') : Positive parts' := by
  intro p hp
  obtain ⟨j, hj, rfl⟩ := mem_iff_getElem.mp hp
  have hj' : j < parts.length := hle.length_eq ▸ hj
  exact (h _ (getElem_mem hj')).trans_le (hle.get hj' hj)

theorem positive_shares_iff_of_sum_eq_zero (hweights : weights ≠ []) (htotal : 0 ≤ total)
    (hmax : total < 2 ^ 31) (hzero : (floors fl total weights).sum = 0) :
    Positive (shares fl total weights) ↔ (weights.length : ℤ) ≤ total := by
  have hnonneg := nonneg_floors fl total weights
  constructor
  · intro hpos
    obtain ⟨_, hsum, hforall⟩ := shares_spec hweights hmax (hzero.le.trans htotal)
    have hcard := card_nsmul_le_sum (shares fl total weights) 1 hpos
    rw [← hforall.length_eq, hsum, length_floors] at hcard
    simpa using hcard
  · intro hle
    have hfloors : (floors fl total weights).sum ≤ total + 2 ^ 31 := by omega
    obtain ⟨order, hperm, -, heq⟩ := exists_shares_eq_handOut htotal hmax hfloors
    rw [heq]
    refine positive_handOut hnonneg (by simpa [floors] using hweights) hperm ?_ ?_
    · omega
    · rw [length_floors]
      omega

theorem floorShare_le (fl : ℚ → ℚ) (total : ℤ) (sum w : ℚ) :
    (floorShare fl total sum w : ℚ) ≤ max 0 (exactShare fl total sum w) := by
  have hfloor : floorShare fl total sum w ≤ max 0 ⌊exactShare fl total sum w⌋ := by
    simp only [floorShare, saturate32]
    omega
  refine (Int.cast_le.mpr hfloor).trans ?_
  push_cast
  exact max_le_max le_rfl (Int.floor_le _)

theorem partition_lt (fl : ℚ → ℚ) (total : ℤ) (weights : List ℚ) :
    ∀ p ∈ partition fl total weights, p < 2 ^ 31 := by
  have hshares (weights : List ℚ) : ∀ p ∈ shares fl total weights, p < 2 ^ 31 := by
    refine handOut_lt _ _ fun p hp => ?_
    obtain ⟨w, _, rfl⟩ := mem_map.mp hp
    simp only [floorShare, saturate32]
    omega
  unfold partition
  split
  · simp
  split
  · intro p hp
    rw [eq_of_mem_replicate hp]
    norm_num
  split
  · exact hshares _
  · exact hshares _

theorem le_floorShare {sum w : ℚ} (hk : (k : ℚ) ≤ exactShare fl total sum w) (hmax : k < 2 ^ 31) :
    k ≤ floorShare fl total sum w := by
  have := Int.le_floor.mpr hk
  simp only [floorShare, saturate32]
  omega

end Shares

/-! ## Single precision -/

section Single

variable {total : ℤ} {a b w : ℚ} {fl : ℚ → ℚ} {n : ℕ}

theorem weightSum_replicate_succ (hw : 0 ≤ w) (n : ℕ) :
    weightSum fl (List.replicate (n + 1) w) = fl (weightSum fl (List.replicate n w) + w) := by
  rw [weightSum, replicate_succ', foldl_append, foldl_cons, foldl_nil, max_eq_left hw]
  rfl

theorem le_weightSum_replicate (hw : 1 / 2 ^ 20 ≤ w) (hn : n ≤ 2 ^ 24) :
    (n : ℚ) * w * (1 - n / 2 ^ 24) ≤ weightSum binary32.round (List.replicate n w) := by
  have hpos : 0 < w := lt_of_lt_of_le (by norm_num) hw
  induction n with
  | zero => simp [weightSum]
  | succ n ih =>
    have hprev := ih (by omega)
    have hcast : (n : ℚ) ≤ 2 ^ 24 := by exact_mod_cast (by omega : n ≤ 2 ^ 24)
    have hnonneg : 0 ≤ n * w * (1 - n / 2 ^ 24) := by
      have : (0 : ℚ) ≤ 1 - n / 2 ^ 24 := by linarith
      positivity
    rw [weightSum_replicate_succ hpos.le]
    have hround := (binary32_mem_Icc
      (q := weightSum binary32.round (List.replicate n w) + w) (by linarith)).1
    refine le_trans ?_ hround
    calc ((n + 1 : ℕ) : ℚ) * w * (1 - (n + 1 : ℕ) / 2 ^ 24)
        ≤ (n * w * (1 - n / 2 ^ 24) + w) * (1 - 1 / 2 ^ 24) := by
          have hn' : (0 : ℚ) ≤ n := n.cast_nonneg
          have hnw : 0 ≤ n * w := by positivity
          have hnnw : 0 ≤ n * (n * w) := by positivity
          push_cast
          nlinarith
      _ ≤ _ := by gcongr

theorem exactShare_le (hw : 1 / 2 ^ 20 ≤ w) (hn : 0 < n) (hn' : n ≤ 256) (htotal : 0 < total) :
    exactShare binary32.round total (weightSum binary32.round (List.replicate n w)) w ≤
      max (1 / 2) ((total : ℚ) / n * (1 + 1 / 2 ^ 13)) := by
  have hpos : 0 < w := lt_of_lt_of_le (by norm_num) hw
  have hone : (1 : ℚ) ≤ total := by exact_mod_cast htotal
  have hn₀ : (0 : ℚ) < n := by exact_mod_cast hn
  have hn₁ : (n : ℚ) ≤ 256 := by exact_mod_cast hn'
  -- The error of the sum, of the total and of the product.
  have hsum : n * w * (1 - 1 / 2 ^ 16) ≤ weightSum binary32.round (replicate n w) := by
    refine le_trans ?_ (le_weightSum_replicate hw (hn'.trans (by norm_num)))
    exact mul_le_mul_of_nonneg_left (by linarith) (by positivity)
  obtain ⟨htlow, hthigh⟩ := binary32_mem_Icc (q := total) (le_trans (by norm_num) hone)
  have hproduct : 1 / 2 ^ 126 ≤ binary32.round total * w := by
    have htpos : 1 / 2 ≤ binary32.round total := by linarith
    calc (1 : ℚ) / 2 ^ 126 ≤ 1 / 2 * (1 / 2 ^ 20) := by norm_num
      _ ≤ binary32.round total * w := by gcongr
  obtain ⟨-, hphigh⟩ := binary32_mem_Icc hproduct
  rw [exactShare, max_eq_left hpos.le]
  generalize weightSum binary32.round (List.replicate n w) = sum at hsum ⊢
  generalize binary32.round total = t at hthigh hphigh hproduct ⊢
  have hsum₀ : 0 < sum := lt_of_lt_of_le (by positivity) hsum
  have hquotient : binary32.round (t * w) / sum ≤ (total : ℚ) / n * (1 + 1 / 2 ^ 14) := by
    rw [div_le_iff₀ hsum₀]
    calc binary32.round (t * w) ≤ t * w * (1 + 1 / 2 ^ 24) := hphigh
      _ ≤ total * (1 + 1 / 2 ^ 24) * w * (1 + 1 / 2 ^ 24) := by gcongr
      _ = total * w * ((1 + 1 / 2 ^ 24) * (1 + 1 / 2 ^ 24)) := by ring
      _ ≤ total * w * ((1 + 1 / 2 ^ 14) * (1 - 1 / 2 ^ 16)) :=
          mul_le_mul_of_nonneg_left (by norm_num) (by positivity)
      _ = (total : ℚ) / n * (1 + 1 / 2 ^ 14) * (n * w * (1 - 1 / 2 ^ 16)) := by field_simp
      _ ≤ (total : ℚ) / n * (1 + 1 / 2 ^ 14) * sum := by gcongr
  have hnonneg : 0 ≤ binary32.round (t * w) / sum :=
    div_nonneg (FloatRound.Format.round_nonneg (le_trans (by norm_num) hproduct)) hsum₀.le
  generalize binary32.round (t * w) / sum = q at hquotient hnonneg ⊢
  rcases le_total q (1 / 2) with hsmall | hlarge
  · exact le_max_of_le_left ((binary32_mono hnonneg hsmall).trans (by decide +kernel))
  · refine le_max_of_le_right ?_
    calc binary32.round q
        ≤ q * (1 + 1 / 2 ^ 24) := (binary32_mem_Icc (le_trans (by norm_num) hlarge)).2
      _ ≤ (total : ℚ) / n * (1 + 1 / 2 ^ 14) * (1 + 1 / 2 ^ 24) := by gcongr
      _ = (total : ℚ) / n * ((1 + 1 / 2 ^ 14) * (1 + 1 / 2 ^ 24)) := by ring
      _ ≤ (total : ℚ) / n * (1 + 1 / 2 ^ 13) :=
          mul_le_mul_of_nonneg_left (by norm_num) (by positivity)

/-- A share of equal weights is rounded down to zero, or there is a pixel for each part. -/
theorem floorShare_replicate (hw : 1 / 2 ^ 20 ≤ w) (hn : 0 < n) (hn' : n ≤ 256) (htotal : 0 < total)
    (hmax : total < 2 ^ 31) {floor : ℤ}
    (hfloor : floor = floorShare binary32.round total
      (weightSum binary32.round (List.replicate n w)) w) :
    floor = 0 ∨ 0 < floor ∧ n ≤ total ∧ n * floor ≤ total + 2 ^ 31 := by
  have hn₀ : (0 : ℚ) < n := by exact_mod_cast hn
  have hn₁ : (n : ℚ) ≤ 256 := by exact_mod_cast hn'
  have hmax' : (total : ℚ) < 2 ^ 31 := by exact_mod_cast hmax
  rcases (hfloor ▸ floorShare_nonneg _ _ _ _ : 0 ≤ floor).eq_or_lt with hzero | hpos
  · exact .inl hzero.symm
  have hone : (1 : ℚ) ≤ floor := by exact_mod_cast hpos
  have hle : (n : ℚ) * floor ≤ total * (1 + 1 / 2 ^ 13) := by
    have hexact := (floorShare_le binary32.round total _ w).trans
      (max_le_max_left 0 (exactShare_le hw hn hn' htotal))
    rw [← hfloor] at hexact
    have hright : (floor : ℚ) ≤ (total : ℚ) / n * (1 + 1 / 2 ^ 13) := by
      simp only [le_max_iff] at hexact
      exact (hexact.resolve_left (by linarith)).resolve_left (by linarith)
    rw [div_mul_eq_mul_div, le_div_iff₀ hn₀] at hright
    linarith
  refine .inr ⟨hpos, ?_, ?_⟩
  · by_contra hlt
    have hlt' : (total : ℚ) ≤ n - 1 := by exact_mod_cast (by omega : total ≤ (n : ℤ) - 1)
    nlinarith
  · have hcast : ((n * floor : ℤ) : ℚ) ≤ ((total + 2 ^ 31 : ℤ) : ℚ) := by
      push_cast
      linarith
    exact_mod_cast hcast

/-- The weights split every length into positive parts that has a pixel for each. -/
def Splits (fl : ℚ → ℚ) (weights : List ℚ) : Prop :=
  ∀ total : ℤ, 0 < total → total < 2 ^ 31 →
    (Positive (partition fl total weights) ↔ (weights.length : ℤ) ≤ total)

theorem partition_eq_shares {weights : List ℚ} (hweights : weights ≠ []) (htotal : 0 < total)
    (hsum : 0 < weightSum fl weights) : partition fl total weights = shares fl total weights := by
  rw [partition, if_neg (by simpa using hweights), if_neg (not_le.mpr htotal),
    if_neg (not_le.mpr hsum)]

theorem splits_replicate (hw : 1 / 2 ^ 20 ≤ w) (hn : 0 < n) (hn' : n ≤ 256) :
    Splits binary32.round (List.replicate n w) := by
  intro total htotal hmax
  have hweights : replicate n w ≠ [] := by simp; omega
  have hsum : 0 < weightSum binary32.round (replicate n w) := by
    refine lt_of_lt_of_le ?_ (le_weightSum_replicate hw (hn'.trans (by norm_num)))
    have hpos : 0 < w := lt_of_lt_of_le (by norm_num) hw
    have hn₀ : (0 : ℚ) < n := by exact_mod_cast hn
    have hn₁ : (n : ℚ) ≤ 256 := by exact_mod_cast hn'
    have : (0 : ℚ) < 1 - n / 2 ^ 24 := by linarith
    positivity
  have hfloors : floors binary32.round total (replicate n w) = replicate n
      (floorShare binary32.round total (weightSum binary32.round (List.replicate n w)) w) :=
    map_replicate
  rw [partition_eq_shares hweights htotal hsum]
  rcases floorShare_replicate hw hn hn' htotal hmax rfl with hzero | ⟨hpos, hroom, hover⟩
  · refine positive_shares_iff_of_sum_eq_zero hweights htotal.le hmax ?_
    rw [hfloors, hzero]
    simp
  · rw [length_replicate]
    refine ⟨fun _ => hroom, fun _ => Positive.of_forall₂ ?_
      (floors_le_shares hweights htotal.le hmax ?_)⟩
    · rw [hfloors]
      intro p hp
      rwa [eq_of_mem_replicate hp]
    · rw [hfloors]
      simpa using hover

theorem splits_equal (hn : 0 < n) (hn' : n ≤ 256) :
    Splits binary32.round (List.replicate n (binary32.round (1 / binary32.round n))) := by
  refine splits_replicate ?_ hn hn'
  have hn₀ : (1 : ℚ) ≤ n := by exact_mod_cast hn
  have hn₁ : (n : ℚ) ≤ 256 := by exact_mod_cast hn'
  obtain ⟨hlow, hhigh⟩ := binary32_mem_Icc (q := n) (le_trans (by norm_num) hn₀)
  have hinverse : (1 : ℚ) / 2 ^ 10 ≤ 1 / binary32.round n :=
    one_div_le_one_div_of_le (by linarith) (by linarith)
  have hround := (binary32_mem_Icc (le_trans (by norm_num) hinverse)).1
  linarith

theorem le_floorShare_pair (hk : binary32.round k = k) (hk₀ : 0 ≤ k) (hk₁ : k ≤ 4)
    (hw : (k : ℚ) ≤ 4 * w) (htotal : 4 ≤ total) : k ≤ floorShare binary32.round total 1 w := by
  refine le_floorShare ?_ (by omega)
  have hfour : (4 : ℚ) ≤ binary32.round total := by
    have hcast : (4 : ℚ) ≤ total := by exact_mod_cast htotal
    exact le_trans (by decide +kernel) (binary32_mono (by norm_num) hcast)
  have hk₂ : (0 : ℚ) ≤ k := by exact_mod_cast hk₀
  have hw₀ : 0 ≤ w := by linarith
  have hproduct : (k : ℚ) ≤ binary32.round (binary32.round total * w) := by
    have hle : (k : ℚ) ≤ binary32.round total * w := hw.trans (by gcongr)
    exact hk ▸ binary32_mono hk₂ hle
  rw [exactShare, max_eq_left hw₀, div_one]
  exact hk ▸ binary32_mono hk₂ hproduct

theorem floorShare_pair_le (hw : 1 / 4 ≤ w) (hw' : w ≤ 3 / 4) (htotal : 0 < total) :
    (floorShare binary32.round total 1 w : ℚ) ≤ 4 / 5 * total := by
  have hone : (1 : ℚ) ≤ total := by exact_mod_cast htotal
  obtain ⟨htlow, hthigh⟩ := binary32_mem_Icc (q := total) (le_trans (by norm_num) hone)
  have hlow : 1 / 8 ≤ binary32.round total * w := by
    have : 1 / 2 ≤ binary32.round total := by linarith
    nlinarith
  obtain ⟨hplow, hphigh⟩ := binary32_mem_Icc (q := binary32.round total * w)
    (le_trans (by norm_num) hlow)
  have hshare := (binary32_mem_Icc (q := binary32.round (binary32.round total * w))
    (le_trans (by norm_num) (by linarith : (1 : ℚ) / 16 ≤ _))).2
  refine (floorShare_le _ _ _ _).trans (max_le (by linarith) ?_)
  rw [exactShare, max_eq_left (by linarith), div_one]
  nlinarith

/-- Two weights about as large as each other. -/
structure Pair (a b : ℚ) : Prop where
  left : 1 / 4 ≤ a ∧ a ≤ 3 / 4
  right : 1 / 4 ≤ b ∧ b ≤ 3 / 4
  sum : weightSum binary32.round [a, b] = 1

theorem Pair.floors_eq (h : Pair a b) (total : ℤ) : floors binary32.round total [a, b] =
    [floorShare binary32.round total 1 a, floorShare binary32.round total 1 b] := by
  rw [floors, h.sum]
  rfl

theorem Pair.floors_le (h : Pair a b) (htotal : 0 < total) (hmax : total < 2 ^ 31) :
    List.Forall₂ (· ≤ ·) [floorShare binary32.round total 1 a, floorShare binary32.round total 1 b]
      (partition binary32.round total [a, b]) := by
  have hle := floorShare_pair_le h.left.1 h.left.2 htotal
  have hle' := floorShare_pair_le h.right.1 h.right.2 htotal
  have hsum : ((floors binary32.round total [a, b]).sum : ℚ) ≤ ((total + 2 ^ 31 : ℤ) : ℚ) := by
    have hmax' : (total : ℚ) < 2 ^ 31 := by exact_mod_cast hmax
    rw [h.floors_eq, sum_pair]
    push_cast
    linarith
  rw [← h.floors_eq, partition_eq_shares (by simp) htotal (by rw [h.sum]; exact one_pos)]
  exact floors_le_shares (by simp) htotal.le hmax (by exact_mod_cast hsum)

theorem Pair.splits (h : Pair a b)
    (hshort : ∀ total ∈ [1, 2, 3], Positive (partition binary32.round total [a, b]) ↔ 2 ≤ total) :
    Splits binary32.round [a, b] := by
  intro total htotal hmax
  rcases lt_or_ge total 4 with hlt | hge
  · exact hshort total (by simp; omega)
  · refine ⟨fun _ => by simp; omega, fun _ => Positive.of_forall₂ ?_ (h.floors_le htotal hmax)⟩
    have hone : binary32.round ((1 : ℤ) : ℚ) = (1 : ℤ) := by decide +kernel
    have hfloor {w : ℚ} (hw : 1 / 4 ≤ w) : 0 < floorShare binary32.round total 1 w :=
      le_floorShare_pair hone (by norm_num) (by norm_num) (by push_cast; linarith) hge
    intro p hp
    rcases mem_pair.mp hp with rfl | rfl
    · exact hfloor h.left.1
    · exact hfloor h.right.1

def sessionParams : TriptychParams :=
  (TriptychParams.default binary32.round).sanitised binary32.round

theorem pair_masterRatio :
    Pair sessionParams.masterRatio (binary32.round (1 - sessionParams.masterRatio)) :=
  ⟨by decide +kernel, by decide +kernel, by decide +kernel⟩

theorem splits_masterRatio : Splits binary32.round
    [sessionParams.masterRatio, binary32.round (1 - sessionParams.masterRatio)] :=
  pair_masterRatio.splits (by decide +kernel)

theorem splits_primaryRowRatio : Splits binary32.round
    [sessionParams.primaryRowRatio, binary32.round (1 - sessionParams.primaryRowRatio)] :=
  Pair.splits ⟨by decide +kernel, by decide +kernel, by decide +kernel⟩ (by decide +kernel)

theorem splits_stackPrimaryRatio : Splits binary32.round
    [sessionParams.stackPrimaryRatio, binary32.round (1 - sessionParams.stackPrimaryRatio)] :=
  Pair.splits ⟨by decide +kernel, by decide +kernel, by decide +kernel⟩ (by decide +kernel)

/-- The columns of the triptych: both have pixels from two on, and the stack has two from
three on. -/
theorem masterRatio_spec {master stack : ℤ} (htotal : 0 < total) (hmax : total < 2 ^ 31)
    (h : partition binary32.round total [sessionParams.masterRatio,
      binary32.round (1 - sessionParams.masterRatio)] = [master, stack]) :
    (0 < master ↔ 2 ≤ total) ∧ (2 ≤ total → 0 < stack) ∧ (2 ≤ stack ↔ 3 ≤ total) := by
  have hsplits := splits_masterRatio total htotal hmax
  rw [h] at hsplits
  rcases lt_or_ge total 4 with hlt | hge
  · have hshort : ∀ total ∈ [(1 : ℤ), 2, 3], ∀ master ∈ (partition binary32.round total
        [sessionParams.masterRatio, binary32.round (1 - sessionParams.masterRatio)])[0]?,
        ∀ stack ∈ (partition binary32.round total
        [sessionParams.masterRatio, binary32.round (1 - sessionParams.masterRatio)])[1]?,
          (0 < master ↔ 2 ≤ total) ∧ (2 ≤ total → 0 < stack) ∧ (2 ≤ stack ↔ 3 ≤ total) := by
      decide +kernel
    exact hshort total (by simp; omega) master (by simp [h]) stack (by simp [h])
  · have hle := pair_masterRatio.floors_le htotal hmax
    rw [h] at hle
    have htwo : binary32.round ((2 : ℤ) : ℚ) = (2 : ℤ) := by decide +kernel
    have hhalf : 1 / 2 ≤ binary32.round (1 - sessionParams.masterRatio) := by decide +kernel
    have hfloor := le_floorShare_pair htwo (by norm_num) (by norm_num)
      (w := binary32.round (1 - sessionParams.masterRatio)) (by push_cast; linarith) hge
    have hstack : floorShare binary32.round total 1
        (binary32.round (1 - sessionParams.masterRatio)) ≤ stack := by
      simpa using hle.get (i := 1) (by simp) (by simp)
    have hmaster := hsplits.mpr (by simp; omega) master (by simp)
    omega

end Single

end Realm
