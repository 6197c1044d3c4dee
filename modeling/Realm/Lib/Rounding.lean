import Mathlib.Algebra.Order.Field.Rat
import Mathlib.Data.Int.Log
import Mathlib.Data.Rat.Floor
import Mathlib.Tactic.Linarith
import Mathlib.Tactic.Ring
import Mathlib.Tactic.Positivity
import Mathlib.Tactic.FieldSimp
import Mathlib.Tactic.GCongr

/-!
# Rounding to a binary floating-point format

A binary format has a precision and a least unit exponent.  A rational is
rounded to the nearest multiple of its unit in the last place, ties to even;
overflow is not modelled.  On nonnegative numbers rounding is monotone, it fixes
every number that is a multiple of its own unit, and its relative error is at
most half a unit.
-/

namespace FloatRound

variable {x y : ℚ}

/-- The nearest integer, ties to even. -/
def roundHalfEven (x : ℚ) : ℤ :=
  if x - ⌊x⌋ < 1 / 2 then ⌊x⌋
  else if 1 / 2 < x - ⌊x⌋ then ⌊x⌋ + 1
  else if ⌊x⌋ % 2 = 0 then ⌊x⌋ else ⌊x⌋ + 1

theorem abs_roundHalfEven_sub_le (x : ℚ) : |(roundHalfEven x : ℚ) - x| ≤ 1 / 2 := by
  have hfloor := Int.floor_le x
  have hlt := Int.lt_floor_add_one x
  rw [abs_le]
  unfold roundHalfEven
  split_ifs <;> push_cast <;> constructor <;> linarith

theorem roundHalfEven_intCast (n : ℤ) : roundHalfEven n = n := by
  simp [roundHalfEven]

theorem floor_le_roundHalfEven (x : ℚ) : ⌊x⌋ ≤ roundHalfEven x := by
  unfold roundHalfEven
  split_ifs <;> omega

theorem roundHalfEven_le_floor_add_one (x : ℚ) : roundHalfEven x ≤ ⌊x⌋ + 1 := by
  unfold roundHalfEven
  split_ifs <;> omega

theorem roundHalfEven_mono (h : x ≤ y) : roundHalfEven x ≤ roundHalfEven y := by
  rcases (Int.floor_le_floor h).lt_or_eq with hlt | heq
  · have hx := roundHalfEven_le_floor_add_one x
    have hy := floor_le_roundHalfEven y
    omega
  · unfold roundHalfEven
    rw [← heq]
    split_ifs <;> first | omega | (exfalso; linarith)

/-- A binary format: the number of significant bits and the exponent of the
least positive number. -/
structure Format where
  precision : ℕ
  minExp : ℤ

def binary32 : Format := ⟨24, -149⟩

namespace Format

variable (f : Format) {q : ℚ}

/-- The exponent of the unit in the last place. -/
def ulpExp (q : ℚ) : ℤ := max (Int.log 2 |q| - (f.precision - 1)) f.minExp

/-- Round to nearest, ties to even. -/
def round (q : ℚ) : ℚ := roundHalfEven (q / 2 ^ f.ulpExp q) * 2 ^ f.ulpExp q

variable {f} {m k : ℤ}

theorem two_zpow_pos (e : ℤ) : (0 : ℚ) < 2 ^ e := zpow_pos (by norm_num) e

theorem round_of_eq_mul (h : q = m * 2 ^ f.ulpExp q) : f.round q = q := by
  have hpos := two_zpow_pos (f.ulpExp q)
  have hdiv : q / 2 ^ f.ulpExp q = m := by
    rw [div_eq_iff hpos.ne']
    exact h
  rw [round, hdiv, roundHalfEven_intCast, ← h]

@[simp] theorem round_zero : f.round 0 = 0 := round_of_eq_mul (m := 0) (by simp)

theorem round_nonneg (h : 0 ≤ q) : 0 ≤ f.round q := by
  have hpos := two_zpow_pos (f.ulpExp q)
  have : roundHalfEven 0 ≤ roundHalfEven (q / 2 ^ f.ulpExp q) :=
    roundHalfEven_mono (by positivity)
  have hzero : roundHalfEven 0 = 0 := by simpa using roundHalfEven_intCast 0
  rw [hzero] at this
  exact mul_nonneg (by exact_mod_cast this) hpos.le

/-- A multiple of the unit of `q` bounds the rounding of `q` when it bounds `q`. -/
theorem round_le_of_le_mul (h : q ≤ m * 2 ^ f.ulpExp q) : f.round q ≤ m * 2 ^ f.ulpExp q := by
  have hpos := two_zpow_pos (f.ulpExp q)
  have : roundHalfEven (q / 2 ^ f.ulpExp q) ≤ m := by
    rw [← roundHalfEven_intCast m]
    exact roundHalfEven_mono ((div_le_iff₀ hpos).mpr h)
  exact mul_le_mul_of_nonneg_right (by exact_mod_cast this) hpos.le

theorem le_round_of_mul_le (h : m * 2 ^ f.ulpExp q ≤ q) : m * 2 ^ f.ulpExp q ≤ f.round q := by
  have hpos := two_zpow_pos (f.ulpExp q)
  have : m ≤ roundHalfEven (q / 2 ^ f.ulpExp q) := by
    rw [← roundHalfEven_intCast m]
    exact roundHalfEven_mono ((le_div_iff₀ hpos).mpr h)
  exact mul_le_mul_of_nonneg_right (by exact_mod_cast this) hpos.le

theorem round_le_two_zpow (hk : f.ulpExp q ≤ k) (h : q ≤ 2 ^ k) : f.round q ≤ 2 ^ k := by
  have hsplit : (2 : ℚ) ^ k = ((2 ^ (k - f.ulpExp q).toNat : ℤ) : ℚ) * 2 ^ f.ulpExp q := by
    push_cast
    rw [← zpow_natCast, ← zpow_add₀ (by norm_num)]
    congr 1
    omega
  rw [hsplit] at h ⊢
  exact round_le_of_le_mul h

theorem two_zpow_le_round (hk : f.ulpExp q ≤ k) (h : 2 ^ k ≤ q) : 2 ^ k ≤ f.round q := by
  have hsplit : (2 : ℚ) ^ k = ((2 ^ (k - f.ulpExp q).toNat : ℤ) : ℚ) * 2 ^ f.ulpExp q := by
    push_cast
    rw [← zpow_natCast, ← zpow_add₀ (by norm_num)]
    congr 1
    omega
  rw [hsplit] at h ⊢
  exact le_round_of_mul_le h

theorem round_mono (hf : 0 < f.precision) (hx : 0 ≤ x) (h : x ≤ y) : f.round x ≤ f.round y := by
  rcases hx.eq_or_lt with rfl | hx
  · rw [round_zero]
    exact round_nonneg h
  have hy : 0 < y := hx.trans_le h
  have hlog : Int.log 2 |x| ≤ Int.log 2 |y| := by
    rw [abs_of_pos hx, abs_of_pos hy]
    exact Int.log_mono_right hx h
  by_cases heq : f.ulpExp x = f.ulpExp y
  · simp only [round, heq]
    have hpos := two_zpow_pos (f.ulpExp y)
    have : roundHalfEven (x / 2 ^ f.ulpExp y) ≤ roundHalfEven (y / 2 ^ f.ulpExp y) :=
      roundHalfEven_mono (by gcongr)
    exact mul_le_mul_of_nonneg_right (by exact_mod_cast this) hpos.le
  -- The units differ, so a power of two lies between the two numbers.
  have hlt : Int.log 2 |x| < Int.log 2 |y| ∧ f.ulpExp y = Int.log 2 |y| - (f.precision - 1) := by
    unfold ulpExp at heq ⊢
    omega
  have hxy : f.ulpExp x ≤ Int.log 2 |y| := by
    unfold ulpExp at heq hlt ⊢
    omega
  have hxlt : x ≤ 2 ^ Int.log 2 |y| := by
    have hself := Int.lt_zpow_succ_log_self (b := 2) (by norm_num) |x|
    rw [abs_of_pos hx] at hself
    push_cast at hself
    refine hself.le.trans ?_
    rw [abs_of_pos hx] at hlt
    exact zpow_le_zpow_right₀ (by norm_num) (by omega)
  have hyle : (2 : ℚ) ^ Int.log 2 |y| ≤ y := by
    have hself := Int.zpow_log_le_self (b := 2) (by norm_num) hy
    rw [abs_of_pos hy]
    exact_mod_cast hself
  calc f.round x ≤ 2 ^ Int.log 2 |y| := round_le_two_zpow hxy hxlt
    _ ≤ f.round y := two_zpow_le_round (by omega) hyle

/-- The relative error of a normal number is at most half a unit. -/
theorem abs_round_sub_le (hq : 0 < q) (h : f.minExp ≤ Int.log 2 q - (f.precision - 1)) :
    |f.round q - q| ≤ q * 2 ^ (-f.precision : ℤ) := by
  have hulp : f.ulpExp q = Int.log 2 q - (f.precision - 1) := by
    rw [ulpExp, abs_of_pos hq, max_eq_left h]
  have hpos := two_zpow_pos (f.ulpExp q)
  have hself : (2 : ℚ) ^ Int.log 2 q ≤ q := by
    exact_mod_cast Int.zpow_log_le_self (b := 2) (by norm_num) hq
  have hround : f.round q - q =
      (roundHalfEven (q / 2 ^ f.ulpExp q) - q / 2 ^ f.ulpExp q) * 2 ^ f.ulpExp q := by
    rw [round]
    field_simp
  rw [hround, abs_mul, abs_of_pos hpos]
  calc |(roundHalfEven (q / 2 ^ f.ulpExp q) : ℚ) - q / 2 ^ f.ulpExp q| * 2 ^ f.ulpExp q
      ≤ 1 / 2 * 2 ^ f.ulpExp q :=
        mul_le_mul_of_nonneg_right (abs_roundHalfEven_sub_le _) hpos.le
    _ = 2 ^ Int.log 2 q * 2 ^ (-f.precision : ℤ) := by
        rw [hulp, ← zpow_add₀ (by norm_num), one_div, ← zpow_neg_one, ← zpow_add₀ (by norm_num)]
        congr 1
        ring
    _ ≤ q * 2 ^ (-f.precision : ℤ) :=
        mul_le_mul_of_nonneg_right hself (two_zpow_pos _).le

theorem round_mem_Icc (h : (2 : ℚ) ^ (f.minExp + (f.precision - 1)) ≤ q) :
    f.round q ∈ Set.Icc (q * (1 - 2 ^ (-f.precision : ℤ))) (q * (1 + 2 ^ (-f.precision : ℤ))) := by
  have hq : 0 < q := (two_zpow_pos _).trans_le h
  have hlog : f.minExp + (f.precision - 1) ≤ Int.log 2 q :=
    (Int.zpow_le_iff_le_log (by norm_num) hq).mp (by exact_mod_cast h)
  have herror := abs_le.mp (abs_round_sub_le hq (by omega : f.minExp ≤ _))
  constructor <;> linarith [herror.1, herror.2]

end Format

/-! ## Single precision -/

theorem binary32_mono (hx : 0 ≤ x) (h : x ≤ y) : binary32.round x ≤ binary32.round y :=
  Format.round_mono (by decide) hx h

theorem binary32_mem_Icc {q : ℚ} (h : 1 / 2 ^ 126 ≤ q) :
    binary32.round q ∈ Set.Icc (q * (1 - 1 / 2 ^ 24)) (q * (1 + 1 / 2 ^ 24)) := by
  have hleast : (2 : ℚ) ^ (binary32.minExp + (binary32.precision - 1)) = 1 / 2 ^ 126 := by
    norm_num [binary32]
  have hround := Format.round_mem_Icc (hleast.le.trans h)
  have hunit : (2 : ℚ) ^ (-binary32.precision : ℤ) = 1 / 2 ^ 24 := by norm_num [binary32]
  rwa [hunit] at hround

end FloatRound
