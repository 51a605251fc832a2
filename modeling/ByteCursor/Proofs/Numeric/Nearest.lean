import ByteCursor.Numeric.Decimal
import ByteCursor.Proofs.Numeric.Spacing
import Mathlib.Algebra.Order.Field.Power
import Mathlib.Data.Rat.Cast.Order
import Mathlib.Tactic.FieldSimp
import Mathlib.Tactic.Linarith
import Mathlib.Tactic.NormNum
import Mathlib.Tactic.Positivity

set_option autoImplicit false

namespace ByteCursor

def signFactor (negative : Bool) : ℚ := if negative then -1 else 1

namespace Magnitude

def value (m : Magnitude) : ℚ := m.units / unitsPerOne

end Magnitude

namespace Binary64

def value : Binary64 → ℚ
  | finite negative m => signFactor negative * m.value
  | _ => 0

def IsNearest (q : ℚ) (x : Binary64) : Prop :=
  ∃ negative m, x = finite negative m ∧ ∀ otherNegative other,
    |x.value - q| ≤ |(finite otherNegative other).value - q| ∧
      ((finite otherNegative other).value ≠ x.value →
        |x.value - q| = |(finite otherNegative other).value - q| → m.rank % 2 = 0)

end Binary64

namespace Decimal

def magnitude (d : Decimal) : ℚ := d.coefficient * 10 ^ d.exponent

def exact (d : Decimal) : ℚ := signFactor d.negative * d.magnitude

end Decimal

namespace Rank

def IsNearest (q : ℚ) (rank : Nat) : Prop :=
  ∀ bound, rank ≤ bound ↔
    2 * q < halfway bound ∨ (2 * q = halfway bound ∧ bound % 2 = 0)

variable {q : ℚ} {rank : Nat}

theorem IsNearest.upper (nearest : IsNearest q rank) :
    2 * q ≤ halfway rank ∧ (2 * q = halfway rank → rank % 2 = 0) := by
  rcases (nearest rank).mp (Nat.le_refl rank) with lt | ⟨tie, even⟩
  · exact ⟨lt.le, fun tie => absurd tie lt.ne⟩
  · exact ⟨tie.le, fun _ => even⟩

theorem IsNearest.lower {last : Nat} (nearest : IsNearest q (last + 1)) :
    (halfway last : ℚ) ≤ 2 * q ∧ ((halfway last : ℚ) = 2 * q → (last + 1) % 2 = 0) := by
  have beyond := (nearest last).not.mp (Nat.not_succ_le_self last)
  rw [not_or, not_lt] at beyond
  refine ⟨beyond.1, fun tie => ?_⟩
  have odd : ¬ last % 2 = 0 := fun even => beyond.2 ⟨tie.symm, even⟩
  omega

theorem units_cast_lt {a b : Nat} (lt : a < b) : (units a : ℚ) < units b := by
  exact_mod_cast units_strictMono lt

theorem units_cast_le {a b : Nat} (le : a ≤ b) : (units a : ℚ) ≤ units b := by
  exact_mod_cast units_strictMono.monotone le

theorem halfway_cast (rank : Nat) : (halfway rank : ℚ) = units rank + units (rank + 1) := by
  rw [halfway]
  push_cast
  ring

theorem halfway_above (rank : Nat) : (halfway rank : ℚ) = 2 * units rank + 2 ^ scale rank := by
  exact_mod_cast halfway_eq rank

theorem halfway_below (rank : Nat) :
    (halfway rank : ℚ) = 2 * units (rank + 1) - 2 ^ scale rank := by
  have step : (units (rank + 1) : ℚ) = units rank + 2 ^ scale rank := by
    exact_mod_cast units_succ rank
  rw [halfway_cast, step]
  ring

theorem two_pow_scale_le {a b : Nat} (le : a ≤ b) : (2 : ℚ) ^ scale a ≤ 2 ^ scale b := by
  apply pow_le_pow_right₀ one_le_two
  unfold scale
  omega

theorem nearer_below {a b q : ℚ} (lt : a < b) : |a - q| ≤ |b - q| ↔ 2 * q ≤ a + b := by
  rw [← sq_le_sq, ← sub_nonneg]
  have factors : (b - q) ^ 2 - (a - q) ^ 2 = (b - a) * (a + b - 2 * q) := by ring
  rw [factors, mul_nonneg_iff_of_pos_left (sub_pos.mpr lt), sub_nonneg]

theorem nearer_above {a b q : ℚ} (lt : a < b) : |b - q| ≤ |a - q| ↔ a + b ≤ 2 * q := by
  rw [← sq_le_sq, ← sub_nonneg]
  have factors : (a - q) ^ 2 - (b - q) ^ 2 = (b - a) * (2 * q - (a + b)) := by ring
  rw [factors, mul_nonneg_iff_of_pos_left (sub_pos.mpr lt), sub_nonneg]

theorem IsNearest.dist (nearest : IsNearest q rank) (other : Nat) :
    |(units rank : ℚ) - q| ≤ |(units other : ℚ) - q| ∧
      (other ≠ rank → |(units rank : ℚ) - q| = |(units other : ℚ) - q| → rank % 2 = 0) := by
  rcases Nat.lt_trichotomy other rank with less | same | more
  · obtain ⟨last, rfl⟩ := Nat.exists_eq_succ_of_ne_zero (show rank ≠ 0 by omega)
    obtain ⟨low, tied⟩ := nearest.lower
    rw [halfway_cast] at low tied
    have below := units_cast_le (show other ≤ last by omega)
    have apart := units_cast_lt less
    refine ⟨(nearer_above apart).mpr (by linarith), fun _ equal => tied ?_⟩
    have between := (nearer_below apart).mp equal.ge
    linarith
  · subst same
    exact ⟨le_refl _, fun differ => absurd rfl differ⟩
  · obtain ⟨high, tied⟩ := nearest.upper
    rw [halfway_cast] at high tied
    have above := units_cast_le (show rank + 1 ≤ other from more)
    have apart := units_cast_lt more
    refine ⟨(nearer_below apart).mpr (by linarith), fun _ equal => tied ?_⟩
    have between := (nearer_above apart).mp equal.ge
    linarith

theorem isNearest_zero : IsNearest 0 0 := by
  intro bound
  have positive : (0 : ℚ) < halfway bound := by
    exact_mod_cast Nat.lt_of_lt_of_le (by decide) (halfway_strictMono.monotone (Nat.zero_le bound))
  simp [positive]

theorem IsNearest.eq_of_between {near : Nat} (nearest : IsNearest q near)
    (above : 2 * q < halfway rank) (below : ∀ last, rank = last + 1 → (halfway last : ℚ) < 2 * q) :
    near = rank := by
  apply Nat.le_antisymm ((nearest rank).mpr (.inl above))
  by_contra less
  obtain ⟨last, rfl⟩ : ∃ last, rank = last + 1 := Nat.exists_eq_succ_of_ne_zero (by omega)
  rcases (nearest last).mp (by omega) with lt | ⟨tie, _⟩
  · exact lt_asymm lt (below last rfl)
  · exact (below last rfl).ne tie.symm

theorem IsNearest.dist_le (nearest : IsNearest q rank) (bound : Nat) (nonneg : 0 ≤ q)
    (le : q ≤ units (bound + 1)) : 2 * |(units rank : ℚ) - q| ≤ 2 ^ scale bound := by
  have step : (0 : ℚ) < 2 ^ scale bound := by positivity
  have below : rank ≤ bound + 1 := by
    apply (nearest (bound + 1)).mpr
    left
    have wide : (0 : ℚ) < 2 ^ scale (bound + 1) := by positivity
    rw [halfway_above]
    linarith
  have upper : 2 * (q - units rank) ≤ 2 ^ scale bound := by
    rcases Nat.lt_or_eq_of_le below with lt | rfl
    · have high := nearest.upper.1
      have wider := two_pow_scale_le (Nat.le_of_lt_succ lt)
      rw [halfway_above] at high
      linarith
    · linarith
  have lower : 2 * (units rank - q) ≤ 2 ^ scale bound := by
    cases rank with
    | zero =>
        have none : (units 0 : ℚ) = 0 := by exact_mod_cast (by decide : units 0 = 0)
        rw [none]
        linarith
    | succ last =>
        have low := nearest.lower.1
        have wider := two_pow_scale_le (Nat.le_of_succ_le_succ below)
        rw [halfway_below] at low
        linarith
  have half : |(units rank : ℚ) - q| ≤ 2 ^ scale bound / 2 :=
    abs_le.mpr ⟨by linarith, by linarith⟩
  linarith

theorem IsNearest.dist_normal (nearest : IsNearest q rank) (nonneg : 0 ≤ q)
    (normal : 2 ^ 52 ≤ rank) : |(units rank : ℚ) - q| * 2 ^ 53 ≤ units rank := by
  have high := nearest.upper.1
  have next := units_cast_le (Nat.le_succ rank)
  have near := nearest.dist_le rank nonneg (by rw [halfway_cast] at high; linarith)
  have wide : (2 : ℚ) ^ 52 * 2 ^ scale rank ≤ units rank := by exact_mod_cast le_units normal
  linarith

theorem halfway_largest : (halfway (2047 * 2 ^ 52 - 1) : ℚ) = 2 * (2 ^ 2098 - 2 ^ 2044) := by
  have rank : 2047 * 2 ^ 52 - 1 = 2045 * 2 ^ 52 + 9007199254740991 := by decide
  have next : 2045 * 2 ^ 52 + 9007199254740991 + 1 = 2046 * 2 ^ 52 + 4503599627370496 := by decide
  have last := units_of_coefficient (s := 2045) (k := 9007199254740991) (by decide)
    (.inr (by decide))
  have beyond := units_of_coefficient (s := 2046) (k := 4503599627370496) (by decide)
    (.inr (by decide))
  have power₁ : (2 : ℚ) ^ 2045 = 2 ^ 1 * 2 ^ 2044 := pow_add 2 1 2044
  have power₂ : (2 : ℚ) ^ 2046 = 2 ^ 2 * 2 ^ 2044 := pow_add 2 2 2044
  have power₃ : (2 : ℚ) ^ 2098 = 2 ^ 54 * 2 ^ 2044 := pow_add 2 54 2044
  rw [halfway_cast, rank, next, last, beyond]
  simp only [Nat.cast_mul, Nat.cast_pow, Nat.cast_ofNat]
  rw [power₁, power₂, power₃]
  generalize (2 : ℚ) ^ 2044 = step
  ring

theorem halfway_zero : halfway 0 = 1 := by decide

theorem halfway_smallest_normal : (halfway (2 ^ 52 - 1) : ℚ) = 2 * (2 ^ 52 - 2⁻¹) := by
  have value : halfway (2 ^ 52 - 1) = 2 ^ 53 - 1 := by decide
  rw [value]
  norm_num

theorem IsNearest.finite_iff (nearest : IsNearest q rank) :
    rank < 2047 * 2 ^ 52 ↔ q < 2 ^ 2098 - 2 ^ 2044 := by
  have bound := nearest (2047 * 2 ^ 52 - 1)
  rw [halfway_largest] at bound
  have odd : ¬ (2047 * 2 ^ 52 - 1) % 2 = 0 := by decide
  have last : rank < 2047 * 2 ^ 52 ↔ rank ≤ 2047 * 2 ^ 52 - 1 := by omega
  rw [last, bound]
  simp only [odd, and_false, or_false]
  exact mul_lt_mul_iff_right₀ two_pos

theorem IsNearest.normal_iff (nearest : IsNearest q rank) :
    2 ^ 52 ≤ rank ↔ 2 ^ 52 - 2⁻¹ ≤ q := by
  have bound := nearest (2 ^ 52 - 1)
  rw [halfway_smallest_normal] at bound
  have odd : ¬ (2 ^ 52 - 1) % 2 = 0 := by decide
  have last : 2 ^ 52 ≤ rank ↔ ¬ rank ≤ 2 ^ 52 - 1 := by omega
  rw [last, bound, ← not_lt]
  simp only [odd, and_false, or_false]
  exact not_congr (mul_lt_mul_iff_right₀ two_pos)

end Rank

namespace Binary64

def ofRank (negative : Bool) (rank : Nat) : Binary64 :=
  if h : rank < 2047 * 2 ^ 52 then .finite negative ⟨rank, h⟩ else .infinite negative

theorem ofRank_normal_iff (negative : Bool) (rank : Nat) :
    ((ofRank negative rank).isInfinite || (ofRank negative rank).isSubnormal ||
      (ofRank negative rank).isZero) = false ↔ 2 ^ 52 ≤ rank ∧ rank < 2047 * 2 ^ 52 := by
  by_cases h : rank < 2047 * 2 ^ 52
  · rw [ofRank, dif_pos h]
    simp only [h, and_true, isInfinite, isSubnormal, isZero, Magnitude.isSubnormal,
      Magnitude.zero, Bool.false_or, Bool.or_eq_false_iff, Bool.and_eq_false_iff,
      decide_eq_false_iff_not, beq_eq_false_iff_ne, ne_eq, Magnitude.mk.injEq]
    omega
  · rw [ofRank, dif_neg h]
    simp only [h, and_false, isInfinite, Bool.true_or, Bool.true_eq_false]

theorem nearestRank_isNearest (num : Nat) {den : Nat} (positive : 0 < den) :
    Rank.IsNearest (num / den) (nearestRank num den) := by
  intro bound
  have cast : (0 : ℚ) < den := by exact_mod_cast positive
  rw [nearestRank_le_iff num positive]
  have twice : (2 : ℚ) * (num / den) = (2 * num : ℕ) / den := by
    push_cast
    ring
  rw [twice, div_lt_iff₀ cast, div_eq_iff cast.ne', mul_comm _ (den : ℚ)]
  norm_cast

theorem abs_signFactor (negative : Bool) : |signFactor negative| = 1 := by
  cases negative <;> simp [signFactor]

theorem abs_signed (negative : Bool) (a b : ℚ) :
    |signFactor negative * a - signFactor negative * b| = |a - b| := by
  rw [← mul_sub, abs_mul, abs_signFactor, one_mul]

theorem abs_signed_ge (first second : Bool) {a b : ℚ} (left : 0 ≤ a) (right : 0 ≤ b) :
    |a - b| ≤ |signFactor first * a - signFactor second * b| := by
  have apart := abs_abs_sub_abs_le (signFactor first * a) (signFactor second * b)
  rwa [abs_mul, abs_mul, abs_signFactor, abs_signFactor, one_mul, one_mul, abs_of_nonneg left,
    abs_of_nonneg right] at apart

theorem abs_signed_gt {first second : Bool} (signs : first ≠ second) {a b : ℚ} (left : 0 < a)
    (right : 0 < b) : |a - b| < |signFactor first * a - signFactor second * b| := by
  have opposite : signFactor second = -signFactor first := by
    cases first <;> cases second <;> simp_all [signFactor]
  rw [opposite, neg_mul, sub_neg_eq_add, ← mul_add, abs_mul, abs_signFactor, one_mul,
    abs_of_pos (add_pos left right), abs_lt]
  constructor <;> linarith

theorem zero_of_opposite {first second : Bool} {a q : ℚ} (left : 0 ≤ a) (right : 0 < q)
    (differ : signFactor second * a ≠ signFactor first * a)
    (equal : |a - q| = |signFactor second * a - signFactor first * q|) : a = 0 := by
  by_contra nonzero
  have signs : second ≠ first := by
    rintro rfl
    exact differ rfl
  have apart := abs_signed_gt signs (lt_of_le_of_ne left (Ne.symm nonzero)) right
  exact apart.ne equal

theorem unit_eq : (unitsPerOne : ℚ) = 2 ^ 1074 := by
  rw [unitsPerOne, Nat.cast_pow, Nat.cast_ofNat]

theorem unit_pos : (0 : ℚ) < unitsPerOne := by
  rw [unit_eq]
  positivity

theorem largest_units : ((2 : ℚ) ^ 1024 - 2 ^ 970) * unitsPerOne = 2 ^ 2098 - 2 ^ 2044 := by
  rw [unit_eq, sub_mul, ← pow_add, ← pow_add]

theorem smallest_units :
    ((2 : ℚ) ^ (-1022 : ℤ) - 2 ^ (-1075 : ℤ)) * unitsPerOne = 2 ^ 52 - 2⁻¹ := by
  have normal : (2 : ℚ) ^ (-1022 : ℤ) * 2 ^ 1074 = 2 ^ 52 := by
    rw [← zpow_natCast, ← zpow_natCast, ← zpow_add₀ two_ne_zero]
    rfl
  have half : (2 : ℚ) ^ (-1075 : ℤ) * 2 ^ 1074 = 2⁻¹ := by
    rw [← zpow_natCast, ← zpow_add₀ two_ne_zero, ← zpow_neg_one]
    rfl
  rw [unit_eq, sub_mul, normal, half]

theorem dist_units (a q : ℚ) : |a / unitsPerOne - q / unitsPerOne| = |a - q| / unitsPerOne := by
  rw [← sub_div, abs_div, abs_of_pos unit_pos]

theorem isNearest_of_rank {q : ℚ} {rank : Nat} (nearest : Rank.IsNearest q rank)
    (positive : 0 < q) (h : rank < 2047 * 2 ^ 52) (negative : Bool) :
    (finite negative ⟨rank, h⟩).IsNearest (signFactor negative * (q / unitsPerOne)) := by
  refine ⟨negative, ⟨rank, h⟩, rfl, ?_⟩
  intro otherNegative other
  have here : |(finite negative ⟨rank, h⟩).value - signFactor negative * (q / unitsPerOne)| =
      |(Rank.units rank : ℚ) - q| / unitsPerOne := by
    rw [value, abs_signed]
    exact dist_units _ _
  have there : |(Rank.units other.rank : ℚ) - q| / unitsPerOne ≤
      |(finite otherNegative other).value - signFactor negative * (q / unitsPerOne)| := by
    rw [value, ← dist_units]
    apply abs_signed_ge
    · exact div_nonneg (Nat.cast_nonneg _) unit_pos.le
    · exact (div_pos positive unit_pos).le
  obtain ⟨near, tie⟩ := nearest.dist other.rank
  have scaled := div_le_div_of_nonneg_right near unit_pos.le
  rw [here]
  refine ⟨scaled.trans there, ?_⟩
  intro differ equal
  have same : |(Rank.units rank : ℚ) - q| = |(Rank.units other.rank : ℚ) - q| := by
    apply le_antisymm near
    rw [← div_le_div_iff_of_pos_right unit_pos]
    exact there.trans equal.ge
  -- As near are only the same rank with the other sign, which must be zero, or a neighbour.
  by_cases rankSame : other.rank = rank
  · have value : other.value = (Rank.units rank : ℚ) / unitsPerOne := by
      rw [Magnitude.value, units_eq, rankSame]
    rw [Binary64.value, value] at differ equal
    rw [← dist_units] at equal
    have zero := zero_of_opposite (div_nonneg (Nat.cast_nonneg _) unit_pos.le)
      (div_pos positive unit_pos) differ equal
    have none : Rank.units rank = Rank.units 0 := by
      exact_mod_cast (div_eq_zero_iff.mp zero).resolve_right unit_pos.ne'
    obtain rfl := Rank.units_strictMono.injective none
    rfl
  · exact tie rankSame same

end Binary64

namespace Decimal

variable {d : Decimal}

theorem magnitude_pos (nonzero : d.coefficient ≠ 0) : 0 < d.magnitude := by
  have positive : (0 : ℚ) < d.coefficient := by exact_mod_cast Nat.pos_of_ne_zero nonzero
  exact mul_pos positive (zpow_pos (by norm_num) _)

theorem exact_eq_zero_iff (d : Decimal) : d.exact = 0 ↔ d.coefficient = 0 := by
  constructor
  · intro zero
    by_contra nonzero
    have positive := magnitude_pos nonzero
    rcases mul_eq_zero.mp zero with factor | none
    · have one := Binary64.abs_signFactor d.negative
      rw [factor, abs_zero] at one
      exact zero_ne_one one
    · exact positive.ne' none
  · intro none
    simp [exact, magnitude, none]

theorem abs_exact (d : Decimal) : |d.exact| = d.magnitude := by
  rw [exact, abs_mul, Binary64.abs_signFactor, one_mul, abs_of_nonneg]
  exact mul_nonneg (Nat.cast_nonneg _) (zpow_nonneg (by norm_num) _)

theorem magnitude_huge (nonzero : d.coefficient ≠ 0) {k : Nat} (written : d.exponent = .ofNat k)
    (huge : 309 ≤ k) : 2 ^ 1024 ≤ d.magnitude := by
  have least : 2 ^ 1024 ≤ 10 ^ 309 := by decide +kernel
  have power : 2 ^ 1024 ≤ 10 ^ k := least.trans (Nat.pow_le_pow_right (by decide) huge)
  have product : 2 ^ 1024 ≤ d.coefficient * 10 ^ k :=
    power.trans (Nat.le_mul_of_pos_left _ (Nat.pos_of_ne_zero nonzero))
  rw [magnitude, written, Int.ofNat_eq_natCast, zpow_natCast]
  exact_mod_cast product

theorem tiny_units {c k u : Nat} (tiny : c.log2 + u + 2 ≤ 3 * (k + 1)) :
    2 * (c * 2 ^ u) < 10 ^ (k + 1) := by
  calc 2 * (c * 2 ^ u) < 2 * (2 ^ (c.log2 + 1) * 2 ^ u) := by
        apply Nat.mul_lt_mul_of_pos_left _ two_pos
        exact Nat.mul_lt_mul_of_pos_right Nat.lt_log2_self (Nat.two_pow_pos _)
    _ = 2 ^ (c.log2 + 1 + u + 1) := by rw [← Nat.pow_add, ← Nat.pow_succ']
    _ ≤ 2 ^ (3 * (k + 1)) := Nat.pow_le_pow_right two_pos (by omega)
    _ = 8 ^ (k + 1) := by rw [Nat.pow_mul]
    _ ≤ 10 ^ (k + 1) := Nat.pow_le_pow_left (by decide) _

theorem magnitude_ofNat {k unit : Nat} (written : d.exponent = .ofNat k) :
    d.magnitude * unit = ((d.coefficient * 10 ^ k * unit : ℕ) : ℚ) / (1 : ℕ) := by
  rw [magnitude, written, Int.ofNat_eq_natCast, zpow_natCast]
  push_cast
  rw [div_one]

theorem magnitude_negSucc {k unit : Nat} (written : d.exponent = .negSucc k) :
    d.magnitude * unit = ((d.coefficient * unit : ℕ) : ℚ) / (10 ^ (k + 1) : ℕ) := by
  rw [magnitude, written, zpow_negSucc]
  push_cast
  rw [div_eq_mul_inv, mul_right_comm]

theorem nearest_cases (nonzero : d.coefficient ≠ 0) :
    ∃ rank, Rank.IsNearest (d.magnitude * unitsPerOne) rank ∧
      d.nearest = .ofRank d.negative rank := by
  cases written : d.exponent with
  | ofNat k =>
      have nearest := Binary64.nearestRank_isNearest (d.coefficient * 10 ^ k * unitsPerOne) one_pos
      rw [← magnitude_ofNat written] at nearest
      refine ⟨_, nearest, ?_⟩
      simp only [Decimal.nearest, nonzero, if_false, written]
      split
      · next huge =>
          -- Answered from the size alone, and the rank is past the finite ones too.
          have large :
              ¬ Binary64.nearestRank (d.coefficient * 10 ^ k * unitsPerOne) 1 < 2047 * 2 ^ 52 := by
            rw [nearest.finite_iff, not_lt, ← Binary64.largest_units]
            apply mul_le_mul_of_nonneg_right _ Binary64.unit_pos.le
            have below : (0 : ℚ) ≤ 2 ^ 970 := by positivity
            exact (sub_le_self _ below).trans (magnitude_huge nonzero written huge)
          rw [Binary64.ofRank, dif_neg large]
      · rfl
  | negSucc k =>
      have nearest := Binary64.nearestRank_isNearest (d.coefficient * unitsPerOne)
        (Nat.pow_pos (n := k + 1) (show 0 < 10 by decide))
      rw [← magnitude_negSucc written] at nearest
      refine ⟨_, nearest, ?_⟩
      simp only [Decimal.nearest, nonzero, if_false, written]
      split
      · next tiny =>
          have none : Binary64.nearestRank (d.coefficient * unitsPerOne) (10 ^ (k + 1)) ≤ 0 := by
            rw [Binary64.nearestRank_le_iff _ (Nat.pow_pos (by decide))]
            left
            rw [Rank.halfway_zero, Nat.mul_one]
            exact tiny_units (by omega)
          rw [Nat.le_zero.mp none]
          rfl
      · rfl

theorem nearest_rank (d : Decimal) :
    ∃ rank, Rank.IsNearest (d.magnitude * unitsPerOne) rank ∧ d.nearest = .ofRank d.negative rank := by
  by_cases zero : d.coefficient = 0
  · refine ⟨0, ?_, ?_⟩
    · rw [magnitude, zero, Nat.cast_zero, zero_mul, zero_mul]
      exact Rank.isNearest_zero
    · rw [nearest, if_pos zero]
      rfl
  · exact nearest_cases zero

theorem nearest_normal_iff (nonzero : d.coefficient ≠ 0) :
    (d.nearest.isInfinite || d.nearest.isSubnormal || d.nearest.isZero) = false ↔
      2 ^ (-1022 : ℤ) - 2 ^ (-1075 : ℤ) ≤ |d.exact| ∧ |d.exact| < 2 ^ 1024 - 2 ^ 970 := by
  obtain ⟨rank, nearest, result⟩ := nearest_cases nonzero
  have normal := nearest.normal_iff
  rw [← Binary64.smallest_units, mul_le_mul_iff_left₀ Binary64.unit_pos] at normal
  have finite := nearest.finite_iff
  rw [← Binary64.largest_units, mul_lt_mul_iff_left₀ Binary64.unit_pos] at finite
  rw [abs_exact, ← normal, ← finite, result, Binary64.ofRank_normal_iff]

theorem nearest_isNearest (nonzero : d.coefficient ≠ 0) (small : |d.exact| < 2 ^ 1024 - 2 ^ 970) :
    d.nearest.IsNearest d.exact := by
  obtain ⟨rank, nearest, result⟩ := nearest_cases nonzero
  rw [abs_exact, ← mul_lt_mul_iff_left₀ Binary64.unit_pos, Binary64.largest_units,
    ← nearest.finite_iff] at small
  have positive := mul_pos (magnitude_pos nonzero) Binary64.unit_pos
  have near := Binary64.isNearest_of_rank nearest positive small d.negative
  rw [mul_div_cancel_right₀ _ Binary64.unit_pos.ne'] at near
  rw [result, Binary64.ofRank, dif_pos small]
  exact near

theorem zero_isNearest (negative : Bool) : (Binary64.zero negative).IsNearest 0 := by
  refine ⟨negative, .zero, rfl, fun otherNegative other => ⟨?_, fun _ _ => rfl⟩⟩
  have none : (Binary64.zero negative).value = 0 := by
    have units : Rank.units Magnitude.zero.rank = 0 := by decide
    rw [Binary64.zero, Binary64.value, Magnitude.value, units_eq, units, Nat.cast_zero, zero_div,
      mul_zero]
  rw [none, sub_zero, abs_zero]
  exact abs_nonneg _

end Decimal

end ByteCursor
