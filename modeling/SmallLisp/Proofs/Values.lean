/-
# The values of doubles

A double that is a number stands for an extended real: the finite ones for their count of units
divided by the units that make one, and the infinite ones for the ends of the line
(`Double.value?`). A rank is followed by the next at the spacing of its binade
(`Double.units_succ`), so values grow with ranks, and to compare the places of two doubles on the
line is to compare what they stand for (`Double.strictMonoOn_valueAt`).

Key definitions: `Double.magnitude`, `Double.value?`.
Key theorems: `Double.units_succ`, `Double.strictMono_units`, `Double.strictMonoOn_valueAt`.
-/
import SmallLisp.Double
import Mathlib.Data.EReal.Operations
import Mathlib.Data.Int.ConditionallyCompleteOrder

namespace SmallLisp
namespace Double

/-! ### Units -/

theorem unitsPerOne_eq : unitsPerOne = 2 ^ 1074 := by
  unfold unitsPerOne
  generalize 1074 = n
  rfl

theorem unitsPerOne_pos : 0 < unitsPerOne := by decide +kernel

theorem units_eq (rank : ℕ) : units rank =
    if rank / 2 ^ 52 = 0 then rank else (2 ^ 52 + rank % 2 ^ 52) * 2 ^ (rank / 2 ^ 52 - 1) := rfl

/-- In the first binade ranks count units. -/
theorem units_of_lt {rank : ℕ} (h : rank < 2 ^ 52) : units rank = rank := by
  rw [units_eq, if_pos (Nat.div_eq_of_lt h)]

/-- Beyond the first binade a rank is a significand and a power of two. -/
theorem units_binade (q : ℕ) {m : ℕ} (hm : m < 2 ^ 52) :
    units (2 ^ 52 * (q + 1) + m) = (2 ^ 52 + m) * 2 ^ q := by
  have hdiv : (2 ^ 52 * (q + 1) + m) / 2 ^ 52 = q + 1 := by omega
  have hmod : (2 ^ 52 * (q + 1) + m) % 2 ^ 52 = m := by omega
  have hne : (2 ^ 52 * (q + 1) + m) / 2 ^ 52 ≠ 0 := by omega
  rw [units_eq, if_neg hne, hdiv, hmod, Nat.add_sub_cancel]

/-- A rank is in the first binade, or at a place in one of the others. -/
theorem rank_cases (rank : ℕ) :
    rank < 2 ^ 52 ∨ ∃ q m, m < 2 ^ 52 ∧ rank = 2 ^ 52 * (q + 1) + m := by
  rcases Nat.lt_or_ge rank (2 ^ 52) with h | h
  · exact Or.inl h
  · refine Or.inr ⟨rank / 2 ^ 52 - 1, rank % 2 ^ 52, Nat.mod_lt _ (by decide), ?_⟩
    omega

/-- **A double is followed by the next at the spacing of its binade.** -/
theorem units_succ (rank : ℕ) : units (rank + 1) = units rank + 2 ^ (rank / 2 ^ 52 - 1) := by
  rcases rank_cases rank with h | ⟨q, m, hm, rfl⟩
  · have hspacing : 2 ^ (rank / 2 ^ 52 - 1) = 1 := by rw [Nat.div_eq_of_lt h]; rfl
    rw [hspacing, units_of_lt h]
    rcases Nat.lt_or_ge (rank + 1) (2 ^ 52) with h' | h'
    · exact units_of_lt h'
    · obtain rfl : rank = 2 ^ 52 - 1 := by omega
      exact units_binade 0 (m := 0) (by decide)
  · have hspacing : (2 ^ 52 * (q + 1) + m) / 2 ^ 52 - 1 = q := by omega
    rw [hspacing, units_binade q hm]
    rcases Nat.lt_or_ge (m + 1) (2 ^ 52) with h' | h'
    · rw [Nat.add_assoc, units_binade q h']
      ring
    · have hnext : 2 ^ 52 * (q + 1) + m + 1 = 2 ^ 52 * (q + 1 + 1) + 0 := by omega
      obtain rfl : m = 2 ^ 52 - 1 := by omega
      rw [hnext, units_binade (q + 1) (Nat.two_pow_pos 52)]
      ring

theorem strictMono_units : StrictMono units :=
  strictMono_nat_of_lt_succ fun rank => by
    rw [units_succ]
    exact Nat.lt_add_of_pos_right (Nat.pow_pos (by decide))

theorem units_zero : units 0 = 0 := units_of_lt (by decide)

/-! ### Values -/

/-- What a rank stands for. -/
noncomputable def magnitude (rank : ℕ) : EReal :=
  if rank < infinityRank then ((units rank / unitsPerOne : ℝ) : EReal) else ⊤

/-- The extended real that a double stands for, if it is a number. -/
noncomputable def value? : Double → Option EReal
  | .nan => none
  | .signed negative rank _ => some (if negative then -magnitude rank else magnitude rank)

theorem magnitude_of_lt {rank : ℕ} (h : rank < infinityRank) :
    magnitude rank = ((units rank / unitsPerOne : ℝ) : EReal) := if_pos h

theorem magnitude_infinityRank : magnitude infinityRank = ⊤ := if_neg (Nat.lt_irrefl _)

theorem magnitude_zero : magnitude 0 = 0 := by
  rw [magnitude_of_lt (by decide), units_zero, Nat.cast_zero, zero_div, EReal.coe_zero]

theorem magnitude_lt {a b : ℕ} (hab : a < b) (hb : b ≤ infinityRank) :
    magnitude a < magnitude b := by
  rw [magnitude_of_lt (Nat.lt_of_lt_of_le hab hb)]
  rcases Nat.lt_or_eq_of_le hb with hb | rfl
  · have hpos : (0 : ℝ) < unitsPerOne := Nat.cast_pos.mpr unitsPerOne_pos
    rw [magnitude_of_lt hb, EReal.coe_lt_coe_iff]
    exact div_lt_div_of_pos_right (Nat.cast_lt.mpr (strictMono_units hab)) hpos
  · rw [magnitude_infinityRank]
    exact EReal.coe_lt_top _

/-- What a place on the line stands for. -/
noncomputable def valueAt (place : ℤ) : EReal :=
  if place < 0 then -magnitude place.natAbs else magnitude place.natAbs

theorem magnitude_nonneg {rank : ℕ} (le : rank ≤ infinityRank) : 0 ≤ magnitude rank := by
  rcases Nat.eq_zero_or_pos rank with rfl | hpos
  · exact magnitude_zero.ge
  · exact (magnitude_zero ▸ magnitude_lt hpos le).le

theorem neg_magnitude_neg {rank : ℕ} (hpos : 0 < rank) (le : rank ≤ infinityRank) :
    -magnitude rank < 0 := by
  rw [EReal.neg_lt_comm, neg_zero, ← magnitude_zero]
  exact magnitude_lt hpos le

/-- **Of two places the lower one stands for less.** -/
theorem strictMonoOn_valueAt :
    StrictMonoOn valueAt {place : ℤ | place.natAbs ≤ infinityRank} := by
  intro a ha b hb hab
  unfold valueAt
  by_cases ha0 : a < 0
  · rw [if_pos ha0]
    by_cases hb0 : b < 0
    · rw [if_pos hb0, EReal.neg_lt_neg_iff]
      exact magnitude_lt (by omega) ha
    · rw [if_neg hb0]
      exact (neg_magnitude_neg (by omega) ha).trans_le (magnitude_nonneg hb)
  · rw [if_neg ha0, if_neg (by omega)]
    exact magnitude_lt (by omega) hb

/-- A double stands for what its place stands for; both zeros stand for zero. -/
theorem value?_eq (x : Double) : x.value? = x.order.map valueAt := by
  cases x with
  | nan => rfl
  | signed negative rank le =>
    cases negative with
    | false => simp [value?, order, valueAt]
    | true =>
      rcases Nat.eq_zero_or_pos rank with rfl | hpos
      · simp [value?, order, valueAt, magnitude_zero]
      · simp [value?, order, valueAt, hpos]

theorem natAbs_order_le {x : Double} {place : ℤ} (h : x.order = some place) :
    place.natAbs ≤ infinityRank := by
  cases x with
  | nan => cases h
  | signed negative rank le => cases negative <;> cases h <;> omega

end Double
end SmallLisp
