/-
# Comparisons of all pairs

A comparison looks at neighbours and stops at the first two that it does not hold between, yet it
means all pairs: it holds of a row exactly if its relation holds between each number and every later
one (`Primitive.chained_iff_pairwise`). A relation holds between two doubles if both stand for an
extended real and it orders these (`Relation.holds_iff_between`), so it is transitive, whatever is no
number is related to nothing, and the zeros are one. Before anything is compared all arguments are
seen to be numbers.

Key definitions: `Relation.Orders`, `Relation.Between`.
Key theorems: `Relation.holds_iff_between`, `Primitive.chained_iff_pairwise`,
`Primitive.comparison_of_all_pairs`.
-/
import SmallLisp.Primitive.Apply
import SmallLisp.Proofs.Values

namespace SmallLisp

/-! ### Relations -/

namespace Relation

/-- The order that a relation is named for. -/
def Orders {α : Type} [LinearOrder α] : Relation → α → α → Prop
  | .equal, a, b => a = b
  | .greater, a, b => b < a
  | .less, a, b => a < b
  | .atLeast, a, b => b ≤ a
  | .atMost, a, b => a ≤ b

/-- A relation between what two doubles stand for; one that stands for nothing has none. -/
def Between (relation : Relation) (x y : Double) : Prop :=
  ∃ a b, x.value? = some a ∧ y.value? = some b ∧ relation.Orders a b

theorem Orders.trans {α : Type} [LinearOrder α] {relation : Relation} {a b c : α}
    (hab : relation.Orders a b) (hbc : relation.Orders b c) : relation.Orders a c := by
  cases relation with
  | equal => exact Eq.trans hab hbc
  | greater => exact lt_trans hbc hab
  | less => exact lt_trans hab hbc
  | atLeast => exact le_trans hbc hab
  | atMost => exact le_trans hab hbc

theorem orders_iff_of_strictMonoOn {α β : Type} [LinearOrder α] [LinearOrder β] {f : α → β}
    {s : Set α} (hf : StrictMonoOn f s) {a b : α} (ha : a ∈ s) (hb : b ∈ s) (relation : Relation) :
    relation.Orders (f a) (f b) ↔ relation.Orders a b := by
  cases relation with
  | equal => exact hf.eq_iff_eq ha hb
  | greater => exact hf.lt_iff_lt hb ha
  | less => exact hf.lt_iff_lt ha hb
  | atLeast => exact hf.le_iff_le hb ha
  | atMost => exact hf.le_iff_le ha hb

theorem Between.trans {relation : Relation} {x y z : Double} (hxy : relation.Between x y)
    (hyz : relation.Between y z) : relation.Between x z := by
  obtain ⟨a, b, ha, hb, hab⟩ := hxy
  obtain ⟨b', c, hb', hc, hbc⟩ := hyz
  obtain rfl : b = b' := Option.some.inj (hb.symm.trans hb')
  exact ⟨a, c, ha, hc, hab.trans hbc⟩

theorem holds_iff_orders (relation : Relation) (x y : Double) :
    relation.holds x y = true ↔
      ∃ a b, x.order = some a ∧ y.order = some b ∧ relation.Orders a b := by
  cases relation <;> cases hx : x.order <;> cases hy : y.order <;>
    simp [holds, Orders, Double.equal, Double.less, Double.atMost, Double.compareBy, hx, hy]

/-- **A relation of doubles is the relation of what they stand for.** -/
theorem holds_iff_between (relation : Relation) (x y : Double) :
    relation.holds x y = true ↔ relation.Between x y := by
  rw [holds_iff_orders]
  have hvalue : ∀ {a b : ℤ}, x.order = some a → y.order = some b →
      (relation.Orders (Double.valueAt a) (Double.valueAt b) ↔ relation.Orders a b) :=
    fun hx hy => orders_iff_of_strictMonoOn Double.strictMonoOn_valueAt
      (Double.natAbs_order_le hx) (Double.natAbs_order_le hy) relation
  unfold Between
  rw [x.value?_eq, y.value?_eq]
  constructor
  · rintro ⟨a, b, hx, hy, h⟩
    exact ⟨_, _, by rw [hx]; rfl, by rw [hy]; rfl, (hvalue hx hy).mpr h⟩
  · rintro ⟨_, _, hx', hy', h⟩
    obtain ⟨a, hx, rfl⟩ := Option.map_eq_some_iff.mp hx'
    obtain ⟨b, hy, rfl⟩ := Option.map_eq_some_iff.mp hy'
    exact ⟨a, b, hx, hy, (hvalue hx hy).mp h⟩

theorem not_between_nan (relation : Relation) (x : Double) :
    ¬ relation.Between .nan x ∧ ¬ relation.Between x .nan :=
  ⟨fun ⟨_, _, h, _⟩ => (by cases h), fun ⟨_, _, _, h, _⟩ => (by cases h)⟩

end Relation

/-! ### Rows of numbers -/

namespace Primitive

theorem numbers_map_num : ∀ xs : List Double, numbers (xs.map .num) = .ok xs
  | [] => rfl
  | x :: xs => by
    rw [List.map_cons, numbers, numbers_map_num xs]
    rfl

theorem numbers_of_mem {v : Value} (hv : ∀ x, v ≠ .num x) :
    ∀ {args : List Value}, v ∈ args → numbers args = .error .notANumber
  | w :: args, h => by
    cases w with
    | num x =>
      have hmem : v ∈ args := (List.mem_cons.mp h).resolve_left (hv x)
      rw [numbers, numbers_of_mem hv hmem]
      rfl
    | _ => rfl

/-- **Neighbours stand for all pairs.** -/
theorem chained_iff_pairwise (relation : Relation) :
    ∀ xs : List Double, chained relation.holds xs = true ↔ xs.Pairwise relation.Between
  | [] => iff_of_true rfl List.Pairwise.nil
  | [x] => iff_of_true rfl (List.pairwise_singleton _ x)
  | x :: y :: rest => by
    rw [chained, Bool.and_eq_true, relation.holds_iff_between,
      chained_iff_pairwise relation (y :: rest), List.pairwise_cons (a := x)]
    refine and_congr_left fun hrest => ⟨fun hxy z hz => ?_, fun h => h y List.mem_cons_self⟩
    rcases List.mem_cons.mp hz with rfl | hz
    · exact hxy
    · exact hxy.trans ((List.pairwise_cons.mp hrest).1 z hz)

theorem chained_append (holds : Double → Double → Bool) (m : Double) (ys : List Double) :
    ∀ xs : List Double,
      chained holds (xs ++ m :: ys) = (chained holds (xs ++ [m]) && chained holds (m :: ys))
  | [] => rfl
  | [x] => by
    show (holds x m && chained holds (m :: ys)) = (holds x m && true && chained holds (m :: ys))
    rw [Bool.and_true]
  | x :: y :: xs => by
    have ih := chained_append holds m ys (y :: xs)
    simp only [List.cons_append] at ih
    simp only [List.cons_append, chained, ih, Bool.and_assoc]

theorem apply_compare (relation : Relation) {xs : List Double} (h : xs ≠ []) :
    apply (.compare relation) (xs.map .num) = .ok (.bool (chained relation.holds xs)) := by
  cases xs with
  | nil => exact absurd rfl h
  | cons x xs =>
    rw [apply, numbers_map_num]
    rfl

/-- **A comparison compares all pairs.** If an argument is no number, that is the error, whatever
stands before it; no arguments at all are too few. Numbers compare as true exactly if the relation
holds between each one and every later one, so a row can be cut at any of its numbers. What is no
number is related to nothing, and both zeros stand for zero. -/
theorem comparison_of_all_pairs (relation : Relation) :
    (∀ args : List Value, (∃ v ∈ args, ∀ x, v ≠ .num x) →
      apply (.compare relation) args = .error .notANumber) ∧
    apply (.compare relation) [] = .error (.noOperand (.compare relation)) ∧
    (LispError.notANumber.kind = .type ∧
      (LispError.noOperand (.compare relation)).kind = .arity) ∧
    (∀ xs : List Double, xs ≠ [] → ∃ b,
      apply (.compare relation) (xs.map .num) = .ok (.bool b) ∧
      (b = true ↔ ∀ (i j : ℕ) (_ : i < xs.length) (_ : j < xs.length), i < j →
        relation.Between xs[i] xs[j])) ∧
    (∀ (xs ys : List Double) (m : Double), ∃ a b,
      apply (.compare relation) ((xs ++ [m]).map .num) = .ok (.bool a) ∧
      apply (.compare relation) ((m :: ys).map .num) = .ok (.bool b) ∧
      apply (.compare relation) ((xs ++ m :: ys).map .num) = .ok (.bool (a && b))) ∧
    (∀ x, ¬ relation.Between .nan x ∧ ¬ relation.Between x .nan) ∧
    ∀ negative, (Double.ofRank negative 0).value? = some 0 := by
  refine ⟨?_, rfl, ⟨rfl, rfl⟩, fun xs hxs => ?_, fun xs ys m => ?_, relation.not_between_nan, ?_⟩
  · rintro args ⟨v, hmem, hv⟩
    rw [apply, numbers_of_mem hv hmem]
    rfl
  · refine ⟨_, apply_compare relation hxs, ?_⟩
    rw [chained_iff_pairwise, List.pairwise_iff_getElem]
  · refine ⟨_, _, apply_compare relation (by simp), apply_compare relation (by simp), ?_⟩
    rw [apply_compare relation (by simp), chained_append]
  · intro negative
    rw [Double.value?_eq]
    cases negative <;> simp [Double.order, Double.ofRank, Double.valueAt, Double.magnitude_zero]

/-- A text is refused behind a pair that does not hold. Of four numbers from minus infinity upwards,
both zeros among them, each is at most every later one. -/
theorem comparison_of_all_pairs_zeros :
    let xs : List Double := [.infinite true, .zero, .ofRank true 0, .ofRank false 1]
    apply (.compare .less) [.num .zero, .num .nan, .str "1"] = .error .notANumber ∧
    apply (.compare .atMost) (xs.map .num) = .ok (.bool true) ∧
    ∀ (i j : ℕ) (_ : i < xs.length) (_ : j < xs.length), i < j →
      Relation.atMost.Between xs[i] xs[j] := by
  intro xs
  have hrefused := (comparison_of_all_pairs .less).1
    [.num .zero, .num .nan, .str "1"] ⟨.str "1", by simp, fun x => by simp⟩
  have htrue : apply (.compare .atMost) (xs.map .num) = .ok (.bool true) := rfl
  obtain ⟨b, hb, hpairs⟩ := (comparison_of_all_pairs .atMost).2.2.2.1 xs (List.cons_ne_nil _ _)
  obtain rfl : b = true := by
    rw [htrue] at hb
    cases hb
    rfl
  exact ⟨hrefused, htrue, hpairs.mp rfl⟩

end Primitive
end SmallLisp
