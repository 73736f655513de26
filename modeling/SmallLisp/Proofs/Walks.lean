/-
# Two ways through a list

The items of a list can be asked for by their places, and the list can be walked by its head and its
tail. A place is any double: what is negative or no number means the first place, a finite number
the place that it has without the part after its point, and infinity a place beyond all
(`Double.means_iff`). A walk takes the tail again and again; the tail of a last item is no list but
`nil`, so a walk of a list that is not empty ends there, past its last item
(`Primitive.cdrs_list`). Both ways tell the same items in the same order.

Key definitions: `Double.Means`, `Primitive.cdrs`, `Primitive.Walk`.
Key theorems: `Double.means_iff`, `Primitive.cdrs_list`, `Primitive.walk_list_iff`,
`Primitive.places_and_walks_agree`.
-/
import SmallLisp.Primitive.Apply
import SmallLisp.Proofs.Primitives
import SmallLisp.Proofs.Values
import Mathlib.Algebra.Order.Floor.Semifield

namespace SmallLisp

/-! ### Places -/

namespace Double

/-- The place that a double means, if there can be one: the first one if it is negative or no
number, and otherwise what it stands for, truncated. -/
inductive Means (x : Double) : Option ℕ → Prop
  | nan : x.value? = none → Means x (some 0)
  | negative {a : EReal} : x.value? = some a → a < 0 → Means x (some 0)
  | finite {r : ℝ} : x.value? = some (r : EReal) → 0 ≤ r → Means x (some ⌊r⌋₊)
  | infinite : x.value? = some ⊤ → Means x none

theorem floor_magnitude (rank : ℕ) :
    ⌊(units rank / unitsPerOne : ℝ)⌋₊ = units rank / unitsPerOne := Nat.floor_div_eq_div _ _

theorem means_index? (x : Double) : x.Means x.index? := by
  cases x with
  | nan => exact .nan rfl
  | signed negative rank le =>
    cases negative with
    | true =>
      rcases Nat.eq_zero_or_pos rank with rfl | hpos
      · have hzero : (signed true 0 le).value? = some ((0 : ℝ) : EReal) := by
          simp [value?, magnitude_zero]
        simpa [index?] using Means.finite hzero le_rfl
      · exact .negative (a := -magnitude rank) rfl (neg_magnitude_neg hpos le)
    | false =>
      by_cases h : rank < infinityRank
      · have hplace : (signed false rank le).index? = some (units rank / unitsPerOne) := if_pos h
        rw [hplace, ← floor_magnitude]
        exact .finite (congrArg some (magnitude_of_lt h))
          (div_nonneg (Nat.cast_nonneg _) (Nat.cast_nonneg _))
      · have hplace : (signed false rank le).index? = none := if_neg h
        rw [hplace]
        exact .infinite (congrArg some (if_neg h))

/-- A double means one place at most: what it stands for is in one of the four ranges only. -/
theorem Means.unique {x : Double} {p q : Option ℕ} (hp : x.Means p) (hq : x.Means q) : p = q := by
  have hsign : ∀ {a b : EReal}, x.value? = some a → a < 0 → x.value? = some b → ¬ 0 ≤ b :=
    fun ha hneg hb => Option.some.inj (ha.symm.trans hb) ▸ not_le.mpr hneg
  have htop : ∀ {r : ℝ}, x.value? = some (r : EReal) → x.value? ≠ some ⊤ :=
    fun hr h => EReal.coe_ne_top _ (Option.some.inj (hr.symm.trans h))
  cases hp with
  | nan h =>
    cases hq with
    | nan => rfl
    | negative => rfl
    | finite h' => cases h.symm.trans h'
    | infinite h' => cases h.symm.trans h'
  | negative h hneg =>
    cases hq with
    | nan => rfl
    | negative => rfl
    | finite h' hr => exact absurd (EReal.coe_nonneg.mpr hr) (hsign h hneg h')
    | infinite h' => exact absurd le_top (hsign h hneg h')
  | finite h hr =>
    cases hq with
    | nan h' => cases h.symm.trans h'
    | negative h' hneg => exact absurd (EReal.coe_nonneg.mpr hr) (hsign h' hneg h)
    | finite h' => rw [EReal.coe_injective (Option.some.inj (h.symm.trans h'))]
    | infinite h' => exact absurd h' (htop h)
  | infinite h =>
    cases hq with
    | nan h' => cases h.symm.trans h'
    | negative h' hneg => exact absurd le_top (hsign h' hneg h)
    | finite h' => exact absurd h (htop h')
    | infinite => rfl

/-- **A place is what its number stands for, truncated.** -/
theorem means_iff {x : Double} {p : Option ℕ} : x.Means p ↔ p = x.index? :=
  ⟨fun h => h.unique x.means_index?, fun h => h ▸ x.means_index?⟩

end Double

namespace Primitive

/-! ### Walks -/

/-- What is left of a value after some tails. -/
def cdrs : ℕ → Value → Except LispError Value
  | 0, v => .ok v
  | k + 1, v => do
    let rest ← apply .cdr [v]
    cdrs k rest

/-- A walk by head and tail as far as `nil`, with the items that it meets. -/
inductive Walk : Value → List Value → Prop
  | done : Walk .nil []
  | step {v first rest : Value} {items : List Value} : apply .car [v] = .ok first →
    apply .cdr [v] = .ok rest → Walk rest items → Walk v (first :: items)

/-- The tails of a list, as far as there are items. -/
theorem cdrs_list : ∀ (k : ℕ) (xs : List Value), k < xs.length →
    cdrs k (.list xs) = .ok (.list (xs.drop k))
  | 0, _, _ => rfl
  | k + 1, _ :: y :: ys, h => cdrs_list k (y :: ys) (Nat.lt_of_succ_lt_succ h)
  | _ + 1, [_], h => absurd h (by simp)

/-- The tail past the last item. -/
theorem cdrs_length : ∀ xs : List Value, xs ≠ [] → cdrs xs.length (.list xs) = .ok .nil
  | [_], _ => rfl
  | _ :: y :: ys, _ => cdrs_length (y :: ys) (List.cons_ne_nil _ _)

theorem walk_list : ∀ xs : List Value, xs ≠ [] → Walk (.list xs) xs
  | [_], _ => .step rfl rfl .done
  | _ :: y :: ys, _ => .step rfl rfl (walk_list (y :: ys) (List.cons_ne_nil _ _))

theorem Walk.unique {v : Value} {items : List Value} (h : Walk v items) :
    ∀ {others : List Value}, Walk v others → items = others := by
  induction h with
  | done =>
    intro others h
    cases h with
    | done => rfl
    | step hcar => cases hcar
  | step hcar hcdr _ ih =>
    intro others h
    cases h with
    | done => cases hcar
    | step hcar' hcdr' hrest =>
      obtain rfl := Except.ok.inj (hcar.symm.trans hcar')
      obtain rfl := Except.ok.inj (hcdr.symm.trans hcdr')
      rw [ih hrest]

/-- **A walk meets each item once, in order.** -/
theorem walk_list_iff {xs items : List Value} : Walk (.list xs) items ↔ xs ≠ [] ∧ items = xs := by
  constructor
  · intro h
    have hne : xs ≠ [] := by
      rintro rfl
      cases h with
      | step hcar => cases hcar
    exact ⟨hne, h.unique (walk_list xs hne)⟩
  · rintro ⟨hne, rfl⟩
    exact walk_list _ hne

/-- **Places and walks agree.** Of a list, the item at any place is asked for without an error: the
item there, or `nil` beyond the last. Below the length, as many tails leave a list that begins with
the same item; at the length they leave `nil`, unless the list was empty, and neither `nil` nor an
empty list has a head. So a walk of a list that is not empty meets exactly its items. -/
theorem places_and_walks_agree (xs : List Value) :
    apply .list xs = .ok (.list xs) ∧
    (∀ d : Double, (∃! place, d.Means place) ∧ ∀ place, d.Means place →
      apply .nth [.num d, .list xs] = .ok ((place.bind (xs[·]?)).getD .nil)) ∧
    (∀ (k : ℕ) (hk : k < xs.length), ∃ rest, cdrs k (.list xs) = .ok (.list (xs[k] :: rest)) ∧
      apply .car [.list (xs[k] :: rest)] = .ok xs[k]) ∧
    (xs ≠ [] → cdrs xs.length (.list xs) = .ok .nil) ∧
    (apply .car [.nil] = .error .notAList ∧ apply .cdr [.nil] = .error .notAList ∧
      apply .car [.list []] = .error .carOfEmptyList ∧ apply .cdr [.list []] = .ok .nil) ∧
    (LispError.notAList.kind = .type ∧ LispError.carOfEmptyList.kind = .type) ∧
    ∀ items, Walk (.list xs) items ↔ xs ≠ [] ∧ items = xs := by
  refine ⟨rfl, fun d => ⟨⟨d.index?, d.means_index?, fun _ h => Double.means_iff.mp h⟩, ?_⟩,
    fun k hk => ⟨xs.drop (k + 1), ?_, rfl⟩, cdrs_length xs, ⟨rfl, rfl, rfl, rfl⟩, ⟨rfl, rfl⟩,
    fun items => walk_list_iff⟩
  · intro place h
    obtain rfl := Double.means_iff.mp h
    rfl
  · rw [cdrs_list k xs hk, List.drop_eq_getElem_cons hk]

/-- Of a text and `nil`, one and a half asks for the `nil`, and so does the head of the tail; the
tail of the tail is the other `nil`. -/
theorem places_and_walks_agree_two :
    let xs : List Value := [.str "a", .nil]
    apply .nth [.num (.ofRatio false 3 2), .list xs] = .ok .nil ∧
    (∃ rest, cdrs 1 (.list xs) = .ok (.list (.nil :: rest)) ∧
      apply .car [.list (.nil :: rest)] = .ok .nil) ∧
    cdrs 2 (.list xs) = .ok .nil ∧ Walk (.list xs) xs := by
  intro xs
  obtain ⟨-, hplaces, htails, hend, -, -, hwalk⟩ := places_and_walks_agree xs
  have hne : xs ≠ [] := List.cons_ne_nil _ _
  exact ⟨(hplaces (.ofRatio false 3 2)).2 (some 1) (Double.means_iff.mpr (by decide +kernel)),
    htails 1 (by decide), hend hne, (hwalk xs).mpr ⟨hne, rfl⟩⟩

end Primitive
end SmallLisp
