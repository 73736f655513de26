/-
# What primitives give

A primitive builds nothing that it is not given. Its value is a number, a truth value, `nil`, a
list of values from its arguments, or one of those values (`Primitive.forall_apply`), and if it
refuses its arguments, then for their number, for their kind or for a division
(`Primitive.kind_of_apply_error`). An error that counts the arguments counts them right
(`Primitive.Refuses`).

Key definitions: `Primitive.Refuses`.
Key theorems: `Primitive.forall_apply`, `Primitive.refuses_of_apply`,
`Primitive.kind_of_apply_error`.
-/
import SmallLisp.Primitive.Apply
import Mathlib.Data.List.Basic

namespace SmallLisp
namespace Primitive

variable {α β : Type} {e : LispError}

theorem ok_of_bind {x : Except LispError α} {next : α → Except LispError β} {b : β}
    (h : (x >>= next) = .ok b) : ∃ a, x = .ok a ∧ next a = .ok b := by
  cases x with
  | error _ => cases h
  | ok a => exact ⟨a, rfl, h⟩

theorem error_of_bind {x : Except LispError α} {next : α → Except LispError β}
    (h : (x >>= next) = .error e) : x = .error e ∨ ∃ a, x = .ok a ∧ next a = .error e := by
  cases x with
  | error _ =>
    cases h
    exact Or.inl rfl
  | ok a => exact Or.inr ⟨a, rfl, h⟩

/-! ### Refusals -/

theorem numbers_error : ∀ {args : List Value}, numbers args = .error e → e = .notANumber
  | [], h => by cases h
  | v :: vs, h => by
    cases v with
    | num x =>
      rw [numbers] at h
      cases hvs : numbers vs with
      | error e' =>
        rw [hvs] at h
        cases h
        exact numbers_error hvs
      | ok xs =>
        rw [hvs] at h
        cases h
    | _ => cases h; rfl

theorem items_error {v : Value} (h : items v = .error e) : e = .notAList := by
  cases v <;> cases h <;> rfl

theorem number_error {v : Value} (h : number v = .error e) : e = .notANumber := by
  cases v <;> cases h <;> rfl

theorem foldNumbers_error {op : Arithmetic} {xs : List Double} (h : foldNumbers op xs = .error e) :
    e = .noOperand (.fold op) ∨ e = .divisionByZero := by
  unfold foldNumbers at h
  split at h
  · cases h
    exact Or.inl rfl
  · split at h
    · cases h
      exact Or.inr rfl
    · cases h

theorem compareNumbers_error {relation : Relation} {xs : List Double}
    (h : compareNumbers relation xs = .error e) : e = .noOperand (.compare relation) := by
  unfold compareNumbers at h
  split at h
  · cases h
    rfl
  · cases h

/-- The errors by which a primitive refuses its arguments. -/
inductive Refuses (p : Primitive) (args : List Value) : LispError → Prop
  | notANumber : Refuses p args .notANumber
  | notAList : Refuses p args .notAList
  | carOfEmptyList : Refuses p args .carOfEmptyList
  | divisionByZero : Refuses p args .divisionByZero
  | noOperand : Refuses p args (.noOperand p)
  | arity {expected : ℕ} : expected ≠ args.length →
    Refuses p args (.primitiveArity p expected args.length)

variable {p : Primitive} {args : List Value}

theorem refuses_of_applyCar (h : applyCar args = .error e) : Refuses .car args e := by
  unfold applyCar at h
  split at h
  · rcases error_of_bind h with h | ⟨vs, -, h⟩
    · exact items_error h ▸ .notAList
    · split at h <;> cases h
      exact .carOfEmptyList
  · rename_i hne
    cases h
    exact .arity fun hlen => by
      obtain ⟨v, rfl⟩ := List.length_eq_one_iff.mp hlen.symm
      exact hne v rfl

theorem refuses_of_applyCdr (h : applyCdr args = .error e) : Refuses .cdr args e := by
  unfold applyCdr at h
  split at h
  · rcases error_of_bind h with h | ⟨vs, -, h⟩
    · exact items_error h ▸ .notAList
    · split at h <;> cases h
  · rename_i hne
    cases h
    exact .arity fun hlen => by
      obtain ⟨v, rfl⟩ := List.length_eq_one_iff.mp hlen.symm
      exact hne v rfl

theorem refuses_of_applyNth (h : applyNth args = .error e) : Refuses .nth args e := by
  unfold applyNth at h
  split at h
  · rcases error_of_bind h with h | ⟨vs, -, h⟩
    · exact items_error h ▸ .notAList
    · rcases error_of_bind h with h | ⟨x, -, h⟩
      · exact number_error h ▸ .notANumber
      · cases h
  · rename_i hne
    cases h
    exact .arity fun hlen => by
      obtain ⟨place, v, rfl⟩ := List.length_eq_two.mp hlen.symm
      exact hne place v rfl

/-- A primitive that has no value refuses its arguments, by an error of its own. -/
theorem refuses_of_apply (h : p.apply args = .error e) : p.Refuses args e := by
  cases p with
  | fold op =>
    rcases error_of_bind h with h | ⟨xs, -, h⟩
    · exact numbers_error h ▸ .notANumber
    · rcases error_of_bind h with h | ⟨x, -, h⟩
      · rcases foldNumbers_error h with rfl | rfl
        · exact .noOperand
        · exact .divisionByZero
      · cases h
  | compare relation =>
    rcases error_of_bind h with h | ⟨xs, -, h⟩
    · exact numbers_error h ▸ .notANumber
    · rcases error_of_bind h with h | ⟨b, -, h⟩
      · exact compareNumbers_error h ▸ .noOperand
      · cases h
  | list => cases h
  | car => exact refuses_of_applyCar h
  | cdr => exact refuses_of_applyCdr h
  | nth => exact refuses_of_applyNth h

/-- A primitive refuses its arguments for their kind, for their number or for a division. -/
theorem kind_of_apply_error (h : p.apply args = .error e) :
    e.kind = .type ∨ e.kind = .arity ∨ e.kind = .division := by
  cases refuses_of_apply h with
  | notANumber => exact Or.inl rfl
  | notAList => exact Or.inl rfl
  | carOfEmptyList => exact Or.inl rfl
  | divisionByZero => exact Or.inr (Or.inr rfl)
  | noOperand => exact Or.inr (Or.inl rfl)
  | arity => exact Or.inr (Or.inl rfl)

/-! ### Values -/

/-- **A primitive builds nothing new.** What holds of numbers, truth values, `nil` and its
arguments, and of a list exactly if it holds of the items, holds of its value. -/
theorem forall_apply {P : Value → Prop} (hnil : P .nil) (hbool : ∀ b, P (.bool b))
    (hnum : ∀ x, P (.num x)) (hlist : ∀ vs : List Value, P (.list vs) ↔ ∀ v ∈ vs, P v)
    {p : Primitive} {args : List Value} (hargs : ∀ v ∈ args, P v) {v : Value}
    (h : p.apply args = .ok v) : P v := by
  have hitems : ∀ {w : Value} {vs : List Value}, items w = .ok vs → w ∈ args → ∀ v ∈ vs, P v := by
    intro w vs hw hmem
    cases w with
    | list _ =>
      cases hw
      exact (hlist vs).mp (hargs _ hmem)
    | _ => cases hw
  cases p with
  | fold op =>
    obtain ⟨xs, -, h⟩ := ok_of_bind h
    obtain ⟨x, -, h⟩ := ok_of_bind h
    cases h
    exact hnum x
  | compare relation =>
    obtain ⟨xs, -, h⟩ := ok_of_bind h
    obtain ⟨b, -, h⟩ := ok_of_bind h
    cases h
    exact hbool b
  | list =>
    cases h
    exact (hlist args).mpr hargs
  | car =>
    simp only [apply, applyCar] at h
    split at h
    · obtain ⟨vs, hvs, h⟩ := ok_of_bind h
      have hall := hitems hvs List.mem_cons_self
      split at h <;> cases h
      exact hall _ List.mem_cons_self
    · cases h
  | cdr =>
    simp only [apply, applyCdr] at h
    split at h
    · obtain ⟨vs, hvs, h⟩ := ok_of_bind h
      have hall := hitems hvs List.mem_cons_self
      split at h <;> cases h
      · exact hnil
      · exact (hlist _).mpr fun v hv => hall v (List.mem_of_mem_tail hv)
    · cases h
  | nth =>
    simp only [apply, applyNth] at h
    split at h
    · obtain ⟨vs, hvs, h⟩ := ok_of_bind h
      obtain ⟨x, -, h⟩ := ok_of_bind h
      have hall := hitems hvs (by simp)
      cases h
      cases hx : x.index?.bind (vs[·]?) with
      | none => exact hnil
      | some w =>
        obtain ⟨i, -, hi⟩ := Option.bind_eq_some_iff.mp hx
        exact hall w (List.mem_of_getElem? hi)
    · cases h

end Primitive
end SmallLisp
