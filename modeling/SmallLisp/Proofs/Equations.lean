/-
# Equations of the evaluator

What the functions of the evaluator come to where their arguments are known. A call of a closure is
refused for its parameters or for the number of its arguments before anything is evaluated, and
otherwise evaluates the arguments and then the body in a frame of its own.

Key theorems: `Evaluation.callClosure_of_malformed`, `Evaluation.callClosure_of_count_ne`,
`Evaluation.callClosure_of_count_eq`, `Evaluation.formals_eq_ok_iff`, `Evaluation.evaluate_call`.
-/
import SmallLisp.Evaluation
import SmallLisp.Proofs.Action

namespace SmallLisp

/-- A list is the special form that the symbol at its head names. -/
theorem SpecialForm.eq_sym_of_ofHead? {head : Value} {form : SpecialForm}
    (h : ofHead? head = some form) : head = .sym form.name := by
  cases head with
  | sym s =>
    have hname := List.find?_some h
    rw [beq_iff_eq.mp hname]
  | _ => cases h

namespace Evaluation

theorem symbolNames_error {e : LispError} : ∀ {items : List Value},
    symbolNames items = .error e → e = .paramNotASymbol
  | v :: rest, h => by
    cases v with
    | sym name =>
      rw [symbolNames] at h
      cases hrest : symbolNames rest with
      | ok names =>
        rw [hrest] at h
        cases h
      | error e' =>
        rw [hrest] at h
        cases h
        exact symbolNames_error hrest
    | _ =>
      cases h
      rfl

/-- Parameters are refused for being no list or for what the list holds. -/
theorem formals_error {params : Value} {e : LispError} (h : formals params = .error e) :
    e = .paramsNotAList ∨ e = .paramNotASymbol := by
  cases params with
  | list items => exact Or.inr (symbolNames_error h)
  | _ =>
    cases h
    exact Or.inl rfl

theorem formals_ne (params : Value) : formals params ≠ .error .functionAsForm := by
  intro h
  rcases formals_error h with he | he <;> cases he

theorem symbolNames_map : ∀ names : List String, symbolNames (names.map .sym) = .ok names
  | [] => rfl
  | name :: names => by
    rw [List.map_cons, symbolNames, symbolNames_map names]
    rfl

theorem eq_map_of_symbolNames : ∀ {items : List Value} {names : List String},
    symbolNames items = .ok names → items = names.map .sym
  | [], _, h => by
    cases h
    rfl
  | v :: rest, names, h => by
    cases v with
    | sym name =>
      rw [symbolNames] at h
      cases hrest : symbolNames rest with
      | error e =>
        rw [hrest] at h
        cases h
      | ok others =>
        rw [hrest] at h
        cases h
        rw [List.map_cons, eq_map_of_symbolNames hrest]
    | _ => cases h

/-- The parameters of a closure are the symbols in its parameter list. -/
theorem formals_eq_ok_iff {params : Value} {names : List String} :
    formals params = .ok names ↔ params = .list (names.map .sym) := by
  constructor
  · intro h
    cases params with
    | list items => rw [eq_map_of_symbolNames h]
    | _ => cases h
  · rintro rfl
    exact symbolNames_map names

/-! ### Calls -/

section Calls

variable (eval : Value → Action Value) {params : Value} (body args : List Value)
variable {names : List String}

theorem callClosure_of_malformed {e : LispError} (h : formals params = .error e) :
    callClosure eval params body args = .raise e := by
  unfold callClosure
  rw [h]
  rfl

theorem callClosure_of_count_ne (h : formals params = .ok names)
    (hne : names.length ≠ args.length) :
    callClosure eval params body args = .raise (.closureArity names.length args.length) := by
  unfold callClosure
  rw [h]
  show (if names.length = args.length then _ else _) = _
  rw [if_neg hne]

theorem callClosure_of_count_eq (h : formals params = .ok names)
    (heq : names.length = args.length) :
    callClosure eval params body args = (do
      let values ← evalAll eval args
      .within (.ofList (names.zip values)) (evalLast eval .nil body)) := by
  unfold callClosure
  rw [h]
  show (if names.length = args.length then _ else _) = _
  rw [if_pos heq]

end Calls

/-- A list that is no special form is a call of what its head evaluates to. -/
theorem step_call {scripts : Scripts} {nesting : ℕ} (eval : Value → Action Value) {head : Value}
    (h : SpecialForm.ofHead? head = none) (args : List Value) :
    step scripts nesting eval (.list (head :: args)) = (do
      let f ← eval head
      call eval f args) := by
  rw [step, h]

theorem evaluate_call (scripts : Scripts) (nesting limit : ℕ) {head : Value}
    (h : SpecialForm.ofHead? head = none) (args : List Value) :
    evaluate scripts nesting (limit + 1) (.list (head :: args)) = (do
      let f ← evaluate scripts nesting limit head
      call (evaluate scripts nesting limit) f args) :=
  step_call _ h args

/-! ### Listings and scripts -/

theorem evalBindings_apply (c : Chain) : (evalBindings []) c =
    ⟨.ok .nil, c, (c.inner.sorted.map fun (name, v) => name ++ ": " ++ v.render) ++ [], []⟩ := rfl

variable {scripts : Scripts} {path : String}

theorem readScript_of_ok {text : String} (h : scripts path = .ok text) (c : Chain) :
    readScript scripts path c = ⟨.ok text, c, [], [.loading path]⟩ := by
  unfold readScript
  rw [h]
  rfl

theorem readScript_of_error {f : Failure} (h : scripts path = .error f) (c : Chain) :
    readScript scripts path c = ⟨.error f, c, [], [.loading path]⟩ := by
  unfold readScript
  rw [h]
  rfl

end Evaluation
end SmallLisp
