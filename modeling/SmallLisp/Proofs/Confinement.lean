/-
# Confinement to the innermost frame

Whatever is evaluated, and however that ends, the frames around the innermost one are left as they
are, and in the innermost one no name is given up: names are added behind those that are there
(`Evaluation.growsTo_evaluate`). So a call of a closure does nothing to the frames of its caller:
it leaves them as the evaluation of its head and its arguments has left them
(`Evaluation.chain_call_closure`), and these bind a name there only by a `let` or a `load` that is
evaluated in that frame itself (`Evaluation.chain_evaluate_of_spares`).

Key definitions: `Value.targets`, `Value.loads`, `Evaluation.afterArguments`.
Key theorems: `Evaluation.frame_confinement`, `Evaluation.bindings_outside_targets`.
-/
import SmallLisp.Proofs.Simulation

namespace SmallLisp
namespace Value

mutual

/-- The names that the `let` forms of an expression bind in the frame where the expression is
evaluated: not those that `print` only quotes or an `fn` keeps in its body. -/
def targets : Value → List String
  | .list (head :: args) =>
    match SpecialForm.ofHead? head with
    | some .define => targetsOfDefine args
    | some .branch => targetsOfAll args
    | some .load => targetsOfAll args
    | some .lambda => []
    | some .bindings => []
    | some .print => []
    | none => head.targets ++ targetsOfAll args
  | _ => []

def targetsOfAll : List Value → List String
  | [] => []
  | e :: es => e.targets ++ targetsOfAll es

def targetsOfDefine : List Value → List String
  | [.sym name, e] => name :: e.targets
  | _ => []

end

mutual

/-- Whether a script may be loaded in the frame where an expression is evaluated. -/
def loads : Value → Bool
  | .list (head :: args) =>
    match SpecialForm.ofHead? head with
    | some .load => true
    | some .define => anyLoads args
    | some .branch => anyLoads args
    | some .lambda => false
    | some .bindings => false
    | some .print => false
    | none => head.loads || anyLoads args
  | _ => false

def anyLoads : List Value → Bool
  | [] => false
  | e :: es => e.loads || anyLoads es

end

/-- An expression that binds a name in its own frame neither by a `let` nor, as far as can be
known, by a script. -/
structure Spares (e : Value) (name : String) : Prop where
  loads : e.loads = false
  targets : name ∉ e.targets

theorem spares_of_all {name : String} : ∀ {es : List Value}, anyLoads es = false →
    name ∉ targetsOfAll es → ∀ e ∈ es, e.Spares name
  | [], _, _ => by simp
  | e :: es, hl, ht => by
    rw [anyLoads, Bool.or_eq_false_iff] at hl
    rw [targetsOfAll, List.mem_append, not_or] at ht
    exact List.forall_mem_cons.mpr ⟨⟨hl.1, ht.1⟩, spares_of_all hl.2 ht.2⟩

end Value

namespace Evaluation

variable (scripts : Scripts) (nesting limit : ℕ)

/-- Evaluation changes nothing around the innermost frame, and there only adds names. -/
theorem growsTo_evaluate (e : Value) (c : Chain) :
    c.GrowsTo (evaluate scripts nesting limit e c).chain :=
  Simulation.growsTo_of_related (Simulation.related_evaluate limit e trivial) c

/-! ### Calls of closures -/

variable {scripts nesting limit}

/-- What happens in a new frame is gone with it, if it was made of evaluations. -/
theorem chain_within_evalLast (f : Frame) (body : List Value) (c : Chain) :
    ((Action.within f (evalLast (evaluate scripts nesting limit) .nil body)) c).chain = c :=
  Chain.GrowsTo.pop_eq <| Simulation.growsTo_of_related
    (Simulation.related_evalLast (Simulation.related_evaluate limit) body .nil trivial
      fun _ _ => trivial) _

/-- The chain of a caller after the arguments of a call; they are evaluated only if their number is
that of the parameters. -/
def afterArguments (eval : Value → Action Value) (params : Value) (args : List Value) (c : Chain) :
    Chain :=
  match formals params with
  | .ok names => if names.length = args.length then (evalAll eval args c).chain else c
  | .error _ => c

/-- A call of a closure leaves the chain of its caller as the arguments have left it. -/
theorem chain_call_closure (params : Value) (body args : List Value) (c : Chain) :
    (call (evaluate scripts nesting limit) (.closure params body) args c).chain =
      afterArguments (evaluate scripts nesting limit) params args c := by
  show (callClosure (evaluate scripts nesting limit) params body args c).chain = _
  unfold afterArguments
  cases hf : formals params with
  | error e => rw [callClosure_of_malformed _ _ _ hf]; rfl
  | ok names =>
    by_cases hlen : names.length = args.length
    · rw [callClosure_of_count_eq _ _ _ hf hlen]
      simp only [if_pos hlen]
      cases hargs : (evalAll (evaluate scripts nesting limit) args c).outcome with
      | error f => rw [Action.bind_error _ hargs]
      | ok values =>
        rw [Action.bind_ok _ hargs]
        exact chain_within_evalLast _ body _
    · rw [callClosure_of_count_ne _ _ _ hf hlen]
      simp only [if_neg hlen]
      rfl

/-! ### What an expression binds -/

/-- An action that leaves the value of a name in the innermost frame as it is, if it has one. -/
def Keeps {α : Type} (name : String) (m : Action α) : Prop :=
  ∀ c, (m c).chain.inner.get? name = c.inner.get? name

section Keeps

variable {α β : Type} {name : String}

theorem keeps_of_chain_eq {m : Action α} (h : ∀ c, (m c).chain = c) : Keeps name m :=
  fun c => by rw [h]

theorem Keeps.bind {m : Action α} {next : α → Action β} (hm : Keeps name m)
    (hnext : ∀ a, Keeps name (next a)) : Keeps name (m >>= next) := by
  intro c
  cases h : (m c).outcome with
  | error f => rw [Action.bind_error next h]; exact hm c
  | ok a => rw [Action.bind_ok next h]; exact (hnext a _).trans (hm c)

theorem keeps_raise (e : LispError) : Keeps name (Action.raise e : Action α) :=
  keeps_of_chain_eq fun _ => rfl

theorem keeps_pure (a : α) : Keeps name (pure a) := keeps_of_chain_eq fun _ => rfl

theorem keeps_lookup (n : String) : Keeps name (Action.lookup n) :=
  keeps_of_chain_eq fun c => by unfold Action.lookup; split <;> rfl

theorem keeps_ofExcept (x : Except LispError α) : Keeps name (Action.ofExcept x) := by
  cases x with
  | ok a => exact keeps_pure a
  | error e => exact keeps_raise e

theorem keeps_evalAll {eval : Value → Action Value} : ∀ es : List Value,
    (∀ e ∈ es, Keeps name (eval e)) → Keeps name (evalAll eval es)
  | [], _ => keeps_pure []
  | e :: es, h => by
    refine (h e List.mem_cons_self).bind fun v => ?_
    refine (keeps_evalAll es fun e he => h e (List.mem_cons_of_mem _ he)).bind fun vs => ?_
    exact keeps_pure _

/-- A call binds in the frame of its caller what its arguments bind there. -/
theorem keeps_call (head : Value) {args : List Value}
    (h : ∀ e ∈ args, Keeps name (evaluate scripts nesting limit e)) :
    Keeps name (call (evaluate scripts nesting limit) head args) := by
  cases head with
  | prim p => exact (keeps_evalAll args h).bind fun vs => keeps_ofExcept _
  | closure params body =>
    intro c
    rw [chain_call_closure, afterArguments]
    split
    · split
      · exact keeps_evalAll args h c
      · rfl
    · rfl
  | _ => exact keeps_raise _

theorem keeps_evalBranch {eval : Value → Action Value} : ∀ args : List Value,
    (∀ e ∈ args, Keeps name (eval e)) → Keeps name (evalBranch eval args)
  | [], _ => keeps_raise _
  | condition :: branches, h => by
    simp only [evalBranch]
    split
    · exact keeps_raise _
    · refine (h condition List.mem_cons_self).bind fun v => ?_
      cases v with
      | bool b =>
        simp only
        cases hbranch : branches[if b then 0 else 1]? with
        | none => exact keeps_raise _
        | some branch =>
          exact h branch (List.mem_cons_of_mem _ (List.mem_of_getElem? hbranch))
      | _ => exact keeps_raise _

theorem keeps_define {n : String} (hn : n ≠ name) (v : Value) : Keeps name (Action.define n v) := by
  intro c
  show (c.inner.define n v).get? name = c.inner.get? name
  rw [Frame.get?_define, if_neg hn]

theorem keeps_evalDefine {eval : Value → Action Value}
    (heval : ∀ e : Value, e.Spares name → Keeps name (eval e)) {args : List Value}
    (hl : Value.anyLoads args = false) (ht : name ∉ Value.targetsOfDefine args) :
    Keeps name (evalDefine eval args) := by
  unfold evalDefine
  split
  · rename_i n e
    simp only [Value.anyLoads, Bool.or_eq_false_iff] at hl
    rw [Value.targetsOfDefine, List.mem_cons, not_or] at ht
    refine (heval e ⟨hl.2.1, ht.2⟩).bind fun v => ?_
    exact (keeps_define (Ne.symm ht.1) v).bind fun _ => keeps_pure _
  · exact keeps_raise _
  · exact keeps_raise _

theorem keeps_evalLambda (args : List Value) : Keeps name (evalLambda args) := by
  unfold evalLambda
  split
  · exact keeps_pure _
  · exact keeps_raise _

theorem keeps_evalBindings : ∀ args : List Value, Keeps name (evalBindings args)
  | [] => keeps_of_chain_eq fun _ => rfl
  | _ :: _ => keeps_raise _

theorem keeps_evalPrint (args : List Value) : Keeps name (evalPrint args) := by
  unfold evalPrint
  split
  · exact (keeps_lookup _).bind fun v => keeps_of_chain_eq fun _ => rfl
  · exact keeps_of_chain_eq fun _ => rfl
  · exact keeps_raise _

end Keeps

/-- **What an expression does not bind by a `let` of its own, and loads no script for, keeps its
value in the frame.** -/
theorem keeps_evaluate {name : String} : ∀ (limit : ℕ) (e : Value), e.Spares name →
    Keeps name (evaluate scripts nesting limit e)
  | 0, _, _ => keeps_of_chain_eq fun _ => rfl
  | limit + 1, e, he => by
    obtain ⟨hl, ht⟩ := he
    unfold evaluate
    cases e with
    | list items =>
      cases items with
      | nil => exact keeps_raise _
      | cons head args =>
        rw [Value.loads] at hl
        rw [Value.targets] at ht
        unfold step
        cases hform : SpecialForm.ofHead? head with
        | none =>
          simp only [hform, Bool.or_eq_false_iff, List.mem_append, not_or] at hl ht ⊢
          have hargs := Value.spares_of_all hl.2 ht.2
          refine (keeps_evaluate limit head ⟨hl.1, ht.1⟩).bind fun f => ?_
          exact keeps_call f fun e he => keeps_evaluate limit e (hargs e he)
        | some form =>
          simp only [hform] at hl ht ⊢
          cases form with
          | branch =>
            have hargs := Value.spares_of_all hl ht
            exact keeps_evalBranch args fun e he => keeps_evaluate limit e (hargs e he)
          | define => exact keeps_evalDefine (keeps_evaluate limit) hl ht
          | lambda => exact keeps_evalLambda args
          | load => cases hl
          | bindings => exact keeps_evalBindings args
          | print => exact keeps_evalPrint args
    | sym n => exact keeps_lookup n
    | _ => exact keeps_of_chain_eq fun _ => rfl

/-- An expression that holds no `let` and no `load` for its own frame leaves its chain alone. -/
theorem chain_evaluate_of_spares {e : Value} (hl : e.loads = false) (ht : e.targets = [])
    (c : Chain) : (evaluate scripts nesting limit e c).chain = c := by
  have hgrows := growsTo_evaluate scripts nesting limit e c
  have hinner : c.inner = (evaluate scripts nesting limit e c).chain.inner :=
    Frame.eq_of_get?_eq hgrows.names fun name =>
      (keeps_evaluate limit e ⟨hl, by simp [ht]⟩ c).symm
  exact Chain.ext hinner.symm hgrows.outer

/-- **Frame confinement.** However an evaluation ends, the frames around the innermost one are what
they were, and the names of the innermost one come first, in their order, among those it has
afterwards. A call of a closure leaves its caller's chain as the head and the arguments have left
it; and what holds no `let` and no `load` that is evaluated in the frame leaves the chain alone. -/
theorem frame_confinement (scripts : Scripts) (nesting limit : ℕ) :
    (∀ (e : Value) (c : Chain), (evaluate scripts nesting limit e c).chain.outer = c.outer ∧
      c.inner.names <+: (evaluate scripts nesting limit e c).chain.inner.names) ∧
    (∀ (head params : Value) (body args : List Value) (c : Chain),
      SpecialForm.ofHead? head = none →
      (evaluate scripts nesting limit head c).outcome = .ok (.closure params body) →
      (evaluate scripts nesting (limit + 1) (.list (head :: args)) c).chain =
        afterArguments (evaluate scripts nesting limit) params args
          (evaluate scripts nesting limit head c).chain) ∧
    ∀ (e : Value) (c : Chain), e.loads = false → e.targets = [] →
      (evaluate scripts nesting limit e c).chain = c := by
  refine ⟨fun e c => ?_, fun head params body args c hhead hout => ?_, fun e c hl ht => ?_⟩
  · have hgrows := growsTo_evaluate scripts nesting limit e c
    exact ⟨hgrows.outer, hgrows.names⟩
  · rw [evaluate_call scripts nesting limit hhead args, Action.bind_ok _ hout]
    exact chain_call_closure params body args _
  · exact chain_evaluate_of_spares hl ht c

/-- A frame in which `f` is a closure that binds `y` and then fails. -/
def failingCallee : Chain :=
  .ofFrame (.ofList [("f", .closure (.list [.sym "x"])
    [.list [.sym "let", .sym "y", .sym "x"], .list [.sym "f"]])])

theorem frame_confinement_failing_call :
    (SpecialForm.ofHead? (.sym "f") = none ∧
      (evaluate (.ofList []) 9 3 (.sym "f") failingCallee).outcome = .ok (.closure (.list [.sym "x"])
        [.list [.sym "let", .sym "y", .sym "x"], .list [.sym "f"]]) ∧
      (evaluate (.ofList []) 9 4 (.list [.sym "f", .list [.sym "let", .sym "z", .nil]])
        failingCallee).chain = failingCallee.define "z" .nil) ∧
    ((Value.list [.sym "f", .nil]).loads = false ∧ (Value.list [.sym "f", .nil]).targets = [] ∧
      (evaluate (.ofList []) 9 4 (.list [.sym "f", .nil]) failingCallee).chain = failingCallee) :=
  ⟨⟨rfl, rfl, (frame_confinement (.ofList []) 9 3).2.1 (.sym "f") _ _ _ failingCallee rfl rfl⟩,
    rfl, rfl, (frame_confinement (.ofList []) 9 4).2.2 _ failingCallee rfl rfl⟩

/-! ### What an expression binds, read off it -/

/-- **What an expression binds can be read off it.** If an expression loads no script in the frame
where it is evaluated, then a name that none of its `let` forms binds there has in this frame, and
in the whole chain, the value that it had before, or still none. That holds however the evaluation
ends, and whatever the closures do that it calls. -/
theorem bindings_outside_targets (scripts : Scripts) (nesting limit : ℕ) {e : Value}
    (hloads : e.loads = false) (c : Chain) {name : String} (htargets : name ∉ e.targets) :
    let after := (evaluate scripts nesting limit e c).chain
    after.inner.get? name = c.inner.get? name ∧ after.lookup? name = c.lookup? name := by
  intro after
  have hinner : after.inner.get? name = c.inner.get? name :=
    keeps_evaluate limit e ⟨hloads, htargets⟩ c
  have houter : after.outer = c.outer := (growsTo_evaluate scripts nesting limit e c).outer
  exact ⟨hinner, Chain.lookup?_congr hinner houter⟩

/-- A frame in which `f` is a closure that binds `y`, which is bound there already. -/
def bindingCallee : Chain :=
  .ofFrame (.ofList [("y", .bool false), ("f", .closure (.list [.sym "x"])
    [.list [.sym "let", .sym "y", .sym "x"], .sym "y"])])

/-- The call binds `y` in its own frame, the expression around it binds `x` and `z` at most. -/
theorem bindings_outside_targets_call :
    let e : Value := .list [.sym "if", .list [.sym "f", .bool true],
      .list [.sym "let", .sym "x", .list [.sym "f", .nil]], .list [.sym "let", .sym "z", .nil]]
    e.loads = false ∧ e.targets = ["x", "z"] ∧ "y" ∉ e.targets ∧
      (evaluate (.ofList []) 9 6 e bindingCallee).outcome = .ok (.sym "x") ∧
      (evaluate (.ofList []) 9 6 e bindingCallee).chain.inner.get? "y" = some (.bool false) := by
  intro e
  have htargets : "y" ∉ e.targets := by decide
  exact ⟨rfl, rfl, htargets, rfl,
    (bindings_outside_targets (.ofList []) 9 6 rfl bindingCallee htargets).1⟩

end Evaluation
end SmallLisp
