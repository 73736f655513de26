/-
# Evaluation without closures

Where there are no closures, neither in an expression nor in the frames, and none is made since the
expression holds no `fn` and no `load`, evaluations are inside each other only as its lists are. The
invariant is that no closure comes up: no value that is computed, passed through a primitive, bound
or printed has one in it, although lists headed by `fn` may well be among the data. So an evaluation
inside is always one of an item of the list at hand (`Evaluation.Inside.of_firstOrder`), and a limit
above the depth of the expression is never reached.

Scripts have no part in this. That an expression without `load` is evaluated as if there were none
brings in the walk through the evaluator, which asks of every script that it keep to a discipline.

Key definitions: `Value.depth`, `Value.ClosureFree`, `Value.FirstOrder`, `Chain.ClosureFree`.
Key theorems: `Evaluation.closureFree_evaluate`, `Evaluation.Inside.of_firstOrder`,
`Evaluation.Within.of_firstOrder`, `Evaluation.first_order_ends_within_depth`.
-/
import SmallLisp.Proofs.Inside
import SmallLisp.Proofs.Limits
import SmallLisp.Proofs.Provenance

namespace SmallLisp

namespace Value

/-! ### Depth -/

mutual

/-- How deep lists are inside each other in a value. -/
def depth : Value → ℕ
  | .list items => depthAll items + 1
  | _ => 0

/-- The greatest depth of some values. -/
def depthAll : List Value → ℕ
  | [] => 0
  | v :: vs => max v.depth (depthAll vs)

end

theorem depth_le_depthAll {v : Value} : ∀ {items : List Value}, v ∈ items → v.depth ≤ depthAll items
  | w :: ws, h => by
    rw [depthAll]
    rcases List.mem_cons.mp h with rfl | h
    · exact Nat.le_max_left _ _
    · exact (depth_le_depthAll h).trans (Nat.le_max_right _ _)

/-- An item is less deep than the list. -/
theorem depth_lt_of_mem {v : Value} {items : List Value} (h : v ∈ items) :
    v.depth < (Value.list items).depth := by
  rw [depth]
  exact Nat.lt_succ_of_le (depth_le_depthAll h)

/-! ### Values without closures -/

/-- No closure occurs in a value. -/
def ClosureFree (v : Value) : Prop := ∀ params body, ¬ (Value.closure params body).Occurs v

/-- No closure occurs in an expression, and no list that makes one or loads a script. -/
structure FirstOrder (e : Value) : Prop where
  closureFree : e.ClosureFree
  lambdas : ∀ args, ¬ (Value.list (.sym "fn" :: args)).Occurs e
  loads : ∀ args, ¬ (Value.list (.sym "load" :: args)).Occurs e

theorem closureFree_list {items : List Value} :
    (Value.list items).ClosureFree ↔ ∀ v ∈ items, v.ClosureFree := by
  constructor
  · intro h v hv params body hocc
    exact h params body (.item hv hocc)
  · intro h params body hocc
    cases hocc with
    | item hv hocc => exact h _ hv params body hocc

theorem closureFree_atom {v : Value} (hlist : ∀ items, v ≠ .list items)
    (hclosure : ∀ params body, v ≠ .closure params body) : v.ClosureFree :=
  fun params body hocc => hclosure params body (hocc.eq_of_atom hlist hclosure).symm

theorem FirstOrder.of_occurs {e e' : Value} (h : e.FirstOrder) (hocc : e'.Occurs e) :
    e'.FirstOrder where
  closureFree params body h' := h.closureFree params body (h'.trans hocc)
  lambdas args h' := h.lambdas args (h'.trans hocc)
  loads args h' := h.loads args (h'.trans hocc)

theorem FirstOrder.item {items : List Value} (h : (Value.list items).FirstOrder) :
    ∀ e ∈ items, e.FirstOrder :=
  fun _ he => h.of_occurs (.item he .here)

theorem firstOrder_atom {v : Value} (hlist : ∀ items, v ≠ .list items)
    (hclosure : ∀ params body, v ≠ .closure params body) : v.FirstOrder where
  closureFree := closureFree_atom hlist hclosure
  lambdas _ hocc := hlist _ (hocc.eq_of_atom hlist hclosure).symm
  loads _ hocc := hlist _ (hocc.eq_of_atom hlist hclosure).symm

theorem firstOrder_list {items : List Value} (hlambda : ∀ args, items ≠ .sym "fn" :: args)
    (hload : ∀ args, items ≠ .sym "load" :: args) (h : ∀ e ∈ items, e.FirstOrder) :
    (Value.list items).FirstOrder where
  closureFree := closureFree_list.mpr fun e he => (h e he).closureFree
  lambdas args hocc := by
    cases hocc with
    | here => exact hlambda args rfl
    | item he hocc => exact (h _ he).lambdas args hocc
  loads args hocc := by
    cases hocc with
    | here => exact hload args rfl
    | item he hocc => exact (h _ he).loads args hocc

end Value

/-- No closure occurs in what is bound in a chain. -/
def Chain.ClosureFree (c : Chain) : Prop := c.Forall fun b => b.2.ClosureFree

namespace Evaluation

variable {scripts : Scripts} {nesting : ℕ}

/-! ### No closure comes up -/

/-- Where there are no scripts, expressions without closures that make none have values without
closures. -/
def Discipline.firstOrder (nesting : ℕ) : Discipline (.ofList []) nesting where
  code e := e.FirstOrder
  value v := v.ClosureFree
  failure f := f = .stackExhausted ∨ ∃ error, f = .error error
  note _ := True
  code_item := Value.FirstOrder.item
  code_body hv := (hv _ _ .here).elim
  code_script _ h := by cases h
  value_code he := he.closureFree
  value_lambda he := (he.lambdas _ .here).elim
  value_nil := Value.closureFree_atom (by simp) (by simp)
  value_bool _ := Value.closureFree_atom (by simp) (by simp)
  value_num _ := Value.closureFree_atom (by simp) (by simp)
  value_list := Value.closureFree_list
  failure_error _ := Or.inr ⟨_, rfl⟩
  failure_function _ _ := Or.inr ⟨_, rfl⟩
  failure_exhausted := Or.inl rfl
  failure_script h := by
    cases h
    exact Or.inr ⟨_, rfl⟩

/-- Only an expression that loads asks for scripts. -/
theorem step_eq_of_firstOrder {e : Value} (he : e.FirstOrder) (scripts scripts' : Scripts)
    (eval : Value → Action Value) : step scripts nesting eval e = step scripts' nesting eval e := by
  cases e with
  | list items =>
    cases items with
    | nil => rfl
    | cons head args =>
      cases hform : SpecialForm.ofHead? head with
      | none => simp only [step, hform]
      | some form =>
        simp only [step, hform]
        cases form with
        | load =>
          obtain rfl := SpecialForm.eq_sym_of_ofHead? hform
          exact (he.loads args .here).elim
        | _ => rfl
  | _ => rfl

theorem related_firstOrder (scripts : Scripts) (nesting : ℕ) :
    ∀ (limit : ℕ) (e : Value), e.FirstOrder →
    (Discipline.firstOrder nesting).simulation.Related Value.ClosureFree
      (evaluate (.ofList []) nesting limit e) (evaluate scripts nesting limit e)
  | 0, _, _ => Simulation.related_fail (Or.inl rfl)
  | limit + 1, e, he => by
    rw [evaluate, evaluate, step_eq_of_firstOrder he scripts (.ofList [])]
    exact Simulation.related_step (related_firstOrder scripts nesting limit) he

variable {e e' : Value} {c c' : Chain} {limit : ℕ}

/-- **No closure comes up** in an evaluation that begins without any. -/
theorem closureFree_evaluate (scripts : Scripts) (nesting limit : ℕ) (he : e.FirstOrder)
    (hc : c.ClosureFree) :
    (evaluate scripts nesting limit e c).chain.ClosureFree ∧
    (∀ v, (evaluate scripts nesting limit e c).outcome = .ok v → v.ClosureFree) ∧
    ∀ f, (evaluate scripts nesting limit e c).outcome = .error f →
      f = .stackExhausted ∨ ∃ error, f = .error error := by
  have hmatch := Discipline.matches (related_firstOrder scripts nesting limit e he)
    (fun f hf b hb => ⟨trivial, hc f hf b hb⟩) fun _ _ => trivial
  have hchain := hmatch.chains.1 ▸ hmatch.chains.2
  refine ⟨fun f hf b hb => (hchain f hf b hb).2, fun v hv => ?_, fun f hf => ?_⟩
  · exact hmatch.value v (hmatch.outcome.trans hv)
  · exact hmatch.failure f (hmatch.outcome.trans hf)

/-! ### Evaluations inside -/

theorem InTurn.closureFree {es : List Value}
    (h : InTurn (evaluate scripts nesting limit) c es e' c') (hes : ∀ e ∈ es, e.FirstOrder)
    (hc : c.ClosureFree) : c'.ClosureFree := by
  induction h with
  | now => exact hc
  | later _ _ ih =>
    exact ih (fun e he => hes e (List.mem_cons_of_mem _ he))
      (closureFree_evaluate _ _ _ (hes _ List.mem_cons_self) hc).1

/-- **Only items are evaluated inside** an expression without closures, in chains without any. -/
theorem Inside.of_firstOrder (h : Inside scripts nesting (evaluate scripts nesting limit) e c e' c')
    (he : e.FirstOrder) (hc : c.ClosureFree) :
    e'.FirstOrder ∧ c'.ClosureFree ∧ e'.depth < e.depth := by
  have hitem : ∀ {items : List Value}, e = .list items → e' ∈ items →
      e'.FirstOrder ∧ e'.depth < e.depth := by
    rintro items rfl hmem
    exact ⟨he.item _ hmem, Value.depth_lt_of_mem hmem⟩
  suffices (∃ items, e = .list items ∧ e' ∈ items) ∧ c'.ClosureFree by
    obtain ⟨⟨items, hitems, hmem⟩, hc'⟩ := this
    exact ⟨(hitem hitems hmem).1, hc', (hitem hitems hmem).2⟩
  cases h with
  | condition => exact ⟨⟨_, rfl, by simp⟩, hc⟩
  | branch _ _ hbranch =>
    have hmem := List.mem_of_getElem? hbranch
    exact ⟨⟨_, rfl, by simp [hmem]⟩, (closureFree_evaluate _ _ _ (he.item _ (by simp)) hc).1⟩
  | defined => exact ⟨⟨_, rfl, by simp⟩, hc⟩
  | path => exact (he.loads _ .here).elim
  | script => exact (he.loads _ .here).elim
  | head => exact ⟨⟨_, rfl, List.mem_cons_self⟩, hc⟩
  | argument _ _ _ hturn =>
    have hargs := fun e h => he.item e (List.mem_cons_of_mem _ h)
    exact ⟨⟨_, rfl, List.mem_cons_of_mem _ hturn.mem⟩,
      hturn.closureFree hargs (closureFree_evaluate _ _ _ (he.item _ List.mem_cons_self) hc).1⟩
  | body _ hhead =>
    -- the head has no closure for its value
    have hvalue := (closureFree_evaluate _ _ _ (he.item _ List.mem_cons_self) hc).2.1 _ hhead
    exact (hvalue _ _ .here).elim

/-- Whatever is evaluated within takes no more of the limit than it is deeper in the expression. -/
theorem Within.of_firstOrder {left : ℕ} (h : Within scripts nesting limit e c left e' c')
    (he : e.FirstOrder) (hc : c.ClosureFree) :
    e'.FirstOrder ∧ c'.ClosureFree ∧ limit + e'.depth ≤ left + e.depth := by
  induction h with
  | here => exact ⟨he, hc, le_rfl⟩
  | inside hin _ ih =>
    obtain ⟨hinner, hchain, hdepth⟩ := hin.of_firstOrder he hc
    obtain ⟨he', hc', hle⟩ := ih hinner hchain
    exact ⟨he', hc', by omega⟩

/-- Nothing but a script makes an expression fail by itself for want of stack. -/
theorem Raised.ne_stackExhausted {f : Failure} (h : Raised scripts e f) (he : e.FirstOrder) :
    f ≠ .stackExhausted := by
  rintro rfl
  cases h with
  | exhausted => exact he.loads _ .here
  | unread => exact he.loads _ .here

/-- A limit above the depth of an expression without closures is not reached. -/
theorem outcome_ne_stackExhausted (he : e.FirstOrder) (hc : c.ClosureFree)
    (hlimit : e.depth < limit) :
    (evaluate scripts nesting limit e c).outcome ≠ .error .stackExhausted := by
  intro h
  obtain ⟨left, e', c', hwithin, hfails⟩ := exists_failsItself h
  obtain ⟨he', -, hdepth⟩ := hwithin.of_firstOrder he hc
  rcases hfails.exhausted_or_raised with ⟨hleft, -⟩ | hraised
  · omega
  · exact hraised.ne_stackExhausted he' rfl

/-- **Evaluation without closures ends within the depth of the expression.** Let an expression hold
no closure and no list headed by `fn` or `load`, and let no closure occur in what the frames of a
chain bind. Under every limit above the depth of the expression it has a value or fails with an error
of the language, and does the same as under the least of these limits; whatever is evaluated within
takes at most one evaluation inside another for each list around it. The value and the frames
afterwards are again without closures. -/
theorem first_order_ends_within_depth (scripts : Scripts) (nesting : ℕ) {e : Value} {c : Chain}
    {limit : ℕ} (he : e.FirstOrder) (hc : c.ClosureFree) (hlimit : e.depth < limit) :
    let run := evaluate scripts nesting limit e c
    ((∃ v, run.outcome = .ok v ∧ v.ClosureFree) ∨ ∃ error, run.outcome = .error (.error error)) ∧
    run.chain.ClosureFree ∧
    run.unnoted = (evaluate scripts nesting (e.depth + 1) e c).unnoted ∧
    ∀ left e' c', Within scripts nesting limit e c left e' c' →
      limit + e'.depth ≤ left + e.depth := by
  intro run
  obtain ⟨hchain, hvalue, hfailure⟩ := closureFree_evaluate scripts nesting limit he hc
  refine ⟨?_, hchain, ?_, fun left e' c' hwithin => (hwithin.of_firstOrder he hc).2.2⟩
  · cases hout : run.outcome with
    | ok v => exact Or.inl ⟨v, rfl, hvalue v hout⟩
    | error f =>
      have hne : f ≠ .stackExhausted := fun hf =>
        outcome_ne_stackExhausted he hc hlimit (hf ▸ hout)
      obtain ⟨error, rfl⟩ := (hfailure f hout).resolve_left hne
      exact Or.inr ⟨error, rfl⟩
  · have hleast : (evaluate scripts nesting (e.depth + 1) e c).outcome ≠ .error .stackExhausted :=
      outcome_ne_stackExhausted he hc (Nat.lt_succ_self _)
    exact ((upToStack_evaluate hlimit e).unnoted_eq hleast).symm

/-- A head that is computed, a value that looks like an `fn` form, and a name that is bound on the
way. -/
theorem first_order_ends_within_depth_computed_head :
    let lambda : Value := .list [.sym "fn", .sym "x"]
    let c := Chain.ofFrame (.ofList
      [("car", .prim .car), ("functions", .list [.prim .list]), ("x", lambda)])
    let e : Value := .list [.list [.sym "car", .sym "functions"],
      .list [.sym "let", .sym "y", .list [.sym "print", .sym "x"]], .sym "y"]
    let run := evaluate (.ofList []) 9 9 e c
    (e.FirstOrder ∧ c.ClosureFree ∧ e.depth = 3) ∧
    run.outcome = .ok (.list [.sym "y", lambda]) ∧ run.chain.ClosureFree ∧
    run.unnoted = (evaluate (.ofList []) 9 4 e c).unnoted := by
  intro lambda c e run
  have hsym : ∀ name, (Value.sym name).FirstOrder := fun _ =>
    Value.firstOrder_atom (by simp) (by simp)
  have hprim : ∀ p, (Value.prim p).FirstOrder := fun _ =>
    Value.firstOrder_atom (by simp) (by simp)
  have he : e.FirstOrder := by
    have hcar : (Value.list [.sym "car", .sym "functions"]).FirstOrder :=
      Value.firstOrder_list (by simp) (by simp) (by simp [hsym])
    have hprint : (Value.list [.sym "print", .sym "x"]).FirstOrder :=
      Value.firstOrder_list (by simp) (by simp) (by simp [hsym])
    have hlet : (Value.list [.sym "let", .sym "y", .list [.sym "print", .sym "x"]]).FirstOrder :=
      Value.firstOrder_list (by simp) (by simp) (by simp [hsym, hprint])
    exact Value.firstOrder_list (by simp) (by simp) (by simp [hsym, hcar, hlet])
  have hc : c.ClosureFree := by
    refine Chain.forall_ofFrame (Frame.forall_ofList ?_)
    simp [lambda, Value.closureFree_list, (hsym _).closureFree, (hprim _).closureFree]
  have hdepth : e.depth = 3 := rfl
  obtain ⟨-, hchain, hleast, -⟩ := first_order_ends_within_depth (.ofList []) 9 he hc
    (hdepth ▸ (by decide) : e.depth < 9)
  rw [hdepth] at hleast
  exact ⟨⟨he, hc, hdepth⟩, rfl, hchain, hleast⟩

end Evaluation
end SmallLisp
