/-
# Evaluations inside evaluations

Which evaluations happen inside an evaluation, and in which chains: the condition of a branch and
the branch that it chooses, the value of a definition, the path of a script and the forms of the
script, and of a call the head, then the arguments from left to right, and then the body
(`Evaluation.Inside`). No others have any part in it (`Evaluation.step_congr`), and of these each one
has, since nothing catches a failure (`Evaluation.error_of_inside`). So an evaluation fails as the
first one inside it does, or for a reason of its own if all inside it have values, and whatever
failure a run ends with was raised by one evaluation within it (`Evaluation.exists_failsItself`).

Of its own an expression raises an error that counts no arguments, or one that counts those written
in it and expects another number (`Evaluation.Raised`); only where a script is loaded may there be
other failures.

Key definitions: `Evaluation.InTurn`, `Evaluation.Inside`, `Evaluation.Raised`,
`Evaluation.Within`, `Evaluation.FailsItself`.
Key theorems: `Evaluation.step_congr`, `Evaluation.error_of_inside`,
`Evaluation.exists_inside_or_raised`, `Evaluation.exists_failsItself`.
-/
import SmallLisp.Proofs.Buffer
import SmallLisp.Proofs.Equations
import SmallLisp.Proofs.Primitives

namespace SmallLisp

namespace Action

variable {α β : Type} {m : Action α} {c : Chain}

theorem outcome_bind_of_ok {a : α} (next : α → Action β) (h : (m c).outcome = .ok a) :
    ((m >>= next) c).outcome = (next a (m c).chain).outcome := by
  rw [bind_ok next h]

theorem outcome_bind_of_error {f : Failure} (next : α → Action β) (h : (m c).outcome = .error f) :
    ((m >>= next) c).outcome = .error f := by
  rw [bind_error next h]

/-- A sequence of two actions fails in the first one or in the second one. -/
theorem error_of_bind {next : α → Action β} {f : Failure}
    (h : ((m >>= next) c).outcome = .error f) : (m c).outcome = .error f ∨
      ∃ a, (m c).outcome = .ok a ∧ (next a (m c).chain).outcome = .error f := by
  cases hm : (m c).outcome with
  | error f' =>
    cases (outcome_bind_of_error next hm).symm.trans h
    exact Or.inl rfl
  | ok a => exact Or.inr ⟨a, rfl, (outcome_bind_of_ok next hm).symm.trans h⟩

/-- A sequence of two actions has a value if both have. -/
theorem ok_of_bind {next : α → Action β} {b : β} (h : ((m >>= next) c).outcome = .ok b) :
    ∃ a, (m c).outcome = .ok a ∧ (next a (m c).chain).outcome = .ok b := by
  cases hm : (m c).outcome with
  | error f => cases (outcome_bind_of_error next hm).symm.trans h
  | ok a => exact ⟨a, rfl, (outcome_bind_of_ok next hm).symm.trans h⟩

/-- Sequences of actions that do the same here and go on with the same do the same. -/
theorem bind_congr {m' : Action α} {next next' : α → Action β} (hm : m c = m' c)
    (hnext : ∀ a, (m c).outcome = .ok a → next a (m c).chain = next' a (m c).chain) :
    (m >>= next) c = (m' >>= next') c := by
  cases h : (m c).outcome with
  | error f => rw [bind_error next h, bind_error next' (hm ▸ h), hm]
  | ok a => rw [bind_ok next h, bind_ok next' (hm ▸ h), hnext a h, hm]

end Action

namespace Evaluation

/-! ### Rows -/

/-- An expression of a row is evaluated in a chain that those before it, all of which have values,
have left. -/
inductive InTurn (eval : Value → Action Value) : Chain → List Value → Value → Chain → Prop
  | now {c : Chain} {e : Value} {es : List Value} : InTurn eval c (e :: es) e c
  | later {c : Chain} {e : Value} {es : List Value} {v e' : Value} {c' : Chain} :
    (eval e c).outcome = .ok v → InTurn eval (eval e c).chain es e' c' →
      InTurn eval c (e :: es) e' c'

section Rows

variable {eval : Value → Action Value} {c c' : Chain} {e' : Value} {f : Failure}

theorem InTurn.mem {es : List Value} (h : InTurn eval c es e' c') : e' ∈ es := by
  induction h with
  | now => exact List.mem_cons_self
  | later _ _ ih => exact List.mem_cons_of_mem _ ih

theorem evalAll_error_of_inTurn {es : List Value} (h : InTurn eval c es e' c')
    (hf : (eval e' c').outcome = .error f) : (evalAll eval es c).outcome = .error f := by
  induction h with
  | now => exact Action.outcome_bind_of_error _ hf
  | later hv _ ih =>
    rw [evalAll, Action.outcome_bind_of_ok _ hv]
    exact Action.outcome_bind_of_error _ (ih hf)

theorem evalLast_error_of_inTurn {es : List Value} (h : InTurn eval c es e' c')
    (hf : (eval e' c').outcome = .error f) (before : Value) :
    (evalLast eval before es c).outcome = .error f := by
  induction h generalizing before with
  | now => exact Action.outcome_bind_of_error _ hf
  | later hv _ ih =>
    rw [evalLast, Action.outcome_bind_of_ok _ hv]
    exact ih hf _

theorem exists_inTurn_of_evalAll_error : ∀ {es : List Value} {c : Chain},
    (evalAll eval es c).outcome = .error f →
      ∃ e' c', InTurn eval c es e' c' ∧ (eval e' c').outcome = .error f
  | [], _, h => by cases h
  | e :: es, c, h => by
    rcases Action.error_of_bind h with h | ⟨v, hv, h⟩
    · exact ⟨e, c, .now, h⟩
    · rcases Action.error_of_bind h with h | ⟨_, _, h⟩
      · obtain ⟨e', c', hturn, hf⟩ := exists_inTurn_of_evalAll_error h
        exact ⟨e', c', .later hv hturn, hf⟩
      · cases h

theorem exists_inTurn_of_evalLast_error : ∀ {es : List Value} {c : Chain} {before : Value},
    (evalLast eval before es c).outcome = .error f →
      ∃ e' c', InTurn eval c es e' c' ∧ (eval e' c').outcome = .error f
  | [], _, _, h => by cases h
  | e :: es, c, _, h => by
    rcases Action.error_of_bind h with h | ⟨v, hv, h⟩
    · exact ⟨e, c, .now, h⟩
    · obtain ⟨e', c', hturn, hf⟩ := exists_inTurn_of_evalLast_error h
      exact ⟨e', c', .later hv hturn, hf⟩

/-- Forms that are read one by one fail as one of them does, or for what stops the reader. -/
theorem runForms_error {nesting : ℕ} {tokens : List Token} {before : Value} {done : ℕ}
    (h : (runForms nesting eval before done tokens c).outcome = .error f) :
    (∃ e' c', InTurn eval c (Form.parseAll nesting tokens).1 e' c' ∧
      (eval e' c').outcome = .error f) ∨
    ∃ fault, (Form.parseAll nesting tokens).2 = some fault ∧ f = fault.toFailure := by
  rw [runForms_eq] at h
  rcases Action.error_of_bind h with h | ⟨v, -, h⟩
  · exact Or.inl (exists_inTurn_of_evalLast_error h)
  · right
    cases hfault : (Form.parseAll nesting tokens).2 with
    | none =>
      rw [hfault] at h
      cases h
    | some fault =>
      rw [hfault] at h
      cases h
      exact ⟨fault, rfl, rfl⟩

theorem runForms_error_of_inTurn {nesting : ℕ} {tokens : List Token}
    (h : InTurn eval c (Form.parseAll nesting tokens).1 e' c')
    (hf : (eval e' c').outcome = .error f) (before : Value) (done : ℕ) :
    (runForms nesting eval before done tokens c).outcome = .error f := by
  rw [runForms_eq]
  exact Action.outcome_bind_of_error _ (evalLast_error_of_inTurn h hf before)

section Congruence

variable {eval' : Value → Action Value}

theorem evalAll_congr : ∀ {es : List Value} {c : Chain},
    (∀ e' c', InTurn eval c es e' c' → eval e' c' = eval' e' c') →
      evalAll eval es c = evalAll eval' es c
  | [], _, _ => rfl
  | e :: es, c, h => by
    refine Action.bind_congr (h e c .now) fun v hv => ?_
    refine Action.bind_congr (evalAll_congr fun e' c' hturn => h e' c' (.later hv hturn)) ?_
    exact fun _ _ => rfl

theorem evalLast_congr : ∀ {es : List Value} {c : Chain},
    (∀ e' c', InTurn eval c es e' c' → eval e' c' = eval' e' c') →
      ∀ before, evalLast eval before es c = evalLast eval' before es c
  | [], _, _, _ => rfl
  | e :: es, c, h, _ => by
    refine Action.bind_congr (h e c .now) fun v hv => ?_
    exact evalLast_congr (fun e' c' hturn => h e' c' (.later hv hturn)) v

theorem runForms_congr {nesting : ℕ} {tokens : List Token} (before : Value) (done : ℕ)
    (h : ∀ e' c', InTurn eval c (Form.parseAll nesting tokens).1 e' c' →
      eval e' c' = eval' e' c') :
    runForms nesting eval before done tokens c = runForms nesting eval' before done tokens c := by
  rw [runForms_eq, runForms_eq]
  exact Action.bind_congr (evalLast_congr h before) fun _ _ => rfl

end Congruence

variable {scripts : Scripts} {nesting : ℕ} {path : String}

/-- A script fails as one of its forms does, for want of a text, or for what stops the reader. -/
theorem loadScript_error (h : (loadScript scripts nesting eval path c).outcome = .error f) :
    (∃ text e' c', scripts path = .ok text ∧
      InTurn eval c (Form.parseAll nesting (tokenize text)).1 e' c' ∧
      (eval e' c').outcome = .error f) ∨
    scripts path = .error f ∨ ∃ fault : Form.Fault, f = fault.toFailure := by
  cases hpath : scripts path with
  | error f' =>
    have hread := congrArg Run.outcome (readScript_of_error hpath c)
    cases (Action.outcome_bind_of_error _ hread).symm.trans h
    exact Or.inr (Or.inl rfl)
  | ok text =>
    have hread := congrArg Run.outcome (readScript_of_ok hpath c)
    have hforms := (Action.outcome_bind_of_ok _ hread).symm.trans h
    rw [readScript_of_ok hpath] at hforms
    rcases runForms_error hforms with ⟨e', c', hturn, hf⟩ | ⟨fault, -, hfault⟩
    · exact Or.inl ⟨text, e', c', rfl, hturn, hf⟩
    · exact Or.inr (Or.inr ⟨fault, hfault⟩)

theorem loadScript_error_of_inTurn {text : String} (htext : scripts path = .ok text)
    (h : InTurn eval c (Form.parseAll nesting (tokenize text)).1 e' c')
    (hf : (eval e' c').outcome = .error f) :
    (loadScript scripts nesting eval path c).outcome = .error f := by
  have hread := congrArg Run.outcome (readScript_of_ok htext c)
  rw [loadScript, Action.outcome_bind_of_ok _ hread, readScript_of_ok htext]
  exact runForms_error_of_inTurn h hf .nil 0

end Rows

/-! ### What is evaluated inside -/

/-- A value that, called with so many arguments, evaluates them: a primitive, or a closure of as
many parameters, all of them symbols. -/
inductive Takes : Value → ℕ → Prop
  | prim {p : Primitive} {n : ℕ} : Takes (.prim p) n
  | closure {params : Value} {body : List Value} {names : List String} {n : ℕ} :
    formals params = .ok names → names.length = n → Takes (.closure params body) n

/-- Inside the evaluation of a first expression in a first chain, a second expression is evaluated
in a second chain. -/
inductive Inside (scripts : Scripts) (nesting : ℕ) (eval : Value → Action Value) :
    Value → Chain → Value → Chain → Prop
  | condition {condition : Value} {branches : List Value} {c : Chain} : branches.length ≤ 2 →
    Inside scripts nesting eval (.list (.sym "if" :: condition :: branches)) c condition c
  | branch {condition : Value} {branches : List Value} {c : Chain} {b : Bool} {e : Value} :
    branches.length ≤ 2 → (eval condition c).outcome = .ok (.bool b) →
    branches[if b then 0 else 1]? = some e →
      Inside scripts nesting eval (.list (.sym "if" :: condition :: branches)) c
        e (eval condition c).chain
  | defined {name : String} {e : Value} {c : Chain} :
    Inside scripts nesting eval (.list [.sym "let", .sym name, e]) c e c
  | path {e : Value} {c : Chain} : Inside scripts nesting eval (.list [.sym "load", e]) c e c
  | script {e : Value} {c : Chain} {path text : String} {e' : Value} {c' : Chain} :
    (eval e c).outcome = .ok (.str path) → scripts path = .ok text →
    InTurn eval (eval e c).chain (Form.parseAll nesting (tokenize text)).1 e' c' →
      Inside scripts nesting eval (.list [.sym "load", e]) c e' c'
  | head {head : Value} {args : List Value} {c : Chain} : SpecialForm.ofHead? head = none →
    Inside scripts nesting eval (.list (head :: args)) c head c
  | argument {head : Value} {args : List Value} {c : Chain} {f e' : Value} {c' : Chain} :
    SpecialForm.ofHead? head = none → (eval head c).outcome = .ok f → Takes f args.length →
    InTurn eval (eval head c).chain args e' c' →
      Inside scripts nesting eval (.list (head :: args)) c e' c'
  | body {head : Value} {args : List Value} {c : Chain} {params : Value} {body : List Value}
    {names : List String} {values : List Value} {e' : Value} {c' : Chain} :
    SpecialForm.ofHead? head = none → (eval head c).outcome = .ok (.closure params body) →
    formals params = .ok names → names.length = args.length →
    (evalAll eval args (eval head c).chain).outcome = .ok values →
    InTurn eval ((evalAll eval args (eval head c).chain).chain.push (.ofList (names.zip values)))
      body e' c' →
      Inside scripts nesting eval (.list (head :: args)) c e' c'

section Inside

variable {scripts : Scripts} {nesting : ℕ} {eval : Value → Action Value}
variable {e e' : Value} {c c' : Chain} {f : Failure}

theorem evalBranch_of_le {condition : Value} {branches : List Value} (h : branches.length ≤ 2) :
    evalBranch eval (condition :: branches) = (do
      match ← eval condition with
      | .bool b =>
        let index := if b then 0 else 1
        match branches[index]? with
        | some branch => eval branch
        | none => .raise (.branchMissing (index + 1) (branches.length + 1))
      | _ => .raise (.conditionNotABool condition)) := by
  simp only [evalBranch, if_neg (Nat.not_lt.mpr h)]
  rfl

/-- **Nothing catches a failure.** -/
theorem error_of_inside (h : Inside scripts nesting eval e c e' c')
    (hf : (eval e' c').outcome = .error f) :
    (step scripts nesting eval e c).outcome = .error f := by
  cases h with
  | condition hlen =>
    show (evalBranch eval _ c).outcome = _
    rw [evalBranch_of_le hlen]
    exact Action.outcome_bind_of_error _ hf
  | branch hlen hb hbranch =>
    show (evalBranch eval _ c).outcome = _
    rw [evalBranch_of_le hlen, Action.outcome_bind_of_ok _ hb]
    simp only [hbranch, hf]
  | defined => exact Action.outcome_bind_of_error _ hf
  | path => exact Action.outcome_bind_of_error _ hf
  | script hpath htext hturn =>
    show (evalLoad scripts nesting eval _ c).outcome = _
    rw [evalLoad, Action.outcome_bind_of_ok _ hpath]
    exact loadScript_error_of_inTurn htext hturn hf
  | head hcall =>
    rw [step_call eval hcall]
    exact Action.outcome_bind_of_error _ hf
  | argument hcall hhead htakes hturn =>
    rw [step_call eval hcall, Action.outcome_bind_of_ok _ hhead]
    have hargs := evalAll_error_of_inTurn hturn hf
    cases htakes with
    | prim => exact Action.outcome_bind_of_error _ hargs
    | closure hnames hlen =>
      simp only [call]
      rw [callClosure_of_count_eq eval _ _ hnames hlen]
      exact Action.outcome_bind_of_error _ hargs
  | body hcall hhead hnames hlen hargs hturn =>
    rw [step_call eval hcall, Action.outcome_bind_of_ok _ hhead]
    simp only [call]
    rw [callClosure_of_count_eq eval _ _ hnames hlen, Action.outcome_bind_of_ok _ hargs]
    exact evalLast_error_of_inTurn hturn hf .nil

section Congruence

variable {eval' : Value → Action Value}

theorem evalBranch_congr {args : List Value}
    (h : ∀ e' c', Inside scripts nesting eval (.list (.sym "if" :: args)) c e' c' →
      eval e' c' = eval' e' c') : evalBranch eval args c = evalBranch eval' args c := by
  cases args with
  | nil => rfl
  | cons condition branches =>
    by_cases hlen : branches.length ≤ 2
    · rw [evalBranch_of_le hlen, evalBranch_of_le hlen]
      refine Action.bind_congr (h _ _ (.condition hlen)) fun v hv => ?_
      cases v with
      | bool b =>
        simp only
        cases hbranch : branches[if b then 0 else 1]? with
        | some e => exact h _ _ (.branch hlen hv hbranch)
        | none => rfl
      | _ => rfl
    · simp only [evalBranch, if_pos (Nat.lt_of_not_le hlen)]

theorem evalDefine_congr {args : List Value}
    (h : ∀ e' c', Inside scripts nesting eval (.list (.sym "let" :: args)) c e' c' →
      eval e' c' = eval' e' c') : evalDefine eval args c = evalDefine eval' args c := by
  unfold evalDefine
  split
  · exact Action.bind_congr (h _ _ .defined) fun _ _ => rfl
  · rfl
  · rfl

theorem loadScript_congr {path : String}
    (h : ∀ text e' c', scripts path = .ok text →
      InTurn eval c (Form.parseAll nesting (tokenize text)).1 e' c' → eval e' c' = eval' e' c') :
    loadScript scripts nesting eval path c = loadScript scripts nesting eval' path c := by
  refine Action.bind_congr rfl fun text htext => ?_
  cases hpath : scripts path with
  | error f =>
    rw [readScript_of_error hpath] at htext
    cases htext
  | ok text' =>
    rw [readScript_of_ok hpath] at htext ⊢
    cases htext
    exact runForms_congr .nil 0 fun e' c' hturn => h text e' c' hpath hturn

theorem evalLoad_congr {args : List Value}
    (h : ∀ e' c', Inside scripts nesting eval (.list (.sym "load" :: args)) c e' c' →
      eval e' c' = eval' e' c') :
    evalLoad scripts nesting eval args c = evalLoad scripts nesting eval' args c := by
  unfold evalLoad
  split
  · refine Action.bind_congr (h _ _ .path) fun v hv => ?_
    cases v with
    | str path =>
      exact loadScript_congr fun text e' c' htext hturn => h e' c' (.script hv htext hturn)
    | _ => rfl
  · rfl

theorem call_congr {head function : Value} {args : List Value}
    (hcall : SpecialForm.ofHead? head = none) (hhead : (eval head c).outcome = .ok function)
    (h : ∀ e' c', Inside scripts nesting eval (.list (head :: args)) c e' c' →
      eval e' c' = eval' e' c') :
    call eval function args (eval head c).chain = call eval' function args (eval head c).chain := by
  have hargs : Takes function args.length →
      evalAll eval args (eval head c).chain = evalAll eval' args (eval head c).chain :=
    fun htakes => evalAll_congr fun e' c' hturn => h e' c' (.argument hcall hhead htakes hturn)
  cases function with
  | prim p => exact Action.bind_congr (hargs .prim) fun _ _ => rfl
  | closure params body =>
    simp only [call]
    cases hnames : formals params with
    | error error =>
      rw [callClosure_of_malformed eval body args hnames,
        callClosure_of_malformed eval' body args hnames]
    | ok names =>
      by_cases hlen : names.length = args.length
      · rw [callClosure_of_count_eq eval body args hnames hlen,
          callClosure_of_count_eq eval' body args hnames hlen]
        refine Action.bind_congr (hargs (.closure hnames hlen)) fun values hvalues => ?_
        have hbody := evalLast_congr
          (fun e' c' hturn => h e' c' (.body hcall hhead hnames hlen hvalues hturn)) .nil
        simp only [Action.within, hbody]
      · rw [callClosure_of_count_ne eval body args hnames hlen,
          callClosure_of_count_ne eval' body args hnames hlen]
  | _ => rfl

/-- **What is evaluated inside is all that counts.** An evaluation does the same whenever all that
is evaluated inside it does. -/
theorem step_congr
    (h : ∀ e' c', Inside scripts nesting eval e c e' c' → eval e' c' = eval' e' c') :
    step scripts nesting eval e c = step scripts nesting eval' e c := by
  cases e with
  | list items =>
    cases items with
    | nil => rfl
    | cons head args =>
      cases hform : SpecialForm.ofHead? head with
      | none =>
        rw [step_call eval hform, step_call eval' hform]
        exact Action.bind_congr (h _ _ (.head hform)) fun _ hhead => call_congr hform hhead h
      | some form =>
        obtain rfl := SpecialForm.eq_sym_of_ofHead? hform
        simp only [step, hform]
        cases form with
        | branch => exact evalBranch_congr h
        | define => exact evalDefine_congr h
        | load => exact evalLoad_congr h
        | _ => rfl
  | _ => rfl

end Congruence

/-! ### What is raised -/

/-- The failures that an expression may raise by itself: errors without a count of arguments, errors
that count the arguments written in a call and expect another number, and those of a script that
cannot be read. -/
inductive Raised (scripts : Scripts) : Value → Failure → Prop
  | uncounted {e : Value} {error : LispError} : error.counts? = none →
    Raised scripts e (.error error)
  | counted {head : Value} {args : List Value} {error : LispError} {expected : ℕ} :
    error.counts? = some (expected, args.length) → expected ≠ args.length →
      Raised scripts (.list (head :: args)) (.error error)
  | exhausted {e : Value} : Raised scripts (.list [.sym "load", e]) .stackExhausted
  | unread {e : Value} {path : String} {f : Failure} : scripts path = .error f →
    Raised scripts (.list [.sym "load", e]) f

theorem exists_inside_or_raised_evalBranch {args : List Value}
    (h : (evalBranch eval args c).outcome = .error f) :
    (∃ e' c', Inside scripts nesting eval (.list (.sym "if" :: args)) c e' c' ∧
      (eval e' c').outcome = .error f) ∨ Raised scripts (.list (.sym "if" :: args)) f := by
  cases args with
  | nil =>
    cases h
    exact Or.inr (.counted rfl (by simp))
  | cons condition branches =>
    by_cases hlen : branches.length ≤ 2
    · rw [evalBranch_of_le hlen] at h
      rcases Action.error_of_bind h with h | ⟨v, hv, h⟩
      · exact Or.inl ⟨condition, c, .condition hlen, h⟩
      · cases v with
        | bool b =>
          simp only at h
          cases hbranch : branches[if b then 0 else 1]? with
          | some e =>
            rw [hbranch] at h
            exact Or.inl ⟨e, _, .branch hlen hv hbranch, h⟩
          | none =>
            rw [hbranch] at h
            cases h
            have hmissing := List.getElem?_eq_none_iff.mp hbranch
            refine Or.inr (.counted rfl ?_)
            rw [List.length_cons]
            split at hmissing <;> omega
        | _ =>
          cases h
          exact Or.inr (.uncounted rfl)
    · simp only [evalBranch, if_pos (Nat.lt_of_not_le hlen)] at h
      cases h
      refine Or.inr (.counted rfl ?_)
      rw [List.length_cons]
      omega

theorem exists_inside_or_raised_evalDefine {args : List Value}
    (h : (evalDefine eval args c).outcome = .error f) :
    (∃ e' c', Inside scripts nesting eval (.list (.sym "let" :: args)) c e' c' ∧
      (eval e' c').outcome = .error f) ∨ Raised scripts (.list (.sym "let" :: args)) f := by
  unfold evalDefine at h
  split at h
  · rcases Action.error_of_bind h with h | ⟨v, hv, h⟩
    · exact Or.inl ⟨_, c, .defined, h⟩
    · cases h
  · cases h
    exact Or.inr (.uncounted rfl)
  · rename_i hne hne'
    cases h
    refine Or.inr (.counted rfl fun hlen => ?_)
    obtain ⟨target, e, rfl⟩ := List.length_eq_two.mp hlen.symm
    exact hne' target e rfl

theorem exists_inside_or_raised_evalLoad {args : List Value}
    (h : (evalLoad scripts nesting eval args c).outcome = .error f) :
    (∃ e' c', Inside scripts nesting eval (.list (.sym "load" :: args)) c e' c' ∧
      (eval e' c').outcome = .error f) ∨ Raised scripts (.list (.sym "load" :: args)) f := by
  unfold evalLoad at h
  split at h
  · rename_i e
    rcases Action.error_of_bind h with h | ⟨v, hv, h⟩
    · exact Or.inl ⟨e, c, .path, h⟩
    · cases v with
      | str path =>
        rcases loadScript_error h with ⟨text, e', c', htext, hturn, hf⟩ | hunread | ⟨fault, rfl⟩
        · exact Or.inl ⟨e', c', .script hv htext hturn, hf⟩
        · exact Or.inr (.unread hunread)
        · cases fault with
          | tooDeep => exact Or.inr .exhausted
          | _ => exact Or.inr (.uncounted rfl)
      | _ =>
        cases h
        exact Or.inr (.uncounted rfl)
  · rename_i hne
    cases h
    refine Or.inr (.counted rfl fun hlen => ?_)
    obtain ⟨e, rfl⟩ := List.length_eq_one_iff.mp hlen.symm
    exact hne e rfl

theorem raised_evalLambda {args : List Value} (h : (evalLambda args c).outcome = .error f) :
    Raised scripts (.list (.sym "fn" :: args)) f := by
  unfold evalLambda at h
  split at h
  · cases h
  · rename_i hne
    cases h
    match args, hne with
    | [], _ => exact .counted rfl (by simp)
    | [params], _ => exact .counted rfl (by simp)
    | params :: form :: body, hne => exact (hne params form body rfl).elim

theorem raised_evalPrint {args : List Value} (h : (evalPrint args c).outcome = .error f) :
    Raised scripts (.list (.sym "print" :: args)) f := by
  unfold evalPrint at h
  split at h
  · rename_i name
    rcases Action.error_of_bind h with h | ⟨v, -, h⟩
    · unfold Action.lookup at h
      split at h <;> cases h
      exact .uncounted rfl
    · cases h
  · cases h
  · rename_i hne hne'
    cases h
    refine .counted rfl fun hlen => ?_
    obtain ⟨e, rfl⟩ := List.length_eq_one_iff.mp hlen.symm
    exact hne' e rfl

theorem raised_evalBindings {args : List Value} (h : (evalBindings args c).outcome = .error f) :
    Raised scripts (.list (.sym "env" :: args)) f := by
  cases args with
  | nil => cases h
  | cons e es =>
    cases h
    exact .counted rfl (by simp)

theorem raised_of_refuses {p : Primitive} {args values : List Value} {error : LispError}
    (h : p.Refuses values error) (hlen : values.length = args.length) (head : Value) :
    Raised scripts (.list (head :: args)) (.error error) := by
  cases h with
  | arity hne =>
    rw [hlen] at hne ⊢
    exact .counted rfl hne
  | _ => exact .uncounted rfl

theorem length_of_evalAll_ok : ∀ {es : List Value} {c : Chain} {values : List Value},
    (evalAll eval es c).outcome = .ok values → values.length = es.length
  | [], _, _, h => by
    cases h
    rfl
  | e :: es, c, values, h => by
    obtain ⟨v, -, h⟩ := Action.ok_of_bind h
    obtain ⟨vs, hvs, h⟩ := Action.ok_of_bind h
    cases h
    rw [List.length_cons, List.length_cons, length_of_evalAll_ok hvs]

theorem exists_inside_or_raised_call {head function : Value} {args : List Value}
    (hcall : SpecialForm.ofHead? head = none) (hhead : (eval head c).outcome = .ok function)
    (h : (call eval function args (eval head c).chain).outcome = .error f) :
    (∃ e' c', Inside scripts nesting eval (.list (head :: args)) c e' c' ∧
      (eval e' c').outcome = .error f) ∨ Raised scripts (.list (head :: args)) f := by
  cases function with
  | prim p =>
    rcases Action.error_of_bind h with h | ⟨values, hvalues, h⟩
    · obtain ⟨e', c', hturn, hf⟩ := exists_inTurn_of_evalAll_error h
      exact Or.inl ⟨e', c', .argument hcall hhead .prim hturn, hf⟩
    · cases happly : p.apply values with
      | ok v =>
        rw [happly] at h
        cases h
      | error error =>
        rw [happly] at h
        cases h
        exact Or.inr (raised_of_refuses (Primitive.refuses_of_apply happly)
          (length_of_evalAll_ok hvalues) head)
  | closure params body =>
    simp only [call] at h
    cases hnames : formals params with
    | error error =>
      rw [callClosure_of_malformed eval body args hnames] at h
      cases h
      rcases formals_error hnames with rfl | rfl <;> exact Or.inr (.uncounted rfl)
    | ok names =>
      by_cases hlen : names.length = args.length
      · rw [callClosure_of_count_eq eval body args hnames hlen] at h
        rcases Action.error_of_bind h with h | ⟨values, hvalues, h⟩
        · obtain ⟨e', c', hturn, hf⟩ := exists_inTurn_of_evalAll_error h
          exact Or.inl ⟨e', c', .argument hcall hhead (.closure hnames hlen) hturn, hf⟩
        · obtain ⟨e', c', hturn, hf⟩ := exists_inTurn_of_evalLast_error h
          exact Or.inl ⟨e', c', .body hcall hhead hnames hlen hvalues hturn, hf⟩
      · rw [callClosure_of_count_ne eval body args hnames hlen] at h
        cases h
        exact Or.inr (.counted rfl hlen)
  | _ =>
    cases h
    exact Or.inr (.uncounted rfl)

/-- **An evaluation fails as one inside it or for a reason of its own.** -/
theorem exists_inside_or_raised (h : (step scripts nesting eval e c).outcome = .error f) :
    (∃ e' c', Inside scripts nesting eval e c e' c' ∧ (eval e' c').outcome = .error f) ∨
      Raised scripts e f := by
  cases e with
  | list items =>
    cases items with
    | nil =>
      cases h
      exact Or.inr (.uncounted rfl)
    | cons head args =>
      cases hform : SpecialForm.ofHead? head with
      | none =>
        rw [step_call eval hform] at h
        rcases Action.error_of_bind h with h | ⟨function, hhead, h⟩
        · exact Or.inl ⟨head, c, .head hform, h⟩
        · exact exists_inside_or_raised_call hform hhead h
      | some form =>
        obtain rfl := SpecialForm.eq_sym_of_ofHead? hform
        simp only [step, hform] at h
        cases form with
        | branch => exact exists_inside_or_raised_evalBranch h
        | define => exact exists_inside_or_raised_evalDefine h
        | lambda => exact Or.inr (raised_evalLambda h)
        | load => exact exists_inside_or_raised_evalLoad h
        | bindings => exact Or.inr (raised_evalBindings h)
        | print => exact Or.inr (raised_evalPrint h)
  | sym name =>
    simp only [step, Action.lookup] at h
    split at h <;> cases h
    exact Or.inr (.uncounted rfl)
  | prim p =>
    cases h
    exact Or.inr (.uncounted rfl)
  | closure params body =>
    cases h
    exact Or.inr (.uncounted rfl)
  | _ => cases h

end Inside

/-! ### Runs -/

/-- Within an evaluation under a limit, be it directly inside or further in, an expression is
evaluated in some chain and under what is left of the limit there. -/
inductive Within (scripts : Scripts) (nesting : ℕ) :
    ℕ → Value → Chain → ℕ → Value → Chain → Prop
  | here {limit : ℕ} {e : Value} {c : Chain} : Within scripts nesting limit e c limit e c
  | inside {limit left : ℕ} {e e' e'' : Value} {c c' c'' : Chain} :
    Inside scripts nesting (evaluate scripts nesting limit) e c e' c' →
    Within scripts nesting limit e' c' left e'' c'' →
      Within scripts nesting (limit + 1) e c left e'' c''

/-- An evaluation fails although all evaluations inside it have values: for a reason of its own, or
because the limit is reached. -/
inductive FailsItself (scripts : Scripts) (nesting : ℕ) : ℕ → Value → Chain → Failure → Prop
  | exhausted {e : Value} {c : Chain} : FailsItself scripts nesting 0 e c .stackExhausted
  | raised {limit : ℕ} {e : Value} {c : Chain} {f : Failure} :
    (evaluate scripts nesting (limit + 1) e c).outcome = .error f →
    (∀ e' c', Inside scripts nesting (evaluate scripts nesting limit) e c e' c' →
      ∃ v, (evaluate scripts nesting limit e' c').outcome = .ok v) →
      FailsItself scripts nesting (limit + 1) e c f

section Runs

variable {scripts : Scripts} {nesting : ℕ} {f : Failure}

/-- **Every failure comes from one evaluation**, which is within the one that fails with it and has
nothing inside that fails. -/
theorem exists_failsItself : ∀ {limit : ℕ} {e : Value} {c : Chain},
    (evaluate scripts nesting limit e c).outcome = .error f →
      ∃ left e' c', Within scripts nesting limit e c left e' c' ∧
        FailsItself scripts nesting left e' c' f
  | 0, e, c, h => by
    cases h
    exact ⟨0, e, c, .here, .exhausted⟩
  | limit + 1, e, c, h => by
    by_cases hinside : ∃ e' c', Inside scripts nesting (evaluate scripts nesting limit) e c e' c' ∧
        ∃ f', (evaluate scripts nesting limit e' c').outcome = .error f'
    · obtain ⟨e', c', hin, f', hf'⟩ := hinside
      -- the evaluation itself fails as the one inside it
      cases (error_of_inside hin hf').symm.trans h
      obtain ⟨left, e'', c'', hwithin, hfails⟩ := exists_failsItself hf'
      exact ⟨left, e'', c'', .inside hin hwithin, hfails⟩
    · refine ⟨limit + 1, e, c, .here, .raised h fun e' c' hin => ?_⟩
      cases hout : (evaluate scripts nesting limit e' c').outcome with
      | ok v => exact ⟨v, rfl⟩
      | error f' => exact (hinside ⟨e', c', hin, f', hout⟩).elim

/-- What fails by itself is at the limit or raises its failure. -/
theorem FailsItself.exhausted_or_raised {limit : ℕ} {e : Value} {c : Chain}
    (h : FailsItself scripts nesting limit e c f) :
    limit = 0 ∧ f = .stackExhausted ∨ Raised scripts e f := by
  cases h with
  | exhausted => exact Or.inl ⟨rfl, rfl⟩
  | raised hout hinside =>
    rcases exists_inside_or_raised hout with ⟨e', c', hin, hf⟩ | hraised
    · obtain ⟨v, hv⟩ := hinside e' c' hin
      cases hv.symm.trans hf
    · exact Or.inr hraised

end Runs
end Evaluation
end SmallLisp
