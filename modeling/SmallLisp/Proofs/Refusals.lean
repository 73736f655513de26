/-
# Refused calls

A call that is refused for what is written in it leaves no trace. A special form with a number of
arguments that it does not take fails before anything is evaluated, and so does a definition of what
is no symbol (`Evaluation.Refused`); where a head has a closure for its value whose parameters are
malformed or of another number than the arguments, the head is all that is evaluated
(`Evaluation.RefusedAtHead`). The exceptions are by design: whether a branch is missing depends on
the condition, and primitives look at the values of their arguments.

Whichever way a call is refused, an error that ends a run and counts arguments counts those of a
call within the run, which fails with it by itself, and expects another number
(`Evaluation.RefusedWithin`).

Key definitions: `SpecialForm.Takes`, `SpecialForm.refusal`, `Evaluation.Refused`,
`Evaluation.RefusedAtHead`, `Evaluation.RefusedWithin`.
Key theorems: `Evaluation.refused_of_not_takes`, `Evaluation.refusedAtHead_of_count_ne`,
`Evaluation.counts?_of_evaluate`, `Evaluation.refused_calls_leave_no_trace`.
-/
import SmallLisp.Proofs.Inside
import SmallLisp.Proofs.Requests

namespace SmallLisp

namespace SpecialForm

/-- How many arguments the errors of a special form expect. -/
def expected : SpecialForm → ℕ
  | .branch => 3
  | .define => 2
  | .lambda => 2
  | .load => 1
  | .bindings => 0
  | .print => 1

/-- A special form begins with so many arguments. -/
def Takes : SpecialForm → ℕ → Prop
  | .branch, n => 1 ≤ n ∧ n ≤ 3
  | .define, n => n = 2
  | .lambda, n => 2 ≤ n
  | .load, n => n = 1
  | .bindings, n => n = 0
  | .print, n => n = 1

instance : ∀ (form : SpecialForm) (n : ℕ), Decidable (form.Takes n)
  | .branch, n => inferInstanceAs (Decidable (1 ≤ n ∧ n ≤ 3))
  | .define, n => inferInstanceAs (Decidable (n = 2))
  | .lambda, n => inferInstanceAs (Decidable (2 ≤ n))
  | .load, n => inferInstanceAs (Decidable (n = 1))
  | .bindings, n => inferInstanceAs (Decidable (n = 0))
  | .print, n => inferInstanceAs (Decidable (n = 1))

/-- The error of a special form with a number of arguments that it does not take. -/
def refusal : SpecialForm → ℕ → LispError
  | .branch, 0 => .conditionMissing
  | .branch, n => .tooManyBranches n
  | .define, n => .defineArity n
  | .lambda, n => .lambdaArity n
  | .load, n => .loadArity n
  | .bindings, n => .bindingsArity n
  | .print, n => .printArity n

theorem kind_refusal (form : SpecialForm) (n : ℕ) : (form.refusal n).kind = .arity := by
  cases form with
  | branch => cases n <;> rfl
  | _ => rfl

theorem counts?_refusal (form : SpecialForm) (n : ℕ) :
    (form.refusal n).counts? = some (form.expected, n) := by
  cases form with
  | branch => cases n <;> rfl
  | _ => rfl

theorem ofHead?_name (form : SpecialForm) : ofHead? (.sym form.name) = some form := by
  cases form <;> rfl

theorem call_inj (form form' : SpecialForm) {args args' : List Value}
    (h : Value.list (.sym form.name :: args) = .list (.sym form'.name :: args')) :
    form = form' ∧ args = args' := by
  simp only [Value.list.injEq, List.cons.injEq] at h
  have hform := form.ofHead?_name
  rw [h.1, form'.ofHead?_name] at hform
  exact ⟨(Option.some.inj hform).symm, h.2⟩

end SpecialForm

namespace Evaluation

variable {scripts : Scripts} {nesting : ℕ}

/-! ### Refused at once -/

/-- The evaluation of an expression fails with an error, and leaves the chain as it was, writes
nothing and has no other evaluation inside. -/
structure Refused (scripts : Scripts) (nesting : ℕ) (e : Value) (error : LispError) : Prop where
  run : ∀ limit c, evaluate scripts nesting (limit + 1) e c = ⟨.error (.error error), c, [], []⟩
  inside : ∀ limit c e' c', ¬ Inside scripts nesting (evaluate scripts nesting limit) e c e' c'

theorem evalSpecial_of_not_takes (eval : Value → Action Value) (form : SpecialForm)
    {args : List Value} (h : ¬ form.Takes args.length) :
    evalSpecial scripts nesting eval form args = .raise (form.refusal args.length) := by
  cases form with
  | branch =>
    show evalBranch eval args = _
    unfold evalBranch
    split
    · rfl
    · rename_i condition branches
      have hlen : 2 < branches.length := by
        simp only [SpecialForm.Takes, List.length_cons] at h
        omega
      exact if_pos hlen
  | define =>
    show evalDefine eval args = _
    unfold evalDefine
    split
    · exact (h rfl).elim
    · exact (h rfl).elim
    · rfl
  | lambda =>
    show evalLambda args = _
    unfold evalLambda
    split
    · exact (h (by simp [SpecialForm.Takes])).elim
    · rfl
  | load =>
    show evalLoad scripts nesting eval args = _
    unfold evalLoad
    split
    · exact (h rfl).elim
    · rfl
  | bindings =>
    show evalBindings args = _
    unfold evalBindings
    split
    · exact (h rfl).elim
    · rfl
  | print =>
    show evalPrint args = _
    unfold evalPrint
    split
    · exact (h rfl).elim
    · exact (h rfl).elim
    · rfl

/-- A special form inside which something is evaluated takes its arguments, and if it defines, then
a symbol. -/
theorem Inside.takes {eval : Value → Action Value} {form : SpecialForm} {args : List Value}
    {c c' : Chain} {e' : Value}
    (h : Inside scripts nesting eval (.list (.sym form.name :: args)) c e' c') :
    form.Takes args.length ∧ (form = .define → ∃ name e, args = [.sym name, e]) := by
  generalize hcall : Value.list (.sym form.name :: args) = call at h
  cases h with
  | condition hlen =>
    obtain ⟨rfl, rfl⟩ := form.call_inj .branch hcall
    exact ⟨⟨Nat.le_add_left 1 _, Nat.succ_le_succ hlen⟩, nofun⟩
  | branch hlen =>
    obtain ⟨rfl, rfl⟩ := form.call_inj .branch hcall
    exact ⟨⟨Nat.le_add_left 1 _, Nat.succ_le_succ hlen⟩, nofun⟩
  | defined =>
    obtain ⟨rfl, rfl⟩ := form.call_inj .define hcall
    exact ⟨rfl, fun _ => ⟨_, _, rfl⟩⟩
  | path =>
    obtain ⟨rfl, rfl⟩ := form.call_inj .load hcall
    exact ⟨rfl, nofun⟩
  | script =>
    obtain ⟨rfl, rfl⟩ := form.call_inj .load hcall
    exact ⟨rfl, nofun⟩
  | head hnone =>
    cases hcall
    cases form.ofHead?_name.symm.trans hnone
  | argument hnone =>
    cases hcall
    cases form.ofHead?_name.symm.trans hnone
  | body hnone =>
    cases hcall
    cases form.ofHead?_name.symm.trans hnone

theorem evaluate_form (form : SpecialForm) (args : List Value) (limit : ℕ) :
    evaluate scripts nesting (limit + 1) (.list (.sym form.name :: args)) =
      evalSpecial scripts nesting (evaluate scripts nesting limit) form args := by
  rw [evaluate, step, form.ofHead?_name]

/-- **A special form refuses a wrong number of arguments at once.** -/
theorem refused_of_not_takes (form : SpecialForm) {args : List Value}
    (h : ¬ form.Takes args.length) :
    Refused scripts nesting (.list (.sym form.name :: args)) (form.refusal args.length) where
  run limit c := by
    rw [evaluate_form, evalSpecial_of_not_takes _ form h]
    rfl
  inside _ _ _ _ hin := h hin.takes.1

/-- A definition of what is no symbol is refused at once. -/
theorem refused_define {target : Value} (h : ∀ name, target ≠ .sym name) (e : Value) :
    Refused scripts nesting (.list [.sym "let", target, e]) .targetNotASymbol where
  run limit c := by
    cases target with
    | sym name => exact (h name rfl).elim
    | _ => rfl
  inside limit c e' c' hin := by
    have htakes : Inside scripts nesting (evaluate scripts nesting limit)
      (.list (.sym SpecialForm.define.name :: [target, e])) c e' c' := hin
    obtain ⟨name, value, hargs⟩ := htakes.takes.2 rfl
    cases hargs
    exact h name rfl

/-! ### Refused once the head is evaluated -/

/-- Where a head has this closure for its value, the call with these arguments fails with an error,
and leaves the chain and the lines that the head has left; the head is all that is evaluated
inside. -/
def RefusedAtHead (scripts : Scripts) (nesting : ℕ) (params : Value) (body args : List Value)
    (error : LispError) : Prop :=
  ∀ limit head c, SpecialForm.ofHead? head = none →
    let atHead := evaluate scripts nesting limit head c
    atHead.outcome = .ok (.closure params body) →
      evaluate scripts nesting (limit + 1) (.list (head :: args)) c =
        ⟨.error (.error error), atHead.chain, atHead.lines, atHead.notes⟩ ∧
      ∀ e' c',
        Inside scripts nesting (evaluate scripts nesting limit) (.list (head :: args)) c e' c' →
          e' = head ∧ c' = c

/-- Of a call in which the value of the head does not take the arguments only the head is
evaluated. -/
theorem Inside.eq_head {eval : Value → Action Value} {head function : Value} {args : List Value}
    {c c' : Chain} {e' : Value} (h : Inside scripts nesting eval (.list (head :: args)) c e' c')
    (hcall : SpecialForm.ofHead? head = none) (hhead : (eval head c).outcome = .ok function)
    (hrefuses : ¬ Takes function args.length) : e' = head ∧ c' = c := by
  cases h with
  | condition => cases hcall
  | branch => cases hcall
  | defined => cases hcall
  | path => cases hcall
  | script => cases hcall
  | head => exact ⟨rfl, rfl⟩
  | argument _ hhead' htakes =>
    cases hhead.symm.trans hhead'
    exact (hrefuses htakes).elim
  | body _ hhead' hnames hlen =>
    cases hhead.symm.trans hhead'
    exact (hrefuses (.closure hnames hlen)).elim

theorem refusedAtHead_of_raise {params : Value} {body args : List Value} {error : LispError}
    (hrefuses : ¬ Takes (.closure params body) args.length)
    (h : ∀ eval, callClosure eval params body args = .raise error) :
    RefusedAtHead scripts nesting params body args error := by
  intro limit head c hcall atHead hhead
  refine ⟨?_, fun e' c' hin => hin.eq_head hcall hhead hrefuses⟩
  rw [evaluate_call scripts nesting limit hcall, Action.bind_ok _ hhead]
  simp only [call, h, Action.raise, Action.fail, List.append_nil]
  rfl

/-- **A closure refuses a wrong number of arguments** once it is the value of the head. -/
theorem refusedAtHead_of_count_ne {names : List String} {args : List Value}
    (h : names.length ≠ args.length) (body : List Value) :
    RefusedAtHead scripts nesting (.list (names.map .sym)) body args
      (.closureArity names.length args.length) := by
  have hnames := formals_eq_ok_iff.mpr (rfl : Value.list (names.map .sym) = _)
  refine refusedAtHead_of_raise (fun htakes => ?_) fun eval =>
    callClosure_of_count_ne eval body args hnames h
  cases htakes with
  | closure hnames' hlen =>
    cases hnames.symm.trans hnames'
    exact h hlen

/-- A closure with malformed parameters refuses any arguments. -/
theorem exists_refusedAtHead_of_malformed {params : Value}
    (h : ∀ names : List String, params ≠ .list (names.map .sym)) (body args : List Value) :
    ∃ error : LispError, error.kind = .type ∧
      RefusedAtHead scripts nesting params body args error := by
  cases hnames : formals params with
  | ok names => exact (h names (formals_eq_ok_iff.mp hnames)).elim
  | error error =>
    refine ⟨error, ?_, refusedAtHead_of_raise (fun htakes => ?_) fun eval =>
      callClosure_of_malformed eval body args hnames⟩
    · rcases formals_error hnames with rfl | rfl <;> rfl
    · cases htakes with
      | closure hnames' => cases hnames.symm.trans hnames'

/-! ### The counts of errors -/

/-- Within an evaluation there is a call that fails by itself with an error, and the error counts
its arguments and expects another number. -/
def RefusedWithin (scripts : Scripts) (nesting limit : ℕ) (e : Value) (c : Chain)
    (error : LispError) : Prop :=
  ∃ left head args c' expected, Within scripts nesting limit e c left (.list (head :: args)) c' ∧
    FailsItself scripts nesting left (.list (head :: args)) c' (.error error) ∧
    error.counts? = some (expected, args.length) ∧ expected ≠ args.length

theorem counts?_of_onlyReadingFails (h : scripts.OnlyReadingFails) {path : String}
    {error : LispError} (hpath : scripts path = .error (.error error)) : error.counts? = none := by
  rcases h path _ hpath with ⟨reason, hreason⟩ | ⟨fault, hfault⟩
  · cases hreason
    rfl
  · cases hfault

theorem counts?_of_fault {fault : Form.Fault} {error : LispError}
    (h : .error error = fault.toFailure) : error.counts? = none := by
  cases fault <;> cases h <;> rfl

/-- **Errors count right**, if they count at all. -/
theorem counts?_of_evaluate (hscripts : scripts.OnlyReadingFails) {limit : ℕ} {e : Value}
    {c : Chain} {error : LispError}
    (h : (evaluate scripts nesting limit e c).outcome = .error (.error error)) :
    error.counts? = none ∨ RefusedWithin scripts nesting limit e c error := by
  obtain ⟨left, e', c', hwithin, hfails⟩ := exists_failsItself h
  rcases hfails.exhausted_or_raised with ⟨-, hf⟩ | hraised
  · cases hf
  · cases hraised with
    | uncounted hnone => exact Or.inl hnone
    | counted hcounts hne => exact Or.inr ⟨left, _, _, c', _, hwithin, hfails, hcounts, hne⟩
    | unread hpath => exact Or.inl (counts?_of_onlyReadingFails hscripts hpath)

end Evaluation

/-! ### Sessions -/

/-- The text that a request is about: the one to be evaluated, or the one of the script. -/
def Request.source? (scripts : Scripts) : Request → Option String
  | .eval text => some text
  | .load path => (scripts path).toOption

namespace Session

open Evaluation

/-- An error that a request ends with comes from one of the forms of its text, or else it counts
nothing. -/
theorem counts?_of_perform {setup : Setup} (hscripts : setup.scripts.OnlyReadingFails) {s : Session}
    {request : Request} {error : LispError}
    (h : (s.perform setup request).outcome = .error (.error error)) :
    error.counts? = none ∨ ∃ text form c, request.source? setup.scripts = some text ∧
      InTurn setup.evaluate (.ofFrame s.root)
        (Form.parseAll setup.limits.nesting (tokenize text)).1 form c ∧
      (setup.evaluate form c).outcome = .error (.error error) := by
  cases request with
  | eval text =>
    have hrun : (evalText setup.limits.nesting setup.evaluate text (.ofFrame s.root)).outcome =
        .error (.error error) := h
    by_cases htokens : tokenize text = []
    · unfold evalText at hrun
      rw [htokens] at hrun
      cases hrun
      exact Or.inl rfl
    · rw [evalText_of_ne htokens] at hrun
      rcases runForms_error hrun with ⟨form, c, hturn, hf⟩ | ⟨fault, -, hfault⟩
      · exact Or.inr ⟨text, form, c, rfl, hturn, hf⟩
      · exact Or.inl (counts?_of_fault hfault)
  | load path =>
    rcases loadScript_error h with ⟨text, form, c, htext, hturn, hf⟩ | hpath | ⟨fault, hfault⟩
    · exact Or.inr ⟨text, form, c, by rw [Request.source?, htext]; rfl, hturn, hf⟩
    · exact Or.inl (counts?_of_onlyReadingFails hscripts hpath)
    · exact Or.inl (counts?_of_fault hfault)

end Session

namespace Evaluation

/-- **A refused call leaves no trace.** A special form with a wrong number of arguments fails with
an error that counts them, a definition of what is no symbol with an error too, and nothing is
evaluated, written or bound by then. Where a head has a closure for its value whose parameters are
malformed or not as many as the arguments, the call fails with nothing done but the head. If scripts
fail only for want of a text, then an error that an evaluation ends with, or any request to a
session, counts no arguments, or else it counts those of the call that was refused with it, and
expects another number. -/
theorem refused_calls_leave_no_trace (scripts : Scripts) (nesting : ℕ) :
    (∀ (form : SpecialForm) (args : List Value), ¬ form.Takes args.length →
      ∃ error : LispError, error.kind = .arity ∧
        error.counts? = some (form.expected, args.length) ∧
        Refused scripts nesting (.list (.sym form.name :: args)) error) ∧
    (∀ target e : Value, (∀ name, target ≠ .sym name) →
      Refused scripts nesting (.list [.sym "let", target, e]) .targetNotASymbol) ∧
    (∀ (names : List String) (body args : List Value), names.length ≠ args.length →
      RefusedAtHead scripts nesting (.list (names.map .sym)) body args
        (.closureArity names.length args.length)) ∧
    (∀ (params : Value) (body args : List Value),
      (∀ names : List String, params ≠ .list (names.map .sym)) →
      ∃ error : LispError, error.kind = .type ∧
        RefusedAtHead scripts nesting params body args error) ∧
    (scripts.OnlyReadingFails → ∀ (error : LispError),
      (∀ (limit : ℕ) (e : Value) (c : Chain),
        (evaluate scripts nesting limit e c).outcome = .error (.error error) →
          error.counts? = none ∨ RefusedWithin scripts nesting limit e c error) ∧
      ∀ (calls : ℕ) (s : Session) (request : Request),
        let setup : Setup := ⟨scripts, calls, nesting⟩
        (s.perform setup request).outcome = .error (.error error) →
          error.counts? = none ∨ ∃ text form c, request.source? scripts = some text ∧
            InTurn setup.evaluate (.ofFrame s.root) (Form.parseAll nesting (tokenize text)).1
              form c ∧
            RefusedWithin scripts nesting calls form c error) := by
  refine ⟨fun form args h => ?_, fun target e h => refused_define h e,
    fun names body args h => refusedAtHead_of_count_ne h body,
    fun params body args h => exists_refusedAtHead_of_malformed h body args,
    fun hscripts error => ⟨fun limit e c h => counts?_of_evaluate hscripts h, ?_⟩⟩
  · exact ⟨form.refusal args.length, form.kind_refusal _, form.counts?_refusal _,
      refused_of_not_takes form h⟩
  · intro calls s request setup h
    rcases Session.counts?_of_perform hscripts h with hnone | ⟨text, form, c, htext, hturn, hf⟩
    · exact Or.inl hnone
    · rcases counts?_of_evaluate hscripts hf with hnone | hrefused
      · exact Or.inl hnone
      · exact Or.inr ⟨text, form, c, htext, hturn, hrefused⟩

/-- A branch with an alternative too many, a closure of two parameters that is called with one
argument by a head that prints, and a script in which such a call stands inside another one. -/
theorem refused_calls_leave_no_trace_printing :
    let scripts := Scripts.ofList [("pair", "(car (f nil))")]
    let f : Value := .closure (.list [.sym "a", .sym "b"]) [.sym "a"]
    let shown : Value := .list [.sym "print", .sym "f"]
    let c := Chain.ofFrame (Frame.ofList [("f", f)])
    let s : Session := ⟨Frame.primitives.define "f" f⟩
    (¬ SpecialForm.branch.Takes 4 ∧ ∃ error : LispError, error.counts? = some (3, 4) ∧
      evaluate scripts 9 9 (.list [.sym "if", shown, shown, shown, shown]) c =
        ⟨.error (.error error), c, [], []⟩) ∧
    ((∀ name, Value.nil ≠ .sym name) ∧ evaluate scripts 9 9 (.list [.sym "let", .nil, shown]) c =
      ⟨.error (.error .targetNotASymbol), c, [], []⟩) ∧
    ((evaluate scripts 9 8 shown c).outcome = .ok f ∧
      evaluate scripts 9 9 (.list [shown, shown]) c =
        ⟨.error (.error (.closureArity 2 1)), c, ["Lambda"], []⟩) ∧
    ((∀ names : List String, Value.list [.nil] ≠ .list (names.map .sym)) ∧
      ∃ error : LispError, error.kind = .type ∧
        RefusedAtHead scripts 9 (.list [.nil]) [.nil] [shown] error) ∧
    scripts.OnlyReadingFails ∧
    (s.perform ⟨scripts, 9, 9⟩ (.load "pair")).outcome = .error (.error (.closureArity 2 1)) ∧
    ∃ text form c', (Request.load "pair").source? scripts = some text ∧
      InTurn (evaluate scripts 9 9) (.ofFrame s.root) (Form.parseAll 9 (tokenize text)).1 form c' ∧
      RefusedWithin scripts 9 9 form c' (.closureArity 2 1) := by
  intro scripts f shown c s
  obtain ⟨hform, hdefine, hcount, hmalformed, hcounts⟩ := refused_calls_leave_no_trace scripts 9
  have hscripts : scripts.OnlyReadingFails := Scripts.onlyReadingFails_ofList _
  have htakes : ¬ SpecialForm.branch.Takes 4 := by decide
  have htarget : ∀ name, Value.nil ≠ .sym name := by simp
  have hparams : ∀ names : List String, Value.list [.nil] ≠ .list (names.map .sym) := by
    intro names
    cases names <;> simp
  obtain ⟨error, -, hbranch, hrefused⟩ := hform .branch [shown, shown, shown, shown] htakes
  have hcall := (hcount ["a", "b"] [.sym "a"] [shown] (by decide) 8 shown c rfl rfl).1
  have hread : Form.parseAll 9 (tokenize "(car (f nil))") =
      ([.list [.sym "car", .list [.sym "f", .nil]]], none) := by
    have htokens : tokenize "(car (f nil))" = ["(", "car", "(", "f", "nil", ")", ")"] := by
      decide +kernel
    have hparse : Form.parse 9 ["(", "car", "(", "f", "nil", ")", ")"] =
      .ok (.list [.sym "car", .list [.sym "f", .nil]], []) := rfl
    rw [htokens, Form.parseAll_of_ok hparse, Form.parseAll_nil]
  have hturn : InTurn (evaluate scripts 9 9) (.ofFrame s.root)
      (Form.parseAll 9 (tokenize "(car (f nil))")).1
      (.list [.sym "car", .list [.sym "f", .nil]]) (.ofFrame s.root) := by
    rw [hread]
    exact .now
  have hout : (s.perform ⟨scripts, 9, 9⟩ (.load "pair")).outcome =
      .error (.error (.closureArity 2 1)) :=
    loadScript_error_of_inTurn rfl hturn rfl
  have hwithin := ((hcounts hscripts (.closureArity 2 1)).2 9 s (.load "pair") hout).resolve_left
    (by simp [LispError.counts?])
  exact ⟨⟨htakes, error, hbranch, hrefused.run 8 c⟩,
    ⟨htarget, (hdefine .nil shown htarget).run 8 c⟩, ⟨rfl, hcall⟩,
    ⟨hparams, hmalformed _ [.nil] [shown] hparams⟩, hscripts, hout, hwithin⟩

end Evaluation
end SmallLisp
