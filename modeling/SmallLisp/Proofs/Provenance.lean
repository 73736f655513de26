/-
# Where functions come from

Code and data are of one type, and still data never becomes code. Whatever a session has read and
done, each closure in it was written as an `fn` form in one of the texts that were read, and each
primitive is one that the session began with (`Session.sourced_of_reached`). So no function ever
stands where an expression is evaluated, and no closure without a body is ever called.

That this holds at every point of a run, and not only between requests, is said by an evaluator
that is watched (`Evaluation.guarded`): a guard looks at every evaluation when it begins and when it
ends, and what the guard objects to is replaced by something else, as are the two cases that should
not occur. If the guard admits what comes from the texts, no session can tell the difference.

Key definitions: `Value.Occurs`, `Value.Sourced`, `Evaluation.stepOr`, `Evaluation.guarded`.
Key theorems: `Form.plain_of_mem_parseAll`, `Session.sourced_of_reached`,
`Session.data_never_becomes_code`.
-/
import SmallLisp.Proofs.Requests

namespace SmallLisp

/-! ### Occurrences -/

/-- A value is another one or a part of it: an item of a list, or a piece of a closure. -/
inductive Value.Occurs (w : Value) : Value → Prop
  | here : Occurs w w
  | item {items : List Value} {v : Value} : v ∈ items → Occurs w v → Occurs w (.list items)
  | params {params : Value} {body : List Value} : Occurs w params → Occurs w (.closure params body)
  | body {params v : Value} {body : List Value} :
    v ∈ body → Occurs w v → Occurs w (.closure params body)

namespace Value

theorem Occurs.trans {u v w : Value} (inner : u.Occurs v) (outer : v.Occurs w) : u.Occurs w := by
  induction outer with
  | here => exact inner
  | item hmem _ ih => exact .item hmem ih
  | params _ ih => exact .params ih
  | body hmem _ ih => exact .body hmem ih

/-- Only the value itself occurs in one without parts. -/
theorem Occurs.eq_of_atom {w v : Value} (h : w.Occurs v) (hlist : ∀ items, v ≠ .list items)
    (hclosure : ∀ params body, v ≠ .closure params body) : w = v := by
  cases h with
  | here => rfl
  | item => exact (hlist _ rfl).elim
  | params => exact (hclosure _ _ rfl).elim
  | body => exact (hclosure _ _ rfl).elim

/-- No function occurs in a value. -/
structure Plain (v : Value) : Prop where
  closures : ∀ params body, ¬ (Value.closure params body).Occurs v
  primitives : ∀ p, ¬ (Value.prim p).Occurs v

theorem Plain.of_occurs {w v : Value} (hv : v.Plain) (h : w.Occurs v) : w.Plain :=
  ⟨fun params body hc => hv.closures params body (hc.trans h),
    fun p hp => hv.primitives p (hp.trans h)⟩

theorem plain_list {items : List Value} (h : ∀ v ∈ items, v.Plain) : (Value.list items).Plain := by
  constructor
  · intro params body hocc
    cases hocc with
    | item hmem hocc => exact (h _ hmem).closures params body hocc
  · intro p hocc
    cases hocc with
    | item hmem hocc => exact (h _ hmem).primitives p hocc

theorem plain_atom {v : Value} (hlist : ∀ items, v ≠ .list items)
    (hclosure : ∀ params body, v ≠ .closure params body) (hprim : ∀ p, v ≠ .prim p) : v.Plain := by
  constructor
  · intro params body hocc
    exact hclosure params body (hocc.eq_of_atom hlist hclosure).symm
  · intro p hocc
    exact hprim p (hocc.eq_of_atom hlist hclosure).symm

/-- An atom that is read is no function. -/
theorem plain_ofToken (t : Token) : (ofToken t).Plain := by
  unfold ofToken
  split_ifs
  · exact plain_atom (by simp) (by simp) (by simp)
  · exact plain_atom (by simp) (by simp) (by simp)
  · exact plain_atom (by simp) (by simp) (by simp)
  · split
    · exact plain_atom (by simp) (by simp) (by simp)
    · split
      · exact plain_atom (by simp) (by simp) (by simp)
      · exact plain_atom (by simp) (by simp) (by simp)

end Value

/-- The reader makes no functions. -/
theorem Form.plain_of_mem_parseAll {nesting : ℕ} {tokens : List Token} :
    ∀ form ∈ (Form.parseAll nesting tokens).1, form.Plain :=
  Form.forall_parseAll (fun _ => Value.plain_list) tokens fun t _ _ => Value.plain_ofToken t

/-! ### Values that come from forms -/

/-- Every closure in a value has a body and is written as an `fn` form somewhere in some forms, and
every primitive in it is bound under its name in a fresh session. -/
structure Value.Sourced (forms : List Value) (v : Value) : Prop where
  closures : ∀ params body, (Value.closure params body).Occurs v →
    body ≠ [] ∧ ∃ form ∈ forms, (Value.list (.sym "fn" :: params :: body)).Occurs form
  primitives : ∀ p, (Value.prim p).Occurs v → (p.name, .prim p) ∈ Session.fresh.root.entries

/-- All values in the frames of a chain come from some forms. -/
def Chain.Sourced (forms : List Value) (c : Chain) : Prop :=
  ∀ f ∈ c.frames, ∀ b ∈ f.entries, b.2.Sourced forms

theorem mem_fresh_entries (p : Primitive) : (p.name, .prim p) ∈ Session.fresh.root.entries := by
  refine (Frame.mem_entries_iff _ _ _).mpr ?_
  rcases p with op | relation | _ | _ | _ | _
  · cases op <;> rfl
  · cases relation <;> rfl
  all_goals rfl

namespace Value

variable {forms : List Value}

theorem Sourced.mono {v : Value} (h : v.Sourced forms) (more : List Value) :
    v.Sourced (forms ++ more) :=
  ⟨fun params body hocc => by
    obtain ⟨hne, form, hform, hfn⟩ := h.closures params body hocc
    exact ⟨hne, form, List.mem_append_left _ hform, hfn⟩, h.primitives⟩

theorem Plain.sourced {v : Value} (h : v.Plain) : v.Sourced forms :=
  ⟨fun params body hocc => (h.closures params body hocc).elim,
    fun p hocc => (h.primitives p hocc).elim⟩

theorem sourced_list {items : List Value} :
    (Value.list items).Sourced forms ↔ ∀ v ∈ items, v.Sourced forms := by
  constructor
  · intro h v hv
    exact ⟨fun params body hocc => h.closures params body (.item hv hocc),
      fun p hocc => h.primitives p (.item hv hocc)⟩
  · intro h
    constructor
    · intro params body hocc
      cases hocc with
      | item hmem hocc => exact (h _ hmem).closures params body hocc
    · intro p hocc
      cases hocc with
      | item hmem hocc => exact (h _ hmem).primitives p hocc

theorem sourced_prim (p : Primitive) : (Value.prim p).Sourced forms := by
  constructor
  · intro params body hocc
    cases hocc
  · intro p' hocc
    cases hocc
    exact mem_fresh_entries p

/-- An `fn` form that is written in the forms makes a closure that comes from them. -/
theorem sourced_closure (hforms : ∀ form ∈ forms, form.Plain) {params form : Value}
    {body : List Value}
    (hfn : ∃ e ∈ forms, (Value.list (.sym "fn" :: params :: form :: body)).Occurs e) :
    (Value.closure params (form :: body)).Sourced forms := by
  obtain ⟨e, he, hocc⟩ := hfn
  have hplain := (hforms e he).of_occurs hocc
  have hpart : ∀ v ∈ params :: form :: body, v.Plain := fun v hv =>
    hplain.of_occurs (.item (List.mem_cons_of_mem _ hv) .here)
  constructor
  · intro params' body' h
    cases h with
    | here => exact ⟨List.cons_ne_nil _ _, e, he, hocc⟩
    | params h => exact ((hpart _ List.mem_cons_self).closures _ _ h).elim
    | body hmem h => exact ((hpart _ (List.mem_cons_of_mem _ hmem)).closures _ _ h).elim
  · intro p h
    cases h with
    | params h => exact ((hpart _ List.mem_cons_self).primitives _ h).elim
    | body hmem h => exact ((hpart _ (List.mem_cons_of_mem _ hmem)).primitives _ h).elim

end Value

namespace Evaluation

/-! ### Evaluation under a watch -/

/-- One evaluation in which something else happens where nothing should: at a function that stands
for an expression, and at a call of a closure without a body. -/
def stepOr (instead : Action Value) (scripts : Scripts) (nesting : ℕ)
    (eval : Value → Action Value) : Value → Action Value
  | .list (head :: args) =>
    match SpecialForm.ofHead? head with
    | some form => evalSpecial scripts nesting eval form args
    | none => do
      match ← eval head with
      | .closure _ [] => instead
      | f => call eval f args
  | .prim _ => instead
  | .closure .. => instead
  | e => step scripts nesting eval e

/-- Looks at the expression and the chain of every evaluation that begins, and at the run of every
one that has ended. -/
structure Guard where
  entry : Value → Chain → Bool
  exit : Run Value → Bool

/-- Evaluation under a watch: what the guard objects to is replaced by something else. -/
def guarded (g : Guard) (instead : Action Value) (scripts : Scripts) (nesting : ℕ) :
    ℕ → Value → Action Value
  | 0 => fun _ => .fail .stackExhausted
  | limit + 1 => fun e c =>
    if g.entry e c then
      let after := stepOr instead scripts nesting (guarded g instead scripts nesting limit) e c
      if g.exit after then after else instead c
    else instead c

/-- The guard lets pass what comes from some forms: their parts as expressions, in chains of values
that come from them, and runs with such values that do not fail for a function in the wrong
place. -/
structure Guard.Admits (g : Guard) (forms : List Value) : Prop where
  entry : ∀ e c, (∃ form ∈ forms, e.Occurs form) → c.Sourced forms → g.entry e c = true
  exit : ∀ r : Run Value, r.chain.Sourced forms → (∀ v, r.outcome = .ok v → v.Sourced forms) →
    r.outcome ≠ .error (.error .functionAsForm) → g.exit r = true

/-- The guard that lets no function stand for an expression, and no run end with the failure that
this would be. -/
def Guard.noFunctions : Guard where
  entry e _ :=
    match e with
    | .prim _ => false
    | .closure .. => false
    | _ => true
  exit r :=
    match r.outcome with
    | .error (.error .functionAsForm) => false
    | _ => true

theorem Guard.admits_noFunctions {forms : List Value} (hforms : ∀ form ∈ forms, form.Plain) :
    Guard.noFunctions.Admits forms := by
  constructor
  · rintro e c ⟨form, hform, hocc⟩ -
    have hplain := (hforms form hform).of_occurs hocc
    unfold noFunctions
    cases e with
    | prim p => exact (hplain.primitives p .here).elim
    | closure params body => exact (hplain.closures params body .here).elim
    | _ => rfl
  · intro r _ _ hf
    simp only [noFunctions]

/-! ### The discipline of the forms that are read -/

section Forms

variable {scripts : Scripts} {nesting : ℕ} {forms : List Value}

/-- Only parts of the forms are evaluated, if all scripts that are read are among the forms. -/
def Discipline.ofForms (hforms : ∀ form ∈ forms, form.Plain) (hscripts : scripts.OnlyReadingFails)
    (nesting : ℕ) : Discipline scripts nesting where
  code e := ∃ form ∈ forms, e.Occurs form
  value v := v.Sourced forms
  failure f := f ≠ .error .functionAsForm
  note n := ∀ path text, n = .loading path → scripts path = .ok text →
    ∀ form ∈ (Form.parseAll nesting (tokenize text)).1, form ∈ forms
  code_item := fun ⟨form, hform, hocc⟩ e he => ⟨form, hform, (Value.Occurs.item he .here).trans hocc⟩
  code_body := by
    intro params body hv e he
    obtain ⟨-, form, hform, hocc⟩ := hv.closures params body .here
    have hpart : e ∈ .sym "fn" :: params :: body := by simp [he]
    exact ⟨form, hform, (Value.Occurs.item hpart .here).trans hocc⟩
  code_script hnote htext form hform := ⟨form, hnote _ _ rfl htext form hform, .here⟩
  value_code := fun ⟨form, hform, hocc⟩ => ((hforms form hform).of_occurs hocc).sourced
  value_lambda hcode := Value.sourced_closure hforms hcode
  value_nil := (Value.plain_atom (by simp) (by simp) (by simp)).sourced
  value_bool _ := (Value.plain_atom (by simp) (by simp) (by simp)).sourced
  value_num _ := (Value.plain_atom (by simp) (by simp) (by simp)).sourced
  value_list := Value.sourced_list
  failure_error he h := he (by cases h; rfl)
  failure_function := by
    rintro e ⟨form, hform, hocc⟩ (⟨p, rfl⟩ | ⟨params, body, rfl⟩)
    · exact ((hforms form hform).primitives p hocc).elim
    · exact ((hforms form hform).closures params body hocc).elim
  failure_exhausted := by simp
  failure_script := by
    intro path f h
    rcases hscripts path f h with ⟨reason, rfl⟩ | ⟨fault, rfl⟩ <;> simp

/-- An evaluation in a chain of values that come from the forms, compared with another one in the
same chain. -/
def Simulation.ofForms (hforms : ∀ form ∈ forms, form.Plain) (hscripts : scripts.OnlyReadingFails)
    (nesting : ℕ) : Simulation scripts nesting where
  toDiscipline := .ofForms hforms hscripts nesting
  chains c d := c = d ∧ c.Sourced forms
  excused _ := False
  lookup := by
    rintro c _ ⟨rfl, hc⟩ name
    exact Or.inl ⟨rfl, fun v hv => Chain.Forall.lookup hc hv⟩
  define := by
    rintro c _ ⟨rfl, hc⟩ n v - hv
    exact ⟨rfl, Chain.Forall.define hc hv⟩
  push := by
    rintro c _ ⟨rfl, hc⟩ f hf
    exact ⟨rfl, Chain.Forall.push hc fun b hb => (hf b hb).2⟩
  sorted := by
    rintro c _ ⟨rfl, -⟩
    rfl

variable (hforms : ∀ form ∈ forms, form.Plain) (hscripts : scripts.OnlyReadingFails)

/-- The cases that should not occur do not. -/
theorem related_stepOr (instead : Action Value) {eval eval' : Value → Action Value}
    (heval : ∀ e, (∃ form ∈ forms, e.Occurs form) →
      (Simulation.ofForms hforms hscripts nesting).Related (Value.Sourced forms) (eval e) (eval' e))
    {e : Value} (he : ∃ form ∈ forms, e.Occurs form) :
    (Simulation.ofForms hforms hscripts nesting).Related (Value.Sourced forms)
      (step scripts nesting eval e) (stepOr instead scripts nesting eval' e) := by
  have hstep : (Simulation.ofForms hforms hscripts nesting).Related (Value.Sourced forms)
      (step scripts nesting eval e) (step scripts nesting eval' e) :=
    Simulation.related_step heval he
  cases e with
  | prim p =>
    obtain ⟨form, hform, hocc⟩ := he
    exact ((hforms form hform).primitives p hocc).elim
  | closure params body =>
    obtain ⟨form, hform, hocc⟩ := he
    exact ((hforms form hform).closures params body hocc).elim
  | list items =>
    cases items with
    | nil => exact hstep
    | cons head args =>
      have hitem : ∀ e ∈ head :: args, ∃ form ∈ forms, e.Occurs form :=
        (Discipline.ofForms hforms hscripts nesting).code_item he
      cases hform : SpecialForm.ofHead? head with
      | some form => simpa only [step, stepOr, hform] using hstep
      | none =>
        simp only [step, stepOr, hform]
        refine (heval head (hitem head List.mem_cons_self)).bind fun f hf => ?_
        have hcall := Simulation.related_call (S := .ofForms hforms hscripts nesting) heval hf
          fun e h => hitem e (List.mem_cons_of_mem _ h)
        split
        · exact ((hf.closures _ _ .here).1 rfl).elim
        · exact hcall
  | _ => exact hstep

/-- A guard that admits what comes from the forms has nothing to object to. -/
theorem related_guarded {g : Guard} (hg : g.Admits forms) (instead : Action Value) :
    ∀ (limit : ℕ) (e : Value), (∃ form ∈ forms, e.Occurs form) →
      (Simulation.ofForms hforms hscripts nesting).Related (Value.Sourced forms)
        (evaluate scripts nesting limit e) (guarded g instead scripts nesting limit e)
  | 0, _, _ => Simulation.related_fail (by simp [Simulation.ofForms, Discipline.ofForms])
  | limit + 1, e, he => by
    have hstep := related_stepOr hforms hscripts instead
      (related_guarded hg instead limit) he
    rintro c _ ⟨rfl, hc⟩ hnotes
    rcases hstep c c ⟨rfl, hc⟩ hnotes with ⟨_, hfalse, _⟩ | h
    · exact hfalse.elim
    · right
      have hexit : g.exit
          (stepOr instead scripts nesting (guarded g instead scripts nesting limit) e c) = true := by
        refine hg.exit _ (h.chains.1 ▸ h.chains.2) (fun v hv => ?_) fun hf => ?_
        · exact h.value v (h.outcome.trans hv)
        · exact h.failure _ (h.outcome.trans hf) rfl
      unfold guarded
      simp only [hg.entry e c he hc, hexit, if_true]
      exact h

end Forms
end Evaluation

/-! ### Sessions -/

namespace Session

open Evaluation

variable {forms : List Value} {s : Session}

/-- What a request reads adds no functions to the forms. -/
theorem plain_append (hforms : ∀ form ∈ forms, form.Plain) (setup : Setup) (notes : List Note)
    (request : Request) : ∀ form ∈ forms ++ request.forms setup notes, form.Plain := by
  intro form hform
  rcases List.mem_append.mp hform with hform | hform
  · exact hforms form hform
  · obtain ⟨text, -, hform⟩ := List.mem_flatMap.mp hform
    exact Form.plain_of_mem_parseAll form hform

/-- A request to a session whose values come from some forms, if what it reads is among them. -/
theorem matches_request (hforms : ∀ form ∈ forms, form.Plain)
    (hroot : ∀ b ∈ s.root.entries, b.2.Sourced forms) (setup : Setup) (request : Request)
    (hscripts : setup.scripts.OnlyReadingFails)
    (hread : ∀ form ∈ request.forms setup (s.perform setup request).notes, form ∈ forms)
    (eval' : Value → Action Value)
    (heval : ∀ e, (∃ form ∈ forms, e.Occurs form) →
      (Simulation.ofForms hforms hscripts setup.limits.nesting).Related (Value.Sourced forms)
        (setup.evaluate e) (eval' e)) :
    (Simulation.ofForms hforms hscripts setup.limits.nesting).Matches (Value.Sourced forms)
      (.ofFrame s.root) (.ofFrame s.root)
      (request.action setup.scripts setup.limits.nesting setup.evaluate (.ofFrame s.root))
      (request.action setup.scripts setup.limits.nesting eval' (.ofFrame s.root)) := by
  have hchain : (Chain.ofFrame s.root).Sourced forms := Chain.forall_ofFrame hroot
  have hrelated : (Simulation.ofForms hforms hscripts setup.limits.nesting).Related
      (Value.Sourced forms) (request.action setup.scripts setup.limits.nesting setup.evaluate)
      (request.action setup.scripts setup.limits.nesting eval') :=
    Request.related_action heval fun text htext form hform =>
      ⟨form, hread form (htext ▸ Request.mem_forms_of_text form hform), .here⟩
  rw [perform_eq_run] at hread
  rcases hrelated _ _ ⟨rfl, hchain⟩ fun _ hn _ _ hnote htext form hform =>
    hread form (request.mem_forms_of_note (hnote ▸ hn) htext form hform) with ⟨_, hfalse, _⟩ | h
  · exact hfalse.elim
  · exact h

/-- **All values in a session come from the forms that were read.** -/
theorem sourced_of_reached (hs : Reached forms s) :
    (∀ form ∈ forms, form.Plain) ∧ ∀ b ∈ s.root.entries, b.2.Sourced forms := by
  induction hs with
  | fresh =>
    refine ⟨by simp, Frame.forall_ofList fun b hb => ?_⟩
    obtain ⟨p, -, rfl⟩ := List.mem_map.mp hb
    exact Value.sourced_prim p
  | @next forms s setup request hscripts _ ih =>
    have hplain := plain_append ih.1 setup (s.perform setup request).notes request
    have h := matches_request hplain (fun b hb => (ih.2 b hb).mono _) setup request hscripts
      (fun _ => List.mem_append_right _) _ fun e he => Simulation.related_evaluate _ e he
    refine ⟨hplain, fun b hb => h.chains.2 _ List.mem_cons_self b ?_⟩
    rwa [perform_eq_run] at hb

/-- **Data never becomes code.** Whatever a session has been asked for so far, and however that
ended, its values come from the forms that were read, the answer to any further request does, and
no answer is that a function was met where an expression should be. This is so all the time while
the request is on its way: no watch that admits what comes from the forms ever has anything to
object to, and what would be done instead, there or where a closure without a body is called, is
never done. -/
theorem data_never_becomes_code (hs : Reached forms s) :
    (∀ b ∈ s.root.entries, b.2.Sourced forms) ∧
    ∀ (setup : Setup) (request : Request), setup.scripts.OnlyReadingFails →
      let reply := s.perform setup request
      let known := forms ++ request.forms setup reply.notes
      (∀ v, reply.outcome = .ok v → v.Sourced known) ∧
      reply.outcome ≠ .error (.error .functionAsForm) ∧
      ∀ (g : Guard) (instead : Action Value), g.Admits known →
        s.run (request.action setup.scripts setup.limits.nesting
          (guarded g instead setup.scripts setup.limits.nesting setup.limits.calls)) = reply := by
  obtain ⟨hforms, hroot⟩ := sourced_of_reached hs
  refine ⟨hroot, fun setup request hscripts => ?_⟩
  have hplain := plain_append hforms setup (s.perform setup request).notes request
  have hmatches := matches_request hplain (fun b hb => (hroot b hb).mono _) setup request hscripts
    fun _ => List.mem_append_right _
  refine ⟨fun v hv => ?_, fun hf => ?_, fun g instead hg => ?_⟩
  · rw [perform_eq_run] at hv
    exact (hmatches _ fun e he => Simulation.related_evaluate _ e he).value v hv
  · rw [perform_eq_run] at hf
    exact (hmatches _ fun e he => Simulation.related_evaluate _ e he).failure _ hf rfl
  · have h := hmatches _ fun e he => related_guarded hplain hscripts hg instead _ e he
    rw [perform_eq_run, run, run, h.outcome, h.lines, h.notes, h.chains.1]

/-- A script that defines a function which prints its argument. -/
def printer : Setup := ⟨.ofList [("printer", "(let show (fn (x) (print x)))")], ⟨9, 9⟩⟩

theorem data_never_becomes_code_printer :
    let first := fresh.perform printer (.load "printer")
    let forms := [] ++ (Request.load "printer").forms printer first.notes
    let request := Request.eval "(show show)"
    let reply := first.session.perform printer request
    Reached forms first.session ∧ printer.scripts.OnlyReadingFails ∧
      Guard.noFunctions.Admits (forms ++ request.forms printer reply.notes) ∧
      reply.lines = ["Lambda"] ∧ reply.outcome ≠ .error (.error .functionAsForm) ∧
      first.session.run (request.action printer.scripts printer.limits.nesting
        (guarded .noFunctions (.raise .noToken) printer.scripts printer.limits.nesting
          printer.limits.calls)) = reply := by
  intro first forms request reply
  have hscripts : printer.scripts.OnlyReadingFails := Scripts.onlyReadingFails_ofList _
  have hs : Reached forms first.session := .next printer (.load "printer") hscripts .fresh
  have hadmits : Guard.noFunctions.Admits (forms ++ request.forms printer reply.notes) :=
    Guard.admits_noFunctions (plain_append (sourced_of_reached hs).1 printer reply.notes request)
  obtain ⟨-, hall⟩ := data_never_becomes_code hs
  obtain ⟨-, hout, hguarded⟩ := hall printer request hscripts
  have hlines : reply.lines = ["Lambda"] := by decide +kernel
  exact ⟨hs, hscripts, hadmits, hlines, hout, hguarded _ _ hadmits⟩

end Session
end SmallLisp
