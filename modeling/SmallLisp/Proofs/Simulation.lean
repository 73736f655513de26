/-
# Evaluations side by side

Most of what is true of all evaluations is shown by comparing two of them, step by step: of one
expression in two chains, under two limits, or by two evaluators; and where only one evaluation is
at stake, it is compared with itself. A `Simulation` says what is compared: which chains correspond
to each other, what may be evaluated, what values and failures may come of it, and which failures
excuse the first evaluation from being compared any further. Two actions are related
(`Simulation.Related`) if, begun in corresponding chains, they end alike in chains that correspond
again, and have done nothing to the frames that they began with but to add names to the innermost
one.

All the rest is one walk through the evaluator, a lemma for each of its functions: if the
evaluations inside are related, so are those made of them (`Simulation.related_step`). Instances
follow by induction on the limit.

Key definitions: `Evaluation.Discipline`, `Evaluation.Simulation`, `Simulation.Related`.
Key theorems: `Simulation.Related.bind`, `Simulation.related_step`, `Simulation.related_evaluate`.
-/
import SmallLisp.Proofs.Buffer
import SmallLisp.Proofs.Chains
import SmallLisp.Proofs.Equations
import SmallLisp.Proofs.Primitives

namespace SmallLisp

namespace Evaluation

/-- What may be evaluated and what may come of it, closed under all that an evaluation does. -/
structure Discipline (scripts : Scripts) (nesting : ℕ) where
  /-- The expressions that may be evaluated. -/
  code : Value → Prop
  /-- The values that may come of them. -/
  value : Value → Prop
  /-- The failures that may come of them. -/
  failure : Failure → Prop
  /-- The notes that are taken; what a script may hold is known only if it is noted. -/
  note : Note → Prop
  /-- The names that may be bound. -/
  name : String → Prop := fun _ => True
  /-- The lines that may be written. -/
  line : String → Prop := fun _ => True
  code_item : ∀ {items : List Value}, code (.list items) → ∀ e ∈ items, code e
  code_body : ∀ {params : Value} {body : List Value},
    value (.closure params body) → ∀ e ∈ body, code e
  code_script : ∀ {path text : String}, note (.loading path) → scripts path = .ok text →
    ∀ form ∈ (Form.parseAll nesting (tokenize text)).1, code form
  /-- `print` gives what is written, and atoms mean themselves. -/
  value_code : ∀ {e : Value}, code e → value e
  value_lambda : ∀ {params form : Value} {body : List Value},
    code (.list (.sym SpecialForm.lambda.name :: params :: form :: body)) →
      value (.closure params (form :: body))
  value_nil : value .nil
  value_bool : ∀ b, value (.bool b)
  value_num : ∀ x, value (.num x)
  value_list : ∀ {items : List Value}, value (.list items) ↔ ∀ v ∈ items, value v
  failure_error : ∀ {e : LispError}, e ≠ .functionAsForm → failure (.error e)
  failure_function : ∀ {e : Value}, code e → (∃ p, e = .prim p) ∨ (∃ ps body, e = .closure ps body) →
    failure (.error .functionAsForm)
  failure_exhausted : failure .stackExhausted
  failure_script : ∀ {path : String} {f : Failure}, scripts path = .error f → failure f
  code_name : ∀ {n : String}, code (.sym n) → name n := by intros; trivial
  value_params : ∀ {items body : List Value}, value (.closure (.list items) body) →
    ∀ {n : String}, .sym n ∈ items → name n := by intros; trivial
  line_value : ∀ {v : Value}, value v → line v.render := by intros; trivial
  line_binding : ∀ {n : String} {v : Value}, name n → value v → line (n ++ ": " ++ v.render) := by
    intros; trivial

/-- The discipline under which everything may be evaluated and anything may come of it. -/
def Discipline.unrestricted (scripts : Scripts) (nesting : ℕ) : Discipline scripts nesting where
  code _ := True
  value _ := True
  failure _ := True
  note _ := True
  code_item _ _ _ := trivial
  code_body _ _ _ := trivial
  code_script _ _ _ _ := trivial
  value_code _ := trivial
  value_lambda _ := trivial
  value_nil := trivial
  value_bool _ := trivial
  value_num _ := trivial
  value_list := ⟨fun _ _ _ => trivial, fun _ => trivial⟩
  failure_error _ := trivial
  failure_function _ _ := trivial
  failure_exhausted := trivial
  failure_script _ := trivial

/-- Which chains correspond to each other, under a discipline. -/
structure Simulation (scripts : Scripts) (nesting : ℕ) extends Discipline scripts nesting where
  chains : Chain → Chain → Prop
  /-- The failures of the first evaluation after which the second may do as it likes. -/
  excused : Failure → Prop
  lookup : ∀ {c d : Chain}, chains c d → ∀ name,
    (c.lookup? name = d.lookup? name ∧ ∀ v, c.lookup? name = some v → value v) ∨
      (c.lookup? name = none ∧ excused (.error (.unbound name)))
  define : ∀ {c d : Chain}, chains c d → ∀ {n v}, name n → value v →
    chains (c.define n v) (d.define n v)
  push : ∀ {c d : Chain}, chains c d → ∀ {f : Frame}, (∀ b ∈ f.entries, name b.1 ∧ value b.2) →
    chains (c.push f) (d.push f)
  sorted : ∀ {c d : Chain}, chains c d → c.inner.sorted = d.inner.sorted
  listed : ∀ {c d : Chain}, chains c d → ∀ b ∈ c.inner.entries,
    line (b.1 ++ ": " ++ b.2.render) := by intros; trivial

namespace Simulation

variable {scripts : Scripts} {nesting : ℕ} {α β : Type}

/-- The first of two runs has failed in a way that excuses it; up to there the second one has
written the same. -/
def Excuses (S : Simulation scripts nesting) (r r' : Run α) : Prop :=
  ∃ f, S.excused f ∧ r.outcome = .error f ∧ r.lines <+: r'.lines

/-- Two runs, begun in two chains, are alike, and their value, if they have one, is as expected. -/
structure Matches (S : Simulation scripts nesting) (expected : α → Prop) (c d : Chain)
    (r r' : Run α) : Prop where
  outcome : r.outcome = r'.outcome
  lines : r.lines = r'.lines
  notes : r.notes = r'.notes
  chains : S.chains r.chain r'.chain
  grows : c.GrowsTo r.chain
  grows' : d.GrowsTo r'.chain
  value : ∀ a, r.outcome = .ok a → expected a
  failure : ∀ f, r.outcome = .error f → S.failure f
  written : ∀ line ∈ r.lines, S.line line

/-- Two actions do alike in chains that correspond. -/
def Related (S : Simulation scripts nesting) (expected : α → Prop) (m m' : Action α) : Prop :=
  ∀ c d, S.chains c d → (∀ n ∈ (m c).notes, S.note n) →
    S.Excuses (m c) (m' d) ∨ S.Matches expected c d (m c) (m' d)

variable {S : Simulation scripts nesting} {expected : α → Prop} {expected' : β → Prop}

/-! ### The ways of building actions -/

/-- Two runs that leave their chains alone and agree in all else are alike. -/
theorem matches_still {c d : Chain} (hcd : S.chains c d) {outcome : Except Failure α}
    (hvalue : ∀ a, outcome = .ok a → expected a) (hfailure : ∀ f, outcome = .error f → S.failure f)
    {lines : List String} (hlines : ∀ line ∈ lines, S.line line) (notes : List Note) :
    S.Matches expected c d ⟨outcome, c, lines, notes⟩ ⟨outcome, d, lines, notes⟩ :=
  ⟨rfl, rfl, rfl, hcd, .refl c, .refl d, hvalue, hfailure, hlines⟩

theorem related_pure {a : α} (ha : expected a) : S.Related expected (pure a) (pure a) :=
  fun _ _ hcd _ => Or.inr (matches_still hcd (fun _ h => by cases h; exact ha)
    (fun _ h => by cases h) (List.forall_mem_nil _) [])

theorem related_fail {f : Failure} (hf : S.failure f) :
    S.Related expected (Action.fail f) (Action.fail f) :=
  fun _ _ hcd _ => Or.inr (matches_still hcd (fun _ h => by cases h)
    (fun _ h => by cases h; exact hf) (List.forall_mem_nil _) [])

theorem related_raise {e : LispError} (he : e ≠ .functionAsForm) :
    S.Related expected (Action.raise e) (Action.raise e) :=
  related_fail (S.failure_error he)

/-- **Related actions with related continuations are related.** -/
theorem Related.bind {m m' : Action α} {k k' : α → Action β} (hm : S.Related expected m m')
    (hk : ∀ a, expected a → S.Related expected' (k a) (k' a)) :
    S.Related expected' (m >>= k) (m' >>= k') := by
  intro c d hcd hnotes
  have hfirst : ∀ n ∈ (m c).notes, S.note n := fun n hn =>
    hnotes n (Action.notes_subset_bind m k c hn)
  rcases hm c d hcd hfirst with ⟨f, hf, hout, hlines⟩ | h
  · left
    rw [Action.bind_error k hout]
    exact ⟨f, hf, rfl, hlines.trans (Action.lines_prefix_bind m' k' d)⟩
  · cases hout : (m c).outcome with
    | error f =>
      right
      rw [Action.bind_error k hout, Action.bind_error k' (h.outcome ▸ hout)]
      refine ⟨rfl, h.lines, h.notes, h.chains, h.grows, h.grows', (fun _ h' => by cases h'), ?_,
        h.written⟩
      intro f' h'
      cases h'
      exact h.failure f hout
    | ok a =>
      have hnotes' : ∀ n ∈ (k a (m c).chain).notes, S.note n := fun n hn =>
        hnotes n (by rw [Action.bind_ok k hout]; exact List.mem_append_right _ hn)
      rw [Action.bind_ok k hout, Action.bind_ok k' (h.outcome ▸ hout)]
      rcases hk a (h.value a hout) _ _ h.chains hnotes' with ⟨f, hf, hout', hlines⟩ | h'
      · left
        refine ⟨f, hf, hout', ?_⟩
        rw [h.lines]
        exact (List.prefix_append_right_inj _).mpr hlines
      · right
        exact ⟨h'.outcome, by rw [h.lines, h'.lines], by rw [h.notes, h'.notes], h'.chains,
          h.grows.trans h'.grows, h.grows'.trans h'.grows', h'.value, h'.failure,
          List.forall_mem_append.mpr ⟨h.written, h'.written⟩⟩

theorem related_ofExcept {x : Except LispError α} (hok : ∀ a, x = .ok a → expected a)
    (herror : x ≠ .error .functionAsForm) :
    S.Related expected (Action.ofExcept x) (Action.ofExcept x) := by
  cases x with
  | ok a => exact related_pure (hok a rfl)
  | error e => exact related_raise fun he => herror (he ▸ rfl)

theorem related_lookup (name : String) :
    S.Related S.value (Action.lookup name) (Action.lookup name) := by
  intro c d hcd _
  unfold Action.lookup
  rcases S.lookup hcd name with ⟨heq, hvalue⟩ | ⟨hnone, hexc⟩
  · right
    rw [← heq]
    cases hl : c.lookup? name with
    | none =>
      refine matches_still hcd (fun _ h => by cases h) (fun _ h => ?_) (List.forall_mem_nil _) []
      cases h
      exact S.failure_error (by simp)
    | some v =>
      refine matches_still hcd (fun _ h => ?_) (fun _ h => by cases h) (List.forall_mem_nil _) []
      cases h
      exact hvalue v hl
  · left
    rw [hnone]
    exact ⟨_, hexc, rfl, List.nil_prefix⟩

theorem related_define {n : String} (hn : S.name n) {v : Value} (hv : S.value v) :
    S.Related (fun _ => True) (Action.define n v) (Action.define n v) :=
  fun c d hcd _ => Or.inr ⟨rfl, rfl, rfl, S.define hcd hn hv, c.growsTo_define n v,
    d.growsTo_define n v, fun _ _ => trivial, (fun _ h => by cases h), List.forall_mem_nil _⟩

theorem related_writeLine {line : String} (hline : S.line line) :
    S.Related (fun _ => True) (Action.writeLine line) (Action.writeLine line) :=
  fun _ _ hcd _ => Or.inr (matches_still hcd (fun _ _ => trivial) (fun _ h => by cases h)
    (List.forall_mem_singleton.mpr hline) [])

theorem related_note (n : Note) : S.Related (fun _ => True) (Action.note n) (Action.note n) :=
  fun _ _ hcd _ => Or.inr (matches_still hcd (fun _ _ => trivial) (fun _ h => by cases h)
    (List.forall_mem_nil _) [n])

/-- What related actions do inside a new frame is over with that frame: the chains around it are
what they were. -/
theorem Related.within {f : Frame} (hf : ∀ b ∈ f.entries, S.name b.1 ∧ S.value b.2)
    {m m' : Action α} (hm : S.Related expected m m') :
    S.Related expected (.within f m) (.within f m') := by
  intro c d hcd hnotes
  rcases hm _ _ (S.push hcd hf) hnotes with hexc | h
  · exact Or.inl hexc
  · have hc : ((Action.within f m) c).chain = c := h.grows.pop_eq
    have hd : ((Action.within f m') d).chain = d := h.grows'.pop_eq
    exact Or.inr ⟨h.outcome, h.lines, h.notes, by rwa [hc, hd], by rw [hc]; exact .refl c,
      by rw [hd]; exact .refl d, h.value, h.failure, h.written⟩

/-! ### The functions of the evaluator -/

section Walk

variable {eval eval' : Value → Action Value}
variable (heval : ∀ e, S.code e → S.Related S.value (eval e) (eval' e))
include heval

theorem related_evalAll : ∀ es : List Value, (∀ e ∈ es, S.code e) →
    S.Related (fun vs => ∀ v ∈ vs, S.value v) (evalAll eval es) (evalAll eval' es)
  | [], _ => related_pure (by simp)
  | e :: es, hes => by
    refine (heval e (hes e List.mem_cons_self)).bind fun v hv => ?_
    refine (related_evalAll es fun e he => hes e (List.mem_cons_of_mem _ he)).bind fun vs hvs => ?_
    exact related_pure (List.forall_mem_cons.mpr ⟨hv, hvs⟩)

theorem related_evalLast : ∀ (es : List Value) (before : Value), S.value before →
    (∀ e ∈ es, S.code e) → S.Related S.value (evalLast eval before es) (evalLast eval' before es)
  | [], _, hbefore, _ => related_pure hbefore
  | e :: es, _, _, hes => by
    refine (heval e (hes e List.mem_cons_self)).bind fun v hv => ?_
    exact related_evalLast es v hv fun e he => hes e (List.mem_cons_of_mem _ he)

theorem related_callClosure {params : Value} {body args : List Value}
    (hf : S.value (.closure params body)) (hargs : ∀ e ∈ args, S.code e) :
    S.Related S.value (callClosure eval params body args) (callClosure eval' params body args) := by
  have hformals : S.Related (fun names => ∀ n ∈ names, S.name n) (Action.ofExcept (formals params))
      (Action.ofExcept (formals params)) := by
    refine related_ofExcept (fun names h n hn => ?_) (formals_ne params)
    obtain rfl := formals_eq_ok_iff.mp h
    exact S.value_params hf (List.mem_map_of_mem hn)
  refine hformals.bind fun names hnames => ?_
  split
  · refine (related_evalAll heval args hargs).bind fun values hvalues => ?_
    refine Related.within (Frame.forall_ofList fun b hb => ?_) ?_
    · exact ⟨hnames b.1 (List.of_mem_zip hb).1, hvalues b.2 (List.of_mem_zip hb).2⟩
    exact related_evalLast heval body .nil S.value_nil (S.code_body hf)
  · exact related_raise (by simp)

/-- A call, of whatever stands for a function. -/
theorem related_call {head : Value} {args : List Value} (hhead : S.value head)
    (hargs : ∀ e ∈ args, S.code e) :
    S.Related S.value (call eval head args) (call eval' head args) := by
  cases head with
  | prim p =>
    refine (related_evalAll heval args hargs).bind fun values hvalues => ?_
    refine related_ofExcept (fun v hv => ?_) fun he => ?_
    · exact Primitive.forall_apply S.value_nil S.value_bool S.value_num (fun _ => S.value_list)
        hvalues hv
    · rcases Primitive.kind_of_apply_error he with h | h | h <;> cases h
  | closure params body => exact related_callClosure heval hhead hargs
  | _ => exact related_raise (by simp)

theorem related_evalBranch : ∀ args : List Value, (∀ e ∈ args, S.code e) →
    S.Related S.value (evalBranch eval args) (evalBranch eval' args)
  | [], _ => related_raise (by simp)
  | condition :: branches, hargs => by
    simp only [evalBranch]
    by_cases hlen : 2 < branches.length
    · rw [if_pos hlen, if_pos hlen]
      exact related_raise (by simp)
    · rw [if_neg hlen, if_neg hlen]
      refine (heval condition (hargs _ List.mem_cons_self)).bind fun v _ => ?_
      cases v with
      | bool b =>
        simp only
        cases hbranch : branches[if b then 0 else 1]? with
        | none => exact related_raise (by simp)
        | some branch =>
          exact heval branch (hargs _ (List.mem_cons_of_mem _ (List.mem_of_getElem? hbranch)))
      | _ => exact related_raise (by simp)

theorem related_evalDefine {args : List Value} (hargs : ∀ e ∈ args, S.code e) :
    S.Related S.value (evalDefine eval args) (evalDefine eval' args) := by
  unfold evalDefine
  split
  · rename_i name e
    have hname := hargs _ List.mem_cons_self
    refine (heval e (hargs e (by simp))).bind fun v hv => ?_
    refine (related_define (S.code_name hname) hv).bind fun _ _ => ?_
    exact related_pure (S.value_code hname)
  · exact related_raise (by simp)
  · exact related_raise (by simp)

omit heval in
theorem related_evalLambda {args : List Value}
    (hcode : S.code (.list (.sym SpecialForm.lambda.name :: args))) :
    S.Related S.value (evalLambda args) (evalLambda args) := by
  unfold evalLambda
  split
  · exact related_pure (S.value_lambda hcode)
  · exact related_raise (by simp)

omit heval in
theorem related_evalPrint {args : List Value} (hargs : ∀ e ∈ args, S.code e) :
    S.Related S.value (evalPrint args) (evalPrint args) := by
  unfold evalPrint
  split
  · rename_i name
    refine (related_lookup name).bind fun v hv => ?_
    exact (related_writeLine (S.line_value hv)).bind fun _ _ => related_pure hv
  · rename_i v _
    have hv : S.value v := S.value_code (hargs v (by simp))
    exact (related_writeLine (S.line_value hv)).bind fun _ _ => related_pure hv
  · exact related_raise (by simp)

omit heval in
/-- Frames that correspond are listed alike. -/
theorem related_evalBindings (args : List Value) :
    S.Related S.value (evalBindings args) (evalBindings args) := by
  cases args with
  | cons e es => exact related_raise (by simp)
  | nil =>
    intro c d hcd _
    right
    rw [evalBindings_apply, evalBindings_apply, ← S.sorted hcd, List.append_nil]
    refine matches_still hcd (fun _ h => by cases h; exact S.value_nil) (fun _ h => by cases h)
      (fun line hline => ?_) []
    obtain ⟨b, hb, rfl⟩ := List.mem_map.mp hline
    exact S.listed hcd b ((List.mergeSort_perm _ _).mem_iff.mp hb)

omit heval in
theorem related_conclude (fault : Option Form.Fault) (forms : ℕ) {v : Value} (hv : S.value v) :
    S.Related S.value (conclude fault forms v) (conclude fault forms v) := by
  cases fault with
  | none => exact (related_note _).bind fun _ _ => related_pure hv
  | some fault =>
    refine related_fail ?_
    cases fault with
    | tooDeep => exact S.failure_exhausted
    | _ => exact S.failure_error (by simp)

/-- The forms of tokens: all that the reader makes of them may be evaluated. -/
theorem related_runTokens {tokens : List Token}
    (hforms : ∀ form ∈ (Form.parseAll nesting tokens).1, S.code form) :
    S.Related S.value (runTokens nesting eval tokens) (runTokens nesting eval' tokens) := by
  unfold runTokens
  rw [runForms_eq, runForms_eq]
  refine (related_evalLast heval _ .nil S.value_nil hforms).bind fun v hv => ?_
  exact related_conclude _ _ hv

theorem related_evalText {text : String}
    (hforms : ∀ form ∈ (Form.parseAll nesting (tokenize text)).1, S.code form) :
    S.Related S.value (evalText nesting eval text) (evalText nesting eval' text) := by
  unfold evalText
  split
  · exact related_raise (by simp)
  · rename_i t ts htokens
    exact related_runTokens heval (htokens ▸ hforms)

omit heval in
theorem related_readScript (path : String) :
    S.Related (fun text => ∀ form ∈ (Form.parseAll nesting (tokenize text)).1, S.code form)
      (readScript scripts path) (readScript scripts path) := by
  intro c d hcd hnotes
  right
  cases hs : scripts path with
  | ok text =>
    rw [readScript_of_ok hs] at hnotes
    rw [readScript_of_ok hs, readScript_of_ok hs]
    have hnote : S.note (.loading path) := hnotes _ List.mem_cons_self
    refine matches_still hcd (fun _ h => ?_) (fun _ h => by cases h)
      (List.forall_mem_nil _) [.loading path]
    cases h
    exact S.code_script hnote hs
  | error f =>
    rw [readScript_of_error hs, readScript_of_error hs]
    refine matches_still hcd (fun _ h => by cases h) (fun _ h => ?_)
      (List.forall_mem_nil _) [.loading path]
    cases h
    exact S.failure_script hs

theorem related_loadScript (path : String) :
    S.Related S.value (loadScript scripts nesting eval path) (loadScript scripts nesting eval' path) :=
  (related_readScript path).bind fun _ hforms => related_runTokens heval hforms

theorem related_evalLoad {args : List Value} (hargs : ∀ e ∈ args, S.code e) :
    S.Related S.value (evalLoad scripts nesting eval args) (evalLoad scripts nesting eval' args) := by
  unfold evalLoad
  split
  · rename_i e
    refine (heval e (hargs e (by simp))).bind fun v _ => ?_
    cases v with
    | str path => exact related_loadScript heval path
    | _ => exact related_raise (by simp)
  · exact related_raise (by simp)

/-- The special forms. -/
theorem related_evalSpecial (form : SpecialForm) {args : List Value}
    (hcode : S.code (.list (.sym form.name :: args))) :
    S.Related S.value (evalSpecial scripts nesting eval form args)
      (evalSpecial scripts nesting eval' form args) := by
  have hargs : ∀ e ∈ args, S.code e := fun e he => S.code_item hcode e (List.mem_cons_of_mem _ he)
  cases form with
  | branch => exact related_evalBranch heval args hargs
  | define => exact related_evalDefine heval hargs
  | lambda => exact related_evalLambda hcode
  | load => exact related_evalLoad heval hargs
  | bindings => exact related_evalBindings args
  | print => exact related_evalPrint hargs

/-- **If the evaluations inside are related, so is the evaluation made of them.** -/
theorem related_step {e : Value} (he : S.code e) :
    S.Related S.value (step scripts nesting eval e) (step scripts nesting eval' e) := by
  cases e with
  | list items =>
    cases items with
    | nil => exact related_raise (by simp)
    | cons head args =>
      have hargs : ∀ e ∈ args, S.code e := fun e h => S.code_item he e (List.mem_cons_of_mem _ h)
      unfold step
      simp only
      cases hform : SpecialForm.ofHead? head with
      | some form =>
        obtain rfl := SpecialForm.eq_sym_of_ofHead? hform
        exact related_evalSpecial heval form he
      | none =>
        refine (heval head (S.code_item he head List.mem_cons_self)).bind fun f hf => ?_
        exact related_call heval hf hargs
  | sym name => exact related_lookup name
  | prim p => exact related_fail (S.failure_function he (Or.inl ⟨p, rfl⟩))
  | closure params body => exact related_fail (S.failure_function he (Or.inr ⟨params, body, rfl⟩))
  | _ => exact related_pure (S.value_code he)

end Walk

/-- Every evaluation is related to itself, under every limit. -/
theorem related_evaluate : ∀ (limit : ℕ) (e : Value), S.code e →
    S.Related S.value (evaluate scripts nesting limit e) (evaluate scripts nesting limit e)
  | 0, _, _ => related_fail S.failure_exhausted
  | limit + 1, _, he => related_step (related_evaluate limit) he

/-! ### An evaluation and itself -/

/-- An evaluation compared with itself in one and the same chain. -/
def same (scripts : Scripts) (nesting : ℕ) : Simulation scripts nesting where
  toDiscipline := .unrestricted scripts nesting
  chains := Eq
  excused _ := False
  lookup h _ := Or.inl ⟨by rw [h], fun _ _ => trivial⟩
  define h _ _ _ _ := by rw [h]
  push h _ _ := by rw [h]
  sorted h := by rw [h]

theorem growsTo_of_related {m : Action α} (h : (same scripts nesting).Related expected m m)
    (c : Chain) : c.GrowsTo (m c).chain := by
  rcases h c c rfl (fun _ _ => trivial) with ⟨_, hfalse, _⟩ | h
  · exact hfalse.elim
  · exact h.grows

end Simulation

/-! ### An evaluation in a chain that keeps to a discipline -/

/-- An evaluation compared with another one in one and the same chain, in which all names and values
are as the discipline wants them. -/
def Discipline.simulation {scripts : Scripts} {nesting : ℕ} (D : Discipline scripts nesting) :
    Simulation scripts nesting where
  toDiscipline := D
  chains c d := c = d ∧ c.Forall fun b => D.name b.1 ∧ D.value b.2
  excused _ := False
  lookup := by
    rintro c _ ⟨rfl, hc⟩ name
    exact Or.inl ⟨rfl, fun v hv => (hc.lookup hv).2⟩
  define := by
    rintro c _ ⟨rfl, hc⟩ n v hn hv
    exact ⟨rfl, hc.define ⟨hn, hv⟩⟩
  push := by
    rintro c _ ⟨rfl, hc⟩ f hf
    exact ⟨rfl, hc.push hf⟩
  sorted := by
    rintro c _ ⟨rfl, -⟩
    rfl
  listed := by
    rintro c _ ⟨rfl, hc⟩ b hb
    exact D.line_binding (hc.inner b hb).1 (hc.inner b hb).2

/-- Actions that are related under a discipline are alike in every chain that keeps to it. -/
theorem Discipline.matches {scripts : Scripts} {nesting : ℕ} {α : Type} {expected : α → Prop}
    {D : Discipline scripts nesting} {m m' : Action α} (h : D.simulation.Related expected m m')
    {c : Chain} (hc : c.Forall fun b => D.name b.1 ∧ D.value b.2)
    (hnotes : ∀ n ∈ (m c).notes, D.note n) : D.simulation.Matches expected c c (m c) (m' c) :=
  (h c c ⟨rfl, hc⟩ hnotes).resolve_left fun ⟨_, hfalse, _⟩ => hfalse

end Evaluation
end SmallLisp
