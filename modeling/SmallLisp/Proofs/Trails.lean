/-
# Rows of forms that may be malformed

What is done for a row of tokens that need not be well formed, told form by form. The forms that can
be read are evaluated in order, each in the chain that the one before has left, up to the first that
fails; the runs of them are the trail of the row (`Evaluation.trail`). Then all there is to a row is
its trail and the fault that stopped the reader (`Evaluation.runTokens_follows_trail`): a failure in
the trail is the end, and the fault is met only after a trail without one.

Key definitions: `Evaluation.trail`, `Run.afterAll`.
Key theorems: `Evaluation.evalLast_eq_afterAll`, `Evaluation.runTokens_afterAll`,
`Evaluation.runTokens_follows_trail`.
-/
import SmallLisp.Proofs.Buffer

namespace SmallLisp

/-- What runs that follow each other leave behind, taken together: the outcome and the chain of the
last one, and the lines and notes of all. -/
def Run.afterAll (before : Value) (c : Chain) (runs : List (Run Value)) : Run Value where
  outcome := (runs.getLast?.map Run.outcome).getD (.ok before)
  chain := (runs.getLast?.map Run.chain).getD c
  lines := runs.flatMap Run.lines
  notes := runs.flatMap Run.notes

/-- A run whose value nobody asks for comes before the others. -/
theorem Run.afterAll_cons {r : Run Value} {v : Value} (hr : r.outcome = .ok v) (before : Value)
    (c : Chain) (runs : List (Run Value)) : Run.afterAll before c (r :: runs) =
      ⟨(Run.afterAll v r.chain runs).outcome, (Run.afterAll v r.chain runs).chain,
        r.lines ++ (Run.afterAll v r.chain runs).lines,
        r.notes ++ (Run.afterAll v r.chain runs).notes⟩ := by
  unfold Run.afterAll
  rw [List.getLast?_cons, List.flatMap_cons, List.flatMap_cons]
  cases runs.getLast? with
  | none => simp only [Option.getD_none, Option.map_some, Option.getD_some, Option.map_none, hr]
  | some last => simp only [Option.getD_some, Option.map_some]

/-- Runs that all have a value have one together. -/
theorem Run.outcome_afterAll_of_ok (before : Value) (c : Chain) {runs : List (Run Value)}
    (h : ∀ r ∈ runs, ∃ v, r.outcome = .ok v) :
    ∃ v, (Run.afterAll before c runs).outcome = .ok v := by
  unfold Run.afterAll
  cases hlast : runs.getLast? with
  | none => exact ⟨before, rfl⟩
  | some r =>
    obtain ⟨v, hv⟩ := h r (List.mem_of_getLast? hlast)
    exact ⟨v, hv⟩

namespace Evaluation

variable (eval : Value → Action Value)

/-- The runs of expressions in order, each in the chain that the one before has left, up to the
first that fails. -/
def trail : Chain → List Value → List (Run Value)
  | _, [] => []
  | c, e :: es =>
    match (eval e c).outcome with
    | .error _ => [eval e c]
    | .ok _ => eval e c :: trail (eval e c).chain es

variable {eval}

theorem trail_of_error {e : Value} {c : Chain} {f : Failure} (h : (eval e c).outcome = .error f)
    (es : List Value) : trail eval c (e :: es) = [eval e c] := by
  rw [trail]
  simp only [h]

theorem trail_of_ok {e v : Value} {c : Chain} (h : (eval e c).outcome = .ok v) (es : List Value) :
    trail eval c (e :: es) = eval e c :: trail eval (eval e c).chain es := by
  rw [trail]
  simp only [h]

/-- Only the last run of a trail can have failed. -/
theorem getLast?_trail_of_error : ∀ (es : List Value) (c : Chain) (r : Run Value) (f : Failure),
    r ∈ trail eval c es → r.outcome = .error f → (trail eval c es).getLast? = some r
  | [], _, _, _, h, _ => by cases h
  | e :: es, c, r, f, hr, hf => by
    cases he : (eval e c).outcome with
    | error g =>
      rw [trail_of_error he] at hr ⊢
      rw [List.mem_singleton.mp hr, List.getLast?_singleton]
    | ok v =>
      rw [trail_of_ok he] at hr ⊢
      rcases List.mem_cons.mp hr with rfl | hr
      · rw [he] at hf
        cases hf
      · rw [List.getLast?_cons, getLast?_trail_of_error es _ r f hr hf, Option.getD_some]

/-- A trail without a failure has a run for each expression. -/
theorem length_trail : ∀ (es : List Value) (c : Chain),
    (∀ r ∈ trail eval c es, ∃ v, r.outcome = .ok v) → (trail eval c es).length = es.length
  | [], _, _ => rfl
  | e :: es, c, h => by
    cases he : (eval e c).outcome with
    | error f =>
      rw [trail_of_error he] at h
      obtain ⟨v, hv⟩ := h _ List.mem_cons_self
      rw [he] at hv
      cases hv
    | ok v =>
      rw [trail_of_ok he] at h ⊢
      rw [List.length_cons, List.length_cons,
        length_trail es _ fun r hr => h r (List.mem_cons_of_mem _ hr)]

/-- To evaluate expressions in order is to go along their trail. -/
theorem evalLast_eq_afterAll : ∀ (es : List Value) (before : Value) (c : Chain),
    evalLast eval before es c = Run.afterAll before c (trail eval c es)
  | [], _, _ => rfl
  | e :: es, before, c => by
    rw [evalLast]
    cases he : (eval e c).outcome with
    | error f =>
      rw [Action.bind_error _ he, trail_of_error he]
      simp [Run.afterAll, he]
    | ok v =>
      rw [Action.bind_ok _ he, trail_of_ok he, evalLast_eq_afterAll es v, Run.afterAll_cons he]

/-- A failure in a trail is how the trail ends. -/
theorem outcome_afterAll_of_error (before : Value) {es : List Value} {c : Chain} {r : Run Value}
    {f : Failure} (hr : r ∈ trail eval c es) (hf : r.outcome = .error f) :
    (Run.afterAll before c (trail eval c es)).outcome = .error f := by
  unfold Run.afterAll
  rw [getLast?_trail_of_error es c r f hr hf, Option.map_some, Option.getD_some, hf]

/-- What a row leaves behind is what its trail does, and after a trail with a value the fault that
stopped the reader decides. -/
theorem runTokens_afterAll (nesting : ℕ) (eval : Value → Action Value) (tokens : List Token)
    (c : Chain) :
    let after := Run.afterAll .nil c (trail eval c (Form.parseAll nesting tokens).1)
    let whole := runTokens nesting eval tokens c
    (∀ f, after.outcome = .error f → whole.outcome = .error f) ∧
    (∀ v, after.outcome = .ok v →
      (∀ stopped, (Form.parseAll nesting tokens).2 = some stopped →
        whole.outcome = .error stopped.toFailure) ∧
      ((Form.parseAll nesting tokens).2 = none → whole.outcome = .ok v)) ∧
    whole.chain = after.chain ∧ whole.lines = after.lines := by
  intro after whole
  have hafter : evalLast eval .nil (Form.parseAll nesting tokens).1 c = after :=
    evalLast_eq_afterAll _ .nil c
  have hwhole : whole = (evalLast eval .nil (Form.parseAll nesting tokens).1 >>= conclude
      (Form.parseAll nesting tokens).2 (0 + (Form.parseAll nesting tokens).1.length)) c :=
    congrFun (runForms_eq nesting eval tokens .nil 0) c
  -- after a failure nothing is concluded
  cases hout : after.outcome with
  | error f =>
    rw [Action.bind_error _ (hafter ▸ hout), hafter] at hwhole
    rw [hwhole]
    refine ⟨fun g hg => by rw [Except.error.inj hg], fun v hv => ?_, rfl, rfl⟩
    cases hv
  | ok v =>
    rw [Action.bind_ok _ (hafter ▸ hout), hafter] at hwhole
    rw [hwhole]
    cases (Form.parseAll nesting tokens).2 with
    | none =>
      refine ⟨fun f hf => ?_, fun w hw => ⟨nofun, fun _ => ?_⟩, rfl, List.append_nil _⟩
      · cases hf
      · rw [← hw]
        rfl
    | some fault =>
      refine ⟨fun f hf => ?_, fun w _ => ⟨fun stopped hstopped => ?_, nofun⟩, rfl,
        List.append_nil _⟩
      · cases hf
      · rw [← Option.some.inj hstopped]
        rfl

/-- **A row that may be malformed is read as far as possible and then run.** The forms read before
the first fault are evaluated in order, each in the chain that the one before has left. If one of
them fails, this is the end of it: the row ends with that failure, in the chain and with the lines
that were there, and neither a later form nor the fault is heard of. If none fails, all forms are
evaluated, and the row ends with the fault, or with the value of the last form if there is no fault,
or with `nil` if there is no form either. Bindings and lines of the forms are kept in every case. -/
theorem runTokens_follows_trail (nesting : ℕ) (eval : Value → Action Value) (tokens : List Token)
    (c : Chain) :
    let forms := (Form.parseAll nesting tokens).1
    let fault := (Form.parseAll nesting tokens).2
    let runs := trail eval c forms
    let whole := runTokens nesting eval tokens c
    (∀ r ∈ runs, ∀ f, r.outcome = .error f →
      whole.outcome = .error f ∧ runs.getLast? = some r) ∧
    ((∀ r ∈ runs, ∃ v, r.outcome = .ok v) → runs.length = forms.length ∧
      (∀ stopped, fault = some stopped → whole.outcome = .error stopped.toFailure) ∧
      (fault = none → whole.outcome = (runs.getLast?.map Run.outcome).getD (.ok .nil))) ∧
    whole.chain = (runs.getLast?.map Run.chain).getD c ∧
    whole.lines = runs.flatMap Run.lines := by
  intro forms fault runs whole
  obtain ⟨herror, hok, hchain, hlines⟩ := runTokens_afterAll nesting eval tokens c
  refine ⟨fun r hr f hf => ?_, fun hall => ?_, hchain, hlines⟩
  · exact ⟨herror f (outcome_afterAll_of_error .nil hr hf),
      getLast?_trail_of_error forms c r f hr hf⟩
  · obtain ⟨v, hv⟩ := Run.outcome_afterAll_of_ok .nil c hall
    obtain ⟨hfault, hnone⟩ := hok v hv
    exact ⟨length_trail forms c hall, hfault, fun h => (hnone h).trans hv.symm⟩

/-- A list that is not closed behind a form that fails, and a stray parenthesis behind one that does
not. -/
theorem runTokens_follows_trail_malformed :
    let eval := evaluate (.ofList []) 9 9
    let failing := ["(", "let", "x", "nil", ")", "(", "car", "x", ")", "(", "print", "x"]
    let stray := ["(", "print", "nil", ")", ")"]
    let c := Chain.ofFrame .primitives
    ((Form.parseAll 9 failing).2 = some .unclosed ∧
      (runTokens 9 eval failing c).outcome = .error (.error .notAList) ∧
      (runTokens 9 eval failing c).chain = c.define "x" .nil) ∧
    ((Form.parseAll 9 stray).2 = some .strayClose ∧
      (runTokens 9 eval stray c).outcome = .error (.error .strayClose) ∧
      (runTokens 9 eval stray c).lines = ["nil"]) := by
  intro eval failing stray c
  have hfailing : Form.parseAll 9 failing = ([.list [.sym "let", .sym "x", .nil],
      .list [.sym "car", .sym "x"]], some .unclosed) := by
    have hlet : Form.parse 9 failing = .ok (.list [.sym "let", .sym "x", .nil],
      ["(", "car", "x", ")", "(", "print", "x"]) := rfl
    have hcar : Form.parse 9 ["(", "car", "x", ")", "(", "print", "x"] =
      .ok (.list [.sym "car", .sym "x"], ["(", "print", "x"]) := rfl
    have hopen : Form.parse 9 ["(", "print", "x"] = .error .unclosed := rfl
    rw [Form.parseAll_of_ok hlet, Form.parseAll_of_ok hcar, Form.parseAll_of_error hopen]
  have hstray : Form.parseAll 9 stray = ([.list [.sym "print", .nil]], some .strayClose) := by
    have hprint : Form.parse 9 stray = .ok (.list [.sym "print", .nil], [")"]) := rfl
    have hclose : Form.parse 9 [")"] = .error .strayClose := rfl
    rw [Form.parseAll_of_ok hprint, Form.parseAll_of_error hclose]
  obtain ⟨hends, -, hchain, -⟩ := runTokens_follows_trail 9 eval failing c
  obtain ⟨-, hmeets, -, hlines⟩ := runTokens_follows_trail 9 eval stray c
  rw [hfailing] at hends hchain ⊢
  rw [hstray] at hmeets hlines ⊢
  refine ⟨⟨rfl, (hends _ (List.mem_cons_of_mem _ List.mem_cons_self) _ rfl).1, hchain⟩, rfl,
    (hmeets fun r hr => ?_).2.1 _ rfl, hlines⟩
  rw [List.mem_singleton.mp hr]
  exact ⟨_, rfl⟩

end Evaluation
end SmallLisp
