/-
# Running out of stack

How deep evaluations may be inside each other, and how deep the lists of a text may be nested, shows
in one way only: an evaluation under low limits does what it does under higher ones, or it runs out
of stack and has written by then the first of the lines that it writes under those
(`Setup.limits_show_only_as_exhaustion`). The relation between two actions that this is about,
`Action.UpToStack`, is kept by sequences, so that actions made of evaluations under different limits
are compared piece by piece. The limit on evaluations is met where an evaluation begins, and the
limit on lists where a script is read; the walk through the evaluator is the one for all
simulations, but for the forms of a script, which are more under the higher limit
(`Evaluation.related_runTokens_of_le`).

Key definitions: `Action.UpToStack`, `Simulation.limits`.
Key theorems: `Action.UpToStack.bind`, `Action.UpToStack.unnoted_eq`,
`Evaluation.upToStack_evaluate`, `Evaluation.upToStack_loadScript`,
`Setup.limits_show_only_as_exhaustion`.
-/
import SmallLisp.Session
import SmallLisp.Proofs.Simulation

namespace SmallLisp

namespace Action

variable {α β : Type}

/-- The first action does what the second one does, their notes apart, or else it runs out of stack
and has written the same lines so far. -/
def UpToStack (m m' : Action α) : Prop :=
  ∀ c, ((m c).outcome = .error .stackExhausted ∧ (m c).lines <+: (m' c).lines) ∨
    (m c).unnoted = (m' c).unnoted

theorem upToStack_of_unnoted {m m' : Action α} (h : ∀ c, (m c).unnoted = (m' c).unnoted) :
    m.UpToStack m' :=
  fun c => Or.inr (h c)

theorem UpToStack.refl (m : Action α) : m.UpToStack m := upToStack_of_unnoted fun _ => rfl

theorem upToStack_exhausted (m : Action α) : (fail .stackExhausted).UpToStack m :=
  fun _ => Or.inl ⟨rfl, List.nil_prefix⟩

theorem UpToStack.trans {m m' m'' : Action α} (h : m.UpToStack m') (h' : m'.UpToStack m'') :
    m.UpToStack m'' := by
  intro c
  rcases h c with ⟨hout, hlines⟩ | heq
  · left
    refine ⟨hout, hlines.trans ?_⟩
    rcases h' c with ⟨-, hlines'⟩ | heq'
    · exact hlines'
    · rw [(Run.unnoted_eq_iff.mp heq').2.2]
  · obtain ⟨hout, hchain, hlines⟩ := Run.unnoted_eq_iff.mp heq
    rcases h' c with ⟨hout', hlines'⟩ | heq'
    · left
      exact ⟨hout.trans hout', hlines ▸ hlines'⟩
    · right
      exact heq.trans heq'

/-- What is done up to the stack may be followed by what is done up to the stack. -/
theorem UpToStack.bind {m m' : Action α} {next next' : α → Action β} (hm : m.UpToStack m')
    (hnext : ∀ a, (next a).UpToStack (next' a)) : (m >>= next).UpToStack (m' >>= next') := by
  intro c
  rcases hm c with ⟨hout, hlines⟩ | heq
  · left
    rw [bind_error next hout]
    exact ⟨rfl, hlines.trans (lines_prefix_bind m' next' c)⟩
  · obtain ⟨hout, hchain, hlines⟩ := Run.unnoted_eq_iff.mp heq
    cases h : (m c).outcome with
    | error failure =>
      right
      rw [bind_error next h, bind_error next' (hout ▸ h)]
      exact Run.unnoted_eq_iff.mpr ⟨rfl, hchain, hlines⟩
    | ok a =>
      rw [bind_ok next h, bind_ok next' (hout ▸ h), ← hchain, ← hlines]
      rcases hnext a (m c).chain with ⟨hout', hlines'⟩ | heq'
      · left
        exact ⟨hout', (List.prefix_append_right_inj _).mpr hlines'⟩
      · right
        obtain ⟨hout', hchain', hlines'⟩ := Run.unnoted_eq_iff.mp heq'
        refine Run.unnoted_eq_iff.mpr ⟨hout', hchain', ?_⟩
        show (m c).lines ++ _ = (m c).lines ++ _
        rw [hlines']

/-- An action that does not run out of stack does what it is compared with. -/
theorem UpToStack.unnoted_eq {m m' : Action α} (h : m.UpToStack m') {c : Chain}
    (hout : (m c).outcome ≠ .error .stackExhausted) : (m c).unnoted = (m' c).unnoted :=
  (h c).resolve_left fun hex => hout hex.1

/-- Whether an action runs out of stack or not, its lines come first. -/
theorem UpToStack.lines_prefix {m m' : Action α} (h : m.UpToStack m') (c : Chain) :
    (m c).lines <+: (m' c).lines := by
  rcases h c with ⟨-, hlines⟩ | heq
  · exact hlines
  · rw [(Run.unnoted_eq_iff.mp heq).2.2]

end Action

namespace Evaluation

variable {scripts : Scripts} {nesting : ℕ} {α : Type}

/-- Evaluations in one and the same chain, the first of which may run out of stack. -/
def Simulation.limits (scripts : Scripts) (nesting : ℕ) : Simulation scripts nesting :=
  { Simulation.same scripts nesting with
    excused := fun f => f = .stackExhausted
    lookup := fun h _ => Or.inl ⟨by rw [h], fun _ _ => trivial⟩ }

theorem Simulation.Related.upToStack {expected : α → Prop} {m m' : Action α}
    (h : (Simulation.limits scripts nesting).Related expected m m') : m.UpToStack m' := by
  intro c
  rcases h c c rfl fun _ _ => trivial with ⟨f, rfl, hout, hlines⟩ | hmatch
  · exact Or.inl ⟨hout, hlines⟩
  · exact Or.inr (Run.unnoted_eq_iff.mpr ⟨hmatch.outcome, hmatch.chains, hmatch.lines⟩)

/-! ### The evaluator under two limits -/

namespace Simulation

variable {low high : ℕ} {eval eval' : Value → Action Value}

theorem related_exhausted {expected : α → Prop} (m : Action α) :
    (limits scripts nesting).Related expected (.fail .stackExhausted) m :=
  fun _ _ _ _ => Or.inl ⟨.stackExhausted, rfl, rfl, List.nil_prefix⟩

section Walk

variable (hle : low ≤ high)
variable (heval : ∀ e, (limits scripts low).code e →
  (limits scripts low).Related (limits scripts low).value (eval e) (eval' e))
include hle heval

/-- The forms of a row of tokens, of which more are read under the higher limit only if the lower
one is met. -/
theorem related_runTokens_of_le (tokens : List Token) :
    (limits scripts low).Related (limits scripts low).value (runTokens low eval tokens)
      (runTokens high eval' tokens) := by
  have hall : ∀ forms : List Value, ∀ e ∈ forms, (limits scripts low).code e :=
    fun _ _ _ => trivial
  unfold runTokens
  rw [runForms_eq, runForms_eq]
  rcases Form.parseAll_of_le hle tokens with ⟨hdeep, more, hforms⟩ | heq
  · -- what is read under both limits is evaluated, and then the first one is at its end
    rw [hdeep, ← hforms, evalLast_append, bind_assoc]
    exact (related_evalLast heval _ .nil trivial (hall _)).bind fun _ _ => related_exhausted _
  · rw [← heq]
    refine (related_evalLast heval _ .nil trivial (hall _)).bind fun _ _ => ?_
    exact related_conclude _ _ trivial

theorem related_evalText_of_le (text : String) :
    (limits scripts low).Related (limits scripts low).value (evalText low eval text)
      (evalText high eval' text) := by
  unfold evalText
  cases tokenize text with
  | nil => exact related_raise (by simp)
  | cons t ts => exact related_runTokens_of_le hle heval (t :: ts)

theorem related_loadScript_of_le (path : String) :
    (limits scripts low).Related (limits scripts low).value (loadScript scripts low eval path)
      (loadScript scripts high eval' path) :=
  (related_readScript path).bind fun _ _ => related_runTokens_of_le hle heval _

theorem related_evalLoad_of_le (args : List Value) :
    (limits scripts low).Related (limits scripts low).value (evalLoad scripts low eval args)
      (evalLoad scripts high eval' args) := by
  unfold evalLoad
  split
  · refine (heval _ trivial).bind fun v _ => ?_
    cases v with
    | str path => exact related_loadScript_of_le hle heval path
    | _ => exact related_raise (by simp)
  · exact related_raise (by simp)

/-- One evaluation. Of all that it may do only loading reads. -/
theorem related_step_of_le (e : Value) :
    (limits scripts low).Related (limits scripts low).value (step scripts low eval e)
      (step scripts high eval' e) := by
  have hsame : (limits scripts low).Related (limits scripts low).value (step scripts low eval e)
      (step scripts low eval' e) := related_step heval trivial
  cases e with
  | list items =>
    cases items with
    | nil => exact hsame
    | cons head args =>
      unfold step at hsame ⊢
      simp only at hsame ⊢
      cases hform : SpecialForm.ofHead? head with
      | none => simpa only [hform] using hsame
      | some form =>
        simp only [hform] at hsame
        cases form with
        | load => exact related_evalLoad_of_le hle heval args
        | _ => exact hsame
  | _ => exact hsame

end Walk
end Simulation

theorem related_limits {low high : ℕ} (hle : low ≤ high) : ∀ {n m : ℕ}, n ≤ m → ∀ e,
    (Simulation.limits scripts low).code e →
      (Simulation.limits scripts low).Related (Simulation.limits scripts low).value
        (evaluate scripts low n e) (evaluate scripts high m e)
  | 0, _, _, _, _ => Simulation.related_exhausted _
  | _ + 1, _ + 1, h, e, _ =>
    Simulation.related_step_of_le hle (related_limits hle (Nat.le_of_succ_le_succ h)) e

/-- **A higher limit makes no difference** but to an evaluation that runs out of stack. -/
theorem upToStack_evaluate {n m : ℕ} (h : n ≤ m) (e : Value) :
    (evaluate scripts nesting n e).UpToStack (evaluate scripts nesting m e) :=
  (related_limits (Nat.le_refl _) h e trivial).upToStack

theorem upToStack_loadScript {n m : ℕ} (h : n ≤ m) (path : String) :
    (loadScript scripts nesting (evaluate scripts nesting n) path).UpToStack
      (loadScript scripts nesting (evaluate scripts nesting m) path) :=
  (Simulation.related_loadScript (related_limits (Nat.le_refl _) h) path).upToStack

end Evaluation

/-! ### Sessions and setups -/

/-- At the root of a session too an action that does not run out of stack does what it is compared
with. -/
theorem Session.run_eq_of_upToStack {α : Type} (s : Session) {m m' : Action α} (h : m.UpToStack m')
    (hout : (s.run m).outcome ≠ .error .stackExhausted) :
    (s.run m).outcome = (s.run m').outcome ∧ (s.run m).lines = (s.run m').lines ∧
      (s.run m).session = (s.run m').session := by
  obtain ⟨hout', hchain, hlines⟩ := Run.unnoted_eq_iff.mp (h.unnoted_eq hout)
  exact ⟨hout', hlines, congrArg (fun c => Session.mk c.inner) hchain⟩

/-- Limits are ordered by both of them. -/
instance : LE Limits where
  le low high := low.calls ≤ high.calls ∧ low.nesting ≤ high.nesting

instance (low high : Limits) : Decidable (low ≤ high) := inferInstanceAs (Decidable (_ ∧ _))

namespace Setup

variable (scripts : Scripts) {low high : Limits}

theorem upToStack_evaluate_of_le (h : low ≤ high) (e : Value) :
    ((Setup.mk scripts low).evaluate e).UpToStack ((Setup.mk scripts high).evaluate e) :=
  (Evaluation.related_limits h.2 h.1 e trivial).upToStack

theorem upToStack_evalText_of_le (h : low ≤ high) (text : String) :
    ((Setup.mk scripts low).evalText text).UpToStack ((Setup.mk scripts high).evalText text) :=
  (Evaluation.Simulation.related_evalText_of_le h.2
    (Evaluation.related_limits h.2 h.1) text).upToStack

/-- **Limits show only where the stack runs out.** Let the one on evaluations inside each other and
the one on lists inside each other be no higher in a first setup than in a second one. An evaluation
that does not run out of stack in the first setup has the same outcome in the second, writes the
same lines and leaves the same chain; and one that does has written by then the first of the lines
that it writes in the second. So it is with a text that a session evaluates, and with the bindings
it leaves. -/
theorem limits_show_only_as_exhaustion (scripts : Scripts) {low high : Limits} (h : low ≤ high) :
    (∀ (e : Value) (c : Chain),
      let below := (Setup.mk scripts low).evaluate e c
      let above := (Setup.mk scripts high).evaluate e c
      (below.outcome ≠ .error .stackExhausted → below.outcome = above.outcome ∧
        below.lines = above.lines ∧ below.chain = above.chain) ∧
      (below.outcome = .error .stackExhausted → below.lines <+: above.lines)) ∧
    ∀ (s : Session) (text : String),
      let below := s.eval ⟨scripts, low⟩ text
      let above := s.eval ⟨scripts, high⟩ text
      (below.outcome ≠ .error .stackExhausted → below.outcome = above.outcome ∧
        below.lines = above.lines ∧ below.session = above.session) ∧
      (below.outcome = .error .stackExhausted → below.lines <+: above.lines) := by
  refine ⟨fun e c => ?_, fun s text => ?_⟩
  · have hcompare := upToStack_evaluate_of_le scripts h e
    refine ⟨fun hout => ?_, fun _ => hcompare.lines_prefix c⟩
    obtain ⟨hout', hchain, hlines⟩ := Run.unnoted_eq_iff.mp (hcompare.unnoted_eq hout)
    exact ⟨hout', hlines, hchain⟩
  · have hcompare := upToStack_evalText_of_le scripts h text
    exact ⟨s.run_eq_of_upToStack hcompare, fun _ => hcompare.lines_prefix (.ofFrame s.root)⟩

/-- A branch that needs one evaluation more than there may be, once its condition has written a line,
and a text that needs no more of anything than there may be. -/
theorem limits_show_only_as_exhaustion_branch :
    let low : Limits := ⟨2, 1⟩
    let high : Limits := ⟨9, 2⟩
    let c := Chain.ofFrame .primitives
    let branch : Value := .list [.sym "if", .list [.sym "print", .bool true], .list [.sym "car", .nil]]
    let text := "(let x nil) (print x)"
    low ≤ high ∧
    (((Setup.mk (.ofList []) low).evaluate branch c).outcome = .error .stackExhausted ∧
      ((Setup.mk (.ofList []) high).evaluate branch c).outcome = .error (.error .notAList) ∧
      ["true"] <+: ((Setup.mk (.ofList []) high).evaluate branch c).lines) ∧
    ((Session.fresh.eval ⟨.ofList [], low⟩ text).outcome ≠ .error .stackExhausted ∧
      (Session.fresh.eval ⟨.ofList [], high⟩ text).outcome.isOk = true ∧
      (Session.fresh.eval ⟨.ofList [], high⟩ text).lines = ["nil"]) := by
  intro low high c branch text
  have hle : low ≤ high := by decide
  have hvalue : (Session.fresh.eval ⟨.ofList [], low⟩ text).outcome.isOk = true := by decide +kernel
  have hprinted : (Session.fresh.eval ⟨.ofList [], low⟩ text).lines = ["nil"] := by decide +kernel
  have hends : (Session.fresh.eval ⟨.ofList [], low⟩ text).outcome ≠ .error .stackExhausted :=
    fun h => by rw [h] at hvalue; cases hvalue
  obtain ⟨hevaluate, heval⟩ := limits_show_only_as_exhaustion (.ofList []) hle
  obtain ⟨hout, hlines, -⟩ := (heval .fresh text).1 hends
  exact ⟨hle, ⟨rfl, rfl, (hevaluate branch c).2 rfl⟩, hends, hout ▸ hvalue, hlines ▸ hprinted⟩

end Setup
end SmallLisp
