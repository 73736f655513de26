/-
# Texts cut between forms

A text may be cut at a blank wherever all before it can be read. To evaluate the whole is then to
evaluate the first part and, if that does not fail, the second one in the session it has left,
whatever is wrong with the second part. Tokens do not reach over the cut, the reader stops there,
and the value at the cut is not the value of anything; and since each evaluation ends in the root
frame where it has begun, nothing but that frame is handed on. Under limits too nothing is gained
or lost by the cut.

Key definitions: `Session.evalInTurn`.
Key theorems: `Evaluation.unnoted_evalText_append`, `Session.eval_cut`.
-/
import SmallLisp.Session
import SmallLisp.Proofs.Simulation
import SmallLisp.Proofs.Tokens

namespace SmallLisp

theorem Form.fault_eq_none_of_read {nesting : ℕ} {text : String} {forms : List Value}
    (h : Form.read nesting text = .ok forms) :
    (Form.parseAll nesting (tokenize text)).2 = none := by
  unfold Form.read at h
  split at h
  · rename_i hp
    rw [hp]
  · cases h

namespace Evaluation

variable {nesting : ℕ} {eval : Value → Action Value}

/-- What is evaluated in a text that is cut is what is evaluated in its parts. -/
theorem unnoted_evalText_append {a b : String} {w : Char} {forms : List Value}
    (hw : Text.isBlank w = true) (ha : tokenize a ≠ []) (hb : tokenize b ≠ [])
    (hread : Form.read nesting a = .ok forms) (c : Chain) :
    (evalText nesting eval (a ++ String.singleton w ++ b) c).unnoted =
      ((evalText nesting eval a >>= fun _ => evalText nesting eval b) c).unnoted := by
  have hwhole : tokenize (a ++ String.singleton w ++ b) ≠ [] := by
    rw [tokenize_append hw]
    exact List.append_ne_nil_of_left_ne_nil ha _
  have hnone := Form.fault_eq_none_of_read hread
  rw [evalText_of_ne hwhole, evalText_of_ne ha, evalText_of_ne hb, tokenize_append hw]
  unfold runTokens
  rw [← unnoted_runForms_append hnone _ .nil 0 0]
  exact Action.unnoted_bind (fun _ => rfl) (fun v c => unnoted_runForms v 0 hb c) c

end Evaluation

namespace Session

open Evaluation (Simulation)

/-- Two texts evaluated one after the other, the second one only if the first does not fail. -/
def evalInTurn (setup : Setup) (s : Session) (a b : String) : Reply (Except Failure Value) :=
  let first := s.eval setup a
  match first.outcome with
  | .error _ => first
  | .ok _ =>
    let second := first.session.eval setup b
    { second with lines := first.lines ++ second.lines, notes := first.notes ++ second.notes }

/-- At the root of a session an evaluation leaves no chain but a root. -/
theorem ofFrame_inner_evalText (setup : Setup) (s : Session) (text : String) :
    Chain.ofFrame (setup.evalText text (.ofFrame s.root)).chain.inner =
      (setup.evalText text (.ofFrame s.root)).chain := by
  have hself : (Simulation.same setup.scripts setup.limits.nesting).Related (fun _ => True)
      (setup.evalText text) (setup.evalText text) :=
    Simulation.related_evalText (Simulation.related_evaluate _) fun _ _ => trivial
  have hgrows := Simulation.growsTo_of_related hself (.ofFrame s.root)
  exact Chain.ext rfl hgrows.outer.symm

theorem evalInTurn_eq_run (setup : Setup) (s : Session) (a b : String) :
    s.evalInTurn setup a b = s.run (setup.evalText a >>= fun _ => setup.evalText b) := by
  have hroot := ofFrame_inner_evalText setup s a
  unfold evalInTurn eval run
  cases h : (setup.evalText a (.ofFrame s.root)).outcome with
  | error failure =>
    rw [Action.bind_error _ h]
    simp only [h]
  | ok v =>
    rw [Action.bind_ok _ h]
    simp only [h, hroot]

/-- **A text may be cut between forms.** If a text is cut at a blank and all before the blank can be
read, then both parts in turn have the same outcome, write the same lines and leave the same
bindings in the same order as the whole. The second part may be malformed, and either one may
fail. -/
theorem eval_cut (setup : Setup) (s : Session) {a b : String} {w : Char} {forms : List Value}
    (hw : Text.isBlank w = true) (ha : Text.allBlank a.toList = false)
    (hb : Text.allBlank b.toList = false) (hread : Form.read setup.limits.nesting a = .ok forms) :
    let whole := s.eval setup (a ++ String.singleton w ++ b)
    let parts := s.evalInTurn setup a b
    whole.outcome = parts.outcome ∧ whole.lines = parts.lines ∧ whole.session = parts.session := by
  have hne : ∀ {text : String}, Text.allBlank text.toList = false → tokenize text ≠ [] :=
    fun h htokens => by rw [(tokenize_eq_nil_iff _).mp htokens] at h; cases h
  have h : (setup.evalText (a ++ String.singleton w ++ b) (.ofFrame s.root)).unnoted =
      ((setup.evalText a >>= fun _ => setup.evalText b) (.ofFrame s.root)).unnoted :=
    Evaluation.unnoted_evalText_append hw (hne ha) (hne hb) hread _
  obtain ⟨hout, hchain, hlines⟩ := Run.unnoted_eq_iff.mp h
  intro whole parts
  have hparts : parts = s.run (setup.evalText a >>= fun _ => setup.evalText b) :=
    evalInTurn_eq_run setup s a b
  rw [hparts]
  exact ⟨hout, hlines, congrArg (fun c => Session.mk c.inner) hchain⟩

/-- A definition before a line end, and behind it what is printed and a list that is not closed. -/
theorem eval_cut_unclosed :
    let setup : Setup := ⟨.ofList [], ⟨9, 9⟩⟩
    let whole := fresh.eval setup ("(let x nil)" ++ String.singleton '\n' ++ "(print x) (x")
    let parts := fresh.evalInTurn setup "(let x nil)" "(print x) (x"
    Text.isBlank '\n' = true ∧ Text.allBlank "(let x nil)".toList = false ∧
      Text.allBlank "(print x) (x".toList = false ∧
      Form.read 9 "(let x nil)" = .ok [.list [.sym "let", .sym "x", .nil]] ∧
      whole.outcome = parts.outcome ∧ whole.lines = ["nil"] ∧ "x" ∈ whole.session.root.names := by
  intro setup whole parts
  have hparse : Form.parse 9 ["(", "let", "x", "nil", ")"] =
    .ok (.list [.sym "let", .sym "x", .nil], []) := rfl
  have htokens : tokenize "(let x nil)" = ["(", "let", "x", "nil", ")"] := rfl
  have hread : Form.read 9 "(let x nil)" = .ok [.list [.sym "let", .sym "x", .nil]] := by
    rw [Form.read, htokens, Form.parseAll_of_ok hparse, Form.parseAll_nil]
  obtain ⟨hout, hlines, hsession⟩ :=
    eval_cut setup fresh (b := "(print x) (x") (w := '\n') rfl rfl rfl hread
  have hprinted : parts.lines = ["nil"] := by decide +kernel
  have hbound : "x" ∈ parts.session.root.names := by decide +kernel
  exact ⟨rfl, rfl, rfl, hread, hout, hlines.trans hprinted, hsession ▸ hbound⟩

end Session
end SmallLisp
