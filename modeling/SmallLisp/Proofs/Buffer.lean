/-
# Rows of forms

The forms of a row of tokens are read one by one, each of them evaluated before the next one is
looked at. It comes to the same to read as far as possible first and to evaluate then
(`Evaluation.runForms_eq`): what is evaluated before a fault does not depend on the fault, and the
fault is met only if nothing failed before. So a row may follow another one that can be read
(`Evaluation.runForms_append`).

Key definitions: `Evaluation.conclude`.
Key theorems: `Evaluation.runForms_eq`, `Evaluation.evalLast_append`, `Evaluation.runForms_append`.
-/
import SmallLisp.Evaluation
import SmallLisp.Proofs.Action
import SmallLisp.Proofs.Reading

namespace SmallLisp
namespace Evaluation

variable (nesting : ℕ) (eval : Value → Action Value)

/-- How a row ends after its forms: in the fault that stopped the reader, or with the value of the
last form and a note of their number. -/
def conclude (fault : Option Form.Fault) (forms : ℕ) (v : Value) : Action Value :=
  match fault with
  | some fault => .fail fault.toFailure
  | none => do
    .note (.evaluated forms)
    pure v

/-- **Reading and evaluating by turns is reading first and evaluating then.** -/
theorem runForms_eq : ∀ (tokens : List Token) (before : Value) (done : ℕ),
    runForms nesting eval before done tokens = do
      let v ← evalLast eval before (Form.parseAll nesting tokens).1
      conclude (Form.parseAll nesting tokens).2
        (done + (Form.parseAll nesting tokens).1.length) v
  | [], before, done => by
    rw [runForms, Form.parseAll_nil]
    rfl
  | t :: ts, before, done => by
    rw [runForms]
    split
    · rename_i fault hp
      rw [Form.parseAll_of_error hp]
      rfl
    · rename_i form rest hp
      rw [Form.parseAll_of_ok hp, evalLast, bind_assoc]
      congr 1
      funext v
      rw [runForms_eq rest v (done + 1), List.length_cons, Nat.add_right_comm, ← Nat.add_assoc]
termination_by tokens => tokens.length
decreasing_by exact Form.length_parse_lt ‹_›

/-- Two rows of expressions after each other are evaluated one after the other. -/
theorem evalLast_append (more : List Value) : ∀ (es : List Value) (before : Value),
    evalLast eval before (es ++ more) = do
      let v ← evalLast eval before es
      evalLast eval v more
  | [], before => rfl
  | e :: es, before => by
    rw [List.cons_append, evalLast, evalLast, bind_assoc]
    congr 1
    funext v
    exact evalLast_append more es v

variable {nesting eval}

/-- A row that can be read to its end is evaluated before what follows it. -/
theorem runForms_append {tokens : List Token} (h : (Form.parseAll nesting tokens).2 = none)
    (more : List Token) (before : Value) (done : ℕ) :
    runForms nesting eval before done (tokens ++ more) = (do
      let v ← evalLast eval before (Form.parseAll nesting tokens).1
      runForms nesting eval v (done + (Form.parseAll nesting tokens).1.length) more) := by
  rw [runForms_eq, Form.parseAll_append more tokens h, evalLast_append, bind_assoc]
  congr 1
  funext v
  rw [runForms_eq, List.length_append, Nat.add_assoc]

/-- Where a row that is not empty begins does not matter, but for the number of forms noted. -/
theorem unnoted_runForms (before : Value) (done : ℕ) {tokens : List Token} (hne : tokens ≠ [])
    (c : Chain) : (runForms nesting eval before done tokens c).unnoted =
      (runTokens nesting eval tokens c).unnoted := by
  obtain ⟨t, ts, rfl⟩ := List.exists_cons_of_ne_nil hne
  have hread : Form.parseAll nesting (t :: ts) ≠ ([], none) := Form.parseAll_cons_ne t ts
  unfold runTokens
  rw [runForms_eq, runForms_eq]
  rcases hp : Form.parseAll nesting (t :: ts) with ⟨_ | ⟨form, forms⟩, fault⟩
  · cases fault with
    | none => exact (hread hp).elim
    | some fault => rfl
  · refine Action.unnoted_bind (m := evalLast eval before (form :: forms)) (fun _ => rfl) ?_ c
    intro v c
    cases fault <;> rfl

/-- How many forms are done is only noted. -/
theorem unnoted_runForms_count (before : Value) (done done' : ℕ) (tokens : List Token) (c : Chain) :
    (runForms nesting eval before done tokens c).unnoted =
      (runForms nesting eval before done' tokens c).unnoted := by
  cases tokens with
  | nil =>
    rw [runForms, runForms]
    rfl
  | cons t ts =>
    rw [unnoted_runForms before done (List.cons_ne_nil t ts),
      unnoted_runForms before done' (List.cons_ne_nil t ts)]

/-- A row that can be read to its end may be run for itself, and what follows it after it. -/
theorem unnoted_runForms_append {tokens : List Token} (h : (Form.parseAll nesting tokens).2 = none)
    (more : List Token) (before : Value) (done done' : ℕ) (c : Chain) :
    ((runForms nesting eval before done tokens >>= fun v => runForms nesting eval v done' more)
      c).unnoted = (runForms nesting eval before done (tokens ++ more) c).unnoted := by
  rw [runForms_append h, runForms_eq, h, bind_assoc]
  refine Action.unnoted_bind (fun _ => rfl) (fun v c => ?_) c
  exact unnoted_runForms_count v done' _ more c

theorem evalText_of_ne {text : String} (hne : tokenize text ≠ []) :
    evalText nesting eval text = runTokens nesting eval (tokenize text) := by
  unfold evalText
  split
  · rename_i htokens
    exact (hne htokens).elim
  · rename_i htokens
    rw [htokens]

end Evaluation
end SmallLisp
