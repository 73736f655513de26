/-
# What an expression can see of its chain

Two chains are alike if their innermost frames bind the same names to the same values and every
name means the same in both. How the other bindings are spread over frames, what they hide and in
which order they were made does not matter: nothing that is evaluated in alike chains can tell them
apart, and it leaves them alike (`Evaluation.evaluate_alike`). That holds of `env` too, because
listing a frame by name forgets the order of its bindings.

Key definitions: `Chain.Alike`.
Key theorems: `Evaluation.evaluate_alike`.
-/
import SmallLisp.Proofs.Simulation

namespace SmallLisp

/-- Chains that differ in nothing that an expression can see. -/
structure Chain.Alike (c d : Chain) : Prop where
  inner : ∀ name, c.inner.get? name = d.inner.get? name
  lookup : ∀ name, c.lookup? name = d.lookup? name

namespace Chain.Alike

variable {c d : Chain}

theorem define (h : c.Alike d) (name : String) (value : Value) :
    (c.define name value).Alike (d.define name value) where
  inner other := by
    show (c.inner.define name value).get? other = (d.inner.define name value).get? other
    rw [Frame.get?_define, Frame.get?_define, h.inner]
  lookup other := by rw [lookup?_define, lookup?_define, h.lookup]

theorem push (h : c.Alike d) (f : Frame) : (c.push f).Alike (d.push f) where
  inner _ := rfl
  lookup other := by rw [lookup?_push, lookup?_push, h.lookup]

end Chain.Alike

namespace Evaluation

/-- One evaluation in two chains that are alike. -/
def Simulation.alike (scripts : Scripts) (nesting : ℕ) : Simulation scripts nesting where
  toDiscipline := .unrestricted scripts nesting
  chains := Chain.Alike
  excused _ := False
  lookup h name := Or.inl ⟨h.lookup name, fun _ _ => trivial⟩
  define h n v _ _ := h.define n v
  push h f _ := h.push f
  sorted h := Frame.sorted_congr h.inner

/-- **Only what is visible matters.** In alike chains every expression comes to the same end,
writes the same lines and leaves the chains alike, for all scripts and under every limit. -/
theorem evaluate_alike (scripts : Scripts) (nesting limit : ℕ) (e : Value) {c d : Chain}
    (h : c.Alike d) :
    (evaluate scripts nesting limit e c).outcome = (evaluate scripts nesting limit e d).outcome ∧
      (evaluate scripts nesting limit e c).lines = (evaluate scripts nesting limit e d).lines ∧
      (evaluate scripts nesting limit e c).chain.Alike
        (evaluate scripts nesting limit e d).chain := by
  have hrel := Simulation.related_evaluate (S := .alike scripts nesting) limit e trivial
  rcases hrel c d h fun _ _ => trivial with ⟨_, hfalse, _⟩ | hmatch
  · exact hfalse.elim
  · exact ⟨hmatch.outcome, hmatch.lines, hmatch.chains⟩

/-- Three frames, in the outermost of which a `y` is hidden. -/
def threeFrames : Chain :=
  ((Chain.ofFrame (.ofList [("y", .bool false)])).push (.ofList [("z", .nil)])).push
    (.ofList [("x", .bool true), ("y", .nil)])

/-- Two frames with the same bindings in sight, made in another order. -/
def twoFrames : Chain :=
  (Chain.ofFrame (.ofList [("z", .nil)])).push (.ofList [("y", .nil), ("x", .bool true)])

theorem alike_threeFrames_twoFrames : threeFrames.Alike twoFrames := by
  have hinner : ∀ name, threeFrames.inner.get? name = twoFrames.inner.get? name := fun name => by
    show ((Frame.empty.define "x" _).define "y" _).get? name =
      ((Frame.empty.define "y" _).define "x" _).get? name
    simp only [Frame.get?_define]
    by_cases hx : "x" = name
    · subst hx
      rfl
    · simp only [hx, if_false]
  refine ⟨hinner, fun name => ?_⟩
  by_cases hy : "y" = name
  · subst hy
    rfl
  · have hhidden : (Frame.ofList [("y", .bool false)]).get? name = none := if_neg hy
    rw [threeFrames, twoFrames, Chain.lookup?_push, Chain.lookup?_push, Chain.lookup?_push,
      Chain.lookup?_ofFrame, Chain.lookup?_ofFrame, hhidden, Option.or_none]
    congr 1
    exact hinner name

theorem evaluate_alike_bindings :
    threeFrames.Alike twoFrames ∧
      (evaluate (.ofList []) 9 2 (.list [.sym "env"]) threeFrames).lines =
        (evaluate (.ofList []) 9 2 (.list [.sym "env"]) twoFrames).lines := by
  obtain ⟨-, hlines, -⟩ :=
    evaluate_alike (.ofList []) 9 2 (.list [.sym "env"]) alike_threeFrames_twoFrames
  exact ⟨alike_threeFrames_twoFrames, hlines⟩

end Evaluation
end SmallLisp
