/-
# More names around the innermost frame

A chain widens to another one if both have the same innermost frame and every name that has a value
in the first chain has the same value in the second. Names that only the second one binds, be it
those of special forms, can do no more than cure an evaluation of a name without a value: one that
does not end for want of a value goes the same way in both chains, and one that does has written by
then what the other one writes (`Evaluation.evaluate_widened`). Nothing asks whether a name is bound
without failing if it is not, special forms are told by their symbols alone, and no failure is
caught.

Key definitions: `Chain.WidensTo`, `Simulation.widening`.
Key theorems: `Evaluation.evaluate_widened`.
-/
import SmallLisp.Proofs.Simulation

namespace SmallLisp

/-- A chain and one with the same innermost frame in which all its names keep their values; there
may be more names around that frame. -/
structure Chain.WidensTo (c d : Chain) : Prop where
  inner : c.inner = d.inner
  lookup : ∀ {name : String} {v : Value}, c.lookup? name = some v → d.lookup? name = some v

namespace Chain

/-- A single frame widens to itself inside any other. -/
theorem widensTo_push (f : Frame) (c : Chain) : (ofFrame f).WidensTo (c.push f) where
  inner := rfl
  lookup h := by
    rw [lookup?_ofFrame] at h
    rw [lookup?_push, h, Option.some_or]

namespace WidensTo

variable {c d : Chain}

theorem define (h : c.WidensTo d) (name : String) (value : Value) :
    (c.define name value).WidensTo (d.define name value) where
  inner := congrArg (·.define name value) h.inner
  lookup {other v} hv := by
    rw [lookup?_define] at hv ⊢
    by_cases hname : name = other
    · rwa [if_pos hname] at hv ⊢
    · rw [if_neg hname] at hv ⊢
      exact h.lookup hv

theorem push (h : c.WidensTo d) (f : Frame) : (c.push f).WidensTo (d.push f) where
  inner := rfl
  lookup {other v} hv := by
    rw [lookup?_push] at hv ⊢
    cases hf : f.get? other with
    | some w => rwa [hf, Option.some_or] at hv
    | none =>
      rw [hf, Option.none_or] at hv
      exact h.lookup hv

end WidensTo
end Chain

namespace Evaluation

/-- One evaluation in a chain and in one that this widens to; a name without a value excuses. -/
def Simulation.widening (scripts : Scripts) (nesting : ℕ) : Simulation scripts nesting where
  toDiscipline := .unrestricted scripts nesting
  chains := Chain.WidensTo
  excused f := ∃ name, f = .error (.unbound name)
  lookup {c d} h name := by
    cases hc : c.lookup? name with
    | none => exact Or.inr ⟨rfl, name, rfl⟩
    | some v => exact Or.inl ⟨(h.lookup hc).symm, fun _ _ => trivial⟩
  define h n v _ _ := h.define n v
  push h f _ := h.push f
  sorted h := congrArg Frame.sorted h.inner

/-- **More names outside can only cure names without a value.** If a chain widens to another one,
then an expression that does not fail for a name without a value comes to the same end in both, has
written the same lines and leaves the same innermost frame; and if it does fail so, the lines written
by then are the first of those that it writes in the wider chain. -/
theorem evaluate_widened (scripts : Scripts) (nesting limit : ℕ) (e : Value) {c d : Chain}
    (h : c.WidensTo d) :
    let narrow := evaluate scripts nesting limit e c
    let wide := evaluate scripts nesting limit e d
    ((∀ name, narrow.outcome ≠ .error (.error (.unbound name))) →
      narrow.outcome = wide.outcome ∧ narrow.lines = wide.lines ∧
        narrow.chain.inner = wide.chain.inner) ∧
    ∀ name, narrow.outcome = .error (.error (.unbound name)) → narrow.lines <+: wide.lines := by
  intro narrow wide
  have hrel := Simulation.related_evaluate (S := .widening scripts nesting) limit e trivial
  rcases hrel c d h fun _ _ => trivial with ⟨_, ⟨name, rfl⟩, hout, hlines⟩ | hmatch
  · exact ⟨fun hbound => (hbound name hout).elim, fun _ _ => hlines⟩
  · exact ⟨fun _ => ⟨hmatch.outcome, hmatch.lines, hmatch.chains.inner⟩,
      fun _ _ => hmatch.lines ▸ List.prefix_rfl⟩

/-- A frame that binds one name. -/
def oneName : Frame := .ofList [("x", .bool true)]

/-- The same frame inside one that binds another name and that of a special form. -/
def reservedOutside : Chain := (Chain.ofFrame (.ofList [("y", .nil), ("if", .nil)])).push oneName

theorem evaluate_widened_reserved :
    (Chain.ofFrame oneName).WidensTo reservedOutside ∧
    ((∀ name, (evaluate (.ofList []) 9 3 (.list [.sym "if", .list [.sym "print", .sym "x"], .sym "x"])
        (.ofFrame oneName)).outcome ≠ .error (.error (.unbound name))) ∧
      (evaluate (.ofList []) 9 3 (.list [.sym "if", .list [.sym "print", .sym "x"], .sym "x"])
        reservedOutside).outcome = .ok (.bool true)) ∧
    ((evaluate (.ofList []) 9 3 (.list [.sym "if", .list [.sym "print", .sym "x"], .sym "y"])
        (.ofFrame oneName)).outcome = .error (.error (.unbound "y")) ∧
      ["true"] <+: (evaluate (.ofList []) 9 3
        (.list [.sym "if", .list [.sym "print", .sym "x"], .sym "y"]) reservedOutside).lines) := by
  have h : (Chain.ofFrame oneName).WidensTo reservedOutside := Chain.widensTo_push _ _
  have hbound := evaluate_widened (.ofList []) 9 3
    (.list [.sym "if", .list [.sym "print", .sym "x"], .sym "x"]) h
  have hunbound := evaluate_widened (.ofList []) 9 3
    (.list [.sym "if", .list [.sym "print", .sym "x"], .sym "y"]) h
  exact ⟨h, ⟨nofun, (hbound.1 nofun).1.symm⟩, rfl, hunbound.2 "y" rfl⟩

end Evaluation
end SmallLisp
