/-
# Laws of actions

How actions compose: an action after one that has a value takes over its chain and adds to its
lines and notes, and an action after one that fails is never begun. From these two equations
actions obey the laws of a monad, and no later proof looks into how a sequence is defined. Notes are
for observers only: what is done does not depend on them.

Key definitions: `Run.unnoted`.
Key theorems: `Action.bind_ok`, `Action.bind_error`, `Action.unnoted_bind`.
-/
import SmallLisp.Action
import Mathlib.Data.List.Infix

namespace SmallLisp

/-- A run without its notes. -/
def Run.unnoted {α : Type} (r : Run α) : Run α := { r with notes := [] }

theorem Run.unnoted_eq_iff {α : Type} {r r' : Run α} : r.unnoted = r'.unnoted ↔
    r.outcome = r'.outcome ∧ r.chain = r'.chain ∧ r.lines = r'.lines := by
  simp [unnoted]

namespace Action

variable {α β γ : Type}

/-- After an action with a value comes the next one, in the chain that the first one has left. -/
theorem bind_ok {m : Action α} {c : Chain} {a : α} (next : α → Action β)
    (h : (m c).outcome = .ok a) : (m >>= next) c =
      ⟨(next a (m c).chain).outcome, (next a (m c).chain).chain,
        (m c).lines ++ (next a (m c).chain).lines, (m c).notes ++ (next a (m c).chain).notes⟩ := by
  show Action.bind m next c = _
  unfold Action.bind
  rcases hr : m c with ⟨outcome, c', lines, notes⟩
  rw [hr] at h
  obtain rfl : outcome = .ok a := h
  rfl

/-- After an action that fails nothing is done. -/
theorem bind_error {m : Action α} {c : Chain} {failure : Failure} (next : α → Action β)
    (h : (m c).outcome = .error failure) :
    (m >>= next) c = ⟨.error failure, (m c).chain, (m c).lines, (m c).notes⟩ := by
  show Action.bind m next c = _
  unfold Action.bind
  rcases hr : m c with ⟨outcome, c', lines, notes⟩
  rw [hr] at h
  obtain rfl : outcome = .error failure := h
  rfl

/-- A sequence of actions begins with the lines of the first one. -/
theorem lines_prefix_bind (m : Action α) (next : α → Action β) (c : Chain) :
    (m c).lines <+: ((m >>= next) c).lines := by
  cases h : (m c).outcome with
  | error failure => rw [bind_error next h]
  | ok a => rw [bind_ok next h]; exact List.prefix_append _ _

/-- A sequence of actions takes all notes that the first one takes. -/
theorem notes_subset_bind (m : Action α) (next : α → Action β) (c : Chain) :
    (m c).notes ⊆ ((m >>= next) c).notes := by
  cases h : (m c).outcome with
  | error failure => rw [bind_error next h]; exact List.Subset.refl _
  | ok a => rw [bind_ok next h]; exact List.subset_append_left _ _

protected theorem bind_pure (m : Action α) : (m >>= fun a => pure a) = m := by
  funext c
  rcases hm : m c with ⟨outcome, c', lines, notes⟩
  cases outcome with
  | error failure => rw [bind_error _ (congrArg Run.outcome hm), hm]
  | ok a =>
    rw [bind_ok _ (congrArg Run.outcome hm), hm]
    show Run.mk _ _ (lines ++ []) (notes ++ []) = _
    rw [List.append_nil, List.append_nil]
    rfl

protected theorem bind_assoc (m : Action α) (next : α → Action β) (last : β → Action γ) :
    (m >>= next >>= last) = m >>= fun a => next a >>= last := by
  funext c
  cases hm : (m c).outcome with
  | error failure =>
    have hmn : ((m >>= next) c).outcome = .error failure := by rw [bind_error next hm]
    rw [bind_error last hmn, bind_error next hm, bind_error _ hm]
  | ok a =>
    have hrun := bind_ok next hm
    rw [bind_ok (fun a => next a >>= last) hm]
    cases hn : (next a (m c).chain).outcome with
    | error failure =>
      have hmn : ((m >>= next) c).outcome = .error failure := by rw [hrun, hn]
      rw [bind_error last hmn, bind_error last hn, hrun]
    | ok b =>
      have hmn : ((m >>= next) c).outcome = .ok b := by rw [hrun, hn]
      rw [bind_ok last hmn, bind_ok last hn, hrun]
      simp only [List.append_assoc]

instance : LawfulMonad Action :=
  LawfulMonad.mk' _ Action.bind_pure (fun _ _ => rfl) Action.bind_assoc

/-- Notes have no bearing on what is done next. -/
theorem unnoted_bind {m m' : Action α} {next next' : α → Action β}
    (hm : ∀ c, (m c).unnoted = (m' c).unnoted)
    (hnext : ∀ a c, (next a c).unnoted = (next' a c).unnoted) (c : Chain) :
    ((m >>= next) c).unnoted = ((m' >>= next') c).unnoted := by
  obtain ⟨hout, hchain, hlines⟩ := Run.unnoted_eq_iff.mp (hm c)
  cases h : (m c).outcome with
  | error failure =>
    rw [bind_error next h, bind_error next' (hout ▸ h)]
    exact Run.unnoted_eq_iff.mpr ⟨rfl, hchain, hlines⟩
  | ok a =>
    obtain ⟨hout', hchain', hlines'⟩ := Run.unnoted_eq_iff.mp (hnext a (m c).chain)
    rw [bind_ok next h, bind_ok next' (hout ▸ h), ← hchain]
    refine Run.unnoted_eq_iff.mpr ⟨hout', hchain', ?_⟩
    show (m c).lines ++ _ = (m' c).lines ++ _
    rw [hlines, hlines']

end Action
end SmallLisp
