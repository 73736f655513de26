/-
# Reading rows of tokens

Reading a form looks no further than its last token, so what follows it does not matter
(`Form.parse_append`), and a row of tokens that can be read to its end may be followed by any other
row: the forms of both are read one after another (`Form.parseAll_append`). How many lists may be
open shows in nothing but that limit being met: under a higher one the same forms are read, and more
(`Form.parseAll_of_le`). What holds of every atom in a row, and of a list whenever it holds of its
items, holds of every form that is read (`Form.forall_parseAll`).

Key theorems: `Form.parseAll_append`, `Form.parseAll_of_le`, `Form.forall_parseAll`.
-/
import SmallLisp.Form
import Mathlib.Data.List.Basic

namespace SmallLisp
namespace Form

variable (nesting : ℕ)

/-! ### The forms of a row, one by one -/

theorem parseAll_nil : parseAll nesting [] = ([], none) := by
  rw [parseAll]

variable {nesting}

theorem parseAll_of_error {t : Token} {ts : List Token} {fault : Fault}
    (h : parse nesting (t :: ts) = .error fault) :
    parseAll nesting (t :: ts) = ([], some fault) := by
  rw [parseAll]
  split
  · rename_i h'
    rw [h] at h'
    cases h'
    rfl
  · rename_i h'
    rw [h] at h'
    cases h'

theorem parseAll_of_ok {tokens rest : List Token} {form : Value}
    (h : parse nesting tokens = .ok (form, rest)) :
    parseAll nesting tokens = (form :: (parseAll nesting rest).1, (parseAll nesting rest).2) := by
  cases tokens with
  | nil => cases h
  | cons t ts =>
    rw [parseAll]
    split
    · rename_i h'
      rw [h] at h'
      cases h'
    · rename_i h'
      rw [h] at h'
      cases h'
      rfl

/-- A row of tokens gives no form and no fault only if it is empty. -/
theorem parseAll_cons_ne (t : Token) (ts : List Token) : parseAll nesting (t :: ts) ≠ ([], none) := by
  cases h : parse nesting (t :: ts) with
  | error fault => rw [parseAll_of_error h]; simp
  | ok p => rw [parseAll_of_ok h]; simp

/-! ### Rows that follow each other -/

theorem parseIn_append (more : List Token) :
    ∀ (tokens : List Token) (stack : List (List Value)) (form : Value) (rest : List Token),
      parseIn nesting stack tokens = .ok (form, rest) →
      parseIn nesting stack (tokens ++ more) = .ok (form, rest ++ more)
  | [], _, _, _, h => by simp [parseIn] at h
  | t :: ts, stack, form, rest, h => by
    rw [parseIn] at h
    rw [List.cons_append, parseIn]
    split at h
    · cases h
    · cases h
      rfl
    · exact parseIn_append more ts _ _ _ h

/-- What follows a form does not change it. -/
theorem parse_append {tokens rest : List Token} {form : Value} (more : List Token)
    (h : parse nesting tokens = .ok (form, rest)) :
    parse nesting (tokens ++ more) = .ok (form, rest ++ more) :=
  parseIn_append more tokens [] form rest h

/-- **A row that can be read to its end may be followed by any other.** The forms of both are read
in order, up to the end or the first fault of the second. -/
theorem parseAll_append (more : List Token) : ∀ (tokens : List Token),
    (parseAll nesting tokens).2 = none → parseAll nesting (tokens ++ more) =
      ((parseAll nesting tokens).1 ++ (parseAll nesting more).1, (parseAll nesting more).2)
  | [], _ => by simp [parseAll_nil]
  | t :: ts, h => by
    cases hp : parse nesting (t :: ts) with
    | error fault => simp [parseAll_of_error hp] at h
    | ok p =>
      obtain ⟨form, rest⟩ := p
      rw [parseAll_of_ok hp] at h ⊢
      have happ : parse nesting (t :: (ts ++ more)) = .ok (form, rest ++ more) := parse_append more hp
      rw [List.cons_append, parseAll_of_ok happ, parseAll_append more rest h]
      rfl
termination_by tokens => tokens.length
decreasing_by exact length_parse_lt hp

/-! ### Readers under two limits -/

section Limits

variable {low high : ℕ} (h : low ≤ high)
include h

theorem advance_of_le (stack : List (List Value)) (t : Token) :
    advance low stack t = .error .tooDeep ∨ advance low stack t = advance high stack t := by
  unfold advance
  by_cases hopen : t = "("
  · rw [if_pos hopen, if_pos hopen]
    by_cases hlow : stack.length < low
    · right
      have hhigh : stack.length < high := by omega
      rw [if_pos hlow, if_pos hhigh]
    · left
      exact if_neg hlow
  · right
    rw [if_neg hopen, if_neg hopen]

theorem parseIn_of_le : ∀ (tokens : List Token) (stack : List (List Value)),
    parseIn low stack tokens = .error .tooDeep ∨
      parseIn low stack tokens = parseIn high stack tokens
  | [], _ => Or.inr rfl
  | t :: ts, stack => by
    rw [parseIn, parseIn]
    rcases advance_of_le h stack t with hdeep | heq
    · left
      rw [hdeep]
    · rw [← heq]
      cases advance low stack t with
      | error fault => exact Or.inr rfl
      | ok progress =>
        cases progress with
        | complete form => exact Or.inr rfl
        | within stack => exact parseIn_of_le ts stack

/-- A form that is read under a limit is read under a higher one, and so is a fault, unless it is
the limit that is met. -/
theorem parse_of_le (tokens : List Token) :
    parse low tokens = .error .tooDeep ∨ parse low tokens = parse high tokens :=
  parseIn_of_le h tokens []

/-- **A higher limit makes no difference** but to a row that is nested too deep for the lower one;
of such a row it lets more be read. -/
theorem parseAll_of_le : ∀ tokens : List Token,
    ((parseAll low tokens).2 = some .tooDeep ∧
      (parseAll low tokens).1 <+: (parseAll high tokens).1) ∨
    parseAll low tokens = parseAll high tokens
  | [] => Or.inr (by rw [parseAll_nil, parseAll_nil])
  | t :: ts => by
    cases hlow : parse low (t :: ts) with
    | error fault =>
      rcases parse_of_le h (t :: ts) with hdeep | heq
      · left
        rw [parseAll_of_error hdeep]
        exact ⟨rfl, List.nil_prefix⟩
      · right
        have hhigh : parse high (t :: ts) = .error fault := heq.symm.trans hlow
        rw [parseAll_of_error hlow, parseAll_of_error hhigh]
    | ok answer =>
      obtain ⟨form, rest⟩ := answer
      have hhigh : parse high (t :: ts) = .ok (form, rest) := by
        rcases parse_of_le h (t :: ts) with hdeep | heq
        · rw [hlow] at hdeep
          cases hdeep
        · exact heq.symm.trans hlow
      rw [parseAll_of_ok hlow, parseAll_of_ok hhigh]
      rcases parseAll_of_le rest with ⟨hdeep, hforms⟩ | heq
      · exact Or.inl ⟨hdeep, List.cons_prefix_cons.mpr ⟨rfl, hforms⟩⟩
      · right
        rw [heq]
termination_by tokens => tokens.length
decreasing_by exact length_parse_lt hlow

end Limits

/-! ### What holds of all forms -/

/-- What holds of the forms read so far. -/
def Progress.All (P : Value → Prop) : Progress → Prop
  | .complete form => P form
  | .within stack => ∀ items ∈ stack, ∀ v ∈ items, P v

section Forall

variable {P : Value → Prop}

theorem all_place {form : Value} (hform : P form) :
    ∀ stack : List (List Value), (∀ items ∈ stack, ∀ v ∈ items, P v) → (place form stack).All P
  | [], _ => hform
  | items :: stack, hstack => by
    intro items' hitems' v hv
    rcases List.mem_cons.mp hitems' with rfl | hitems'
    · rcases List.mem_cons.mp hv with rfl | hv
      · exact hform
      · exact hstack items List.mem_cons_self v hv
    · exact hstack items' (List.mem_cons_of_mem _ hitems') v hv

variable (hlist : ∀ items : List Value, (∀ v ∈ items, P v) → P (.list items))
include hlist

theorem all_advance {t : Token} (hatom : t ≠ "(" ∧ t ≠ ")" → P (.ofToken t))
    {stack : List (List Value)} (hstack : ∀ items ∈ stack, ∀ v ∈ items, P v) {p : Progress}
    (h : advance nesting stack t = .ok p) : p.All P := by
  unfold advance at h
  split at h
  · split at h
    · cases h
      intro items hitems
      rcases List.mem_cons.mp hitems with rfl | hitems
      · simp
      · exact hstack items hitems
    · cases h
  · rename_i hopen
    split at h
    · cases stack with
      | nil => cases h
      | cons items stack =>
        cases h
        refine all_place (hlist _ fun v hv => ?_) stack fun items' h' => ?_
        · exact hstack items List.mem_cons_self v (List.mem_reverse.mp hv)
        · exact hstack items' (List.mem_cons_of_mem _ h')
    · rename_i hclose
      cases h
      exact all_place (hatom ⟨hopen, hclose⟩) stack hstack

theorem forall_parseIn : ∀ (tokens : List Token) (stack : List (List Value)) (form : Value)
    (rest : List Token), (∀ t ∈ tokens, t ≠ "(" ∧ t ≠ ")" → P (.ofToken t)) →
    (∀ items ∈ stack, ∀ v ∈ items, P v) → parseIn nesting stack tokens = .ok (form, rest) →
      P form ∧ ∀ t ∈ rest, t ≠ "(" ∧ t ≠ ")" → P (.ofToken t)
  | [], _, _, _, _, _, h => by simp [parseIn] at h
  | t :: ts, stack, form, rest, hatom, hstack, h => by
    have ht := hatom t List.mem_cons_self
    have hts : ∀ u ∈ ts, u ≠ "(" ∧ u ≠ ")" → P (.ofToken u) := fun u hu =>
      hatom u (List.mem_cons_of_mem _ hu)
    rw [parseIn] at h
    split at h
    · cases h
    · rename_i hadv
      cases h
      exact ⟨all_advance hlist ht hstack hadv, hts⟩
    · rename_i hadv
      exact forall_parseIn ts _ form rest hts (all_advance hlist ht hstack hadv) h

/-- **What atoms have and lists inherit, all forms have.** -/
theorem forall_parseAll : ∀ tokens : List Token,
    (∀ t ∈ tokens, t ≠ "(" ∧ t ≠ ")" → P (.ofToken t)) →
      ∀ form ∈ (parseAll nesting tokens).1, P form
  | [], _ => by simp [parseAll_nil]
  | t :: ts, hatom => by
    cases hp : parse nesting (t :: ts) with
    | error fault => simp [parseAll_of_error hp]
    | ok p =>
      obtain ⟨form, rest⟩ := p
      obtain ⟨hform, hrest⟩ := forall_parseIn hlist (t :: ts) [] form rest hatom (by simp) hp
      rw [parseAll_of_ok hp]
      intro v hv
      rcases List.mem_cons.mp hv with rfl | hv
      · exact hform
      · exact forall_parseAll rest hrest v hv
termination_by tokens => tokens.length
decreasing_by exact length_parse_lt hp

end Forall

end Form
end SmallLisp
