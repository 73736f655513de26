/-
# Brackets and faults

Which fault the reader finds in a row of tokens can be told by counting. The depth of a row after
some of its tokens is how many parentheses they open less how many they close. A form is complete
where the depth first comes back to what it was, a parenthesis is stray where the depth falls below
zero, and a list is not closed if the depth never comes back. So much is shown for a reader in the
midst of a form, with as many lists open as its stack is long (`Form.verdict_parseIn`); a form that
is read takes the depth back to zero, and the rest of the row is judged as a row of its own
(`Form.rowVerdict_parseAll`).

Key definitions: `Form.depth`, `Form.Returns`, `Form.Verdict`, `Form.RowVerdict`.
Key theorems: `Form.verdict_parseIn`, `Form.rowVerdict_parseAll`, `Form.length_parseAll`,
`Form.faults_follow_depth`.
-/
import SmallLisp.Proofs.Grammar
import Mathlib.Algebra.Order.Group.Int

namespace SmallLisp
namespace Form

/-- How many more parentheses the first tokens of a row open than they close. -/
def depth (tokens : List Token) (i : ℕ) : ℤ :=
  ((tokens.take i).count "(" : ℤ) - (tokens.take i).count ")"

/-- After its first tokens a row has closed all that it has opened, and nothing else before. -/
def Returns (tokens : List Token) (i : ℕ) : Prop :=
  depth tokens i = 0 ∧ ∀ j ≤ i, 0 ≤ depth tokens j

instance (tokens : List Token) : DecidablePred (Returns tokens) :=
  fun _ => inferInstanceAs (Decidable (_ ∧ _))

/-! ### Counting -/

theorem depth_zero (tokens : List Token) : depth tokens 0 = 0 := by
  simp [depth]

theorem depth_nil (i : ℕ) : depth [] i = 0 := by
  simp [depth]

theorem depth_open (ts : List Token) (i : ℕ) : depth ("(" :: ts) (i + 1) = depth ts i + 1 := by
  have hne : ¬ ("(" : String) = ")" := by decide
  simp [depth, hne]
  omega

theorem depth_close (ts : List Token) (i : ℕ) : depth (")" :: ts) (i + 1) = depth ts i - 1 := by
  have hne : ¬ (")" : String) = "(" := by decide
  simp [depth, hne]
  omega

theorem depth_word {t : Token} (h : t.IsWord) (ts : List Token) (i : ℕ) :
    depth (t :: ts) (i + 1) = depth ts i := by
  simp [depth, h.1, h.2]

/-- The depth goes on from where some tokens have left it. -/
theorem depth_add (tokens : List Token) (n i : ℕ) :
    depth tokens (n + i) = depth tokens n + depth (tokens.drop n) i := by
  simp only [depth, List.take_add, List.count_append]
  omega

/-- The first token of a row opens a list if the depth is positive behind it. -/
theorem head?_eq_open_of_depth {tokens : List Token} (h : 0 < depth tokens 1) :
    tokens.head? = some "(" := by
  cases tokens with
  | nil => simp [depth_nil] at h
  | cons t ts =>
    rcases t.cases_isWord with rfl | rfl | hword
    · rfl
    · rw [depth_close, depth_zero] at h
      omega
    · rw [depth_word hword, depth_zero] at h
      omega

/-! ### One form -/

/-- What becomes of a reader in a row of tokens, with `k` lists open before the row. -/
inductive Verdict (nesting k : ℕ) (tokens : List Token) : Except Fault (Value × List Token) → Prop
  | noToken : k = 0 → tokens = [] → Verdict nesting k tokens (.error .noToken)
  | strayClose : k = 0 → tokens.head? = some ")" → Verdict nesting k tokens (.error .strayClose)
  | complete {n : ℕ} {form : Value} : 1 ≤ n → n ≤ tokens.length → k + depth tokens n = 0 →
    (∀ i, 1 ≤ i → i < n → 0 < k + depth tokens i) →
      Verdict nesting k tokens (.ok (form, tokens.drop n))
  | unclosed : (∀ i, 1 ≤ i → 0 < k + depth tokens i) → Verdict nesting k tokens (.error .unclosed)
  | tooDeep {n : ℕ} : n ≤ tokens.length → nesting < k + depth tokens n →
    (∀ i, 1 ≤ i → i ≤ n → 0 < k + depth tokens i) → Verdict nesting k tokens (.error .tooDeep)

section Reading

variable {nesting : ℕ}

/-- A token that leaves lists open decides nothing. -/
theorem Verdict.cons {k k' : ℕ} {t : Token} {ts : List Token}
    {answer : Except Fault (Value × List Token)} (hopen : 0 < k')
    (hdepth : ∀ i, k + depth (t :: ts) (i + 1) = k' + depth ts i)
    (h : Verdict nesting k' ts answer) : Verdict nesting k (t :: ts) answer := by
  -- behind the token the depth is positive, and further on it is that of the rest
  have hshift : ∀ {p : ℕ → Prop}, (∀ i, 1 ≤ i → p i → 0 < k' + depth ts i) →
      ∀ i, 1 ≤ i → p (i - 1) → 0 < k + depth (t :: ts) i := by
    intro p hp i hi hpi
    obtain ⟨j, rfl⟩ := Nat.exists_eq_add_of_le' hi
    rw [Nat.add_sub_cancel] at hpi
    rw [hdepth]
    rcases Nat.eq_zero_or_pos j with rfl | hj
    · rw [depth_zero]
      omega
    · exact hp j hj hpi
  cases h with
  | noToken hk => omega
  | strayClose hk => omega
  | @complete n form hn hlen hzero hpos =>
    refine .complete (n := n + 1) (by omega) (by simpa using hlen) (by rw [hdepth, hzero]) ?_
    intro i hi hin
    exact hshift (p := (· < n)) hpos i hi (by omega)
  | unclosed hpos =>
    exact .unclosed fun i hi => hshift (p := fun _ => True) (fun i hi _ => hpos i hi) i hi trivial
  | @tooDeep n hlen hdeep hpos =>
    refine .tooDeep (n := n + 1) (by simpa using hlen) (by rw [hdepth]; exact hdeep) ?_
    intro i hi hin
    exact hshift (p := (· ≤ n)) hpos i hi (by omega)

/-- **The reader follows the depth.** With some lists open it goes on to where all of them are
closed. -/
theorem verdict_parseIn : ∀ (tokens : List Token) (stack : List (List Value)),
    Verdict nesting stack.length tokens (parseIn nesting stack tokens)
  | [], [] => .noToken rfl rfl
  | [], items :: stack => .unclosed fun i _ => by
    rw [depth_nil, List.length_cons]
    omega
  | t :: ts, stack => by
    rcases t.cases_isWord with rfl | rfl | hword
    · rcases Nat.lt_or_ge stack.length nesting with hroom | hfull
      · rw [parseIn_open stack ts hroom]
        refine (verdict_parseIn ts ([] :: stack)).cons (by simp) fun i => ?_
        rw [depth_open, List.length_cons]
        push_cast
        omega
      · rw [parseIn_open_of_le stack ts hfull]
        have hone : depth ("(" :: ts) 1 = 1 := by rw [depth_open, depth_zero]; rfl
        refine .tooDeep (n := 1) (by simp) (by rw [hone]; omega) fun i hi hin => ?_
        obtain rfl : i = 1 := by omega
        rw [hone]
        omega
    · cases stack with
      | nil => exact .strayClose rfl rfl
      | cons items stack =>
        rw [parseIn_close]
        cases stack with
        | nil =>
          refine .complete (n := 1) le_rfl (by simp) ?_ fun i hi hin => by omega
          rw [depth_close, depth_zero]
          rfl
        | cons items' stack =>
          refine (verdict_parseIn ts (_ :: stack)).cons (by simp) fun i => ?_
          rw [depth_close, List.length_cons, List.length_cons, List.length_cons]
          push_cast
          omega
    · rw [parseIn_word stack ts hword]
      cases stack with
      | nil =>
        refine .complete (n := 1) le_rfl (by simp) ?_ fun i hi hin => by omega
        rw [depth_word hword, depth_zero]
        rfl
      | cons items stack =>
        refine (verdict_parseIn ts (_ :: stack)).cons (by simp) fun i => ?_
        rw [depth_word hword, List.length_cons, List.length_cons]

theorem verdict_parse (nesting : ℕ) (tokens : List Token) :
    Verdict nesting 0 tokens (parse nesting tokens) :=
  verdict_parseIn tokens []

/-- A form that is read ends where the depth first is zero again. -/
theorem exists_depth_of_parse {tokens rest : List Token} {form : Value}
    (h : parse nesting tokens = .ok (form, rest)) :
    ∃ n, 1 ≤ n ∧ n ≤ tokens.length ∧ rest = tokens.drop n ∧ depth tokens n = 0 ∧
      ∀ i, 1 ≤ i → i < n → 0 < depth tokens i := by
  have hv := verdict_parse nesting tokens
  rw [h] at hv
  cases hv with
  | @complete n _ hn hlen hzero hpos =>
    exact ⟨n, hn, hlen, rfl, by simpa using hzero, by simpa using hpos⟩

theorem parse_eq_noToken_iff (tokens : List Token) :
    parse nesting tokens = .error .noToken ↔ tokens = [] := by
  constructor
  · intro h
    have hv := verdict_parse nesting tokens
    rw [h] at hv
    cases hv with
    | noToken _ hnil => exact hnil
  · rintro rfl
    rfl

theorem parse_eq_strayClose_iff (tokens : List Token) :
    parse nesting tokens = .error .strayClose ↔ tokens.head? = some ")" := by
  constructor
  · intro h
    have hv := verdict_parse nesting tokens
    rw [h] at hv
    cases hv with
    | strayClose _ hhead => exact hhead
  · intro h
    obtain ⟨ts, rfl⟩ := List.head?_eq_some_iff.mp h
    rfl

theorem parse_eq_unclosed_iff {tokens : List Token}
    (hlimit : parse nesting tokens ≠ .error .tooDeep) :
    parse nesting tokens = .error .unclosed ↔
      tokens.head? = some "(" ∧ ∀ i, 1 ≤ i → i ≤ tokens.length → 0 < depth tokens i := by
  have hv := verdict_parse nesting tokens
  constructor
  · intro h
    rw [h] at hv
    cases hv with
    | unclosed hpos =>
      have hpos' : ∀ i, 1 ≤ i → 0 < depth tokens i := by simpa using hpos
      exact ⟨head?_eq_open_of_depth (hpos' 1 le_rfl), fun i hi _ => hpos' i hi⟩
  · rintro ⟨hhead, hpos⟩
    generalize parse nesting tokens = answer at hv hlimit ⊢
    cases hv with
    | noToken _ hnil =>
      rw [hnil] at hhead
      cases hhead
    | strayClose _ hclose =>
      rw [hclose] at hhead
      exact absurd (Option.some.inj hhead) (by decide)
    | @complete n _ hn hlen hzero _ =>
      have := hpos n hn hlen
      omega
    | unclosed _ => rfl
    | tooDeep => exact (hlimit rfl).elim

/-! ### All forms -/

/-- What becomes of a row of tokens that is read form by form. -/
inductive RowVerdict (nesting : ℕ) (tokens : List Token) : Option Fault → Prop
  | none : (∀ i, 0 ≤ depth tokens i) → depth tokens tokens.length = 0 →
    RowVerdict nesting tokens none
  | unclosed : (∀ i, 0 ≤ depth tokens i) → 0 < depth tokens tokens.length →
    RowVerdict nesting tokens (some .unclosed)
  | strayClose {n : ℕ} : n ≤ tokens.length → depth tokens n < 0 →
    RowVerdict nesting tokens (some .strayClose)
  | tooDeep {n : ℕ} : n ≤ tokens.length → nesting < depth tokens n →
    (∀ i ≤ n, 0 ≤ depth tokens i) → RowVerdict nesting tokens (some .tooDeep)

theorem nonneg_of_complete {tokens : List Token} {n : ℕ} (hzero : depth tokens n = 0)
    (hpos : ∀ i, 1 ≤ i → i < n → 0 < depth tokens i) : ∀ i ≤ n, 0 ≤ depth tokens i := by
  intro i hi
  rcases Nat.eq_zero_or_pos i with rfl | h0
  · rw [depth_zero]
  · rcases Nat.lt_or_ge i n with hlt | hge
    · exact (hpos i h0 hlt).le
    · obtain rfl : i = n := by omega
      exact hzero.ge

/-- Behind a form the rest of a row is judged as a row of its own. -/
theorem RowVerdict.behind {tokens : List Token} {n : ℕ} {fault : Option Fault}
    (hlen : n ≤ tokens.length) (hzero : depth tokens n = 0) (hbefore : ∀ i ≤ n, 0 ≤ depth tokens i)
    (h : RowVerdict nesting (tokens.drop n) fault) : RowVerdict nesting tokens fault := by
  have hbehind : ∀ i, depth tokens (n + i) = depth (tokens.drop n) i := fun i => by
    rw [depth_add, hzero, zero_add]
  have hend : depth tokens tokens.length = depth (tokens.drop n) (tokens.drop n).length := by
    rw [← hbehind, List.length_drop, Nat.add_sub_cancel' hlen]
  have hall : ∀ {p : ℕ → Prop}, (∀ i, p i → 0 ≤ depth (tokens.drop n) i) →
      ∀ i, p (i - n) → 0 ≤ depth tokens i := by
    intro p hp i hpi
    rcases Nat.lt_or_ge i n with hlt | hge
    · exact hbefore i hlt.le
    · obtain ⟨j, rfl⟩ := Nat.exists_eq_add_of_le hge
      rw [hbehind]
      exact hp j (by simpa using hpi)
  cases h with
  | none hpos hfinal =>
    exact .none (fun i => hall (p := fun _ => True) (fun i _ => hpos i) i trivial) (hend ▸ hfinal)
  | unclosed hpos hfinal =>
    exact .unclosed (fun i => hall (p := fun _ => True) (fun i _ => hpos i) i trivial)
      (hend ▸ hfinal)
  | @strayClose m hm hneg =>
    refine .strayClose (n := n + m) ?_ (by rwa [hbehind])
    rw [List.length_drop] at hm
    omega
  | @tooDeep m hm hdeep hpos =>
    rw [List.length_drop] at hm
    refine .tooDeep (n := n + m) (by omega) (by rwa [hbehind]) fun i hi => ?_
    exact hall (p := (· ≤ m)) hpos i (by omega)

/-- **A row is judged by its depth.** -/
theorem rowVerdict_parseAll (nesting : ℕ) : ∀ tokens : List Token,
    RowVerdict nesting tokens (parseAll nesting tokens).2
  | [] => by
    rw [parseAll_nil]
    exact .none (fun i => (depth_nil i).ge) (depth_nil _)
  | t :: ts => by
    cases hp : parse nesting (t :: ts) with
    | error fault =>
      rw [parseAll_of_error hp]
      have hv := verdict_parse nesting (t :: ts)
      rw [hp] at hv
      cases hv with
      | noToken _ hnil => cases hnil
      | strayClose _ hhead =>
        obtain rfl : t = ")" := Option.some.inj hhead
        refine .strayClose (n := 1) (by simp) ?_
        rw [depth_close, depth_zero]
        decide
      | unclosed hpos =>
        have hpos' : ∀ i, 1 ≤ i → 0 < depth (t :: ts) i := by simpa using hpos
        refine .unclosed (fun i => ?_) (hpos' _ (by simp))
        rcases Nat.eq_zero_or_pos i with rfl | hi
        · rw [depth_zero]
        · exact (hpos' i hi).le
      | @tooDeep n hlen hdeep hpos =>
        refine .tooDeep hlen (by simpa using hdeep) fun i hi => ?_
        rcases Nat.eq_zero_or_pos i with rfl | h0
        · rw [depth_zero]
        · have := hpos i h0 hi
          omega
    | ok answer =>
      obtain ⟨form, rest⟩ := answer
      obtain ⟨n, hn, hlen, rfl, hzero, hpos⟩ := exists_depth_of_parse hp
      rw [parseAll_of_ok hp]
      exact (rowVerdict_parseAll nesting _).behind hlen hzero (nonneg_of_complete hzero hpos)
termination_by tokens => tokens.length
decreasing_by exact length_parse_lt hp

/-- A form that is read is one return to depth zero, at its last token. -/
theorem countP_returns_of_complete {tokens : List Token} {n : ℕ} (hn : 1 ≤ n)
    (hlen : n ≤ tokens.length) (hzero : depth tokens n = 0)
    (hpos : ∀ i, 1 ≤ i → i < n → 0 < depth tokens i) :
    (List.range' 1 tokens.length).countP (Returns tokens ·) =
      1 + (List.range' 1 (tokens.drop n).length).countP (Returns (tokens.drop n) ·) := by
  have hbefore := nonneg_of_complete hzero hpos
  obtain ⟨m, rfl⟩ := Nat.exists_eq_add_of_le' hn
  have hinside : (List.range' 1 m).countP (Returns tokens ·) = 0 := by
    rw [List.countP_eq_zero]
    intro i hi
    obtain ⟨hi1, him⟩ := List.mem_range'_1.mp hi
    have := hpos i hi1 (by omega)
    simp only [decide_eq_true_eq]
    rintro ⟨hi0, -⟩
    omega
  have hlast : Returns tokens (1 + m) := by
    rw [Nat.add_comm]
    exact ⟨hzero, hbefore⟩
  have hbehind : ∀ i, Returns tokens (m + 1 + i) ↔ Returns (tokens.drop (m + 1)) i := by
    intro i
    have hdepth : ∀ j, depth tokens (m + 1 + j) = depth (tokens.drop (m + 1)) j := fun j => by
      rw [depth_add, hzero, zero_add]
    unfold Returns
    rw [hdepth]
    refine and_congr_right fun _ => ⟨fun h j hj => ?_, fun h j hj => ?_⟩
    · rw [← hdepth]
      exact h _ (by omega)
    · rcases Nat.lt_or_ge j (m + 1) with hlt | hge
      · exact hbefore j hlt.le
      · obtain ⟨k, rfl⟩ := Nat.exists_eq_add_of_le hge
        rw [hdepth]
        exact h k (by omega)
  obtain ⟨k, hk⟩ := Nat.exists_eq_add_of_le hlen
  rw [List.length_drop, hk, Nat.add_sub_cancel_left, ← List.range'_append_1, List.countP_append,
    List.range'_1_concat, List.countP_append, hinside, Nat.zero_add,
    List.countP_singleton, if_pos (by simpa using hlast)]
  congr 1
  rw [Nat.add_comm 1 (m + 1), ← List.map_add_range' , List.countP_map]
  exact List.countP_congr fun i _ => by simpa using hbehind i

/-- The forms that are read are as many as the returns to depth zero. -/
theorem length_parseAll : ∀ tokens : List Token, (parseAll nesting tokens).2 ≠ some .tooDeep →
    (parseAll nesting tokens).1.length = (List.range' 1 tokens.length).countP (Returns tokens ·)
  | [], _ => by
    rw [parseAll_nil]
    rfl
  | t :: ts, hlimit => by
    cases hp : parse nesting (t :: ts) with
    | error fault =>
      rw [parseAll_of_error hp] at hlimit ⊢
      symm
      rw [List.length_nil, List.countP_eq_zero]
      intro i hi
      obtain ⟨hi1, -⟩ := List.mem_range'_1.mp hi
      simp only [decide_eq_true_eq]
      rintro ⟨hi0, hnonneg⟩
      have hv := verdict_parse nesting (t :: ts)
      rw [hp] at hv
      cases hv with
      | noToken _ hnil => cases hnil
      | strayClose _ hhead =>
        obtain rfl : t = ")" := Option.some.inj hhead
        have := hnonneg 1 hi1
        rw [depth_close, depth_zero] at this
        omega
      | unclosed hpos =>
        have := hpos i hi1
        omega
      | tooDeep => exact hlimit rfl
    | ok answer =>
      obtain ⟨form, rest⟩ := answer
      obtain ⟨n, hn, hlen, rfl, hzero, hpos⟩ := exists_depth_of_parse hp
      rw [parseAll_of_ok hp] at hlimit ⊢
      rw [List.length_cons, length_parseAll _ hlimit, Nat.add_comm,
        countP_returns_of_complete hn hlen hzero hpos]
termination_by tokens => tokens.length
decreasing_by exact length_parse_lt hp

/-- The fault of a row that does not meet the limit, by its depth. -/
theorem parseAll_fault_iff {tokens : List Token}
    (hlimit : (parseAll nesting tokens).2 ≠ some .tooDeep) :
    ((parseAll nesting tokens).2 = some .strayClose ↔ ∃ i ≤ tokens.length, depth tokens i < 0) ∧
    ((parseAll nesting tokens).2 = some .unclosed ↔
      (∀ i ≤ tokens.length, 0 ≤ depth tokens i) ∧ 0 < depth tokens tokens.length) ∧
    ((parseAll nesting tokens).2 = none ↔
      (∀ i ≤ tokens.length, 0 ≤ depth tokens i) ∧ depth tokens tokens.length = 0) := by
  have hv := rowVerdict_parseAll nesting tokens
  generalize (parseAll nesting tokens).2 = fault at hv hlimit ⊢
  cases hv with
  | none hpos hfinal =>
    refine ⟨⟨nofun, fun ⟨i, _, hi⟩ => ?_⟩, ⟨nofun, fun ⟨_, h⟩ => ?_⟩, fun _ => ?_, fun _ => rfl⟩
    · have := hpos i
      omega
    · omega
    · exact ⟨fun i _ => hpos i, hfinal⟩
  | unclosed hpos hfinal =>
    refine ⟨⟨nofun, fun ⟨i, _, hi⟩ => ?_⟩, ⟨fun _ => ?_, fun _ => rfl⟩, nofun, fun ⟨_, h⟩ => ?_⟩
    · have := hpos i
      omega
    · exact ⟨fun i _ => hpos i, hfinal⟩
    · omega
  | @strayClose n hn hneg =>
    have hnot : ¬ ∀ i ≤ tokens.length, 0 ≤ depth tokens i := fun h => by
      have := h n hn
      omega
    exact ⟨⟨fun _ => ⟨n, hn, hneg⟩, fun _ => rfl⟩, ⟨nofun, fun h => (hnot h.1).elim⟩, nofun,
      fun h => (hnot h.1).elim⟩
  | tooDeep => exact (hlimit rfl).elim

end Reading

/-- **Faults are decided by the depth alone**, as long as the limit on nesting is not met, which it
is only where the depth passes it. A row of tokens has a stray parenthesis exactly if its depth falls
below zero somewhere, otherwise an open list exactly if it ends above zero, and otherwise no fault;
the forms read of it are as many as its returns to depth zero before the depth is negative. A first
form is missing exactly in a row without tokens, begins with a stray parenthesis exactly if one
comes first, and is not closed exactly if the row opens a list and stays above zero ever after. -/
theorem faults_follow_depth (nesting : ℕ) :
    (∀ tokens : List Token, (parseAll nesting tokens).2 ≠ some .tooDeep →
      ((parseAll nesting tokens).2 = some .strayClose ↔ ∃ i ≤ tokens.length, depth tokens i < 0) ∧
      ((parseAll nesting tokens).2 = some .unclosed ↔
        (∀ i ≤ tokens.length, 0 ≤ depth tokens i) ∧ 0 < depth tokens tokens.length) ∧
      ((parseAll nesting tokens).2 = none ↔
        (∀ i ≤ tokens.length, 0 ≤ depth tokens i) ∧ depth tokens tokens.length = 0) ∧
      (parseAll nesting tokens).1.length =
        (List.range' 1 tokens.length).countP (Returns tokens ·)) ∧
    (∀ tokens : List Token, (parseAll nesting tokens).2 ≠ some .noToken ∧
      ((parseAll nesting tokens).2 = some .tooDeep →
        ∃ i ≤ tokens.length, nesting < depth tokens i ∧ ∀ j ≤ i, 0 ≤ depth tokens j)) ∧
    (∀ tokens : List Token,
      (parse nesting tokens = .error .noToken ↔ tokens = []) ∧
      (parse nesting tokens = .error .strayClose ↔ tokens.head? = some ")") ∧
      (parse nesting tokens ≠ .error .tooDeep → (parse nesting tokens = .error .unclosed ↔
        tokens.head? = some "(" ∧ ∀ i, 1 ≤ i → i ≤ tokens.length → 0 < depth tokens i))) ∧
    Fault.strayClose.toFailure.message = "unexpected `)`" ∧
    Fault.unclosed.toFailure.message = "could not find closing `)`" ∧
    Fault.noToken.toFailure.message = "could not get token" := by
  refine ⟨fun tokens hlimit => ?_, fun tokens => ?_, fun tokens => ?_, rfl, rfl, rfl⟩
  · obtain ⟨hstray, hunclosed, hnone⟩ := parseAll_fault_iff hlimit
    exact ⟨hstray, hunclosed, hnone, length_parseAll tokens hlimit⟩
  · have hv := rowVerdict_parseAll nesting tokens
    generalize (parseAll nesting tokens).2 = fault at hv ⊢
    cases hv with
    | @tooDeep n hn hdeep hpos => exact ⟨nofun, fun _ => ⟨n, hn, hdeep, hpos⟩⟩
    | _ => exact ⟨nofun, nofun⟩
  · exact ⟨parse_eq_noToken_iff tokens, parse_eq_strayClose_iff tokens, parse_eq_unclosed_iff⟩

/-- Two forms before a stray parenthesis with more behind it, and a list that a list inside it leaves
open. -/
theorem faults_follow_depth_stray :
    let stray : List Token := ["(", "f", "(", ")", ")", "x", ")", "y"]
    let opened : List Token := ["(", "f", "(", ")", "y"]
    ((parseAll 2 stray).2 ≠ some .tooDeep ∧ (parseAll 2 stray).2 = some .strayClose ∧
      (parseAll 2 stray).1.length = 2) ∧
    ((parseAll 2 opened).2 ≠ some .tooDeep ∧ (parseAll 2 opened).2 = some .unclosed ∧
      (parseAll 2 opened).1.length = 0) ∧
    parse 2 opened ≠ .error .tooDeep ∧ parse 2 opened = .error .unclosed := by
  intro stray opened
  obtain ⟨hrow, hlimit, hform, -⟩ := faults_follow_depth 2
  have hstray : (parseAll 2 stray).2 ≠ some .tooDeep := fun h => by
    obtain ⟨i, hi, hdeep, -⟩ := (hlimit stray).2 h
    revert i
    decide
  have hopened : (parseAll 2 opened).2 ≠ some .tooDeep := fun h => by
    obtain ⟨i, hi, hdeep, -⟩ := (hlimit opened).2 h
    revert i
    decide
  have hfirst : parse 2 opened ≠ .error .tooDeep := nofun
  obtain ⟨hneg, -, -, hforms⟩ := hrow stray hstray
  obtain ⟨-, hpos, -, hforms'⟩ := hrow opened hopened
  exact ⟨⟨hstray, hneg.mpr ⟨7, by decide, by decide⟩, hforms.trans (by decide)⟩,
    ⟨hopened, hpos.mpr ⟨by decide, by decide⟩, hforms'.trans (by decide)⟩, hfirst,
    ((hform opened).2.2 hfirst).mpr ⟨rfl, by decide⟩⟩

end Form
end SmallLisp
