/-
# The grammar of forms

What the reader accepts, said without the reader. A form is written as a tree of tokens: a leaf is
any token that is no parenthesis, and a node is a row of trees between parentheses. Reading a row of
tokens that begins with a tree walks over just this tree and makes a form of it
(`Form.parseIn_tokens`), unless the tree is nested too deep (`Form.parseIn_tooDeep`); and whatever
is read is a tree (`Form.exists_trees_of_parseIn`). The reader keeps the lists that are still open
on a stack, so both directions are shown for a reader in the midst of a list.

Key definitions: `TokenTree`, `TokenTree.tokens`, `TokenTree.form`, `TokenTree.depth`.
Key theorems: `Form.parse_tokens`, `Form.exists_tree_of_parse`, `Form.reads_exactly_trees`.
-/
import SmallLisp.Proofs.Reading

namespace SmallLisp

/-- A token that is no parenthesis. -/
def Token.IsWord (t : Token) : Prop := t ≠ "(" ∧ t ≠ ")"

instance (t : Token) : Decidable t.IsWord := inferInstanceAs (Decidable (_ ∧ _))

theorem Token.cases_isWord (t : Token) : t = "(" ∨ t = ")" ∨ t.IsWord := by
  by_cases hopen : t = "("
  · exact Or.inl hopen
  · by_cases hclose : t = ")"
    · exact Or.inr (Or.inl hclose)
    · exact Or.inr (Or.inr ⟨hopen, hclose⟩)

/-- How a form is written. -/
inductive TokenTree where
  | leaf (t : Token) (isWord : t.IsWord)
  | node (children : List TokenTree)

namespace TokenTree

mutual

/-- The tokens of a tree from left to right. -/
def tokens : TokenTree → List Token
  | .leaf t _ => [t]
  | .node children => "(" :: (tokensAll children ++ [")"])

def tokensAll : List TokenTree → List Token
  | [] => []
  | T :: Ts => T.tokens ++ tokensAll Ts

end

mutual

/-- The form that a tree is: an atom for each leaf, and a list for each node. -/
def form : TokenTree → Value
  | .leaf t _ => .ofToken t
  | .node children => .list (formAll children)

def formAll : List TokenTree → List Value
  | [] => []
  | T :: Ts => T.form :: formAll Ts

end

mutual

/-- How many nodes of a tree are inside each other. -/
def depth : TokenTree → ℕ
  | .leaf _ _ => 0
  | .node children => depthAll children + 1

def depthAll : List TokenTree → ℕ
  | [] => 0
  | T :: Ts => max T.depth (depthAll Ts)

end

theorem tokensAll_eq : ∀ Ts : List TokenTree, tokensAll Ts = Ts.flatMap tokens
  | [] => rfl
  | T :: Ts => by rw [tokensAll, tokensAll_eq Ts, List.flatMap_cons]

theorem formAll_eq : ∀ Ts : List TokenTree, formAll Ts = Ts.map form
  | [] => rfl
  | T :: Ts => by rw [formAll, formAll_eq Ts, List.map_cons]

theorem tokens_ne_nil (T : TokenTree) : T.tokens ≠ [] := by
  cases T with
  | leaf t isWord => simp [tokens]
  | node children => simp [tokens]

end TokenTree

namespace Form

variable {nesting : ℕ}

/-! ### One token -/

/-- How reading goes on from where it has come. -/
def resume (nesting : ℕ) : Progress → List Token → Except Fault (Value × List Token)
  | .complete form, rest => .ok (form, rest)
  | .within stack, rest => parseIn nesting stack rest

variable (stack : List (List Value)) (rest : List Token)

theorem parseIn_open (h : stack.length < nesting) :
    parseIn nesting stack ("(" :: rest) = parseIn nesting ([] :: stack) rest := by
  rw [parseIn, advance.eq_def, if_pos rfl, if_pos h]

theorem parseIn_open_of_le (h : nesting ≤ stack.length) :
    parseIn nesting stack ("(" :: rest) = .error .tooDeep := by
  rw [parseIn, advance.eq_def, if_pos rfl, if_neg (Nat.not_lt.mpr h)]

theorem parseIn_close (items : List Value) : parseIn nesting (items :: stack) (")" :: rest) =
    resume nesting (place (.list items.reverse) stack) rest := by
  rw [parseIn, advance.eq_def, if_neg (by decide), if_pos rfl]
  cases stack <;> rfl

theorem parseIn_word {t : Token} (h : t.IsWord) :
    parseIn nesting stack (t :: rest) = resume nesting (place (.ofToken t) stack) rest := by
  rw [parseIn, advance.eq_def, if_neg h.1, if_neg h.2]
  cases stack <;> rfl

/-! ### A tree is read -/

section Trees

open TokenTree

mutual

/-- A tree is read as the next form of the list that is open. -/
theorem parseIn_tokens (rest : List Token) : ∀ (T : TokenTree) (stack : List (List Value)),
    stack.length + T.depth ≤ nesting →
      parseIn nesting stack (T.tokens ++ rest) = resume nesting (place T.form stack) rest
  | .leaf t isWord, stack, _ => by
    rw [tokens, form]
    exact parseIn_word stack rest isWord
  | .node children, stack, h => by
    rw [depth] at h
    have hopen : stack.length < nesting := by omega
    rw [tokens, form, List.cons_append, List.append_assoc, parseIn_open _ _ hopen,
      parseIn_tokensAll _ children [] stack (by omega), List.append_nil]
    show parseIn nesting _ (")" :: rest) = _
    rw [parseIn_close, List.reverse_reverse]

theorem parseIn_tokensAll (rest : List Token) : ∀ (Ts : List TokenTree) (items : List Value)
    (stack : List (List Value)), stack.length + 1 + depthAll Ts ≤ nesting →
      parseIn nesting (items :: stack) (tokensAll Ts ++ rest) =
        parseIn nesting (((formAll Ts).reverse ++ items) :: stack) rest
  | [], items, stack, _ => rfl
  | T :: Ts, items, stack, h => by
    rw [depthAll] at h
    rw [tokensAll, formAll, List.append_assoc, parseIn_tokens _ T (items :: stack) (by
      rw [List.length_cons]; omega)]
    show parseIn nesting ((T.form :: items) :: stack) (tokensAll Ts ++ rest) = _
    rw [parseIn_tokensAll rest Ts _ stack (by omega), List.reverse_cons, List.append_assoc]
    rfl

end

mutual

/-- A tree with more nodes inside each other than may be open is refused. -/
theorem parseIn_tooDeep (rest : List Token) : ∀ (T : TokenTree) (stack : List (List Value)),
    stack.length ≤ nesting → nesting < stack.length + T.depth →
      parseIn nesting stack (T.tokens ++ rest) = .error .tooDeep
  | .leaf t isWord, stack, hle, hlt => by
    rw [depth] at hlt
    omega
  | .node children, stack, hle, hlt => by
    rw [depth] at hlt
    rw [tokens, List.cons_append, List.append_assoc]
    rcases Nat.lt_or_ge stack.length nesting with hopen | hfull
    · rw [parseIn_open _ _ hopen]
      exact parseIn_tooDeepAll _ children [] stack hopen (by omega)
    · exact parseIn_open_of_le _ _ hfull

theorem parseIn_tooDeepAll (rest : List Token) : ∀ (Ts : List TokenTree) (items : List Value)
    (stack : List (List Value)), stack.length < nesting →
      nesting < stack.length + 1 + depthAll Ts →
        parseIn nesting (items :: stack) (tokensAll Ts ++ rest) = .error .tooDeep
  | [], items, stack, hle, hlt => by
    rw [depthAll] at hlt
    omega
  | T :: Ts, items, stack, hle, hlt => by
    rw [depthAll] at hlt
    rw [tokensAll, List.append_assoc]
    by_cases hT : stack.length + 1 + T.depth ≤ nesting
    · rw [parseIn_tokens _ T (items :: stack) (by rw [List.length_cons]; omega)]
      exact parseIn_tooDeepAll rest Ts (T.form :: items) stack hle (by omega)
    · exact parseIn_tooDeep _ T (items :: stack) hle (by rw [List.length_cons]; omega)

end

/-! ### What is read is a tree -/

/-- What is read while a list is open begins with trees up to the end of that list. -/
theorem exists_trees_of_parseIn : ∀ (tokens : List Token) (items : List Value)
    (stack : List (List Value)) (answer : Value × List Token),
    parseIn nesting (items :: stack) tokens = .ok answer →
      ∃ (Ts : List TokenTree) (rest : List Token), tokens = tokensAll Ts ++ ")" :: rest ∧
        resume nesting (place (.list (items.reverse ++ formAll Ts)) stack) rest = .ok answer
  | [], items, stack, answer, h => by simp [parseIn] at h
  | t :: ts, items, stack, answer, h => by
    rcases t.cases_isWord with rfl | rfl | hword
    · by_cases hinner : (items :: stack).length < nesting
      · -- first the list inside, up to its end, and from there the rest of this one
        rw [parseIn_open _ _ hinner] at h
        obtain ⟨inner, ts', rfl, hinside⟩ := exists_trees_of_parseIn ts [] _ answer h
        have hbehind : parseIn nesting ((.list (formAll inner) :: items) :: stack) ts' = .ok answer :=
          hinside
        obtain ⟨Ts, rest, rfl, hanswer⟩ := exists_trees_of_parseIn ts' _ stack answer hbehind
        refine ⟨.node inner :: Ts, rest, by simp [tokensAll, tokens], ?_⟩
        rw [← hanswer, formAll, form, List.reverse_cons, List.append_assoc]
        rfl
      · rw [parseIn_open_of_le _ _ (Nat.not_lt.mp hinner)] at h
        cases h
    · rw [parseIn_close] at h
      exact ⟨[], ts, rfl, by rwa [formAll, List.append_nil]⟩
    · rw [parseIn_word _ _ hword] at h
      obtain ⟨Ts, rest, rfl, hanswer⟩ := exists_trees_of_parseIn ts _ stack answer h
      refine ⟨.leaf t hword :: Ts, rest, rfl, ?_⟩
      rw [← hanswer, formAll, form, List.reverse_cons, List.append_assoc]
      rfl
termination_by tokens => tokens.length

end Trees

/-! ### One form -/

variable {tokens rest : List Token} {form : Value}

/-- A form that is read is written as a tree. -/
theorem exists_tree_of_parse (h : parse nesting tokens = .ok (form, rest)) :
    ∃ T : TokenTree, tokens = T.tokens ++ rest ∧ form = T.form := by
  unfold parse at h
  cases tokens with
  | nil => cases h
  | cons t ts =>
    rcases t.cases_isWord with rfl | rfl | hword
    · by_cases hpos : 0 < nesting
      · rw [parseIn_open [] ts hpos] at h
        obtain ⟨Ts, rest', rfl, hform⟩ := exists_trees_of_parseIn ts [] [] _ h
        cases hform
        exact ⟨.node Ts, by simp [TokenTree.tokens], rfl⟩
      · rw [parseIn_open_of_le [] ts (Nat.not_lt.mp hpos)] at h
        cases h
    · cases h
    · rw [parseIn_word [] ts hword] at h
      cases h
      exact ⟨.leaf t hword, rfl, rfl⟩

/-- A tree at the start of a row of tokens is the first form. -/
theorem parse_tokens (T : TokenTree) (h : T.depth ≤ nesting) (rest : List Token) :
    parse nesting (T.tokens ++ rest) = .ok (T.form, rest) :=
  parseIn_tokens rest T [] (by rwa [List.length_nil, Nat.zero_add])

theorem parse_tooDeep (T : TokenTree) (h : nesting < T.depth) (rest : List Token) :
    parse nesting (T.tokens ++ rest) = .error .tooDeep :=
  parseIn_tooDeep rest T [] (Nat.zero_le _) (by rwa [List.length_nil, Nat.zero_add])

/-- The limit stops the reader in a tree exactly if the tree is nested too deep. -/
theorem parse_eq_tooDeep_iff (T : TokenTree) (rest : List Token) :
    parse nesting (T.tokens ++ rest) = .error .tooDeep ↔ nesting < T.depth := by
  refine ⟨fun h => ?_, fun h => parse_tooDeep T h rest⟩
  by_contra hle
  rw [parse_tokens T (Nat.not_lt.mp hle) rest] at h
  cases h

/-! ### All forms -/

theorem exists_trees_of_parseAll : ∀ (tokens : List Token) (forms : List Value),
    parseAll nesting tokens = (forms, none) → ∃ Ts : List TokenTree,
      tokens = TokenTree.tokensAll Ts ∧ forms = TokenTree.formAll Ts
  | [], forms, h => by
    rw [parseAll_nil] at h
    cases h
    exact ⟨[], rfl, rfl⟩
  | t :: ts, forms, h => by
    cases hp : parse nesting (t :: ts) with
    | error fault =>
      rw [parseAll_of_error hp] at h
      cases h
    | ok answer =>
      obtain ⟨form, rest⟩ := answer
      rw [parseAll_of_ok hp] at h
      obtain ⟨rfl, hfault⟩ := Prod.mk.inj h
      have hrow : parseAll nesting rest = ((parseAll nesting rest).1, none) := Prod.ext rfl hfault
      obtain ⟨Ts, hrest, hforms⟩ := exists_trees_of_parseAll rest _ hrow
      obtain ⟨T, htokens, rfl⟩ := exists_tree_of_parse hp
      refine ⟨T :: Ts, ?_, ?_⟩
      · rw [htokens, hrest, TokenTree.tokensAll]
      · rw [hforms, TokenTree.formAll]
termination_by tokens => tokens.length
decreasing_by exact length_parse_lt hp

/-- A tree at the start of a row of tokens is read before all that follows. -/
theorem parseAll_tokens (T : TokenTree) (h : T.depth ≤ nesting) (rest : List Token) :
    parseAll nesting (T.tokens ++ rest) =
      (T.form :: (parseAll nesting rest).1, (parseAll nesting rest).2) :=
  parseAll_of_ok (parse_tokens T h rest)

theorem parseAll_tooDeep (T : TokenTree) (h : nesting < T.depth) (rest : List Token) :
    parseAll nesting (T.tokens ++ rest) = ([], some .tooDeep) := by
  have hp := parse_tooDeep T h rest
  obtain ⟨t, ts, hcons⟩ :=
    List.exists_cons_of_ne_nil (List.append_ne_nil_of_left_ne_nil T.tokens_ne_nil rest)
  rw [hcons] at hp ⊢
  exact parseAll_of_error hp

/-- A row of trees is read to its end, unless one of them is nested too deep. -/
theorem parseAll_tokensAll : ∀ Ts : List TokenTree,
    (parseAll nesting (TokenTree.tokensAll Ts)).2 ≠ some .tooDeep →
      parseAll nesting (TokenTree.tokensAll Ts) = (TokenTree.formAll Ts, none)
  | [], _ => parseAll_nil nesting
  | T :: Ts, h => by
    rw [TokenTree.tokensAll] at h ⊢
    rcases Nat.lt_or_ge nesting T.depth with hdeep | hdepth
    · rw [parseAll_tooDeep T hdeep] at h
      exact (h rfl).elim
    · rw [parseAll_tokens T hdepth] at h ⊢
      rw [parseAll_tokensAll Ts h, TokenTree.formAll]

/-- **Reading accepts exactly what the grammar says**, and makes of it what it says, as long as the
limit on nesting is not met: a first form is read exactly where a tree stands, whatever comes after
it, and a row of tokens is read to its end exactly if it is a row of trees. The limit stops the
reader in no tree but one that is nested deeper. -/
theorem reads_exactly_trees (nesting : ℕ) :
    (∀ tokens : List Token, parse nesting tokens ≠ .error .tooDeep → ∀ form rest,
      parse nesting tokens = .ok (form, rest) ↔
        ∃ T : TokenTree, tokens = T.tokens ++ rest ∧ form = T.form) ∧
    (∀ tokens : List Token, (parseAll nesting tokens).2 ≠ some .tooDeep → ∀ forms,
      parseAll nesting tokens = (forms, none) ↔
        ∃ Ts : List TokenTree, tokens = Ts.flatMap TokenTree.tokens ∧
          forms = Ts.map TokenTree.form) ∧
    ∀ (T : TokenTree) (rest : List Token),
      parse nesting (T.tokens ++ rest) = .error .tooDeep ↔ nesting < T.depth := by
  refine ⟨fun tokens hlimit form rest => ⟨exists_tree_of_parse, ?_⟩,
    fun tokens hlimit forms => ⟨fun h => ?_, ?_⟩, parse_eq_tooDeep_iff⟩
  · rintro ⟨T, rfl, rfl⟩
    have hdepth : T.depth ≤ nesting := Nat.not_lt.mp fun h => hlimit (parse_tooDeep T h rest)
    exact parse_tokens T hdepth rest
  · obtain ⟨Ts, htokens, hforms⟩ := exists_trees_of_parseAll tokens forms h
    rw [TokenTree.tokensAll_eq] at htokens
    rw [TokenTree.formAll_eq] at hforms
    exact ⟨Ts, htokens, hforms⟩
  · rintro ⟨Ts, rfl, rfl⟩
    rw [← TokenTree.tokensAll_eq] at hlimit ⊢
    rw [← TokenTree.formAll_eq]
    exact parseAll_tokensAll Ts hlimit

/-- A list with an empty list in it, and a word behind it. -/
theorem reads_exactly_trees_nested :
    let tokens : List Token := ["(", "f", "(", ")", "1", ")", "y"]
    (parse 2 tokens ≠ .error .tooDeep ∧
      ∃ T : TokenTree, tokens = T.tokens ++ ["y"] ∧
        Value.list [.sym "f", .list [], .ofToken "1"] = T.form) ∧
    (parseAll 2 tokens).2 ≠ some .tooDeep ∧
      ∃ Ts : List TokenTree, tokens = Ts.flatMap TokenTree.tokens ∧
        [.list [.sym "f", .list [], .ofToken "1"], .sym "y"] = Ts.map TokenTree.form := by
  intro tokens
  have hfirst : parse 2 tokens = .ok (.list [.sym "f", .list [], .ofToken "1"], ["y"]) := rfl
  have hrest : parse 2 ["y"] = .ok (.sym "y", []) := rfl
  have hall : parseAll 2 tokens =
      ([.list [.sym "f", .list [], .ofToken "1"], .sym "y"], none) := by
    rw [parseAll_of_ok hfirst, parseAll_of_ok hrest, parseAll_nil]
  have hlimit : parse 2 tokens ≠ .error .tooDeep := by
    rw [hfirst]
    nofun
  have hlimit' : (parseAll 2 tokens).2 ≠ some .tooDeep := by
    rw [hall]
    nofun
  exact ⟨⟨hlimit, ((reads_exactly_trees 2).1 tokens hlimit _ _).mp hfirst⟩, hlimit',
    ((reads_exactly_trees 2).2.1 tokens hlimit' _).mp hall⟩

end Form
end SmallLisp
