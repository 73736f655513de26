/-
# Texts joined from tokens

Tokens that are written with a space between each two of them are found again, so that every text
means what the joined tokens of it mean (`tokenize_undoes_join`). This takes tokens as they come out
of texts, and all rows of such tokens come out of texts: a token is not empty, holds no blank, and is
a parenthesis or holds none (`Token.WellFormed`). A quote that is a token by itself is kept from the
parenthesis behind it by the space.

Key definitions: `Token.WellFormed`.
Key theorems: `Token.wellFormed_iff`, `tokenize_intercalate`, `tokenize_undoes_join`.
-/
import SmallLisp.Form
import SmallLisp.Proofs.Words

namespace SmallLisp

namespace Token

/-- A token as it may come out of a text. -/
structure WellFormed (t : Token) : Prop where
  ne_empty : t ≠ ""
  unbroken : ∀ c ∈ t.toList, Text.isBlank c = false
  parens : t = "(" ∨ t = ")" ∨ ('(' ∉ t.toList ∧ ')' ∉ t.toList)

variable {t : Token}

theorem wellFormed_iff : t.WellFormed ↔ t = "(" ∨ t = ")" ∨ Text.IsName t := by
  constructor
  · rintro ⟨hne, hunbroken, rfl | rfl | ⟨hopen, hclose⟩⟩
    · exact Or.inl rfl
    · exact Or.inr (Or.inl rfl)
    · refine Or.inr (Or.inr ⟨hne, fun c hc => ?_⟩)
      have hc_open : c ≠ '(' := fun h => hopen (h ▸ hc)
      have hc_close : c ≠ ')' := fun h => hclose (h ▸ hc)
      simp [Text.isWordChar, hunbroken c hc, hc_open, hc_close]
  · rintro (rfl | rfl | ⟨hne, hword⟩)
    · exact ⟨by decide, List.forall_mem_singleton.mpr rfl, Or.inl rfl⟩
    · exact ⟨by decide, List.forall_mem_singleton.mpr rfl, Or.inr (Or.inl rfl)⟩
    · refine ⟨hne, fun c hc => Text.isBlank_of_isWordChar (hword c hc), Or.inr (Or.inr ⟨?_, ?_⟩)⟩
      · exact fun h => (Text.ne_of_isWordChar (hword _ h)).1 rfl
      · exact fun h => (Text.ne_of_isWordChar (hword _ h)).2 rfl

theorem wellFormed_of_mem_tokenize {text : String} (h : t ∈ tokenize text) : t.WellFormed :=
  wellFormed_iff.mpr (cases_of_mem_tokenize h)

end Token

/-- A word is one token. -/
theorem tokenize_of_isName {w : String} (h : Text.IsName w) : tokenize w = [w] := by
  have hparens : ∀ c ∈ w.toList, c ≠ '(' ∧ c ≠ ')' := fun c hc =>
    Text.ne_of_isWordChar (h.wordlike c hc)
  have hopen : '(' ∉ w.toList := fun hmem => (hparens _ hmem).1 rfl
  have hne : w.toList ≠ [] := fun hnil => h.ne_empty (String.toList_inj.mp hnil)
  have hwords : Text.words w.toList = [w.toList] :=
    Text.words_eq_singleton hne fun c hc => Text.isBlank_of_isWordChar (h.wordlike c hc)
  rw [tokenize, Token.expandQuotes_of_notMem _ hopen, Token.spaceOut_of_forall hparens, hwords,
    List.map_singleton, String.ofList_toList]

theorem tokenize_of_wellFormed {t : Token} (h : t.WellFormed) : tokenize t = [t] := by
  rcases Token.wellFormed_iff.mp h with rfl | rfl | hname
  · rfl
  · rfl
  · exact tokenize_of_isName hname

/-- Joined tokens are found again, each one behind the space that ends the one before it. -/
theorem tokenize_intercalate : ∀ ts : List Token, (∀ t ∈ ts, t.WellFormed) →
    tokenize (" ".intercalate ts) = ts
  | [], _ => rfl
  | [t], h => by
    rw [String.intercalate_singleton]
    exact tokenize_of_wellFormed (h t List.mem_cons_self)
  | t :: u :: ts, h => by
    have hspace : " " = String.singleton ' ' := String.toList_inj.mp (by simp)
    have ht := tokenize_of_wellFormed (h t List.mem_cons_self)
    have hrest := tokenize_intercalate (u :: ts) fun t' ht' => h t' (List.mem_cons_of_mem _ ht')
    calc tokenize (" ".intercalate (t :: u :: ts))
        = tokenize (t ++ String.singleton ' ' ++ " ".intercalate (u :: ts)) := by
          rw [String.intercalate_cons_cons, ← hspace]
      _ = tokenize t ++ tokenize (" ".intercalate (u :: ts)) := tokenize_append rfl _ _
      _ = t :: u :: ts := by rw [ht, hrest, List.singleton_append]

/-- **Cutting a text into tokens undoes joining them**, for all tokens that are well formed, and
these are just the tokens that texts have. So a text has the tokens of its joined tokens, and the
forms or the fault that is read in these is read in the text. -/
theorem tokenize_undoes_join :
    (∀ (text : String), ∀ t ∈ tokenize text, t.WellFormed) ∧
    (∀ ts : List Token, (∀ t ∈ ts, t.WellFormed) → tokenize (" ".intercalate ts) = ts) ∧
    (∀ ts : List Token, (∃ text, tokenize text = ts) ↔ ∀ t ∈ ts, t.WellFormed) ∧
    (∀ text : String, tokenize (" ".intercalate (tokenize text)) = tokenize text) ∧
    ∀ (nesting : ℕ) (text : String),
      Form.read nesting (" ".intercalate (tokenize text)) = Form.read nesting text := by
  have hformed : ∀ text : String, ∀ t ∈ tokenize text, t.WellFormed :=
    fun _ _ => Token.wellFormed_of_mem_tokenize
  have hagain : ∀ text : String, tokenize (" ".intercalate (tokenize text)) = tokenize text :=
    fun text => tokenize_intercalate _ (hformed text)
  refine ⟨hformed, tokenize_intercalate, fun ts => ⟨?_, fun h => ?_⟩, hagain, fun nesting text => ?_⟩
  · rintro ⟨text, rfl⟩
    exact hformed text
  · exact ⟨_, tokenize_intercalate ts h⟩
  · unfold Form.read
    rw [hagain]

/-- A quote by itself before a list, and a text in which it is not by itself. -/
theorem tokenize_undoes_join_quote :
    (∀ t ∈ ["'", "(", "b", ")"], Token.WellFormed t) ∧ tokenize "' ( b )" = ["'", "(", "b", ")"] ∧
    tokenize "'(b)" = ["(", "list", "b", ")"] ∧
    Form.read 9 "( list b )" = Form.read 9 "'(b)" := by
  obtain ⟨hformed, hjoin, -, -, hread⟩ := tokenize_undoes_join
  have hquote : ∀ t ∈ ["'", "(", "b", ")"], Token.WellFormed t := fun t ht =>
    hformed "' ( b )" t ht
  exact ⟨hquote, hjoin _ hquote, rfl, hread 9 "'(b)"⟩

end SmallLisp
