/-
# Texts cut at blanks

No token reaches over a blank. A quote belongs to the parenthesis right behind it, a word ends
where a blank stands, and spaces put around the parentheses stay where they are; so a text that is
cut at a blank has the tokens of its two parts (`tokenize_append`). A text without tokens is one of
blanks only.

Key theorems: `tokenize_append`, `tokenize_eq_nil_iff`.
-/
import SmallLisp.Token
import Mathlib.Data.List.Basic

namespace SmallLisp

namespace Text

variable {w : Char}

theorem ne_of_isBlank (hw : isBlank w = true) {c : Char} (hc : isBlank c = false) : w ≠ c :=
  fun h => Bool.false_ne_true (hc.symm.trans (h ▸ hw))

/-! ### Words -/

theorem wordsAfter_append (hw : isBlank w = true) (more : List Char) :
    ∀ pending cs : List Char,
      wordsAfter pending (cs ++ w :: more) = wordsAfter pending cs ++ words more
  | pending, [] => by
    show (if isBlank w = true then pendingWord pending ++ words more else _) = _
    rw [if_pos hw]
    rfl
  | pending, c :: cs => by
    rw [List.cons_append, wordsAfter, wordsAfter]
    by_cases hc : isBlank c = true
    · rw [if_pos hc, if_pos hc, wordsAfter_append hw more [] cs, List.append_assoc]
    · rw [if_neg hc, if_neg hc, wordsAfter_append hw more (c :: pending) cs]

/-- A word that has begun is not lost. -/
theorem wordsAfter_ne_nil (cs : List Char) : ∀ (c : Char) (pending : List Char),
    wordsAfter (c :: pending) cs ≠ [] := by
  induction cs with
  | nil => simp [wordsAfter, pendingWord]
  | cons d ds ih =>
    intro c pending
    rw [wordsAfter]
    split
    · simp [pendingWord]
    · exact ih d (c :: pending)

theorem words_eq_nil_iff : ∀ cs : List Char, words cs = [] ↔ allBlank cs = true
  | [] => by simp [words, wordsAfter, pendingWord, allBlank]
  | c :: cs => by
    have ih := words_eq_nil_iff cs
    unfold words allBlank at *
    rw [wordsAfter, List.all_cons]
    by_cases hc : isBlank c = true
    · rw [if_pos hc, hc, Bool.true_and]
      exact ih
    · rw [if_neg hc]
      simp [wordsAfter_ne_nil, hc]

end Text

namespace Token

/-! ### Quotes and parentheses -/

open Text (isBlank allBlank)

variable {w : Char}

theorem expandQuotes_append (hw : isBlank w = true) (more cs : List Char) :
    expandQuotes (cs ++ w :: more) = expandQuotes cs ++ w :: expandQuotes more := by
  have hquote : w ≠ '\'' := Text.ne_of_isBlank hw rfl
  have hopen : w ≠ '(' := Text.ne_of_isBlank hw rfl
  induction cs using expandQuotes.induct with
  | case1 =>
    show expandQuotes (w :: more) = w :: expandQuotes more
    rw [expandQuotes]
    rintro _ rfl
    exact (hquote rfl).elim
  | case2 cs ih =>
    show expandQuotes ('\'' :: '(' :: (cs ++ w :: more)) = _
    rw [expandQuotes, expandQuotes, ih]
    rfl
  | case3 c cs hplain ih =>
    rw [List.cons_append, expandQuotes, expandQuotes, ih]
    · rfl
    · exact hplain
    · rintro cs' rfl h
      cases cs with
      | nil => exact hopen (List.cons.inj h).1
      | cons d ds =>
        obtain ⟨rfl, rfl⟩ := List.cons.inj h
        exact hplain ds rfl rfl

theorem spaceOut_append (hw : isBlank w = true) (more cs : List Char) :
    spaceOut (cs ++ w :: more) = spaceOut cs ++ w :: spaceOut more := by
  have hopen : w ≠ '(' := Text.ne_of_isBlank hw rfl
  have hclose : w ≠ ')' := Text.ne_of_isBlank hw rfl
  unfold spaceOut
  rw [List.flatMap_append, List.flatMap_cons, if_neg (not_or.mpr ⟨hopen, hclose⟩)]
  rfl

theorem allBlank_expandQuotes (cs : List Char) : allBlank (expandQuotes cs) = allBlank cs := by
  induction cs using expandQuotes.induct with
  | case1 => rfl
  | case2 cs ih => rw [expandQuotes]; rfl
  | case3 c cs hplain ih =>
    rw [expandQuotes]
    · unfold allBlank at *
      rw [List.all_cons, List.all_cons, ih]
    · exact hplain

theorem allBlank_spaceOut : ∀ cs : List Char, allBlank (spaceOut cs) = allBlank cs
  | [] => rfl
  | c :: cs => by
    have ih := allBlank_spaceOut cs
    unfold spaceOut allBlank at *
    rw [List.flatMap_cons, List.all_append, ih, List.all_cons]
    congr 1
    split
    · rename_i hc
      rcases hc with rfl | rfl <;> rfl
    · exact Bool.and_true _

end Token

open Text (isBlank allBlank)

/-- **A text that is cut at a blank has the tokens of both parts.** -/
theorem tokenize_append {w : Char} (hw : isBlank w = true) (a b : String) :
    tokenize (a ++ String.singleton w ++ b) = tokenize a ++ tokenize b := by
  unfold tokenize Text.words
  rw [String.toList_append, String.toList_append, String.toList_singleton, List.append_assoc,
    List.singleton_append, Token.expandQuotes_append hw, Token.spaceOut_append hw,
    Text.wordsAfter_append hw, List.map_append]
  rfl

/-- A text without tokens is blank. -/
theorem tokenize_eq_nil_iff (text : String) : tokenize text = [] ↔ allBlank text.toList = true := by
  rw [tokenize, List.map_eq_nil_iff, Text.words_eq_nil_iff, Token.allBlank_spaceOut,
    Token.allBlank_expandQuotes]

end SmallLisp
