/-
# Words and quoted words

A word is a row of characters that are neither blank nor parentheses. Every token is a word or a
single parenthesis (`Token.cases_of_mem_tokenize`). A text that is a word up to a parenthesis at its
end has these two tokens (`tokenize_word_close`), and a word between double quotes means the text
between them, because no numeral begins with a quote (`Value.ofToken_quoted`).

Key definitions: `Text.isWordChar`, `Text.Wordlike`, `Text.IsName`.
Key theorems: `Token.cases_of_mem_tokenize`, `tokenize_word_close`, `Value.ofToken_quoted`.
-/
import SmallLisp.Atom
import SmallLisp.Proofs.Tokens

namespace SmallLisp

namespace Text

/-- A character that words are made of. -/
def isWordChar (c : Char) : Bool := !isBlank c && c != '(' && c != ')'

theorem isBlank_of_isWordChar {c : Char} (h : isWordChar c = true) : isBlank c = false := by
  simp only [isWordChar, Bool.and_eq_true, Bool.not_eq_true'] at h
  exact h.1.1

theorem ne_of_isWordChar {c : Char} (h : isWordChar c = true) : c ≠ '(' ∧ c ≠ ')' := by
  simp only [isWordChar, Bool.and_eq_true, bne_iff_ne] at h
  exact ⟨h.1.2, h.2⟩

theorem wordsAfter_eq_pendingWord : ∀ cs pending : List Char, (∀ c ∈ cs, isBlank c = false) →
    wordsAfter pending cs = pendingWord (cs.reverse ++ pending)
  | [], _, _ => rfl
  | c :: cs, pending, h => by
    have hc : ¬ isBlank c = true := by simp [h c List.mem_cons_self]
    rw [wordsAfter, if_neg hc, List.reverse_cons, List.append_assoc]
    exact wordsAfter_eq_pendingWord cs (c :: pending) fun d hd => h d (List.mem_cons_of_mem _ hd)

theorem pendingWord_reverse {cs : List Char} (hne : cs ≠ []) : pendingWord cs.reverse = [cs] := by
  obtain ⟨d, ds, hrev⟩ := List.exists_cons_of_ne_nil (mt List.reverse_eq_nil_iff.mp hne)
  rw [hrev, pendingWord, ← hrev, List.reverse_reverse]

/-- Characters that are not blank are one word. -/
theorem words_eq_singleton {cs : List Char} (hne : cs ≠ []) (h : ∀ c ∈ cs, isBlank c = false) :
    words cs = [cs] := by
  rw [words, wordsAfter_eq_pendingWord cs [] h, List.append_nil, pendingWord_reverse hne]

end Text

namespace Token

theorem expandQuotes_of_notMem (cs : List Char) (h : '(' ∉ cs) : expandQuotes cs = cs := by
  induction cs using expandQuotes.induct with
  | case1 => rfl
  | case2 cs ih => simp at h
  | case3 c cs hplain ih =>
    rw [expandQuotes, ih (fun hmem => h (List.mem_cons_of_mem _ hmem))]
    exact hplain

theorem spaceOut_cons_paren {c : Char} (h : c = '(' ∨ c = ')') (cs : List Char) :
    spaceOut (c :: cs) = ' ' :: c :: ' ' :: spaceOut cs := by
  unfold spaceOut
  rw [List.flatMap_cons, if_pos h]
  rfl

theorem spaceOut_cons {c : Char} (h : ¬ (c = '(' ∨ c = ')')) (cs : List Char) :
    spaceOut (c :: cs) = c :: spaceOut cs := by
  unfold spaceOut
  rw [List.flatMap_cons, if_neg h]
  rfl

theorem spaceOut_of_forall {cs : List Char} (h : ∀ c ∈ cs, c ≠ '(' ∧ c ≠ ')') :
    spaceOut cs = cs := by
  induction cs with
  | nil => rfl
  | cons c cs ih =>
    obtain ⟨hc, hcs⟩ := List.forall_mem_cons.mp h
    rw [spaceOut_cons (not_or.mpr hc), ih hcs]

end Token

open Text (isWordChar)

/-- A word and a closing parenthesis right behind it are two tokens. -/
theorem tokenize_word_close {w : String} (hne : w.toList ≠ [])
    (h : ∀ c ∈ w.toList, isWordChar c = true) : tokenize (w ++ ")") = [w, ")"] := by
  have hparens : ∀ c ∈ w.toList, c ≠ '(' ∧ c ≠ ')' := fun c hc => Text.ne_of_isWordChar (h c hc)
  have hopen : '(' ∉ w.toList ++ [')'] := by
    intro hmem
    rcases List.mem_append.mp hmem with hmem | hmem
    · exact (hparens _ hmem).1 rfl
    · simp at hmem
  have hspaced : Token.spaceOut (w.toList ++ [')']) = w.toList ++ ' ' :: [')', ' '] := by
    have hw := Token.spaceOut_of_forall hparens
    unfold Token.spaceOut at hw ⊢
    rw [List.flatMap_append, hw]
    rfl
  have hword : Text.words w.toList = [w.toList] :=
    Text.words_eq_singleton hne fun c hc => Text.isBlank_of_isWordChar (h c hc)
  unfold tokenize
  rw [String.toList_append]
  show (Text.words (Token.spaceOut (Token.expandQuotes (w.toList ++ [')'])))).map _ = _
  rw [Token.expandQuotes_of_notMem _ hopen, hspaced, Text.words, Text.wordsAfter_append rfl]
  show (Text.words w.toList ++ _).map _ = _
  rw [hword, List.map_append, List.map_singleton, String.ofList_toList]
  rfl

/-! ### The tokens of a text -/

/-- A text of characters that words are made of, if any. -/
def Text.Wordlike (s : String) : Prop := ∀ c ∈ s.toList, isWordChar c = true

instance (s : String) : Decidable (Text.Wordlike s) :=
  List.decidableBAll (fun c => isWordChar c = true) s.toList

/-- A word that is not empty. -/
structure Text.IsName (s : String) : Prop where
  ne_empty : s ≠ ""
  wordlike : Text.Wordlike s

theorem Text.mem_pendingWord {pending w : List Char} (h : w ∈ pendingWord pending) :
    w ≠ [] ∧ ∀ c ∈ w, c ∈ pending := by
  cases pending with
  | nil => cases h
  | cons c cs =>
    obtain rfl := List.mem_singleton.mp h
    exact ⟨by simp, fun d hd => List.mem_reverse.mp hd⟩

/-- With spaces around it a parenthesis ends the word before it and is a word by itself. -/
theorem Token.wordsAfter_spaceOut_paren {c : Char} (h : c = '(' ∨ c = ')')
    (pending cs : List Char) : Text.wordsAfter pending (spaceOut (c :: cs)) =
      Text.pendingWord pending ++ [c] :: Text.words (spaceOut cs) := by
  rw [spaceOut_cons_paren h]
  rcases h with rfl | rfl <;> rfl

/-- With spaces around the parentheses no word reaches over one. The induction is on the text, for
every beginning of a word. -/
theorem Token.cases_of_mem_wordsAfter : ∀ (cs pending : List Char),
    (∀ c ∈ pending, isWordChar c = true) → ∀ w ∈ Text.wordsAfter pending (spaceOut cs),
      w = ['('] ∨ w = [')'] ∨ (w ≠ [] ∧ ∀ c ∈ w, isWordChar c = true)
  | [], pending, hpending, w, hw => by
    obtain ⟨hne, hmem⟩ := Text.mem_pendingWord hw
    exact Or.inr (Or.inr ⟨hne, fun c hc => hpending c (hmem c hc)⟩)
  | c :: cs, pending, hpending, w, hw => by
    have hends : w ∈ Text.pendingWord pending → w ≠ [] ∧ ∀ c ∈ w, isWordChar c = true := fun h =>
      ⟨(Text.mem_pendingWord h).1, fun c hc => hpending c ((Text.mem_pendingWord h).2 c hc)⟩
    have hnew := cases_of_mem_wordsAfter cs [] (List.forall_mem_nil _)
    by_cases hparen : c = '(' ∨ c = ')'
    · rw [wordsAfter_spaceOut_paren hparen] at hw
      rcases List.mem_append.mp hw with hw | hw
      · exact Or.inr (Or.inr (hends hw))
      · rcases List.mem_cons.mp hw with rfl | hw
        · rcases hparen with rfl | rfl
          · exact Or.inl rfl
          · exact Or.inr (Or.inl rfl)
        · exact hnew w hw
    · rw [spaceOut_cons hparen, Text.wordsAfter] at hw
      cases hblank : Text.isBlank c with
      | true =>
        rw [if_pos hblank] at hw
        rcases List.mem_append.mp hw with hw | hw
        · exact Or.inr (Or.inr (hends hw))
        · exact hnew w hw
      | false =>
        rw [if_neg (by simp [hblank])] at hw
        refine cases_of_mem_wordsAfter cs (c :: pending) ?_ w hw
        refine List.forall_mem_cons.mpr ⟨?_, hpending⟩
        obtain ⟨hopen, hclose⟩ := not_or.mp hparen
        simp [isWordChar, hblank, hopen, hclose]

/-- **A token is a parenthesis or a word.** -/
theorem Token.cases_of_mem_tokenize {text : String} {t : Token} (h : t ∈ tokenize text) :
    t = "(" ∨ t = ")" ∨ Text.IsName t := by
  obtain ⟨w, hw, rfl⟩ := List.mem_map.mp h
  rcases cases_of_mem_wordsAfter _ [] (List.forall_mem_nil _) w hw with rfl | rfl | ⟨hne, hchars⟩
  · exact Or.inl rfl
  · exact Or.inr (Or.inl rfl)
  · refine Or.inr (Or.inr ⟨fun hempty => hne ?_, ?_⟩)
    · simpa using congrArg String.toList hempty
    · intro c hc
      exact hchars c (by rwa [String.toList_ofList] at hc)

/-! ### Quoted words -/

/-- Nothing is taken off a text that begins and ends outside the class. -/
theorem Text.trimBy_of_ends {p : Char → Bool} {first last : Char} (hfirst : p first = false)
    (hlast : p last = false) (cs : List Char) :
    trimBy p (first :: (cs ++ [last])) = first :: (cs ++ [last]) := by
  have hends : (first :: (cs ++ [last])).reverse = last :: (first :: cs).reverse := by simp
  rw [trimBy, List.dropWhile_cons_of_neg (by simp [hfirst]), hends,
    List.dropWhile_cons_of_neg (by simp [hlast]), ← hends, List.reverse_reverse]

theorem Text.ne_of_head?_ne {s t : String} (h : s.toList.head? ≠ t.toList.head?) : s ≠ t :=
  fun heq => h (heq ▸ rfl)

/-- No numeral begins with a quote. -/
theorem Numeral.read?_quoted (cs : List Char) : read? ('"' :: (cs ++ ['"'])) = none := by
  have hsign : takeSign ('"' :: (cs ++ ['"'])) = (false, '"' :: (cs ++ ['"'])) := rfl
  have hword : ofWord? false ('"' :: (cs ++ ['"'])) = none := by
    have hne : ∀ {word : String}, some '"' ≠ word.toList.head? →
        String.ofList (('"' :: (cs ++ ['"'])).map Char.toLower) ≠ word :=
      fun h => Text.ne_of_head?_ne (by simpa using h)
    unfold ofWord?
    rw [if_neg (not_or.mpr ⟨hne (by decide), hne (by decide)⟩), if_neg (hne (by decide))]
  have hdigits : ofUnsigned? false ('"' :: (cs ++ ['"'])) = none := rfl
  rw [read?, Text.trimBy_of_ends rfl rfl]
  simp only [hsign, hword, hdigits, Option.map_none]

/-- A word between double quotes is the text between them. -/
theorem Value.ofToken_quoted (text : String) : ofToken ("\"" ++ text ++ "\"") = .str text := by
  have hchars : ("\"" ++ text ++ "\"").toList = '"' :: (text.toList ++ ['"']) := by simp
  have hne : ∀ {word : String}, some '"' ≠ word.toList.head? → "\"" ++ text ++ "\"" ≠ word :=
    fun h => Text.ne_of_head?_ne (by rwa [hchars])
  have hquoted : Token.quotedText? ('"' :: (text.toList ++ ['"'])) = some text.toList := by
    rw [Token.quotedText?, if_pos (by simp), List.dropLast_concat]
  rw [ofToken, if_neg (hne (by decide)), if_neg (hne (by decide)), if_neg (hne (by decide)), hchars,
    Numeral.read?_quoted]
  simp only [hquoted, String.ofList_toList]

end SmallLisp
