/-
# Tokens found in one pass

The tokens of a text are what is left between the blanks once the text has been rewritten three
times over (`tokenize_eq_rewritten`): the quoted parentheses, then the opening and then the closing
ones. One pass over the text as it is finds the same tokens (`tokenize_eq_scan`). It keeps the
characters of the word that it may be in, and ends this word at a blank, at a parenthesis, and at a
quote if a parenthesis is right behind it. At each place the tokens found so far, and the words
that begin with what is kept, are the tokens of the whole (`Scan.run_eq`).

Key definitions: `Text.replaceAll`, `Scan`, `Scan.run`.
Key theorems: `tokenize_eq_rewritten`, `Scan.run_eq`, `tokenize_eq_scan`.
-/
import SmallLisp.Proofs.Words

namespace SmallLisp

/-! ### Three rewritings -/

namespace Text

/-- The text with another one in the place of each occurrence of a pattern, found from left to right;
what is put in is not searched again. -/
def replaceAll (pattern other : List Char) : List Char → List Char
  | [] => []
  | c :: cs =>
    if pattern.isPrefixOf (c :: cs) then
      other ++ replaceAll pattern other (cs.drop (pattern.length - 1))
    else c :: replaceAll pattern other cs
termination_by cs => cs.length
decreasing_by all_goals simp only [List.length_drop, List.length_cons]; omega

theorem replaceAll_singleton (p : Char) (other : List Char) : ∀ cs : List Char,
    replaceAll [p] other cs = cs.flatMap fun c => if c = p then other else [c]
  | [] => by rw [replaceAll]; rfl
  | c :: cs => by
    rw [replaceAll, List.flatMap_cons]
    by_cases hc : c = p
    · have hprefix : [p].isPrefixOf (c :: cs) = true := by simp [hc]
      rw [if_pos hprefix, if_pos hc, ← replaceAll_singleton p other cs]
      rfl
    · have hprefix : ¬ [p].isPrefixOf (c :: cs) = true := by simp [Ne.symm hc]
      rw [if_neg hprefix, if_neg hc, ← replaceAll_singleton p other cs]
      rfl

end Text

namespace Token

theorem expandQuotes_eq_replaceAll (cs : List Char) :
    expandQuotes cs = Text.replaceAll "'(".toList " ( list ".toList cs := by
  induction cs using expandQuotes.induct with
  | case1 => rw [expandQuotes, Text.replaceAll]
  | case2 cs ih =>
    rw [expandQuotes, Text.replaceAll, ih]
    rfl
  | case3 c cs hplain ih =>
    have hprefix : ¬ "'(".toList.isPrefixOf (c :: cs) = true := by
      intro h
      obtain ⟨rest, hrest⟩ := List.isPrefixOf_iff_prefix.mp h
      obtain ⟨hc, hcs⟩ := List.cons.inj hrest
      exact hplain rest hc.symm hcs.symm
    rw [expandQuotes, Text.replaceAll, if_neg hprefix, ih]
    exact hplain

/-- No parenthesis comes of the spaces around another one, so the two kinds may be spaced out one
after the other. -/
theorem spaceOut_eq_replaceAll (cs : List Char) : spaceOut cs =
    Text.replaceAll ")".toList " ) ".toList (Text.replaceAll "(".toList " ( ".toList cs) := by
  show _ = Text.replaceAll [')'] _ (Text.replaceAll ['('] _ cs)
  rw [Text.replaceAll_singleton, Text.replaceAll_singleton, List.flatMap_assoc, spaceOut]
  congr 1
  funext c
  by_cases hopen : c = '('
  · subst hopen
    rfl
  · by_cases hclose : c = ')'
    · subst hclose
      rfl
    · simp [hopen, hclose]

end Token

/-- **The tokens of a text are the words of the text rewritten**: with a call of `list` for each
quoted parenthesis, then with spaces around the opening and then around the closing ones. -/
theorem tokenize_eq_rewritten (text : String) : tokenize text =
    (Text.words (Text.replaceAll ")".toList " ) ".toList (Text.replaceAll "(".toList " ( ".toList
      (Text.replaceAll "'(".toList " ( list ".toList text.toList)))).map String.ofList := by
  rw [tokenize, Token.expandQuotes_eq_replaceAll, Token.spaceOut_eq_replaceAll]

/-! ### One pass -/

/-- A pass on its way: the tokens found, and the characters of a word that is not at its end. -/
structure Scan where
  found : List Token
  pending : List Char

namespace Scan

def start : Scan := ⟨[], []⟩

/-- The end of a word, if there is one. -/
def flush (s : Scan) : Scan :=
  if s.pending.isEmpty then s else ⟨s.found ++ [String.ofList s.pending], []⟩

def emit (s : Scan) (t : Token) : Scan := { s with found := s.found ++ [t] }

def keep (s : Scan) (c : Char) : Scan := { s with pending := s.pending ++ [c] }

/-- The tokens of a pass when it has gone over the rest of the text. -/
def run : Scan → List Char → List Token
  | s, [] => s.flush.found
  | s, '\'' :: '(' :: cs => run ((s.flush.emit "(").emit "list") cs
  | s, c :: cs =>
    if c = '(' ∨ c = ')' then run (s.flush.emit (String.singleton c)) cs
    else if Text.isBlank c then run s.flush cs
    else run (s.keep c) cs

theorem pending_flush (s : Scan) : s.flush.pending = [] := by
  unfold flush
  split
  · rename_i h
    exact List.isEmpty_iff.mp h
  · rfl

theorem found_flush (s : Scan) :
    s.flush.found = s.found ++ (Text.pendingWord s.pending.reverse).map String.ofList := by
  unfold flush
  by_cases h : s.pending = []
  · rw [if_pos (List.isEmpty_iff.mpr h), h]
    exact (List.append_nil _).symm
  · rw [if_neg (mt List.isEmpty_iff.mp h), Text.pendingWord_reverse h]
    rfl

/-- **At every place of a pass** the tokens found and those of the rest are the tokens of the whole;
the rest begins with the word that is not at its end. -/
theorem run_eq (cs : List Char) : ∀ s : Scan, s.run cs = s.found ++
    (Text.wordsAfter s.pending.reverse (Token.spaceOut (Token.expandQuotes cs))).map String.ofList := by
  induction cs using Token.expandQuotes.induct with
  | case1 => exact found_flush
  | case2 cs ih =>
    intro s
    have hwords : Text.wordsAfter s.pending.reverse
        (Token.spaceOut (Token.expandQuotes ('\'' :: '(' :: cs))) =
          Text.pendingWord s.pending.reverse ++
            ['('] :: "list".toList :: Text.words (Token.spaceOut (Token.expandQuotes cs)) := rfl
    rw [run, ih, hwords]
    simp [emit, found_flush, pending_flush, Text.words]
  | case3 c cs hplain ih =>
    intro s
    rw [run, Token.expandQuotes]
    · by_cases hparen : c = '(' ∨ c = ')'
      · rw [if_pos hparen, ih, Token.wordsAfter_spaceOut_paren hparen]
        simp [emit, found_flush, pending_flush, Text.words]
      · rw [if_neg hparen, Token.spaceOut_cons hparen, Text.wordsAfter]
        by_cases hblank : Text.isBlank c = true
        · rw [if_pos hblank, if_pos hblank, ih, pending_flush, found_flush, List.map_append,
            List.append_assoc]
          rfl
        · rw [if_neg hblank, if_neg hblank, ih]
          simp [keep]
    · exact hplain
    · exact hplain

end Scan

/-- **The tokens of a text are found in one pass** that ends a word at each blank, at each
parenthesis and at the end, and takes a quote right before an opening parenthesis, but no other
quote, for the start of a call of `list`. -/
theorem tokenize_eq_scan (text : String) : tokenize text = Scan.start.run text.toList := by
  rw [Scan.run_eq]
  rfl

/-- Quotes in a row, before a closing parenthesis, and behind a word. -/
example : Scan.start.run "''('() a'(b) '".toList =
    ["'", "(", "list", "(", "list", ")", "a", "(", "list", "b", ")", "'"] := by decide

end SmallLisp
