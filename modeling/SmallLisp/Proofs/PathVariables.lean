/-
# Variables that list paths

A variable of the environment lists paths between colons. What it lists is told here without the
functions that take it apart: the text is cut at its colons in the only way there is, a piece of
blanks names nothing, and any other piece names the path that is left of it without the blanks at
its ends (`Settings.Lists`). A variable lists nothing exactly if it holds colons and blanks only.

Of what is listed the search for scripts has all and the script run first is the first. So is the
file of the history, but a variable that lists nothing leaves the history without a file unless it
is unset or empty, while for the other two it is as good as unset (`Settings.paths_of_variables`).

Key definitions: `Text.Stripped`, `Settings.Lists`, `Settings.VariableLists`.
Key theorems: `Text.stripped_trim`, `Text.Stripped.trim_eq`, `Settings.lists_iff`,
`Settings.lists_nil_iff`, `Settings.paths_of_variables`.
-/
import SmallLisp.Settings
import SmallLisp.Proofs.BlankTexts

namespace SmallLisp

namespace Text

/-! ### Pieces of a text -/

theorem fields_eq_splitOn (separator : Char) : ∀ cs : List Char,
    fields separator cs = cs.splitOn separator
  | [] => rfl
  | c :: cs => by
    have hrest := fields_eq_splitOn separator cs
    rw [List.splitOn_eq_splitOnP] at hrest
    rw [List.splitOn_eq_splitOnP, List.splitOnP_cons_eq_if_modifyHead, ← hrest, fields]
    by_cases hc : c = separator
    · simp [hc]
    · obtain ⟨f, fs, hfs⟩ : ∃ f fs, fields separator cs = f :: fs := by
        rw [hrest]
        exact List.exists_cons_of_ne_nil (List.splitOnP_ne_nil _ cs)
      simp [hc, hfs]

theorem fields_intercalate {separator : Char} {pieces : List (List Char)} (hne : pieces ≠ [])
    (h : ∀ piece ∈ pieces, separator ∉ piece) :
    fields separator ([separator].intercalate pieces) = pieces := by
  rw [fields_eq_splitOn]
  exact List.splitOn_intercalate separator h hne

theorem intercalate_fields (separator : Char) (cs : List Char) :
    [separator].intercalate (fields separator cs) = cs := by
  rw [fields_eq_splitOn]
  exact List.intercalate_splitOn separator

theorem fields_ne_nil (separator : Char) (cs : List Char) : fields separator cs ≠ [] := by
  rw [fields_eq_splitOn]
  exact List.splitOn_ne_nil separator cs

/-- What holds of all characters in all fields holds of all characters but the separators. -/
theorem forall_mem_fields {separator : Char} {P : Char → Prop} : ∀ cs : List Char,
    (∀ field ∈ fields separator cs, ∀ c ∈ field, P c) ↔ ∀ c ∈ cs, c = separator ∨ P c
  | [] => by simp [fields]
  | c :: cs => by
    have ih : (∀ field ∈ fields separator cs, ∀ c ∈ field, P c) ↔
        ∀ c ∈ cs, c = separator ∨ P c := forall_mem_fields cs
    rw [fields, List.forall_mem_cons, ← ih]
    by_cases hc : c = separator
    · simp [hc]
    · cases hfs : fields separator cs with
      | nil => exact absurd hfs (fields_ne_nil separator cs)
      | cons f fs => simp [hc, and_assoc]

theorem notMem_of_mem_fields {separator : Char} {cs field : List Char}
    (h : field ∈ fields separator cs) : separator ∉ field := by
  have hall : ∀ field ∈ fields separator cs, ∀ c ∈ field, c ≠ separator :=
    (forall_mem_fields cs).mpr fun c _ => eq_or_ne c separator
  exact fun hmem => hall field h separator hmem rfl

/-! ### Blanks at the ends -/

/-- One text is another without the blanks at its ends. -/
structure Stripped (cs core : List Char) : Prop where
  around : ∃ before after, cs = before ++ core ++ after ∧
    (∀ c ∈ before, isBlank c = true) ∧ ∀ c ∈ after, isBlank c = true
  first : ∀ c ∈ core.head?, isBlank c = false
  last : ∀ c ∈ core.getLast?, isBlank c = false

theorem dropWhile_of_head? {p : Char → Bool} {cs : List Char} (h : ∀ c ∈ cs.head?, p c = false) :
    cs.dropWhile p = cs := by
  cases cs with
  | nil => rfl
  | cons c cs => rw [List.dropWhile_cons_of_neg (by simp [h c rfl])]

theorem eq_false_of_head?_dropWhile {p : Char → Bool} {cs : List Char} {c : Char}
    (h : c ∈ (cs.dropWhile p).head?) : p c = false := by
  have hhead := List.head?_dropWhile_not p cs
  rw [Option.mem_def.mp h] at hhead
  exact hhead

theorem stripped_trim (cs : List Char) : Stripped cs (trim cs) := by
  set front := cs.takeWhile isBlank
  set rest := cs.dropWhile isBlank with hrest
  set back := (rest.reverse.takeWhile isBlank).reverse with hback
  have hends : rest = trim cs ++ back := by
    rw [trim, trimBy, ← hrest, hback, ← List.reverse_append, List.takeWhile_append_dropWhile,
      List.reverse_reverse]
  have haround : cs = front ++ trim cs ++ back := calc
    cs = front ++ rest := List.takeWhile_append_dropWhile.symm
    _ = front ++ trim cs ++ back := by rw [List.append_assoc, ← hends]
  have hbefore : ∀ c ∈ front, isBlank c = true := fun c hc => List.mem_takeWhile_imp hc
  have hafter : ∀ c ∈ back, isBlank c = true :=
    fun c hc => List.mem_takeWhile_imp (List.mem_reverse.mp hc)
  refine ⟨⟨front, back, haround, hbefore, hafter⟩, fun c hc => ?_, fun c hc => ?_⟩
  · -- what is left begins where the blanks in front end
    have hhead : c ∈ rest.head? := by simp [hends, Option.mem_def.mp hc]
    exact eq_false_of_head?_dropWhile hhead
  · rw [trim, trimBy, List.getLast?_reverse] at hc
    exact eq_false_of_head?_dropWhile hc

theorem Stripped.trim_eq {cs core : List Char} (h : Stripped cs core) : trim cs = core := by
  obtain ⟨⟨before, after, rfl, hbefore, hafter⟩, hfirst, hlast⟩ := h
  have hlast' : ∀ c ∈ core.reverse.head?, isBlank c = false := by
    rw [List.head?_reverse]
    exact hlast
  rw [trim, trimBy, List.append_assoc, List.dropWhile_append_of_pos hbefore]
  by_cases hcore : core = []
  · have hnone : after.dropWhile isBlank = [] := List.dropWhile_eq_nil_iff.mpr hafter
    rw [hcore, List.nil_append, hnone]
    rfl
  · have hhead : ∀ c ∈ (core ++ after).head?, isBlank c = false := by
      rw [List.head?_append_of_ne_nil _ hcore]
      exact hfirst
    rw [dropWhile_of_head? hhead, List.reverse_append,
      List.dropWhile_append_of_pos fun c hc => hafter c (List.mem_reverse.mp hc),
      dropWhile_of_head? hlast', List.reverse_reverse]

end Text

namespace Settings

open Text (isBlank Stripped)

/-! ### What a variable lists -/

/-- Pieces of a text name paths, in order. A piece of blanks names none, and any other one the path
that it is without the blanks at its ends. -/
inductive Names : List (List Char) → List Path → Prop
  | none : Names [] []
  | blank {piece : List Char} {pieces : List (List Char)} {paths : List Path} :
    (∀ c ∈ piece, isBlank c = true) → Names pieces paths → Names (piece :: pieces) paths
  | entry {piece core : List Char} {pieces : List (List Char)} {paths : List Path} :
    Stripped piece core → core ≠ [] → Names pieces paths →
      Names (piece :: pieces) (.ofString (String.ofList core) :: paths)

/-- A text lists the paths that its pieces between the colons name. -/
def Lists (text : String) (paths : List Path) : Prop :=
  ∃ pieces, pieces ≠ [] ∧ (∀ piece ∈ pieces, ':' ∉ piece) ∧
    text.toList = [':'].intercalate pieces ∧ Names pieces paths

/-- A variable lists what its text does. An unset one lists nothing. -/
def VariableLists : Option String → List Path → Prop
  | none, paths => paths = []
  | some text, paths => Lists text paths

/-- The paths that pieces name, worked out. -/
theorem names_iff {pieces : List (List Char)} {paths : List Path} : Names pieces paths ↔
    paths = ((pieces.map Text.trim).filter (!·.isEmpty)).map fun cs =>
      .ofString (String.ofList cs) := by
  constructor
  · intro h
    induction h with
    | none => rfl
    | @blank piece _ _ hblank _ ih =>
      have htrim : Text.trim piece = [] :=
        (Text.trim_eq_nil_iff piece).mpr (Text.allBlank_iff.mpr hblank)
      simp [htrim, ih]
    | entry hstripped hne _ ih => simp [hstripped.trim_eq, hne, ih]
  · rintro rfl
    induction pieces with
    | nil => exact .none
    | cons piece pieces ih =>
      by_cases htrim : Text.trim piece = []
      · have hblank := Text.allBlank_iff.mp ((Text.trim_eq_nil_iff piece).mp htrim)
        simpa [htrim] using Names.blank hblank ih
      · simpa [htrim] using Names.entry (Text.stripped_trim piece) htrim ih

/-- **A text lists its entries** and nothing else. -/
theorem lists_iff {text : String} {paths : List Path} :
    Lists text paths ↔ paths = entries text := by
  constructor
  · rintro ⟨pieces, hne, hcolon, htext, hnames⟩
    rw [entries, htext, Text.fields_intercalate hne hcolon]
    exact names_iff.mp hnames
  · rintro rfl
    exact ⟨_, Text.fields_ne_nil ':' text.toList, fun _ => Text.notMem_of_mem_fields,
      (Text.intercalate_fields ':' text.toList).symm, names_iff.mpr rfl⟩

theorem entries_eq_nil_iff {text : String} :
    entries text = [] ↔ ∀ c ∈ text.toList, c = ':' ∨ isBlank c = true := by
  have hempty : entries text = [] ↔
      ∀ field ∈ Text.fields ':' text.toList, ∀ c ∈ field, isBlank c = true := by
    simp [entries, List.filter_eq_nil_iff, Text.trim_eq_nil_iff, Text.allBlank_iff]
  rw [hempty, Text.forall_mem_fields]

/-- Colons and blanks list nothing, and all else lists something. -/
theorem lists_nil_iff {text : String} :
    Lists text [] ↔ ∀ c ∈ text.toList, c = ':' ∨ isBlank c = true := by
  rw [lists_iff, eq_comm, entries_eq_nil_iff]

theorem variableLists_unique : ∀ value : Option String, ∃! paths, VariableLists value paths
  | none => ⟨[], rfl, fun _ h => h⟩
  | some text => ⟨entries text, lists_iff.mpr rfl, fun _ h => lists_iff.mp h⟩

/-- The paths of a variable are those that it lists, unless it is unset or empty. -/
theorem pathsOr_of_lists (others : List Path) {value : Option String} {paths : List Path}
    (h : VariableLists value paths) :
    pathsOr others value = if value.getD "" = "" then others else paths := by
  cases value with
  | none => rfl
  | some text =>
    rw [pathsOr, lists_iff.mp h]
    simp

theorem pathsOr_nil_of_lists {value : Option String} {paths : List Path}
    (h : VariableLists value paths) : pathsOr [] value = paths := by
  rw [pathsOr_of_lists [] h]
  by_cases hvalue : value.getD "" = ""
  · rw [if_pos hvalue]
    cases value with
    | none => exact h.symm
    | some text =>
      obtain rfl : text = "" := hvalue
      exact (lists_iff.mp h).symm
  · rw [if_neg hvalue]

theorem roots_of_lists {s : Settings} {paths : List Path} (h : VariableLists s.loadPath paths) :
    s.roots = paths := pathsOr_nil_of_lists h

theorem prelude?_of_lists {s : Settings} {paths : List Path} (h : VariableLists s.prelude paths) :
    s.prelude? = paths.head? := by
  rw [prelude?, pathsOr_nil_of_lists h]

theorem historyFile_of_lists_cons {s : Settings} {first : Path} {paths : List Path}
    (h : VariableLists s.history (first :: paths)) : s.historyFile = .ok first := by
  have hpaths : pathsOr [.ofString "history.txt"] s.history = first :: paths := by
    rw [pathsOr_of_lists _ h, if_neg]
    intro hempty
    -- neither an unset variable nor an empty one lists anything
    have hnone := pathsOr_of_lists [] h
    rw [if_pos hempty, pathsOr_nil_of_lists h] at hnone
    cases hnone
  rw [historyFile, hpaths]

theorem historyFile_of_lists_nil {s : Settings} (h : VariableLists s.history []) :
    s.historyFile =
      if s.history.getD "" = "" then .ok (.ofString "history.txt") else .error .noHistoryEntry := by
  rw [historyFile, pathsOr_of_lists _ h]
  by_cases hvalue : s.history.getD "" = ""
  · rw [if_pos hvalue, if_pos hvalue]
  · rw [if_neg hvalue, if_neg hvalue]

/-- **What the variables come to.** Each of them lists paths in one way. Those of the search are
all that its variable lists, and the script run first is the first of its own, if there is one. The
file of the history is the first too; if none is listed it is the default, but only for a variable
that is unset or empty, and otherwise there is none. So a text of colons and blanks is as good as
none for the search and for the script, and for the history only if it is empty. -/
theorem paths_of_variables (s : Settings) :
    (∀ value, ∃! paths, VariableLists value paths) ∧
    (∀ paths, VariableLists s.loadPath paths → s.roots = paths) ∧
    (∀ paths, VariableLists s.prelude paths → s.prelude? = paths.head?) ∧
    (∀ first others, VariableLists s.history (first :: others) → s.historyFile = .ok first) ∧
    (VariableLists s.history [] → s.historyFile =
      if s.history.getD "" = "" then .ok (.ofString "history.txt")
      else .error .noHistoryEntry) ∧
    ∀ text : String, (∀ c ∈ text.toList, c = ':' ∨ isBlank c = true) →
      { s with loadPath := some text }.roots = { s with loadPath := none }.roots ∧
      { s with prelude := some text }.prelude? = { s with prelude := none }.prelude? ∧
      ({ s with history := some text }.historyFile = { s with history := none }.historyFile ↔
        text = "") := by
  refine ⟨variableLists_unique, fun _ => roots_of_lists, fun _ => prelude?_of_lists,
    fun _ _ => historyFile_of_lists_cons, historyFile_of_lists_nil, fun text htext => ?_⟩
  have hlists : VariableLists (some text) [] := lists_nil_iff.mpr htext
  have hunset : VariableLists none [] := rfl
  refine ⟨?_, ?_, ?_⟩
  · rw [roots_of_lists (s := { s with loadPath := some text }) hlists,
      roots_of_lists (s := { s with loadPath := none }) hunset]
  · rw [prelude?_of_lists (s := { s with prelude := some text }) hlists,
      prelude?_of_lists (s := { s with prelude := none }) hunset]
  · rw [historyFile_of_lists_nil (s := { s with history := some text }) hlists,
      historyFile_of_lists_nil (s := { s with history := none }) hunset]
    by_cases hempty : text = "" <;> simp [hempty]

/-- Entries among blanks and colons, and a colon where the history should be. -/
theorem paths_of_variables_colon :
    let s : Settings := ⟨some " a :\t:/b", some ":", some ":p:q"⟩
    s.roots = [.ofString "a", .ofString "/b"] ∧ s.prelude? = some (.ofString "p") ∧
    VariableLists s.history [] ∧ s.historyFile = .error .noHistoryEntry ∧
    { s with prelude := some ":" }.prelude? = none := by
  intro s
  obtain ⟨-, hroots, hprelude, -, hhistory, hblank⟩ := paths_of_variables s
  have hcolon : ∀ c ∈ ":".toList, c = ':' ∨ isBlank c = true :=
    fun _ hc => Or.inl (List.mem_singleton.mp hc)
  have hlists : VariableLists s.history [] := lists_nil_iff.mpr hcolon
  refine ⟨hroots _ (lists_iff.mpr (by decide +kernel)),
    hprelude [.ofString "p", .ofString "q"] (lists_iff.mpr (by decide +kernel)), hlists, ?_,
    (hblank ":" hcolon).2.1⟩
  rw [hhistory hlists, if_neg (by decide)]

/-- Not every variable for the history that lists nothing stands for the default. -/
theorem not_historyFile_of_every_variable :
    ¬ ∀ (s : Settings) (paths : List Path), VariableLists s.history paths →
      s.historyFile = .ok (paths.head?.getD (.ofString "history.txt")) := by
  intro h
  have hcolon : VariableLists (some ":") [] :=
    lists_nil_iff.mpr fun _ hc => Or.inl (List.mem_singleton.mp hc)
  have hfile := h ⟨none, some ":", none⟩ [] hcolon
  rw [historyFile_of_lists_nil hcolon, if_neg (by decide)] at hfile
  cases hfile

end Settings
end SmallLisp
