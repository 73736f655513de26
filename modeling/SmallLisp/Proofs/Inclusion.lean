/-
# Loading is inclusion

A call of `load` in a text stands for the text of the script: to evaluate the text with the call in
it is to evaluate the text with the script's text in its place (`Session.load_is_inclusion`). Forms
of the script are evaluated one level deeper by the call, so this is said of runs that do not end
for want of stack: what a call of `load` does is, up to the stack, what running the script does
(`Evaluation.upToStack_load`). A script without tokens is the one case in which the value tells the
two apart, and only if nothing follows.

Key definitions: `loadCall`, `TokenTree.loadCall`, `Evaluation.loadForm`.
Key theorems: `Evaluation.upToStack_load`, `Evaluation.upToStack_include`,
`Session.load_is_inclusion`.
-/
import SmallLisp.Proofs.Boundary
import SmallLisp.Proofs.Grammar
import SmallLisp.Proofs.Limits
import SmallLisp.Proofs.Words

namespace SmallLisp

/-! ### The call as it is written and as it is read -/

theorem Token.isWord_quoted (text : String) : Token.IsWord ("\"" ++ text ++ "\"") :=
  ⟨Text.ne_of_head?_ne (by simp), Text.ne_of_head?_ne (by simp)⟩

/-- The call that loads the script at a path, as it is written. -/
def loadCall (path : String) : String := "(load \"" ++ path ++ "\")"

/-- The tree of the call. -/
def TokenTree.loadCall (path : String) : TokenTree :=
  .node [.leaf "load" (by decide), .leaf ("\"" ++ path ++ "\"") (Token.isWord_quoted path)]

/-- The call as an expression. -/
def Evaluation.loadForm (path : String) : Value := .list [.sym SpecialForm.load.name, .str path]

theorem tokenize_loadCall {path : String} (h : ∀ c ∈ path.toList, Text.isWordChar c = true) :
    tokenize (loadCall path) = (TokenTree.loadCall path).tokens := by
  have hsplit : loadCall path = "(load" ++ String.singleton ' ' ++ ("\"" ++ path ++ "\"" ++ ")") := by
    apply String.toList_inj.mp
    simp [loadCall]
  have hquoted : ∀ c ∈ ("\"" ++ path ++ "\"").toList, Text.isWordChar c = true := by
    intro c hc
    simp only [String.toList_append, List.mem_append] at hc
    rcases hc with (hc | hc) | hc
    · obtain rfl : c = '"' := by simpa using hc
      rfl
    · exact h c hc
    · obtain rfl : c = '"' := by simpa using hc
      rfl
  rw [hsplit, tokenize_append rfl, tokenize_word_close (by simp) hquoted]
  rfl

theorem TokenTree.form_loadCall (path : String) :
    (TokenTree.loadCall path).form = Evaluation.loadForm path := by
  have hload : Value.ofToken "load" = .sym SpecialForm.load.name := rfl
  rw [loadCall, form, formAll, formAll, formAll, form, form, hload, Value.ofToken_quoted,
    Evaluation.loadForm]

namespace Evaluation

variable {scripts : Scripts} {nesting : ℕ}

/-- A tree at the start of a row is evaluated before all that follows. -/
theorem runForms_tokens (eval : Value → Action Value) (T : TokenTree) (h : T.depth ≤ nesting)
    (more : List Token) (before : Value) (done : ℕ) :
    runForms nesting eval before done (T.tokens ++ more) = (do
      let v ← eval T.form
      runForms nesting eval v (done + 1) more) := by
  rw [runForms_eq, Form.parseAll_tokens T h, evalLast, bind_assoc]
  congr 1
  funext v
  rw [runForms_eq, List.length_cons, Nat.add_right_comm, ← Nat.add_assoc]

theorem runForms_tooDeep (eval : Value → Action Value) (T : TokenTree) (h : nesting < T.depth)
    (more : List Token) (before : Value) (done : ℕ) :
    runForms nesting eval before done (T.tokens ++ more) = .fail .stackExhausted := by
  rw [runForms_eq, Form.parseAll_tooDeep T h]
  rfl

/-! ### The call as it is evaluated -/

variable {limit : ℕ} {path : String}

/-- **A call of `load` runs the script**, unless the stack runs out. -/
theorem upToStack_load (path : String) :
    (evaluate scripts nesting limit (loadForm path)).UpToStack
      (loadScript scripts nesting (evaluate scripts nesting limit) path) := by
  -- the path is evaluated inside the call, so a limit of one is not enough for it
  match limit with
  | 0 => exact Action.upToStack_exhausted _
  | 1 => exact Action.upToStack_exhausted _
  | limit + 2 => exact upToStack_loadScript (Nat.le_succ _) path

theorem upToStack_runForms_load (path : String) (more : List Token) (before : Value) (done : ℕ) :
    (runForms nesting (evaluate scripts nesting limit) before done
      ((TokenTree.loadCall path).tokens ++ more)).UpToStack (do
        let v ← loadScript scripts nesting (evaluate scripts nesting limit) path
        runForms nesting (evaluate scripts nesting limit) v (done + 1) more) := by
  rcases Nat.lt_or_ge nesting (TokenTree.loadCall path).depth with hdeep | hdepth
  · rw [runForms_tooDeep _ _ hdeep]
    exact Action.upToStack_exhausted _
  · rw [runForms_tokens _ _ hdepth, TokenTree.form_loadCall]
    exact (upToStack_load path).bind fun v => .refl _

/-- To run a script is to evaluate its text. -/
theorem unnoted_loadScript {eval : Value → Action Value} {text : String}
    (h : scripts path = .ok text) (c : Chain) :
    (loadScript scripts nesting eval path c).unnoted =
      (runTokens nesting eval (tokenize text) c).unnoted := by
  have hread : (readScript scripts path c).outcome = .ok text := by rw [readScript_of_ok h]
  unfold loadScript
  rw [Action.bind_ok _ hread, readScript_of_ok h]
  rfl

/-- **A call of `load` in a row of tokens stands for the tokens of the script**, unless the stack
runs out. -/
theorem upToStack_include {text : String} (hscript : scripts path = .ok text)
    (hread : (Form.parseAll nesting (tokenize text)).2 = none) {more : List Token}
    (hne : tokenize text ++ more ≠ []) (before : Value) (done : ℕ) :
    (runForms nesting (evaluate scripts nesting limit) before done
      ((TokenTree.loadCall path).tokens ++ more)).UpToStack
        (runForms nesting (evaluate scripts nesting limit) before done (tokenize text ++ more)) := by
  refine (upToStack_runForms_load path more before done).trans ?_
  refine Action.upToStack_of_unnoted fun c => ?_
  have hrun : ∀ c, (loadScript scripts nesting (evaluate scripts nesting limit) path c).unnoted =
      (runForms nesting (evaluate scripts nesting limit) .nil 0 (tokenize text) c).unnoted :=
    unnoted_loadScript hscript
  -- the script begins with another value before it, which no row that is not empty can show
  rw [Action.unnoted_bind hrun (fun _ _ => rfl), unnoted_runForms_append hread,
    unnoted_runForms _ _ hne, unnoted_runForms _ _ hne]

/-! ### Texts -/

theorem tokenize_lines (a b : String) : tokenize (a ++ "\n" ++ b) = tokenize a ++ tokenize b := by
  have hline : "\n" = String.singleton '\n' := String.toList_inj.mp (by simp)
  rw [hline, tokenize_append rfl]

/-- A text alone that loads a script does what running the script does. -/
theorem upToStack_evalText_load (hpath : ∀ c ∈ path.toList, Text.isWordChar c = true) :
    (evalText nesting (evaluate scripts nesting limit) (loadCall path)).UpToStack
      (loadScript scripts nesting (evaluate scripts nesting limit) path) := by
  have htokens := tokenize_loadCall hpath
  rw [evalText_of_ne (htokens ▸ TokenTree.tokens_ne_nil _), htokens, runTokens,
    ← List.append_nil (TokenTree.loadCall path).tokens]
  refine (upToStack_runForms_load path [] .nil 0).trans (Action.upToStack_of_unnoted fun c => ?_)
  have hlast : ∀ v c, (runForms nesting (evaluate scripts nesting limit) v (0 + 1) [] c).unnoted =
      ((pure v : Action Value) c).unnoted := fun v c => by rw [runForms]; rfl
  rw [Action.unnoted_bind (fun _ => rfl) hlast, bind_pure]

theorem upToStack_evalText_include {text a b : String}
    (hpath : ∀ c ∈ path.toList, Text.isWordChar c = true) (hscript : scripts path = .ok text)
    (htext : (Form.parseAll nesting (tokenize text)).2 = none)
    (ha : (Form.parseAll nesting (tokenize a)).2 = none) (hne : tokenize text ++ tokenize b ≠ []) :
    (evalText nesting (evaluate scripts nesting limit)
      (a ++ "\n" ++ loadCall path ++ "\n" ++ b)).UpToStack
        (evalText nesting (evaluate scripts nesting limit) (a ++ "\n" ++ text ++ "\n" ++ b)) := by
  have hload : tokenize (a ++ "\n" ++ loadCall path ++ "\n" ++ b) =
      tokenize a ++ ((TokenTree.loadCall path).tokens ++ tokenize b) := by
    rw [tokenize_lines, tokenize_lines, tokenize_loadCall hpath, List.append_assoc]
  have hinclude : tokenize (a ++ "\n" ++ text ++ "\n" ++ b) =
      tokenize a ++ (tokenize text ++ tokenize b) := by
    rw [tokenize_lines, tokenize_lines, List.append_assoc]
  have hload_ne : (TokenTree.loadCall path).tokens ++ tokenize b ≠ [] :=
    List.append_ne_nil_of_left_ne_nil (TokenTree.tokens_ne_nil _) _
  rw [evalText_of_ne (hload ▸ List.append_ne_nil_of_right_ne_nil _ hload_ne), hload,
    evalText_of_ne (hinclude ▸ List.append_ne_nil_of_right_ne_nil _ hne), hinclude, runTokens,
    runTokens, runForms_append ha, runForms_append ha]
  exact (Action.UpToStack.refl _).bind fun v => upToStack_include hscript htext hne v _

end Evaluation

namespace Session

/-- **To load a script is to have its text in this place.** Let a path be written without blanks
and parentheses. If the script there can be read, and so can all that stands before the call of
`load`, then a text with the call has the same outcome, writes the same lines and leaves the same
bindings as the text with the script instead of the call, whatever follows, unless both the script
and what follows are blank. And for every script, also one that is malformed, blank or not to be
had, loading it and evaluating the call that loads it come to the same. All this is meant of runs
that do not exhaust the stack. -/
theorem load_is_inclusion (setup : Setup) (s : Session) {path : String}
    (hpath : ∀ c ∈ path.toList, Text.isWordChar c = true) :
    (∀ (text a b : String) (scriptForms forms : List Value), setup.scripts path = .ok text →
      Form.read setup.limits.nesting text = .ok scriptForms →
      Form.read setup.limits.nesting a = .ok forms →
      (Text.allBlank text.toList = false ∨ Text.allBlank b.toList = false) →
      let loading := s.eval setup (a ++ "\n" ++ loadCall path ++ "\n" ++ b)
      let included := s.eval setup (a ++ "\n" ++ text ++ "\n" ++ b)
      loading.outcome ≠ .error .stackExhausted →
        loading.outcome = included.outcome ∧ loading.lines = included.lines ∧
          loading.session = included.session) ∧
    (let called := s.eval setup (loadCall path)
      let loaded := s.load setup path
      called.outcome ≠ .error .stackExhausted →
        called.outcome = loaded.outcome ∧ called.lines = loaded.lines ∧
          called.session = loaded.session) := by
  refine ⟨?_, fun hout => ?_⟩
  · intro text a b scriptForms forms hscript htext ha hblank loading included hout
    have hne : tokenize text ++ tokenize b ≠ [] := by
      intro hnil
      rw [List.append_eq_nil_iff, tokenize_eq_nil_iff, tokenize_eq_nil_iff] at hnil
      rcases hblank with h | h
      · rw [hnil.1] at h
        cases h
      · rw [hnil.2] at h
        cases h
    exact s.run_eq_of_upToStack (Evaluation.upToStack_evalText_include hpath hscript
      (Form.fault_eq_none_of_read htext) (Form.fault_eq_none_of_read ha) hne) hout
  · exact s.run_eq_of_upToStack (Evaluation.upToStack_evalText_load hpath) hout

/-- A script that hides a binding, loaded between forms, and a script that is not there. -/
theorem load_is_inclusion_hiding :
    let setup : Setup := ⟨.ofList [("lib", "(let x nil) (print x)")], ⟨9, 9⟩⟩
    let loading := fresh.eval setup ("(let x true)" ++ "\n" ++ loadCall "lib" ++ "\n" ++ "(print x)")
    let included :=
      fresh.eval setup ("(let x true)" ++ "\n" ++ "(let x nil) (print x)" ++ "\n" ++ "(print x)")
    let called := fresh.eval setup (loadCall "gone")
    ((∀ c ∈ "lib".toList, Text.isWordChar c = true) ∧
      setup.scripts "lib" = .ok "(let x nil) (print x)" ∧
      Form.read 9 "(let x nil) (print x)" =
        .ok [.list [.sym "let", .sym "x", .nil], .list [.sym "print", .sym "x"]] ∧
      Form.read 9 "(let x true)" = .ok [.list [.sym "let", .sym "x", .bool true]] ∧
      Text.allBlank "(let x nil) (print x)".toList = false ∧
      loading.outcome ≠ .error .stackExhausted ∧
      loading.outcome = included.outcome ∧ included.lines = ["nil", "nil"] ∧
      loading.lines = ["nil", "nil"] ∧ loading.session = included.session) ∧
    ((∀ c ∈ "gone".toList, Text.isWordChar c = true) ∧ called.outcome ≠ .error .stackExhausted ∧
      called.outcome = .error (.error (.unreadable (.unknown "gone")))) := by
  intro setup loading included called
  have hlib : ∀ c ∈ "lib".toList, Text.isWordChar c = true := List.all_eq_true.mp rfl
  have hgone : ∀ c ∈ "gone".toList, Text.isWordChar c = true := List.all_eq_true.mp rfl
  have hscript : Form.read 9 "(let x nil) (print x)" =
      .ok [.list [.sym "let", .sym "x", .nil], .list [.sym "print", .sym "x"]] := by
    have htokens : tokenize "(let x nil) (print x)" =
      ["(", "let", "x", "nil", ")", "(", "print", "x", ")"] := rfl
    have hlet : Form.parse 9 ["(", "let", "x", "nil", ")", "(", "print", "x", ")"] =
      .ok (.list [.sym "let", .sym "x", .nil], ["(", "print", "x", ")"]) := rfl
    have hprint : Form.parse 9 ["(", "print", "x", ")"] =
      .ok (.list [.sym "print", .sym "x"], []) := rfl
    rw [Form.read, htokens, Form.parseAll_of_ok hlet, Form.parseAll_of_ok hprint, Form.parseAll_nil]
  have hbefore : Form.read 9 "(let x true)" = .ok [.list [.sym "let", .sym "x", .bool true]] := by
    have htokens : tokenize "(let x true)" = ["(", "let", "x", "true", ")"] := rfl
    have hlet : Form.parse 9 ["(", "let", "x", "true", ")"] =
      .ok (.list [.sym "let", .sym "x", .bool true], []) := rfl
    rw [Form.read, htokens, Form.parseAll_of_ok hlet, Form.parseAll_nil]
  have hvalue : loading.outcome.isOk = true := by decide +kernel
  have hends : loading.outcome ≠ .error .stackExhausted := fun h => by rw [h] at hvalue; cases hvalue
  have hshown : (outcomeLine called.outcome).toOption ≠
    (outcomeLine (.error .stackExhausted)).toOption := by decide +kernel
  have hends' : called.outcome ≠ .error .stackExhausted := fun h => hshown (by rw [h])
  obtain ⟨hout, hlines, hsession⟩ := (load_is_inclusion setup fresh hlib).1 _ "(let x true)"
    "(print x)" _ _ rfl hscript hbefore (Or.inl rfl) hends
  obtain ⟨hout', -, -⟩ := (load_is_inclusion setup fresh hgone).2 hends'
  have hprinted : included.lines = ["nil", "nil"] := by decide +kernel
  exact ⟨⟨hlib, rfl, hscript, hbefore, rfl, hends, hout, hprinted, hlines.trans hprinted, hsession⟩,
    hgone, hends', hout'⟩

end Session
end SmallLisp
