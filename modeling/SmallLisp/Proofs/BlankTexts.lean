/-
# Texts without a token

A text that holds no token is an error when it is evaluated, and nothing else is this error. That a
text has no token and that all its characters are blank is the same (`tokenize_eq_nil_iff`), and so
is that nothing is left of it between its blanks (`Text.trim_eq_nil_iff`), which is how the
read-eval-print loop tells the lines that it skips. No evaluation raises the error, at whatever depth
(`Evaluation.avoids_evaluate`): a script may be blank, and the reader asks for a form only where
there is a token. This is a walk through the evaluator with a lemma for each function; that scripts
fail only for want of a text is all that it takes.

What a loop writes is its farewell, what an evaluation of one of its lines writes, or the line that
tells how one ended (`Repl.exists_of_line_enterAll`).

Key definitions: `Action.Avoids`, `LispError.IsNoToken`, `Repl.WritesFor`.
Key theorems: `Text.trim_eq_nil_iff`, `Evaluation.avoids_evaluate`, `Repl.exists_of_line_enterAll`,
`Session.only_blank_texts_lack_tokens`.
-/
import SmallLisp.Proofs.Brackets
import SmallLisp.Proofs.Inside
import SmallLisp.Proofs.LineSafety
import SmallLisp.Proofs.Transcripts
import Mathlib.Data.List.TakeWhile

namespace SmallLisp

/-! ### Blank texts -/

namespace Text

theorem allBlank_iff {cs : List Char} : allBlank cs = true ↔ ∀ c ∈ cs, isBlank c = true :=
  List.all_eq_true

/-- Nothing is left between the blanks of a text exactly if it is blank. -/
theorem trim_eq_nil_iff (cs : List Char) : trim cs = [] ↔ allBlank cs = true := by
  rw [trim, trimBy, List.reverse_eq_nil_iff, List.dropWhile_eq_nil_iff, allBlank_iff]
  constructor
  · intro h
    rw [← List.dropWhile_eq_nil_iff]
    -- what is left at the first end does not begin with a blank, unless nothing is left
    cases hrest : cs.dropWhile isBlank with
    | nil => rfl
    | cons c rest =>
      have hc := List.head_dropWhile_not isBlank (by rw [hrest]; exact List.cons_ne_nil c rest)
      simp only [hrest, List.head_cons] at hc
      have hblank := h c (List.mem_reverse.mpr (hrest ▸ List.mem_cons_self))
      exact (Bool.false_ne_true (hc.symm.trans hblank)).elim
  · intro h c hc
    exact h c ((List.dropWhile_sublist _).subset (List.mem_reverse.mp hc))

end Text

/-! ### The error -/

namespace LispError

/-- The error of a text without a token, by its family and its message. -/
def IsNoToken (e : LispError) : Prop := e.kind = .grammar ∧ e.message = "could not get token"

/-- No other error has the message of this one. -/
theorem message_eq_noToken_iff {e : LispError} :
    e.message = "could not get token" ↔ e = .noToken := by
  refine ⟨fun h => ?_, fun h => h ▸ rfl⟩
  -- few messages begin with the same letter
  have hhead : e.message.toList.head? = some 'c' := by rw [h]; simp
  rw [message.eq_def] at hhead
  cases e with
  | noToken => rfl
  | noOperand p =>
    cases p with
    | fold op => cases op <;> simp [Primitive.name] at hhead
    | compare relation => cases relation <;> simp [Primitive.name] at hhead
    | _ => exact absurd h (by decide +kernel)
  | unclosedList => exact absurd h (by decide +kernel)
  | carOfEmptyList => exact absurd h (by decide +kernel)
  | _ => simp at hhead

theorem isNoToken_iff {e : LispError} : e.IsNoToken ↔ e = .noToken :=
  ⟨fun h => message_eq_noToken_iff.mp h.2, fun h => h ▸ ⟨rfl, rfl⟩⟩

end LispError

/-! ### Failures that do not occur -/

namespace Action

variable {α β : Type} {f : Failure} {m : Action α}

/-- Wherever it begins, an action does not fail in this way. -/
def Avoids (f : Failure) (m : Action α) : Prop := ∀ c, (m c).outcome ≠ .error f

theorem avoids_pure (a : α) : Avoids f (pure a : Action α) := fun _ h => by cases h

theorem avoids_fail {f' : Failure} (h : f' ≠ f) : Avoids f (fail f' : Action α) := fun _ h' => by
  cases h'
  exact h rfl

theorem Avoids.bind {next : α → Action β} (hm : m.Avoids f) (hnext : ∀ a, (next a).Avoids f) :
    (m >>= next).Avoids f := by
  intro c h
  rcases error_of_bind h with h | ⟨a, -, h⟩
  · exact hm c h
  · exact hnext a _ h

theorem avoids_ofExcept {x : Except LispError α} (h : ∀ e, x = .error e → Failure.error e ≠ f) :
    (ofExcept x).Avoids f := by
  cases x with
  | ok a => exact avoids_pure a
  | error e => exact avoids_fail (h e rfl)

end Action

namespace Evaluation

open SmallLisp.Action (avoids_pure avoids_fail avoids_ofExcept)

/-- The failure of a text without a token. -/
abbrev lacksToken : Failure := .error .noToken

section Walk

variable {scripts : Scripts} {nesting : ℕ} {eval : Value → Action Value}

theorem avoids_lookup (name : String) : (Action.lookup name).Avoids lacksToken := by
  intro c h
  unfold Action.lookup at h
  split at h <;> cases h

theorem avoids_conclude (tokens : List Token) (forms : ℕ) (v : Value) :
    (conclude (Form.parseAll nesting tokens).2 forms v).Avoids lacksToken := by
  have hverdict := Form.rowVerdict_parseAll nesting tokens
  generalize (Form.parseAll nesting tokens).2 = fault at hverdict
  intro c h
  cases hverdict <;> cases h

/-- A script without a text fails for another reason. -/
theorem avoids_readScript (hscripts : scripts.OnlyReadingFails) (path : String) :
    (readScript scripts path).Avoids lacksToken := by
  intro c h
  cases hpath : scripts path with
  | ok text =>
    rw [readScript_of_ok hpath] at h
    cases h
  | error f =>
    rw [readScript_of_error hpath] at h
    cases h
    rcases hscripts path _ hpath with ⟨reason, hreason⟩ | ⟨fault, hfault⟩
    · cases hreason
    · cases hfault

theorem avoids_evalLambda (args : List Value) : (evalLambda args).Avoids lacksToken := by
  unfold evalLambda
  split
  · exact avoids_pure _
  · exact avoids_fail nofun

theorem avoids_evalPrint (args : List Value) : (evalPrint args).Avoids lacksToken := by
  have hwrite : ∀ v : Value, (do Action.writeLine v.render; pure v : Action Value).Avoids
      lacksToken := fun v c h => by cases h
  unfold evalPrint
  split
  · exact (avoids_lookup _).bind hwrite
  · exact hwrite _
  · exact avoids_fail nofun

theorem avoids_evalBindings (args : List Value) : (evalBindings args).Avoids lacksToken := by
  cases args with
  | nil => exact fun c h => by cases h
  | cons e es => exact avoids_fail nofun

variable (heval : ∀ e, (eval e).Avoids lacksToken)
include heval

theorem avoids_evalAll : ∀ es : List Value, (evalAll eval es).Avoids lacksToken
  | [] => avoids_pure []
  | e :: es => (heval e).bind fun _ => (avoids_evalAll es).bind fun _ => avoids_pure _

theorem avoids_evalLast : ∀ (es : List Value) (before : Value),
    (evalLast eval before es).Avoids lacksToken
  | [], before => avoids_pure before
  | e :: es, _ => (heval e).bind fun v => avoids_evalLast es v

theorem avoids_runTokens (tokens : List Token) :
    (runTokens nesting eval tokens).Avoids lacksToken := by
  unfold runTokens
  rw [runForms_eq]
  exact (avoids_evalLast heval _ .nil).bind fun v => avoids_conclude tokens _ v

theorem avoids_call (head : Value) (args : List Value) :
    (call eval head args).Avoids lacksToken := by
  cases head with
  | prim p =>
    refine (avoids_evalAll heval args).bind fun values => avoids_ofExcept fun e he => ?_
    rintro ⟨⟩
    rcases Primitive.kind_of_apply_error he with h | h | h <;> cases h
  | closure params body =>
    refine (avoids_ofExcept (x := formals params) fun e he => ?_).bind fun names => ?_
    · rintro ⟨⟩
      rcases formals_error he with h | h <;> cases h
    · split
      · refine (avoids_evalAll heval args).bind fun values => ?_
        exact fun c h => avoids_evalLast heval body .nil _ h
      · exact avoids_fail nofun
  | _ => exact avoids_fail nofun

theorem avoids_evalBranch (args : List Value) : (evalBranch eval args).Avoids lacksToken := by
  cases args with
  | nil => exact avoids_fail fun h => by cases h
  | cons condition branches =>
    simp only [evalBranch]
    split
    · exact avoids_fail fun h => by cases h
    · refine (heval condition).bind fun v => ?_
      cases v with
      | bool b =>
        simp only
        split
        · exact heval _
        · exact avoids_fail fun h => by cases h
      | _ => exact avoids_fail fun h => by cases h

theorem avoids_evalDefine (args : List Value) : (evalDefine eval args).Avoids lacksToken := by
  unfold evalDefine
  split
  · exact (heval _).bind fun v c h => by cases h
  · exact avoids_fail nofun
  · exact avoids_fail nofun

variable (hscripts : scripts.OnlyReadingFails)
include hscripts

theorem avoids_loadScript (path : String) :
    (loadScript scripts nesting eval path).Avoids lacksToken :=
  (avoids_readScript hscripts path).bind fun text => avoids_runTokens heval (tokenize text)

theorem avoids_evalLoad (args : List Value) :
    (evalLoad scripts nesting eval args).Avoids lacksToken := by
  unfold evalLoad
  split
  · refine (heval _).bind fun v => ?_
    cases v with
    | str path => exact avoids_loadScript heval hscripts path
    | _ => exact avoids_fail nofun
  · exact avoids_fail nofun

/-- If no evaluation inside lacks a token, then neither does the one made of them. -/
theorem avoids_step (e : Value) : (step scripts nesting eval e).Avoids lacksToken := by
  cases e with
  | list items =>
    cases items with
    | nil => exact avoids_fail nofun
    | cons head args =>
      unfold step
      simp only
      split
      · rename_i form _
        cases form with
        | branch => exact avoids_evalBranch heval args
        | define => exact avoids_evalDefine heval args
        | lambda => exact avoids_evalLambda args
        | load => exact avoids_evalLoad heval hscripts args
        | bindings => exact avoids_evalBindings args
        | print => exact avoids_evalPrint args
      · exact (heval head).bind fun f => avoids_call heval f args
  | sym name => exact avoids_lookup name
  | prim p => exact avoids_fail nofun
  | closure params body => exact avoids_fail nofun
  | _ => exact avoids_pure _

end Walk

/-- **No evaluation lacks a token**, whatever it evaluates and loads. -/
theorem avoids_evaluate {scripts : Scripts} (hscripts : scripts.OnlyReadingFails) (nesting : ℕ) :
    ∀ (limit : ℕ) (e : Value), (evaluate scripts nesting limit e).Avoids lacksToken
  | 0, _ => avoids_fail nofun
  | limit + 1, e => avoids_step (avoids_evaluate hscripts nesting limit) hscripts e

end Evaluation

/-! ### Sessions -/

namespace Session

open Evaluation

variable {setup : Setup}

theorem eval_of_blank (s : Session) {text : String} (h : ∀ c ∈ text.toList, Text.isBlank c = true) :
    s.eval setup text = ⟨.error (.error .noToken), s, [], []⟩ := by
  have htokens := (tokenize_eq_nil_iff text).mpr (Text.allBlank_iff.mpr h)
  have haction : setup.evalText text = .raise .noToken := by
    unfold Setup.evalText evalText
    rw [htokens]
  rw [eval, haction]
  rfl

theorem eval_eq_noToken_iff (hscripts : setup.scripts.OnlyReadingFails) (s : Session)
    (text : String) : (s.eval setup text).outcome = .error (.error .noToken) ↔
      ∀ c ∈ text.toList, Text.isBlank c = true := by
  constructor
  · intro h
    by_contra hblank
    have htokens : tokenize text ≠ [] := fun hnil =>
      hblank (Text.allBlank_iff.mp ((tokenize_eq_nil_iff text).mp hnil))
    have haction : setup.evalText text =
        runTokens setup.limits.nesting setup.evaluate (tokenize text) := evalText_of_ne htokens
    rw [eval, haction] at h
    exact avoids_runTokens (avoids_evaluate hscripts _ _) _ _ h
  · intro h
    rw [s.eval_of_blank h]

end Session

/-- A blank script gives `nil` and does nothing. -/
theorem Evaluation.loadScript_of_blank {scripts : Scripts} {path text : String}
    (htext : scripts path = .ok text) (h : ∀ c ∈ text.toList, Text.isBlank c = true)
    (nesting : ℕ) (eval : Value → Action Value) (c : Chain) :
    loadScript scripts nesting eval path c =
      ⟨.ok .nil, c, [], [.loading path, .evaluated 0]⟩ := by
  have htokens := (tokenize_eq_nil_iff text).mpr (Text.allBlank_iff.mpr h)
  have hread := readScript_of_ok htext c
  rw [loadScript, Action.bind_ok _ (congrArg Run.outcome hread), hread, htokens, runTokens, runForms]
  rfl

/-! ### The read-eval-print loop -/

namespace Repl

variable {context : Context} {text : String}

/-- A line has the session go on from where its evaluation has left it. -/
theorem session_enter (st : State) (line : String) : (enter context st line).state.session =
    st.session.afterLines context.setup [line] := by
  unfold enter
  cases hblank : Text.allBlank line.toList with
  | true =>
    rw [Session.afterLines_of_blank _ _ hblank]
    rfl
  | false =>
    rw [Session.afterLines_of_not_blank _ _ hblank]
    simp only [Bool.false_eq_true, if_false]
    split <;> rfl

/-- Nothing is shown of a line, and the loop goes on, exactly if nothing of it is left between its
blanks. -/
theorem enter_skips_iff (st : State) (line : String) :
    (enter context st line).events = [] ∧ (enter context st line).fault = none ↔
      Text.trim line.toList = [] := by
  rw [Text.trim_eq_nil_iff]
  unfold enter
  cases hblank : Text.allBlank line.toList with
  | true => exact ⟨fun _ => rfl, fun _ => ⟨rfl, rfl⟩⟩
  | false =>
    simp only [Bool.false_eq_true, if_false, iff_false]
    split <;> simp

/-- A line is written for one that is typed in: its evaluation writes it, or it tells how the
evaluation ended. -/
def WritesFor (setup : Setup) (s : Session) (line text : String) : Prop :=
  Text.allBlank line.toList = false ∧
    (text ∈ (s.eval setup line).lines ∨
      Session.outcomeLine (s.eval setup line).outcome = .ok text)

theorem mem_lines_of_replyEvents {α : Type} {reply : Reply α}
    (h : .line text ∈ replyEvents reply) : text ∈ reply.lines := by
  rcases List.mem_append.mp h with h | h
  · obtain ⟨_, _, hnote⟩ := List.mem_map.mp h
    cases hnote
  · obtain ⟨_, hline, heq⟩ := List.mem_map.mp h
    cases heq
    exact hline

theorem writesFor_of_enter {st : State} {line : String}
    (h : .line text ∈ (enter context st line).events) :
    WritesFor context.setup st.session line text := by
  unfold enter at h
  cases hblank : Text.allBlank line.toList with
  | true =>
    rw [hblank] at h
    cases h
  | false =>
    simp only [hblank, Bool.false_eq_true, if_false] at h
    refine ⟨hblank, ?_⟩
    split at h
    · rename_i shown hshown
      rcases List.mem_append.mp h with h | h
      · exact Or.inl (mem_lines_of_replyEvents h)
      · obtain ⟨rfl⟩ := List.mem_singleton.mp h
        exact Or.inr hshown
    · exact Or.inl (mem_lines_of_replyEvents h)

/-- **What a loop writes**, apart from its farewell, it writes for one of its lines, evaluated in
the session after those before it. -/
theorem exists_of_line_enterAll (ending : Ending) : ∀ (lines : List String) (st : State),
    .line text ∈ (enterAll context ending st lines).events → text = ending.farewell ∨
      ∃ before line after, lines = before ++ line :: after ∧
        WritesFor context.setup (st.session.afterLines context.setup before) line text
  | [], st, h => by
    rcases List.mem_cons.mp h with h | h
    · cases h
    · cases List.mem_singleton.mp h
      exact Or.inl rfl
  | line :: lines, st, h => by
    -- the line itself comes after none
    have hfirst : .line text ∈ (enter context st line).events → text = ending.farewell ∨
        ∃ before line' after, line :: lines = before ++ line' :: after ∧
          WritesFor context.setup (st.session.afterLines context.setup before) line' text :=
      fun h => Or.inr ⟨[], line, lines, rfl, writesFor_of_enter h⟩
    rw [enterAll] at h
    simp only at h
    split at h
    · rcases List.mem_cons.mp h with h | h
      · cases h
      · exact hfirst h
    · rcases List.mem_append.mp h with h | hrest
      · rcases List.mem_cons.mp h with h | h
        · cases h
        · exact hfirst h
      · rcases exists_of_line_enterAll ending lines _ hrest with hend | ⟨before, line', after, hl, hw⟩
        · exact Or.inl hend
        · rw [session_enter, ← Session.afterLines_cons] at hw
          exact Or.inr ⟨line :: before, line', after, by rw [hl]; rfl, hw⟩

/-- What a whole loop writes is its greeting, its farewell, or what it writes for a line. -/
theorem exists_of_line_run {s : Session} {disk : Disk} {lines : List String} {ending : Ending}
    (h : .line text ∈ (run context s disk lines ending).events) :
    text = "No previous history." ∨ text = ending.farewell ∨
      ∃ before line after, lines = before ++ line :: after ∧
        WritesFor context.setup (s.afterLines context.setup before) line text := by
  unfold run at h
  split at h
  · cases h
  · simp only at h
    rcases List.mem_append.mp h with h | h
    · rcases List.mem_append.mp h with h | h
      · unfold openHistory at h
        split at h
        · cases h
        · rcases List.mem_cons.mp h with h | h
          · cases h
          · cases List.mem_singleton.mp h
            exact Or.inl rfl
      · exact Or.inr (exists_of_line_enterAll ending lines _ h)
    · unfold saveHistory at h
      split at h
      · cases h
      · cases List.mem_singleton.mp h

/-- Only the error of a text without a token is told by its line. -/
theorem outcome_of_outcomeLine {outcome : Except Failure Value}
    (h : Session.outcomeLine outcome = .ok LispError.noToken.line) :
    outcome = .error (.error .noToken) := by
  cases outcome with
  | ok v =>
    have hline : successMark ++ v.render = errorMark ++ LispError.noToken.message := Except.ok.inj h
    have hmark := congrArg (fun line : String => line.toList[3]?) hline
    simp [successMark, errorMark] at hmark
  | error failure =>
    cases failure with
    | error e =>
      have hline : errorMark ++ e.message = errorMark ++ LispError.noToken.message := Except.ok.inj h
      rw [LispError.message_eq_noToken_iff.mp (String.append_right_inj _ |>.mp hline)]
    | stackExhausted =>
      have hline : errorMark ++ Failure.stackExhausted.message =
        errorMark ++ LispError.noToken.message := Except.ok.inj h
      exact absurd (String.append_right_inj _ |>.mp hline) (by decide +kernel)
    | host fault => cases h

/-- A loop writes the error of a text without a token only if an evaluation in it writes that
line. -/
theorem exists_of_noToken_line (hscripts : context.setup.scripts.OnlyReadingFails) {s : Session}
    {disk : Disk} {lines : List String} {ending : Ending}
    (h : .line LispError.noToken.line ∈ (run context s disk lines ending).events) :
    ∃ before line after, lines = before ++ line :: after ∧ LispError.noToken.line ∈
      ((s.afterLines context.setup before).eval context.setup line).lines := by
  have hgreeting : LispError.noToken.line ≠ "No previous history." := by decide +kernel
  have hfarewell : LispError.noToken.line ≠ ending.farewell := by cases ending <;> decide +kernel
  rcases exists_of_line_run h with h | h | ⟨before, line, after, hl, hblank, hwritten⟩
  · exact absurd h hgreeting
  · exact absurd h hfarewell
  · refine ⟨before, line, after, hl, hwritten.resolve_right fun h => ?_⟩
    have hall := (Session.eval_eq_noToken_iff hscripts _ line).mp (outcome_of_outcomeLine h)
    exact Bool.false_ne_true (hblank.symm.trans (Text.allBlank_iff.mpr hall))

end Repl

namespace Session

open Evaluation

variable {setup : Setup}

/-- A session goes on being reached while lines are evaluated in it. -/
theorem exists_reached_afterLines (hscripts : setup.scripts.OnlyReadingFails) :
    ∀ (lines : List String) {forms : List Value} {s : Session}, Reached forms s →
      ∃ forms', Reached forms' (s.afterLines setup lines)
  | [], forms, _, hs => ⟨forms, hs⟩
  | line :: lines, forms, s, hs => by
    rw [afterLines_cons]
    cases hblank : Text.allBlank line.toList with
    | true =>
      rw [afterLines_of_blank setup s hblank]
      exact exists_reached_afterLines hscripts lines hs
    | false =>
      rw [afterLines_of_not_blank setup s hblank]
      exact exists_reached_afterLines hscripts lines (hs.next setup (.eval line) hscripts)

/-- The error of a text without a token has more blanks than anything that a session of words
writes. -/
theorem noToken_line_not_mem (forms : List Value) {s : Session} (hs : Reached forms s)
    (request : Request) : LispError.noToken.line ∉ (s.perform setup request).lines := by
  have hblanks : (Text.blanks LispError.noToken.line).length = 6 := by decide +kernel
  intro h
  rw [perform_eq_run] at h
  have hmatch := matches_request_of_worded (worded_of_reached hs) setup request fun e he =>
    Simulation.related_evaluate _ e he
  rcases hmatch.written _ h with hnone | hlisting
  · rw [hnone] at hblanks
    cases hblanks
  · rw [hlisting.blanks] at hblanks
    cases hblanks

/-- **Only blank texts lack tokens.** With scripts that fail only for want of a text, the error of a
text without a token is how a text ends exactly if all its characters are blank, and then nothing is
written or bound; and it is how nothing else ends: no expression at any depth, no row of tokens
however malformed, and no script, blank ones included, which give `nil`. The read-eval-print loop
passes over exactly the lines that nothing is left of between their blanks, so it does not write this
error, unless a text that the session was given is this very line and is printed; in a session that
was begun fresh no text is. -/
theorem only_blank_texts_lack_tokens (hscripts : setup.scripts.OnlyReadingFails) :
    (∀ (s : Session) (text : String),
      ((∃ error : LispError, error.IsNoToken ∧
        (s.eval setup text).outcome = .error (.error error)) ↔
          ∀ c ∈ text.toList, Text.isBlank c = true) ∧
      ((∀ c ∈ text.toList, Text.isBlank c = true) →
        s.eval setup text = ⟨.error (.error .noToken), s, [], []⟩)) ∧
    (∀ error : LispError, error.IsNoToken →
      (∀ (limit : ℕ) (e : Value) (c : Chain),
        (evaluate setup.scripts setup.limits.nesting limit e c).outcome ≠
          .error (.error error)) ∧
      (∀ tokens : List Token, (Form.parseAll setup.limits.nesting tokens).2.map
        Form.Fault.toFailure ≠ some (.error error)) ∧
      ∀ (s : Session) (path : String),
        (s.load setup path).outcome ≠ .error (.error error)) ∧
    (∀ path text, setup.scripts path = .ok text → (∀ c ∈ text.toList, Text.isBlank c = true) →
      (∀ s : Session, s.load setup path = ⟨.ok .nil, s, [], [.loading path, .evaluated 0]⟩) ∧
      ∀ (limit : ℕ) (e : Value) (c : Chain),
        let atPath := evaluate setup.scripts setup.limits.nesting limit e c
        atPath.outcome = .ok (.str path) →
          evaluate setup.scripts setup.limits.nesting (limit + 1) (.list [.sym "load", e]) c =
            ⟨.ok .nil, atPath.chain, atPath.lines,
              atPath.notes ++ [.loading path, .evaluated 0]⟩) ∧
    ∀ (historyFile : Path) (records : Bool),
      let context : Repl.Context := ⟨setup, historyFile, records⟩
      (∀ (st : Repl.State) (line : String),
        (Repl.enter context st line).events = [] ∧ (Repl.enter context st line).fault = none ↔
          Text.trim line.toList = []) ∧
      ∀ (s : Session) (disk : Disk) (lines : List String) (ending : Repl.Ending),
        (.line LispError.noToken.line ∈ (Repl.run context s disk lines ending).events →
          ∃ before line after, lines = before ++ line :: after ∧ LispError.noToken.line ∈
            ((s.afterLines setup before).eval setup line).lines) ∧
        ((∃ forms, Reached forms s) →
          .line LispError.noToken.line ∉ (Repl.run context s disk lines ending).events) := by
  have hload : ∀ path, (setup.loadScript path).Avoids lacksToken :=
    fun path => avoids_loadScript (avoids_evaluate hscripts _ _) hscripts path
  refine ⟨fun s text => ⟨⟨?_, fun h => ?_⟩, s.eval_of_blank⟩, ?_, ?_, ?_⟩
  · rintro ⟨error, herror, hout⟩
    rw [LispError.isNoToken_iff.mp herror] at hout
    exact (s.eval_eq_noToken_iff hscripts text).mp hout
  · exact ⟨.noToken, LispError.isNoToken_iff.mpr rfl, by rw [s.eval_of_blank h]⟩
  · intro error herror
    obtain rfl := LispError.isNoToken_iff.mp herror
    refine ⟨fun limit e => avoids_evaluate hscripts _ limit e, fun tokens => ?_,
      fun s path => hload path _⟩
    have hverdict := Form.rowVerdict_parseAll setup.limits.nesting tokens
    generalize (Form.parseAll setup.limits.nesting tokens).2 = fault at hverdict
    cases hverdict <;> simp [Form.Fault.toFailure]
  · intro path text htext hblank
    refine ⟨fun s => ?_, ?_⟩
    · rw [load, run, Setup.loadScript, loadScript_of_blank htext hblank]
      rfl
    · intro limit e c atPath hpath
      show evalLoad _ _ _ [e] c = _
      rw [evalLoad, Action.bind_ok _ hpath]
      simp only [loadScript_of_blank htext hblank, List.append_nil]
      rfl
  · intro historyFile records context
    refine ⟨fun st line => Repl.enter_skips_iff st line, fun s disk lines ending => ?_⟩
    have hwrites : .line LispError.noToken.line ∈ (Repl.run context s disk lines ending).events →
        ∃ before line after, lines = before ++ line :: after ∧ LispError.noToken.line ∈
          ((s.afterLines setup before).eval setup line).lines :=
      @Repl.exists_of_noToken_line context hscripts s disk lines ending
    refine ⟨hwrites, ?_⟩
    rintro ⟨forms, hs⟩ h
    obtain ⟨before, line, after, -, hmem⟩ := hwrites h
    obtain ⟨forms', hs'⟩ := exists_reached_afterLines hscripts before hs
    exact noToken_line_not_mem forms' hs' (.eval line) hmem

/-- A text of a tab and a wide space, a script of a line end, and a loop over lines that load the
script, hold nothing, and print a parenthesis that closes nothing. -/
theorem only_blank_texts_lack_tokens_script :
    let setup : Setup := ⟨.ofList [("gap", " \n")], 9, 9⟩
    let context : Repl.Context := ⟨setup, .ofString "history", false⟩
    let c := Chain.ofFrame .empty
    setup.scripts.OnlyReadingFails ∧
    fresh.eval setup "\t\u3000" = ⟨.error (.error .noToken), fresh, [], []⟩ ∧
    evaluate setup.scripts 9 3 (.list [.sym "load", .str "gap"]) c =
      ⟨.ok .nil, c, [], [.loading "gap", .evaluated 0]⟩ ∧
    ((Repl.enter context ⟨fresh, .empty, 1⟩ " ").events = [] ∧
      (Repl.enter context ⟨fresh, .empty, 1⟩ " ").fault = none) ∧
    .line LispError.noToken.line ∉ (Repl.run context fresh (.ofEntries [] [])
      ["(load \"gap\")", " ", "(print \")\")"] .endOfInput).events := by
  intro setup context c
  have hscripts : setup.scripts.OnlyReadingFails := Scripts.onlyReadingFails_ofList _
  obtain ⟨heval, -, hload, hloop⟩ := only_blank_texts_lack_tokens hscripts
  obtain ⟨hskips, hrun⟩ := hloop (.ofString "history") false
  exact ⟨hscripts, (heval fresh "\t\u3000").2 (Text.allBlank_iff.mp (by decide)),
    (hload "gap" " \n" rfl (Text.allBlank_iff.mp (by decide))).2 2 (.str "gap") c rfl,
    (hskips ⟨fresh, .empty, 1⟩ " ").mpr (by decide),
    (hrun fresh (.ofEntries [] []) _ .endOfInput).2 ⟨[], .fresh⟩⟩

end Session
end SmallLisp
