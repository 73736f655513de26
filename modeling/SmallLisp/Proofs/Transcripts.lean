/-
# What a read-eval-print loop shows

A loop over lines is nothing but the evaluation of its lines one after another, each in the session
that the ones before have left, however they ended. What its user is asked and shown is told without
the loop: a prompt for each line, then what the evaluation of the line writes and one line for how
it ended, nothing for a line of blanks; and at last the prompt that the end of the input answers
(`Repl.run_is_fold`). That a loop gets as far as that takes scripts that fail by errors of the
language only; then no evaluation fails in a way that ends the loop (`Session.eval_ne_host`).

Key definitions: `Session.afterLines`, `Repl.Event.seen?`, `Repl.shown`, `Repl.transcript`.
Key theorems: `Session.eval_ne_host`, `Repl.enter_shows`, `Repl.run_is_fold`.
-/
import SmallLisp.Repl
import SmallLisp.Proofs.Requests

namespace SmallLisp

namespace Evaluation

/-- The discipline that lets everything be evaluated but no fault of the surroundings come of it. -/
def Discipline.faultless {scripts : Scripts} (hscripts : scripts.OnlyUnreadable) (nesting : ℕ) :
    Discipline scripts nesting :=
  { Discipline.unrestricted scripts nesting with
    failure := fun f => ∀ fault, f ≠ .host fault
    failure_error := fun _ _ => nofun
    failure_function := fun _ _ _ => nofun
    failure_exhausted := fun _ => nofun
    failure_script := fun {path f} h fault hf => by
      obtain ⟨reason, hreason⟩ := hscripts path f h
      rw [hf] at hreason
      cases hreason }

end Evaluation

namespace Session

open Evaluation (Discipline Simulation)

/-- An evaluation does not end in a fault of the surroundings if no script does. -/
theorem eval_ne_host {setup : Setup} (hscripts : setup.scripts.OnlyUnreadable) (s : Session)
    (text : String) (fault : HostFault) : (s.eval setup text).outcome ≠ .error (.host fault) := by
  have hrelated : (Discipline.faultless hscripts setup.limits.nesting).simulation.Related
      (fun _ => True) (setup.evalText text) (setup.evalText text) :=
    Simulation.related_evalText (Simulation.related_evaluate _) fun _ _ => trivial
  have hmatch := Discipline.matches hrelated (c := .ofFrame s.root)
    (fun _ _ _ _ => ⟨trivial, trivial⟩) fun _ _ => trivial
  exact fun h => hmatch.failure _ h fault rfl

/-- The session after lines that are evaluated one after another. Lines of blanks are passed over,
and a line that fails leaves what it has done. -/
def afterLines (setup : Setup) (s : Session) (lines : List String) : Session :=
  (lines.filter fun line => !Text.allBlank line.toList).foldl
    (fun s line => (s.eval setup line).session) s

variable (setup : Setup) (s : Session) {line : String}

theorem afterLines_cons (line : String) (lines : List String) :
    s.afterLines setup (line :: lines) = (s.afterLines setup [line]).afterLines setup lines := by
  unfold afterLines
  rw [← List.foldl_append, ← List.filter_append, List.singleton_append]

theorem afterLines_of_blank (h : Text.allBlank line.toList = true) :
    s.afterLines setup [line] = s := by
  simp [afterLines, h]

theorem afterLines_of_not_blank (h : Text.allBlank line.toList = false) :
    s.afterLines setup [line] = (s.eval setup line).session := by
  simp [afterLines, h]

end Session

namespace Repl

/-- What the user of a loop meets: a line is asked for, or one is written. -/
inductive Seen where
  | asked (prompt : String)
  | wrote (line : String)

/-- What the user meets in an event, if anything. -/
def Event.seen? : Event → Option Seen
  | .prompt number => some (.asked (promptText number))
  | .line text => some (.wrote text)
  | _ => none

/-- The line that tells how an evaluation ended. -/
def resultLine : Except Failure Value → String
  | .ok v => successMark ++ v.render
  | .error failure => errorMark ++ failure.message

/-- The lines that are written for a line typed in. -/
def shown (setup : Setup) (s : Session) (line : String) : List String :=
  if Text.allBlank line.toList then []
  else (s.eval setup line).lines ++ [resultLine (s.eval setup line).outcome]

/-- The line that is written first if there is no history. -/
def greeting (disk : Disk) (p : Path) : List String :=
  match History.load disk p with
  | .ok _ => []
  | .error _ => ["No previous history."]

/-- What the user meets from a line with a number to the end of the input: for each line its prompt
and what is shown in the session after the lines before it, and one more prompt for the end. -/
def transcript (setup : Setup) (s : Session) (number : ℕ) (lines : List String) (ending : Ending) :
    List Seen :=
  (lines.zipIdx.flatMap fun (line, i) => .asked (promptText (number + i)) ::
    (shown setup (s.afterLines setup (lines.take i)) line).map .wrote) ++
  [.asked (promptText (number + lines.length)), .wrote ending.farewell]

theorem transcript_cons (setup : Setup) (s : Session) (number : ℕ) (line : String)
    (lines : List String) (ending : Ending) :
    transcript setup s number (line :: lines) ending = .asked (promptText number) ::
      ((shown setup s line).map .wrote ++
        transcript setup (s.afterLines setup [line]) (number + 1) lines ending) := by
  have hafter : ∀ i, s.afterLines setup (line :: lines.take i) =
      (s.afterLines setup [line]).afterLines setup (lines.take i) :=
    fun i => s.afterLines_cons setup line (lines.take i)
  unfold transcript
  rw [List.zipIdx_cons, List.flatMap_cons, List.zipIdx_succ, List.flatMap_map]
  -- a line of the rest has one more before it, and its number is one more
  simp only [List.take_zero, List.take_succ_cons, hafter, List.length_cons, Nat.add_zero,
    Nat.add_assoc, Nat.add_comm 1, List.cons_append, List.append_assoc]
  rfl

theorem seen_lines (lines : List String) :
    (lines.map Event.line).filterMap Event.seen? = lines.map .wrote := by
  rw [List.filterMap_map]
  change lines.filterMap (some ∘ Seen.wrote) = lines.map .wrote
  rw [List.filterMap_eq_map]

theorem seen_notes (notes : List Note) : (notes.map Event.note).filterMap Event.seen? = [] := by
  rw [List.filterMap_map]
  exact List.filterMap_eq_nil_iff.mpr fun _ _ => rfl

theorem seen_openHistory (disk : Disk) (p : Path) :
    (openHistory disk p).2.filterMap Event.seen? = (greeting disk p).map .wrote := by
  unfold openHistory greeting
  cases History.load disk p <;> rfl

theorem seen_saveHistory (disk : Disk) (p : Path) (start : ℕ) (h : History) :
    (saveHistory disk p start h).2.filterMap Event.seen? = [] := by
  unfold saveHistory
  split <;> rfl

/-- A loop whose history has a path of a file opens it, takes in its lines and saves what they have
added. -/
theorem run_of_noNul {context : Context} {ending : Ending}
    (hfile : context.historyFile.hasNul = false) (s : Session) (disk : Disk) (lines : List String) :
    let opened := openHistory disk context.historyFile
    let loop := enterAll context ending ⟨s, opened.1, 1⟩ lines
    let saved := saveHistory disk context.historyFile opened.1.length loop.state.history
    run context s disk lines ending =
      ⟨opened.2 ++ loop.events ++ saved.2, loop.state.session, saved.1, loop.fault⟩ := by
  rw [run, if_neg (by rw [hfile]; exact Bool.false_ne_true)]

section Loop

variable {context : Context} (hscripts : context.setup.scripts.OnlyUnreadable)
include hscripts

/-- A text is answered by the line that tells how its evaluation ended. -/
theorem outcome_answer (s : Session) (line : String) : (s.answer context.setup line).outcome =
    .ok (resultLine (s.eval context.setup line).outcome) := by
  have hne := s.eval_ne_host hscripts line
  unfold Session.answer
  simp only
  cases h : (s.eval context.setup line).outcome with
  | ok v => rfl
  | error failure =>
    cases failure with
    | error e => rfl
    | stackExhausted => rfl
    | host fault => exact (hne fault h).elim

/-- **One line typed in** is shown as it should be, has the session go on from where its evaluation
has left it, counts whether it is blank or not, and never ends the loop. -/
theorem enter_shows (st : State) (line : String) :
    (enter context st line).fault = none ∧
    (enter context st line).state.number = st.number + 1 ∧
    (enter context st line).state.session = st.session.afterLines context.setup [line] ∧
    (enter context st line).events.filterMap Event.seen? =
      (shown context.setup st.session line).map .wrote := by
  unfold enter shown
  cases hblank : Text.allBlank line.toList with
  | true =>
    rw [Session.afterLines_of_blank _ _ hblank]
    exact ⟨rfl, rfl, rfl, rfl⟩
  | false =>
    have hanswer := outcome_answer hscripts st.session line
    rw [Session.afterLines_of_not_blank _ _ hblank]
    simp only [hanswer]
    refine ⟨rfl, rfl, rfl, ?_⟩
    rw [if_neg Bool.false_ne_true, if_neg Bool.false_ne_true, replyEvents, List.filterMap_append,
      List.filterMap_append, seen_notes, seen_lines, List.nil_append, List.map_append]
    rfl

/-- Lines typed in are shown one after another, each in the session after those before it. -/
theorem enterAll_shows (ending : Ending) : ∀ (lines : List String) (st : State),
    (enterAll context ending st lines).fault = none ∧
    (enterAll context ending st lines).state.session =
      st.session.afterLines context.setup lines ∧
    (enterAll context ending st lines).events.filterMap Event.seen? =
      transcript context.setup st.session st.number lines ending
  | [], st => ⟨rfl, rfl, rfl⟩
  | line :: lines, st => by
    obtain ⟨hfault, hnumber, hsession, hseen⟩ := enter_shows hscripts st line
    obtain ⟨ihfault, ihsession, ihseen⟩ :=
      enterAll_shows ending lines (enter context st line).state
    rw [enterAll]
    simp only [hfault]
    refine ⟨ihfault, by rw [ihsession, hsession, ← Session.afterLines_cons], ?_⟩
    have hprompt : Event.seen? (.prompt st.number) = some (.asked (promptText st.number)) := rfl
    rw [List.cons_append, List.filterMap_cons_some hprompt, List.filterMap_append, hseen, ihseen,
      hnumber, hsession, transcript_cons]

/-- **A loop is a fold of evaluations.** With scripts that fail by errors of the language only, the
user meets the greeting and the transcript, however the lines fail, and the session that is left is
the one after the lines. -/
theorem run_is_fold (s : Session) (disk : Disk) (lines : List String) (ending : Ending)
    (hfile : context.historyFile.hasNul = false) :
    let outcome := run context s disk lines ending
    outcome.fault = none ∧
    outcome.events.filterMap Event.seen? = (greeting disk context.historyFile).map .wrote ++
      transcript context.setup s 1 lines ending ∧
    outcome.session = s.afterLines context.setup lines := by
  intro outcome
  obtain ⟨hfault, hsession, hseen⟩ := enterAll_shows hscripts ending lines
    ⟨s, (openHistory disk context.historyFile).1, 1⟩
  rw [show outcome = _ from run_of_noNul hfile s disk lines]
  refine ⟨hfault, ?_, hsession⟩
  rw [List.filterMap_append, List.filterMap_append, seen_openHistory, hseen, seen_saveHistory,
    List.append_nil]

end Loop

/-- A line that binds a name and then fails, a line of blanks, and a line that asks for the name: it
is bound, and the prompts have counted every line. -/
theorem run_is_fold_failing :
    let context : Context := ⟨⟨.ofList [], 9, 9⟩, .ofString "history", true⟩
    let outcome := run context .fresh (.ofEntries [] []) ["(let x nil) (", " ", "x"] .interrupt
    outcome.fault = none ∧ outcome.events.filterMap Event.seen? =
      [.wrote "No previous history.", .asked "1> ", .wrote LispError.unclosedList.line,
        .asked "2> ", .asked "3> ", .wrote (Value.successLine .nil), .asked "4> ",
        .wrote "Interrupted"] := by
  intro context
  have hscripts : context.setup.scripts.OnlyUnreadable := Scripts.onlyUnreadable_ofList []
  have hlet : shown context.setup .fresh "(let x nil) (" = [LispError.unclosedList.line] := by
    decide +kernel
  have hx : shown context.setup (Session.fresh.afterLines context.setup ["(let x nil) ("]) "x" =
      [Value.successLine .nil] := by decide +kernel
  obtain ⟨hfault, hseen, -⟩ := run_is_fold hscripts .fresh (.ofEntries [] [])
    ["(let x nil) (", " ", "x"] .interrupt (by decide)
  refine ⟨hfault, hseen.trans ?_⟩
  rw [transcript_cons, transcript_cons, transcript_cons, hlet,
    Session.afterLines_of_blank context.setup _ (by decide : Text.allBlank " ".toList = true), hx]
  rfl

end Repl
end SmallLisp
