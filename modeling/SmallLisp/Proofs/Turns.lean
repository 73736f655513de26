/-
# What the turns of a command come to

`CommandLine.run` says of a command what it shows in the end; a process shows it turn by turn, and
asks for each line only when it has come to it. The turns are shown here to come to what is said:
from the first stage of a command they lead to one end, and all that they show on the way there is
what the command shows (`CommandLine.run_in_turns`). So whatever is said about `CommandLine.run`, and
about the loads and the lines that it is a fold of, is said about the process.

The turns of a stage follow the recursion of what they carry out: those of scripts the row of the
scripts, those of a loop the lines of the input. A prompt belongs to the turn before its line.

Key definitions: `CommandLine.Course.Leads`.
Key theorems: `CommandLine.Course.Leads.unique`, `CommandLine.Course.leads_scripts`,
`CommandLine.Course.leads_asking`, `CommandLine.run_in_turns`.
-/
import SmallLisp.CommandLine.Turns
import SmallLisp.Proofs.LineHistory

namespace SmallLisp

namespace Repl

section Loop

variable {context : Context} {ending : Ending} {st : State} {line : String}

/-- A loop begins with the prompt for its line. -/
theorem events_enterAll_eq_cons : ∀ lines : List String,
    (enterAll context ending st lines).events =
      .prompt st.number :: (enterAll context ending st lines).events.tail
  | [] => rfl
  | line :: lines => by
    rw [enterAll]
    cases (enter context st line).fault <;> rfl

theorem enterAll_cons_of_fault {fault : HostFault} (h : (enter context st line).fault = some fault)
    (lines : List String) : enterAll context ending st (line :: lines) =
      ⟨.prompt st.number :: (enter context st line).events, (enter context st line).state,
        some fault⟩ := by
  rw [enterAll, h]

theorem enterAll_cons_of_none (h : (enter context st line).fault = none) (lines : List String) :
    let others := enterAll context ending (enter context st line).state lines
    enterAll context ending st (line :: lines) =
      ⟨.prompt st.number :: (enter context st line).events ++ others.events, others.state,
        others.fault⟩ := by
  rw [enterAll, h]

/-- A loop that records nothing has nothing to save. -/
theorem run_of_not_records (hrecords : context.records = false)
    (hnul : context.historyFile.hasNul = false) (s : Session) (disk : Disk) (lines : List String) :
    let opened := openHistory disk context.historyFile
    let loop := enterAll context ending ⟨s, opened.1, 1⟩ lines
    run context s disk lines ending =
      ⟨opened.2 ++ loop.events, loop.state.session, disk, loop.fault⟩ := by
  intro opened loop
  obtain ⟨_, _, _, htakes⟩ := exists_takes context.setup lines s
  obtain ⟨-, -, hentries⟩ := enterAll_of_takes ending htakes opened.1 1
  have hadded : loop.state.history.added opened.1.length = [] := by
    rw [History.added, hentries, History.length, List.drop_left, recorded, hrecords]
    rfl
  have hsaved : saveHistory disk context.historyFile opened.1.length loop.state.history =
      (disk, []) := saveHistory_of_added_nil hadded
  rw [run_of_noNul hnul]
  simp only [hsaved, List.append_nil, opened, loop]

end Loop

end Repl

namespace Output

theorem append_assoc (a b c : Output) : a ++ b ++ c = a ++ (b ++ c) := by
  simp [append_def, String.append_assoc]

theorem concat_cons (o : Output) (outputs : List Output) :
    concat (o :: outputs) = o ++ concat outputs := by
  simp [append_def, concat]

theorem ofEvent_prompt (verbose : Bool) (number : ℕ) :
    ofEvent verbose (.prompt number) = prompt number := rfl

end Output

namespace CommandLine

open Output (append_assoc append_empty empty_append concat_append concat_cons)

theorem Result.after_append (a b : Output) (r : Result) :
    r.after (a ++ b) = (r.after b).after a := by
  rw [Result.after, Result.after, Result.after, append_assoc]

section Scripts

variable {verbose : Bool} {setup : Setup} {session : Session} {status : ℕ} {path : String}
variable {output : Output}

theorem runScripts_cons_of_ok {succeeded : Bool}
    (h : report verbose true (session.load setup path) = (output, .ok succeeded))
    (paths : List String) : runScripts verbose setup session status (path :: paths) =
      (runScripts verbose setup (session.load setup path).session
        (if succeeded then status else 1) paths).after output := by
  rw [runScripts]
  simp only [h]

theorem runScripts_cons_of_error {failure : Failure}
    (h : report verbose true (session.load setup path) = (output, .error failure))
    (paths : List String) : runScripts verbose setup session status (path :: paths) =
      ⟨output, .error failure⟩ := by
  rw [runScripts]
  simp only [h]

end Scripts

/-- Whether there is nothing left to do. -/
def Stage.isEnded : Stage → Bool
  | .ended _ => true
  | _ => false

namespace Course

/-- The line that the next turn is given of those to come. -/
def line? (c : Course) (lines : List String) : Option String :=
  if c.stage.asks then lines.head? else none

/-- The lines to come after the next turn. -/
def rest (c : Course) (lines : List String) : List String :=
  if c.stage.asks then lines.tail else lines

/-- With these lines to come, the turns of a command lead to its end, and this is what they show and
how they end. -/
inductive Leads (disk : Disk) : Course → List String → Result → Prop
  | ended {c : Course} {lines : List String} {ending : Except Failure Nat} :
    c.stage = .ended ending → Leads disk c lines ⟨.empty, ending⟩
  | turn {c : Course} {lines : List String} {r : Result} : c.stage.isEnded = false →
    Leads disk (c.after (c.turn disk (c.line? lines))) (c.rest lines) r →
      Leads disk c lines (r.after (c.turn disk (c.line? lines)).output)

variable {disk : Disk} {c : Course} {lines : List String}

/-- There is one end that turns lead to. -/
theorem Leads.unique {r : Result} (h : Leads disk c lines r) :
    ∀ {r' : Result}, Leads disk c lines r' → r = r' := by
  induction h with
  | ended hstage =>
    intro r' h
    cases h with
    | ended hstage' => cases hstage.symm.trans hstage'; rfl
    | turn hgoes =>
      rw [hstage] at hgoes
      cases hgoes
  | turn hgoes _ ih =>
    intro r' h
    cases h with
    | ended hstage =>
      rw [hstage] at hgoes
      cases hgoes
    | turn _ hrest => rw [ih hrest]

theorem Leads.of_turn {t : Turn} {r : Result} (hgoes : c.stage.isEnded = false)
    (ht : c.turn disk (c.line? lines) = t) (h : Leads disk (c.after t) (c.rest lines) r) :
    Leads disk c lines (r.after t.output) := by
  subst ht
  exact .turn hgoes h

/-- A turn that a command ends with is the last one. -/
theorem Leads.of_last {output : Output} {notes : List Note} {ending : Except Failure Nat}
    (hgoes : c.stage.isEnded = false)
    (ht : c.turn disk (c.line? lines) = ⟨output, notes, .ended ending⟩) :
    Leads disk c lines ⟨output, ending⟩ := by
  have h := Leads.of_turn hgoes ht (.ended rfl)
  rwa [Result.after, append_empty] at h

/-! ### Scripts -/

section Loading

variable (c : Course) {showValue : Bool} {reply : Reply (Except Failure Value)} {output : Output}

theorem loading_of_ok {succeeded : Bool}
    (h : report c.verbose showValue reply = (output, .ok succeeded)) (next : Bool → Stage) :
    c.loading showValue reply next = ⟨output, reply.notes, next succeeded⟩ := by
  rw [loading, h]

theorem loading_of_error {failure : Failure}
    (h : report c.verbose showValue reply = (output, .error failure)) (next : Bool → Stage) :
    c.loading showValue reply next = ⟨output, reply.notes, .ended (.error failure)⟩ := by
  rw [loading, h]

end Loading

variable (disk) (verbose : Bool) (settings : Settings) (lines)

/-- The turns of scripts show them one after another. -/
theorem leads_scripts : ∀ (paths : List String) (session : Session) (status : ℕ),
    Leads disk ⟨verbose, settings, .scripts session status paths⟩ lines
      (runScripts verbose (setupOn settings disk) session status paths)
  | [], _, _ => .of_last rfl rfl
  | path :: paths, session, status => by
    let c : Course := ⟨verbose, settings, .scripts session status (path :: paths)⟩
    let reply := session.load (setupOn settings disk) path
    have hturn : c.turn disk (c.line? lines) = c.loading true reply fun succeeded =>
      .scripts reply.session (if succeeded then status else 1) paths := rfl
    cases hreport : report verbose true reply with
    | mk output outcome =>
      cases outcome with
      | error failure =>
        rw [runScripts_cons_of_error hreport]
        exact .of_last rfl (hturn.trans (c.loading_of_error hreport _))
      | ok succeeded =>
        rw [runScripts_cons_of_ok hreport]
        exact .of_turn rfl (hturn.trans (c.loading_of_ok hreport _))
          (leads_scripts paths _ _)

/-! ### Lines -/

/-- What a loop has shown and how it ends. -/
def loopResult (verbose : Bool) (events : List Repl.Event) (fault : Option HostFault) : Result :=
  ⟨.concat (events.map (.ofEvent verbose)),
    match fault with
    | none => .ok 0
    | some fault => .error (.host fault)⟩

theorem loopResult_append (verbose : Bool) (events more : List Repl.Event)
    (fault : Option HostFault) : loopResult verbose (events ++ more) fault =
      (loopResult verbose more fault).after (.concat (events.map (.ofEvent verbose))) := by
  unfold loopResult
  rw [List.map_append, concat_append]
  rfl

theorem loopResult_cons (verbose : Bool) (event : Repl.Event) (events : List Repl.Event)
    (fault : Option HostFault) : loopResult verbose (event :: events) fault =
      (loopResult verbose events fault).after (.ofEvent verbose event) := by
  unfold loopResult
  rw [List.map_cons, concat_cons]
  rfl

theorem answering_of_fault (c : Course) {context : Repl.Context} {state : Repl.State} {line : String}
    {fault : HostFault} (h : (Repl.enter context state line).fault = some fault) :
    let step := Repl.enter context state line
    c.answering context state (some line) =
      ⟨.concat (step.events.map (.ofEvent c.verbose)), Repl.notes step.events,
        .ended (.error (.host fault))⟩ := by
  rw [answering, h]

theorem answering_of_none (c : Course) {context : Repl.Context} {state : Repl.State} {line : String}
    (h : (Repl.enter context state line).fault = none) :
    let step := Repl.enter context state line
    c.answering context state (some line) =
      ⟨.concat (step.events.map (.ofEvent c.verbose)) ++ .prompt step.state.number,
        Repl.notes step.events, .asking context.historyFile step.state⟩ := by
  rw [answering, h]

/-- The turns of lines show what a loop shows behind its first prompt. -/
theorem leads_asking (historyFile : Path) : ∀ (lines : List String) (state : Repl.State),
    let loop := Repl.enterAll ⟨setupOn settings disk, historyFile, false⟩ .endOfInput state lines
    Leads disk ⟨verbose, settings, .asking historyFile state⟩ lines
      (loopResult verbose loop.events.tail loop.fault)
  | [], state => by
    have hfarewell : loopResult verbose [.line Repl.Ending.endOfInput.farewell] none =
        ⟨.line Repl.Ending.endOfInput.farewell, .ok 0⟩ := by
      rw [loopResult_cons]
      exact congrArg (Result.mk · _) (append_empty _)
    show Leads disk _ [] (loopResult verbose [.line Repl.Ending.endOfInput.farewell] none)
    rw [hfarewell]
    exact .of_last rfl rfl
  | line :: lines, state => by
    let c : Course := ⟨verbose, settings, .asking historyFile state⟩
    let context : Repl.Context := ⟨setupOn settings disk, historyFile, false⟩
    have hturn : c.turn disk (c.line? (line :: lines)) = c.answering context state (some line) := rfl
    show Leads disk c (line :: lines) (loopResult verbose
      (Repl.enterAll context .endOfInput state (line :: lines)).events.tail
      (Repl.enterAll context .endOfInput state (line :: lines)).fault)
    cases hfault : (Repl.enter context state line).fault with
    | some fault =>
      rw [Repl.enterAll_cons_of_fault hfault]
      exact .of_last rfl (hturn.trans (c.answering_of_fault hfault))
    | none =>
      let others := Repl.enterAll context .endOfInput (Repl.enter context state line).state lines
      have hsteps : Leads disk c (line :: lines) _ := .of_turn rfl
        (hturn.trans (c.answering_of_none hfault)) (leads_asking historyFile lines _)
      have hresult : loopResult verbose ((Repl.enter context state line).events ++ others.events)
          others.fault = (loopResult verbose others.events.tail others.fault).after
            (.concat ((Repl.enter context state line).events.map (.ofEvent verbose)) ++
              .prompt (Repl.enter context state line).state.number) := by
        rw [loopResult_append, Result.after_append, ← Output.ofEvent_prompt, ← loopResult_cons,
          ← Repl.events_enterAll_eq_cons]
      rw [Repl.enterAll_cons_of_none hfault]
      exact hresult ▸ hsteps

/-! ### The whole -/

theorem opening_of_error (c : Course) {fault : HostFault}
    (h : c.settings.historyFile = .error fault) (disk : Disk) (session : Session) :
    c.opening disk session = ⟨.empty, [], .ended (.error (.host fault))⟩ := by
  rw [opening, h]

theorem opening_of_hasNul (c : Course) {historyFile : Path}
    (h : c.settings.historyFile = .ok historyFile) (hnul : historyFile.hasNul = true) (disk : Disk)
    (session : Session) :
    c.opening disk session = ⟨.empty, [], .ended (.error (.host .nulInPath))⟩ := by
  rw [opening, h]
  exact if_pos hnul

theorem opening_of_noNul (c : Course) {historyFile : Path}
    (h : c.settings.historyFile = .ok historyFile) (hnul : historyFile.hasNul = false) (disk : Disk)
    (session : Session) :
    let opened := Repl.openHistory disk historyFile
    c.opening disk session =
      ⟨.concat (opened.2.map (.ofEvent c.verbose)) ++ .prompt 1, [],
        .asking historyFile ⟨session, opened.1, 1⟩⟩ := by
  rw [opening, h]
  exact if_neg (by rw [hnul]; exact Bool.false_ne_true)

/-- The turns of a loop show all of it. -/
theorem leads_opening (session : Session) : Leads disk ⟨verbose, settings, .opening session⟩ lines
    (runLoop verbose (setupOn settings disk) session settings disk lines) := by
  let c : Course := ⟨verbose, settings, .opening session⟩
  have hturn : c.turn disk (c.line? lines) = c.opening disk session := rfl
  cases hfile : settings.historyFile with
  | error fault =>
    have hloop : runLoop verbose (setupOn settings disk) session settings disk lines =
        ⟨.empty, .error (.host fault)⟩ := by rw [runLoop, hfile]
    rw [hloop]
    exact .of_last rfl (hturn.trans (c.opening_of_error hfile disk session))
  | ok historyFile =>
    let context : Repl.Context := ⟨setupOn settings disk, historyFile, false⟩
    have hloop : runLoop verbose (setupOn settings disk) session settings disk lines =
        loopResult verbose (Repl.run context session disk lines .endOfInput).events
          (Repl.run context session disk lines .endOfInput).fault := by
      rw [runLoop, hfile]
      rfl
    rw [hloop]
    cases hnul : historyFile.hasNul with
    | true =>
      have hrun : Repl.run context session disk lines .endOfInput =
          ⟨[], session, disk, some .nulInPath⟩ := by rw [Repl.run, if_pos hnul]
      rw [hrun]
      exact .of_last rfl (hturn.trans (c.opening_of_hasNul hfile hnul disk session))
    | false =>
      let opened := Repl.openHistory disk historyFile
      have hsteps : Leads disk c lines _ := .of_turn rfl
        (hturn.trans (c.opening_of_noNul hfile hnul disk session))
        (leads_asking disk verbose settings historyFile lines ⟨session, opened.1, 1⟩)
      rw [Repl.run_of_not_records rfl hnul, loopResult_append, Repl.events_enterAll_eq_cons,
        loopResult_cons, Output.ofEvent_prompt, ← Result.after_append]
      exact hsteps

/-- The turns of the scripts of a command line, or of the loop if there are none. -/
theorem leads_main (session : Session) (scripts : List String) :
    Leads disk ⟨verbose, settings, .main session scripts⟩ lines
      (runMain verbose (setupOn settings disk) session settings disk scripts lines) := by
  unfold Stage.main runMain
  split
  · exact leads_opening disk lines verbose settings session
  · exact leads_scripts disk lines verbose settings scripts session 0

/-- The turns of the script of the settings, and then of all else. -/
theorem leads_first (scripts : List String) :
    Leads disk ⟨verbose, settings, .first settings scripts⟩ lines
      (runFrom verbose (setupOn settings disk) settings disk scripts lines) := by
  unfold Stage.first runFrom
  cases settings.prelude? with
  | none => exact leads_main disk lines verbose settings .fresh scripts
  | some script =>
    let c : Course := ⟨verbose, settings, .prelude script scripts⟩
    let reply := Session.fresh.load (setupOn settings disk) script.text
    have hturn : c.turn disk (c.line? lines) = c.loading false reply fun succeeded =>
      if succeeded then .main reply.session scripts else .ended (.ok 1) := rfl
    simp only
    cases hreport : report verbose false reply with
    | mk output outcome =>
      rcases outcome with failure | _ | _
      · exact .of_last rfl (hturn.trans (c.loading_of_error hreport _))
      · exact .of_last rfl (hturn.trans (c.loading_of_ok hreport _))
      · exact .of_turn rfl (hturn.trans (c.loading_of_ok hreport _))
          (leads_main disk lines verbose settings reply.session scripts)

end Course

/-- **The turns of a command come to what the command is said to do.** From its start they lead to one
end and to no other, and what is shown at the start and in the turns is all that the command
shows. -/
theorem run_in_turns (settings : Settings) (disk : Disk) (arguments lines : List String) :
    let started := start settings arguments
    ∃ r, started.2.Leads disk lines r ∧ (∀ r', started.2.Leads disk lines r' → r' = r) ∧
      run settings disk arguments lines = r.after started.1 := by
  intro started
  have hleads : ∃ r, started.2.Leads disk lines r ∧
      run settings disk arguments lines = r.after started.1 := by
    show ∃ r, (start settings arguments).2.Leads disk lines r ∧
      _ = r.after (start settings arguments).1
    unfold start run
    rcases Options.read arguments with e | _ | ⟨verbose, scripts⟩
    · exact ⟨_, .ended rfl, congrArg (Result.mk · _) (append_empty _).symm⟩
    · exact ⟨_, .ended rfl, congrArg (Result.mk · _) (append_empty _).symm⟩
    · exact ⟨_, Course.leads_first disk lines verbose settings scripts,
        congrArg (Result.mk · _) (empty_append _).symm⟩
  obtain ⟨r, hr, hrun⟩ := hleads
  exact ⟨r, hr, fun r' hr' => hr'.unique hr, hrun⟩

end CommandLine
end SmallLisp
