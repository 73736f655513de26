/-
# What a loop adds to its history

A loop takes in lines until the input ends or until it dies of a line, and records those that are
not empty (`Repl.Takes`, `Repl.recorded`). However it ends, the file of its history has afterwards
what it had before and behind it the lines recorded, each with a line feed; what was loaded at the
start is counted off and not written again. Where nothing is recorded nothing is touched. Where the
file cannot be written there is a warning, and nothing is touched either, unless the file was
missing and could be made: then it is left empty. None of this can be told from what the loop shows
or from how it ends: neither depends on the disk, up to the greeting that says whether there is a
history to begin with (`Repl.history_grows_by_lines`).

Key definitions: `Repl.faultAt`, `Repl.Takes`, `Repl.recorded`, `Repl.warnings`.
Key theorems: `Repl.Takes.unique`, `Repl.enterAll_of_takes`, `Repl.events_enterAll`,
`Repl.history_grows_by_lines`.
-/
import SmallLisp.Proofs.Appending
import SmallLisp.Proofs.ScriptRuns
import SmallLisp.Proofs.Transcripts

namespace SmallLisp
namespace Repl

open Output (unlines)

/-- The fault of the surroundings that a loop dies of at a line, if it does. A line of blanks is
not evaluated. -/
def faultAt (setup : Setup) (s : Session) (line : String) : Option HostFault :=
  if Text.allBlank line.toList then none
  else
    match (s.eval setup line).outcome with
    | .error (.host fault) => some fault
    | _ => none

/-- The lines that a loop takes in, the fault that ends it and the session that is left: it takes all
lines, or those up to the first that it dies of. -/
inductive Takes (setup : Setup) :
    Session → List String → List String → Option HostFault → Session → Prop
  | done {s : Session} : Takes setup s [] [] none s
  | dies {s : Session} {line : String} {lines : List String} {fault : HostFault} :
    faultAt setup s line = some fault →
      Takes setup s (line :: lines) [line] (some fault) (s.afterLines setup [line])
  | goesOn {s : Session} {line : String} {lines taken : List String} {fault : Option HostFault}
    {after : Session} : faultAt setup s line = none →
      Takes setup (s.afterLines setup [line]) lines taken fault after →
        Takes setup s (line :: lines) (line :: taken) fault after

section Takes

variable {setup : Setup}

theorem exists_takes (setup : Setup) : ∀ (lines : List String) (s : Session),
    ∃ taken fault after, Takes setup s lines taken fault after
  | [], s => ⟨[], none, s, .done⟩
  | line :: lines, s => by
    cases hends : faultAt setup s line with
    | some fault => exact ⟨_, _, _, .dies hends⟩
    | none =>
      obtain ⟨taken, fault, after, h⟩ := exists_takes setup lines (s.afterLines setup [line])
      exact ⟨_, _, _, .goesOn hends h⟩

/-- There is one way for a loop to take lines in. -/
theorem Takes.unique {s : Session} {lines taken : List String} {fault : Option HostFault}
    {after : Session} (h : Takes setup s lines taken fault after) :
    ∀ {taken' : List String} {fault' : Option HostFault} {after' : Session},
      Takes setup s lines taken' fault' after' → taken = taken' ∧ fault = fault' ∧ after = after' := by
  induction h with
  | done =>
    intro _ _ _ h
    cases h
    exact ⟨rfl, rfl, rfl⟩
  | dies hfault =>
    intro _ _ _ h
    cases h with
    | dies hfault' => exact ⟨rfl, hfault.symm.trans hfault', rfl⟩
    | goesOn hnone => cases hfault.symm.trans hnone
  | goesOn hnone _ ih =>
    intro _ _ _ h
    cases h with
    | dies hfault => cases hfault.symm.trans hnone
    | goesOn _ hrest =>
      obtain ⟨rfl, rfl, rfl⟩ := ih hrest
      exact ⟨rfl, rfl, rfl⟩

end Takes

/-! ### What is recorded -/

/-- The lines among some that a loop records: the ones that are not empty. -/
def recorded (context : Context) (lines : List String) : List String :=
  if context.records then lines.filter (!·.isEmpty) else []

theorem recorded_cons (context : Context) (line : String) (lines : List String) :
    recorded context (line :: lines) = recorded context [line] ++ recorded context lines := by
  unfold recorded
  by_cases h : context.records = true
  · rw [if_pos h, if_pos h, if_pos h, ← List.filter_append, List.singleton_append]
  · rw [if_neg h, if_neg h, if_neg h, List.nil_append]

theorem entries_record (context : Context) (h : History) (line : String) :
    (record context h line).entries = h.entries ++ recorded context [line] := by
  unfold record recorded
  cases context.records with
  | false => simp
  | true => by_cases hempty : line.isEmpty <;> simp [hempty, History.add]

section Loop

variable {context : Context} {ending : Ending}

/-- A loop dies of a line that is answered by a fault, and of no other. -/
theorem faultAt_of_not_blank {setup : Setup} {s : Session} {line : String}
    (h : Text.allBlank line.toList = false) :
    faultAt setup s line = match (s.answer setup line).outcome with
      | .error fault => some fault
      | .ok _ => none := by
  have hanswer : (s.answer setup line).outcome =
      Session.outcomeLine (s.eval setup line).outcome := rfl
  rw [faultAt, if_neg (by simp [h]), hanswer]
  cases (s.eval setup line).outcome with
  | ok v => rfl
  | error failure => cases failure <;> rfl

/-- **One line typed in** ends the loop by the fault of its evaluation and by no other. It is recorded
in either case, and what is shown for it does not depend on what was recorded before. -/
theorem enter_eq (context : Context) (s : Session) (h : History) (number : ℕ) (line : String) :
    enter context ⟨s, h, number⟩ line =
      ⟨(enter context ⟨s, .empty, number⟩ line).events,
        ⟨s.afterLines context.setup [line], record context h line,
          if (faultAt context.setup s line).isSome then number else number + 1⟩,
        faultAt context.setup s line⟩ := by
  unfold enter
  cases hblank : Text.allBlank line.toList with
  | true =>
    have hfault : faultAt context.setup s line = none := by rw [faultAt, if_pos hblank]
    rw [hfault, Session.afterLines_of_blank _ _ hblank]
    rfl
  | false =>
    rw [faultAt_of_not_blank hblank, Session.afterLines_of_not_blank _ _ hblank]
    simp only [Bool.false_eq_true, if_false]
    cases (s.answer context.setup line).outcome <;> rfl

theorem enterAll_of_fault {s : Session} {line : String} {fault : HostFault}
    (hfault : faultAt context.setup s line = some fault) (h : History) (number : ℕ)
    (lines : List String) : enterAll context ending ⟨s, h, number⟩ (line :: lines) =
      ⟨.prompt number :: (enter context ⟨s, .empty, number⟩ line).events,
        ⟨s.afterLines context.setup [line], record context h line, number⟩, some fault⟩ := by
  rw [enterAll, enter_eq, hfault]
  rfl

theorem enterAll_of_none {s : Session} {line : String}
    (hnone : faultAt context.setup s line = none) (h : History) (number : ℕ)
    (lines : List String) :
    let others := enterAll context ending
      ⟨s.afterLines context.setup [line], record context h line, number + 1⟩ lines
    enterAll context ending ⟨s, h, number⟩ (line :: lines) =
      ⟨.prompt number :: (enter context ⟨s, .empty, number⟩ line).events ++ others.events,
        others.state, others.fault⟩ := by
  rw [enterAll, enter_eq, hnone]
  rfl

/-- A loop takes lines in as it should, and records those that it takes. -/
theorem enterAll_of_takes (ending : Ending) {s after : Session} {lines taken : List String}
    {fault : Option HostFault} (h : Takes context.setup s lines taken fault after) :
    ∀ (history : History) (number : ℕ),
      let loop := enterAll context ending ⟨s, history, number⟩ lines
      loop.fault = fault ∧ loop.state.session = after ∧
      loop.state.history.entries = history.entries ++ recorded context taken := by
  induction h with
  | done =>
    intro history _
    exact ⟨rfl, rfl, by simp [recorded, enterAll]⟩
  | dies hfault =>
    intro history number
    rw [enterAll_of_fault hfault]
    exact ⟨rfl, rfl, entries_record context history _⟩
  | @goesOn s line lines taken fault after hnone _ ih =>
    intro history number
    obtain ⟨ihfault, ihsession, ihhistory⟩ := ih (record context history line) (number + 1)
    rw [enterAll_of_none hnone]
    refine ⟨ihfault, ihsession, ihhistory.trans ?_⟩
    rw [entries_record, List.append_assoc, ← recorded_cons]

/-- What a loop shows does not depend on its history. -/
theorem events_enterAll (ending : Ending) : ∀ (lines : List String) (s : Session) (h h' : History)
    (number : ℕ), (enterAll context ending ⟨s, h, number⟩ lines).events =
      (enterAll context ending ⟨s, h', number⟩ lines).events
  | [], _, _, _, _ => rfl
  | line :: lines, s, h, h', number => by
    cases hends : faultAt context.setup s line with
    | some fault => rw [enterAll_of_fault hends, enterAll_of_fault hends]
    | none =>
      have hothers := events_enterAll ending lines (s.afterLines context.setup [line])
        (record context h line) (record context h' line) (number + 1)
      rw [enterAll_of_none hends, enterAll_of_none hends]
      simp only [hothers]

end Loop

/-! ### Warnings -/

/-- The text of an event that is a warning. -/
def Event.warning? : Event → Option String
  | .warning text => some text
  | _ => none

/-- The warnings among events. -/
def warnings (events : List Event) : List String := events.filterMap Event.warning?

theorem warnings_append (events more : List Event) :
    warnings (events ++ more) = warnings events ++ warnings more := List.filterMap_append

theorem warnings_enter (context : Context) (st : State) (line : String) :
    warnings (enter context st line).events = [] := by
  have hreply : ∀ {α : Type} (reply : Reply α), warnings (replyEvents reply) = [] := fun reply => by
    simp [warnings, replyEvents, Event.warning?]
  unfold enter
  split
  · rfl
  · simp only
    split
    · rw [warnings_append, hreply]
      rfl
    · exact hreply _

theorem warnings_enterAll {context : Context} {ending : Ending} : ∀ (lines : List String)
    (st : State), warnings (enterAll context ending st lines).events = []
  | [], _ => rfl
  | line :: lines, st => by
    have hprompt : warnings [.prompt st.number] = [] := rfl
    rw [enterAll]
    cases hfault : (enter context st line).fault with
    | some fault =>
      rw [← List.singleton_append, warnings_append, hprompt, warnings_enter]
      rfl
    | none =>
      simp only
      rw [← List.singleton_append, warnings_append, warnings_append, hprompt, warnings_enter,
        warnings_enterAll lines]
      rfl

theorem warnings_openHistory (disk : Disk) (p : Path) : warnings (openHistory disk p).2 = [] := by
  unfold openHistory
  split <;> rfl

/-! ### The file -/

section Save

variable {disk : Disk} {p : Path} {start : ℕ} {h : History}

theorem saveHistory_of_added_nil (hadded : h.added start = []) :
    saveHistory disk p start h = (disk, []) := by
  rw [saveHistory, History.save, hadded]

/-- What is recorded is written as one text. -/
theorem saveHistory_of_added_ne_nil (hadded : h.added start ≠ []) :
    saveHistory disk p start h =
      let written := disk.append p (unlines (h.added start))
      (written.1, written.2.elim []
        fun e => [.warning ("could not write history to " ++ p.text ++ ": " ++ e.message)]) := by
  have hsave : h.save start disk p = disk.append p (unlines (h.added start)) := by
    rw [History.save]
    split
    · rename_i hnil
      exact absurd hnil hadded
    · rename_i hcons
      rw [hcons]
      rfl
  rw [saveHistory, hsave]
  rcases disk.append p (unlines (h.added start)) with ⟨after, _ | e⟩ <;> rfl

end Save

/-! ### The loop as a whole -/

section Run

variable {context : Context} {s after : Session} {lines taken : List String}
variable {fault : Option HostFault}
variable (hnul : context.historyFile.hasNul = false)
variable (htakes : Takes context.setup s lines taken fault after) (ending : Ending) (disk : Disk)
include hnul htakes

/-- A loop ends as its lines do, and behind the greeting it shows what it would show without a
history. -/
theorem run_of_takes :
    let outcome := run context s disk lines ending
    outcome.fault = fault ∧ outcome.session = after ∧
    outcome.events.filterMap Event.seen? = (greeting disk context.historyFile).map .wrote ++
      (enterAll context ending ⟨s, .empty, 1⟩ lines).events.filterMap Event.seen? := by
  intro outcome
  set opened := openHistory disk context.historyFile
  obtain ⟨hfault, hafter, -⟩ := enterAll_of_takes ending htakes opened.1 1
  rw [show outcome = _ from run_of_noNul hnul s disk lines]
  refine ⟨hfault, hafter, ?_⟩
  simp only
  rw [List.filterMap_append, List.filterMap_append, seen_openHistory, seen_saveHistory,
    List.append_nil, events_enterAll ending lines s opened.1 .empty 1]

/-- What a loop saves is what it has recorded, and its warnings are those of saving it. -/
theorem exists_saved_of_takes : ∃ (start : ℕ) (h : History),
    h.added start = recorded context taken ∧
    (run context s disk lines ending).disk = (saveHistory disk context.historyFile start h).1 ∧
    warnings (run context s disk lines ending).events =
      warnings (saveHistory disk context.historyFile start h).2 := by
  set opened := openHistory disk context.historyFile
  obtain ⟨-, -, hentries⟩ := enterAll_of_takes ending htakes opened.1 1
  refine ⟨opened.1.length, (enterAll context ending ⟨s, opened.1, 1⟩ lines).state.history, ?_, ?_⟩
  · rw [History.added, hentries, History.length, List.drop_left]
  · rw [run_of_noNul hnul]
    refine ⟨rfl, ?_⟩
    rw [warnings_append, warnings_append, warnings_openHistory, warnings_enterAll]
    rfl

theorem run_of_recorded_nil (hnil : recorded context taken = []) :
    (run context s disk lines ending).disk = disk ∧
      warnings (run context s disk lines ending).events = [] := by
  obtain ⟨start, h, hadded, hdisk, hwarnings⟩ := exists_saved_of_takes hnul htakes ending disk
  rw [hdisk, hwarnings, saveHistory_of_added_nil (hadded.trans hnil)]
  exact ⟨rfl, rfl⟩

/-- Where a loop has recorded lines, all is told by what writing them as one text comes to. -/
theorem run_of_recorded_ne_nil (hne : recorded context taken ≠ []) {left : Disk}
    {e? : Option Disk.WriteError}
    (happend : disk.append context.historyFile (unlines (recorded context taken)) = (left, e?)) :
    (run context s disk lines ending).disk = left ∧
      warnings (run context s disk lines ending).events = e?.elim []
        fun e => ["could not write history to " ++ context.historyFile.text ++ ": " ++ e.message] := by
  obtain ⟨start, h, hadded, hdisk, hwarnings⟩ := exists_saved_of_takes hnul htakes ending disk
  rw [hdisk, hwarnings, saveHistory_of_added_ne_nil (hadded ▸ hne), hadded, happend]
  exact ⟨rfl, by cases e? <;> rfl⟩

end Run

/-- **A history is extended by exactly the lines of the session.** Which lines a loop takes in, how
it ends, what session it leaves and what it shows behind the greeting is the same on every disk.
Where none of these lines is recorded the disk is not touched. Where the file of the history can be
written it holds afterwards what it held before and the recorded lines in order, each with a line
feed, and nothing else on the disk is put anywhere. Where it cannot there is one warning, and the
disk is as it was, but that a file which was missing and could only be made is left empty. A path
with U+0000 is no path of a file; a loop with such a history does not begin. -/
theorem history_grows_by_lines (context : Context) (s : Session) (lines : List String)
    (ending : Ending) :
    let p := context.historyFile
    (p.hasNul = true → ∀ disk : Disk,
      run context s disk lines ending = ⟨[], s, disk, some .nulInPath⟩) ∧
    (p.hasNul = false → ∃ taken fault after seen, Takes context.setup s lines taken fault after ∧
      ∀ disk : Disk,
        let added := recorded context taken
        let outcome := run context s disk lines ending
        (outcome.fault = fault ∧ outcome.session = after ∧
          outcome.events.filterMap Event.seen? = (greeting disk p).map .wrote ++ seen) ∧
        (added = [] → outcome.disk = disk ∧ warnings outcome.events = []) ∧
        (added ≠ [] → disk.Writable p →
          warnings outcome.events = [] ∧
          (∃ location, disk.locate p = .ok location ∧ outcome.disk =
            disk.putFile location (disk.bytesAt p ++ (unlines added).toUTF8.toList)) ∧
          outcome.disk.find p = .ok (.file (disk.bytesAt p ++ (unlines added).toUTF8.toList)) ∧
          ∀ before : String, disk.bytesAt p = before.toUTF8.toList →
            outcome.disk.find p = .ok (.file (before ++ unlines added).toUTF8.toList)) ∧
        (added ≠ [] → ¬ disk.Writable p →
          (∃ e : Disk.WriteError, warnings outcome.events =
            ["could not write history to " ++ p.text ++ ": " ++ e.message]) ∧
          (∀ location, disk.locate p = .ok location → disk.OnlyMakes location →
            outcome.disk = disk.putFile location []) ∧
          ((∀ location, disk.locate p = .ok location → ¬ disk.OnlyMakes location) →
            outcome.disk = disk))) := by
  intro p
  refine ⟨fun hnul disk => by rw [run, if_pos hnul], fun hnul => ?_⟩
  obtain ⟨taken, fault, after, htakes⟩ := exists_takes context.setup lines s
  refine ⟨taken, fault, after,
    (enterAll context ending ⟨s, .empty, 1⟩ lines).events.filterMap Event.seen?, htakes, ?_⟩
  intro disk added outcome
  have hsaved : added ≠ [] → ∀ {left : Disk} {e? : Option Disk.WriteError},
      disk.append p (unlines added) = (left, e?) → outcome.disk = left ∧
        warnings outcome.events = e?.elim []
          fun e => ["could not write history to " ++ p.text ++ ": " ++ e.message] :=
    run_of_recorded_ne_nil hnul htakes ending disk
  refine ⟨run_of_takes hnul htakes ending disk, run_of_recorded_nil hnul htakes ending disk,
    fun hne hwritable => ?_, fun hne hwritable => ⟨?_, ?_, ?_⟩⟩
  · obtain ⟨location, hlocate, hat⟩ := hwritable
    obtain ⟨hput, hnone⟩ := hsaved hne (Disk.append_of_writableAt hnul hlocate hat _)
    have hfind : outcome.disk.find p =
        .ok (.file (disk.bytesAt p ++ (unlines added).toUTF8.toList)) := by
      rw [hput]
      exact Disk.find_putFile hlocate hat.noDirectory
    refine ⟨hnone, ⟨location, hlocate, hput⟩, hfind, fun before hbefore => ?_⟩
    rw [hfind, hbefore, Text.bytes_append]
  · obtain ⟨left, e, happend⟩ := Disk.exists_of_not_writable hnul hwritable (unlines added)
    exact ⟨e, (hsaved hne happend).2⟩
  · intro location hlocate hat
    obtain ⟨e, happend⟩ := Disk.append_of_onlyMakes hnul hlocate hat (unlines added)
    exact (hsaved hne happend).1
  · intro hmakes
    obtain ⟨e, happend⟩ := Disk.append_of_not_writable hnul hwritable hmakes (unlines added)
    exact (hsaved hne happend).1

/-- A loop that dies of its third line with a line to come, once with a file to add to, once with a
directory in its place, and once with no file and a disk on which files can only be made. -/
theorem history_grows_by_lines_dying :
    let context : Context := ⟨⟨fun _ => .error (.host .nulInPath), 9, 9⟩, .ofString "h", true⟩
    let lines := ["x", "", "(load \"y\")", "z"]
    let disk := Disk.ofEntries ["d"] [(["d", "h"], .file "old".toUTF8.toList)]
    let blocked := Disk.ofEntries ["d"] [(["d", "h"], .directory)]
    let full : Disk := ⟨["d"], [], { Disk.Refusals.nothing with write := fun _ => some .noSpace }⟩
    let outcome := fun disk => run context .fresh disk lines .endOfInput
    context.historyFile.hasNul = false ∧
    (outcome disk).fault = some .nulInPath ∧ (outcome blocked).fault = some .nulInPath ∧
    (outcome full).fault = some .nulInPath ∧
    (outcome disk).disk.find context.historyFile =
      .ok (.file "oldx\n(load \"y\")\n".toUTF8.toList) ∧
    ((outcome blocked).disk = blocked ∧ (warnings (outcome blocked).events).length = 1) ∧
    (outcome full).disk = full.putFile ["d", "h"] [] ∧
    (warnings (outcome full).events).length = 1 := by
  intro context lines disk blocked full outcome
  have hnul : context.historyFile.hasNul = false := by decide
  obtain ⟨taken, fault, after, seen, htakes, hdisks⟩ :=
    (history_grows_by_lines context .fresh lines .endOfInput).2 hnul
  have hx : faultAt context.setup .fresh "x" = none := by decide +kernel
  have hblank : faultAt context.setup (Session.fresh.afterLines context.setup ["x"]) "" = none := rfl
  have hload : faultAt context.setup ((Session.fresh.afterLines context.setup ["x"]).afterLines
      context.setup [""]) "(load \"y\")" = some .nulInPath := by decide +kernel
  obtain ⟨rfl, rfl, rfl⟩ := htakes.unique (.goesOn hx (.goesOn hblank (.dies hload)))
  have hadded : recorded context ["x", "", "(load \"y\")"] = ["x", "(load \"y\")"] := by
    decide +kernel
  have hne : recorded context ["x", "", "(load \"y\")"] ≠ [] := by
    rw [hadded]
    exact List.cons_ne_nil _ _
  have hlocate : disk.locate context.historyFile = .ok ["d", "h"] := by decide +kernel
  have hblocked : blocked.locate context.historyFile = .ok ["d", "h"] := by decide +kernel
  have hfull : full.locate context.historyFile = .ok ["d", "h"] := by decide +kernel
  have hfile : disk.entryAt? ["d", "h"] = some (.file "old".toUTF8.toList) := rfl
  have hdirectory : blocked.entryAt? ["d", "h"] = some .directory := rfl
  have habsent : full.entryAt? ["d", "h"] = none := rfl
  have hwritable : disk.Writable context.historyFile :=
    ⟨_, hlocate, by rw [hfile]; nofun, by rw [hfile]; nofun, rfl⟩
  have hunwritable : ¬ blocked.Writable context.historyFile := by
    rintro ⟨location, hleads, hat⟩
    cases hblocked.symm.trans hleads
    exact hat.noDirectory hdirectory
  have hunmade : ∀ location, blocked.locate context.historyFile = .ok location →
      ¬ blocked.OnlyMakes location := by
    intro location hleads hat
    cases hblocked.symm.trans hleads
    cases hdirectory.symm.trans hat.absent
  have hrefused : ¬ full.Writable context.historyFile := by
    rintro ⟨location, -, hat⟩
    cases hat.grows
  have hmade : full.OnlyMakes ["d", "h"] := ⟨habsent, rfl, nofun⟩
  have hheld : disk.bytesAt context.historyFile = "old".toUTF8.toList := by
    rw [Disk.bytesAt, Disk.find_of_locate hlocate, hfile]
    rfl
  obtain ⟨⟨hfault, -, -⟩, -, hwrites, -⟩ := hdisks disk
  obtain ⟨⟨hlost, -, -⟩, -, -, hwarns⟩ := hdisks blocked
  obtain ⟨⟨hspent, -, -⟩, -, -, hleaves⟩ := hdisks full
  obtain ⟨-, -, -, htext⟩ := hwrites hne hwritable
  obtain ⟨⟨e, hwarning⟩, -, hkept⟩ := hwarns hne hunwritable
  obtain ⟨⟨e', hwarning'⟩, hempty, -⟩ := hleaves hne hrefused
  refine ⟨hnul, hfault, hlost, hspent, ?_, ⟨hkept hunmade, by rw [hwarning]; rfl⟩,
    hempty _ hfull hmade, by rw [hwarning']; rfl⟩
  rw [htext "old" hheld, hadded]
  rfl

/-- Not every loop that could not write its history has left the disk alone: a missing file is made
before it is added to, and a disk without space may allow the one and not the other. And not every
loop takes its lines in: none does whose history has a path with U+0000. -/
theorem not_left_alone_by_every_loop :
    (¬ ∀ (context : Context) (s : Session) (disk : Disk) (lines : List String) (ending : Ending),
      warnings (run context s disk lines ending).events ≠ [] →
        (run context s disk lines ending).disk = disk) ∧
    ¬ ∀ (context : Context) (s : Session) (disk : Disk) (lines : List String) (ending : Ending),
      ∃ taken fault after, Takes context.setup s lines taken fault after ∧
        (run context s disk lines ending).fault = fault := by
  refine ⟨fun h => ?_, fun h => ?_⟩
  · let full : Disk := ⟨[], [], { Disk.Refusals.nothing with write := fun _ => some .noSpace }⟩
    let context : Context := ⟨⟨.ofList [], 9, 9⟩, .ofString "h", true⟩
    have hsame := congrArg (Disk.find · context.historyFile)
      (h context .fresh full [" "] .endOfInput nofun)
    have hbefore : full.find context.historyFile = .error .noEntry := rfl
    have hafter : (run context .fresh full [" "] .endOfInput).disk.find context.historyFile =
        .ok (.file []) := rfl
    rw [hbefore, hafter] at hsame
    cases hsame
  · obtain ⟨taken, fault, after, htakes, hfault⟩ :=
      h ⟨⟨.ofList [], 9, 9⟩, .ofString "\x00", true⟩ .fresh (.ofEntries [] []) [] .endOfInput
    obtain ⟨-, rfl, -⟩ := htakes.unique .done
    cases hfault

end Repl
end SmallLisp
