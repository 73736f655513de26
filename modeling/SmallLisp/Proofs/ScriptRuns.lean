/-
# What the command shows of its scripts

To run scripts is to load them one after another in one session, each in what the ones before have
left, failed or not (`Session.loads`). All that the command writes and its exit status are told from
the replies: for each script the lines that it writes and one more for its value, or one line on the
standard error if it fails, and the status 1 if any of them does. The script of the settings comes
before all others, and if it fails nothing else is loaded. So what is written for some scripts is
the beginning of what is written for more (`CommandLine.scripts_run_as_a_fold`). All this is meant
of loads that fail by errors of the language only; another failure ends the command where it stands.

Key definitions: `Session.loads`, `Reply.settled`, `CommandLine.opening`, `CommandLine.ScriptRow`.
Key theorems: `Options.read_of_scripts`, `CommandLine.report_settled`, `CommandLine.runScripts_eq`,
`CommandLine.scripts_run_as_a_fold`.
-/
import SmallLisp.CommandLine
import Mathlib.Data.List.Basic

namespace SmallLisp

/-! ### Arguments that are scripts -/

namespace Options

/-- An argument that names a script and is no option. -/
def NamesScript (argument : String) : Prop := classify argument = .ok (.script argument)

/-- An argument that does not begin with a dash names a script. -/
theorem namesScript_of_head {argument : String} (h : argument.toList.head? ≠ some '-') :
    NamesScript argument := by
  unfold NamesScript classify
  split
  · rename_i heq
    rw [heq] at h
    exact (h rfl).elim
  · rename_i heq
    rw [heq] at h
    exact (h rfl).elim
  · rename_i heq
    rw [heq] at h
    exact (h rfl).elim
  · rfl

theorem classifyAll_of_scripts : ∀ {arguments : List String}, (∀ a ∈ arguments, NamesScript a) →
    classifyAll arguments = .ok (arguments.map .script)
  | [], _ => rfl
  | a :: arguments, h => by
    obtain ⟨ha, hrest⟩ := List.forall_mem_cons.mp h
    have hfirst : classify a = .ok (.script a) := ha
    rw [classifyAll, hfirst]
    show ((classifyAll arguments).bind fun rest => .ok (.script a :: rest)) = _
    rw [classifyAll_of_scripts hrest]
    rfl

/-- Scripts are taken as long as no option has ended their row. -/
theorem takeAll_of_scripts : ∀ (arguments : List String) (taken : Taken), taken.row ≠ .ended →
    taken.extras = [] →
      takeAll taken (arguments.map .script) = .ok (.run taken.verbose (taken.scripts ++ arguments))
  | [], taken, _, hextras => by simp [takeAll, hextras]
  | a :: arguments, taken, hrow, hextras => by
    have hplace : taken.place a [a] =
        { taken with row := .begun, scripts := taken.scripts ++ [a] } := by
      unfold Taken.place
      cases hr : taken.row with
      | ended => exact (hrow hr).elim
      | _ => rfl
    have hrest := takeAll_of_scripts arguments (taken.place a [a]) (by rw [hplace]; nofun)
      (by rw [hplace]; exact hextras)
    rw [List.map_cons, takeAll, hrest, hplace, List.append_assoc]
    rfl

variable {arguments : List String} (h : ∀ a ∈ arguments, NamesScript a)
include h

/-- A command line of scripts asks for them to be run. -/
theorem read_of_scripts : read arguments = .ok (.run false arguments) := by
  unfold read
  rw [classifyAll_of_scripts h]
  exact takeAll_of_scripts arguments .start nofun rfl

/-- Scripts behind `-v` are run and noted. -/
theorem read_verbose_of_scripts : read ("-v" :: arguments) = .ok (.run true arguments) := by
  have hflag : classify "-v" = .ok (.short .verbose []) := rfl
  unfold read
  rw [classifyAll, hflag]
  show ((classifyAll arguments).bind fun rest => .ok (.short .verbose [] :: rest)).bind _ = _
  rw [classifyAll_of_scripts h]
  exact takeAll_of_scripts arguments ⟨true, .ahead, [], []⟩ nofun rfl

end Options

/-! ### Loads one after another -/

namespace Session

variable (setup : Setup)

/-- The session after scripts are loaded one after another, failed or not. -/
def afterLoads (s : Session) (paths : List String) : Session :=
  paths.foldl (fun s path => (s.load setup path).session) s

/-- What a session answers when scripts are loaded one after another, each in the session that the
ones before have left. -/
def loads : Session → List String → List (Reply (Except Failure Value))
  | _, [] => []
  | s, path :: paths => s.load setup path :: loads (s.load setup path).session paths

theorem loads_append (more : List String) : ∀ (paths : List String) (s : Session),
    s.loads setup (paths ++ more) =
      s.loads setup paths ++ (s.afterLoads setup paths).loads setup more
  | [], _ => rfl
  | path :: paths, s => by
    rw [List.cons_append, loads, loads, loads_append more paths]
    rfl

end Session

namespace Reply

variable (reply : Reply (Except Failure Value))

/-- Whether a load has a value. -/
def succeeded : Bool := reply.outcome.isOk

/-- Whether a load has a value or fails by an error of the language. -/
def settled : Bool :=
  match reply.outcome with
  | .ok _ => true
  | .error (.error _) => true
  | .error _ => false

/-- The lines for the standard output: those that are written, and one more for a value. -/
def shownLines : List String :=
  reply.lines ++
    match reply.outcome with
    | .ok v => [successMark ++ v.render]
    | .error _ => []

/-- The line for the standard error, if it takes one. -/
def errorLines : List String :=
  match reply.outcome with
  | .ok _ => []
  | .error failure => [errorMark ++ failure.message]

variable {reply}

theorem exists_of_succeeded (h : reply.succeeded = true) : ∃ v, reply.outcome = .ok v := by
  unfold succeeded at h
  cases hout : reply.outcome with
  | ok v => exact ⟨v, rfl⟩
  | error failure =>
    rw [hout] at h
    cases h

theorem cases_of_settled (h : reply.settled = true) :
    (∃ v, reply.outcome = .ok v) ∨ ∃ e, reply.outcome = .error (.error e) := by
  unfold settled at h
  split at h
  · rename_i v hout
    exact Or.inl ⟨v, hout⟩
  · rename_i e hout
    exact Or.inr ⟨e, hout⟩
  · cases h

end Reply

namespace Output

theorem append_def (a b : Output) : a ++ b = ⟨a.out ++ b.out, a.err ++ b.err⟩ := rfl

theorem empty_append (o : Output) : empty ++ o = o := by
  simp [append_def, empty]

theorem append_empty (o : Output) : o ++ empty = o := by
  simp [append_def, empty]

theorem concat_append (a b : List Output) : concat (a ++ b) = concat a ++ concat b := by
  simp [append_def, concat]

/-- Lines as a text, each with its line end. -/
def unlines (lines : List String) : String := String.join (lines.map (· ++ "\n"))

theorem unlines_append (a b : List String) : unlines (a ++ b) = unlines a ++ unlines b := by
  simp [unlines]

theorem unlines_singleton (line : String) : unlines [line] = line ++ "\n" := by
  simp [unlines]

theorem concat_lines (lines : List String) : concat (lines.map line) = ⟨unlines lines, ""⟩ := by
  have hempty : ∀ n, String.join (List.replicate n "") = "" := by
    intro n
    induction n with
    | zero => rfl
    | succ n ih => rw [List.replicate_succ, String.join_cons, ih]; rfl
  simp [concat, unlines, line, Function.comp_def, hempty]

/-- Nobody sees the notes who did not ask for them. -/
theorem concat_notes (notes : List Note) : concat (notes.map (ofNote false)) = empty := by
  induction notes with
  | nil => rfl
  | cons n notes ih =>
    have hnote : ofNote false n = empty := by cases n <;> rfl
    rw [List.map_cons, ← List.singleton_append, concat_append, ih, hnote]
    rfl

end Output

namespace CommandLine

open Output (unlines unlines_append unlines_singleton)

variable {setup : Setup} {settings : Settings} {disk : Disk}

/-! ### One script -/

theorem seen_unasked {α : Type} (reply : Reply α) : seen false reply = ⟨unlines reply.lines, ""⟩ := by
  rw [seen, Output.concat_append, Output.concat_notes, Output.concat_lines, Output.empty_append]

/-- What is shown of a script. -/
theorem report_settled {reply : Reply (Except Failure Value)} (h : reply.settled = true) :
    report false true reply =
      (⟨unlines reply.shownLines, unlines reply.errorLines⟩, .ok reply.succeeded) := by
  unfold report Reply.shownLines Reply.errorLines Reply.succeeded
  rcases Reply.cases_of_settled h with ⟨v, hout⟩ | ⟨e, hout⟩
  · simp only [hout, seen_unasked, unlines_append, unlines_singleton]
    rfl
  · simp only [hout, seen_unasked, unlines_singleton, List.append_nil, Output.append_def,
      Output.complaint, String.empty_append, String.append_empty]
    rfl

/-! ### Scripts one after another -/

/-- What is shown of scripts. The status given comes from before; from the first script that fails
on it is 1. -/
theorem runScripts_eq : ∀ (paths : List String) (s : Session) (status : ℕ),
    (∀ reply ∈ s.loads setup paths, reply.settled = true) →
      runScripts false setup s status paths =
        ⟨⟨unlines ((s.loads setup paths).flatMap Reply.shownLines),
          unlines ((s.loads setup paths).flatMap Reply.errorLines)⟩,
          .ok (if (s.loads setup paths).all Reply.succeeded then status else 1)⟩
  | [], _, _, _ => rfl
  | path :: paths, s, status, h => by
    obtain ⟨hfirst, hrest⟩ := List.forall_mem_cons.mp h
    have hstatus : ∀ first others : Bool, (if others then (if first then status else 1) else 1) =
        if first && others then status else 1 := by
      intro first others
      cases first <;> cases others <;> rfl
    rw [runScripts, Session.loads]
    simp only [report_settled hfirst]
    rw [runScripts_eq paths _ _ hrest, hstatus]
    simp only [Result.after, Output.append_def, List.flatMap_cons, unlines_append, List.all_cons]
    rfl

/-- What the command does first: it loads the script of the settings, if they have one. -/
def opening (setup : Setup) (settings : Settings) : Reply (Except Failure Value) :=
  match settings.prelude? with
  | none => ⟨.ok .nil, .fresh, [], []⟩
  | some prelude => Session.fresh.load setup prelude.text

theorem runFrom_of_error (verbose : Bool) {e : LispError}
    (h : (opening setup settings).outcome = .error (.error e)) (scripts lines : List String) :
    runFrom verbose setup settings disk scripts lines =
      ⟨seen verbose (opening setup settings) ++ .complaint e.line, .ok 1⟩ := by
  unfold runFrom
  unfold opening at h ⊢
  cases hprelude : settings.prelude? with
  | none =>
    rw [hprelude] at h
    cases h
  | some prelude =>
    rw [hprelude] at h
    simp only at h ⊢
    simp only [report, h]

theorem runFrom_of_ok (verbose : Bool) {v : Value}
    (h : (opening setup settings).outcome = .ok v) (scripts lines : List String) :
    runFrom verbose setup settings disk scripts lines =
      (runMain verbose setup (opening setup settings).session settings disk scripts lines).after
        (seen verbose (opening setup settings)) := by
  unfold runFrom
  unfold opening at h ⊢
  cases hprelude : settings.prelude? with
  | none => exact congrArg (Result.mk · _) (Output.empty_append _).symm
  | some prelude =>
    rw [hprelude] at h
    simp only at h ⊢
    simp only [report, h]
    exact congrArg (Result.after · _) (Output.append_empty _)

/-! ### Command lines of scripts -/

/-- Scripts on a command line: there is one at least, and no option. -/
structure ScriptRow (files : List String) : Prop where
  ne_nil : files ≠ []
  names : ∀ f ∈ files, Options.NamesScript f

/-- Nothing but errors of the language comes up where scripts are run: neither in the script of the
settings nor, once it has a value, in the others. -/
structure OnlyErrors (setup : Setup) (settings : Settings) (files : List String) : Prop where
  opened : (opening setup settings).settled = true
  loads : (opening setup settings).succeeded = true →
    ∀ reply ∈ (opening setup settings).session.loads setup files, reply.settled = true

variable {fs gs files : List String}

theorem ScriptRow.append (h : ScriptRow fs) (h' : ScriptRow gs) : ScriptRow (fs ++ gs) :=
  ⟨List.append_ne_nil_of_left_ne_nil h.ne_nil gs, List.forall_mem_append.mpr ⟨h.names, h'.names⟩⟩

theorem OnlyErrors.of_append (h : OnlyErrors setup settings (fs ++ gs)) :
    OnlyErrors setup settings fs where
  opened := h.opened
  loads hok reply hreply := by
    refine h.loads hok reply ?_
    rw [Session.loads_append]
    exact List.mem_append_left _ hreply

/-- What the command shows of scripts behind a script of the settings that has a value. -/
theorem runFrom_scripts (hne : files ≠ []) (h : OnlyErrors setup settings files)
    (hok : (opening setup settings).succeeded = true) (lines : List String) :
    let first := opening setup settings
    let loads := first.session.loads setup files
    runFrom false setup settings disk files lines =
      ⟨⟨unlines (first.lines ++ loads.flatMap Reply.shownLines),
        unlines (loads.flatMap Reply.errorLines)⟩,
        .ok (if loads.all Reply.succeeded then 0 else 1)⟩ := by
  intro first loads
  obtain ⟨v, hv⟩ := Reply.exists_of_succeeded hok
  have hrow : files.isEmpty = false := by simpa using hne
  rw [runFrom_of_ok false hv, runMain, hrow, if_neg Bool.false_ne_true,
    runScripts_eq files _ 0 (h.loads hok), seen_unasked, unlines_append]
  simp only [Result.after, Output.append_def, String.empty_append]
  rfl

/-- **To run scripts is a fold of loads.** Let only errors of the language come up. If the script of
the settings fails, its lines and one line for its error are all there is, the status is 1, and
whoever asks for notes sees none but those of that script. Otherwise the scripts are loaded in order,
each in the session that all before it have left; the standard output has the lines of the script
of the settings and then, script by script, the lines of its load and one more if it has a value;
the standard error has one line for each script that fails; and the status is 0 exactly if none
does. So scripts put behind others add to both outputs at their ends, and do not undo a status
of 1. -/
theorem scripts_run_as_a_fold (settings : Settings) (disk : Disk) (lines : List String) :
    let setup : Setup := ⟨SearchPath.scripts disk settings.roots, .standard⟩
    let first := opening setup settings
    let main := fun files => run settings disk files lines
    (∀ files e, ScriptRow files → first.outcome = .error (.error e) →
      main files = ⟨⟨unlines first.lines, unlines [e.line]⟩, .ok 1⟩ ∧
      main ("-v" :: files) = ⟨seen true first ++ .complaint e.line, .ok 1⟩) ∧
    (∀ files, ScriptRow files → OnlyErrors setup settings files → first.succeeded = true →
      let loads := first.session.loads setup files
      main files = ⟨⟨unlines (first.lines ++ loads.flatMap Reply.shownLines),
        unlines (loads.flatMap Reply.errorLines)⟩,
        .ok (if loads.all Reply.succeeded then 0 else 1)⟩) ∧
    ∀ fs gs, ScriptRow fs → ScriptRow gs → OnlyErrors setup settings (fs ++ gs) →
      (∃ out err, (main (fs ++ gs)).output =
        ⟨(main fs).output.out ++ out, (main fs).output.err ++ err⟩) ∧
      ((main fs).ending = .ok 1 → (main (fs ++ gs)).ending = .ok 1) := by
  intro setup first main
  have hmain : ∀ files, ScriptRow files →
      main files = runFrom false setup settings disk files lines := by
    intro files hfiles
    show run settings disk files lines = _
    unfold run
    rw [Options.read_of_scripts hfiles.names]
    rfl
  have hfailed : ∀ files e, ScriptRow files → first.outcome = .error (.error e) →
      main files = ⟨⟨unlines first.lines, unlines [e.line]⟩, .ok 1⟩ := by
    intro files e hfiles he
    rw [hmain files hfiles, runFrom_of_error false he, seen_unasked, unlines_singleton]
    simp [Output.append_def, Output.complaint, first]
  have hopened : ∀ files, ScriptRow files → OnlyErrors setup settings files →
      first.succeeded = true → main files =
        ⟨⟨unlines (first.lines ++ (first.session.loads setup files).flatMap Reply.shownLines),
          unlines ((first.session.loads setup files).flatMap Reply.errorLines)⟩,
          .ok (if (first.session.loads setup files).all Reply.succeeded then 0 else 1)⟩ := by
    intro files hfiles honly hok
    rw [hmain files hfiles]
    exact runFrom_scripts hfiles.ne_nil honly hok lines
  refine ⟨fun files e hfiles he => ⟨hfailed files e hfiles he, ?_⟩, hopened, ?_⟩
  · show run settings disk ("-v" :: files) lines = _
    unfold run
    rw [Options.read_verbose_of_scripts hfiles.names]
    exact runFrom_of_error true he files lines
  · intro fs gs hfs hgs honly
    rcases Reply.cases_of_settled honly.opened with ⟨v, hv⟩ | ⟨e, he⟩
    · have hok : first.succeeded = true := by
        show first.outcome.isOk = true
        rw [hv]
        rfl
      rw [hopened fs hfs honly.of_append hok, hopened _ (hfs.append hgs) honly hok,
        Session.loads_append]
      simp only [List.flatMap_append, List.all_append, unlines_append, ← String.append_assoc]
      refine ⟨⟨_, _, rfl⟩, fun hstatus => ?_⟩
      cases hall : (first.session.loads setup fs).all Reply.succeeded with
      | true =>
        rw [hall] at hstatus
        cases hstatus
      | false => rfl
    · rw [hfailed fs e hfs he, hfailed _ e (hfs.append hgs) he]
      exact ⟨⟨"", "", by simp⟩, fun hstatus => hstatus⟩

/-- A disk with files of ASCII texts in its working directory. -/
def diskOfTexts (texts : List (String × String)) : Disk :=
  .ofEntries [] <| texts.map fun (name, text) =>
    ([name], .file (text.toList.map fun c => UInt8.ofNat c.toNat))

/-- A script of the settings that binds a name, a script that prints it, binds another one and
fails, and a script that asks for both names; and a script of the settings that is not there. -/
theorem scripts_run_as_a_fold_failing :
    let settings : Settings := ⟨none, none, some "prelude"⟩
    let disk := diskOfTexts [("prelude", "(let x true)"),
      ("first", "(print x) (let y nil) (car y)"), ("second", "(print y) x")]
    let setup : Setup := ⟨SearchPath.scripts disk settings.roots, .standard⟩
    let main := fun files => run settings disk files []
    ScriptRow ["first"] ∧ ScriptRow ["second"] ∧
    OnlyErrors setup settings (["first"] ++ ["second"]) ∧
    (opening setup settings).succeeded = true ∧
    main ["first"] = ⟨⟨"true\n", "// 🙀 => this value is not list\n"⟩, .ok 1⟩ ∧
    (∃ out err, (main ["first", "second"]).output =
      ⟨"true\n" ++ out, "// 🙀 => this value is not list\n" ++ err⟩) ∧
    (main ["first", "second"]).ending = .ok 1 ∧
    (let missing : Settings := ⟨none, none, some "gone"⟩
      let gone : LispError := .unreadable (.system .noEntry "gone")
      (opening ⟨SearchPath.scripts disk missing.roots, .standard⟩ missing).outcome =
        .error (.error gone) ∧
      run missing disk ["first"] [] = ⟨⟨"", unlines [gone.line]⟩, .ok 1⟩) := by
  intro settings disk setup main
  have hfirst : ScriptRow ["first"] :=
    ⟨by simp, List.forall_mem_singleton.mpr (Options.namesScript_of_head (by decide))⟩
  have hsecond : ScriptRow ["second"] :=
    ⟨by simp, List.forall_mem_singleton.mpr (Options.namesScript_of_head (by decide))⟩
  have honly : OnlyErrors setup settings (["first"] ++ ["second"]) :=
    ⟨by decide +kernel, fun _ => by decide +kernel⟩
  have hok : (opening setup settings).succeeded = true := by decide +kernel
  obtain ⟨-, hopened, happend⟩ := scripts_run_as_a_fold settings disk []
  have halone : main ["first"] = ⟨⟨"true\n", "// 🙀 => this value is not list\n"⟩, .ok 1⟩ := by
    let loads := (opening setup settings).session.loads setup ["first"]
    have hout : unlines ((opening setup settings).lines ++ loads.flatMap Reply.shownLines) =
      "true\n" := by decide +kernel
    have herr : unlines (loads.flatMap Reply.errorLines) =
      "// 🙀 => this value is not list\n" := by decide +kernel
    have hfails : loads.all Reply.succeeded = false := by decide +kernel
    refine (hopened ["first"] hfirst honly.of_append hok).trans ?_
    rw [hout, herr, hfails]
    rfl
  obtain ⟨hmore, hstatus⟩ := happend ["first"] ["second"] hfirst hsecond honly
  have hmissing := (scripts_run_as_a_fold ⟨none, none, some "gone"⟩ disk []).1 ["first"]
    (.unreadable (.system .noEntry "gone")) hfirst rfl
  refine ⟨hfirst, hsecond, honly, hok, halone, ?_, hstatus (congrArg Result.ending halone), rfl,
    hmissing.1⟩
  have hbegin : (main ["first"]).output = ⟨"true\n", "// 🙀 => this value is not list\n"⟩ :=
    congrArg Result.output halone
  obtain ⟨out, err, hboth⟩ := hmore
  refine ⟨out, err, hboth.trans ?_⟩
  show Output.mk ((main ["first"]).output.out ++ out) ((main ["first"]).output.err ++ err) = _
  rw [hbegin]

end CommandLine
end SmallLisp
