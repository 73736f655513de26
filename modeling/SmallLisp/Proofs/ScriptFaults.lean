/-
# Faults in reading scripts

A script that cannot be read is an error of the language, with two exceptions. A path that holds
the character U+0000 is never opened. And a path that does not start at a root of the disk is looked
for before it is read, as it is and then below the roots of the search; if the disk does not say
whether there is anything at one of these paths, because the path is too long or a directory on the
way may not be searched or for whatever other reason, the search dies of it, although reading the
same path would be an error of the language. `SearchPath.scripts_faults` says that these are all the
faults there are and when exactly each one comes, `SearchPath.scripts_readable_of_short` that names
of at most 255 bytes in paths of less than 4096 are safe from the second one where all directories
may be searched.

Key definitions: `Disk.LeavesOpen`, `Disk.Searchable`, `SearchPath.Meets`, `Path.IsShort`.
Key theorems: `SearchPath.resolve_eq_error_iff`, `SearchPath.scripts_faults`,
`SearchPath.scripts_readable_of_short`, `SearchPath.scripts_of_long_name`.
-/
import SmallLisp.Settings
import SmallLisp.Proofs.Equations
import SmallLisp.Proofs.Requests

namespace SmallLisp

/-- A text was read, or there is an error of the language why there is none. -/
def Scripts.ReadsOrTells (outcome : Except Failure String) : Prop :=
  (∃ text, outcome = .ok text) ∨ ∃ reason, outcome = .error (.error (.unreadable reason))

theorem Text.fields_of_notMem {separator : Char} : ∀ {cs : List Char}, separator ∉ cs →
    Text.fields separator cs = [cs]
  | [], _ => rfl
  | c :: cs, h => by
    obtain ⟨hc, hcs⟩ := not_or.mp (mt List.mem_cons.mpr h)
    rw [Text.fields, if_neg (Ne.symm hc), Text.fields_of_notMem hcs]

namespace Path

variable {p : Path}

theorem hasNul_iff : p.hasNul = true ↔ ∃ name ∈ p.parts, '\x00' ∈ name.toList := by
  simp [hasNul]

theorem hasNul_join (directory : Path) (h : p.hasNul = true) :
    (directory.join p).hasNul = true := by
  obtain ⟨name, hname, hnul⟩ := hasNul_iff.mp h
  unfold join
  split
  · exact h
  · exact hasNul_iff.mpr ⟨name, List.mem_append_right _ hname, hnul⟩

/-- A long name without a slash is a path of one component. -/
theorem ofString_name {name : String} (hslash : '/' ∉ name.toList)
    (hlong : 1 < name.utf8ByteSize) : ofString name = ⟨.relative, [name]⟩ := by
  have hempty : name ≠ "" := by
    rintro rfl
    exact absurd hlong (by decide)
  have hdot : name ≠ "." := by
    rintro rfl
    exact absurd hlong (by decide)
  have hfront : name.toList.takeWhile (· == '/') = [] := by
    cases hcs : name.toList with
    | nil => rfl
    | cons c cs =>
      have hc : c ≠ '/' := fun hc => hslash (by rw [hcs, hc]; exact List.mem_cons_self)
      rw [List.takeWhile_cons_of_neg (by simpa using hc)]
  rw [ofString, Text.fields_of_notMem hslash, hfront]
  simp [hempty, hdot, Anchor.ofSlashes]

/-- A path of names that every disk can look up. -/
def IsShort (p : Path) : Prop :=
  p.text.utf8ByteSize < 4096 ∧ ∀ name ∈ p.parts, name.utf8ByteSize ≤ 255

end Path

namespace Disk

variable (disk : Disk) {p : Path}

/-- Asked about a path, a disk fails with an error and does not say that there is nothing. It is
never asked about a path that holds U+0000. -/
def LeavesOpen (p : Path) (e : SystemError) : Prop :=
  p.hasNul = false ∧ disk.find p = .error e ∧ e.meansAbsence = false

/-- No search for a name leaves it open whether there is anything. -/
def Searchable : Prop :=
  ∀ location name e, disk.refusals.search location name = some e → e.meansAbsence = true

variable {disk}

/-- A walk along short names ends with a location or tells that there is nothing. -/
theorem meansAbsence_of_walk (hdisk : disk.Searchable) {e : SystemError} :
    ∀ (location : List String) {names : List String},
      (∀ name ∈ names, name.utf8ByteSize ≤ 255) → disk.walk location names = .error e →
        e.meansAbsence = true
  | _, [], _, h => nomatch h
  | location, name :: names, hshort, h => by
    obtain ⟨hname, hnames⟩ := List.forall_mem_cons.mp hshort
    unfold walk at h
    split at h
    · cases h
      decide
    · cases h
      decide
    · split at h
      · rename_i e' hrefused
        cases h
        exact hdisk location name _ hrefused
      · split at h
        · exact meansAbsence_of_walk hdisk _ hnames h
        · rw [if_neg (Nat.not_lt.mpr hname)] at h
          exact meansAbsence_of_walk hdisk _ hnames h

theorem find_of_locate {location : List String} (h : disk.locate p = .ok location) :
    disk.find p = (disk.entryAt? location).elim (.error .noEntry) .ok := by
  rw [find, h]
  simp only [bind, Except.bind]
  cases disk.entryAt? location <;> rfl

theorem find_of_locate_error {e : SystemError} (h : disk.locate p = .error e) :
    disk.find p = .error e := by
  rw [find, h]
  rfl

/-- What is left open is left open by one error. -/
theorem LeavesOpen.iff_eq {e e' : SystemError} (h : disk.LeavesOpen p e) :
    disk.LeavesOpen p e' ↔ e' = e :=
  ⟨fun h' => Except.error.inj (h'.2.1.symm.trans h.2.1), fun he => he ▸ h⟩

theorem not_leavesOpen_of_short (hdisk : disk.Searchable) (h : p.IsShort) (e : SystemError) :
    ¬ disk.LeavesOpen p e := by
  rintro ⟨-, hfind, he⟩
  have habsence : e.meansAbsence = true := by
    cases hat : disk.locate p with
    | error e' =>
      rw [find_of_locate_error hat] at hfind
      cases hfind
      rw [locate, if_neg (Nat.not_le.mpr h.1)] at hat
      exact meansAbsence_of_walk hdisk _ h.2 hat
    | ok location =>
      rw [find_of_locate hat] at hfind
      cases hentry : disk.entryAt? location with
      | some entry =>
        rw [hentry] at hfind
        cases hfind
      | none =>
        rw [hentry] at hfind
        cases hfind
        decide
  rw [he] at habsence
  cases habsence

theorem find_of_long_name {name : String}
    (hplace : disk.entryAt? disk.workingDirectory = some .directory)
    (hsearch : disk.refusals.search disk.workingDirectory name = none)
    (hlong : 255 < name.utf8ByteSize) : disk.find ⟨.relative, [name]⟩ = .error .nameTooLong := by
  have hdots : name ≠ ".." := by
    rintro rfl
    exact absurd hlong (by decide)
  have hwalk : disk.walk disk.workingDirectory [name] = .error .nameTooLong := by
    rw [walk, hplace]
    simp only [hsearch]
    rw [if_neg hdots, if_pos hlong]
  refine find_of_locate_error ?_
  unfold locate
  split
  · rfl
  · exact hwalk

variable (disk)

theorem test_of_hasNul (kind : Entry → Bool) (h : p.hasNul = true) :
    disk.test kind p = .ok false := by
  rw [test, if_pos h]

theorem hasNul_of_test {kind : Entry → Bool} (h : disk.test kind p = .ok true) :
    p.hasNul = false := by
  cases hnul : p.hasNul with
  | false => rfl
  | true =>
    rw [test_of_hasNul _ _ hnul] at h
    cases h

theorem test_eq_error_iff {kind : Entry → Bool} {e : SystemError} :
    disk.test kind p = .error e ↔ disk.LeavesOpen p e := by
  unfold test LeavesOpen
  cases p.hasNul with
  | true => simp
  | false =>
    rcases disk.find p with e' | entry
    · cases habsence : e'.meansAbsence with
      | true =>
        have hne : e' = e → e.meansAbsence = true := fun h => h ▸ habsence
        simpa [habsence] using hne
      | false =>
        have heq : e' = e → e.meansAbsence = false := fun h => h ▸ habsence
        simpa [habsence] using heq
    · simp

theorem not_leavesOpen_of_test {kind : Entry → Bool} {answer : Bool} (e : SystemError)
    (h : disk.test kind p = .ok answer) : ¬ disk.LeavesOpen p e := by
  intro hopen
  rw [disk.test_eq_error_iff.mpr hopen] at h
  cases h

theorem readText_of_hasNul (h : p.hasNul = true) :
    disk.readText p = .error (.host .nulInPath) := by
  rw [readText, if_pos h]

theorem readText_of_noNul (h : p.hasNul = false) : Scripts.ReadsOrTells (disk.readText p) := by
  rw [readText, if_neg (by rw [h]; exact Bool.false_ne_true)]
  split
  · exact Or.inr ⟨_, rfl⟩
  · split
    · exact Or.inr ⟨_, rfl⟩
    · exact Or.inl ⟨_, rfl⟩

end Disk

namespace SearchPath

variable (disk : Disk) (roots : List Path) {p q : Path} {e : SystemError} {fault : HostFault}

/-- Below the first roots there is no file at a path, and below the next one the disk leaves it open
what is there. -/
def MeetsBelow (p q : Path) (e : SystemError) : Prop :=
  ∃ before root after, roots = before ++ root :: after ∧ q = root.join p ∧
    disk.LeavesOpen (root.join p) e ∧ ∀ earlier ∈ before, disk.isFile (earlier.join p) = .ok false

/-- Looking for a path comes upon a path at which the disk leaves it open what is there: the path as
it is, or, if there is nothing at it, the path below a root. -/
def Meets (p q : Path) (e : SystemError) : Prop :=
  p.isAbsolute = false ∧ (q = p ∧ disk.LeavesOpen p e ∨
    disk.isPresent p = .ok false ∧ MeetsBelow disk roots p q e)

variable {disk roots}

theorem not_meetsBelow_nil : ¬ MeetsBelow disk [] p q e := by
  rintro ⟨before, root, after, hroots, -⟩
  exact List.append_ne_nil_of_right_ne_nil before (List.cons_ne_nil _ _) hroots.symm

theorem meetsBelow_cons {root : Path} : MeetsBelow disk (root :: roots) p q e ↔
    (q = root.join p ∧ disk.LeavesOpen (root.join p) e) ∨
      disk.isFile (root.join p) = .ok false ∧ MeetsBelow disk roots p q e := by
  constructor
  · rintro ⟨before, next, after, hroots, hq, hopen, hbefore⟩
    cases before with
    | nil =>
      cases hroots
      exact Or.inl ⟨hq, hopen⟩
    | cons _ before =>
      cases hroots
      obtain ⟨hroot, hbefore⟩ := List.forall_mem_cons.mp hbefore
      exact Or.inr ⟨hroot, before, next, after, rfl, hq, hopen, hbefore⟩
  · rintro (⟨hq, hopen⟩ | ⟨hroot, before, next, after, rfl, hq, hopen, hbefore⟩)
    · exact ⟨[], root, roots, rfl, hq, hopen, nofun⟩
    · exact ⟨root :: before, next, after, rfl, hq, hopen,
        List.forall_mem_cons.mpr ⟨hroot, hbefore⟩⟩

theorem below_cons {root : Path} {found : Bool}
    (h : disk.isFile (root.join p) = .ok found) :
    below disk p (root :: roots) = if found then .ok (root.join p) else below disk p roots := by
  rw [below, h]
  cases found <;> rfl

theorem below_cons_of_leavesOpen {root : Path} (h : disk.LeavesOpen (root.join p) e) :
    below disk p (root :: roots) = .error (.unanswered e (root.join p).text) := by
  have hfile : disk.isFile (root.join p) = .error e := disk.test_eq_error_iff.mpr h
  rw [below, hfile]

theorem below_eq_error_iff : below disk p roots = .error fault ↔
    ∃ q e, MeetsBelow disk roots p q e ∧ fault = .unanswered e q.text := by
  induction roots with
  | nil => simp [below, not_meetsBelow_nil]
  | cons root roots ih =>
    simp only [meetsBelow_cons]
    cases hfile : disk.isFile (root.join p) with
    | error e =>
      have hopen := disk.test_eq_error_iff.mp hfile
      simp [below_cons_of_leavesOpen hopen, hopen.iff_eq, eq_comm]
    | ok found =>
      have hanswers := fun e => disk.not_leavesOpen_of_test e hfile
      rw [below_cons hfile]
      cases found with
      | true => simp [hanswers]
      | false => simp [hanswers, ih]

theorem below_of_hasNul (h : p.hasNul = true) : below disk p roots = .ok p := by
  induction roots with
  | nil => rfl
  | cons root roots ih =>
    rw [below_cons (disk.test_of_hasNul _ (Path.hasNul_join root h))]
    exact ih

/-- What is found is the path itself or a file. -/
theorem hasNul_of_below (h : below disk p roots = .ok q) (hp : p.hasNul = false) :
    q.hasNul = false := by
  induction roots with
  | nil =>
    cases h
    exact hp
  | cons root roots ih =>
    cases hfile : disk.isFile (root.join p) with
    | error e =>
      rw [below_cons_of_leavesOpen (disk.test_eq_error_iff.mp hfile)] at h
      cases h
    | ok found =>
      rw [below_cons hfile] at h
      cases found with
      | true =>
        cases h
        exact disk.hasNul_of_test hfile
      | false => exact ih h

theorem resolve_of_isAbsolute (h : p.isAbsolute = true) : resolve disk roots p = .ok p := by
  rw [resolve, if_pos h]

theorem resolve_of_leavesOpen (h : p.isAbsolute = false) (hopen : disk.LeavesOpen p e) :
    resolve disk roots p = .error (.unanswered e p.text) := by
  have hpresent : disk.isPresent p = .error e := disk.test_eq_error_iff.mpr hopen
  rw [resolve, if_neg (by rw [h]; exact Bool.false_ne_true), hpresent]

theorem resolve_of_relative (h : p.isAbsolute = false) {present : Bool}
    (hpresent : disk.isPresent p = .ok present) :
    resolve disk roots p = if present then .ok p else below disk p roots := by
  rw [resolve, if_neg (by rw [h]; exact Bool.false_ne_true), hpresent]
  cases present <;> rfl

/-- **A search dies** of the first path that it meets and about which the disk leaves it open what is
there. -/
theorem resolve_eq_error_iff : resolve disk roots p = .error fault ↔
    ∃ q e, Meets disk roots p q e ∧ fault = .unanswered e q.text := by
  unfold Meets
  cases habsolute : p.isAbsolute with
  | true => simp [resolve_of_isAbsolute habsolute]
  | false =>
    cases hpresent : disk.isPresent p with
    | error e =>
      have hopen := disk.test_eq_error_iff.mp hpresent
      simp [resolve_of_leavesOpen habsolute hopen, hopen.iff_eq, eq_comm]
    | ok present =>
      have hanswers := fun e => disk.not_leavesOpen_of_test e hpresent
      rw [resolve_of_relative habsolute hpresent]
      cases present with
      | true => simp [hanswers]
      | false => simp [hanswers, below_eq_error_iff]

theorem resolve_of_hasNul (h : p.hasNul = true) : resolve disk roots p = .ok p := by
  cases habsolute : p.isAbsolute with
  | true => exact resolve_of_isAbsolute habsolute
  | false =>
    rw [resolve_of_relative habsolute (disk.test_of_hasNul _ h)]
    exact below_of_hasNul h

theorem hasNul_of_resolve (h : resolve disk roots p = .ok q) (hp : p.hasNul = false) :
    q.hasNul = false := by
  cases habsolute : p.isAbsolute with
  | true =>
    rw [resolve_of_isAbsolute habsolute] at h
    cases h
    exact hp
  | false =>
    cases hpresent : disk.isPresent p with
    | error e =>
      rw [resolve_of_leavesOpen habsolute (disk.test_eq_error_iff.mp hpresent)] at h
      cases h
    | ok present =>
      rw [resolve_of_relative habsolute hpresent] at h
      cases present with
      | true =>
        cases h
        exact hp
      | false => exact hasNul_of_below h hp

/-! ### Scripts -/

variable (disk roots) (path : String)

theorem scripts_of_hasNul (h : (Path.ofString path).hasNul = true) :
    scripts disk roots path = .error (.host .nulInPath) := by
  rw [scripts, resolve_of_hasNul h]
  exact disk.readText_of_hasNul h

theorem scripts_of_meets (h : Meets disk roots (.ofString path) q e) :
    scripts disk roots path = .error (.host (.unanswered e q.text)) := by
  rw [scripts, resolve_eq_error_iff.mpr ⟨q, e, h, rfl⟩]

theorem scripts_of_answers (hnul : (Path.ofString path).hasNul = false)
    (hmeets : ∀ q e, ¬ Meets disk roots (.ofString path) q e) :
    Scripts.ReadsOrTells (scripts disk roots path) := by
  rw [scripts]
  cases hresolve : resolve disk roots (.ofString path) with
  | ok q => exact disk.readText_of_noNul (hasNul_of_resolve hresolve hnul)
  | error fault =>
    obtain ⟨q, e, hq, -⟩ := resolve_eq_error_iff.mp hresolve
    exact (hmeets q e hq).elim

end SearchPath

/-- A `load` whose path has a value fails as reading the script does. -/
theorem Evaluation.evaluate_load_of_error {scripts : Scripts} {nesting limit : ℕ} {e : Value}
    {c : Chain} {path : String} {failure : Failure}
    (he : (evaluate scripts nesting limit e c).outcome = .ok (.str path))
    (h : scripts path = .error failure) :
    (evaluate scripts nesting (limit + 1) (.list [.sym "load", e]) c).outcome =
      .error failure := by
  have hstep : evaluate scripts nesting (limit + 1) (.list [.sym "load", e]) =
      evalLoad scripts nesting (evaluate scripts nesting limit) [e] := rfl
  rw [hstep, evalLoad, Action.bind_ok _ he]
  show (loadScript scripts nesting _ path _).outcome = _
  rw [loadScript, Action.bind_error _ (by rw [readScript_of_error h])]

namespace SearchPath

open Evaluation (evaluate)

/-- **The faults of reading a script.** Reading ends in a text or an error of the language, but for
two kinds of paths, and each of them has its own fault; a `load` fails as the reading does. -/
theorem scripts_faults (disk : Disk) (settings : Settings) (path : String) :
    let found := scripts disk settings.roots
    let p := Path.ofString path
    (Scripts.ReadsOrTells (found path) ↔
      p.hasNul = false ∧ ∀ q e, ¬ Meets disk settings.roots p q e) ∧
    (p.hasNul = true → found path = .error (.host .nulInPath)) ∧
    (∀ q e, Meets disk settings.roots p q e →
      found path = .error (.host (.unanswered e q.text))) ∧
    ∀ nesting limit e c failure, found path = .error failure →
      (evaluate found nesting limit e c).outcome = .ok (.str path) →
      (evaluate found nesting (limit + 1) (.list [.sym "load", e]) c).outcome =
        .error failure := by
  intro found p
  refine ⟨⟨fun h => ?_, fun h => scripts_of_answers disk _ path h.1 h.2⟩,
    scripts_of_hasNul disk _ path, fun q e => scripts_of_meets disk _ path,
    fun _ _ _ _ _ hread he => Evaluation.evaluate_load_of_error he hread⟩
  have hhost : ∀ fault, found path ≠ .error (.host fault) := by
    intro fault hfault
    rw [hfault] at h
    rcases h with ⟨_, h⟩ | ⟨_, h⟩ <;> cases h
  refine ⟨Bool.eq_false_iff.mpr fun hnul => hhost _ (scripts_of_hasNul disk _ path hnul), ?_⟩
  exact fun q e hq => hhost _ (scripts_of_meets disk _ path hq)

/-- A path that starts at a root of the disk is not looked for. -/
theorem scripts_readable_of_isAbsolute (disk : Disk) (roots : List Path) {path : String}
    (hnul : (Path.ofString path).hasNul = false)
    (habsolute : (Path.ofString path).isAbsolute = true) :
    Scripts.ReadsOrTells (scripts disk roots path) := by
  refine scripts_of_answers disk roots path hnul ?_
  rintro q e ⟨hrelative, -⟩
  rw [habsolute] at hrelative
  cases hrelative

/-- Short names are safe where all directories may be searched: the disk answers for every path that
a search can meet. -/
theorem scripts_readable_of_short {disk : Disk} {roots : List Path} {path : String}
    (hdisk : disk.Searchable) (hnul : (Path.ofString path).hasNul = false)
    (hpath : (Path.ofString path).IsShort)
    (hroots : ∀ root ∈ roots, (root.join (.ofString path)).IsShort) :
    Scripts.ReadsOrTells (scripts disk roots path) := by
  refine scripts_of_answers disk roots path hnul ?_
  rintro q e ⟨-, ⟨-, hopen⟩ | ⟨-, before, root, after, rfl, -, hopen, -⟩⟩
  · exact Disk.not_leavesOpen_of_short hdisk hpath e hopen
  · refine Disk.not_leavesOpen_of_short hdisk (hroots root ?_) e hopen
    exact List.mem_append_right _ List.mem_cons_self

/-- A long name is a fault wherever it is looked for. -/
theorem scripts_of_long_name {disk : Disk} {name : String}
    (hplace : disk.entryAt? disk.workingDirectory = some .directory)
    (hsearch : disk.refusals.search disk.workingDirectory name = none)
    (hslash : '/' ∉ name.toList) (hnul : '\x00' ∉ name.toList)
    (hlong : 255 < name.utf8ByteSize) (roots : List Path) :
    scripts disk roots name = .error (.host (.unanswered .nameTooLong name)) := by
  have hpath : Path.ofString name = ⟨.relative, [name]⟩ :=
    Path.ofString_name hslash (Nat.lt_trans (by decide) hlong)
  have htext : Path.text ⟨.relative, [name]⟩ = name := by simp [Path.text, Path.Anchor.text]
  have hopen : disk.LeavesOpen ⟨.relative, [name]⟩ .nameTooLong :=
    ⟨by simpa [Path.hasNul] using hnul, Disk.find_of_long_name hplace hsearch hlong, by decide⟩
  have hmeets : Meets disk roots (.ofString name) ⟨.relative, [name]⟩ .nameTooLong := by
    rw [hpath]
    exact ⟨rfl, Or.inl ⟨rfl, hopen⟩⟩
  rw [scripts_of_meets disk roots name hmeets, htext]

/-- A name of a number of letters. -/
def letters (n : ℕ) : String := "".pushn 'a' n

theorem letters_succ (n : ℕ) : letters (n + 1) = (letters n).push 'a' := rfl

theorem utf8ByteSize_letters (n : ℕ) : (letters n).utf8ByteSize = n := by
  induction n with
  | zero => rfl
  | succ n ih =>
    rw [letters_succ, String.utf8ByteSize_push, ih]
    rfl

theorem eq_of_mem_letters {n : ℕ} {c : Char} (h : c ∈ (letters n).toList) : c = 'a' := by
  induction n with
  | zero => cases h
  | succ n ih =>
    rw [letters_succ, String.toList_push] at h
    rcases List.mem_append.mp h with h | h
    · exact ih h
    · exact List.mem_singleton.mp h

theorem scripts_of_letters {n : ℕ} (h : 255 < n) (roots : List Path) :
    scripts (.ofEntries [] []) roots (letters n) =
      .error (.host (.unanswered .nameTooLong (letters n))) := by
  refine scripts_of_long_name rfl rfl (fun h => ?_) (fun h => ?_) ?_ roots
  · exact absurd (eq_of_mem_letters h) (by decide)
  · exact absurd (eq_of_mem_letters h) (by decide)
  · rw [utf8ByteSize_letters]
    exact h

/-- A path that is never opened; one that is too long to be looked for, which makes a `load` of it
fail so too; and one that is looked for in a directory that may not be searched. -/
theorem scripts_faults_of_each_kind :
    let found := scripts (.ofEntries [] []) (Settings.roots ⟨none, none, none⟩)
    let long := letters 256
    let guarded : Disk := ⟨[], [(["d"], .directory)],
      { Disk.Refusals.nothing with
        search := fun directory _ => if directory = ["d"] then some .permissionDenied else none }⟩
    found "\x00" = .error (.host .nulInPath) ∧
    ¬ Scripts.ReadsOrTells (found long) ∧
    (evaluate found 9 2 (.list [.sym "load", .str long]) (.ofFrame .primitives)).outcome =
      .error (.host (.unanswered .nameTooLong long)) ∧
    scripts guarded (Settings.roots ⟨some "d", none, none⟩) "x" =
      .error (.host (.unanswered .permissionDenied "d/x")) := by
  intro found long guarded
  have hlong : found long = .error (.host (.unanswered .nameTooLong long)) :=
    scripts_of_letters (by decide) _
  obtain ⟨-, hnul, -⟩ := scripts_faults (.ofEntries [] []) ⟨none, none, none⟩ "\x00"
  obtain ⟨-, -, -, hload⟩ := scripts_faults (.ofEntries [] []) ⟨none, none, none⟩ long
  obtain ⟨-, -, hmeets, -⟩ := scripts_faults guarded ⟨some "d", none, none⟩ "x"
  refine ⟨hnul (by decide), ?_, hload 9 1 (.str long) _ _ hlong rfl,
    hmeets ⟨.relative, ["d", "x"]⟩ .permissionDenied ⟨rfl, Or.inr ⟨?_, ?_⟩⟩⟩
  · rw [hlong]
    rintro (⟨_, h⟩ | ⟨_, h⟩) <;> cases h
  · decide +kernel
  · exact ⟨[], ⟨.relative, ["d"]⟩, [], rfl, rfl, ⟨rfl, rfl, rfl⟩, nofun⟩

/-- Not every path is read or told about. -/
theorem not_readsOrTells_of_every_path :
    ¬ ∀ (disk : Disk) (settings : Settings) (path : String),
      Scripts.ReadsOrTells (scripts disk settings.roots path) := by
  intro h
  have hlong := h (.ofEntries [] []) ⟨none, none, none⟩ (letters 256)
  rw [scripts_of_letters (by decide)] at hlong
  rcases hlong with ⟨_, h⟩ | ⟨_, h⟩ <;> cases h

end SearchPath
end SmallLisp
