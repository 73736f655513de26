/-
# Sessions over time

A session is asked to evaluate texts and to load scripts, one after another, and goes on from
whatever a request has left, failed or not. `Session.Reached` are the states that a session can
come to, each with all forms that the reader can have made so far: of the texts that were typed in
and of the scripts that were read, as the notes tell. What scripts there are may change from one
request to the next.

Key definitions: `Request`, `Session.perform`, `Request.forms`, `Session.Reached`.
-/
import SmallLisp.SearchPath
import SmallLisp.Session
import SmallLisp.Proofs.Simulation

namespace SmallLisp

/-- What a session is asked for. -/
inductive Request where
  | eval (text : String)
  | load (path : String)

/-- Scripts that have a text or cannot be read, be it by an error of the language or by a fault of
the surroundings. -/
def Scripts.OnlyReadingFails (scripts : Scripts) : Prop :=
  ∀ path failure, scripts path = .error failure →
    (∃ reason, failure = .error (.unreadable reason)) ∨ ∃ fault, failure = .host fault

/-- Scripts that have a text or cannot be read by an error of the language. -/
def Scripts.OnlyUnreadable (scripts : Scripts) : Prop :=
  ∀ path failure, scripts path = .error failure → ∃ reason, failure = .error (.unreadable reason)

theorem Scripts.onlyUnreadable_ofList (table : List (String × String)) :
    (Scripts.ofList table).OnlyUnreadable := by
  intro path failure h
  unfold Scripts.ofList at h
  split at h <;> cases h
  exact ⟨_, rfl⟩

theorem Scripts.onlyReadingFails_ofList (table : List (String × String)) :
    (Scripts.ofList table).OnlyReadingFails :=
  fun path failure h => Or.inl (Scripts.onlyUnreadable_ofList table path failure h)

theorem SearchPath.onlyReadingFails_scripts (disk : Disk) (roots : List Path) :
    (SearchPath.scripts disk roots).OnlyReadingFails := by
  intro path failure h
  unfold SearchPath.scripts at h
  split at h
  · unfold Disk.readText at h
    split at h
    · cases h
      exact Or.inr ⟨_, rfl⟩
    · split at h
      · cases h
        exact Or.inl ⟨_, rfl⟩
      · split at h <;> cases h
        exact Or.inl ⟨_, rfl⟩
  · cases h
    exact Or.inr ⟨_, rfl⟩

namespace Request

/-- What a request does, given how to evaluate. -/
def action (scripts : Scripts) (nesting : ℕ) (eval : Value → Action Value) : Request → Action Value
  | .eval text => Evaluation.evalText nesting eval text
  | .load path => Evaluation.loadScript scripts nesting eval path

/-- The text of the script that a note names. -/
def notedText? (scripts : Scripts) : Note → Option String
  | .loading path => (scripts path).toOption
  | .evaluated _ => none

/-- The texts that are read in a request that takes these notes. -/
def texts (scripts : Scripts) (notes : List Note) : Request → List String
  | .eval text => text :: notes.filterMap (notedText? scripts)
  | .load _ => notes.filterMap (notedText? scripts)

/-- The forms of the texts that are read in a request that takes these notes. -/
def forms (setup : Setup) (notes : List Note) (request : Request) : List Value :=
  (request.texts setup.scripts notes).flatMap fun text =>
    (Form.parseAll setup.limits.nesting (tokenize text)).1

theorem mem_forms_of_note {setup : Setup} {notes : List Note} (request : Request)
    {path text : String} (hnote : .loading path ∈ notes) (htext : setup.scripts path = .ok text) :
    ∀ form ∈ (Form.parseAll setup.limits.nesting (tokenize text)).1,
      form ∈ request.forms setup notes := by
  have hmem : text ∈ notes.filterMap (notedText? setup.scripts) :=
    List.mem_filterMap.mpr ⟨.loading path, hnote, by rw [notedText?, htext]; rfl⟩
  intro form hform
  refine List.mem_flatMap.mpr ⟨text, ?_, hform⟩
  cases request with
  | eval _ => exact List.mem_cons_of_mem _ hmem
  | load _ => exact hmem

theorem mem_forms_of_text {setup : Setup} {notes : List Note} {text : String} :
    ∀ form ∈ (Form.parseAll setup.limits.nesting (tokenize text)).1,
      form ∈ (Request.eval text).forms setup notes :=
  fun _ hform => List.mem_flatMap.mpr ⟨text, List.mem_cons_self, hform⟩

/-- Related evaluations make related requests. -/
theorem related_action {scripts : Scripts} {nesting : ℕ} {S : Evaluation.Simulation scripts nesting}
    {eval eval' : Value → Action Value}
    (heval : ∀ e, S.code e → S.Related S.value (eval e) (eval' e)) {request : Request}
    (htext : ∀ text, request = .eval text →
      ∀ form ∈ (Form.parseAll nesting (tokenize text)).1, S.code form) :
    S.Related S.value (request.action scripts nesting eval)
      (request.action scripts nesting eval') := by
  cases request with
  | eval text => exact Evaluation.Simulation.related_evalText heval (htext text rfl)
  | load path => exact Evaluation.Simulation.related_loadScript heval path

end Request

namespace Session

/-- The answer of a session to a request. -/
def perform (setup : Setup) (s : Session) : Request → Reply (Except Failure Value)
  | .eval text => s.eval setup text
  | .load path => s.load setup path

theorem perform_eq_run (setup : Setup) (s : Session) (request : Request) :
    s.perform setup request =
      s.run (request.action setup.scripts setup.limits.nesting setup.evaluate) := by
  cases request <;> rfl

/-- The states that a session comes to from its start, with the forms of all texts read so far. -/
inductive Reached : List Value → Session → Prop
  | fresh : Reached [] .fresh
  | next {forms : List Value} {s : Session} (setup : Setup) (request : Request) :
    setup.scripts.OnlyReadingFails → Reached forms s →
      Reached (forms ++ request.forms setup (s.perform setup request).notes)
        (s.perform setup request).session

end Session
end SmallLisp
