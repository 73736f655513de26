/-
# What a session shows fits on a line

Words are all that the reader makes names and texts of, and no form and no primitive makes new ones.
So in a session, where all values come from texts, no name and no text has a blank or a parenthesis
(`Value.Worded`), wherever it stands: in a binding, in a list or in a closure. What is shown of
such values has no blanks: no result has any, no line that `print` writes has, and a line that
`env` writes has one, the space behind the colon (`Session.shows_no_line_breaks`).

That it is `print` and `env` that write these lines, and no matter how deep in an evaluation they
stand, is said by an evaluator that is watched (`Evaluation.watched`): the watch sees every
expression with the run of its evaluation, and what it objects to is replaced by something else. A
watch that lets pass what is line-safe (`Evaluation.LineSafe`) never objects.

Key definitions: `Value.Worded`, `Evaluation.LineSafe`, `Evaluation.watched`.
Key theorems: `Value.blanks_render`, `Evaluation.related_watched`,
`Session.worded_of_reached`, `Session.shows_no_line_breaks`.
-/
import SmallLisp.Proofs.Blanks
import SmallLisp.Proofs.Provenance

namespace SmallLisp

open Text (IsName Wordlike blanks)

/-! ### Values of words -/

namespace Value

/-- Every symbol that occurs in a value has a word as its name, and every text is wordlike. -/
structure Worded (v : Value) : Prop where
  names : ∀ name, (Value.sym name).Occurs v → IsName name
  texts : ∀ text, (Value.str text).Occurs v → Wordlike text

theorem Worded.of_occurs {w v : Value} (hv : v.Worded) (h : w.Occurs v) : w.Worded :=
  ⟨fun name hocc => hv.names name (hocc.trans h), fun text hocc => hv.texts text (hocc.trans h)⟩

theorem worded_list {items : List Value} :
    (Value.list items).Worded ↔ ∀ v ∈ items, v.Worded := by
  constructor
  · intro h v hv
    exact h.of_occurs (.item hv .here)
  · intro h
    constructor
    · intro name hocc
      cases hocc with
      | item hmem hocc => exact (h _ hmem).names name hocc
    · intro text hocc
      cases hocc with
      | item hmem hocc => exact (h _ hmem).texts text hocc

theorem worded_closure {params : Value} {body : List Value} (hparams : params.Worded)
    (hbody : ∀ v ∈ body, v.Worded) : (Value.closure params body).Worded := by
  constructor
  · intro name hocc
    cases hocc with
    | params hocc => exact hparams.names name hocc
    | body hmem hocc => exact (hbody _ hmem).names name hocc
  · intro text hocc
    cases hocc with
    | params hocc => exact hparams.texts text hocc
    | body hmem hocc => exact (hbody _ hmem).texts text hocc

theorem worded_atom {v : Value} (hlist : ∀ items, v ≠ .list items)
    (hclosure : ∀ params body, v ≠ .closure params body)
    (hsym : ∀ name, v = .sym name → IsName name) (hstr : ∀ text, v = .str text → Wordlike text) :
    v.Worded := by
  constructor
  · intro name hocc
    exact hsym name (hocc.eq_of_atom hlist hclosure).symm
  · intro text hocc
    exact hstr text (hocc.eq_of_atom hlist hclosure).symm

theorem worded_sym {name : String} (h : IsName name) : (Value.sym name).Worded :=
  worded_atom nofun nofun (fun _ heq => Value.sym.inj heq ▸ h) nofun

theorem worded_str {text : String} (h : Wordlike text) : (Value.str text).Worded :=
  worded_atom nofun nofun nofun fun _ heq => Value.str.inj heq ▸ h

theorem worded_nil : Value.nil.Worded := worded_atom nofun nofun nofun nofun

theorem worded_bool (b : Bool) : (Value.bool b).Worded := worded_atom nofun nofun nofun nofun

theorem worded_num (x : Double) : (Value.num x).Worded := worded_atom nofun nofun nofun nofun

theorem worded_prim (p : Primitive) : (Value.prim p).Worded := worded_atom nofun nofun nofun nofun

theorem mem_of_quotedText? {cs text : List Char} (h : Token.quotedText? cs = some text) :
    ∀ c ∈ text, c ∈ cs := by
  unfold Token.quotedText? at h
  split at h
  · split at h
    · cases h
      exact fun c hc => List.mem_cons_of_mem _ (List.mem_of_mem_dropLast hc)
    · cases h
  · cases h

/-- The atom that a word is. -/
theorem worded_ofToken {t : Token} (h : IsName t) : (ofToken t).Worded := by
  unfold ofToken
  split_ifs
  · exact worded_bool true
  · exact worded_bool false
  · exact worded_nil
  · split
    · exact worded_num _
    · split
      · rename_i text htext
        refine worded_str fun c hc => h.wordlike c (mem_of_quotedText? htext c ?_)
        rwa [String.toList_ofList] at hc
      · exact worded_sym h

mutual

/-- What is shown of a value of words has no blanks. -/
theorem blanks_render : ∀ {v : Value}, v.Worded → blanks v.render = []
  | .nil, _ => by decide
  | .bool true, _ => by decide
  | .bool false, _ => by decide
  | .num x, _ => x.blanks_render
  | .str text, h => (h.texts text .here).blanks
  | .sym name, h => (h.names name .here).wordlike.blanks
  | .list items, h => by
    have hitems := blanks_renderEach (worded_list.mp h)
    rw [render, Text.blanks_append, Text.blanks_append,
      Text.blanks_intercalate (by decide) hitems]
    decide
  | .prim _, _ => (by decide : blanks "Function" = [])
  | .closure _ _, _ => (by decide : blanks "Lambda" = [])

theorem blanks_renderEach : ∀ {vs : List Value}, (∀ v ∈ vs, v.Worded) →
    ∀ s ∈ renderEach vs, blanks s = []
  | [], _ => List.forall_mem_nil _
  | v :: vs, h => by
    obtain ⟨hv, hvs⟩ := List.forall_mem_cons.mp h
    rw [renderEach]
    exact List.forall_mem_cons.mpr ⟨blanks_render hv, blanks_renderEach hvs⟩

end

end Value

/-- The reader makes values of words from the tokens of a text. -/
theorem Form.worded_of_mem_parseAll {nesting : ℕ} {text : String} :
    ∀ form ∈ (Form.parseAll nesting (tokenize text)).1, form.Worded := by
  refine Form.forall_parseAll (fun _ => Value.worded_list.mpr) _ fun t ht hword => ?_
  rcases Token.cases_of_mem_tokenize ht with rfl | rfl | hname
  · exact (hword.1 rfl).elim
  · exact (hword.2 rfl).elim
  · exact Value.worded_ofToken hname

/-- A name that may be bound to a value in a session of words. -/
def WordedBinding (b : String × Value) : Prop := IsName b.1 ∧ b.2.Worded

theorem Value.Worded.listing {v : Value} (hv : v.Worded) {name : String} (hname : IsName name) :
    Text.Listing (name ++ ": " ++ v.render) :=
  Text.listing_of_blanks hname.wordlike.blanks (Value.blanks_render hv)

namespace Evaluation

/-! ### Evaluation under a watch -/

/-- Evaluation under a watch that looks at every expression with the run of its evaluation: what it
objects to is replaced by something else. -/
def watched (watch : Value → Run Value → Bool) (instead : Action Value) (scripts : Scripts)
    (nesting : ℕ) : ℕ → Value → Action Value
  | 0 => fun _ => .fail .stackExhausted
  | limit + 1 => fun e c =>
    let after := step scripts nesting (watched watch instead scripts nesting limit) e c
    if watch e after then after else instead c

/-- An evaluation leaves only words behind, and each line that it has written has no blanks or is a
listing: it has none if `print` has written it and is a listing if `env` has. -/
structure LineSafe (e : Value) (r : Run Value) : Prop where
  bound : r.chain.Forall WordedBinding
  value : ∀ v, r.outcome = .ok v → v.Worded
  written : ∀ line ∈ r.lines, blanks line = [] ∨ Text.Listing line
  printed : ∀ args, e = .list (.sym SpecialForm.print.name :: args) →
    ∀ line ∈ r.lines, blanks line = []
  listed : ∀ args, e = .list (.sym SpecialForm.bindings.name :: args) →
    ∀ line ∈ r.lines, Text.Listing line

/-! ### The discipline of words -/

/-- Only words are read, bound and shown. -/
def Discipline.ofWords (scripts : Scripts) (nesting : ℕ) : Discipline scripts nesting where
  code := Value.Worded
  value := Value.Worded
  failure _ := True
  note _ := True
  name := IsName
  line line := blanks line = [] ∨ Text.Listing line
  code_item := Value.worded_list.mp
  code_body h e he := h.of_occurs (.body he .here)
  code_script _ _ := Form.worded_of_mem_parseAll
  value_code := id
  value_lambda h := by
    obtain ⟨-, h⟩ := List.forall_mem_cons.mp (Value.worded_list.mp h)
    obtain ⟨hparams, hbody⟩ := List.forall_mem_cons.mp h
    exact Value.worded_closure hparams hbody
  value_nil := Value.worded_nil
  value_bool := Value.worded_bool
  value_num := Value.worded_num
  value_list := Value.worded_list
  failure_error _ := trivial
  failure_function _ _ := trivial
  failure_exhausted := trivial
  failure_script _ := trivial
  code_name h := h.names _ .here
  value_params h _ hn := h.names _ (.params (.item hn .here))
  line_value h := Or.inl (Value.blanks_render h)
  line_binding hn hv := Or.inr (hv.listing hn)

/-! ### What is written -/

/-- `print` writes what its argument is or is bound to. -/
theorem mem_lines_evalPrint {args : List Value} {c : Chain} {line : String}
    (h : line ∈ (evalPrint args c).lines) :
    ∃ v : Value, line = v.render ∧ (v ∈ args ∨ ∃ name, c.lookup? name = some v) := by
  unfold evalPrint at h
  split at h
  · rename_i name
    cases hname : c.lookup? name with
    | none =>
      have hlookup : Action.lookup name c = ⟨.error (.error (.unbound name)), c, [], []⟩ := by
        rw [Action.lookup, hname]
      rw [Action.bind_error _ (by rw [hlookup]), hlookup] at h
      cases h
    | some v =>
      have hlookup : Action.lookup name c = ⟨.ok v, c, [], []⟩ := by
        rw [Action.lookup, hname]
      rw [Action.bind_ok _ (by rw [hlookup]), hlookup] at h
      exact ⟨v, List.mem_singleton.mp h, Or.inr ⟨name, hname⟩⟩
  · rename_i v _
    exact ⟨v, List.mem_singleton.mp h, Or.inl List.mem_cons_self⟩
  · cases h

/-- `env` writes the bindings of the innermost frame. -/
theorem mem_lines_evalBindings {args : List Value} {c : Chain} {line : String}
    (h : line ∈ (evalBindings args c).lines) :
    ∃ b ∈ c.inner.entries, line = b.1 ++ ": " ++ b.2.render := by
  cases args with
  | nil =>
    rw [evalBindings_apply, List.append_nil] at h
    obtain ⟨b, hb, rfl⟩ := List.mem_map.mp h
    exact ⟨b, (List.mergeSort_perm _ _).mem_iff.mp hb, rfl⟩
  | cons _ _ => cases h

section Watch

variable {scripts : Scripts} {nesting : ℕ}

/-- An evaluation that keeps to the discipline of words is line-safe. -/
theorem lineSafe_step {eval : Value → Action Value} {e : Value} {c : Chain} {r : Run Value}
    (he : e.Worded) (hc : c.Forall WordedBinding)
    (h : (Discipline.ofWords scripts nesting).simulation.Matches Value.Worded c c r
      (step scripts nesting eval e c)) : LineSafe e (step scripts nesting eval e c) where
  bound := h.chains.1 ▸ h.chains.2
  value v hv := h.value v (h.outcome.trans hv)
  written := h.lines ▸ h.written
  printed := by
    rintro args rfl line hline
    obtain ⟨v, rfl, hv | ⟨name, hname⟩⟩ := mem_lines_evalPrint hline
    · exact Value.blanks_render (Value.worded_list.mp he v (List.mem_cons_of_mem _ hv))
    · exact Value.blanks_render (hc.lookup hname).2
  listed := by
    rintro args rfl line hline
    obtain ⟨b, hb, rfl⟩ := mem_lines_evalBindings hline
    exact (hc.inner b hb).2.listing (hc.inner b hb).1

/-- **A watch that lets pass what is line-safe has nothing to object to**, while words are evaluated
among words. -/
theorem related_watched {watch : Value → Run Value → Bool}
    (hwatch : ∀ e r, LineSafe e r → watch e r = true) (instead : Action Value) :
    ∀ (limit : ℕ) (e : Value), e.Worded →
      (Discipline.ofWords scripts nesting).simulation.Related Value.Worded
        (evaluate scripts nesting limit e) (watched watch instead scripts nesting limit e)
  | 0, _, _ => Simulation.related_fail trivial
  | limit + 1, e, he => by
    have hstep := Simulation.related_step (S := (Discipline.ofWords scripts nesting).simulation)
      (related_watched hwatch instead limit) he
    rintro c _ ⟨rfl, hc⟩ -
    have hmatch := Discipline.matches hstep hc fun _ _ => trivial
    have hsafe := hwatch _ _ (lineSafe_step he hc hmatch)
    right
    unfold watched
    simp only [hsafe, if_true]
    exact hmatch

end Watch
end Evaluation

/-! ### Sessions -/

namespace Session

open Evaluation

variable {forms : List Value} {s : Session}

/-- A request to a session of words. -/
theorem matches_request_of_worded (hroot : ∀ b ∈ s.root.entries, WordedBinding b) (setup : Setup)
    (request : Request) {eval' : Value → Action Value}
    (heval : ∀ e : Value, e.Worded →
      (Discipline.ofWords setup.scripts setup.limits.nesting).simulation.Related Value.Worded
        (setup.evaluate e) (eval' e)) :
    (Discipline.ofWords setup.scripts setup.limits.nesting).simulation.Matches Value.Worded
      (.ofFrame s.root) (.ofFrame s.root)
      (request.action setup.scripts setup.limits.nesting setup.evaluate (.ofFrame s.root))
      (request.action setup.scripts setup.limits.nesting eval' (.ofFrame s.root)) :=
  Discipline.matches (Request.related_action heval fun _ _ => Form.worded_of_mem_parseAll)
    (Chain.forall_ofFrame hroot) fun _ _ => trivial

/-- **Sessions are made of words.** -/
theorem worded_of_reached (hs : Reached forms s) : ∀ b ∈ s.root.entries, WordedBinding b := by
  induction hs with
  | fresh =>
    refine Frame.forall_ofList fun b hb => ?_
    obtain ⟨p, hp, rfl⟩ := List.mem_map.mp hb
    have hnames : ∀ p ∈ Primitive.all, p.name ≠ "" ∧ Wordlike p.name := by decide
    exact ⟨⟨(hnames p hp).1, (hnames p hp).2⟩, Value.worded_prim p⟩
  | @next forms s setup request _ _ ih =>
    have h := matches_request_of_worded ih setup request fun e he =>
      Simulation.related_evaluate _ e he
    intro b hb
    rw [perform_eq_run] at hb
    exact h.chains.2.inner b hb

/-- **What a session shows has no line breaks.** Whatever a session has been asked for so far, and
however that ended, its names and texts are words. So are those in the result of any further
request, which is shown without blanks, and every line that is written on the way has no blanks or
one, the space behind a colon. All the time while the request is on its way a watch that lets pass
what is line-safe has nothing to object to: it is `env` that writes such spaces, and `print` writes
none. -/
theorem shows_no_line_breaks (hs : Reached forms s) :
    (∀ b ∈ s.root.entries, IsName b.1 ∧ b.2.Worded) ∧
    ∀ (setup : Setup) (request : Request),
      let reply := s.perform setup request
      (∀ v, reply.outcome = .ok v → v.Worded ∧ blanks v.render = []) ∧
      (∀ line ∈ reply.lines, (blanks line = [] ∨ Text.Listing line) ∧
        ∀ c ∈ line.toList, Text.isBlank c = true → c = ' ') ∧
      ∀ watch : Value → Run Value → Bool, (∀ e r, LineSafe e r → watch e r = true) →
        ∀ instead : Action Value, s.run (request.action setup.scripts setup.limits.nesting
          (watched watch instead setup.scripts setup.limits.nesting setup.limits.calls)) =
            reply := by
  have hroot := worded_of_reached hs
  refine ⟨hroot, fun setup request => ?_⟩
  have hmatch := matches_request_of_worded hroot setup request fun e he =>
    Simulation.related_evaluate _ e he
  refine ⟨fun v hv => ?_, fun line hline => ?_, fun watch hwatch instead => ?_⟩
  · rw [perform_eq_run] at hv
    have hworded := hmatch.value v hv
    exact ⟨hworded, Value.blanks_render hworded⟩
  · rw [perform_eq_run] at hline
    have hwritten := hmatch.written line hline
    exact ⟨hwritten, fun c hc hblank => Text.eq_space_of_isBlank hwritten hc hblank⟩
  · have h := matches_request_of_worded hroot setup request fun e he =>
      related_watched hwatch instead _ e he
    rw [perform_eq_run, run, run, h.outcome, h.lines, h.notes, h.chains.1]

/-- A watch that objects to a second blank in a line. -/
def oneBlankEach (_ : Value) (r : Run Value) : Bool :=
  r.lines.all fun line => (blanks line).length ≤ 1

/-- A closure that prints its argument and lists its frame, called with a list. -/
theorem shows_no_line_breaks_call :
    let setup : Setup := ⟨.ofList [], 9, 9⟩
    let first := fresh.perform setup (.eval "(let show (fn (x) (print x) (env)))")
    let request := Request.eval "(show (list \"a\" nil))"
    let reply := first.session.perform setup request
    reply.lines = ["(a,nil)", "x: (a,nil)"] ∧
      (∀ line ∈ reply.lines, blanks line = [] ∨ Text.Listing line) ∧
      first.session.run (request.action setup.scripts setup.limits.nesting
        (watched oneBlankEach (.raise .noToken) setup.scripts setup.limits.nesting
          setup.limits.calls)) = reply := by
  intro setup first request reply
  have hs : Reached _ first.session :=
    .next setup (.eval "(let show (fn (x) (print x) (env)))") (Scripts.onlyReadingFails_ofList [])
      .fresh
  have hwatch : ∀ e r, LineSafe e r → oneBlankEach e r = true := by
    intro e r h
    refine List.all_eq_true.mpr fun line hline => decide_eq_true ?_
    rcases h.written line hline with hnone | hlisting
    · rw [hnone]
      decide
    · rw [hlisting.blanks]
      decide
  obtain ⟨-, hall⟩ := shows_no_line_breaks hs
  obtain ⟨-, hlines, hwatched⟩ := hall setup request
  have hshown : reply.lines = ["(a,nil)", "x: (a,nil)"] := by decide +kernel
  exact ⟨hshown, fun line hline => (hlines line hline).1, hwatched oneBlankEach hwatch _⟩

end Session
end SmallLisp
