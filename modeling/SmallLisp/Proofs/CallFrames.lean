/-
# The frame that a closure is called in

What a call of a closure has done when its body begins. The arguments are evaluated from left to
right, each once and in the chain that the one before has left, the first in the one that the head
has left. Then a frame is made: its names are the parameters, each where it stands first, and a name
has the value of the argument at its last place. It is put inside the chain as the last argument has
left it, so that all other names mean what they mean there, at the call and after all that the
arguments have bound (`Evaluation.body_starts_in_own_frame`). When the body has ended, however that
may be, the chain is what the arguments have left, and what is written is in this order too.

Key theorems: `Frame.get?_ofList_zip`, `Evaluation.getElem?_trail`,
`Evaluation.evalAll_eq_afterAll`, `Evaluation.body_starts_in_own_frame`.
-/
import SmallLisp.Proofs.Confinement
import SmallLisp.Proofs.Inside
import SmallLisp.Proofs.Trails

namespace SmallLisp

namespace Frame

variable {names : List String} {values : List Value}

/-- Parameters stand in a frame in the order of their first places. -/
theorem names_ofList_zip (h : names.length = values.length) :
    (ofList (names.zip values)).names = names.eraseDups := by
  rw [names_ofList, List.map_fst_zip (Nat.le_of_eq h)]

/-- Of parameters with the same name the last one counts. -/
theorem get?_ofList_zip (h : names.length = values.length) {i : ℕ} (hi : i < names.length)
    (hlast : names[i] ∉ names.drop (i + 1)) :
    (ofList (names.zip values)).get? names[i] = values[i]? := by
  have hi' : i < values.length := h ▸ hi
  have hnames : names = names.take i ++ names[i] :: names.drop (i + 1) := by
    rw [← List.drop_eq_getElem_cons hi, List.take_append_drop]
  have hvalues : values = values.take i ++ values[i] :: values.drop (i + 1) := by
    rw [← List.drop_eq_getElem_cons hi', List.take_append_drop]
  have hlength : (names.take i).length = (values.take i).length := by
    rw [List.length_take, List.length_take, h]
  have hzip : names.zip values = (names.take i).zip (values.take i) ++
      (names[i], values[i]) :: (names.drop (i + 1)).zip (values.drop (i + 1)) := calc
    names.zip values = (names.take i ++ names[i] :: names.drop (i + 1)).zip
        (values.take i ++ values[i] :: values.drop (i + 1)) := by rw [← hnames, ← hvalues]
    _ = _ := by rw [List.zip_append hlength, List.zip_cons_cons]
  have hlater : (((names.drop (i + 1)).zip (values.drop (i + 1))).reverse).lookup names[i] =
      none := by
    refine List.lookup_eq_none_iff.mpr fun b hb => ?_
    have hmem : b.1 ∈ names.drop (i + 1) := (List.of_mem_zip (List.mem_reverse.mp hb)).1
    have hne : names[i] ≠ b.1 := fun heq => hlast (heq ▸ hmem)
    simpa using hne
  rw [get?_ofList, hzip, List.reverse_append, List.reverse_cons, List.append_assoc,
    List.lookup_append, hlater, Option.none_or, List.singleton_append, List.lookup_cons_self,
    List.getElem?_eq_getElem hi']

/-- A name that is no parameter is not bound in the frame of a call. -/
theorem get?_ofList_zip_of_notMem {name : String} (h : name ∉ names) :
    (ofList (names.zip values)).get? name = none := by
  rw [get?_ofList]
  refine List.lookup_eq_none_iff.mpr fun b hb => ?_
  have hmem : b.1 ∈ names := (List.of_mem_zip (List.mem_reverse.mp hb)).1
  have hne : name ≠ b.1 := fun heq => h (heq ▸ hmem)
  simpa using hne

end Frame

namespace Evaluation

section Arguments

variable {eval : Value → Action Value}

/-- Arguments that all have values are evaluated along their trail. -/
theorem evalAll_eq_afterAll : ∀ {args : List Value} {values : List Value} {c : Chain},
    (evalAll eval args c).outcome = .ok values →
      (trail eval c args).map Run.outcome = values.map .ok ∧
      evalAll eval args c = ⟨.ok values, (Run.afterAll .nil c (trail eval c args)).chain,
        (Run.afterAll .nil c (trail eval c args)).lines,
        (Run.afterAll .nil c (trail eval c args)).notes⟩
  | [], values, c, h => by
    obtain rfl : values = [] := (Except.ok.inj h).symm
    exact ⟨rfl, rfl⟩
  | e :: es, values, c, h => by
    obtain ⟨v, hv, hrest⟩ := Action.ok_of_bind h
    obtain ⟨vs, hvs, hvalues⟩ := Action.ok_of_bind hrest
    obtain rfl : values = v :: vs := (Except.ok.inj hvalues).symm
    obtain ⟨houtcomes, hrun⟩ := evalAll_eq_afterAll hvs
    have hrow : (evalAll eval es >>= fun vs => pure (v :: vs)) (eval e c).chain =
        ⟨.ok (v :: vs), (evalAll eval es (eval e c).chain).chain,
          (evalAll eval es (eval e c).chain).lines ++ [],
          (evalAll eval es (eval e c).chain).notes ++ []⟩ := Action.bind_ok _ hvs
    rw [trail_of_ok hv, Run.afterAll_cons hv, evalAll, Action.bind_ok _ hv, hrow, hrun,
      List.append_nil, List.append_nil]
    -- the value before a row plays no part in what the row leaves
    exact ⟨by rw [List.map_cons, List.map_cons, hv, houtcomes], rfl⟩

/-- Each expression is evaluated in the chain that those before it have left. -/
theorem getElem?_trail : ∀ {args : List Value} {c : Chain},
    (∀ r ∈ trail eval c args, ∃ v, r.outcome = .ok v) → ∀ (i : ℕ) (hi : i < args.length),
      (trail eval c args)[i]? =
        some (eval args[i] (Run.afterAll .nil c ((trail eval c args).take i)).chain)
  | [], _, _, _, hi => absurd hi (Nat.not_lt_zero _)
  | e :: es, c, h, i, hi => by
    cases hv : (eval e c).outcome with
    | error f =>
      obtain ⟨v, hok⟩ := h (eval e c) (by rw [trail_of_error hv]; exact List.mem_singleton_self _)
      cases hv.symm.trans hok
    | ok v =>
      rw [trail_of_ok hv] at h ⊢
      cases i with
      | zero => rfl
      | succ i =>
        have hrest := getElem?_trail (fun r hr => h r (List.mem_cons_of_mem _ hr)) i
          (Nat.lt_of_succ_lt_succ hi)
        rw [List.getElem?_cons_succ, hrest, List.take_succ_cons, Run.afterAll_cons hv]
        rfl

end Arguments

variable {scripts : Scripts} {nesting limit : ℕ} {c : Chain} {head : Value} {args body : List Value}
variable {names : List String} {values : List Value}

/-- **A body starts in a frame of its own.** Of a call whose head is a closure with as many symbols
for parameters as there are arguments, and whose arguments have values, the arguments are evaluated
one after another, each in the chain that the ones before have left, the first in that of the head.
The body then starts in a frame of the parameters, in the order of their first places and with the
values at their last ones, inside the chain that the last argument has left; so every other name
means there what it means in that chain. The outcome of the call is that of the body, its lines and
notes are those of the head, of the arguments and of the body in this order, and it leaves the chain
that the arguments have left. -/
theorem body_starts_in_own_frame (hform : SpecialForm.ofHead? head = none)
    (hhead : (evaluate scripts nesting limit head c).outcome =
      .ok (.closure (.list (names.map .sym)) body))
    (hcount : names.length = args.length)
    (hargs : (evalAll (evaluate scripts nesting limit) args
      (evaluate scripts nesting limit head c).chain).outcome = .ok values) :
    let eval := evaluate scripts nesting limit
    let first := eval head c
    ∃ (runs : List (Run Value)) (own : Frame),
      let called := Run.afterAll .nil first.chain runs
      let last := evalLast eval .nil body (called.chain.push own)
      (runs.map Run.outcome = values.map .ok ∧
        ∀ (i : ℕ) (hi : i < args.length), runs[i]? =
          some (eval args[i] (Run.afterAll .nil first.chain (runs.take i)).chain)) ∧
      (own.names = names.eraseDups ∧
        ∀ (i : ℕ) (hi : i < names.length), names[i] ∉ names.drop (i + 1) →
          own.get? names[i] = values[i]?) ∧
      (∀ name, name ∉ names →
        (called.chain.push own).lookup? name = called.chain.lookup? name) ∧
      evaluate scripts nesting (limit + 1) (.list (head :: args)) c =
        ⟨last.outcome, called.chain, first.lines ++ (called.lines ++ last.lines),
          first.notes ++ (called.notes ++ last.notes)⟩ := by
  intro eval first
  obtain ⟨houtcomes, hrun⟩ := evalAll_eq_afterAll hargs
  set runs := trail eval first.chain args
  set own := Frame.ofList (names.zip values)
  have hvalues : names.length = values.length := hcount.trans (length_of_evalAll_ok hargs).symm
  have hok : ∀ r ∈ runs, ∃ v, r.outcome = .ok v := by
    intro r hr
    have hmem : r.outcome ∈ values.map .ok := houtcomes ▸ List.mem_map_of_mem hr
    obtain ⟨v, -, hv⟩ := List.mem_map.mp hmem
    exact ⟨v, hv.symm⟩
  refine ⟨runs, own, ⟨houtcomes, getElem?_trail hok⟩, ⟨Frame.names_ofList_zip hvalues,
    fun i hi => Frame.get?_ofList_zip hvalues hi⟩, fun name hname => ?_, ?_⟩
  · rw [Chain.lookup?_push, Frame.get?_ofList_zip_of_notMem hname, Option.none_or]
  · set called := Run.afterAll .nil first.chain runs
    set last := evalLast eval .nil body (called.chain.push own)
    have hbody : (Action.within own (evalLast eval .nil body)) called.chain =
        ⟨last.outcome, called.chain, last.lines, last.notes⟩ := by
      have hpop : last.chain.pop = called.chain := chain_within_evalLast own body called.chain
      show Run.mk last.outcome last.chain.pop last.lines last.notes = _
      rw [hpop]
    have hclosure : call eval (.closure (.list (names.map .sym)) body) args first.chain =
        ⟨last.outcome, called.chain, called.lines ++ last.lines, called.notes ++ last.notes⟩ := by
      rw [call, callClosure_of_count_eq eval body args (formals_eq_ok_iff.mpr rfl) hcount,
        Action.bind_ok _ hargs, hrun, hbody]
    rw [evaluate_call scripts nesting limit hform args, Action.bind_ok _ hhead, hclosure]

/-- A repeated parameter, and a name that only an argument binds: the parameter stands first and has
the last value, and the body finds the name although it was not there when the head was evaluated.
The call has the value that the body has in this frame, and leaves the name bound. -/
theorem body_starts_in_own_frame_repeated :
    let eval := evaluate (.ofList []) 9 9
    let c := Chain.ofFrame .primitives
    let params : Value := .list (["a", "b", "a"].map .sym)
    let head : Value := .list [.sym "fn", params, .sym "x"]
    let args : List Value := [.list [.sym "let", .sym "x", .str "s"], .sym "x", .nil]
    let called := evaluate (.ofList []) 9 10 (.list (head :: args)) c
    SpecialForm.ofHead? head = none ∧
    (eval head c).outcome = .ok (.closure params [.sym "x"]) ∧
    (evalAll eval args (eval head c).chain).outcome = .ok [.sym "x", .str "s", .nil] ∧
    c.lookup? "x" = none ∧
    called = ⟨.ok (.str "s"), c.define "x" (.str "s"), [], []⟩ ∧
    ∃ own : Frame, own.names = ["a", "b"] ∧ own.get? "a" = some .nil ∧
      own.get? "b" = some (.str "s") ∧
      (called.chain.push own).lookup? "x" = some (.str "s") ∧
      (evalLast eval .nil [.sym "x"] (called.chain.push own)).outcome = called.outcome := by
  intro eval c params head args called
  have hhead : (eval head c).outcome = .ok (.closure params [.sym "x"]) := rfl
  have hargs : (evalAll eval args (eval head c).chain).outcome =
      .ok [.sym "x", .str "s", .nil] := rfl
  have hcount : ["a", "b", "a"].length = args.length := rfl
  have hcalled : called = ⟨.ok (.str "s"), c.define "x" (.str "s"), [], []⟩ := rfl
  obtain ⟨runs, own, -, ⟨hnames, hvalues⟩, hothers, hcall⟩ :=
    body_starts_in_own_frame rfl hhead hcount hargs
  have houtcome := congrArg Run.outcome hcall
  have hchain := congrArg Run.chain hcall
  have hlookup := hothers "x" (by decide)
  simp only at houtcome hchain hlookup
  -- what the call leaves is the chain that its body began in
  rw [← hchain] at houtcome hlookup
  refine ⟨rfl, hhead, hargs, rfl, hcalled, own, hnames.trans (by decide),
    hvalues 2 (by decide) (by decide), hvalues 1 (by decide) (by decide), hlookup.trans ?_,
    houtcome.symm⟩
  rfl

end Evaluation
end SmallLisp
