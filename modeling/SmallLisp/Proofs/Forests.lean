/-
# What is seen in a forest

Frames that share the frames around them are made, and names are bound in them, one operation after
another; an operation may fail, and one that binds several names may fail half-way. What is told
here is a history (`Forest.Event`): which frames were made around which, and which names were bound
in which frame to which values. From it follows all that a forest shows. A frame is what was bound
in it, in the order of the history (`Forest.Stands`), so a name means from a frame what it was last
bound to in the nearest frame, on the way outwards, in which it ever was bound
(`Forest.lastSeen`). A way outwards goes to older frames all the time and so it ends.

Key definitions: `Forest.Op`, `Forest.Event`, `Forest.Reached`, `Forest.Way`, `Forest.lastSeen`.
Key theorems: `Forest.told_of_reached`, `Forest.chain_eq_of_way`, `Forest.sees_last_definitions`.
-/
import SmallLisp.Forest
import SmallLisp.Proofs.Chains

namespace SmallLisp

/-! ### Frames -/

namespace Frame

/-- The bindings that can be made one after another: those before the first name that is no
symbol. -/
def bindable : List (Value × Value) → List (String × Value)
  | (.sym name, value) :: rest => (name, value) :: bindable rest
  | _ => []

/-- The error at the first name that is no symbol, if there is one. -/
def fault? : List (Value × Value) → Option LispError
  | [] => none
  | (.sym _, _) :: rest => fault? rest
  | (key, _) :: _ => some (.notASymbol key)

theorem defineUntil_eq : ∀ (bindings : List (Value × Value)) (f : Frame),
    f.defineUntil bindings = (f.defineAll (bindable bindings), fault? bindings)
  | [], _ => rfl
  | (key, value) :: rest, f => by
    cases key with
    | sym name =>
      rw [defineUntil, defineUntil_eq rest, bindable, fault?]
      rfl
    | _ => rfl

theorem bindable_append {before : List (Value × Value)} (h : fault? before = none)
    (rest : List (Value × Value)) : bindable (before ++ rest) = bindable before ++ bindable rest ∧
      fault? (before ++ rest) = fault? rest := by
  induction before with
  | nil => exact ⟨rfl, rfl⟩
  | cons b before ih =>
    obtain ⟨key, value⟩ := b
    cases key with
    | sym name =>
      obtain ⟨hbindable, hfault⟩ := ih h
      exact ⟨congrArg ((name, value) :: ·) hbindable, hfault⟩
    | _ => cases h

end Frame

namespace Forest

/-! ### Operations and what they do -/

/-- What is done to a forest. -/
inductive Op where
  | new (outer : Option ℕ) (bindings : List (Value × Value))
  | define (frame : ℕ) (name value : Value)
  | update (frame : ℕ) (bindings : List (Value × Value))

/-- An operation is about frames of a forest of some size. -/
def Op.Fits (size : ℕ) : Op → Prop
  | .new outer _ => ∀ i ∈ outer, i < size
  | .define i _ _ => i < size
  | .update i _ => i < size

instance (size : ℕ) : ∀ op : Op, Decidable (op.Fits size)
  | .new outer _ => inferInstanceAs (Decidable (∀ i ∈ outer, i < size))
  | .define i _ _ => inferInstanceAs (Decidable (i < size))
  | .update i _ => inferInstanceAs (Decidable (i < size))

/-- The forest after an operation, and the error with which the operation fails. -/
def perform (forest : Forest) : Op → Forest × Option LispError
  | .new outer bindings =>
    match forest.new outer bindings with
    | .ok after => (after, none)
    | .error e => (forest, some e)
  | .define i name value =>
    match forest.define i name value with
    | .ok after => (after, none)
    | .error e => (forest, some e)
  | .update i bindings => forest.update i bindings

/-- What happens in a forest. -/
inductive Event where
  /-- One more frame is made. -/
  | made (outer : Option ℕ)
  /-- A name is bound in a frame. -/
  | bound (frame : ℕ) (name : String) (value : Value)

def Event.outer? : Event → Option (Option ℕ)
  | .made outer => some outer
  | .bound .. => none

def Event.binding? (i : ℕ) : Event → Option (String × Value)
  | .made _ => none
  | .bound j name value => if j = i then some (name, value) else none

def bindingsIn (i : ℕ) (bindings : List (String × Value)) : List Event :=
  bindings.map fun b => .bound i b.1 b.2

/-- What an operation makes happen in a forest of some size. Several bindings are those of a
mapping; of one that has a name which is no symbol those before it are made, but there is no new
frame then. -/
def Op.events (size : ℕ) : Op → List Event
  | .new outer bindings =>
    match Frame.fault? (Frame.collapse bindings) with
    | none => .made outer :: bindingsIn size (Frame.bindable (Frame.collapse bindings))
    | some _ => []
  | .define i name value => bindingsIn i (Frame.bindable [(name, value)])
  | .update i bindings => bindingsIn i (Frame.bindable (Frame.collapse bindings))

/-- The forests that operations on existing frames lead to, with all that has happened. -/
inductive Reached : List Event → Forest → Prop
  | empty : Reached [] .empty
  | next {history : List Event} {forest : Forest} (op : Op) : op.Fits forest.size →
    Reached history forest →
      Reached (history ++ op.events forest.size) (forest.perform op).1

/-! ### Histories -/

/-- The frames that were made around each frame made, in order. -/
def outers (history : List Event) : List (Option ℕ) := history.filterMap Event.outer?

/-- What was bound in a frame, in order. -/
def boundIn (i : ℕ) (history : List Event) : List (String × Value) :=
  history.filterMap (Event.binding? i)

/-- The value that a name was last bound to in a frame. -/
def lastBound (history : List Event) (i : ℕ) (name : String) : Option Value :=
  (boundIn i history).reverse.lookup name

/-- The frames from one outwards. -/
inductive Way (outers : List (Option ℕ)) : ℕ → List ℕ → Prop
  | outermost {i : ℕ} : outers[i]? = some none → Way outers i [i]
  | outwards {i k : ℕ} {way : List ℕ} : outers[i]? = some (some k) → Way outers k way →
    Way outers i (i :: way)

/-- The nearest frame on a way in which a name was ever bound, and the value it was last bound to
there. -/
def lastSeen (history : List Event) (way : List ℕ) (name : String) : Option (ℕ × Value) :=
  way.findSome? fun i => (lastBound history i name).map (i, ·)

section Histories

variable {i j : ℕ}

theorem outers_append (history events : List Event) :
    outers (history ++ events) = outers history ++ outers events := List.filterMap_append

theorem boundIn_append (i : ℕ) (history events : List Event) :
    boundIn i (history ++ events) = boundIn i history ++ boundIn i events := List.filterMap_append

theorem outers_bindingsIn (i : ℕ) : ∀ bindings : List (String × Value),
    outers (bindingsIn i bindings) = []
  | [] => rfl
  | _ :: rest => outers_bindingsIn i rest

theorem boundIn_bindingsIn (i : ℕ) : ∀ bindings : List (String × Value),
    boundIn i (bindingsIn i bindings) = bindings
  | [] => rfl
  | b :: rest => by
    have hrest := boundIn_bindingsIn i rest
    simp only [boundIn, bindingsIn] at hrest ⊢
    simp [Event.binding?, hrest]

theorem boundIn_bindingsIn_of_ne (h : j ≠ i) : ∀ bindings : List (String × Value),
    boundIn i (bindingsIn j bindings) = []
  | [] => rfl
  | b :: rest => by
    have hrest := boundIn_bindingsIn_of_ne h rest
    simp only [boundIn, bindingsIn] at hrest ⊢
    simp [Event.binding?, h, hrest]

end Histories

/-! ### A forest and its history -/

/-- Nodes are as a history tells: around each is what it was made around, which is older, and in it
is what was bound there. -/
def Stands (history : List Event) : List Node → Prop
  | [] => True
  | node :: older => (outers history)[older.length]? = some node.outer ∧
    (∀ k, node.outer = some k → k < older.length) ∧
    node.frame = .ofList (boundIn older.length history) ∧ Stands history older

/-- A forest is as a history tells. -/
structure Told (history : List Event) (forest : Forest) : Prop where
  size : (outers history).length = forest.size
  /-- Nothing is bound in frames that are still to be made. -/
  unborn : ∀ i, forest.size ≤ i → boundIn i history = []
  stands : Stands history forest.nodes

section Told

variable {history : List Event} {forest : Forest} {i : ℕ}

/-- What happens elsewhere leaves nodes as they are. -/
theorem Stands.elsewhere {events : List Event} : ∀ {nodes : List Node}, Stands history nodes →
    (∀ k < nodes.length, boundIn k events = []) → Stands (history ++ events) nodes
  | [], _, _ => trivial
  | node :: older, ⟨houter, hless, hframe, hstands⟩, helse => by
    have hlen : older.length < (outers history).length := (List.getElem?_eq_some_iff.mp houter).1
    refine ⟨?_, hless, ?_, hstands.elsewhere fun k hk => helse k (Nat.lt_succ_of_lt hk)⟩
    · rw [outers_append, List.getElem?_append_left hlen, houter]
    · rw [boundIn_append, helse older.length (Nat.lt_succ_self _), List.append_nil, hframe]

theorem length_modifyIn (change : Frame → Frame) (i : ℕ) : ∀ nodes : List Node,
    (modifyIn change i nodes).length = nodes.length
  | [] => rfl
  | node :: older => by
    unfold modifyIn
    split
    · rfl
    · rw [List.length_cons, length_modifyIn change i older, List.length_cons]

/-- What is bound in one frame is there, behind what was. -/
theorem Stands.bind (bindings : List (String × Value)) : ∀ {nodes : List Node},
    Stands history nodes →
      Stands (history ++ bindingsIn i bindings) (modifyIn (·.defineAll bindings) i nodes)
  | [], _ => trivial
  | node :: older, ⟨houter, hless, hframe, hstands⟩ => by
    have hlen : older.length < (outers history).length := (List.getElem?_eq_some_iff.mp houter).1
    have houter' :
        (outers (history ++ bindingsIn i bindings))[older.length]? = some node.outer := by
      rw [outers_append, List.getElem?_append_left hlen, houter]
    unfold modifyIn
    -- the node is the one in question, or that one is older
    split
    · rename_i hi
      refine ⟨houter', hless, ?_, hstands.elsewhere fun k hk => ?_⟩
      · rw [boundIn_append, ← hi, boundIn_bindingsIn, ← Frame.ofList_append, hi, hframe]
      · exact boundIn_bindingsIn_of_ne (by omega) bindings
    · rename_i hi
      refine ⟨?_, ?_, ?_, hstands.bind bindings⟩
      · rw [length_modifyIn, houter']
      · rw [length_modifyIn]
        exact hless
      · rw [length_modifyIn, boundIn_append, boundIn_bindingsIn_of_ne hi, List.append_nil, hframe]

theorem Told.bind (h : Told history forest) (hi : i < forest.size)
    (bindings : List (String × Value)) :
    Told (history ++ bindingsIn i bindings) (forest.modify i (·.defineAll bindings)) := by
  have hsize : (forest.modify i (·.defineAll bindings)).size = forest.size :=
    length_modifyIn _ i forest.nodes
  refine ⟨?_, fun k hk => ?_, h.stands.bind bindings⟩
  · rw [hsize, outers_append, outers_bindingsIn, List.append_nil, h.size]
  · rw [hsize] at hk
    rw [boundIn_append, h.unborn k hk, boundIn_bindingsIn_of_ne (by omega)]
    rfl

theorem Told.make (h : Told history forest) {outer : Option ℕ}
    (houter : ∀ k, outer = some k → k < forest.size) (bindings : List (String × Value)) :
    Told (history ++ .made outer :: bindingsIn forest.size bindings)
      ⟨⟨outer, .ofList bindings⟩ :: forest.nodes⟩ := by
  have hmade : outers (.made outer :: bindingsIn forest.size bindings) = [outer] :=
    congrArg (outer :: ·) (outers_bindingsIn forest.size bindings)
  have hbound : ∀ k, boundIn k (.made outer :: bindingsIn forest.size bindings) =
      boundIn k (bindingsIn forest.size bindings) := fun k => rfl
  refine ⟨?_, fun k hk => ?_, ?_, houter, ?_, h.stands.elsewhere fun k hk => ?_⟩
  · rw [outers_append, hmade, List.length_append, h.size]
    rfl
  · have hk' : forest.size + 1 ≤ k := hk
    rw [boundIn_append, hbound, h.unborn k (by omega), boundIn_bindingsIn_of_ne (by omega)]
    rfl
  · show (outers _)[forest.size]? = some outer
    rw [outers_append, hmade, ← h.size, List.getElem?_concat_length]
  · show Frame.ofList bindings = .ofList (boundIn forest.size _)
    rw [boundIn_append, hbound, h.unborn forest.size (Nat.le_refl _), boundIn_bindingsIn,
      List.nil_append]
  · have hk' : k < forest.size := hk
    rw [hbound, boundIn_bindingsIn_of_ne (by omega)]

/-- Several bindings are made in order, up to the first name that is no symbol. -/
theorem update_eq (forest : Forest) (i : ℕ) (bindings : List (Value × Value)) :
    forest.update i bindings =
      (forest.modify i (·.defineAll (Frame.bindable (Frame.collapse bindings))),
        Frame.fault? (Frame.collapse bindings)) := by
  simp only [update, Frame.update, Frame.defineUntil_eq]

theorem modify_nil (forest : Forest) (i : ℕ) : forest.modify i (·.defineAll []) = forest := by
  have hnodes : ∀ nodes : List Node, modifyIn (·.defineAll []) i nodes = nodes := by
    intro nodes
    induction nodes with
    | nil => rfl
    | cons node older ih =>
      unfold modifyIn
      split
      · rfl
      · rw [ih]
  exact congrArg Forest.mk (hnodes forest.nodes)

theorem perform_define (forest : Forest) (i : ℕ) (name value : Value) :
    forest.perform (.define i name value) =
      (forest.modify i (·.defineAll (Frame.bindable [(name, value)])),
        Frame.fault? [(name, value)]) := by
  cases name with
  | sym n => rfl
  | _ =>
    show (forest, _) = (forest.modify i (·.defineAll []), _)
    rw [modify_nil]
    rfl

theorem perform_new (forest : Forest) (outer : Option ℕ) (bindings : List (Value × Value)) :
    forest.perform (.new outer bindings) =
      match Frame.fault? (Frame.collapse bindings) with
      | none =>
        (⟨⟨outer, .ofList (Frame.bindable (Frame.collapse bindings))⟩ :: forest.nodes⟩, none)
      | some e => (forest, some e) := by
  simp only [perform, new, Frame.update, Frame.defineUntil_eq]
  cases Frame.fault? (Frame.collapse bindings) <;> rfl

/-- **What happens is told.** -/
theorem told_perform (h : Told history forest) {op : Op} (hfits : op.Fits forest.size) :
    Told (history ++ op.events forest.size) (forest.perform op).1 := by
  cases op with
  | new outer bindings =>
    rw [perform_new, Op.events]
    cases Frame.fault? (Frame.collapse bindings) with
    | none => exact h.make hfits _
    | some e =>
      simp only [List.append_nil]
      exact h
  | define j name value =>
    rw [perform_define]
    exact h.bind hfits _
  | update j bindings =>
    rw [perform, update_eq]
    exact h.bind hfits _

theorem told_of_reached (h : Reached history forest) : Told history forest := by
  induction h with
  | empty => exact ⟨rfl, fun _ _ => rfl, trivial⟩
  | next op hfits _ ih => exact told_perform ih hfits

/-! ### Ways outwards -/

/-- From every frame there is a way outwards, to older frames all the time. -/
theorem exists_way : ∀ {nodes : List Node}, Stands history nodes → ∀ i < nodes.length,
    ∃ way, Way (outers history) i way ∧ (∀ k ∈ way, k ≤ i) ∧ way.Pairwise (· > ·)
  | node :: older, ⟨houter, hless, _, hstands⟩, i, hi => by
    rcases Nat.lt_or_ge i older.length with hold | hnew
    · exact exists_way hstands i hold
    · obtain rfl : i = older.length := Nat.le_antisymm (Nat.le_of_lt_succ hi) hnew
      cases hnode : node.outer with
      | none => exact ⟨[older.length], .outermost (hnode ▸ houter), by simp, by simp⟩
      | some k =>
        have hk := hless k hnode
        obtain ⟨way, hway, hle, hdown⟩ := exists_way hstands k hk
        refine ⟨older.length :: way, .outwards (hnode ▸ houter) hway, ?_, ?_⟩
        · intro k' hk'
          rcases List.mem_cons.mp hk' with rfl | hk'
          · exact Nat.le_refl _
          · exact Nat.le_trans (hle k' hk') (Nat.le_of_lt hk)
        · exact List.pairwise_cons.mpr ⟨fun k' hk' => Nat.lt_of_le_of_lt (hle k' hk') hk, hdown⟩

/-- **Names are looked up along the way outwards**, in frames of what was bound there. -/
theorem chain_eq_of_way : ∀ {nodes : List Node}, Stands history nodes → ∀ {i : ℕ} {way : List ℕ},
    i < nodes.length → Way (outers history) i way →
      chainIn nodes i = way.map fun k => (k, .ofList (boundIn k history))
  | node :: older, ⟨houter, hless, hframe, hstands⟩, i, way, hi, hway => by
    unfold chainIn
    split
    · rename_i hnew
      rw [← hnew] at houter
      cases hway with
      | outermost hroot =>
        have hnode : node.outer = none := Option.some.inj (houter.symm.trans hroot)
        rw [hnode, hframe, ← hnew]
        rfl
      | @outwards _ k rest hstep hrest =>
        have hnode : node.outer = some k := Option.some.inj (houter.symm.trans hstep)
        rw [hnode, hframe, ← hnew, List.map_cons]
        exact congrArg _ (chain_eq_of_way hstands (hless k hnode) hrest)
    · rename_i hold
      have hi' : i < older.length + 1 := hi
      exact chain_eq_of_way hstands (by omega) hway

theorem frame_eq (h : Told history forest) (hi : i < forest.size) :
    forest.frame i = .ofList (boundIn i history) := by
  obtain ⟨way, hway, -⟩ := exists_way h.stands i hi
  have hchain : forest.chain i = way.map fun k => (k, .ofList (boundIn k history)) :=
    chain_eq_of_way h.stands hi hway
  unfold frame
  rw [hchain]
  cases hway <;> rfl

/-- A name is found where it is seen in the history. -/
theorem locate?_eq (h : Told history forest) (hi : i < forest.size) {way : List ℕ}
    (hway : Way (outers history) i way) (name : String) :
    forest.locate? i (.sym name) = lastSeen history way name := by
  have hchain : forest.chain i = way.map fun k => (k, .ofList (boundIn k history)) :=
    chain_eq_of_way h.stands hi hway
  simp only [locate?, Value.symbolName?, hchain, List.findSome?_map, lastSeen, lastBound,
    Function.comp_def, Frame.get?_ofList]

theorem lookup_eq (h : Told history forest) (hi : i < forest.size) {way : List ℕ}
    (hway : Way (outers history) i way) (name : String) :
    forest.lookup i (.sym name) =
      match lastSeen history way name with
      | some (_, v) => .ok v
      | none => .error (.unbound name) := by
  rw [lookup, get?, locate?_eq h hi hway]
  cases lastSeen history way name <;> rfl

theorem lastSeen_eq_none_iff {way : List ℕ} {name : String} :
    lastSeen history way name = none ↔ ∀ i ∈ way, lastBound history i name = none := by
  simp [lastSeen]

/-! ### What one definition changes -/

theorem lastBound_bound (history : List Event) (i k : ℕ) (name other : String) (value : Value) :
    lastBound (history ++ bindingsIn i [(name, value)]) k other =
      if i = k ∧ name = other then some value else lastBound history k other := by
  rw [lastBound, boundIn_append]
  by_cases hi : i = k
  · rw [hi, boundIn_bindingsIn, List.reverse_append]
    by_cases hname : name = other
    · simp [hname]
    · have hne : (other == name) = false := beq_eq_false_iff_ne.mpr fun e => hname e.symm
      simp [List.lookup_cons, hne, hname, lastBound]
  · rw [boundIn_bindingsIn_of_ne hi, List.append_nil, if_neg fun h => hi h.1]
    rfl

/-- A definition is seen only on a way through its frame, and only if its name is bound nowhere
before. -/
theorem exists_of_lastSeen_ne {name other : String} (value : Value) : ∀ {way : List ℕ},
    lastSeen (history ++ bindingsIn i [(name, value)]) way other ≠ lastSeen history way other →
      other = name ∧ ∃ nearer farther, way = nearer ++ i :: farther ∧
        ∀ k ∈ nearer, lastBound history k name = none
  | [], h => (h rfl).elim
  | k :: way, h => by
    simp only [lastSeen, List.findSome?_cons, lastBound_bound] at h
    -- a frame that binds the name hides all that are farther out, changed or not
    by_cases hhere : i = k ∧ name = other
    · obtain ⟨rfl, rfl⟩ := hhere
      exact ⟨rfl, [], way, rfl, by simp⟩
    · rw [if_neg hhere] at h
      cases hbound : lastBound history k other with
      | some v =>
        rw [hbound] at h
        exact (h rfl).elim
      | none =>
        rw [hbound] at h
        have hrest : lastSeen (history ++ bindingsIn i [(name, value)]) way other ≠
            lastSeen history way other := by simpa [lastSeen, lastBound_bound] using h
        obtain ⟨rfl, nearer, farther, rfl, hnone⟩ := exists_of_lastSeen_ne value hrest
        exact ⟨rfl, k :: nearer, farther, rfl, List.forall_mem_cons.mpr ⟨hbound, hnone⟩⟩

theorem told_define (h : Told history forest) (hi : i < forest.size) (name : String)
    (value : Value) : Told (history ++ bindingsIn i [(name, value)])
      (forest.perform (.define i (.sym name) value)).1 :=
  h.bind hi [(name, value)]

theorem size_define (forest : Forest) (i : ℕ) (name : String) (value : Value) :
    (forest.perform (.define i (.sym name) value)).1.size = forest.size :=
  length_modifyIn _ i forest.nodes

/-- What a definition changes from a frame is seen on the way. -/
theorem exists_of_lookup_ne (h : Told history forest) {j : ℕ} (hi : i < forest.size)
    (hj : j < forest.size) {way : List ℕ} (hway : Way (outers history) j way)
    {name other : String} {value : Value}
    (hne : (forest.perform (.define i (.sym name) value)).1.lookup j (.sym other) ≠
      forest.lookup j (.sym other)) :
    other = name ∧ ∃ nearer farther, way = nearer ++ i :: farther ∧
      ∀ k ∈ nearer, lastBound history k name = none := by
  have hafter := told_define h hi name value
  have houters : outers (history ++ bindingsIn i [(name, value)]) = outers history := by
    rw [outers_append, outers_bindingsIn, List.append_nil]
  have hj' : j < (forest.perform (.define i (.sym name) value)).1.size := by rwa [size_define]
  apply exists_of_lastSeen_ne value
  intro hseen
  apply hne
  rw [lookup_eq hafter hj' (houters ▸ hway), lookup_eq h hj hway, hseen]

/-- Binding a name again changes no place. -/
theorem names_frame_define (h : Told history forest) (hi : i < forest.size) {name : String}
    (hname : name ∈ (forest.frame i).names) (value : Value) :
    ((forest.perform (.define i (.sym name) value)).1.frame i).names = (forest.frame i).names := by
  have hi' : i < (forest.perform (.define i (.sym name) value)).1.size := by rwa [size_define]
  have hframe : (forest.perform (.define i (.sym name) value)).1.frame i =
      (forest.frame i).define name value := by
    rw [frame_eq (told_define h hi name value) hi', frame_eq h hi, boundIn_append,
      boundIn_bindingsIn, ← Frame.ofList_append]
    rfl
  rw [hframe, Frame.names_define, if_pos hname]

/-! ### Several definitions -/

theorem modify_modify (forest : Forest) (i : ℕ) (change further : Frame → Frame) :
    (forest.modify i change).modify i further = forest.modify i fun f => further (change f) := by
  have hnodes : ∀ nodes : List Node, modifyIn further i (modifyIn change i nodes) =
      modifyIn (fun f => further (change f)) i nodes := by
    intro nodes
    induction nodes with
    | nil => rfl
    | cons node older ih =>
      by_cases hi : i = older.length
      · simp only [modifyIn, if_pos hi]
      · simp only [modifyIn, if_neg hi, length_modifyIn, ih]
  exact congrArg Forest.mk (hnodes forest.nodes)

/-- Bindings of symbols made together are made one after another. -/
theorem foldl_perform_define (i : ℕ) : ∀ (bindings : List (Value × Value)) (forest : Forest),
    (∀ b ∈ bindings, ∃ name, b.1 = .sym name) →
      bindings.foldl (fun forest b => (forest.perform (.define i b.1 b.2)).1) forest =
        forest.modify i (·.defineAll (Frame.bindable bindings))
  | [], forest, _ => (modify_nil forest i).symm
  | (key, value) :: rest, forest, h => by
    obtain ⟨name, rfl⟩ : ∃ name, key = .sym name := h _ List.mem_cons_self
    rw [List.foldl_cons, foldl_perform_define i rest _ fun b hb => h b (List.mem_cons_of_mem _ hb)]
    exact modify_modify forest i _ _

theorem fault?_eq_none : ∀ {bindings : List (Value × Value)},
    (∀ b ∈ bindings, ∃ name, b.1 = .sym name) → Frame.fault? bindings = none
  | [], _ => rfl
  | (key, value) :: rest, h => by
    obtain ⟨name, rfl⟩ : ∃ name, key = .sym name := h _ List.mem_cons_self
    show Frame.fault? rest = none
    exact fault?_eq_none fun b hb => h b (List.mem_cons_of_mem _ hb)

/-- What comes from the first name that is no symbol on is not bound. -/
theorem bindable_of_fault {before : List (Value × Value)} {key : Value} (value : Value)
    (after : List (Value × Value)) (hbefore : ∀ b ∈ before, ∃ name, b.1 = .sym name)
    (hkey : ∀ name, key ≠ .sym name) :
    Frame.bindable (before ++ (key, value) :: after) = Frame.bindable before ∧
      Frame.fault? (before ++ (key, value) :: after) = some (.notASymbol key) := by
  obtain ⟨hbindable, hfault⟩ :=
    Frame.bindable_append (fault?_eq_none hbefore) ((key, value) :: after)
  rw [hbindable, hfault]
  cases key with
  | sym name => exact (hkey name rfl).elim
  | _ => exact ⟨List.append_nil _, rfl⟩

end Told

/-- **Names mean what they were last bound to in the nearest frame that ever bound them.** Let
operations on existing frames, failing or not, have led to a forest. From every frame there is a way
outwards, to older frames all the time; a symbol has the value that it was last bound to in the
first frame on the way in which it ever was bound, and is unbound exactly if there is none; finding
it, getting it and asking for it agree with this. A definition changes what a symbol means from a
frame only if it is of that symbol, in a frame on the way, and the symbol is bound in no frame
before that one. Of a mapping that has a name which is no symbol exactly the bindings before it are
made, and no frame. The names of a frame stand in the order of their first bindings, and binding one
of them again changes no place. -/
theorem sees_last_definitions {history : List Event} {forest : Forest}
    (h : Reached history forest) :
    (∀ j < forest.size, ∃ way, Way (outers history) j way ∧ way.Pairwise (· > ·) ∧
      (∀ name : String,
        (∀ v, forest.lookup j (.sym name) = .ok v ↔ ∃ i, lastSeen history way name = some (i, v)) ∧
        (forest.lookup j (.sym name) = .error (.unbound name) ↔
          ∀ i ∈ way, lastBound history i name = none) ∧
        forest.find? j (.sym name) = (lastSeen history way name).map Prod.fst ∧
        forest.get? j (.sym name) = (lastSeen history way name).map Prod.snd ∧
        forest.contains j (.sym name) = (lastSeen history way name).isSome) ∧
      ∀ i < forest.size, ∀ (name other : String) (value : Value),
        (forest.perform (.define i (.sym name) value)).1.lookup j (.sym other) ≠
          forest.lookup j (.sym other) →
        other = name ∧ ∃ nearer farther, way = nearer ++ i :: farther ∧
          ∀ k ∈ nearer, (forest.frame k).get? name = none) ∧
    (∀ (bindings before after : List (Value × Value)) (key value : Value),
      Frame.collapse bindings = before ++ (key, value) :: after →
      (∀ b ∈ before, ∃ name, b.1 = .sym name) → (∀ name, key ≠ .sym name) →
      (∀ i, forest.perform (.update i bindings) =
        (before.foldl (fun forest b => (forest.perform (.define i b.1 b.2)).1) forest,
          some (.notASymbol key))) ∧
      ∀ outer, forest.perform (.new outer bindings) = (forest, some (.notASymbol key))) ∧
    ∀ i < forest.size,
      (forest.frame i).names = ((boundIn i history).map Prod.fst).eraseDups ∧
      ∀ name ∈ (forest.frame i).names, ∀ value,
        ((forest.perform (.define i (.sym name) value)).1.frame i).names =
          (forest.frame i).names := by
  have htold := told_of_reached h
  refine ⟨fun j hj => ?_, fun bindings before after key value hbindings hbefore hkey => ?_,
    fun i hi => ⟨?_, fun name hname value => ?_⟩⟩
  · obtain ⟨way, hway, hle, hdown⟩ := exists_way htold.stands j hj
    refine ⟨way, hway, hdown, fun name => ?_, fun i hi name other value hne => ?_⟩
    · have hlocate := locate?_eq htold hj hway name
      have hlookup := lookup_eq htold hj hway name
      refine ⟨fun v => ?_, ?_, ?_, ?_, ?_⟩
      · rw [hlookup]
        cases hseen : lastSeen history way name with
        | none => simp
        | some found => simp [Prod.ext_iff]
      · rw [hlookup, ← lastSeen_eq_none_iff]
        cases hseen : lastSeen history way name <;> simp
      · rw [find?, hlocate]
      · rw [get?, hlocate]
      · rw [contains, find?, hlocate, Option.isSome_map]
    · obtain ⟨hname, nearer, farther, hsplit, hnone⟩ := exists_of_lookup_ne htold hi hj hway hne
      refine ⟨hname, nearer, farther, hsplit, fun k hk => ?_⟩
      have hkj : k ≤ j := hle k (hsplit ▸ List.mem_append_left _ hk)
      rw [frame_eq htold (by omega), Frame.get?_ofList]
      exact hnone k hk
  · have hfault := bindable_of_fault value after hbefore hkey
    rw [← hbindings] at hfault
    refine ⟨fun i => ?_, fun outer => ?_⟩
    · rw [perform, update_eq, hfault.1, hfault.2, foldl_perform_define i before forest hbefore]
    · rw [perform_new, hfault.2]
  · rw [frame_eq htold hi, Frame.names_ofList]
  · exact names_frame_define htold hi hname value

/-- A frame inside another one, with a bad mapping for one more frame and for the inner one, and a
name that is bound in both. -/
theorem sees_last_definitions_shared :
    let yes : Value := .bool true
    let mapping : List (Value × Value) := [(.sym "y", yes), (.nil, yes), (.sym "x", .nil)]
    let ops : List Op := [.new none [(.sym "x", yes)], .new (some 0) [], .new (some 0) mapping,
      .update 1 mapping, .define 0 (.sym "y") .nil]
    let forest := ops.foldl (fun forest op => (forest.perform op).1) empty
    let history : List Event := [.made none, .bound 0 "x" yes, .made (some 0), .bound 1 "y" yes,
      .bound 0 "y" .nil]
    Reached history forest ∧ forest.size = 2 ∧
    (∃ way, Way (outers history) 1 way ∧ (lastSeen history way "x").map Prod.fst = some 0 ∧
      (∃ i, lastSeen history way "y" = some (i, yes)) ∧ ∀ i ∈ way, lastBound history i "z" = none) ∧
    (Frame.collapse mapping = [(.sym "y", yes)] ++ (.nil, yes) :: [(.sym "x", .nil)] ∧
      forest.perform (.new (some 0) mapping) = (forest, some (.notASymbol .nil))) ∧
    (forest.frame 0).names = ["x", "y"] := by
  intro yes mapping ops forest history
  have h : Reached history forest :=
    .next (.define 0 (.sym "y") .nil) (by decide) <| .next (.update 1 mapping) (by decide) <|
      .next (.new (some 0) mapping) (by decide) <| .next (.new (some 0) []) (by decide) <|
      .next (.new none [(.sym "x", yes)]) (by decide) .empty
  obtain ⟨hsees, hbad, hnames⟩ := sees_last_definitions h
  obtain ⟨way, hway, -, hseen, -⟩ := hsees 1 (by decide)
  have hsplit :
    Frame.collapse mapping = [(.sym "y", yes)] ++ (.nil, yes) :: [(.sym "x", .nil)] := rfl
  have hnearest : forest.find? 1 (.sym "x") = some 0 := rfl
  refine ⟨h, rfl, ⟨way, hway, ?_, ((hseen "y").1 yes).mp rfl, (hseen "z").2.1.mp rfl⟩, ⟨hsplit, ?_⟩,
    (hnames 0 (by decide)).1.trans (by decide)⟩
  · rw [← (hseen "x").2.2.1, hnearest]
  · exact (hbad mapping _ _ _ _ hsplit (by simp) (by simp)).2 (some 0)

end Forest
end SmallLisp
