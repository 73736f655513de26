/-
# Frames

A frame binds names to values, each name once, and keeps the order in which they were first bound:
a new binding of an old name takes the place of the one before it.

Key definitions: `Frame`, `Frame.get?`, `Frame.define`, `Frame.ofList`, `Frame.primitives`,
`Frame.sorted`.
Key lemmas: `Frame.get?_define`, `Frame.names_define`.
-/
import SmallLisp.Value

namespace SmallLisp

/-- The entries of a frame with a name bound to a value: in place if it is there, at the end if it
is not. -/
def Frame.insert (name : String) (value : Value) : List (String × Value) → List (String × Value)
  | [] => [(name, value)]
  | (n, v) :: rest =>
    if n = name then (n, value) :: rest else (n, v) :: Frame.insert name value rest

theorem Frame.map_fst_insert (name : String) (value : Value) :
    ∀ entries : List (String × Value), (Frame.insert name value entries).map Prod.fst =
      if name ∈ entries.map Prod.fst then entries.map Prod.fst
      else entries.map Prod.fst ++ [name]
  | [] => rfl
  | (n, v) :: rest => by
    by_cases h : n = name
    · simp [Frame.insert, h]
    · have h' : ¬ name = n := fun e => h e.symm
      simp only [Frame.insert, h, if_false, List.map_cons, List.mem_cons, h', false_or,
        Frame.map_fst_insert name value rest]
      split <;> simp

theorem Frame.nodup_insert (name : String) (value : Value) (entries : List (String × Value))
    (h : (entries.map Prod.fst).Nodup) : ((Frame.insert name value entries).map Prod.fst).Nodup := by
  rw [Frame.map_fst_insert]
  split
  · exact h
  · next absent =>
    exact List.nodup_append.mpr ⟨h, by simp, by
      rintro a ha b hb rfl
      exact absent (List.mem_singleton.mp hb ▸ ha)⟩

/-- Names bound to values, in the order of their first binding. -/
structure Frame where
  entries : List (String × Value)
  nodup : (entries.map Prod.fst).Nodup

namespace Frame

def empty : Frame := ⟨[], List.nodup_nil⟩

def names (f : Frame) : List String := f.entries.map Prod.fst

/-- The value bound to a name among entries. -/
def find? (name : String) : List (String × Value) → Option Value
  | [] => none
  | (n, v) :: rest => if n = name then some v else find? name rest

/-- The value bound to a name. -/
def get? (f : Frame) (name : String) : Option Value := find? name f.entries

/-- The frame with a name bound to a value. -/
def define (f : Frame) (name : String) (value : Value) : Frame :=
  ⟨insert name value f.entries, nodup_insert name value f.entries f.nodup⟩

/-- The frame with bindings made one after another. -/
def defineAll (f : Frame) (bindings : List (String × Value)) : Frame :=
  bindings.foldl (fun g b => g.define b.1 b.2) f

/-- The frame of a list of bindings: a name stands where it was first bound, with the value that
it was last bound to. -/
def ofList (bindings : List (String × Value)) : Frame := empty.defineAll bindings

/-- The frame that a session starts from: the primitives under their names. -/
def primitives : Frame := ofList (Primitive.all.map fun p => (p.name, .prim p))

/-- The bindings in the order of their names, compared character by character. -/
def sorted (f : Frame) : List (String × Value) :=
  f.entries.mergeSort fun a b => a.1 ≤ b.1

theorem find?_insert (name other : String) (value : Value) :
    ∀ entries : List (String × Value), find? other (insert name value entries) =
      if name = other then some value else find? other entries
  | [] => rfl
  | (n, v) :: rest => by
    by_cases h : n = name
    · subst h
      by_cases ho : n = other <;> simp [insert, find?, ho]
    · by_cases ho : n = other
      · subst ho
        have hne : ¬ name = n := fun e => h e.symm
        simp [insert, find?, h, hne]
      · simp [insert, find?, h, ho, find?_insert name other value rest]

/-- A name just bound has its new value, and every other name what it had. -/
theorem get?_define (f : Frame) (name other : String) (value : Value) :
    (f.define name value).get? other = if name = other then some value else f.get? other :=
  find?_insert name other value f.entries

/-- Binding a name adds it at the end if it is new and changes no place if it is not. -/
theorem names_define (f : Frame) (name : String) (value : Value) :
    (f.define name value).names = if name ∈ f.names then f.names else f.names ++ [name] :=
  map_fst_insert name value f.entries

end Frame
end SmallLisp
