/-
# Frames and chains

What can be told of a frame by its names alone. A frame is what it binds and the order in which it
binds it; `Frame.sorted_congr` says that the listing by name shows nothing of that order. What holds
of all bindings in a chain (`Chain.Forall`) is kept as long as new bindings have it too. A chain
grows (`Chain.GrowsTo`) when its innermost frame gets new names behind those it has and nothing
else changes; then the chain around it can be given back (`Chain.GrowsTo.pop_eq`).

Key definitions: `Chain.Forall`, `Chain.GrowsTo`.
Key theorems: `Frame.mem_entries_iff`, `Frame.sorted_congr`, `Frame.get?_ofList`,
`Frame.names_ofList`, `Chain.lookup?_define`, `Chain.lookup?_push`, `Chain.GrowsTo.pop_eq`.
-/
import SmallLisp.Chain
import Mathlib.Data.List.Nodup
import Mathlib.Data.List.Perm.Subperm

namespace SmallLisp
namespace Frame

theorem mem_of_find? {name : String} {v : Value} :
    ∀ {entries : List (String × Value)}, find? name entries = some v → (name, v) ∈ entries
  | [], h => by simp [find?] at h
  | (n, w) :: rest, h => by
    by_cases hn : n = name
    · simp only [find?, hn, if_true, Option.some.injEq] at h
      simp [hn, h]
    · simp only [find?, hn, if_false] at h
      exact List.mem_cons_of_mem _ (mem_of_find? h)

theorem find?_of_mem {name : String} {v : Value} : ∀ {entries : List (String × Value)},
    (entries.map Prod.fst).Nodup → (name, v) ∈ entries → find? name entries = some v
  | [], _, h => by simp at h
  | (n, w) :: rest, hn, h => by
    obtain ⟨habs, hrest⟩ := List.nodup_cons.mp hn
    rcases List.mem_cons.mp h with h | h
    · cases h
      simp [find?]
    · have hne : ¬ n = name := fun e => habs (e ▸ List.mem_map.mpr ⟨(name, v), h, rfl⟩)
      simp only [find?, hne, if_false]
      exact find?_of_mem hrest h

/-- A name has a value in a frame exactly if the two are bound together. -/
theorem mem_entries_iff (f : Frame) (name : String) (v : Value) :
    (name, v) ∈ f.entries ↔ f.get? name = some v :=
  ⟨find?_of_mem f.nodup, mem_of_find?⟩

/-- Frames that bind the same names to the same values are listed alike, in whatever order they
bind them. -/
theorem sorted_congr {f g : Frame} (h : ∀ name, f.get? name = g.get? name) : f.sorted = g.sorted := by
  have hperm : f.entries.Perm g.entries := by
    refine (List.perm_ext_iff_of_nodup (.of_map _ f.nodup) (.of_map _ g.nodup)).mpr fun ⟨name, v⟩ => ?_
    rw [mem_entries_iff, mem_entries_iff, h]
  have hle : ∀ e : Frame, e.sorted.Pairwise fun a b => decide (a.1 ≤ b.1) = true := fun e =>
    List.pairwise_mergeSort
      (fun a b c hab hbc => by simpa using String.le_trans (by simpa using hab) (by simpa using hbc))
      (fun a b => by simpa using String.le_total a.1 b.1) e.entries
  refine List.Perm.eq_of_pairwise (fun a b ha hb hab hba => ?_) (hle f) (hle g) ?_
  · -- one name cannot stand there with two values
    have hname : a.1 = b.1 := String.le_antisymm (by simpa using hab) (by simpa using hba)
    have ha' : f.get? a.1 = some a.2 :=
      (mem_entries_iff f _ _).mp ((List.mergeSort_perm f.entries _).mem_iff.mp ha)
    have hb' : g.get? b.1 = some b.2 :=
      (mem_entries_iff g _ _).mp ((List.mergeSort_perm g.entries _).mem_iff.mp hb)
    have hvalue : some a.2 = some b.2 := by rw [← ha', ← hb', h, hname]
    exact Prod.ext hname (Option.some.inj hvalue)
  · exact (List.mergeSort_perm f.entries _).trans
      (hperm.trans (List.mergeSort_perm g.entries _).symm)

/-- A frame is its names in their order and the value of each. -/
theorem eq_of_get?_eq {f g : Frame} (hnames : f.names <+: g.names)
    (hvalues : ∀ name, f.get? name = g.get? name) : f = g := by
  have hsub : ∀ name ∈ g.names, name ∈ f.names := by
    intro name hname
    obtain ⟨⟨n, v⟩, hb, rfl⟩ := List.mem_map.mp hname
    have hv : f.get? n = some v := (hvalues n).trans ((g.mem_entries_iff n v).mp hb)
    exact List.mem_map.mpr ⟨(n, v), (f.mem_entries_iff n v).mpr hv, rfl⟩
  have heq : f.names = g.names := hnames.eq_of_length
    (Nat.le_antisymm hnames.length_le (g.nodup.subperm hsub).length_le)
  have hlen : f.entries.length = g.entries.length := by
    simpa [names] using congrArg List.length heq
  suffices f.entries = g.entries by
    cases f
    cases g
    subst this
    rfl
  refine List.ext_getElem hlen fun i hi hi' => ?_
  have hname : f.entries[i].1 = g.entries[i].1 := by
    simpa [names, hi, hi'] using congrArg (·[i]?) heq
  have hf := (f.mem_entries_iff f.entries[i].1 f.entries[i].2).mp (List.getElem_mem hi)
  have hg := (g.mem_entries_iff g.entries[i].1 g.entries[i].2).mp (List.getElem_mem hi')
  rw [hvalues, hname, hg] at hf
  exact Prod.ext hname (Option.some.inj hf).symm

/-! ### Bindings made one after another -/

/-- A name has the value that it is last bound to, or else the one it had. -/
theorem get?_defineAll (name : String) : ∀ (bindings : List (String × Value)) (f : Frame),
    (f.defineAll bindings).get? name = (bindings.reverse.lookup name).or (f.get? name)
  | [], _ => rfl
  | (n, v) :: rest, f => by
    have hrest := get?_defineAll name rest (f.define n v)
    rw [defineAll, List.foldl_cons]
    rw [defineAll] at hrest
    rw [hrest, get?_define, List.reverse_cons, List.lookup_append, Option.or_assoc]
    congr 1
    by_cases hn : n = name
    · rw [hn, List.lookup_cons_self, if_pos rfl]
      rfl
    · have hne : (name == n) = false := beq_eq_false_iff_ne.mpr fun e => hn e.symm
      rw [List.lookup_cons, hne, if_neg hn]
      rfl

theorem get?_ofList (bindings : List (String × Value)) (name : String) :
    (ofList bindings).get? name = bindings.reverse.lookup name := by
  rw [ofList, get?_defineAll]
  exact Option.or_none

theorem ofList_append (bindings more : List (String × Value)) :
    (ofList bindings).defineAll more = ofList (bindings ++ more) :=
  List.foldl_append.symm

/-- Names stand in the order in which they are first bound. -/
theorem names_defineAll : ∀ (bindings : List (String × Value)) (f : Frame) (before : List String),
    f.names = before.eraseDups →
      (f.defineAll bindings).names = (before ++ bindings.map Prod.fst).eraseDups
  | [], f, before, h => by simpa [defineAll] using h
  | (n, v) :: rest, f, before, h => by
    have hdefine : (f.define n v).names = (before ++ [n]).eraseDups := by
      rw [names_define, List.eraseDups_append, h]
      by_cases hn : n ∈ before
      · simp [hn, List.removeAll]
      · simp [hn, List.removeAll, List.eraseDups_cons]
    rw [defineAll, List.foldl_cons]
    have hrest := names_defineAll rest (f.define n v) (before ++ [n]) hdefine
    rw [defineAll] at hrest
    rw [hrest, List.map_cons, List.append_assoc, List.singleton_append]

theorem names_ofList (bindings : List (String × Value)) :
    (ofList bindings).names = (bindings.map Prod.fst).eraseDups :=
  names_defineAll bindings empty [] rfl

/-! ### What is bound in a frame -/

theorem forall_insert {P : String × Value → Prop} {name : String} {value : Value}
    (hnew : P (name, value)) : ∀ entries : List (String × Value), (∀ b ∈ entries, P b) →
      ∀ b ∈ insert name value entries, P b
  | [], _, b, hb => by
    obtain rfl : b = (name, value) := by simpa [insert] using hb
    exact hnew
  | (n, v) :: rest, h, b, hb => by
    have hrest : ∀ b ∈ rest, P b := fun b hb => h b (List.mem_cons_of_mem _ hb)
    unfold insert at hb
    split at hb
    · rename_i hn
      rcases List.mem_cons.mp hb with rfl | hb
      · exact hn ▸ hnew
      · exact hrest b hb
    · rcases List.mem_cons.mp hb with rfl | hb
      · exact h _ List.mem_cons_self
      · exact forall_insert hnew rest hrest b hb

/-- What holds of all bindings in a frame and of one more holds of all when that one is made. -/
theorem forall_define {P : String × Value → Prop} {f : Frame} (hf : ∀ b ∈ f.entries, P b)
    {name : String} {value : Value} (hnew : P (name, value)) :
    ∀ b ∈ (f.define name value).entries, P b :=
  forall_insert hnew f.entries hf

theorem forall_defineAll {P : String × Value → Prop} :
    ∀ (bindings : List (String × Value)) (f : Frame), (∀ b ∈ f.entries, P b) →
      (∀ b ∈ bindings, P b) → ∀ b ∈ (f.defineAll bindings).entries, P b
  | [], _, hf, _ => hf
  | (name, value) :: rest, f, hf, hb => by
    rw [defineAll, List.foldl_cons]
    refine forall_defineAll rest _ (forall_define hf (hb _ List.mem_cons_self)) ?_
    exact fun b hb' => hb b (List.mem_cons_of_mem _ hb')

theorem forall_ofList {P : String × Value → Prop} {bindings : List (String × Value)}
    (h : ∀ b ∈ bindings, P b) : ∀ b ∈ (ofList bindings).entries, P b :=
  forall_defineAll bindings empty (by simp [empty]) h

end Frame

namespace Chain

attribute [ext] Chain

/-- A name that is just bound has its new value, and every other name what it had. -/
theorem lookup?_define (c : Chain) (name other : String) (value : Value) :
    (c.define name value).lookup? other = if name = other then some value else c.lookup? other := by
  simp only [lookup?, frames, define, List.findSome?_cons, Frame.get?_define]
  by_cases h : name = other <;> simp [h]

theorem lookup?_ofFrame (f : Frame) (name : String) : (ofFrame f).lookup? name = f.get? name :=
  List.findSome?_singleton

theorem lookup?_congr {c d : Chain} {name : String} (hinner : c.inner.get? name = d.inner.get? name)
    (houter : c.outer = d.outer) : c.lookup? name = d.lookup? name := by
  simp only [lookup?, frames, List.findSome?_cons, hinner, houter]

/-- A new innermost frame goes before the chain that it is put inside. -/
theorem lookup?_push (c : Chain) (f : Frame) (name : String) :
    (c.push f).lookup? name = (f.get? name).or (c.lookup? name) := by
  simp only [lookup?, frames, push, List.findSome?_cons]
  cases f.get? name <;> rfl

/-- The value of a name is bound in one of the frames. -/
theorem mem_entries_of_lookup? {c : Chain} {name : String} {v : Value}
    (h : c.lookup? name = some v) : ∃ f ∈ c.frames, (name, v) ∈ f.entries := by
  obtain ⟨f, hf, hv⟩ := List.exists_of_findSome?_eq_some h
  exact ⟨f, hf, (f.mem_entries_iff name v).mpr hv⟩

/-! ### What is bound in a chain -/

/-- Something holds of every binding in every frame. -/
def Forall (P : String × Value → Prop) (c : Chain) : Prop :=
  ∀ f ∈ c.frames, ∀ b ∈ f.entries, P b

section Forall

variable {P : String × Value → Prop} {c : Chain}

theorem forall_ofFrame {f : Frame} (h : ∀ b ∈ f.entries, P b) : (ofFrame f).Forall P := by
  intro f' hf'
  obtain rfl := List.mem_singleton.mp hf'
  exact h

theorem Forall.inner (h : c.Forall P) : ∀ b ∈ c.inner.entries, P b := h c.inner List.mem_cons_self

theorem Forall.lookup (h : c.Forall P) {name : String} {v : Value}
    (hv : c.lookup? name = some v) : P (name, v) := by
  obtain ⟨f, hf, hb⟩ := mem_entries_of_lookup? hv
  exact h f hf _ hb

theorem Forall.define (h : c.Forall P) {name : String} {v : Value} (hnew : P (name, v)) :
    (c.define name v).Forall P := by
  intro f hf
  rcases List.mem_cons.mp hf with rfl | hf
  · exact Frame.forall_define h.inner hnew
  · exact h f (List.mem_cons_of_mem _ hf)

theorem Forall.push (h : c.Forall P) {f : Frame} (hf : ∀ b ∈ f.entries, P b) :
    (c.push f).Forall P := by
  intro f' hf'
  rcases List.mem_cons.mp hf' with rfl | hf'
  · exact hf
  · exact h f' hf'

end Forall

/-! ### Chains that grow -/

/-- One chain is another with at most more names bound, behind those that were, in its innermost
frame. The names that were may have other values. -/
structure GrowsTo (c d : Chain) : Prop where
  outer : d.outer = c.outer
  names : c.inner.names <+: d.inner.names

theorem GrowsTo.refl (c : Chain) : c.GrowsTo c := ⟨rfl, List.prefix_rfl⟩

theorem GrowsTo.trans {c d e : Chain} (h : c.GrowsTo d) (h' : d.GrowsTo e) : c.GrowsTo e :=
  ⟨h'.outer.trans h.outer, h.names.trans h'.names⟩

theorem growsTo_define (c : Chain) (name : String) (value : Value) :
    c.GrowsTo (c.define name value) := by
  refine ⟨rfl, ?_⟩
  show c.inner.names <+: (c.inner.define name value).names
  rw [Frame.names_define]
  split
  · exact List.prefix_rfl
  · exact List.prefix_append _ _

/-- However the chain grows inside a new frame, without that frame it is what it was. -/
theorem GrowsTo.pop_eq {c d : Chain} {f : Frame} (h : (c.push f).GrowsTo d) : d.pop = c := by
  have houter : d.outer = c.inner :: c.outer := h.outer
  rw [pop, houter]

end Chain
end SmallLisp
