/-
# Numbers read back

A number is shown by a numeral that reads back as it. The digits of a decimal may be laid out in five
ways, with the point before, among or behind them, or with a power of ten after the first of them or
after all; the reader of numerals finds the same decimal in each (`Decimal.denotes_write`), and by
rounding the double that it was written for. A whole number is shown by its digits, and what digits
cannot write by a word. Only the sign of a zero is not shown.

So an atom that is no text is shown by a token that is this atom again
(`Value.rendered_atoms_read_back`): the words and the symbols are shown as they are written.

Key definitions: `Numeral.Denotes`, `Value.SameAtom`.
Key theorems: `Decimal.denotes_write`, `Double.read?_render`, `Value.rendered_atoms_read_back`.
-/
import SmallLisp.Atom
import SmallLisp.Proofs.Blanks
import SmallLisp.Proofs.Rounding
import Mathlib.Data.List.TakeWhile

namespace SmallLisp

/-! ### Digits -/

namespace Numeral

/-- Characters all of which are digits of ASCII. -/
def AllDigits (cs : List Char) : Prop := ∀ c ∈ cs, c.isDigit = true

theorem allDigits_append {cs ds : List Char} : AllDigits (cs ++ ds) ↔ AllDigits cs ∧ AllDigits ds :=
  List.forall_mem_append

theorem allDigits_replicate (n : ℕ) : AllDigits (List.replicate n '0') :=
  fun _ hc => List.eq_of_mem_replicate hc ▸ (by decide)

theorem allDigits_toDigits (n : ℕ) : AllDigits (Nat.toDigits 10 n) :=
  fun _ hc => Nat.isDigit_of_mem_toDigits (by decide) (by decide) hc

/-- What the digits of a row count. -/
def counts (cs : List Char) : List ℕ := cs.map fun c => c.toNat - '0'.toNat

theorem length_counts (cs : List Char) : (counts cs).length = cs.length := List.length_map _

theorem digit?_of_isDigit {c : Char} (h : c.isDigit = true) :
    Text.digit? c = some (c.toNat - '0'.toNat) := by
  obtain ⟨hlow, hhigh⟩ := Char.isDigit_iff_toNat.mp h
  have hzero : (decide (0x30 ≤ c.toNat) && decide (c.toNat < 0x30 + 10)) = true := by
    simp only [Bool.and_eq_true, decide_eq_true_eq]
    exact ⟨hlow, Nat.lt_succ_of_le hhigh⟩
  exact congrArg (Option.map (c.toNat - ·)) (List.find?_cons_of_pos hzero)

theorem counts_lt {cs : List Char} (h : AllDigits cs) : ∀ d ∈ counts cs, d < 10 := by
  intro d hd
  obtain ⟨c, hc, rfl⟩ := List.mem_map.mp hd
  obtain ⟨-, hhigh⟩ := Char.isDigit_iff_toNat.mp (h c hc)
  have h9 : '9'.toNat = 57 := rfl
  have h0 : '0'.toNat = 48 := rfl
  omega

theorem ofDigits_counts (cs : List Char) : ofDigits (counts cs) = Nat.ofDigitChars 10 cs 0 := by
  rw [ofDigits, counts, List.foldl_map, Nat.ofDigitChars_eq_foldl]

theorem takeDigits_append {rest : List Char} (hrest : takeDigits rest = ([], rest)) :
    ∀ {cs : List Char}, AllDigits cs → takeDigits (cs ++ rest) = (counts cs, rest)
  | [], _ => hrest
  | c :: cs, h => by
    obtain ⟨hc, hcs⟩ := List.forall_mem_cons.mp h
    rw [List.cons_append, takeDigits, digit?_of_isDigit hc]
    simp only [takeDigits_append hrest hcs]
    rfl

theorem takeDigits_allDigits {cs : List Char} (h : AllDigits cs) :
    takeDigits cs = (counts cs, []) := by
  have htake : takeDigits (cs ++ []) = (counts cs, []) := takeDigits_append rfl h
  rwa [List.append_nil] at htake

/-! ### Powers of ten -/

/-- The texts of a power of ten at the end of a numeral. -/
inductive Power : List Char → ℤ → Prop
  | none : Power [] 0
  | written (atLeast : ℕ) (e : ℤ) : Power ('e' :: Decimal.exponentText atLeast e) e

theorem Power.takeDigits {rest : List Char} {e : ℤ} (h : Power rest e) :
    Numeral.takeDigits rest = ([], rest) := by
  cases h <;> rfl

theorem Power.takeFraction {rest : List Char} {e : ℤ} (h : Power rest e) :
    Numeral.takeFraction rest = ([], rest) := by
  cases h <;> rfl

/-- An exponent is a sign before digits that count its amount. -/
theorem exists_digits_of_exponentText (atLeast : ℕ) (e : ℤ) :
    ∃ body, takeSign (Decimal.exponentText atLeast e) = (decide (e < 0), body) ∧
      AllDigits body ∧ body ≠ [] ∧ ofDigits (counts body) = e.natAbs := by
  refine ⟨List.replicate (atLeast - (Nat.toDigits 10 e.natAbs).length) '0' ++
    Nat.toDigits 10 e.natAbs, ?_, ?_, ?_, ?_⟩
  · rw [Decimal.exponentText]
    by_cases h : e < 0
    · rw [if_pos h, decide_eq_true h]
      rfl
    · rw [if_neg h, decide_eq_false h]
      rfl
  · exact allDigits_append.mpr ⟨allDigits_replicate _, allDigits_toDigits _⟩
  · exact List.append_ne_nil_of_right_ne_nil _ Nat.toDigits_ne_nil
  · rw [ofDigits_counts, Nat.ofDigitChars_append, Nat.ofDigitChars_replicate_zero, Nat.mul_zero,
      Nat.ofDigitChars_ten_toDigits]

theorem exponent?_exponentText (atLeast : ℕ) (e : ℤ) :
    exponent? ('e' :: Decimal.exponentText atLeast e) = some e := by
  obtain ⟨body, hsign, hall, hne, hvalue⟩ := exists_digits_of_exponentText atLeast e
  have hcounts : counts body ≠ [] := mt List.map_eq_nil_iff.mp hne
  obtain ⟨d, ds, hds⟩ := List.exists_cons_of_ne_nil hcounts
  rw [hds] at hvalue
  rw [exponent?, if_pos (Or.inl rfl), hsign, takeDigits_allDigits hall, hds]
  simp only [hvalue, decide_eq_true_eq]
  congr 1
  split <;> omega

theorem Power.exponent? {rest : List Char} {e : ℤ} (h : Power rest e) :
    Numeral.exponent? rest = some e := by
  cases h with
  | none => rfl
  | written atLeast e => exact exponent?_exponentText atLeast e

/-! ### What a text denotes -/

/-- A text that begins with a digit and is read as a decimal, with either sign before it. -/
structure Denotes (cs : List Char) (c : ℕ) (e : ℤ) : Prop where
  begins : ∃ d ds, cs = d :: ds ∧ d.isDigit = true
  reads : ∀ negative, (ofUnsigned? negative cs).map value = some (.ofDecimal negative c e)

theorem Denotes.congr {cs : List Char} {c c' : ℕ} {e e' : ℤ} (h : Denotes cs c e)
    (heq : ∀ negative, Double.ofDecimal negative c e = .ofDecimal negative c' e') :
    Denotes cs c' e' :=
  ⟨h.begins, fun negative => heq negative ▸ h.reads negative⟩

theorem begins_append {before : List Char} (h : AllDigits before) (hne : before ≠ [])
    (rest : List Char) : ∃ d ds, before ++ rest = d :: ds ∧ d.isDigit = true := by
  obtain ⟨d, ds, rfl⟩ := List.exists_cons_of_ne_nil hne
  exact ⟨d, ds ++ rest, rfl, h d List.mem_cons_self⟩

theorem ofUnsigned?_of_parts {cs rest end' : List Char} {before after : List ℕ} {e : ℤ}
    (hbefore : takeDigits cs = (before, rest)) (hafter : takeFraction rest = (after, end'))
    (hne : before ++ after ≠ []) (hpower : Power end' e) (negative : Bool) :
    ofUnsigned? negative cs = some ⟨negative, before ++ after, e - after.length⟩ := by
  obtain ⟨d, ds, hds⟩ := List.exists_cons_of_ne_nil hne
  simp only [ofUnsigned?, hbefore, hafter, hds, hpower.exponent?, Option.map_some]

/-- Digits without a point. -/
theorem denotes_whole {digits rest : List Char} {e : ℤ} (h : AllDigits digits)
    (hne : digits ≠ []) (hpower : Power rest e) :
    Denotes (digits ++ rest) (Nat.ofDigitChars 10 digits 0) e := by
  refine ⟨begins_append h hne rest, fun negative => ?_⟩
  have hcounts : counts digits ++ [] ≠ [] := by simpa [counts] using hne
  rw [ofUnsigned?_of_parts (takeDigits_append hpower.takeDigits h) hpower.takeFraction hcounts
    hpower, Option.map_some, value_eq_ofDecimal _ (by simpa using counts_lt h)]
  simp [ofDigits_counts]

/-- Digits with a point among or behind them. -/
theorem denotes_fraction {before after rest : List Char} {e : ℤ} (hbefore : AllDigits before)
    (hne : before ≠ []) (hafter : AllDigits after) (hpower : Power rest e) :
    Denotes (before ++ '.' :: (after ++ rest)) (Nat.ofDigitChars 10 (before ++ after) 0)
      (e - after.length) := by
  refine ⟨begins_append hbefore hne _, fun negative => ?_⟩
  have hall : AllDigits (before ++ after) := allDigits_append.mpr ⟨hbefore, hafter⟩
  have hcounts : counts before ++ counts after = counts (before ++ after) := List.map_append.symm
  have hcounts_ne : counts before ++ counts after ≠ [] := by simp [counts, hne]
  have hfraction : takeFraction ('.' :: (after ++ rest)) = (counts after, rest) :=
    takeDigits_append hpower.takeDigits hafter
  rw [ofUnsigned?_of_parts (takeDigits_append rfl hbefore) hfraction hcounts_ne hpower,
    Option.map_some, value_eq_ofDecimal _ (hcounts ▸ counts_lt hall)]
  simp only [hcounts, ofDigits_counts, length_counts]

end Numeral

/-! ### Written decimals -/

namespace Decimal

open Numeral

variable {digits : List Char}

/-- Digits laid out with a point denote what they denote with the point where it is said to be. -/
theorem denotes_positional (h : AllDigits digits) (hne : digits ≠ []) (point : ℤ) :
    Denotes (positional digits point) (Nat.ofDigitChars 10 digits 0) (point - digits.length) := by
  unfold positional
  split
  · -- the point is before all digits: a zero before it, and zeros up to the first digit
    have hzeros := allDigits_replicate point.natAbs
    have hdenotes := denotes_fraction (allDigits_replicate 1) (by decide)
      (allDigits_append.mpr ⟨hzeros, h⟩) .none
    simp only [List.append_nil] at hdenotes
    refine hdenotes.congr fun negative => ?_
    rw [← List.append_assoc, ← List.replicate_add, Nat.ofDigitChars_append,
      Nat.ofDigitChars_replicate_zero, Nat.mul_zero, List.length_append, List.length_replicate]
    congr 1
    omega
  · split
    · -- the point is behind all digits: a zero after it, which counts in the power of ten
      rename_i hlen
      have hzeros := allDigits_replicate (point.toNat - digits.length)
      have hdenotes := denotes_fraction (allDigits_append.mpr ⟨h, hzeros⟩)
        (List.append_ne_nil_of_left_ne_nil hne _) (allDigits_replicate 1) .none
      refine hdenotes.congr fun negative => ?_
      rw [List.append_assoc, ← List.replicate_add, Nat.ofDigitChars_append,
        Nat.ofDigitChars_replicate_zero, Nat.mul_comm, Double.ofDecimal_shift]
      congr 1
      simp only [List.length_replicate]
      omega
    · have htake : AllDigits (digits.take point.toNat) := fun c hc => h c (List.mem_of_mem_take hc)
      have hdrop : AllDigits (digits.drop point.toNat) := fun c hc => h c (List.mem_of_mem_drop hc)
      have htake_ne : digits.take point.toNat ≠ [] := by
        simp only [ne_eq, List.take_eq_nil_iff, hne, or_false]
        omega
      have hdenotes := denotes_fraction htake htake_ne hdrop .none
      rw [List.append_nil, List.take_append_drop, List.length_drop] at hdenotes
      refine hdenotes.congr fun negative => ?_
      congr 1
      omega

/-- Digits laid out with a power of ten denote what they denote with the point behind the first. -/
theorem denotes_scientific (h : AllDigits digits) (hne : digits ≠ []) (atLeast : ℕ) (e : ℤ) :
    Denotes (scientific atLeast digits e) (Nat.ofDigitChars 10 digits 0)
      (e + 1 - digits.length) := by
  unfold scientific
  split
  · exact absurd rfl hne
  · refine (denotes_whole h hne (.written atLeast e)).congr fun negative => ?_
    congr 1
    simp
  · rename_i d ds _
    obtain ⟨hd, hds⟩ := List.forall_mem_cons.mp h
    have hdenotes := denotes_fraction (List.forall_mem_singleton.mpr hd) (List.cons_ne_nil d []) hds
      (.written atLeast e)
    refine hdenotes.congr fun negative => ?_
    congr 1
    simp only [List.length_cons]
    omega

/-- What is stripped is zeros. -/
theorem exists_eq_stripZeros (digits : List Char) :
    ∃ n, digits = stripZeros digits ++ List.replicate n '0' := by
  refine ⟨(digits.reverse.takeWhile (· == '0')).length, ?_⟩
  have hzeros : digits.reverse.takeWhile (· == '0') =
      List.replicate (digits.reverse.takeWhile (· == '0')).length '0' :=
    List.eq_replicate_iff.mpr ⟨rfl, fun c hc => by simpa using List.mem_takeWhile_imp hc⟩
  rw [← List.reverse_replicate, ← hzeros, stripZeros, ← List.reverse_append,
    List.takeWhile_append_dropWhile, List.reverse_reverse]

/-- **A written decimal denotes the decimal**, in any layout. -/
theorem denotes_write (layout : Layout) (x : Decimal) (hpos : 0 < x.coefficient) :
    Denotes (x.write layout) x.coefficient x.exponent := by
  obtain ⟨n, hn⟩ := exists_eq_stripZeros (Nat.toDigits 10 x.coefficient)
  unfold write
  simp only
  have hvalue : x.coefficient =
      Nat.ofDigitChars 10 (stripZeros (Nat.toDigits 10 x.coefficient)) 0 * 10 ^ n := by
    rw [Nat.mul_comm, ← Nat.ofDigitChars_replicate_zero, ← Nat.ofDigitChars_append, ← hn,
      Nat.ofDigitChars_ten_toDigits]
  have hlength : (Nat.toDigits 10 x.coefficient).length =
      (stripZeros (Nat.toDigits 10 x.coefficient)).length + n := by
    conv_lhs => rw [hn]
    rw [List.length_append, List.length_replicate]
  have hall : AllDigits (stripZeros (Nat.toDigits 10 x.coefficient)) := fun c hc =>
    allDigits_toDigits x.coefficient c (hn ▸ List.mem_append_left _ hc)
  generalize stripZeros (Nat.toDigits 10 x.coefficient) = digits at *
  have hne : digits ≠ [] := by
    rintro rfl
    rw [hvalue] at hpos
    simp at hpos
  rw [hlength]
  -- the digits that are left are written with the zeros counted in the power of ten
  have hsame : ∀ negative, Double.ofDecimal negative (Nat.ofDigitChars 10 digits 0)
      (x.exponent + n) = .ofDecimal negative x.coefficient x.exponent := fun negative => by
    rw [← Double.ofDecimal_shift, ← hvalue]
  split
  · refine (denotes_positional hall hne _).congr fun negative => ?_
    rw [← hsame]
    congr 1
    omega
  · refine (denotes_scientific hall hne _ _).congr fun negative => ?_
    rw [← hsame]
    congr 1
    omega

theorem denotes_toDigits (n : ℕ) : Denotes (Nat.toDigits 10 n) n 0 := by
  have hdenotes := denotes_whole (allDigits_toDigits n) Nat.toDigits_ne_nil .none
  rwa [List.append_nil, Nat.ofDigitChars_ten_toDigits] at hdenotes

end Decimal

/-! ### Whole texts -/

namespace Numeral

/-- Nothing is taken off a text without blanks. -/
theorem trimBy_isPadding {cs : List Char} (h : Decimal.Unbroken cs) :
    Text.trimBy isPadding cs = cs := by
  have hdrop : ∀ ds : List Char, (∀ d ∈ ds, Text.isBlank d = false) →
      ds.dropWhile isPadding = ds := fun ds hds => by
    refine List.dropWhile_eq_self_iff.mpr fun hlen => ?_
    rw [isPadding, hds _ (List.getElem_mem hlen), Bool.false_and]
    exact Bool.false_ne_true
  rw [Text.trimBy, hdrop cs h, hdrop cs.reverse fun d hd => h d (List.mem_reverse.mp hd),
    List.reverse_reverse]

theorem toLower_of_isDigit {d : Char} (h : d.isDigit = true) : d.toLower = d := by
  obtain ⟨-, hhigh⟩ := Char.isDigit_iff_toNat.mp h
  refine dif_neg fun hupper => ?_
  have hA : 'A'.toNat ≤ d.toNat := UInt32.le_iff_toNat_le.mp hupper.1
  have h9 : '9'.toNat < 'A'.toNat := by decide
  omega

/-- No word for a number begins with a digit. -/
theorem ofWord?_of_isDigit {d : Char} (h : d.isDigit = true) (negative : Bool) (ds : List Char) :
    ofWord? negative (d :: ds) = none := by
  have hword : ∀ word : String, word.toList.head?.map Char.isDigit = some false →
      String.ofList ((d :: ds).map Char.toLower) ≠ word := by
    rintro word hhead rfl
    rw [String.toList_ofList, List.map_cons, toLower_of_isDigit h, List.head?_cons, Option.map_some,
      h] at hhead
    cases hhead
  rw [ofWord?, if_neg (not_or.mpr ⟨hword "inf" (by decide), hword "infinity" (by decide)⟩),
    if_neg (hword "nan" (by decide))]

theorem takeSign_of_isDigit {d : Char} (h : d.isDigit = true) (ds : List Char) :
    takeSign (d :: ds) = (false, d :: ds) := by
  unfold takeSign
  split
  · rename_i heq
    obtain ⟨rfl, -⟩ := List.cons.inj heq
    exact absurd h (by decide)
  · rename_i heq
    obtain ⟨rfl, -⟩ := List.cons.inj heq
    exact absurd h (by decide)
  · rfl

/-- **A text that denotes a decimal is read as its nearest double**, with or without a sign. -/
theorem read?_of_denotes {cs : List Char} {c : ℕ} {e : ℤ} (h : Denotes cs c e)
    (hcs : Decimal.Unbroken cs) (negative : Bool) :
    read? ((if negative then ['-'] else []) ++ cs) = some (.ofDecimal negative c e) := by
  obtain ⟨d, ds, rfl, hd⟩ := h.begins
  have hsign : takeSign ((if negative then ['-'] else []) ++ d :: ds) = (negative, d :: ds) := by
    cases negative with
    | true => rfl
    | false => exact takeSign_of_isDigit hd ds
  have hunbroken : Decimal.Unbroken ((if negative then ['-'] else []) ++ d :: ds) :=
    Decimal.unbroken_append.mpr ⟨by cases negative <;> decide, hcs⟩
  unfold read?
  rw [trimBy_isPadding hunbroken, hsign]
  simp only [ofWord?_of_isDigit hd, h.reads]

end Numeral

/-! ### Shown numbers -/

namespace Double

theorem ofRank_self {rank : ℕ} (le : rank ≤ infinityRank) (negative : Bool) :
    ofRank negative rank = .signed negative rank le := by
  simp only [ofRank, Nat.min_eq_left le]

/-- The shortest text of a number that is no zero reads back as it. -/
theorem read?_write {rank : ℕ} (le : rank ≤ infinityRank) (hpos : 0 < rank) (layout : Layout)
    (negative : Bool) :
    Numeral.read? ((signed negative rank le).write layout) = some (signed negative rank le) := by
  rw [write]
  by_cases hinf : rank = infinityRank
  · rw [if_pos hinf]
    subst hinf
    cases negative <;> rfl
  · rw [if_neg hinf, if_neg hpos.ne']
    have hback := Decimal.readsBack_shortest rank
    have hcoefficient := Decimal.coefficient_pos_of_readsBack hpos le hback
    rw [Numeral.read?_of_denotes (Decimal.denotes_write layout _ hcoefficient)
      (Decimal.unbroken_write layout _), Decimal.ofDecimal_of_readsBack hback, ofRank_self le]

/-- The digits of a whole number read back as it. -/
theorem read?_whole {rank : ℕ} (h : units rank % unitsPerOne = 0) (negative : Bool) :
    Numeral.read? ((if negative then "-" else "") ++
      toString (units rank / unitsPerOne)).toList = some (ofRank negative rank) := by
  have hsign : (if negative then "-" else "").toList = if negative then ['-'] else [] := by
    cases negative <;> rfl
  rw [String.toList_append, hsign, Nat.toString_eq_repr, Nat.toList_repr,
    Numeral.read?_of_denotes (Decimal.denotes_toDigits _) (Decimal.unbroken_toDigits _),
    ofDecimal_whole negative h]

/-- **A shown number reads back**; only the sign of a zero is not shown. -/
theorem read?_render (x : Double) : ∃ y, Numeral.read? x.render.toList = some y ∧
    (y = x ∨ x = ofRank true 0 ∧ y = ofRank false 0) := by
  cases x with
  | nan => exact ⟨.nan, rfl, Or.inl rfl⟩
  | signed negative rank le =>
    by_cases hwhole : (signed negative rank le).isWhole = true
    · obtain ⟨-, hunits⟩ : rank < infinityRank ∧ units rank % unitsPerOne = 0 := by
        simpa [isWhole] using hwhole
      have hrender : (signed negative rank le).render =
          (if negative && units rank / unitsPerOne != 0 then "-" else "") ++
            toString (units rank / unitsPerOne) := by
        rw [render, if_neg (by exact Bool.false_ne_true), if_pos hwhole]
        rfl
      refine ⟨_, hrender ▸ read?_whole hunits _, ?_⟩
      by_cases hzero : units rank / unitsPerOne = 0
      · -- a number without a whole part and without anything after its point is a zero
        obtain rfl : rank = 0 := strictMono_units.injective (by
          rw [units_zero, ← Nat.div_add_mod (units rank) unitsPerOne, hzero, hunits, Nat.mul_zero])
        cases negative with
        | false => exact Or.inl (ofRank_self le false)
        | true => exact Or.inr ⟨(ofRank_self le true).symm, by simp [hzero]⟩
      · have hsign : (negative && units rank / unitsPerOne != 0) = negative := by simp [hzero]
        exact Or.inl (by rw [hsign, ofRank_self le])
    · have hpos : 0 < rank := by
        rcases Nat.eq_zero_or_pos rank with rfl | hpos
        · exact absurd (by simp [isWhole, units_zero, infinityRank]) hwhole
        · exact hpos
      have hrender : (signed negative rank le).render =
          String.ofList ((signed negative rank le).write .plain) := by
        rw [render, if_neg (by exact Bool.false_ne_true), if_neg hwhole]
      rw [hrender, String.toList_ofList]
      exact ⟨_, read?_write le hpos .plain negative, Or.inl rfl⟩

end Double

/-! ### Shown atoms -/

namespace Value

/-- One atom, numbers compared by value and whatever is no number by being none. -/
inductive SameAtom : Value → Value → Prop
  | nil : SameAtom .nil .nil
  | bool (b : Bool) : SameAtom (.bool b) (.bool b)
  | sym (name : String) : SameAtom (.sym name) (.sym name)
  | nan : SameAtom (.num .nan) (.num .nan)
  | num {x y : Double} : x.equal y = true → SameAtom (.num x) (.num y)

theorem ofToken_of_read? {t : Token} {x : Double} (h : Numeral.read? t.toList = some x) :
    ofToken t = .num x := by
  have hword : ∀ word : String, Numeral.read? word.toList = none → t ≠ word := by
    rintro word hnone rfl
    rw [hnone] at h
    cases h
  rw [ofToken, if_neg (hword "true" (by decide)), if_neg (hword "false" (by decide)),
    if_neg (hword "nil" (by decide)), h]

theorem sameAtom_num (x : Double) : SameAtom (.num x) (.num x) := by
  cases x with
  | nan => exact .nan
  | signed negative rank le => exact .num (by simp [Double.equal, Double.compareBy, Double.order])

theorem sameAtom_render (x : Double) : SameAtom (.num x) (ofToken x.render) := by
  obtain ⟨y, hread, hy⟩ := x.read?_render
  rw [ofToken_of_read? hread]
  rcases hy with rfl | ⟨rfl, rfl⟩
  · exact sameAtom_num y
  · exact .num rfl

/-- An atom that is no text is one of the words, a number, or the symbol that its token is. -/
theorem sameAtom_ofToken {t : Token} {v : Value} (h : ofToken t = v)
    (hv : ∀ text, v ≠ .str text) : SameAtom v (ofToken v.render) := by
  have hsplit := h
  unfold ofToken at hsplit
  split at hsplit
  · subst hsplit
    exact .bool true
  · split at hsplit
    · subst hsplit
      exact .bool false
    · split at hsplit
      · subst hsplit
        exact .nil
      · split at hsplit
        · subst hsplit
          exact sameAtom_render _
        · split at hsplit
          · exact absurd hsplit.symm (hv _)
          · subst hsplit
            rw [render, h]
            exact .sym t

/-- **Atoms read back as they are shown.** What a token means, unless that is a text, is shown by a
token that means the same: `nil`, the same truth value, the same symbol, a number that is equal or as
little a number. Every number reads back, from whatever token it came or from none, and exactly so
unless it is a negative zero, which reads back as zero. -/
theorem rendered_atoms_read_back :
    (∀ t : Token, (∀ text, ofToken t ≠ .str text) →
      SameAtom (ofToken t) (ofToken (ofToken t).render)) ∧
    ∀ x : Double, ∃ y, ofToken x.render = .num y ∧ SameAtom (.num x) (.num y) ∧
      (y = x ∨ x = .ofRank true 0 ∧ y = .ofRank false 0) := by
  refine ⟨fun t ht => sameAtom_ofToken rfl ht, fun x => ?_⟩
  obtain ⟨y, hread, hy⟩ := x.read?_render
  have hsame := sameAtom_render x
  rw [ofToken_of_read? hread] at hsame
  exact ⟨y, ofToken_of_read? hread, hsame, hy⟩

/-- A zero with a sign and a power of ten, and a symbol that begins like a number. -/
theorem rendered_atoms_read_back_signed :
    (ofToken "-0e5" = .num (.ofRank true 0) ∧
      SameAtom (ofToken "-0e5") (ofToken (ofToken "-0e5").render)) ∧
    (ofToken "1_0" = .sym "1_0" ∧ SameAtom (ofToken "1_0") (ofToken (ofToken "1_0").render)) := by
  have hzero : ofToken "-0e5" = .num (.ofRank true 0) := by rfl
  have hname : ofToken "1_0" = .sym "1_0" := by rfl
  exact ⟨⟨hzero, rendered_atoms_read_back.1 _ (by simp [hzero])⟩,
    hname, rendered_atoms_read_back.1 _ (by simp [hname])⟩

end Value

end SmallLisp
