/-
# Rounding to doubles

Rounding looks at a quotient and at nothing else of the two numbers that it is given as
(`Double.nearestRank_congr`), and it leaves a double as it is (`Double.nearestRank_units`). So zeros
at the end of a decimal's digits are a matter of its power of ten (`Double.ofDecimal_shift`), and the
shortest decimal of a double reads back as the double (`Decimal.readsBack_shortest`). A quotient
below half a unit rounds to zero, and one far above the largest double to infinity; hence what a
numeral with a power of ten far outside is said to denote is the nearest double as well
(`Numeral.value_eq_ofDecimal`).

Key theorems: `Double.nearestRank_congr`, `Double.nearestRank_units`, `Double.ofDecimal_shift`,
`Decimal.readsBack_shortest`, `Numeral.value_eq_ofDecimal`.
-/
import SmallLisp.Decimal.Shortest
import SmallLisp.Proofs.Values

namespace SmallLisp

/-! ### Quotients -/

namespace Double

theorem roundHalfEven_mul (num den : ℕ) {k : ℕ} (hk : 0 < k) :
    roundHalfEven (num * k) (den * k) = roundHalfEven num den := by
  have hbelow : 2 * (num % den * k) < den * k ↔ 2 * (num % den) < den := by
    rw [← Nat.mul_assoc]
    exact Nat.mul_lt_mul_right hk
  have habove : den * k < 2 * (num % den * k) ↔ den < 2 * (num % den) := by
    rw [← Nat.mul_assoc]
    exact Nat.mul_lt_mul_right hk
  simp only [roundHalfEven, Nat.mul_div_mul_right _ _ hk, Nat.mul_mod_mul_right, hbelow, habove]

theorem roundHalfEven_exact (n : ℕ) {den : ℕ} (hden : 0 < den) :
    roundHalfEven (n * den) den = n := by
  simp [roundHalfEven, hden]

theorem nearestRank_mul (num den : ℕ) {k : ℕ} (hk : 0 < k) :
    nearestRank (num * k) (den * k) = nearestRank num den := by
  simp only [nearestRank, Nat.mul_div_mul_right _ _ hk]
  rw [Nat.mul_right_comm den k, roundHalfEven_mul _ _ hk]

/-- **Rounding depends on the quotient alone.** -/
theorem nearestRank_congr {num den num' den' : ℕ} (hden : 0 < den) (hden' : 0 < den')
    (h : num * den' = num' * den) : nearestRank num den = nearestRank num' den' := by
  rw [← nearestRank_mul num den hden', h, Nat.mul_comm den, nearestRank_mul num' den' hden]

theorem nearestRank_of_log2 {num den spacing : ℕ} (h : (num / den).log2 - 52 = spacing) :
    nearestRank num den = spacing * 2 ^ 52 + roundHalfEven num (den * 2 ^ spacing) := by
  rw [← h]
  rfl

/-- **A double is the nearest to itself.** -/
theorem nearestRank_units (rank : ℕ) : nearestRank (units rank) 1 = rank := by
  rcases rank_cases rank with h | ⟨q, m, hm, rfl⟩
  · have hspacing : (rank / 1).log2 - 52 = 0 := by
      rw [Nat.div_one]
      rcases Nat.eq_zero_or_pos rank with rfl | hpos
      · rfl
      · have hlog := (Nat.log2_lt hpos.ne').mpr h
        omega
    rw [units_of_lt h, nearestRank_of_log2 hspacing]
    simpa using roundHalfEven_exact rank Nat.one_pos
  · have hspacing : ((2 ^ 52 + m) * 2 ^ q / 1).log2 - 52 = q := by
      have hpos : 0 < (2 ^ 52 + m) * 2 ^ q := Nat.mul_pos (by omega) (Nat.two_pow_pos q)
      have hlog : ((2 ^ 52 + m) * 2 ^ q).log2 = 52 + q := by
        refine (Nat.log2_eq_iff hpos.ne').mpr ⟨?_, ?_⟩
        · rw [Nat.pow_add]
          exact Nat.mul_le_mul_right _ (Nat.le_add_right _ _)
        · rw [Nat.add_right_comm, Nat.pow_add]
          exact Nat.mul_lt_mul_of_pos_right (by omega) (Nat.two_pow_pos q)
      rw [Nat.div_one, hlog]
      omega
    rw [units_binade q hm, nearestRank_of_log2 hspacing, Nat.one_mul,
      roundHalfEven_exact _ (Nat.two_pow_pos q)]
    omega

/-- Less than half a unit is rounded to zero. -/
theorem nearestRank_of_lt_half {num den : ℕ} (h : 2 * num < den) : nearestRank num den = 0 := by
  have hlow : num < den := by omega
  have hspacing : (num / den).log2 - 52 = 0 := by rw [Nat.div_eq_of_lt hlow]; rfl
  rw [nearestRank_of_log2 hspacing]
  simp [roundHalfEven, Nat.div_eq_of_lt hlow, Nat.mod_eq_of_lt hlow, h]

/-- What has more binary digits than any double is rounded to infinity. -/
theorem infinityRank_le_nearestRank {n k : ℕ} (hk : 2099 ≤ k) (h : 2 ^ k ≤ n) :
    infinityRank ≤ nearestRank n 1 := by
  have hpos : 0 < n := Nat.lt_of_lt_of_le (Nat.two_pow_pos k) h
  have hlog : k ≤ (n / 1).log2 := by rwa [Nat.div_one, Nat.le_log2 hpos.ne']
  rw [nearestRank_of_log2 rfl, infinityRank]
  omega

theorem ofRank_of_le {rank : ℕ} (h : infinityRank ≤ rank) (negative : Bool) :
    ofRank negative rank = infinite negative := by
  simp only [ofRank, infinite, Nat.min_eq_right h, Nat.min_self]

theorem ofRank_sign {negative : Bool} {a b : ℕ} (h : ofRank negative a = ofRank negative b)
    (other : Bool) : ofRank other a = ofRank other b := by
  have hmin : min a infinityRank = min b infinityRank := (Double.signed.inj h).2
  simp only [ofRank, hmin]

theorem ofRatio_congr (negative : Bool) {num den num' den' : ℕ} (hden : 0 < den)
    (hden' : 0 < den') (h : num * den' = num' * den) :
    ofRatio negative num den = ofRatio negative num' den' := by
  have hscaled : num * unitsPerOne * den' = num' * unitsPerOne * den := by
    rw [Nat.mul_right_comm, h, Nat.mul_right_comm]
  exact congrArg (ofRank negative) (nearestRank_congr hden hden' hscaled)

/-! ### Decimals -/

/-- A decimal as a quotient, whichever sign its power of ten has. -/
theorem ofDecimal_eq (negative : Bool) (c : ℕ) (e : ℤ) :
    ofDecimal negative c e = ofRatio negative (c * 10 ^ e.toNat) (10 ^ (-e).toNat) := by
  cases e with
  | ofNat n => simp [ofDecimal]
  | negSucc n => simp [ofDecimal]

/-- **Zeros at the end of the digits count in the power of ten.** -/
theorem ofDecimal_shift (negative : Bool) (c k : ℕ) (e : ℤ) :
    ofDecimal negative (c * 10 ^ k) e = ofDecimal negative c (e + k) := by
  rw [ofDecimal_eq, ofDecimal_eq]
  refine ofRatio_congr negative (Nat.pow_pos (by decide)) (Nat.pow_pos (by decide)) ?_
  rw [Nat.mul_assoc, Nat.mul_assoc, Nat.mul_assoc, ← Nat.pow_add, ← Nat.pow_add, ← Nat.pow_add]
  congr 2
  omega

theorem ofDecimal_zero (negative : Bool) (n : ℕ) :
    ofDecimal negative n 0 = ofRank negative (nearestRank (n * unitsPerOne) 1) := by
  rw [ofDecimal_eq, neg_zero, Int.toNat_zero, Nat.pow_zero, Nat.mul_one]
  rfl

theorem ofDecimal_nothing (negative : Bool) (e : ℤ) :
    ofDecimal negative 0 e = ofRank negative 0 := by
  rw [ofDecimal_eq, Nat.zero_mul, ofRatio, ofUnits, Nat.zero_mul,
    nearestRank_of_lt_half (Nat.pow_pos (by decide))]

/-- A power of ten above all doubles makes any digits infinite. -/
theorem ofDecimal_of_huge (negative : Bool) {c : ℕ} (hc : 0 < c) {e : ℤ} (he : 400 < e) :
    ofDecimal negative c e = infinite negative := by
  obtain ⟨n, k, hn, hk, hpow⟩ : ∃ n k, n ≤ 401 ∧ 2099 ≤ k ∧ 2 ^ k ≤ 10 ^ n * unitsPerOne :=
    ⟨401, 2099, le_rfl, le_rfl, by decide +kernel⟩
  have hbits : 2 ^ k ≤ c * 10 ^ e.toNat * unitsPerOne := by
    calc 2 ^ k
      _ ≤ 10 ^ n * unitsPerOne := hpow
      _ ≤ c * 10 ^ e.toNat * unitsPerOne := Nat.mul_le_mul_right _ (Nat.le_trans
          (Nat.pow_le_pow_right (by decide) (by omega)) (Nat.le_mul_of_pos_left _ hc))
  rw [ofDecimal_eq, ofRatio, ofUnits, Int.toNat_of_nonpos (z := -e) (by omega), Nat.pow_zero]
  exact ofRank_of_le (infinityRank_le_nearestRank hk hbits) negative

/-- A power of ten below all doubles makes few digits zero. -/
theorem ofDecimal_of_tiny (negative : Bool) {c k : ℕ} (hc : c < 10 ^ k) {e : ℤ}
    (he : e + k < -400) : ofDecimal negative c e = ofRank negative 0 := by
  obtain ⟨n, hn, hpow⟩ : ∃ n, n ≤ 401 ∧ 2 * unitsPerOne ≤ 10 ^ n :=
    ⟨401, le_rfl, by decide +kernel⟩
  have hhalf : 2 * (c * unitsPerOne) < 10 ^ (-e).toNat := by
    calc 2 * (c * unitsPerOne)
      _ = c * (2 * unitsPerOne) := Nat.mul_left_comm ..
      _ ≤ c * 10 ^ n := Nat.mul_le_mul_left _ hpow
      _ < 10 ^ k * 10 ^ n := Nat.mul_lt_mul_of_pos_right hc (Nat.pow_pos (by decide))
      _ = 10 ^ (k + n) := (Nat.pow_add ..).symm
      _ ≤ 10 ^ (-e).toNat := Nat.pow_le_pow_right (by decide) (by omega)
  rw [ofDecimal_eq, Int.toNat_of_nonpos (z := e) (by omega), Nat.pow_zero, Nat.mul_one, ofRatio,
    ofUnits, nearestRank_of_lt_half hhalf]

/-- A double with nothing after its point is the decimal of its whole part. -/
theorem ofDecimal_whole (negative : Bool) {rank : ℕ} (h : units rank % unitsPerOne = 0) :
    ofDecimal negative (units rank / unitsPerOne) 0 = ofRank negative rank := by
  rw [ofDecimal_zero, Nat.div_mul_cancel (Nat.dvd_of_mod_eq_zero h), nearestRank_units]

/-- A quotient by a power of two is a decimal. -/
theorem ofDecimal_of_units {n : ℕ} (hn : unitsPerOne = 2 ^ n) (negative : Bool) (rank : ℕ) :
    ofDecimal negative (units rank * Nat.pow 5 n) (-n) = ofRank negative rank := by
  have hten : units rank * Nat.pow 5 n * unitsPerOne * 1 = units rank * 10 ^ n := by
    rw [hn, Nat.mul_one, Nat.mul_assoc]
    exact congrArg (units rank * ·) (Nat.mul_pow 5 2 n).symm
  rw [ofDecimal_eq, neg_neg, Int.toNat_natCast, Int.toNat_of_nonpos (by omega), Nat.pow_zero,
    Nat.mul_one, ofRatio, ofUnits,
    nearestRank_congr (Nat.pow_pos (by decide)) Nat.one_pos hten, nearestRank_units]

end Double

namespace Decimal

theorem readsBack_iff {rank : ℕ} {x : Decimal} : x.readsBack rank = true ↔
    .ofDecimal false x.coefficient x.exponent = Double.ofRank false rank := beq_iff_eq

/-- A decimal that reads back does so with either sign. -/
theorem ofDecimal_of_readsBack {rank : ℕ} {x : Decimal} (h : x.readsBack rank = true)
    (negative : Bool) :
    Double.ofDecimal negative x.coefficient x.exponent = .ofRank negative rank := by
  rw [readsBack_iff, Double.ofDecimal_eq] at h
  rw [Double.ofDecimal_eq]
  exact Double.ofRank_sign h negative

theorem readsBack_exact (rank : ℕ) : (exact rank).readsBack rank = true := by
  have hunits := Double.unitsPerOne_eq
  have hexact := exact.eq_1 rank
  have he : (-1074 : ℤ) = -((1074 : ℕ) : ℤ) := rfl
  rw [he] at hexact
  -- what the power is does not matter, as long as it is the same in both places
  generalize 1074 = n at hunits hexact
  rw [readsBack_iff, hexact]
  exact Double.ofDecimal_of_units hunits false rank

/-- **The shortest decimal of a double reads back as it.** -/
theorem readsBack_shortest (rank : ℕ) : (shortest rank).readsBack rank = true := by
  unfold shortest
  simp only
  cases hfound : (List.range 17).findSome? fun (n : ℕ) =>
      (beside rank (leadingExponent rank - n)).find? (readsBack rank) with
  | none => exact readsBack_exact rank
  | some x =>
    obtain ⟨n, -, hn⟩ := List.exists_of_findSome?_eq_some hfound
    exact List.find?_some hn

theorem coefficient_pos_of_readsBack {rank : ℕ} (hpos : 0 < rank)
    (hle : rank ≤ Double.infinityRank) {x : Decimal} (h : x.readsBack rank = true) :
    0 < x.coefficient := by
  refine Nat.pos_of_ne_zero fun hzero => ?_
  rw [readsBack_iff, hzero, Double.ofDecimal_nothing] at h
  have hrank := (Double.signed.inj h).2
  omega

end Decimal

/-! ### Numerals -/

namespace Numeral

theorem ofDigits_lt : ∀ (ds : List ℕ), (∀ d ∈ ds, d < 10) → ofDigits ds < 10 ^ ds.length := by
  have hfrom : ∀ (ds : List ℕ) (n : ℕ), (∀ d ∈ ds, d < 10) →
      ds.foldl (fun n d => 10 * n + d) n < (n + 1) * 10 ^ ds.length := by
    intro ds
    induction ds with
    | nil => intro n _; simp
    | cons d ds ih =>
      intro n hds
      obtain ⟨hd, hds⟩ := List.forall_mem_cons.mp hds
      have hstep : (10 * n + d + 1) * 10 ^ ds.length ≤ (n + 1) * 10 ^ (ds.length + 1) := by
        rw [Nat.pow_succ', ← Nat.mul_assoc]
        exact Nat.mul_le_mul_right _ (by omega)
      exact Nat.lt_of_lt_of_le (ih (10 * n + d) hds) hstep
  intro ds hds
  simpa [ofDigits] using hfrom ds 0 hds

/-- **A numeral denotes the nearest double**, also with a power of ten far outside. -/
theorem value_eq_ofDecimal (x : Numeral) (h : ∀ d ∈ x.digits, d < 10) :
    x.value = .ofDecimal x.negative (ofDigits x.digits) x.exponent := by
  have hlt := ofDigits_lt x.digits h
  unfold value
  simp only
  generalize ofDigits x.digits = c at *
  split_ifs with hzero hhigh hlow
  · rw [hzero, Double.ofDecimal_nothing]
  · exact (Double.ofDecimal_of_huge x.negative (Nat.pos_of_ne_zero hzero) hhigh).symm
  · exact (Double.ofDecimal_of_tiny x.negative hlt hlow).symm
  · rfl

end Numeral
end SmallLisp
