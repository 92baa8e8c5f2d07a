import Mathlib.Tactic.IntervalCases
import Mockup.Number.Numeral
import Mockup.Proofs.Number.Decimal

namespace Mockup.Number

def Stops (rest : List Char) : Prop :=
  ∀ c, rest.head? = some c → c.isDigit = false ∧ c ≠ '.' ∧ c ≠ 'e' ∧ c ≠ 'E'

def IsWhole (cs : List Char) : Prop :=
  cs = ['0'] ∨ ∃ c ds, cs = c :: ds ∧ c ≠ '0' ∧ ∀ d ∈ c :: ds, d.isDigit = true

theorem digitRun_append {cs rest : List Char} (hcs : ∀ c ∈ cs, c.isDigit = true)
    (hrest : ∀ c, rest.head? = some c → c.isDigit = false) :
    digitRun (cs ++ rest) = (cs, rest) := by
  have htake : rest.takeWhile Char.isDigit = [] ∧ rest.dropWhile Char.isDigit = rest := by
    cases rest with
    | nil => exact ⟨rfl, rfl⟩
    | cons c rest => simp [hrest c rfl]
  rw [digitRun, List.takeWhile_append_of_pos hcs, List.dropWhile_append_of_pos hcs, htake.1,
    htake.2, List.append_nil]

theorem wholeRun_append {cs rest : List Char} (hcs : IsWhole cs)
    (hrest : ∀ c, rest.head? = some c → c.isDigit = false) :
    wholeRun (cs ++ rest) = some (cs, rest) := by
  rcases hcs with rfl | ⟨c, ds, rfl, hc, hdigits⟩
  · rfl
  · rw [List.cons_append, wholeRun, if_neg hc, if_pos (hdigits c List.mem_cons_self),
      ← List.cons_append, digitRun_append hdigits hrest]

theorem fractionRun_of_stops {rest : List Char} (h : ∀ c, rest.head? = some c → c ≠ '.') :
    fractionRun rest = some ([], rest) := by
  rw [fractionRun]
  rintro cs rfl
  exact h '.' rfl rfl

theorem fractionRun_append {cs rest : List Char} (hcs : ∀ c ∈ cs, c.isDigit = true) (hne : cs ≠ [])
    (hrest : ∀ c, rest.head? = some c → c.isDigit = false) :
    fractionRun ('.' :: cs ++ rest) = some (cs, rest) := by
  simp only [fractionRun, List.cons_append, digitRun_append hcs hrest]
  rw [if_neg (by simpa using hne)]

theorem exponentRun_of_stops {rest : List Char}
    (h : ∀ c, rest.head? = some c → c ≠ 'e' ∧ c ≠ 'E') : exponentRun rest = some (none, rest) := by
  cases rest with
  | nil => rfl
  | cons c rest => simp [exponentRun, h c rfl]

theorem isDigit_numeral (n : Nat) : ∀ c ∈ numeral n, c.isDigit = true :=
  fun _ hc => Nat.isDigit_of_mem_toDigits (by decide) (by decide) hc

theorem ofNumeral_cons_zero (cs : List Char) : ofNumeral ('0' :: cs) = ofNumeral cs := by
  simp [ofNumeral, Nat.ofDigitChars_cons]

theorem exponentRun_append (e : Int) {rest : List Char}
    (hrest : ∀ c, rest.head? = some c → c.isDigit = false) :
    exponentRun ('e' :: exponentText e ++ rest) = some (some e, rest) := by
  obtain ⟨ds, hds, hdigits, hne, hvalue⟩ : ∃ ds,
      (if (numeral e.natAbs).length < 2 then '0' :: numeral e.natAbs else numeral e.natAbs) = ds ∧
      (∀ c ∈ ds, c.isDigit = true) ∧ ds ≠ [] ∧ ofNumeral ds = e.natAbs := by
    refine ⟨_, rfl, ?_⟩
    split
    · refine ⟨?_, List.cons_ne_nil _ _, ?_⟩
      · rintro c hc
        rcases List.mem_cons.mp hc with rfl | hc
        · rfl
        · exact isDigit_numeral _ c hc
      · rw [ofNumeral_cons_zero, ofNumeral_numeral]
    · exact ⟨isDigit_numeral _, Nat.toDigits_ne_nil, ofNumeral_numeral _⟩
  have hempty : ds.isEmpty = false := by simpa using hne
  by_cases he : e < 0
  · simp only [exponentText, hds, he, if_true, exponentRun, List.cons_append, signRun,
      digitRun_append hdigits hrest, hempty, hvalue]
    simp [-Nat.cast_natAbs]
    omega
  · simp only [exponentText, hds, he, if_false, exponentRun, List.cons_append, signRun,
      digitRun_append hdigits hrest, hempty, hvalue]
    simp [-Nat.cast_natAbs]
    omega

theorem head?_numeral_ne {n : Nat} (hn : 0 < n) : ∀ c, (numeral n).head? = some c → c ≠ '0' := by
  induction n using Nat.base_induction 10 (by decide) with
  | single m hm =>
      intro c hc
      rw [numeral, Nat.toDigits_of_lt_base hm] at hc
      cases hc
      interval_cases m <;> decide
  | digit m k hk hm ih =>
      intro c hc
      rw [numeral, ← Nat.toDigits_append_toDigits (by decide) hm hk] at hc
      rw [numeral] at ih
      cases hcs : Nat.toDigits 10 m with
      | nil => exact absurd hcs Nat.toDigits_ne_nil
      | cons d ds =>
          rw [hcs] at hc ih
          exact ih hm c hc

theorem isWhole_numeral (n : Nat) : IsWhole (numeral n) := by
  rcases Nat.eq_zero_or_pos n with rfl | hn
  · exact .inl rfl
  · cases hcs : numeral n with
    | nil => exact absurd hcs Nat.toDigits_ne_nil
    | cons c ds =>
        exact .inr ⟨c, ds, rfl, head?_numeral_ne hn c (by rw [hcs]; rfl), hcs ▸ isDigit_numeral n⟩

theorem ofNumeral_append_zeros (cs : List Char) (j : Nat) :
    ofNumeral (cs ++ zeros j) = ofNumeral cs * 10 ^ j := by
  rw [ofNumeral, Nat.ofDigitChars_append, zeros, Nat.ofDigitChars_replicate_zero, Nat.mul_comm,
    ofNumeral]

theorem ofNumeral_zeros_append (cs : List Char) (j : Nat) :
    ofNumeral (zeros j ++ cs) = ofNumeral cs := by
  rw [ofNumeral, Nat.ofDigitChars_append, zeros, Nat.ofDigitChars_replicate_zero, Nat.mul_zero,
    ofNumeral]

theorem magnitude?_of_runs {negative : Bool} {cs whole afterWhole fraction afterFraction rest :
    List Char} {exponent : Option Int} (hw : wholeRun cs = some (whole, afterWhole))
    (hf : fractionRun afterWhole = some (fraction, afterFraction))
    (he : exponentRun afterFraction = some (exponent, rest)) :
    magnitude? negative cs = some (numeralValue negative whole fraction exponent, rest) := by
  simp [magnitude?, hw, hf, he]

/-- With a point or an exponent a numeral is a real. -/
theorem numeralValue_of_real {whole fraction : List Char} {exponent : Option Int}
    (h : fraction ≠ [] ∨ exponent ≠ none) (negative : Bool) :
    numeralValue negative whole fraction exponent = .real (.ofDecimal negative
      ⟨ofNumeral (whole ++ fraction), exponent.getD 0 - fraction.length⟩) := by
  cases fraction with
  | cons c cs => rfl
  | nil =>
      cases exponent with
      | some e => rfl
      | none => simp at h

/-- A numeral with a point, and nothing that goes on with it. -/
theorem magnitude?_pointed {ws fs rest : List Char} (hws : IsWhole ws)
    (hfs : ∀ d ∈ fs, d.isDigit = true) (hne : fs ≠ []) (hrest : Stops rest) (negative : Bool) :
    magnitude? negative (ws ++ '.' :: fs ++ rest) =
      some (.real (.ofDecimal negative ⟨ofNumeral (ws ++ fs), -fs.length⟩), rest) := by
  rw [List.append_assoc, magnitude?_of_runs (wholeRun_append hws (by simp))
    (fractionRun_append hfs hne fun c h => (hrest c h).1)
    (exponentRun_of_stops fun c h => (hrest c h).2.2), numeralValue_of_real (.inl hne),
    Option.getD_none, Int.zero_sub]

theorem isDigit_append_zeros {ds : List Char} (hds : ∀ d ∈ ds, d.isDigit = true) (j : Nat) :
    ∀ d ∈ ds ++ zeros j, d.isDigit = true := by
  intro d hd
  rcases List.mem_append.mp hd with hd | hd
  · exact hds d hd
  · rw [(List.mem_replicate.mp hd).2]
    rfl

section Text

variable {c : Char} {ds rest : List Char} (hc : c ≠ '0') (hds : ∀ d ∈ c :: ds, d.isDigit = true)

include hc hds

/-- Digits with a point among them are a numeral of the same value, whether zeros come before them,
after them, or not at all. -/
theorem positional_pointed (point : Int) : ∃ ws fs, positional (c :: ds) point = ws ++ '.' :: fs ∧
    IsWhole ws ∧ (∀ d ∈ fs, d.isDigit = true) ∧ fs ≠ [] ∧
    ∀ negative, Binary64.ofDecimal negative ⟨ofNumeral (ws ++ fs), -fs.length⟩ =
      .ofDecimal negative ⟨ofNumeral (c :: ds), point - (c :: ds).length⟩ := by
  rw [positional]
  split
  · next hpoint =>
      refine ⟨['0'], zeros (-point).toNat ++ c :: ds, rfl, .inl rfl, fun d hd => ?_, by simp,
        fun negative => ?_⟩
      · exact isDigit_append_zeros hds (-point).toNat d
          (List.mem_append.mpr (List.mem_append.mp hd).symm)
      · have hplaces : -((zeros (-point).toNat ++ c :: ds).length : Int) =
            point - (c :: ds).length := by
          rw [List.length_append, zeros, List.length_replicate]
          omega
        rw [List.singleton_append, ofNumeral_cons_zero, ofNumeral_zeros_append, hplaces]
  · next hpoint =>
      simp only
      split
      · next hlength =>
          generalize hj : point.toNat - (c :: ds).length = j
          refine ⟨c :: ds ++ zeros j, ['0'], by simp, .inr ⟨c, ds ++ zeros j, rfl, hc,
            isDigit_append_zeros hds j⟩, by simp, by simp, fun negative => ?_⟩
          have hvalue : ofNumeral (c :: ds ++ zeros j ++ ['0']) =
              ofNumeral (c :: ds) * 10 ^ (j + 1) := by
            rw [← ofNumeral_append_zeros, List.append_assoc, zeros, zeros, List.replicate_succ']
          have hplaces : -((['0'] : List Char).length : Int) =
              point - (c :: ds).length - (j + 1 : Nat) := by
            rw [List.length_singleton]
            omega
          rw [hvalue, hplaces, ofDecimal_mul_pow]
      · next hlength =>
          obtain ⟨q, hq⟩ : ∃ q, point.toNat = q + 1 := ⟨point.toNat - 1, by omega⟩
          rw [hq] at hlength ⊢
          have hdrop : (c :: ds).drop (q + 1) ≠ [] := by
            rw [ne_eq, List.drop_eq_nil_iff]
            exact hlength
          refine ⟨(c :: ds).take (q + 1), (c :: ds).drop (q + 1), rfl, .inr ⟨c, ds.take q, rfl, hc,
            fun d hd => hds d (List.mem_of_mem_take (i := q + 1) hd)⟩,
            fun d hd => hds d (List.mem_of_mem_drop hd), hdrop, fun negative => ?_⟩
          have hplaces : -(((c :: ds).drop (q + 1)).length : Int) = point - (c :: ds).length := by
            rw [List.length_drop]
            omega
          rw [List.take_append_drop, hplaces]

variable (hrest : Stops rest) (negative : Bool)

include hrest

theorem magnitude?_positional (point : Int) :
    magnitude? negative (positional (c :: ds) point ++ rest) = some (.real (.ofDecimal negative
      ⟨ofNumeral (c :: ds), point - (c :: ds).length⟩), rest) := by
  obtain ⟨ws, fs, htext, hws, hfs, hne, hvalue⟩ := positional_pointed hc hds point
  rw [htext, magnitude?_pointed hws hfs hne hrest, hvalue]

theorem magnitude?_scientific (e : Int) :
    magnitude? negative (scientific (c :: ds) e ++ rest) = some (.real (.ofDecimal negative
      ⟨ofNumeral (c :: ds), e + 1 - (c :: ds).length⟩), rest) := by
  have hdigit : ∀ c, rest.head? = some c → c.isDigit = false := fun c h => (hrest c h).1
  have hexponent := exponentRun_append e hdigit
  have hwhole : IsWhole [c] := .inr ⟨c, [], rfl, hc, fun d hd =>
    hds d (List.mem_of_mem_take (i := 1) hd)⟩
  cases ds with
  | nil =>
      have htext : scientific [c] e ++ rest = [c] ++ ('e' :: exponentText e ++ rest) := rfl
      rw [htext, magnitude?_of_runs (wholeRun_append hwhole (by simp))
        (fractionRun_of_stops (by simp)) hexponent, numeralValue_of_real (.inr (by simp))]
      simp
  | cons d ds =>
      have htext : scientific (c :: d :: ds) e ++ rest =
          [c] ++ ('.' :: (d :: ds) ++ ('e' :: exponentText e ++ rest)) := by
        simp [scientific]
      have hplaces : e - (d :: ds).length = e + 1 - (c :: d :: ds).length := by
        rw [List.length_cons (a := c)]
        omega
      rw [htext, magnitude?_of_runs (wholeRun_append hwhole (by simp))
        (fractionRun_append (fun x hx => hds x (List.mem_cons_of_mem _ hx)) (by simp) (by simp))
        hexponent, numeralValue_of_real (.inr (by simp)), Option.getD_some, hplaces,
        List.singleton_append]

end Text

theorem exists_dropTrailingZeros (cs : List Char) :
    ∃ j, cs = dropTrailingZeros cs ++ zeros j := by
  obtain ⟨j, hj⟩ : ∃ j, cs.reverse.takeWhile (· == '0') = zeros j :=
    ⟨_, List.eq_replicate_iff.mpr ⟨rfl, fun c hc => by
      simpa using List.all_eq_true.mp List.all_takeWhile c hc⟩⟩
  refine ⟨j, ?_⟩
  have hsplit := congrArg List.reverse (List.takeWhile_append_dropWhile (p := (· == '0'))
    (l := cs.reverse))
  rw [List.reverse_reverse, List.reverse_append, hj, zeros, List.reverse_replicate] at hsplit
  exact hsplit.symm

/-- What is left of a numeral without the zeros at its end: it starts with no zero, and its value is
that of the numeral but for a power of ten. -/
theorem exists_significant {n : Nat} (hn : 0 < n) :
    ∃ c ds j, dropTrailingZeros (numeral n) = c :: ds ∧ c ≠ '0' ∧
      (∀ d ∈ c :: ds, d.isDigit = true) ∧ ofNumeral (c :: ds) * 10 ^ j = n ∧
      (numeral n).length = (c :: ds).length + j := by
  obtain ⟨j, hj⟩ := exists_dropTrailingZeros (numeral n)
  have hfirst := head?_numeral_ne hn
  have hall := isDigit_numeral n
  have hvalue := ofNumeral_numeral n
  have hlength := congrArg List.length hj
  rw [hj] at hfirst hall hvalue
  rw [ofNumeral_append_zeros] at hvalue
  rw [List.length_append, zeros, List.length_replicate] at hlength
  cases hds : dropTrailingZeros (numeral n) with
  | nil =>
      rw [hds] at hj hfirst
      cases j with
      | zero => exact absurd hj Nat.toDigits_ne_nil
      | succ j => exact absurd rfl (hfirst '0' rfl)
  | cons c ds =>
      rw [hds] at hfirst hall hvalue hlength
      exact ⟨c, ds, j, rfl, hfirst c rfl, fun d hd => hall d (List.mem_append_left _ hd), hvalue,
        hlength⟩

theorem magnitude?_numeral (n : Nat) {rest : List Char} (hrest : Stops rest) (negative : Bool) :
    magnitude? negative (numeral n ++ rest) =
      some (.int (if negative then -(n : Int) else n), rest) := by
  rw [magnitude?_of_runs (wholeRun_append (isWhole_numeral n) fun c h => (hrest c h).1)
    (fractionRun_of_stops fun c h => (hrest c h).2.1) (exponentRun_of_stops fun c h =>
      (hrest c h).2.2), numeralValue, ofNumeral_numeral]

/-- The text of a magnitude, its sign apart, reads back as that magnitude. -/
theorem magnitude?_magnitudeText (style : RealStyle) {units : Nat} (h : Representable units)
    {rest : List Char} (hrest : Stops rest) (negative : Bool) :
    magnitude? negative (magnitudeText style units ++ rest) =
      some (.real (.finite negative units h), rest) := by
  rw [magnitudeText]
  split
  · next hzero =>
      subst hzero
      have htext : ['0', '.', '0'] ++ rest = ['0'] ++ '.' :: ['0'] ++ rest := rfl
      rw [htext, magnitude?_pointed (.inl rfl) (by simp) (by simp) hrest]
      simp [ofNumeral, Nat.ofDigitChars_cons, Binary64.ofDecimal, Binary64.zero_eq]
  · next hunits =>
      have hread := ofDecimal_shortest h (Nat.pos_of_ne_zero hunits) negative
      generalize shortest units = d at hread
      have hdigits : 0 < d.digits := by
        rcases Nat.eq_zero_or_pos d.digits with hd | hd
        · rw [Binary64.ofDecimal, if_pos hd, Binary64.zero_eq] at hread
          cases hread
          exact absurd rfl hunits
        · exact hd
      obtain ⟨c, ds, j, hds, hc, hdigit, hvalue, hlength⟩ := exists_significant hdigits
      have hshift : Binary64.ofDecimal negative ⟨ofNumeral (c :: ds), d.exponent + j⟩ =
          .finite negative units h := by
        rw [← ofDecimal_mul_pow negative _ j, hvalue, Int.add_sub_cancel]
        exact hread
      have hplaces : d.exponent + (numeral d.digits).length - 1 + 1 - (c :: ds).length =
          d.exponent + j := by
        rw [hlength]
        omega
      simp only [hds]
      split
      · rw [magnitude?_positional hc hdigit hrest, hplaces, hshift]
      · rw [magnitude?_scientific hc hdigit hrest, hplaces, hshift]

theorem ofNumeral_append (cs ds : List Char) :
    ofNumeral (cs ++ ds) = ofNumeral cs * 10 ^ ds.length + ofNumeral ds := by
  rw [ofNumeral, Nat.ofDigitChars_append, Nat.ofDigitChars_eq_ofDigitChars_zero, Nat.mul_comm]
  rfl

theorem signRun_append {cs rest : List Char} (hcs : IsWhole cs) (negative : Bool) :
    signRun (signText negative ++ (cs ++ rest)) = (negative, cs ++ rest) := by
  cases negative with
  | true => rfl
  | false =>
      rw [signText, if_neg Bool.false_ne_true, List.nil_append]
      rcases hcs with rfl | ⟨c, ds, rfl, -, hdigits⟩
      · rfl
      · -- a digit is no sign
        have hc := hdigits c List.mem_cons_self
        rw [List.cons_append, signRun]
        · rintro _ ⟨⟩
          cases hc
        · rintro _ ⟨⟩
          cases hc

end Mockup.Number
