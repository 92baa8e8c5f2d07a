import Mockup.Layout.Position
import Mockup.Proofs.Number.Numeral
import Mockup.Proofs.Number.Value
import Mockup.Proofs.Text.Splitting

namespace Mockup

namespace Number

structure PlainDecimal where
  negative : Bool
  whole : List Char
  fraction : List Char

namespace PlainDecimal

def text (d : PlainDecimal) : List Char :=
  signText d.negative ++ d.whole ++ (if d.fraction = [] then [] else '.' :: d.fraction)

def digits (d : PlainDecimal) : Nat := ofNumeral (d.whole ++ d.fraction)

def value (d : PlainDecimal) : ℚ :=
  Binary64.signedUnits d.negative d.digits / 10 ^ d.fraction.length

/-- Nothing is written that could be left out: no zero in front of other digits or at the end of a
fraction, and no sign of a zero. There are at most two places. -/
structure IsCanonical (d : PlainDecimal) : Prop where
  whole : IsWhole d.whole
  fraction : ∀ c ∈ d.fraction, c.isDigit = true
  places : d.fraction.length ≤ 2
  last : ∀ c ∈ d.fraction.getLast?, c ≠ '0'
  sign : d.negative = true → d.digits ≠ 0

end PlainDecimal

def readDecimal? (cs : List Char) : Option ℚ := do
  let (negative, cs) := signRun cs
  let (whole, cs) ← wholeRun cs
  let (fraction, cs) ← fractionRun cs
  if cs.isEmpty then some (PlainDecimal.value ⟨negative, whole, fraction⟩) else none

namespace PlainDecimal

variable {d : PlainDecimal}

/-- A decimal is read back as it was written. -/
theorem readDecimal?_text (h : d.IsCanonical) : readDecimal? d.text = some d.value := by
  have hfraction : fractionRun (if d.fraction = [] then [] else '.' :: d.fraction) =
      some (d.fraction, []) := by
    by_cases hempty : d.fraction = []
    · rw [if_pos hempty, hempty]
      rfl
    · rw [if_neg hempty, ← List.append_nil ('.' :: d.fraction)]
      exact fractionRun_append h.fraction hempty (by simp)
  have hwhole : wholeRun (d.whole ++ (if d.fraction = [] then [] else '.' :: d.fraction)) =
      some (d.whole, if d.fraction = [] then [] else '.' :: d.fraction) := by
    refine wholeRun_append h.whole ?_
    split <;> simp
  simp [readDecimal?, text, List.append_assoc, signRun_append h.whole, hwhole, hfraction]

theorem text_ne (h : d.IsCanonical) : d.text ≠ [] ∧ d.text ≠ ['-', '0'] := by
  have hne : d.whole ≠ [] := by
    rcases h.whole with hzero | ⟨c, ds, hcs, -⟩
    · rw [hzero]
      exact List.cons_ne_nil _ _
    · rw [hcs]
      exact List.cons_ne_nil _ _
  refine ⟨by simp [text, hne], fun htext => ?_⟩
  have hsign : signRun d.text = (d.negative,
      d.whole ++ if d.fraction = [] then [] else '.' :: d.fraction) := by
    rw [text, List.append_assoc]
    exact signRun_append h.whole d.negative
  rw [htext] at hsign
  obtain ⟨hnegative, hrest⟩ := Prod.mk.inj hsign
  -- a single digit is all there is, and it is a zero
  rcases List.append_eq_singleton_iff.mp hrest.symm with ⟨hwhole, -⟩ | ⟨hwhole, hfraction⟩
  · exact hne hwhole
  · have hempty : d.fraction = [] := by
      by_contra hne
      rw [if_neg hne] at hfraction
      cases hfraction
    refine h.sign hnegative.symm ?_
    rw [digits, hwhole, hempty]
    rfl

def places (n : Nat) : List Char :=
  let frac := numeral (n % 100)
  if frac.length < 2 then '0' :: frac else frac

theorem hundredthsText_eq (n : Nat) : hundredthsText n = numeral (n / 100) ++ '.' :: places n := rfl

theorem places_spec (n : Nat) : (places n).length = 2 ∧ (∀ c ∈ places n, c.isDigit = true) ∧
    ofNumeral (places n) = n % 100 := by
  have hlength : (numeral (n % 100)).length ≤ 2 :=
    (length_numeral_le_iff (by decide)).mpr (Nat.mod_lt n (by decide))
  have hpos : 0 < (numeral (n % 100)).length := List.length_pos_iff.mpr Nat.toDigits_ne_nil
  rw [places]
  split
  · refine ⟨by rw [List.length_cons]; omega, List.forall_mem_cons.mpr ⟨rfl, isDigit_numeral _⟩, ?_⟩
    rw [ofNumeral_cons_zero, ofNumeral_numeral]
  · exact ⟨by omega, isDigit_numeral _, ofNumeral_numeral _⟩

def ofHundredths (k : ℤ) : PlainDecimal where
  negative := decide (k < 0)
  whole := numeral (k.natAbs / 100)
  fraction := dropTrailingZeros (places k.natAbs)

/-- The places that are left out are zeros. -/
theorem exists_places (k : ℤ) : ∃ j, places k.natAbs = (ofHundredths k).fraction ++ zeros j ∧
    (ofHundredths k).fraction.length + j = 2 := by
  obtain ⟨j, hj⟩ := exists_dropTrailingZeros (places k.natAbs)
  refine ⟨j, hj, ?_⟩
  have hlength := congrArg List.length hj
  rw [(places_spec _).1, List.length_append, zeros, List.length_replicate] at hlength
  exact hlength.symm

theorem digits_ofHundredths {k : ℤ} {j : Nat}
    (hj : places k.natAbs = (ofHundredths k).fraction ++ zeros j) :
    (ofHundredths k).digits * 10 ^ j = k.natAbs := by
  obtain ⟨hlength, -, hvalue⟩ := places_spec k.natAbs
  have hwhole : (ofHundredths k).whole = numeral (k.natAbs / 100) := rfl
  rw [digits, ← ofNumeral_append_zeros, List.append_assoc, ← hj, hwhole, ofNumeral_append,
    ofNumeral_numeral, hlength, hvalue]
  exact Nat.div_add_mod' _ _

theorem value_ofHundredths (k : ℤ) : (ofHundredths k).value = k / 100 := by
  obtain ⟨j, hj, hlength⟩ := exists_places k
  have hnegative : (ofHundredths k).negative = decide (k < 0) := rfl
  have hpow : (100 : ℚ) = 10 ^ (ofHundredths k).fraction.length * 10 ^ j := by
    rw [← pow_add, hlength]
    norm_num
  have hk : (k : ℚ) =
      Binary64.signedUnits (decide (k < 0)) (ofHundredths k).digits * (10 ^ j : Nat) := by
    rw [← Int.cast_natCast (10 ^ j), ← Int.cast_mul, ← signedUnits_mul, digits_ofHundredths hj,
      Binary64.signedUnits_natAbs]
  rw [value, div_eq_div_iff (by positivity) (by positivity), hpow, hk, hnegative]
  push_cast
  ring

theorem isCanonical_ofHundredths (k : ℤ) : (ofHundredths k).IsCanonical := by
  obtain ⟨j, hj, hlength⟩ := exists_places k
  have hdigit := (places_spec k.natAbs).2.1
  rw [hj] at hdigit
  refine ⟨isWhole_numeral _, fun c hc => hdigit c (List.mem_append_left _ hc), by omega, ?_, ?_⟩
  · intro c hc
    have hne : (ofHundredths k).fraction ≠ [] := by
      intro h
      rw [h] at hc
      cases hc
    rw [List.getLast?_eq_some_getLast hne] at hc
    have hlast : ¬((ofHundredths k).fraction.getLast hne == '0') = true :=
      List.rdropWhile_last_not _ (places k.natAbs) hne
    rw [← Option.some.inj hc]
    simpa using hlast
  · intro hnegative hzero
    have hk := digits_ofHundredths hj
    rw [hzero, Nat.zero_mul] at hk
    exact absurd (Int.natAbs_eq_zero.mp hk.symm) (of_decide_eq_true hnegative).ne

end PlainDecimal

end Number

namespace Position

open Number

/-- Nothing but zeros, and a point after which there would be nothing, is trimmed off. -/
theorem trimZeros_hundredths (negative : Bool) {k : ℤ} :
    trimZeros (signText negative ++ hundredthsText k.natAbs) =
      PlainDecimal.text { PlainDecimal.ofHundredths k with negative := negative } := by
  obtain ⟨j, hj, -⟩ := PlainDecimal.exists_places k
  have hcanonical := PlainDecimal.isCanonical_ofHundredths k
  have hwhole : (PlainDecimal.ofHundredths k).whole = numeral (k.natAbs / 100) := rfl
  have hzeros : ∀ c ∈ zeros j, (c == '0') = true := fun c hc => by
    rw [List.eq_of_mem_replicate hc]
    rfl
  have hpoint {c : Char} (hc : c.isDigit = true) : (c == '.') = false := by
    rw [beq_eq_false_iff_ne]
    rintro rfl
    cases hc
  obtain ⟨ds, d, hds⟩ : ∃ ds d, numeral (k.natAbs / 100) = ds ++ [d] :=
    (List.eq_nil_or_concat' _).resolve_left Nat.toDigits_ne_nil
  have hd : d.isDigit = true := isDigit_numeral (k.natAbs / 100) d (by rw [hds]; simp)
  rw [trimZeros, PlainDecimal.hundredthsText_eq, hj, ← List.cons_append, ← List.append_assoc,
    ← List.append_assoc, Text.trimEndBy_append hzeros, PlainDecimal.text, hwhole]
  dsimp only
  rcases List.eq_nil_or_concat' (PlainDecimal.ofHundredths k).fraction with hf | ⟨f, c, hf⟩
  · rw [hf, if_pos rfl, List.append_nil, Text.trimEndBy_concat (· == '0') (by decide),
      Text.trimEndBy_append (List.forall_mem_singleton.mpr rfl), hds, ← List.append_assoc]
    exact Text.trimEndBy_concat (· == '.') (hpoint hd) _
  · have hzero : (c == '0') = false :=
      beq_eq_false_iff_ne.mpr (hcanonical.last c (by rw [hf]; simp))
    have hc := hpoint (hcanonical.fraction c (by rw [hf]; simp))
    rw [hf, if_neg (by simp), ← List.cons_append, ← List.append_assoc,
      Text.trimEndBy_concat (· == '0') hzero, Text.trimEndBy_concat (· == '.') hc]

/-- A number is written as the hundredths to which its exact value is rounded. -/
theorem formatPercent_eq {n : Number} {x : Binary64} {q : ℚ} (hn : n.toReal = .ok x)
    (hx : x.value? = some q) : ∃ k, IsNearest (100 * q) k ∧ formatPercent n =
      .ok (String.ofList ((PlainDecimal.ofHundredths k).text ++ ['%'])) := by
  cases x with
  | nan => cases hx
  | infinity s => cases hx
  | finite s u hu =>
      obtain rfl := Option.some.inj hx
      obtain ⟨m, hm⟩ : ∃ m, roundQuotient (u * 100) unitsPerOne = m := ⟨_, rfl⟩
      obtain ⟨k, hk⟩ : ∃ k, Binary64.signedUnits s m = k := ⟨_, rfl⟩
      have hnatAbs := Binary64.natAbs_signedUnits s m
      rw [hk] at hnatAbs
      refine ⟨k, ?_, ?_⟩
      · have hnearest := isNearest_signed s (u * 100) unitsPerOne_pos
        rw [signedUnits_mul, hm, hk] at hnearest
        convert hnearest using 1
        push_cast
        ring
      · rw [formatPercent, hn, Result.ok_bind, Binary64.fixedText, hm, ← hnatAbs,
          trimZeros_hundredths]
        rcases signedUnits_nonneg_cases s m with hsign | ⟨rfl, rfl⟩
        · rw [hk] at hsign
          obtain ⟨hempty, hzero⟩ :=
            PlainDecimal.text_ne (PlainDecimal.isCanonical_ofHundredths k)
          have htext : PlainDecimal.text { PlainDecimal.ofHundredths k with negative := s } =
              (PlainDecimal.ofHundredths k).text := by
            rw [← hsign]
            rfl
          simp only [htext, hzero, decide_false, Bool.false_or,
            List.isEmpty_eq_false_iff.mpr hempty]
          rfl
        · obtain rfl : k = 0 := Int.natAbs_eq_zero.mp hnatAbs
          decide

variable {n : Number} {x : Binary64} {q : ℚ}

/-- The percentage of a finite number, which is taken as a real, is a decimal in its shortest form:
there are digits before the point and no superfluous zero among them, at most two places and no zero
at their end, and a sign only of what is less than zero. It is read back as the exact value of the
real rounded to hundredths, a half to the even neighbour. So numbers that are rounded to the same
hundredth have one percentage. -/
theorem formatPercent_faithful (hn : n.toReal = .ok x) (hx : x.value? = some q) :
    (∃ (d : PlainDecimal) (k : ℤ), formatPercent n = .ok (String.ofList (d.text ++ ['%'])) ∧
      d.IsCanonical ∧ d.text ≠ [] ∧ d.text ≠ ['-', '0'] ∧ IsNearest (100 * q) k ∧
      readDecimal? d.text = some (k / 100 : ℚ)) ∧
    ∀ (n' : Number) (x' : Binary64) (q' : ℚ) (k : ℤ), n'.toReal = .ok x' → x'.value? = some q' →
      IsNearest (100 * q) k → IsNearest (100 * q') k → formatPercent n' = formatPercent n := by
  obtain ⟨k, hk, hformat⟩ := formatPercent_eq hn hx
  have hcanonical := PlainDecimal.isCanonical_ofHundredths k
  obtain ⟨hempty, hzero⟩ := PlainDecimal.text_ne hcanonical
  constructor
  · refine ⟨_, k, hformat, hcanonical, hempty, hzero, hk, ?_⟩
    rw [PlainDecimal.readDecimal?_text hcanonical, PlainDecimal.value_ofHundredths]
  · intro n' x' q' m hn' hx' hm hm'
    obtain ⟨k', hk', hformat'⟩ := formatPercent_eq hn' hx'
    rw [hformat', hformat, hk'.unique hm', hk.unique hm]

/-- Half a hundredth below -0.12, and a little less below it. -/
theorem formatPercent_faithful_eighth :
    (∃ (d : PlainDecimal) (k : ℤ),
      formatPercent (.real (.ofRatio true 1 8)) = .ok (String.ofList (d.text ++ ['%'])) ∧
      d.IsCanonical ∧ IsNearest (100 * (-1 / 8)) k ∧ readDecimal? d.text = some (k / 100 : ℚ)) ∧
    formatPercent (.real (.ofRatio true 1 8)) = .ok "-0.12%" ∧
    formatPercent (.real (.ofRatio true 31 256)) =
      formatPercent (.real (.ofRatio true 1 8)) := by
  have hvalue : (Binary64.ofRatio true 1 8).value? = some (-1 / 8) := by decide +kernel
  have hvalue' : (Binary64.ofRatio true 31 256).value? = some (-31 / 256) := by decide +kernel
  have hnearest : IsNearest (100 * (-1 / 8)) (-12) := by
    refine ⟨by norm_num [abs_le], fun _ => by decide⟩
  have hnearest' : IsNearest (100 * (-31 / 256)) (-12) := by
    refine ⟨by norm_num [abs_le], fun _ => by decide⟩
  obtain ⟨⟨d, k, hformat, hcanonical, -, -, hk, hread⟩, hsame⟩ :=
    formatPercent_faithful (n := .real (.ofRatio true 1 8)) rfl hvalue
  exact ⟨⟨d, k, hformat, hcanonical, hk, hread⟩, by decide +kernel,
    hsame _ _ _ _ rfl hvalue' hnearest hnearest'⟩

end Position

end Mockup
