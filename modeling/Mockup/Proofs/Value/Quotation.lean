import Mathlib.Tactic.IntervalCases
import Mockup.Proofs.Number.Numeral
import Mockup.Value.Reader
import Mockup.Value.Writer

namespace Mockup.Value

theorem hexUnit?_hexDigit {n : Nat} (h : n < 32) :
    hexUnit? '0' '0' (hexDigit (n / 16)) (hexDigit (n % 16)) = some n := by
  revert n
  decide

/-- An escaped character stands for itself. -/
theorem quotedUnits_escape (c : Char) (rest : List Char) :
    quotedUnits (escape c ++ rest) = (quotedUnits rest).map fun r => (c.toNat :: r.1, r.2) := by
  have hshort (e d : Char) (he : e ≠ 'u') (hd : shortEscape? e = some d) :
      quotedUnits (['\\', e] ++ rest) = (quotedUnits rest).map fun r => (d.toNat :: r.1, r.2) := by
    rw [List.cons_append, List.singleton_append, quotedUnits]
    · rw [hd]
      cases quotedUnits rest <;> rfl
    · rintro a b c d cs h -
      exact he h
  rw [escape]
  split
  · next h => exact h ▸ hshort '"' '"' (by decide) rfl
  split
  · next h => exact h ▸ hshort '\\' '\\' (by decide) rfl
  split
  · next h => exact h ▸ hshort 'n' '\n' (by decide) rfl
  split
  · next h => exact h ▸ hshort 'r' '\r' (by decide) rfl
  split
  · next h => exact h ▸ hshort 't' '\t' (by decide) rfl
  split
  · next h => exact h ▸ hshort 'b' '\x08' (by decide) rfl
  split
  · next h => exact h ▸ hshort 'f' '\x0c' (by decide) rfl
  split
  · next h =>
      simp only [List.cons_append, List.nil_append, quotedUnits, hexUnit?_hexDigit h]
      cases quotedUnits rest <;> rfl
  · next hquote hback _ _ _ _ _ hcontrol =>
      rw [List.singleton_append, quotedUnits]
      · rw [if_neg hquote, if_neg hcontrol]
        cases quotedUnits rest <;> rfl
      · rintro a b c d cs rfl
        exact absurd rfl hback
      · rintro e cs rfl
        exact absurd rfl hback

theorem quotedUnits_flatMap_escape (cs rest : List Char) :
    quotedUnits (cs.flatMap escape ++ '"' :: rest) = some (cs.map Char.toNat, rest) := by
  induction cs with
  | nil => simp [quotedUnits]
  | cons c cs ih =>
      rw [List.flatMap_cons, List.append_assoc, quotedUnits_escape, ih]
      rfl

theorem isHalf_toNat (c : Char) : Text.isHalf c.toNat = false := by
  have hvalid : c.toNat < 0xD800 ∨ 0xDFFF < c.toNat := c.valid.imp id And.left
  simp only [Text.isHalf, Text.isFirstHalf, Text.isSecondHalf, Bool.or_eq_false_iff,
    Bool.and_eq_false_iff, decide_eq_false_iff_not]
  omega

theorem isFirstHalf_toNat (c : Char) : Text.isFirstHalf c.toNat = false :=
  (Bool.or_eq_false_iff.mp (isHalf_toNat c)).1

theorem pointsOfUnits_map_toNat (cs : List Char) :
    Text.pointsOfUnits (cs.map Char.toNat) = cs.map Char.toNat := by
  induction cs with
  | nil => rfl
  | cons c cs ih =>
      cases cs with
      | nil => rfl
      | cons d cs =>
          rw [List.map_cons, List.map_cons, Text.pointsOfUnits, isFirstHalf_toNat, Bool.false_and,
            if_neg Bool.false_ne_true, ← List.map_cons, ih]

theorem charsOfUnits_map_toNat (cs : List Char) : charsOfUnits (cs.map Char.toNat) = cs := by
  have hshown (c : Char) : Text.shownPoint c.toNat = c := by
    rw [Text.shownPoint, isHalf_toNat, if_neg Bool.false_ne_true, Char.ofNat_toNat]
  rw [charsOfUnits, pointsOfUnits_map_toNat, List.map_map]
  exact List.map_id'' hshown cs

theorem textToken_quoted (s : String) (rest : List Char) :
    textToken (s.toList.flatMap escape ++ '"' :: rest) = some (s, rest) := by
  rw [textToken, quotedUnits_flatMap_escape, Option.map_some, charsOfUnits_map_toNat,
    String.ofList_toList]

def StartsWith (cs : List Char) (t : Token) : Prop :=
  ∃ c tail, cs = c :: tail ∧ isBlankChar c = false ∧
    ∀ rest, Number.Stops rest → nextToken? c (tail ++ rest) = some (t, rest)

theorem startsWith_quoted (s : String) : StartsWith (quoted s) (.text s) := by
  refine ⟨'"', s.toList.flatMap escape ++ ['"'], rfl, rfl, fun rest _ => ?_⟩
  rw [List.append_assoc, List.singleton_append, nextToken?, textToken_quoted]
  rfl

theorem startsWith_word {word : String} {v : Value} (h : (word, v) ∈ words) :
    StartsWith word.toList (.scalar v) := by
  have hword {c : Char} {tail : List Char} (hcs : word.toList = c :: tail)
      (hc : isBlankChar c = false)
      (ht : ∀ rest, nextToken? c (tail ++ rest) = some (.scalar v, rest)) :
      StartsWith word.toList (.scalar v) := ⟨c, tail, hcs, hc, fun rest _ => ht rest⟩
  simp only [words, List.mem_cons, Prod.mk.injEq, List.not_mem_nil, or_false] at h
  rcases h with ⟨rfl, rfl⟩ | ⟨rfl, rfl⟩ | ⟨rfl, rfl⟩ | ⟨rfl, rfl⟩ | ⟨rfl, rfl⟩ | ⟨rfl, rfl⟩ <;>
    exact hword (by simp; exact ⟨rfl, rfl⟩) rfl fun rest => by
      simp [nextToken?, markToken?, wordToken, words, afterWord?]

theorem ne_of_isDigit {c d : Char} (hc : c.isDigit = true) (hd : d.isDigit = false) : c ≠ d := by
  rintro rfl
  rw [hc] at hd
  cases hd

/-- A digit starts nothing but a number. -/
theorem nextToken?_of_isDigit {c : Char} (hc : c.isDigit = true) (cs : List Char) :
    nextToken? c cs = (Number.magnitude? false (c :: cs)).map
      fun r => (.scalar (.number r.1), r.2) := by
  have hne {d : Char} (hd : d.isDigit = false) : c ≠ d := ne_of_isDigit hc hd
  have hword : wordToken (c :: cs) = none := by
    simp [wordToken, words, afterWord?, (hne _).symm, Char.isDigit]
  have hnumber : numberToken (c :: cs) =
      (Number.magnitude? false (c :: cs)).map fun r => (.number r.1, r.2) := by
    rw [numberToken]
    rintro cs' h
    cases h
    cases hc
  rw [nextToken?, markToken?]
  simp [hne, Char.isDigit, hword, hnumber, Function.comp_def]

theorem nextToken?_minus {c : Char} (hc : c.isDigit = true) (cs : List Char) :
    nextToken? '-' (c :: cs) = (Number.magnitude? true (c :: cs)).map
      fun r => (.scalar (.number r.1), r.2) := by
  have hword : wordToken ('-' :: c :: cs) = none := by
    simp [wordToken, words, afterWord?, (ne_of_isDigit hc _).symm, Char.isDigit]
  rw [nextToken?, markToken?]
  simp [hword, numberToken, Function.comp_def]

/-- A magnitude starts with a digit. -/
theorem isDigit_of_magnitude? {negative : Bool} {cs : List Char} {r : Number × List Char}
    (h : Number.magnitude? negative cs = some r) : ∃ c tail, cs = c :: tail ∧ c.isDigit = true := by
  rw [Number.magnitude?] at h
  obtain ⟨run, hrun, -⟩ := Option.bind_eq_some_iff.mp h
  cases cs with
  | nil => cases hrun
  | cons c tail =>
      refine ⟨c, tail, rfl, ?_⟩
      rw [Number.wholeRun] at hrun
      split at hrun
      · next hzero => rw [hzero]; rfl
      · split at hrun
        · assumption
        · cases hrun

theorem startsWith_number {negative : Bool} {body : List Char} {n : Number}
    (h : ∀ rest, Number.Stops rest → Number.magnitude? negative (body ++ rest) = some (n, rest)) :
    StartsWith (Number.signText negative ++ body) (.scalar (.number n)) := by
  obtain ⟨c, tail, hbody, hc⟩ := isDigit_of_magnitude? (h [] (by simp [Number.Stops]))
  rw [List.append_nil] at hbody
  subst hbody
  cases negative with
  | false =>
      refine ⟨c, tail, rfl, ?_, fun rest hrest => ?_⟩
      · have hne {d : Char} (hd : d.isDigit = false) : c ≠ d := ne_of_isDigit hc hd
        simp [isBlankChar, hne, Char.isDigit]
      · rw [nextToken?_of_isDigit hc, ← List.cons_append, h rest hrest]
        rfl
  | true =>
      refine ⟨'-', c :: tail, rfl, rfl, fun rest hrest => ?_⟩
      rw [List.cons_append, nextToken?_minus hc, ← List.cons_append, h rest hrest]
      rfl

/-- Numbers are written so that they are read back, the exceptional reals as words. -/
theorem startsWith_text (n : Number) : StartsWith (n.text realStyle) (.scalar (.number n)) := by
  cases n with
  | int i =>
      have hsign : (if decide (i < 0) = true then -(i.natAbs : Int) else i.natAbs) = i := by
        simp only [decide_eq_true_eq]
        split <;> omega
      have hread (rest : List Char) (hrest : Number.Stops rest) :
          Number.magnitude? (decide (i < 0)) (Number.numeral i.natAbs ++ rest) =
            some (.int i, rest) := by
        rw [Number.magnitude?_numeral _ hrest, hsign]
      exact startsWith_number hread
  | real x =>
      cases x with
      | nan => exact startsWith_word (show ("NaN", _) ∈ words by simp [words])
      | infinity negative =>
          cases negative with
          | false => exact startsWith_word (show ("Infinity", _) ∈ words by simp [words])
          | true => exact startsWith_word (show ("-Infinity", _) ∈ words by simp [words])
      | finite negative units h =>
          exact startsWith_number fun rest hrest =>
            Number.magnitude?_magnitudeText realStyle h hrest negative

end Mockup.Value
