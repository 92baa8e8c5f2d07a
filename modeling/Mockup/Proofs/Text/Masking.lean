import Mathlib.Data.List.Basic
import Mockup.Text.Scan

namespace Mockup.Text

def mask (c : Char) : Char := if c.isDigit then '0' else c

def digits : List Char := ['0', '1', '2', '3', '4', '5', '6', '7', '8', '9']

variable {c d : Char} {cs : List Char}

/-- What holds of all characters of ASCII, one by one. -/
theorem of_ascii {P : Char → Prop} (h : ∀ n < 128, P (Char.ofNat n)) (hc : c.toNat < 128) :
    P c := by
  rw [← Char.ofNat_toNat c]
  exact h c.toNat hc

theorem mem_digits (h : c.isDigit = true) : c ∈ digits := by
  have hascii : c.toNat < 128 :=
    Nat.lt_of_le_of_lt (Char.isDigit_iff_toNat.mp h).2 (by decide)
  exact of_ascii (P := fun c => c.isDigit = true → c ∈ digits) (by decide) hascii h

theorem mask_of_not_isDigit (h : c.isDigit = false) : mask c = c := if_neg (by simp [h])

/-- What is the same for all digits does not see the mask. -/
theorem apply_mask {p : Char → Bool} (h : digits.all (fun d => p d == p '0') = true) (c : Char) :
    p (mask c) = p c := by
  cases hc : c.isDigit with
  | false => rw [mask_of_not_isDigit hc]
  | true => rw [mask, if_pos hc, beq_iff_eq.mp (List.all_eq_true.mp h c (mem_digits hc))]

theorem comp_mask {p : Char → Bool} (h : digits.all (fun d => p d == p '0') = true) :
    p ∘ mask = p := by
  funext c
  exact apply_mask h c

theorem isDigit_mask (c : Char) : (mask c).isDigit = c.isDigit :=
  apply_mask (p := Char.isDigit) (by decide) c

theorem isBlank_comp_mask : isBlank ∘ mask = isBlank := comp_mask (by decide)

theorem mask_eq_iff (hd : d.isDigit = false) : mask c = d ↔ c = d := by
  constructor
  · rintro rfl
    rw [isDigit_mask] at hd
    exact (mask_of_not_isDigit hd).symm
  · rintro rfl
    exact mask_of_not_isDigit hd

theorem trimBy_map_mask {p : Char → Bool} (h : p ∘ mask = p) (cs : List Char) :
    trimBy p (cs.map mask) = (trimBy p cs).map mask := by
  simp only [trimBy, trimEndBy, List.dropWhile_map, ← List.map_reverse, h]

theorem isDigit_of_le_toNat (h : 58 ≤ c.toNat) : c.isDigit = false := by
  rw [← Bool.not_eq_true, Char.isDigit_iff_toNat]
  change ¬(48 ≤ c.toNat ∧ c.toNat ≤ 57)
  omega

theorem isDigit_ofNat {n : Nat} (h : 58 ≤ n) : (Char.ofNat n).isDigit = false := by
  by_cases hn : n.isValidChar
  · rw [Char.ofNat, dif_pos hn]
    exact isDigit_of_le_toNat h
  · rw [Char.ofNat, dif_neg hn]
    rfl

/-- No letter has a digit for its lower case. -/
theorem isDigit_shifted (h : c.isDigit = false) : (shifted lowerShifts c).isDigit = false := by
  have hshifts : ∀ s ∈ lowerShifts, 58 ≤ (s.first : Int) + s.shift := by decide +kernel
  rw [shifted]
  split
  · next s hs =>
      have hbound := hshifts s (List.mem_of_find?_eq_some hs)
      have hcovers := List.find?_some hs
      simp only [CaseShift.covers, Bool.and_eq_true, decide_eq_true_eq] at hcovers
      exact isDigit_ofNat (by omega)
  · exact h

theorem isDigit_lowerOne (h : c.isDigit = false) : (lowerOne c).isDigit = false := by
  rw [lowerOne]
  split
  · next hascii =>
      exact of_ascii (P := fun c => c.isDigit = false → c.toLower.isDigit = false)
        (by decide) hascii h
  · exact isDigit_shifted h

theorem lowerChar_mask (c : Char) : lowerChar (mask c) = (lowerChar c).map mask := by
  cases hc : c.isDigit with
  | true =>
      have hdigits : digits.all (fun d => lowerChar (mask d) == (lowerChar d).map mask) = true := by
        decide
      exact beq_iff_eq.mp (List.all_eq_true.mp hdigits c (mem_digits hc))
  | false =>
      rw [mask_of_not_isDigit hc, lowerChar]
      split
      · decide
      · rw [List.map_singleton, mask_of_not_isDigit (isDigit_lowerOne hc)]

theorem startsCased_map_mask (cs : List Char) : startsCased (cs.map mask) = startsCased cs := by
  have hpassed : isPassed ∘ mask = isPassed := comp_mask (by decide)
  rw [startsCased, startsCased, List.dropWhile_map, hpassed]
  cases cs.dropWhile isPassed with
  | nil => rfl
  | cons c rest => exact apply_mask (p := isCased) (by decide) c

theorem lowerAfter_map_mask (before cs : List Char) :
    lowerAfter (before.map mask) (cs.map mask) = (lowerAfter before cs).map mask := by
  induction cs generalizing before with
  | nil => rfl
  | cons c cs ih =>
      simp only [List.map_cons, lowerAfter, List.map_append, ← ih, startsCased_map_mask,
        mask_eq_iff (d := 'Σ') (by decide)]
      congr 1
      split
      · split <;> rfl
      · exact lowerChar_mask c

theorem lowerChars_map_mask (cs : List Char) :
    lowerChars (cs.map mask) = (lowerChars cs).map mask := lowerAfter_map_mask [] cs

theorem map_mask_eq_iff {part : List Char} (hpart : part.any Char.isDigit = false) :
    cs.map mask = part ↔ cs = part := by
  induction part generalizing cs with
  | nil => exact List.map_eq_nil_iff
  | cons d part ih =>
      obtain ⟨hd, hpart⟩ := Bool.or_eq_false_iff.mp hpart
      cases cs with
      | nil => simp
      | cons c cs => rw [List.map_cons, List.cons.injEq, List.cons.injEq, mask_eq_iff hd, ih hpart]

theorem isPrefixOf_map_mask {part : List Char} (hpart : part.any Char.isDigit = false)
    (cs : List Char) : part.isPrefixOf (cs.map mask) = part.isPrefixOf cs := by
  induction part generalizing cs with
  | nil => rfl
  | cons d part ih =>
      obtain ⟨hd, hpart⟩ := Bool.or_eq_false_iff.mp hpart
      cases cs with
      | nil => rfl
      | cons c cs =>
          have heq : (d == mask c) = (d == c) := by
            rw [Bool.eq_iff_iff, beq_iff_eq, beq_iff_eq, eq_comm, mask_eq_iff hd, eq_comm]
          rw [List.map_cons, List.isPrefixOf, List.isPrefixOf, ih hpart, heq]

theorem occursIn_map_mask {part : List Char} (hpart : part.any Char.isDigit = false)
    (cs : List Char) : occursIn part (cs.map mask) = occursIn part cs := by
  induction cs with
  | nil => rfl
  | cons c cs ih =>
      rw [occursIn] at ih ⊢
      rw [List.map_cons, anyTail, ih, ← List.map_cons, isPrefixOf_map_mask hpart]
      rfl

theorem atEnd_map_mask (cs : List Char) : atEnd (cs.map mask) = atEnd cs := by
  have hbreak : (cs.map mask == ['\n']) = (cs == ['\n']) := by
    rw [Bool.eq_iff_iff, beq_iff_eq, beq_iff_eq, map_mask_eq_iff (by decide)]
  rw [atEnd, atEnd, List.isEmpty_map, hbreak]

theorem isDigit_comp_mask : Char.isDigit ∘ mask = Char.isDigit := funext isDigit_mask

theorem isBlank_mask (c : Char) : isBlank (mask c) = isBlank c := congrFun isBlank_comp_mask c

end Mockup.Text
