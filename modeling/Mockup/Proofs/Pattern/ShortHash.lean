import Mathlib.Algebra.BigOperators.Fin
import Mathlib.Data.Nat.Digits.Defs
import Mathlib.Data.Nat.ModEq
import Mathlib.Tactic.Ring
import Mockup.Pattern.Listing
import Mockup.Proofs.Naming.Identifier
import Mockup.Proofs.Text.Masking

namespace Mockup.Listing

variable {n : Nat} {c : Char} {cs ds all : List Char}

def isBase36 (c : Char) : Bool := c.isDigit || c.isLower

def digitValue (c : Char) : Nat :=
  if c.isDigit then c.toNat - '0'.toNat else c.toNat - 'a'.toNat + 10

def ofBase36 (cs : List Char) : Nat := Nat.ofDigits 36 (cs.reverse.map digitValue)

/-- Digits that spell a number, with no zero in front of others. -/
structure IsNumeral (n : Nat) (cs : List Char) : Prop where
  digits : ∀ c ∈ cs, isBase36 c = true
  value : ofBase36 cs = n
  first : cs = ['0'] ∨ ∃ c ds, cs = c :: ds ∧ c ≠ '0'

theorem isBase36_base36Digit {d : Nat} (hd : d < 36) : isBase36 (base36Digit d) = true := by
  revert d
  decide

theorem digitValue_base36Digit {d : Nat} (hd : d < 36) : digitValue (base36Digit d) = d := by
  revert d
  decide

/-- What holds of all digits, one by one. -/
theorem of_isBase36 {P : Char → Prop}
    (h : ∀ n < 128, isBase36 (Char.ofNat n) = true → P (Char.ofNat n)) (hc : isBase36 c = true) :
    P c := by
  have hplain : Text.isPlain c = true := by
    change (c.isUpper || c.isLower || c.isDigit) = true
    rcases Bool.or_eq_true_iff.mp hc with hdigit | hlower
    · rw [hdigit, Bool.or_true]
    · rw [hlower, Bool.or_true, Bool.true_or]
  exact Text.of_ascii (P := fun c => isBase36 c = true → P c) h (Text.toNat_lt_of_isPlain hplain) hc

theorem digitValue_lt (hc : isBase36 c = true) : digitValue c < 36 :=
  of_isBase36 (P := fun c => digitValue c < 36) (by decide) hc

theorem base36Digit_digitValue (hc : isBase36 c = true) : base36Digit (digitValue c) = c :=
  of_isBase36 (P := fun c => base36Digit (digitValue c) = c) (by decide) hc

theorem digitValue_ne_zero (hc : isBase36 c = true) (hzero : c ≠ '0') : digitValue c ≠ 0 := by
  intro h
  apply hzero
  rw [← base36Digit_digitValue hc, h]
  decide

theorem map_base36Digit (h : ∀ c ∈ cs, isBase36 c = true) :
    (cs.map digitValue).map base36Digit = cs := by
  rw [List.map_map]
  calc cs.map (base36Digit ∘ digitValue) = cs.map id :=
        List.map_congr_left fun c hc => base36Digit_digitValue (h c hc)
    _ = cs := List.map_id cs

theorem ofBase36_concat (cs : List Char) (c : Char) :
    ofBase36 (cs ++ [c]) = digitValue c + 36 * ofBase36 cs := by
  rw [ofBase36, List.reverse_concat, List.map_cons, Nat.ofDigits_cons, ofBase36]

namespace IsNumeral

theorem ne_nil (h : IsNumeral n cs) : cs ≠ [] := by
  rcases h.first with rfl | ⟨c, ds, rfl, -⟩
  · exact List.cons_ne_nil _ _
  · exact List.cons_ne_nil _ _

theorem singleton {d : Nat} (hd : d < 36) : IsNumeral d [base36Digit d] := by
  refine ⟨List.forall_mem_singleton.mpr (isBase36_base36Digit hd), ?_, ?_⟩
  · rw [← List.nil_append [base36Digit d], ofBase36_concat, digitValue_base36Digit hd]
    rfl
  · by_cases h : base36Digit d = '0'
    · exact .inl (by rw [h])
    · exact .inr ⟨_, [], rfl, h⟩

/-- One more digit at the end of a numeral, unless that is a zero. -/
theorem concat {d : Nat} (h : IsNumeral n cs) (hn : n ≠ 0) (hd : d < 36) :
    IsNumeral (d + 36 * n) (cs ++ [base36Digit d]) := by
  refine ⟨?_, ?_, ?_⟩
  · intro c hc
    rcases List.mem_append.mp hc with hc | hc
    · exact h.digits c hc
    · rw [List.mem_singleton.mp hc]
      exact isBase36_base36Digit hd
  · rw [ofBase36_concat, digitValue_base36Digit hd, h.value]
  · rcases h.first with rfl | ⟨c, ds, rfl, hc⟩
    · exact absurd h.value.symm hn
    · exact .inr ⟨c, ds ++ [base36Digit d], rfl, hc⟩

/-- Without a zero in front the digits are those of the number. -/
theorem digits_eq (h : IsNumeral n cs) : cs = ['0'] ∧ n = 0 ∨
    n ≠ 0 ∧ Nat.digits 36 n = cs.reverse.map digitValue := by
  rcases h.first with rfl | ⟨c, ds, rfl, hc⟩
  · exact .inl ⟨rfl, h.value.symm⟩
  · have hdigits : Nat.digits 36 n = (c :: ds).reverse.map digitValue := by
      rw [← h.value]
      apply Nat.digits_ofDigits 36 (by decide)
      · intro v hv
        obtain ⟨d, hd, rfl⟩ := List.mem_map.mp hv
        exact digitValue_lt (h.digits d (List.mem_reverse.mp hd))
      · intro _
        simp only [List.reverse_cons, List.map_append, List.map_cons, List.map_nil,
          List.getLast_concat]
        exact digitValue_ne_zero (h.digits c List.mem_cons_self) hc
    refine .inr ⟨?_, hdigits⟩
    rintro rfl
    simp at hdigits

theorem unique (h : IsNumeral n cs) (h' : IsNumeral n ds) : cs = ds := by
  rcases h.digits_eq with ⟨rfl, hn⟩ | ⟨hn, hcs⟩
  · rcases h'.digits_eq with ⟨rfl, -⟩ | ⟨hn', -⟩
    · rfl
    · exact absurd hn hn'
  · rcases h'.digits_eq with ⟨-, hn'⟩ | ⟨-, hds⟩
    · exact absurd hn' hn
    · rw [hcs, List.map_reverse, List.map_reverse, List.reverse_inj] at hds
      rw [← map_base36Digit h.digits, hds, map_base36Digit h'.digits]

end IsNumeral

/-- A pass takes the last digit off a number and puts it in front of those written so far. The loop
makes a pass, and goes on as long as anything is left. -/
inductive Writes : Nat → List Char → List Char → Prop
  | last {n : Nat} {ds : List Char} (h : n / 36 = 0) : Writes n ds (base36Digit (n % 36) :: ds)
  | next {n : Nat} {ds all : List Char} (h : n / 36 ≠ 0)
      (rest : Writes (n / 36) (base36Digit (n % 36) :: ds) all) : Writes n ds all

/-- What the loop writes is the numeral of the number it starts from. -/
theorem Writes.isNumeral (h : Writes n ds all) : ∃ cs, all = cs ++ ds ∧ IsNumeral n cs := by
  induction h with
  | @last n ds h =>
      have hn : n % 36 = n := Nat.mod_eq_of_lt (by omega)
      refine ⟨[base36Digit (n % 36)], rfl, ?_⟩
      rw [hn]
      exact .singleton (by omega)
  | @next n ds all h _ ih =>
      obtain ⟨cs, rfl, hcs⟩ := ih
      refine ⟨cs ++ [base36Digit (n % 36)], by simp, ?_⟩
      have hnumeral := hcs.concat h (Nat.mod_lt n (by decide : 36 > 0))
      rwa [Nat.mod_add_div] at hnumeral

theorem Writes.isNumeral_of_nil (h : Writes n [] all) : IsNumeral n all := by
  obtain ⟨cs, rfl, hcs⟩ := h.isNumeral
  rwa [List.append_nil]

/-- The loop ends, and there is fuel for all of its passes. -/
theorem writes_base36Reversed {fuel : Nat} (hn : n < fuel) (ds : List Char) :
    Writes n ds ((base36Reversed fuel n).reverse ++ ds) := by
  induction fuel generalizing n ds with
  | zero => omega
  | succ fuel ih =>
      rw [base36Reversed]
      split
      · next h => exact .last h
      · next h =>
          rw [List.reverse_cons, List.append_assoc]
          exact .next h (ih (by omega) _)

theorem IsNumeral.base36Reversed_eq {fuel : Nat} (h : IsNumeral n cs) (hn : n < fuel) :
    base36Reversed fuel n = cs.reverse := by
  have hwritten := (writes_base36Reversed hn []).isNumeral_of_nil
  rw [List.append_nil] at hwritten
  rw [← hwritten.unique h, List.reverse_reverse]

def weighted (cs : List Char) : Nat :=
  ∑ i : Fin cs.length, cs[i].toNat * 31 ^ (cs.length - (i + 1))

/-- A text as a word of 32 bits with a sign. -/
def signedSum (s : String) : Int := (BitVec.ofNat 32 (weighted s.toList)).toInt

theorem weighted_cons (c : Char) (cs : List Char) :
    weighted (c :: cs) = c.toNat * 31 ^ cs.length + weighted cs := by
  have hsum := Fin.sum_univ_succ fun i : Fin (cs.length + 1) =>
    (c :: cs)[i].toNat * 31 ^ ((c :: cs).length - (i + 1))
  simpa [weighted] using hsum

theorem toNat_hashStep (h : UInt32) (c : Char) :
    (hashStep h c).toNat = (h.toNat * 31 + c.toNat) % 2 ^ 32 := by
  simp [hashStep, UInt32.toNat_add, UInt32.toNat_mul]

/-- Reducing the sum after each character comes to the same as reducing it at the end. -/
theorem toNat_foldl_hashStep (cs : List Char) (h : UInt32) :
    (cs.foldl hashStep h).toNat = (h.toNat * 31 ^ cs.length + weighted cs) % 2 ^ 32 := by
  induction cs generalizing h with
  | nil => simp [weighted]
  | cons c cs ih =>
      have hstep : (hashStep h c).toNat ≡ h.toNat * 31 + c.toNat [MOD 2 ^ 32] := by
        rw [toNat_hashStep]
        exact Nat.mod_modEq _ _
      calc (cs.foldl hashStep (hashStep h c)).toNat
          = ((hashStep h c).toNat * 31 ^ cs.length + weighted cs) % 2 ^ 32 := ih _
        _ = ((h.toNat * 31 + c.toNat) * 31 ^ cs.length + weighted cs) % 2 ^ 32 :=
            (hstep.mul_right _).add_right _
        _ = (h.toNat * 31 ^ (c :: cs).length + weighted (c :: cs)) % 2 ^ 32 := by
            rw [weighted_cons, List.length_cons]
            ring_nf

theorem signedMagnitude_eq (h : UInt32) : signedMagnitude h = h.toBitVec.toInt.natAbs := by
  have hword : h.toNat < 2 ^ 32 := h.toNat_lt
  rw [signedMagnitude, BitVec.toInt_eq_toNat_cond, UInt32.toNat_toBitVec]
  split <;> split <;> omega

theorem signedMagnitude_foldl (s : String) :
    signedMagnitude (s.toList.foldl hashStep 0) = (signedSum s).natAbs := by
  have hword : (s.toList.foldl hashStep 0).toBitVec = BitVec.ofNat 32 (weighted s.toList) := by
    apply BitVec.eq_of_toNat_eq
    rw [UInt32.toNat_toBitVec, toNat_foldl_hashStep, BitVec.toNat_ofNat, UInt32.toNat_zero,
      Nat.zero_mul, Nat.zero_add]
  rw [signedMagnitude_eq, hword, signedSum]

theorem toList_shortHash {s : String} (h : IsNumeral (signedSum s).natAbs cs) :
    (shortHash s).toList = cs.take 4 := by
  rw [shortHash, signedMagnitude_foldl, h.base36Reversed_eq (Nat.lt_succ_self _),
    List.reverse_reverse, String.toList_ofList]

/-- The short hash of a text is the start of a numeral, the only one of the magnitude that the text
has as a signed word. The loop that writes the numeral ends, and fuel beyond the number changes
nothing. -/
theorem shortHash_abbreviates (s : String) : ∃ numeral,
    (∀ cs, IsNumeral (signedSum s).natAbs cs ↔ cs = numeral) ∧
    Writes (signedSum s).natAbs [] numeral ∧
    (∀ fuel > (signedSum s).natAbs, base36Reversed fuel (signedSum s).natAbs = numeral.reverse) ∧
    (shortHash s).toList = numeral.take 4 ∧ shortHash s ≠ "" ∧ (shortHash s).length ≤ 4 ∧
    ∀ c ∈ (shortHash s).toList, c.isDigit = true ∨ c.isLower = true := by
  obtain ⟨numeral, hwrites⟩ : ∃ numeral, Writes (signedSum s).natAbs [] numeral :=
    ⟨_, writes_base36Reversed (Nat.lt_succ_self _) []⟩
  have hnumeral := hwrites.isNumeral_of_nil
  have hhash := toList_shortHash hnumeral
  refine ⟨numeral, fun cs => ⟨fun h => h.unique hnumeral, fun h => h ▸ hnumeral⟩, hwrites,
    fun fuel hfuel => hnumeral.base36Reversed_eq hfuel, hhash, ?_, ?_, ?_⟩
  · intro hempty
    rw [hempty, eq_comm, String.toList_empty, List.take_eq_nil_iff] at hhash
    exact hhash.elim (by decide) hnumeral.ne_nil
  · rw [← String.length_toList, hhash]
    exact List.length_take_le 4 numeral
  · intro c hc
    rw [hhash] at hc
    exact Bool.or_eq_true_iff.mp (hnumeral.digits c (List.mem_of_mem_take hc))

/-- No characters at all, and the one word whose magnitude is beyond the signed ones. -/
example : shortHash "" = "0" ∧ signedSum "polygenelubricants" = -2 ^ 31 ∧
    shortHash "polygenelubricants" = "zik0" := by decide

end Mockup.Listing
