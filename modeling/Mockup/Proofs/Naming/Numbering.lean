import Mockup.Naming
import Mockup.Proofs.Text.Matching

namespace Mockup.Naming

open Text Pattern Pattern.Reading

def digit : Pattern := one fun c => [Flags.inSpan {} 48 57].any (fun test => test c) != false

def withNumber (p : Pattern) : Pattern :=
  seq (seq p (rep digit 1 none .greedy)) (anchor (Flags.finish {}))

def numbered (ps : List Char) : Pattern :=
  withNumber ((literals {} ps).foldl seq (seq empty (anchor (Flags.start {}))))

def digitSigns : List Char := ['[', '0', '-', '9', ']', '+', '$']

theorem sequence_digitSigns (k : Nat) (before : Pattern) (last : Option Item) :
    Reading.sequence (k + 6) {} before last { left := digitSigns } =
      .ok (withNumber (joined before last), { left := [] }) := rfl

theorem ofText_numbered {ps : List Char} (hps : ∀ p ∈ ps, p ∉ signs) :
    ofText ('^' :: ps ++ digitSigns) = .ok (numbered ps) := by
  have hsequence (k : Nat) :
      Reading.sequence (ps.length + (k + 6) + 1) {} empty none
        { left := '^' :: (ps ++ digitSigns) } = .ok (numbered ps, { left := [] }) :=
    .trans (sequence_item (by decide) (by decide) rfl rfl rfl)
      (sequence_literals (g := fun p => .ok (withNumber p, { left := [] })) rfl
        (sequence_digitSigns k) ps hps _ _)
  obtain ⟨k, hk⟩ : ∃ k, 4 * ('^' :: (ps ++ digitSigns)).length + 3 = ps.length + (k + 6) + 1 :=
    ⟨3 * ps.length + 28, by
      simp only [digitSigns, List.length_cons, List.length_append, List.length_nil]
      omega⟩
  apply ofText_of_sequence
  rw [List.cons_append, hk]
  exact hsequence k

theorem digit_eq : digit = one Char.isDigit := by
  have haccept : (fun c => [Flags.inSpan {} 48 57].any (fun test => test c) != false) =
      Char.isDigit := by
    funext c
    rw [Bool.eq_iff_iff, Char.isDigit_iff_toNat]
    simp [Flags.inSpan, Flags.forms]
  rw [digit, haccept]

theorem matchesStart_numbered (ps cs : List Char) :
    (numbered ps).matchesStart cs = isNumberedPlain ps cs := by
  have hend (c : Char) (cs : List Char) (hc : c.isDigit = true) : atEnd (c :: cs) = false := by
    have hne : c ≠ '\n' := by
      rintro rfl
      cases hc
    simp [atEnd, hne]
  have hnumber : onHead Char.isDigit (onRun Char.isDigit atEnd) = isPlainNumber := by
    funext cs
    cases cs with
    | nil => rfl
    | cons c cs =>
        rw [onHead, onRun_eq hend, isPlainNumber, List.head?_cons, Option.any_some]
        cases hc : c.isDigit with
        | false => rfl
        | true => rw [Text.skip, List.dropWhile_cons_of_pos hc]
  have hdigits : Tests cs isPlainNumber fun t =>
      find cs (rep digit 1 none .greedy) t fun u => find cs (anchor (Flags.finish {})) u some := by
    rw [digit_eq, ← hnumber]
    exact tests_rep (tests_finish rfl) (Nat.le_add_left 1 (cs.length + 1))
  have hall := tests_literals (f := {}) rfl hdigits ps {} (Nat.zero_le cs.length)
  rw [matchesStart, numbered, withNumber, find, find, find_foldl_seq]
  exact hall

/-- A digit prefix without signs counts as it is written. -/
theorem isNumberedRef_eq {n : Naming} (h : ∀ c ∈ n.digitPrefix.toList, c ∉ signs)
    (identifier : String) :
    n.isNumberedRef identifier =
      .ok (isNumberedPlain n.digitPrefix.toList identifier.toList) := by
  have hpattern : n.numberedPattern = .ok (numbered n.digitPrefix.toList) := ofText_numbered h
  rw [isNumberedRef, hpattern]
  split
  · rfl
  · exact congrArg Except.ok (matchesStart_numbered _ _)

end Mockup.Naming
