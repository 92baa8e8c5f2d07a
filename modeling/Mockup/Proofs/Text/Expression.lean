import Mathlib.Tactic.FinCases
import Mockup.Proofs.Text.Reading

namespace Mockup.Text.Wildcard

open Pattern Pattern.Reading

def marks : List Char :=
  ['(', ')', '[', ']', '{', '}', '?', '*', '+', '-', '|', '^', '$', '\\', '.', '&', '~', '#', ' ',
    '\t', '\n', '\r', '\x0b', '\x0c']

def escape (ps : List Char) : List Char :=
  ps.flatMap fun p => if p ∈ marks then ['\\', p] else [p]

def freeStars : List Char → List Char
  | '\\' :: '*' :: cs => '.' :: '*' :: freeStars cs
  | c :: cs => c :: freeStars cs
  | [] => []

def expression (ps : List Char) : List Char := '^' :: freeStars (escape ps) ++ ['$']

def piece (p : Char) : List Char :=
  if p = '*' then ['.', '*'] else if p ∈ marks then ['\\', p] else [p]

theorem star_mem_marks : '*' ∈ marks := by decide

theorem head_escape_ne (ps : List Char) : (escape ps).head? ≠ some '*' := by
  cases ps with
  | nil => simp [escape]
  | cons p ps =>
      rw [escape, List.flatMap_cons]
      split
      · simp
      · next hp =>
          intro h
          obtain rfl : p = '*' := by simpa using h
          exact hp star_mem_marks

theorem freeStars_cons_of_ne {c : Char} {cs : List Char} (h : cs.head? ≠ some '*') :
    freeStars (c :: cs) = c :: freeStars cs := by
  rw [freeStars.eq_def]
  split
  · next heq =>
      cases heq
      exact (h rfl).elim
  · next heq =>
      cases heq
      rfl
  · next heq => cases heq

/-- The star after an escaped backslash is not taken for an escaped star. -/
theorem freeStars_escape (ps : List Char) : freeStars (escape ps) = ps.flatMap piece := by
  induction ps with
  | nil => rfl
  | cons p ps ih =>
      have hcons : escape (p :: ps) = (if p ∈ marks then ['\\', p] else [p]) ++ escape ps := rfl
      rw [hcons, List.flatMap_cons, ← ih, piece]
      by_cases hstar : p = '*'
      · subst hstar
        rfl
      · rw [if_neg hstar]
        split
        · rw [List.cons_append, List.cons_append, List.nil_append,
            freeStars_cons_of_ne (by simpa using hstar), freeStars_cons_of_ne (head_escape_ne ps)]
          rfl
        · exact freeStars_cons_of_ne (head_escape_ne ps)

example : expression ['\\', '*', '.'] = "^\\\\.*\\.$".toList := by decide

section Reading

variable {f : Flags} {s : Source} {p c : Char} {cs : List Char} {k : Nat}

theorem not_sign_of_not_mem (h : p ∉ marks) : p ∉ signs := by
  have hmarks : signs.all marks.contains = true := by decide
  exact fun hmem => h (List.contains_iff_mem.mp (List.all_eq_true.mp hmarks p hmem))

theorem escape_of_mem (h : p ∈ marks) :
    Reading.escape f { left := p :: cs } = .ok (single f p.toNat, { left := cs }) := by
  fin_cases h <;> rfl

def run (f : Flags) : Pattern := rep (one f.any) 0 none .greedy

theorem sequence_run {before : Pattern} {last : Option Item} (hspaced : f.spaced = false)
    (hlazy : cs.head? ≠ some '?') (hpossessive : cs.head? ≠ some '+') :
    Reading.sequence (k + 3) f before last { left := '.' :: '*' :: cs } =
      Reading.sequence (k + 1) f (joined before last) (some ⟨run f, false⟩) { left := cs } := by
  have hgreed : greed { left := cs } = .ok (.greedy, { left := cs }) := by
    rw [greed, bind_of_eq_ok (skip_of_head_ne hlazy)]
    simp only [Bool.false_eq_true, if_false]
    rw [bind_of_eq_ok (skip_of_head_ne hpossessive)]
    rfl
  have hrepetition : repetition (some ⟨one f.any, true⟩) 0 none { left := cs } =
      .ok (⟨run f, false⟩, { left := cs }) := bind_of_eq_ok hgreed
  rw [sequence_item (c := '.') (by decide) (by decide) hspaced rfl rfl,
    sequence_cons (c := '*') (by decide) (by decide) hspaced rfl]
  exact bind_of_eq_ok hrepetition

def part (f : Flags) (p : Char) : Pattern :=
  if p = '*' then run f else one (f.inSpan p.toNat p.toNat)

theorem head_pieces_ne {ps : List Char} (hmark : c ∈ marks) (hc : c ∉ ['.', '\\', '$']) :
    (ps.flatMap piece ++ ['$']).head? ≠ some c := by
  cases ps with
  | nil =>
      rintro ⟨⟩
      exact hc (by decide)
  | cons p ps =>
      rw [List.flatMap_cons, piece]
      split
      · rintro ⟨⟩
        exact hc (by decide)
      · split
        · rintro ⟨⟩
          exact hc (by decide)
        · next hp =>
            rintro ⟨⟩
            exact hp hmark

/-- The pieces of a pattern and the sign for the end are read one after the other. -/
theorem sequence_pieces (hspaced : f.spaced = false) (ps : List Char) {before : Pattern}
    {last : Option Item} (hk : 2 * ps.length + 2 ≤ k) :
    Reading.sequence k f before last { left := ps.flatMap piece ++ ['$'] } =
      .ok (seq ((ps.map (part f)).foldl seq (joined before last)) (anchor f.finish),
        { left := [] }) := by
  induction ps generalizing k before last with
  | nil =>
      obtain ⟨k, rfl⟩ : ∃ j, k = j + 2 := ⟨k - 2, by omega⟩
      exact .trans (sequence_item (by decide) (by decide) hspaced rfl rfl) rfl
  | cons p ps ih =>
      rw [List.length_cons] at hk
      obtain ⟨k, rfl⟩ : ∃ j, k = j + 3 := ⟨k - 3, by omega⟩
      rw [List.flatMap_cons, List.append_assoc, List.map_cons, List.foldl_cons, part, piece]
      by_cases hstar : p = '*'
      · rw [if_pos hstar, if_pos hstar]
        exact .trans (sequence_run hspaced (head_pieces_ne (by decide) (by decide))
          (head_pieces_ne (by decide) (by decide))) (ih (by omega))
      · rw [if_neg hstar, if_neg hstar]
        split
        · next hp =>
            exact .trans (sequence_item (by decide) (by decide) hspaced rfl
              (bind_of_eq_ok (escape_of_mem hp))) (ih (by omega))
        · next hp =>
            exact .trans (sequence_literal (not_sign_of_not_mem hp) hspaced) (ih (by omega))

end Reading

def patternOf (f : Flags) (ps : List Char) : Pattern :=
  seq ((ps.map (part f)).foldl seq (seq empty (anchor f.start))) (anchor f.finish)

theorem length_le_pieces (ps : List Char) : ps.length ≤ (ps.flatMap piece).length := by
  induction ps with
  | nil => exact Nat.le_refl _
  | cons p ps ih =>
      have hpiece : 1 ≤ (piece p).length := by
        rw [piece]
        split
        · decide
        · split <;> simp
      rw [List.flatMap_cons, List.length_append, List.length_cons]
      omega

/-- The expression of a pattern is one, and it asks for the parts of the pattern. -/
theorem ofText_expression {f : Flags} (hspaced : f.spaced = false) (ps : List Char) :
    ofText (expression ps) f = .ok (patternOf f ps) := by
  have hlength := length_le_pieces ps
  have hsequence (k : Nat) (hk : 2 * ps.length + 2 ≤ k) :
      Reading.sequence (k + 1) f empty none { left := '^' :: (ps.flatMap piece ++ ['$']) } =
        .ok (patternOf f ps, { left := [] }) := by
    obtain ⟨j, rfl⟩ : ∃ j, k = j + 1 := ⟨k - 1, by omega⟩
    exact .trans (sequence_item (by decide) (by decide) hspaced rfl rfl)
      (sequence_pieces hspaced ps hk)
  rw [expression, freeStars_escape, List.cons_append]
  apply ofText_of_sequence
  apply hsequence
  rw [List.length_cons, List.length_append]
  omega

end Mockup.Text.Wildcard
