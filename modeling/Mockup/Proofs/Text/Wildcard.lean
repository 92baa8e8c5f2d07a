import Mockup.Proofs.Text.Expression
import Mockup.Proofs.Text.Matching
import Mockup.Proofs.Text.Splitting
import Mockup.Text.Wildcard

namespace Mockup.Text.Wildcard

open Pattern

def filled (pieces gaps : List (List Char)) : List Char :=
  pieces.headD [] ++ (List.zipWith (· ++ ·) gaps pieces.tail).flatten

def Ends (cs text : List Char) : Prop := cs = text ∨ cs = text ++ ['\n']

/-- A text that is a pattern but for the texts that stand for its stars. -/
def Fills (ps text : List Char) : Prop :=
  ∃ gaps, gaps.length + 1 = (splitOn '*' ps).length ∧ text = filled (splitOn '*' ps) gaps

theorem anyTail_iff {test : List Char → Bool} {cs : List Char} :
    anyTail test cs = true ↔ ∃ gap rest, cs = gap ++ rest ∧ test rest = true := by
  induction cs with
  | nil => simp [anyTail]
  | cons c cs ih =>
      rw [anyTail, Bool.or_eq_true, ih]
      constructor
      · rintro (h | ⟨gap, rest, rfl, h⟩)
        · exact ⟨[], c :: cs, rfl, h⟩
        · exact ⟨c :: gap, rest, rfl, h⟩
      · rintro ⟨gap, rest, hsplit, h⟩
        cases gap with
        | nil => exact .inl (hsplit ▸ h)
        | cons d gap =>
            cases hsplit
            exact .inr ⟨gap, rest, rfl, h⟩

theorem splitOn_star (ps : List Char) : splitOn '*' ('*' :: ps) = [] :: splitOn '*' ps := rfl

theorem exists_splitOn_eq (ps : List Char) : ∃ piece pieces, splitOn '*' ps = piece :: pieces := by
  rw [splitOn_eq]
  exact List.exists_cons_of_ne_nil (List.splitOn_ne_nil '*' ps)

theorem fills_nil {text : List Char} : Fills [] text ↔ text = [] := by
  constructor
  · rintro ⟨gaps, hlength, rfl⟩
    rw [List.length_eq_zero_iff.mp (Nat.succ.inj hlength)]
    rfl
  · rintro rfl
    exact ⟨[], rfl, rfl⟩

theorem fills_star {ps text : List Char} :
    Fills ('*' :: ps) text ↔ ∃ gap rest, text = gap ++ rest ∧ Fills ps rest := by
  obtain ⟨piece, pieces, hsplit⟩ := exists_splitOn_eq ps
  rw [Fills, splitOn_star, hsplit]
  simp only [Fills, hsplit]
  constructor
  · rintro ⟨gaps, hlength, rfl⟩
    cases gaps with
    | nil => cases hlength
    | cons gap gaps =>
        exact ⟨gap, _, by simp [filled], gaps, Nat.succ.inj hlength, rfl⟩
  · rintro ⟨gap, rest, rfl, gaps, hlength, rfl⟩
    exact ⟨gap :: gaps, congrArg Nat.succ hlength, by simp [filled]⟩

theorem fills_cons {p : Char} (hp : p ≠ '*') {ps text : List Char} :
    Fills (p :: ps) text ↔ ∃ rest, text = [p] ++ rest ∧ Fills ps rest := by
  obtain ⟨piece, pieces, hsplit⟩ := exists_splitOn_eq ps
  have hcons : splitOn '*' (p :: ps) = (p :: piece) :: pieces := by
    rw [splitOn] at hsplit ⊢
    rw [splitBy, hsplit, if_neg (by simpa using hp)]
    rfl
  simp only [Fills, hcons, hsplit]
  constructor
  · rintro ⟨gaps, hlength, rfl⟩
    exact ⟨_, rfl, gaps, hlength, rfl⟩
  · rintro ⟨rest, rfl, gaps, hlength, rfl⟩
    exact ⟨gaps, hlength, rfl⟩

theorem ends_append {gap cs text : List Char} :
    Ends cs (gap ++ text) ↔ ∃ rest, cs = gap ++ rest ∧ Ends rest text := by
  simp only [Ends, List.append_assoc]
  constructor
  · rintro (rfl | rfl)
    · exact ⟨text, rfl, .inl rfl⟩
    · exact ⟨text ++ ['\n'], rfl, .inr rfl⟩
  · rintro ⟨rest, rfl, rfl | rfl⟩
    · exact .inl rfl
    · exact .inr rfl

theorem accepts_eq_onHead {p : Char} (hp : p ≠ '*') (ps : List Char) :
    accepts (p :: ps) = onHead (p == ·) (accepts ps) := by
  funext cs
  cases cs with
  | nil =>
      rw [accepts, onHead]
      exact hp
  | cons c cs =>
      rw [accepts, onHead]
      exact hp

theorem accepts_cons {p : Char} (hp : p ≠ '*') {ps cs : List Char} :
    accepts (p :: ps) cs = true ↔ ∃ rest, cs = [p] ++ rest ∧ accepts ps rest = true := by
  rw [accepts_eq_onHead hp]
  cases cs with
  | nil => simp [onHead]
  | cons c cs =>
      rw [onHead, Bool.and_eq_true, beq_iff_eq]
      constructor
      · rintro ⟨rfl, h⟩
        exact ⟨cs, rfl, h⟩
      · rintro ⟨rest, hsplit, h⟩
        cases hsplit
        exact ⟨rfl, h⟩

theorem accepts_iff {ps cs : List Char} :
    accepts ps cs = true ↔ ∃ text, Fills ps text ∧ Ends cs text := by
  induction ps generalizing cs with
  | nil =>
      simp only [fills_nil, exists_eq_left]
      simp [accepts, atEnd, Ends]
  | cons p ps ih =>
      have hgap (gap : List Char) : (∃ rest, cs = gap ++ rest ∧ accepts ps rest = true) ↔
          ∃ text, (∃ rest, text = gap ++ rest ∧ Fills ps rest) ∧ Ends cs text := by
        simp only [ih]
        constructor
        · rintro ⟨rest, hcs, text, hfills, hends⟩
          exact ⟨gap ++ text, ⟨text, rfl, hfills⟩, ends_append.mpr ⟨rest, hcs, hends⟩⟩
        · rintro ⟨_, ⟨text, rfl, hfills⟩, hends⟩
          obtain ⟨rest, hcs, hends⟩ := ends_append.mp hends
          exact ⟨rest, hcs, text, hfills, hends⟩
      by_cases hp : p = '*'
      · subst hp
        rw [accepts, anyTail_iff]
        simp only [hgap, fills_star]
        constructor
        · rintro ⟨gap, text, ⟨rest, htext, hfills⟩, hends⟩
          exact ⟨text, ⟨gap, rest, htext, hfills⟩, hends⟩
        · rintro ⟨text, ⟨gap, rest, htext, hfills⟩, hends⟩
          exact ⟨gap, text, ⟨rest, htext, hfills⟩, hends⟩
      · simp only [accepts_cons hp, hgap, fills_cons hp]

theorem tests_run {f : Flags} (hall : f.dotAll = true) {cs : List Char} {test : List Char → Bool}
    {rest : Rest} (h : Tests cs test rest) :
    Tests cs (anyTail test) fun t => find cs (run f) t rest := by
  have hany : ∀ c, f.any c = true := fun c => by rw [Flags.any, hall, Bool.true_or]
  rw [← onRun_of_all hany]
  exact tests_rep h (Nat.zero_le _)

theorem tests_parts {f : Flags} (hall : f.dotAll = true) (hcase : f.ignoreCase = false)
    {cs : List Char} {rest : Rest} (h : Tests cs atEnd rest) (ps : List Char) :
    Tests cs (accepts ps) fun t => findAll cs (ps.map (part f)) t rest := by
  induction ps with
  | nil =>
      intro t ht
      exact (h t ht).trans (by rw [accepts])
  | cons p ps ih =>
      rw [List.map_cons, part]
      by_cases hp : p = '*'
      · rw [if_pos hp, hp]
        intro t ht
        rw [accepts]
        exact tests_run hall ih t ht
      · rw [if_neg hp, inSpan_self hcase, accepts_eq_onHead hp]
        exact tests_one ih

/-- The regular expression of a pattern accepts the same texts. -/
theorem matchesStart_patternOf {f : Flags} (hall : f.dotAll = true) (hcase : f.ignoreCase = false)
    (hlines : f.multiline = false) (ps cs : List Char) :
    (patternOf f ps).matchesStart cs = accepts ps cs := by
  have hparts := tests_parts hall hcase (tests_finish hlines) ps {} (Nat.zero_le cs.length)
  rw [matchesStart, patternOf, find, find_foldl_seq]
  simp only [find, Flags.start, hlines, Bool.false_eq_true, if_false, atStart, BEq.rfl, if_true]
  exact hparts

/-- A name matches a pattern if and only if its small letters are those of the pattern with some
texts for the stars, perhaps with a line break after them. The regular expression as which the
pattern can be written is well formed and matches the same names. -/
theorem isMatch_iff (name pattern : String) :
    (isMatch name pattern = true ↔ ∃ text, Fills (lowerChars pattern.toList) text ∧
      Ends (lowerChars name.toList) text) ∧
    ∃ p, ofText (expression (lowerChars pattern.toList)) { dotAll := true } = .ok p ∧
      p.matchesStart (lowerChars name.toList) = isMatch name pattern :=
  ⟨accepts_iff, _, ofText_expression rfl _, matchesStart_patternOf rfl rfl rfl _ _⟩

end Mockup.Text.Wildcard
