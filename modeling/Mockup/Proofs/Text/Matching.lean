import Mathlib.Logic.Function.Iterate
import Mockup.Proofs.Text.Reading

namespace Mockup.Text.Pattern

variable {cs : List Char} {accept : Char → Bool} {test : List Char → Bool} {rest : Rest}

def Tests (cs : List Char) (test : List Char → Bool) (rest : Rest) : Prop :=
  ∀ t : Trace, t.position ≤ cs.length → (rest t).isSome = test (cs.drop t.position)

def onHead (accept : Char → Bool) (test : List Char → Bool) : List Char → Bool
  | [] => false
  | c :: cs => accept c && test cs

def onRun (accept : Char → Bool) (test : List Char → Bool) : List Char → Bool
  | [] => test []
  | c :: cs => test (c :: cs) || accept c && onRun accept test cs

theorem onRun_of_all (h : ∀ c, accept c = true) (test : List Char → Bool) :
    onRun accept test = anyTail test := by
  funext cs
  induction cs with
  | nil => rfl
  | cons c cs ih => rw [onRun, anyTail, h, Bool.true_and, ih]

/-- A test that no accepted character passes is put to what follows all of them. -/
theorem onRun_eq (h : ∀ c cs, accept c = true → test (c :: cs) = false) (cs : List Char) :
    onRun accept test cs = test (cs.dropWhile accept) := by
  induction cs with
  | nil => rfl
  | cons c cs ih =>
      rw [onRun, List.dropWhile_cons]
      split
      · next hc => rw [h c cs hc, hc, Bool.false_or, Bool.true_and, ih]
      · next hc => rw [Bool.eq_false_iff.mpr hc, Bool.false_and, Bool.or_false]

theorem find_one_of_lt {t : Trace} (ht : t.position < cs.length) :
    find cs (one accept) t rest =
      if accept cs[t.position] then rest (t.advance 1) else none := by
  simp only [find, List.getElem?_eq_getElem ht, Option.any_some]

theorem find_one_of_eq {t : Trace} (ht : t.position = cs.length) :
    find cs (one accept) t rest = none := by
  simp [find, ht]

theorem tests_one (h : Tests cs test rest) :
    Tests cs (onHead accept test) fun t => find cs (one accept) t rest := by
  intro t ht
  change (find cs (one accept) t rest).isSome = _
  rcases Nat.lt_or_eq_of_le ht with hlt | heq
  · have hrest : (rest (t.advance 1)).isSome = test (cs.drop (t.position + 1)) := h _ hlt
    rw [find_one_of_lt hlt, List.drop_eq_getElem_cons hlt, onHead, ← hrest]
    cases accept cs[t.position] <;> rfl
  · rw [find_one_of_eq heq, heq, List.drop_length]
    rfl

theorem tests_times (h : Tests cs test rest) (n : Nat) :
    Tests cs ((onHead accept)^[n] test) (times (find cs (one accept)) rest n) := by
  induction n with
  | zero => exact h
  | succ n ih =>
      rw [Function.iterate_succ_apply']
      exact tests_one ih

/-- A run takes as many characters as it can and gives back as many as the rest needs. -/
theorem isSome_asMany (h : Tests cs test rest) {n : Nat} {before : Option Nat} {t : Trace}
    (ht : t.position ≤ cs.length) (hn : cs.length - t.position < n)
    (hbefore : ∀ i, before = some i → i < t.position) :
    (asMany (find cs (one accept)) rest n before t).isSome =
      onRun accept test (cs.drop t.position) := by
  induction n generalizing before t with
  | zero => cases hn
  | succ n ih =>
      -- every step takes a character, so none ends the run for having taken nothing
      have hne : before ≠ some t.position := fun heq => Nat.lt_irrefl _ (hbefore _ heq)
      have horElse (x y : Option Trace) : (x <|> y).isSome = (y.isSome || x.isSome) := by
        cases x <;> cases y <;> rfl
      rw [asMany, if_neg hne, horElse, h t ht]
      rcases Nat.lt_or_eq_of_le ht with hlt | heq
      · have hmore : (asMany (find cs (one accept)) rest n (some t.position)
            (t.advance 1)).isSome = onRun accept test (cs.drop (t.position + 1)) := by
          refine ih hlt ?_ ?_
          · change cs.length - (t.position + 1) < n
            omega
          · rintro i ⟨⟩
            exact Nat.lt_succ_self _
        rw [find_one_of_lt hlt, List.drop_eq_getElem_cons hlt, onRun, ← hmore]
        cases accept cs[t.position] <;> rfl
      · rw [find_one_of_eq heq, heq, List.drop_length]
        exact Bool.or_false _

theorem tests_rep (h : Tests cs test rest) {least : Nat} (hleast : least ≤ cs.length + 2) :
    Tests cs ((onHead accept)^[least] (onRun accept test)) fun t =>
      find cs (rep (one accept) least none .greedy) t rest := by
  have hmany : Tests cs (onRun accept test)
      (asMany (find cs (one accept)) rest (cs.length + 2) none) :=
    fun t ht => isSome_asMany h ht (by omega) nofun
  intro t ht
  change (times (find cs (one accept)) (asMany (find cs (one accept)) rest (cs.length + 2) none)
    (min least (cs.length + 2)) t).isSome = _
  rw [Nat.min_eq_left hleast]
  exact tests_times hmany least t ht

def findAll (cs : List Char) : List Pattern → Step
  | [], t, rest => rest t
  | p :: ps, t, rest => find cs p t fun u => findAll cs ps u rest

theorem find_foldl_seq (p : Pattern) (ps : List Pattern) (t : Trace) (rest : Rest) :
    find cs (ps.foldl seq p) t rest = find cs p t fun u => findAll cs ps u rest := by
  induction ps generalizing p with
  | nil => rfl
  | cons q ps ih =>
      rw [List.foldl_cons, ih]
      rfl

theorem inSpan_self {f : Flags} (hcase : f.ignoreCase = false) (p : Char) :
    f.inSpan p.toNat p.toNat = (p == ·) := by
  funext c
  rw [Bool.eq_iff_iff, beq_iff_eq, ← Char.toNat_inj]
  simp only [Flags.inSpan, Flags.forms, hcase, Bool.not_false, if_true, List.any_cons,
    List.any_nil, Bool.or_false, Bool.and_eq_true, decide_eq_true_eq]
  omega

/-- An end is in front of nothing, or of a final line break. -/
theorem tests_finish {f : Flags} (hlines : f.multiline = false) :
    Tests cs atEnd fun t => find cs (anchor f.finish) t some := by
  intro t ht
  simp only [find, Flags.finish, hlines, Bool.false_eq_true, if_false, atFinish]
  cases Text.atEnd (cs.drop t.position) <;> rfl

theorem tests_literals {f : Flags} (hcase : f.ignoreCase = false) (h : Tests cs test rest)
    (ps : List Char) :
    Tests cs (fun left => ps.isPrefixOf left && test (left.drop ps.length)) fun t =>
      findAll cs (Reading.literals f ps) t rest := by
  induction ps with
  | nil => exact h
  | cons p ps ih =>
      have hhead : (fun left => (p :: ps).isPrefixOf left && test (left.drop (p :: ps).length)) =
          onHead (p == ·) fun left => ps.isPrefixOf left && test (left.drop ps.length) := by
        funext left
        cases left with
        | nil => rfl
        | cons c left =>
            rw [onHead, List.isPrefixOf_cons_cons, Bool.and_assoc]
            rfl
      rw [hhead, ← inSpan_self hcase]
      exact tests_one ih

end Mockup.Text.Pattern
