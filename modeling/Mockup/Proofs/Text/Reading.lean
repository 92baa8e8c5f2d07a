import Mockup.Text.Pattern.Reader

namespace Mockup.Text.Pattern.Reading

def signs : List Char := ['\\', '[', '.', '^', '$', '(', ')', '|', '*', '+', '?', '{']

variable {f : Flags} {s : Source} {p c : Char} {cs : List Char} {k : Nat}

theorem mark_of_not_sign (h : p ∉ signs) : mark p s = .ok (none, s) := by
  have hne : p ≠ '*' ∧ p ≠ '+' ∧ p ≠ '?' ∧ p ≠ '{' := by
    refine ⟨?_, ?_, ?_, ?_⟩ <;> rintro rfl <;> exact h (by decide)
  simp only [mark, if_neg hne.1, if_neg hne.2.1, if_neg hne.2.2.1, if_neg hne.2.2.2]
  rfl

theorem item_of_not_sign (h : p ∉ signs) :
    item (k + 1) f p s = .ok (some (single f p.toNat), s) := by
  have hne : p ≠ '\\' ∧ p ≠ '[' ∧ p ≠ '.' ∧ p ≠ '^' ∧ p ≠ '(' ∧ p ≠ '$' := by
    refine ⟨?_, ?_, ?_, ?_, ?_, ?_⟩ <;> rintro rfl <;> exact h (by decide)
  simp only [item, if_neg hne.1, if_neg hne.2.1, if_neg hne.2.2.1, if_neg hne.2.2.2.1,
    if_neg hne.2.2.2.2.1, if_neg hne.2.2.2.2.2]
  rfl

theorem gap_of_not_spaced (hspaced : f.spaced = false) : gap f c s = .ok (false, s) := by
  simp only [gap, hspaced]
  rfl

theorem bind_of_eq_ok {α β : Type} {x : Reading α} {g : α → Reading β} {a : α} {s s' : Source}
    (h : x s = .ok (a, s')) : (x >>= g) s = g a s' := by
  change (x s >>= fun r => g r.1 r.2) = _
  rw [h]
  rfl

def literals (f : Flags) (ps : List Char) : List Pattern :=
  ps.map fun p => one (f.inSpan p.toNat p.toNat)

def joined (before : Pattern) (last : Option Item) : Pattern :=
  (last.map fun item => seq before item.pattern).getD before

def goOn (k : Nat) (f : Flags) (before : Pattern) (last : Option Item) (c : Char) :
    Option (Nat × Option Nat) → Reading Pattern
  | some (least, most) => do Reading.sequence k f before (some (← repetition last least most))
  | none => do
    match ← item k f c with
    | some i => Reading.sequence k f (joined before last) (some i)
    | none => Reading.sequence k f before last

theorem sequence_cons {before : Pattern} {last : Option Item} {m : Option (Nat × Option Nat)}
    (hbar : c ≠ '|') (hclose : c ≠ ')') (hspaced : f.spaced = false)
    (hmark : mark c { left := cs } = .ok (m, { left := cs })) :
    Reading.sequence (k + 1) f before last { left := c :: cs } =
      goOn k f before last c m { left := cs } := by
  have hpeek : peek { left := c :: cs } = .ok (some c, { left := c :: cs }) := rfl
  have hnext : next { left := c :: cs } = .ok (c, { left := cs }) := rfl
  rw [Reading.sequence, bind_of_eq_ok hpeek]
  -- the character is none of those at which a sequence stops
  simp only
  rw [bind_of_eq_ok hnext, bind_of_eq_ok (gap_of_not_spaced hspaced)]
  simp only [Bool.false_eq_true, if_false]
  exact bind_of_eq_ok hmark

theorem sequence_item {before : Pattern} {last : Option Item} {i : Item} {s' : Source}
    (hbar : c ≠ '|') (hclose : c ≠ ')') (hspaced : f.spaced = false)
    (hmark : mark c { left := cs } = .ok (none, { left := cs }))
    (hitem : item k f c { left := cs } = .ok (some i, s')) :
    Reading.sequence (k + 1) f before last { left := c :: cs } =
      Reading.sequence k f (joined before last) (some i) s' := by
  rw [sequence_cons hbar hclose hspaced hmark]
  exact bind_of_eq_ok hitem

theorem sequence_literal {before : Pattern} {last : Option Item} (h : p ∉ signs)
    (hspaced : f.spaced = false) :
    Reading.sequence (k + 2) f before last { left := p :: cs } =
      Reading.sequence (k + 1) f (joined before last) (some (single f p.toNat)) { left := cs } := by
  have hne (c : Char) (hc : c ∈ signs) : p ≠ c := fun heq => h (heq ▸ hc)
  exact sequence_item (hne _ (by decide)) (hne _ (by decide)) hspaced (mark_of_not_sign h)
    (item_of_not_sign h)

/-- Characters that are no signs are read one after the other, in front of what is read then. -/
theorem sequence_literals {g : Pattern → Except Flaw (Pattern × Source)}
    (hspaced : f.spaced = false)
    (hrest : ∀ before last,
      Reading.sequence (k + 1) f before last { left := cs } = g (joined before last))
    (ps : List Char) (hps : ∀ p ∈ ps, p ∉ signs) (before : Pattern) (last : Option Item) :
    Reading.sequence (ps.length + (k + 1)) f before last { left := ps ++ cs } =
      g ((literals f ps).foldl seq (joined before last)) := by
  induction ps generalizing before last with
  | nil =>
      rw [List.length_nil, Nat.zero_add]
      exact hrest before last
  | cons p ps ih =>
      obtain ⟨hp, hps⟩ := List.forall_mem_cons.mp hps
      have hfuel : (p :: ps).length + (k + 1) = ps.length + k + 2 := by
        rw [List.length_cons]
        omega
      rw [hfuel, List.cons_append, sequence_literal hp hspaced]
      exact ih hps _ _

theorem skip_of_head_ne (h : cs.head? ≠ some c) :
    Reading.skip c { left := cs } = .ok (false, { left := cs }) := by
  cases cs with
  | nil => rfl
  | cons d cs =>
      have hne : d ≠ c := fun hd => h (by rw [List.head?_cons, hd])
      simp only [Reading.skip, bind_of_eq_ok (x := get) rfl, if_neg hne]
      rfl

/-- A text is an expression when it is read as a sequence up to its end, without any groups. -/
theorem ofText_of_sequence {text : List Char} {q : Pattern}
    (h : Reading.sequence (4 * text.length + 3) f empty none { left := text } =
      .ok (q, { left := [] })) : ofText text f = .ok q := by
  have halternatives : alternatives (4 * text.length + 4) f { left := text } =
      .ok (q, { left := [] }) := by
    rw [alternatives, bind_of_eq_ok h]
    rfl
  rw [ofText, StateT.run, halternatives]
  rfl

end Mockup.Text.Pattern.Reading
