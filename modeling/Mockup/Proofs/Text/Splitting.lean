import Mathlib.Data.List.DropRight
import Mathlib.Data.List.TakeWhile
import Mockup.Text.Scan

namespace Mockup.Text

variable {p : Char → Bool} {separator : Char} {cs : List Char}

theorem splitBy_eq (p : Char → Bool) (cs : List Char) : splitBy p cs = cs.splitOnP p := by
  induction cs with
  | nil => rw [splitBy, List.splitOnP_nil]
  | cons c cs ih =>
      rw [splitBy, ih, List.splitOnP_cons_eq_if_modifyHead]
      obtain ⟨piece, pieces, hsplit⟩ := List.exists_cons_of_ne_nil (List.splitOnP_ne_nil p cs)
      rw [hsplit]
      rfl

theorem splitOn_eq (separator : Char) (cs : List Char) :
    splitOn separator cs = cs.splitOn separator := by
  rw [splitOn, splitBy_eq, List.splitOn_eq_splitOnP]

theorem splitOn_intercalate {pieces : List (List Char)} (hne : pieces ≠ [])
    (h : ∀ piece ∈ pieces, separator ∉ piece) :
    splitOn separator ([separator].intercalate pieces) = pieces := by
  rw [splitOn_eq, List.splitOn_intercalate separator h hne]

/-- The last piece is all of a text, or what follows its last separator. -/
def IsLastPiece (separator : Char) (cs piece : List Char) : Prop :=
  separator ∉ piece ∧ (cs = piece ∨ ∃ before, cs = before ++ separator :: piece)

theorem isLastPiece_splitOn (separator : Char) (cs : List Char) :
    IsLastPiece separator cs ((splitOn separator cs).getLastD []) := by
  rw [splitOn_eq]
  by_cases hmem : separator ∈ cs
  · obtain ⟨piece, before, hsplit, hpiece⟩ :=
      List.eq_append_cons_of_mem (List.mem_reverse.mpr hmem)
    have hcs : cs = before.reverse ++ separator :: piece.reverse := by
      rw [← List.reverse_reverse cs, hsplit]
      simp
    have hnot : separator ∉ piece.reverse := fun h => hpiece (List.mem_reverse.mp h)
    rw [hcs, List.splitOn_append_cons_self, List.splitOn_eq_singleton hnot, List.getLastD_concat]
    exact ⟨hnot, .inr ⟨_, rfl⟩⟩
  · rw [List.splitOn_eq_singleton hmem]
    exact ⟨hmem, .inl rfl⟩

theorem forall_mem_intercalate {P : Char → Prop} {pieces : List (List Char)}
    (hseparator : P separator) (h : ∀ piece ∈ pieces, ∀ c ∈ piece, P c) :
    ∀ c ∈ [separator].intercalate pieces, P c := by
  induction pieces with
  | nil => exact fun c hc => absurd hc List.not_mem_nil
  | cons piece pieces ih =>
      obtain ⟨hpiece, hpieces⟩ := List.forall_mem_cons.mp h
      by_cases hne : pieces = []
      · subst hne
        simpa using hpiece
      · rw [List.intercalate_cons_of_ne_nil hne]
        refine List.forall_mem_append.mpr ⟨List.forall_mem_append.mpr ⟨hpiece, ?_⟩, ih hpieces⟩
        exact List.forall_mem_singleton.mpr hseparator

theorem trimBy_eq (p : Char → Bool) (cs : List Char) :
    trimBy p cs = (cs.dropWhile p).rdropWhile p := rfl

/-- What is trimmed off at either end does not matter. -/
theorem trimBy_padded {left right : List Char} (hleft : ∀ c ∈ left, p c = true)
    (hright : ∀ c ∈ right, p c = true) : trimBy p (left ++ cs ++ right) = trimBy p cs := by
  have hend (cs : List Char) : (cs ++ right).rdropWhile p = cs.rdropWhile p := by
    rw [List.rdropWhile, List.reverse_append, List.dropWhile_append_of_pos (by simpa using hright)]
    rfl
  rw [trimBy_eq, trimBy_eq, List.append_assoc, List.dropWhile_append_of_pos hleft,
    List.dropWhile_append]
  split
  · next h =>
      rw [List.isEmpty_iff.mp h, List.rdropWhile_nil, List.rdropWhile_eq_nil_iff]
      exact fun c hc => hright c ((List.dropWhile_suffix p).subset hc)
  · exact hend _

theorem trimBy_eq_nil_iff : trimBy p cs = [] ↔ ∀ c ∈ cs, p c = true := by
  rw [trimBy_eq, List.rdropWhile_eq_nil_iff]
  constructor
  · intro h c hc
    rw [← List.takeWhile_append_dropWhile (p := p) (l := cs)] at hc
    rcases List.mem_append.mp hc with hc | hc
    · exact List.mem_takeWhile_imp hc
    · exact h c hc
  · exact fun h c hc => h c ((List.dropWhile_suffix p).subset hc)

theorem dropWhile_eq_self_iff_head : cs.dropWhile p = cs ↔ ∀ c ∈ cs.head?, p c = false := by
  cases cs with
  | nil => simp
  | cons c cs => simp [List.dropWhile_eq_self_iff]

/-- A text is trimmed if and only if neither end of it is to be trimmed. -/
theorem trimBy_eq_self_iff : trimBy p cs = cs ↔
    (∀ c ∈ cs.head?, p c = false) ∧ ∀ c ∈ cs.getLast?, p c = false := by
  have hend : cs.rdropWhile p = cs ↔ ∀ c ∈ cs.getLast?, p c = false := by
    rw [List.rdropWhile, List.reverse_eq_iff, dropWhile_eq_self_iff_head, List.head?_reverse]
  rw [trimBy_eq, ← dropWhile_eq_self_iff_head, ← hend]
  constructor
  · intro h
    have hstart : cs.dropWhile p = cs := by
      have hle := (List.rdropWhile_prefix p (cs.dropWhile p)).length_le
      rw [h] at hle
      exact (List.dropWhile_suffix p).eq_of_length_le hle
    exact ⟨hstart, by rwa [hstart] at h⟩
  · rintro ⟨hstart, hend⟩
    rw [hstart, hend]

theorem trimEndBy_append {p : Char → Bool} {right : List Char} (h : ∀ c ∈ right, p c = true)
    (cs : List Char) : trimEndBy p (cs ++ right) = trimEndBy p cs := by
  rw [trimEndBy, trimEndBy, List.reverse_append,
    List.dropWhile_append_of_pos fun c hc => h c (List.mem_reverse.mp hc)]

theorem trimEndBy_concat (p : Char → Bool) {c : Char} (h : p c = false) (cs : List Char) :
    trimEndBy p (cs ++ [c]) = cs ++ [c] :=
  List.rdropWhile_concat_neg p cs c (by rw [h]; exact Bool.false_ne_true)

end Mockup.Text
