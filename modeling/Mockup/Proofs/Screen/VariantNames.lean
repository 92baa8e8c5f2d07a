import Mockup.Proofs.Agreement
import Mockup.Proofs.Text.Splitting
import Mockup.Proofs.Value.Fields
import Mockup.Screen.Variants

namespace Mockup.Variants

open Text

variable {name value part : String} {signs : List Char}

/-- A text that is not empty, has no blanks around it and none of some signs in it. -/
structure IsWord (signs : List Char) (s : String) : Prop where
  ne_empty : s ≠ ""
  trimmed : trimChars s.toList = s.toList
  clean : s.toList.any signs.contains = false

def IsEntry (entry : String × String) : Prop :=
  IsWord [',', '='] entry.1 ∧ IsWord [',', '\n'] entry.2

def IsWrittenAs (entry : String × String) (part : String) : Prop :=
  ∃ left right : String, left.toList.all isBlank = true ∧ right.toList.all isBlank = true ∧
    part = left ++ (entry.1 ++ "=" ++ entry.2) ++ right

theorem IsWord.toList_ne_nil (h : IsWord signs name) : name.toList ≠ [] :=
  fun hnil => h.ne_empty (String.toList_inj.mp hnil)

theorem IsWord.not_mem (h : IsWord signs name) {c : Char} (hc : c ∈ signs) : c ∉ name.toList := by
  intro hmem
  have hclean := List.any_eq_false.mp h.clean c hmem
  exact hclean (List.contains_iff_mem.mpr hc)

theorem toList_of_isWrittenAs (h : IsWrittenAs (name, value) part) :
    ∃ left right, (∀ c ∈ left, isBlank c = true) ∧ (∀ c ∈ right, isBlank c = true) ∧
      part.toList = left ++ (name.toList ++ '=' :: value.toList) ++ right := by
  obtain ⟨left, right, hleft, hright, rfl⟩ := h
  exact ⟨left.toList, right.toList, List.all_eq_true.mp hleft, List.all_eq_true.mp hright, by simp⟩

/-- The blanks around a part are trimmed off, and no more than those. -/
theorem trimChars_of_isWrittenAs (h : IsEntry (name, value))
    (hpart : IsWrittenAs (name, value) part) :
    trimChars part.toList = name.toList ++ '=' :: value.toList := by
  obtain ⟨left, right, hleft, hright, hchars⟩ := toList_of_isWrittenAs hpart
  obtain ⟨hfirst, -⟩ := trimBy_eq_self_iff.mp h.1.trimmed
  obtain ⟨-, hlast⟩ := trimBy_eq_self_iff.mp h.2.trimmed
  rw [trimChars, hchars, trimBy_padded hleft hright]
  apply trimBy_eq_self_iff.mpr
  constructor
  · rwa [List.head?_append_of_ne_nil _ h.1.toList_ne_nil]
  · rwa [List.getLast?_append_of_ne_nil _ (List.cons_ne_nil _ _),
      List.getLast?_cons_of_ne_nil h.2.toList_ne_nil]

theorem parsePart?_of_isWrittenAs (h : IsEntry (name, value))
    (hpart : IsWrittenAs (name, value) part) :
    parsePart? part.toList = some (name, value) := by
  have hname : ∀ c ∈ name.toList, (c != '=') = true := by
    intro c hc
    have hne : c ≠ '=' := fun heq => h.1.not_mem (c := '=') (by decide) (heq ▸ hc)
    simpa using hne
  have hbreak : value.toList.contains '\n' = false := by
    simpa using h.2.not_mem (c := '\n') (by decide)
  rw [parsePart?, trimChars_of_isWrittenAs h hpart, List.dropWhile_append_of_pos hname,
    List.takeWhile_append_of_pos hname, List.dropWhile_cons_of_neg (by decide),
    List.takeWhile_cons_of_neg (by decide), List.append_nil]
  simp only [List.isEmpty_eq_false_iff.mpr h.1.toList_ne_nil,
    List.isEmpty_eq_false_iff.mpr h.2.toList_ne_nil, hbreak, h.1.trimmed, h.2.trimmed,
    String.ofList_toList, Bool.or_self, Bool.false_eq_true, if_false]

theorem comma_not_mem_of_isWrittenAs (h : IsEntry (name, value))
    (hpart : IsWrittenAs (name, value) part) :
    ',' ∉ part.toList := by
  obtain ⟨left, right, hleft, hright, hchars⟩ := toList_of_isWrittenAs hpart
  have hcomma : isBlank ',' ≠ true := by decide
  simp only [hchars, List.mem_append, List.mem_cons, not_or]
  refine ⟨⟨?_, ?_, ?_, ?_⟩, ?_⟩
  · exact fun hmem => hcomma (hleft _ hmem)
  · exact h.1.not_mem (c := ',') (by decide)
  · decide
  · exact h.2.not_mem (c := ',') (by decide)
  · exact fun hmem => hcomma (hright _ hmem)

theorem filterMap_parsePart? {entries : List (String × String)} {parts : List String}
    (hentries : ∀ entry ∈ entries, IsEntry entry)
    (hparts : List.Forall₂ IsWrittenAs entries parts) :
    (parts.map String.toList).filterMap parsePart? = entries := by
  induction hparts with
  | nil => rfl
  | @cons entry part entries parts hpart _ ih =>
      obtain ⟨hentry, hentries⟩ := List.forall_mem_cons.mp hentries
      rw [List.map_cons, List.filterMap_cons_some (parsePart?_of_isWrittenAs hentry hpart),
        ih hentries]

/-- A name that spells properties with their values, no property twice, gives just these properties
and values in this order. -/
theorem parseName_of_spelled {entries : List (String × String)} {parts : List String}
    (hentries : ∀ entry ∈ entries, IsEntry entry) (hdistinct : (entries.map Prod.fst).Nodup)
    (hparts : List.Forall₂ IsWrittenAs entries parts) :
    parseName (",".intercalate parts) = entries := by
  have hcomma : ∀ piece ∈ parts.map String.toList, ',' ∉ piece := by
    intro piece hpiece
    obtain ⟨part, hpart, rfl⟩ := List.mem_map.mp hpiece
    obtain ⟨entry, hentry, hwritten⟩ := Related.exists_of_mem hparts hpart
    exact comma_not_mem_of_isWrittenAs (hentries entry hentry) hwritten
  have hread : (splitOn ',' (",".intercalate parts).toList).filterMap parsePart? = entries := by
    rw [String.toList_intercalate]
    cases hparts with
    | nil => rfl
    | cons hpart htail =>
        rw [← filterMap_parsePart? hentries (.cons hpart htail)]
        exact congrArg _ (splitOn_intercalate (List.cons_ne_nil _ _) hcomma)
  rw [parseName, hread, Fields.ofList_of_nodup hdistinct]

theorem parseName_of_spelled_iconSide :
    (∀ entry ∈ [("Size", "Large"), ("Icon Side", "left = right")], IsEntry entry) ∧
      List.Forall₂ IsWrittenAs [("Size", "Large"), ("Icon Side", "left = right")]
        [" Size=Large", "\tIcon Side=left = right\n"] ∧
      parseName " Size=Large,\tIcon Side=left = right\n" =
        [("Size", "Large"), ("Icon Side", "left = right")] := by
  have hentries : ∀ entry ∈ [("Size", "Large"), ("Icon Side", "left = right")], IsEntry entry := by
    intro entry hentry
    rcases List.mem_pair.mp hentry with rfl | rfl <;>
      exact ⟨⟨by decide, by decide, by decide⟩,
        ⟨by decide, by decide, by decide⟩⟩
  have hparts : List.Forall₂ IsWrittenAs [("Size", "Large"), ("Icon Side", "left = right")]
      [" Size=Large", "\tIcon Side=left = right\n"] :=
    .cons ⟨" ", "", by decide, by decide, by decide⟩
      (.cons ⟨"\t", "\n", by decide, by decide, by decide⟩ .nil)
  have hname : ",".intercalate [" Size=Large", "\tIcon Side=left = right\n"] =
      " Size=Large,\tIcon Side=left = right\n" := by decide
  refine ⟨hentries, hparts, ?_⟩
  rw [← hname]
  exact parseName_of_spelled hentries (by decide) hparts

end Mockup.Variants
