import Mockup.Proofs.Naming.Identifier
import Mockup.Proofs.Naming.Numbering
import Mockup.Proofs.Text.Splitting

namespace Mockup.Naming

open Text Pattern.Reading

/-- A name that is not blank, is none that a design tool made up, and has letters or digits of which
an identifier is made. -/
structure Speaks (n : Naming) (name : String) : Prop where
  notBlank : ∃ c ∈ name.toList, isBlank c = false
  notGeneric : isGenericLayerName name = false
  ownIdentifier : n.identifier name ≠ n.fallbackIdentifier

/-- An identifier that is the digit prefix, as it is written, and then nothing but digits. -/
def IsNumbered (n : Naming) (identifier : String) : Prop :=
  ∃ digits : List Char, digits ≠ [] ∧ (∀ c ∈ digits, c.isDigit = true) ∧
    identifier.toList = n.digitPrefix.toList ++ digits

def safe (id : List Char) : List Char := id.map fun c => if isPlain c then c else '_'

/-- The last piece of an id between underscores, or all of it if that piece is empty. -/
def IsShort (id short : List Char) : Prop :=
  ∃ piece, IsLastPiece '_' (safe id) piece ∧ short = if piece = [] then safe id else piece

/-- A layer is referred to by the identifier of its name if that speaks and is not just a number,
and otherwise by a word and its short id. -/
structure IsNamed (n : Naming) (name id : String) (kind : Option String) (hasChildren : Bool) :
    Prop where
  byName : n.Speaks name → ¬n.IsNumbered (n.identifier name) →
    n.styleRef name (some id) kind hasChildren = .ok (n.identifier name)
  byId : ¬(n.Speaks name ∧ ¬n.IsNumbered (n.identifier name)) → ∃ short, IsShort id.toList short ∧
    n.styleRef name (some id) kind hasChildren =
      .ok (n.wordFor kind hasChildren ++ "_" ++ String.ofList short)

theorem isShort_shortId (id : String) : IsShort id.toList (shortId id).toList := by
  refine ⟨_, isLastPiece_splitOn '_' (safe id.toList), ?_⟩
  rw [shortId, String.toList_ofList]
  simp only [List.isEmpty_iff]
  rfl

theorem isPlainNumber_iff {cs : List Char} (hline : cs.getLast? ≠ some '\n') :
    isPlainNumber cs = true ↔ cs ≠ [] ∧ ∀ c ∈ cs, c.isDigit = true := by
  rw [isPlainNumber, Bool.and_eq_true, Text.skip]
  constructor
  · rintro ⟨hhead, hend⟩
    have hne : cs ≠ [] := by
      rintro rfl
      cases hhead
    refine ⟨hne, ?_⟩
    rcases Bool.or_eq_true_iff.mp hend with hend | hend
    · exact List.dropWhile_eq_nil_iff.mp (List.isEmpty_iff.mp hend)
    · refine absurd ?_ hline
      rw [← List.takeWhile_append_dropWhile (p := Char.isDigit) (l := cs), beq_iff_eq.mp hend,
        List.getLast?_concat]
  · rintro ⟨hne, hall⟩
    obtain ⟨c, rest, rfl⟩ := List.exists_cons_of_ne_nil hne
    rw [List.dropWhile_eq_nil_iff.mpr hall]
    exact ⟨hall c List.mem_cons_self, rfl⟩

variable {n : Naming} {name : String}

/-- An identifier that is not the one to fall back on ends in a letter or a digit. -/
theorem getLast?_identifier_ne (h : n.identifier name ≠ n.fallbackIdentifier) :
    (n.identifier name).toList.getLast? ≠ some '\n' := by
  rw [identifier] at h ⊢
  rcases camelCase_eq fun w (hw : w ∈ plainWords name) => of_mem_plainWords hw with
    hnil | ⟨c, cs, hcons, -, hplain⟩
  · rw [hnil] at h
    exact absurd rfl h
  · have hlast : (c :: cs).getLast? ≠ some '\n' := fun hline =>
      absurd (hplain _ (List.mem_of_getLast? hline)) (by decide)
    rw [hcons]
    simp only
    split
    · rw [String.toList_append, String.toList_ofList,
        List.getLast?_append_of_ne_nil _ (List.cons_ne_nil c cs)]
      exact hlast
    · rwa [String.toList_ofList]

theorem isNumberedPlain_iff {identifier : String} (hline : identifier.toList.getLast? ≠ some '\n') :
    isNumberedPlain n.digitPrefix.toList identifier.toList = true ↔ n.IsNumbered identifier := by
  rw [isNumberedPlain, Bool.and_eq_true, List.isPrefixOf_iff_prefix]
  constructor
  · rintro ⟨⟨digits, hsplit⟩, hnumber⟩
    rw [← hsplit] at hline hnumber
    have hlast : digits.getLast? ≠ some '\n' := fun h =>
      hline (by rw [List.getLast?_append, h, Option.some_or])
    rw [List.drop_left, isPlainNumber_iff hlast] at hnumber
    exact ⟨digits, hnumber.1, hnumber.2, hsplit.symm⟩
  · rintro ⟨digits, hne, hdigits, hsplit⟩
    have hlast : digits.getLast? ≠ some '\n' := fun h =>
      absurd (hdigits _ (List.mem_of_getLast? h)) (by decide)
    rw [hsplit, List.drop_left, isPlainNumber_iff hlast]
    exact ⟨List.prefix_append _ _, hne, hdigits⟩

theorem speaks_iff : n.Speaks name ↔
    ((trimChars name.toList).isEmpty || isGenericLayerName name) = false ∧
      n.identifier name ≠ n.fallbackIdentifier := by
  rw [Bool.or_eq_false_iff]
  have hblank : (trimChars name.toList).isEmpty = false ↔ ∃ c ∈ name.toList, isBlank c = false := by
    rw [← Bool.not_eq_true, List.isEmpty_iff, trimChars, trimBy_eq_nil_iff]
    simp
  constructor
  · exact fun h => ⟨⟨hblank.mpr h.notBlank, h.notGeneric⟩, h.ownIdentifier⟩
  · exact fun ⟨⟨hne, hgeneric⟩, hown⟩ => ⟨hblank.mp hne, hgeneric, hown⟩

theorem styleRef_of_not_speaks (h : ¬n.Speaks name) (id : String) (kind : Option String)
    (hasChildren : Bool) :
    n.styleRef name (some id) kind hasChildren = n.shortRef (some id) kind hasChildren := by
  rw [speaks_iff, not_and, not_not] at h
  simp only [styleRef]
  split
  · rfl
  · next hnamed => rw [if_pos (h (Bool.eq_false_iff.mpr hnamed))]

theorem styleRef_of_speaks (h : n.Speaks name) (hliteral : ∀ c ∈ n.digitPrefix.toList, c ∉ signs)
    (id : String) (kind : Option String) (hasChildren : Bool) :
    n.styleRef name (some id) kind hasChildren =
      if isNumberedPlain n.digitPrefix.toList (n.identifier name).toList then
        n.shortRef (some id) kind hasChildren
      else .ok (n.identifier name) := by
  obtain ⟨hnamed, hown⟩ := speaks_iff.mp h
  simp only [styleRef, hnamed, Bool.false_eq_true, if_false, if_neg hown, isNumberedRef_eq hliteral]
  cases isNumberedPlain n.digitPrefix.toList (n.identifier name).toList <;> rfl

/-- The digit prefix counts as a regular expression, but only for a name that speaks, and one
without signs means the same as its text. -/
theorem isNamed_of_literalPrefix (n : Naming) (name id : String) (kind : Option String)
    (hasChildren : Bool) (h : n.Speaks name → ∀ c ∈ n.digitPrefix.toList, c ∉ signs) :
    n.IsNamed name id kind hasChildren := by
  have hshort : ∃ short, IsShort id.toList short ∧ n.shortRef (some id) kind hasChildren =
      .ok (n.wordFor kind hasChildren ++ "_" ++ String.ofList short) :=
    ⟨_, isShort_shortId id, by rw [String.ofList_toList]; rfl⟩
  by_cases hspeaks : n.Speaks name
  · have hnumbered := isNumberedPlain_iff (n := n) (getLast?_identifier_ne hspeaks.ownIdentifier)
    have href := styleRef_of_speaks hspeaks (h hspeaks) id kind hasChildren
    constructor
    · intro _ hnot
      rw [href, if_neg (hnumbered.not.mpr hnot)]
    · intro hnot
      rw [href, if_pos (hnumbered.mpr (not_not.mp fun hn => hnot ⟨hspeaks, hn⟩))]
      exact hshort
  · constructor
    · exact fun hs => absurd hs hspeaks
    · intro _
      rw [styleRef_of_not_speaks hspeaks]
      exact hshort

theorem isNamed_of_literalPrefix_dashed :
    (∀ c ∈ ({ digitPrefix := "no-" } : Naming).digitPrefix.toList, c ∉ signs) ∧
      IsNamed { digitPrefix := "no-" } "34" "1:2" (some "FRAME") false ∧
      styleRef { digitPrefix := "no-" } "34" (some "1:2") (some "FRAME") false = .ok "element_2" ∧
      IsNamed { digitPrefix := "no-" } "34 Main" "1:2" (some "FRAME") false ∧
      styleRef { digitPrefix := "no-" } "34 Main" (some "1:2") (some "FRAME") false =
        .ok "no-34Main" := by
  have hliteral : ∀ c ∈ ({ digitPrefix := "no-" } : Naming).digitPrefix.toList, c ∉ signs := by
    simp [signs]
  exact ⟨hliteral, isNamed_of_literalPrefix _ _ _ _ _ fun _ => hliteral, by decide +kernel,
    isNamed_of_literalPrefix _ _ _ _ _ fun _ => hliteral, by decide +kernel⟩

/-- A prefix with a sign is not found again in the identifier that was made with it, and one that is
no regular expression has no result. -/
theorem not_isNamed_signs :
    ¬IsNamed { digitPrefix := "s+" } "34" "1:2" (some "FRAME") false ∧
      ¬IsNamed { digitPrefix := ")" } "34" "1:2" (some "FRAME") false := by
  have hdigits : ∀ c ∈ ['3', '4'], c.isDigit = true := List.all_eq_true.mp (by decide)
  have hwords : camelCase (plainWords "34") = ['3', '4'] := by decide
  have hnumbered (leading : String) :
      IsNumbered { digitPrefix := leading } (identifier { digitPrefix := leading } "34") :=
    ⟨['3', '4'], by decide, hdigits, by simp [identifier, hwords]⟩
  constructor
  · intro h
    obtain ⟨short, -, hshort⟩ := h.byId fun hnot => hnot.2 (hnumbered "s+")
    have href : styleRef { digitPrefix := "s+" } "34" (some "1:2") (some "FRAME") false =
        .ok "s+34" := by decide +kernel
    have htext := congrArg String.toList (Except.ok.inj (href.symm.trans hshort))
    have hword : wordFor { digitPrefix := "s+" } (some "FRAME") false = "element" := by
      decide
    rw [hword] at htext
    simp at htext
  · intro h
    obtain ⟨short, -, hshort⟩ := h.byId fun hnot => hnot.2 (hnumbered ")")
    have href : styleRef { digitPrefix := ")" } "34" (some "1:2") (some "FRAME") false =
        .error (.invalidPattern .malformed ")") := by decide
    cases href.symm.trans hshort

end Mockup.Naming
