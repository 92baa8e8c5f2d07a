import Mockup.Naming
import Mockup.Proofs.Number.Numeral
import Mockup.Proofs.Value.Fields

namespace Mockup

def isSpelledWith (test : Char → Bool) (s : String) : Bool :=
  match s.toList with
  | c :: cs => c.isLower && cs.all test
  | [] => false

def isIdentifier (s : String) : Bool := isSpelledWith Char.isAlphanum s

def isReferencePart (c : Char) : Bool := c.isAlphanum || c == '_'

def isReference (s : String) : Bool := isSpelledWith isReferencePart s

section Spelling

variable {test : Char → Bool}

theorem isSpelledWith_ofList {c : Char} {cs : List Char} :
    isSpelledWith test (String.ofList (c :: cs)) = true ↔
      c.isLower = true ∧ ∀ d ∈ cs, test d = true := by
  simp [isSpelledWith]

theorem isSpelledWith.append {s u : String} (hs : isSpelledWith test s = true)
    (hu : ∀ c ∈ u.toList, test c = true) : isSpelledWith test (s ++ u) = true := by
  rw [isSpelledWith] at hs ⊢
  rw [String.toList_append]
  cases h : s.toList with
  | nil =>
      rw [h] at hs
      cases hs
  | cons c rest =>
      rw [h] at hs
      obtain ⟨hc, hrest⟩ := Bool.and_eq_true_iff.mp hs
      simpa [hc] using ⟨List.all_eq_true.mp hrest, hu⟩

theorem isSpelledWith.append_word {s word : String} (hs : isSpelledWith test s = true)
    (hword : word.toList.all test = true) : isSpelledWith test (s ++ word) = true :=
  isSpelledWith.append hs (List.all_eq_true.mp hword)

theorem isSpelledWith.mono {test' : Char → Bool} {s : String} (hs : isSpelledWith test s = true)
    (h : ∀ c, test c = true → test' c = true) : isSpelledWith test' s = true := by
  rw [isSpelledWith] at hs ⊢
  split at hs
  · obtain ⟨hc, hcs⟩ := Bool.and_eq_true_iff.mp hs
    rw [hc, Bool.true_and, List.all_eq_true]
    exact fun d hd => h d (List.all_eq_true.mp hcs d hd)
  · cases hs

end Spelling

theorem isReference_of_isIdentifier {s : String} (h : isIdentifier s = true) :
    isReference s = true :=
  isSpelledWith.mono h fun c hc => by rw [isReferencePart, hc, Bool.true_or]

namespace Text

theorem toNat_lt_of_isPlain {c : Char} (h : isPlain c = true) : c.toNat < 128 := by
  replace h : (decide (c.val ≥ 'A'.val ∧ c.val ≤ 'Z'.val) ||
    (c.val ≥ 'a'.val && c.val ≤ 'z'.val) || (c.val ≥ '0'.val && c.val ≤ '9'.val)) = true := h
  simp only [Bool.or_eq_true, Bool.and_eq_true, decide_eq_true_eq, UInt32.le_iff_toNat_le,
    ge_iff_le] at h
  have hval : c.toNat = c.val.toNat := rfl
  have hz : 'z'.val.toNat = 122 := rfl
  have hZ : 'Z'.val.toNat = 90 := rfl
  have h9 : '9'.val.toNat = 57 := rfl
  omega

/-- The letters and digits of ASCII have one case form each, which is one of them again. -/
theorem cases_of_isPlain {c : Char} (h : isPlain c = true) :
    lowerChar c = [c.toLower] ∧ c ≠ 'Σ' ∧ upperChar c = [c.toUpper] ∧
      isPlain c.toLower = true ∧ isPlain c.toUpper = true ∧
      (c.toLower.isLower = true ∨ c.toLower.isDigit = true) := by
  have hascii := toNat_lt_of_isPlain h
  revert h
  rw [← Char.ofNat_toNat c]
  generalize c.toNat = n at hascii
  revert n
  decide

variable {cs : List Char}

theorem lowerChars_of_plain (h : ∀ c ∈ cs, isPlain c = true) :
    lowerChars cs = cs.map Char.toLower := by
  have hafter (before : List Char) : lowerAfter before cs = cs.map Char.toLower := by
    induction cs generalizing before with
    | nil => rfl
    | cons c cs ih =>
        obtain ⟨hc, hcs⟩ := List.forall_mem_cons.mp h
        obtain ⟨hlower, hsigma, -⟩ := cases_of_isPlain hc
        rw [lowerAfter, if_neg hsigma, hlower, ih hcs]
        rfl
  exact hafter []

theorem isPlain_lowerChars (h : ∀ c ∈ cs, isPlain c = true) :
    ∀ c ∈ lowerChars cs, isPlain c = true := by
  rw [lowerChars_of_plain h]
  intro c hc
  obtain ⟨d, hd, rfl⟩ := List.mem_map.mp hc
  exact (cases_of_isPlain (h d hd)).2.2.2.1

theorem isPlain_capitalizeChars (h : ∀ c ∈ cs, isPlain c = true) :
    ∀ c ∈ capitalizeChars cs, isPlain c = true := by
  cases cs with
  | nil => exact fun c hc => absurd hc List.not_mem_nil
  | cons d rest =>
      obtain ⟨hd, hrest⟩ := List.forall_mem_cons.mp h
      obtain ⟨-, -, hupper, -, hplain, -⟩ := cases_of_isPlain hd
      rw [capitalizeChars, hupper, List.singleton_append]
      exact List.forall_mem_cons.mpr ⟨hplain, isPlain_lowerChars hrest⟩

theorem of_mem_splitBy {p : Char → Bool} {w : List Char} (hw : w ∈ splitBy p cs) :
    ∀ c ∈ w, c ∈ cs ∧ p c = false := by
  induction cs generalizing w with
  | nil =>
      rw [List.mem_singleton.mp hw]
      exact fun c hc => absurd hc List.not_mem_nil
  | cons d rest ih =>
      have hrest {w : List Char} (hw : w ∈ splitBy p rest) : ∀ c ∈ w, c ∈ d :: rest ∧ p c = false :=
        fun c hc => ⟨List.mem_cons_of_mem d (ih hw c hc).1, (ih hw c hc).2⟩
      simp only [splitBy] at hw
      split at hw
      · rcases List.mem_cons.mp hw with rfl | hw
        · exact fun c hc => absurd hc List.not_mem_nil
        · exact hrest hw
      · next hd =>
          rcases List.mem_cons.mp hw with rfl | hw
          · refine List.forall_mem_cons.mpr ⟨⟨List.mem_cons_self, by simpa using hd⟩, ?_⟩
            cases hpieces : splitBy p rest with
            | nil => exact fun c hc => absurd hc List.not_mem_nil
            | cons piece pieces => exact hrest (by rw [hpieces]; exact List.mem_cons_self)
          · exact hrest (List.mem_of_mem_tail hw)

theorem of_mem_wordsBy {p : Char → Bool} {w : List Char} (hw : w ∈ wordsBy p cs) :
    w ≠ [] ∧ ∀ c ∈ w, p c = false := by
  obtain ⟨hw, hne⟩ := List.mem_filter.mp hw
  exact ⟨by simpa using hne, fun c hc => (of_mem_splitBy hw c hc).2⟩

end Text

namespace Naming

open Text

theorem of_mem_plainWords {name : String} {w : List Char} (hw : w ∈ plainWords name) :
    w ≠ [] ∧ ∀ c ∈ w, isPlain c = true := by
  obtain ⟨hne, hplain⟩ := of_mem_wordsBy hw
  exact ⟨hne, fun c hc => by simpa using hplain c hc⟩

/-- The words of a name in camel case are nothing, or letters and digits of which the first one is
no capital. -/
theorem camelCase_eq {ws : List (List Char)} (h : ∀ w ∈ ws, w ≠ [] ∧ ∀ c ∈ w, isPlain c = true) :
    camelCase ws = [] ∨ ∃ c cs, camelCase ws = c :: cs ∧ (c.isLower = true ∨ c.isDigit = true) ∧
      ∀ d ∈ c :: cs, isPlain d = true := by
  cases ws with
  | nil => exact .inl rfl
  | cons w ws =>
      obtain ⟨⟨hne, hw⟩, hws⟩ := List.forall_mem_cons.mp h
      cases w with
      | nil => exact absurd rfl hne
      | cons c cs =>
          have hplain : ∀ d ∈ camelCase ((c :: cs) :: ws), isPlain d = true := by
            intro d hd
            rcases List.mem_append.mp hd with hd | hd
            · exact isPlain_lowerChars hw d hd
            · obtain ⟨w, hmem, hd⟩ := List.mem_flatMap.mp hd
              exact isPlain_capitalizeChars (hws w hmem).2 d hd
          have hfirst := (cases_of_isPlain (hw c List.mem_cons_self)).2.2.2.2.2
          rw [camelCase, lowerChars_of_plain hw, List.map_cons, List.cons_append] at hplain ⊢
          exact .inr ⟨_, _, rfl, hfirst, hplain⟩

structure IsPlain (n : Naming) : Prop where
  fallback : isIdentifier n.fallbackIdentifier = true
  digit : isIdentifier n.digitPrefix = true
  container : isIdentifier n.containerPrefix = true
  kinds : ∀ k ∈ n.kindPrefixes, isIdentifier k.2 = true

theorem isPlain_default : IsPlain {} where
  fallback := by decide
  digit := by decide
  container := by decide
  kinds := by decide

variable {n : Naming}

theorem isIdentifier_identifier (hn : n.IsPlain) (name : String) :
    isIdentifier (n.identifier name) = true := by
  rw [identifier]
  rcases camelCase_eq fun w (hw : w ∈ plainWords name) => of_mem_plainWords hw with
    h | ⟨c, cs, h, hc, hplain⟩
  · rw [h]
    exact hn.fallback
  · rw [h]
    simp only
    split
    · exact isSpelledWith.append hn.digit (by rwa [String.toList_ofList])
    · next hdigit =>
        exact isSpelledWith_ofList.mpr ⟨hc.resolve_right hdigit, (List.forall_mem_cons.mp hplain).2⟩

theorem isReferencePart_shortId (id : String) :
    ∀ c ∈ (shortId id).toList, isReferencePart c = true := by
  have hsafe : ∀ c ∈ id.toList.map fun c => if isPlain c then c else '_',
      isReferencePart c = true := by
    intro c hc
    obtain ⟨d, -, rfl⟩ := List.mem_map.mp hc
    split
    · next hd => exact Bool.or_eq_true_iff.mpr (.inl hd)
    · rfl
  rw [shortId, String.toList_ofList]
  split
  · exact hsafe
  · intro c hc
    rw [List.getLastD_eq_getLast?] at hc
    cases hlast : (splitOn '_' (id.toList.map fun c => if isPlain c then c else '_')).getLast? with
    | none =>
        rw [hlast] at hc
        cases hc
    | some w =>
        rw [hlast] at hc
        exact hsafe c (of_mem_splitBy (List.mem_of_getLast? hlast) c hc).1

theorem isIdentifier_wordFor (hn : n.IsPlain) (kind : Option String) (hasChildren : Bool) :
    isIdentifier (n.wordFor kind hasChildren) = true := by
  rw [wordFor]
  split
  · next hword =>
      cases h : kind.bind fun k => Fields.get? k n.kindPrefixes with
      | none => simp [h] at hword
      | some word =>
          obtain ⟨k, -, hk⟩ := Option.bind_eq_some_iff.mp h
          exact hn.kinds _ (Fields.mem_of_get? hk)
  · split
    · exact hn.container
    · exact hn.fallback

theorem isReference_shortRef (hn : n.IsPlain) {id : LayerId} {kind : Option String}
    {hasChildren : Bool} {ref : String} (h : n.shortRef id kind hasChildren = .ok ref) :
    isReference ref = true := by
  cases id with
  | none => cases h
  | some id =>
      cases h
      refine isSpelledWith.append (isSpelledWith.append_word ?_ (by decide))
        (isReferencePart_shortId id)
      exact isReference_of_isIdentifier (isIdentifier_wordFor hn kind hasChildren)

theorem isReference_styleRef (hn : n.IsPlain) {name : String} {id : LayerId} {kind : Option String}
    {hasChildren : Bool} {ref : String} (h : n.styleRef name id kind hasChildren = .ok ref) :
    isReference ref = true := by
  simp only [styleRef] at h
  split at h
  · exact isReference_shortRef hn h
  · split at h
    · exact isReference_shortRef hn h
    · split at h
      · cases h
      · exact isReference_shortRef hn h
      · cases h
        exact isReference_of_isIdentifier (isIdentifier_identifier hn name)

theorem isReference_repeaterNames (hn : n.IsPlain) (baseName : String) :
    isReference (n.repeaterNames baseName).style = true := by
  have hident := isReference_of_isIdentifier (isIdentifier_identifier hn baseName)
  refine isSpelledWith.append_word (isSpelledWith.append (by decide) ?_) (by decide)
  rw [isReference, isSpelledWith] at hident
  split at hident
  · next c cs hcs =>
      obtain ⟨hc, hrest⟩ := Bool.and_eq_true_iff.mp hident
      rw [hcs]
      refine List.forall_mem_cons.mpr ⟨?_, List.all_eq_true.mp hrest⟩
      have halpha : c.isAlphanum = true := by
        simp only [Char.isAlphanum, Bool.or_eq_true]
        exact .inl (Bool.or_eq_true_iff.mpr (.inr hc))
      rw [isReferencePart, halpha, Bool.true_or]
  · cases hident

end Naming

end Mockup
