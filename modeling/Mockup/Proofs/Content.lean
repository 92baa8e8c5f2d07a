import Mockup.Proofs.Element.Recognition
import Mockup.Proofs.List
import Mockup.Proofs.Text.Masking

namespace Mockup.Content

open Text

variable {cs : List Char}

theorem hasDigit_map_mask (cs : List Char) : hasDigit (cs.map mask) = hasDigit cs := by
  rw [hasDigit, List.any_map, isDigit_comp_mask, hasDigit]

theorem digitCount_map_mask (cs : List Char) : digitCount (cs.map mask) = digitCount cs := by
  rw [digitCount, List.countP_map, isDigit_comp_mask, digitCount]

theorem hasGroups_map_mask (cs : List Char) : hasGroups (cs.map mask) = hasGroups cs := by
  induction cs using hasGroups.induct with
  | case1 a b c rest ih =>
      simp only [List.map_cons] at ih ⊢
      rw [hasGroups, ih, isDigit_mask, isBlank_mask, isDigit_mask, hasGroups]
  | case2 cs h =>
      rcases cs with _ | ⟨a, _ | ⟨b, _ | ⟨c, rest⟩⟩⟩
      · rfl
      · rfl
      · rfl
      · exact (h a b c rest rfl).elim

theorem isPrice_map_mask (cs : List Char) : isPrice (cs.map mask) = isPrice cs := by
  have hsymbol : currencySymbols.contains ∘ mask = currencySymbols.contains := comp_mask (by decide)
  rw [isPrice, List.any_map, hsymbol, hasDigit_map_mask, isPrice]

theorem isAmount_map_mask (cs : List Char) : isAmount (cs.map mask) = isAmount cs := by
  cases cs with
  | nil => rfl
  | cons sign rest =>
      have hsign := apply_mask (p := ['+', '-', '−'].contains) (by decide) sign
      have hallowed : (fun c => c.isDigit || isBlank c) ∘ mask = fun c => c.isDigit || isBlank c :=
        comp_mask (by decide)
      rw [List.map_cons, isAmount, isAmount, hsign, List.isEmpty_map, List.all_map, hallowed,
        hasDigit_map_mask, digitCount_map_mask, hasGroups_map_mask]

theorem isCardBrand_map_mask (cs : List Char) : isCardBrand (cs.map mask) = isCardBrand cs := by
  have hbrands : ∀ brand ∈ paymentBrands, (lowerChars brand.toList).any Char.isDigit = false := by
    decide
  rw [isCardBrand, isCardBrand, lowerChars_map_mask]
  apply any_congr_of_mem
  intro brand hbrand
  rw [Bool.eq_iff_iff, beq_iff_eq, beq_iff_eq, map_mask_eq_iff (hbrands brand hbrand)]

theorem isCardEnd_map_mask (cs : List Char) : isCardEnd (cs.map mask) = isCardEnd cs := by
  have hhidden : (fun c => ['•', '·', '*'].contains c || isBlank c) ∘ mask =
      fun c => ['•', '·', '*'].contains c || isBlank c := comp_mask (by decide)
  simp only [isCardEnd, skip, List.dropWhile_map, List.takeWhile_map, hhidden, isDigit_comp_mask,
    List.length_map, ← List.map_drop, atEnd_map_mask]

theorem isDate_map_mask (cs : List Char) : isDate (cs.map mask) = isDate cs := by
  have hmonths : ∀ month ∈ cyrillicMonths ++ latinMonths,
      month.toList.any Char.isDigit = false := by
    decide
  simp only [isDate, lowerChars_map_mask, hasDigit_map_mask]
  congr 1
  apply any_congr_of_mem
  exact fun month hmonth => occursIn_map_mask (hmonths month hmonth) _

theorem isPhone_map_mask (cs : List Char) : isPhone (cs.map mask) = isPhone cs := by
  have hallowed : (fun c => c.isDigit || isBlank c || ['-', '(', ')', '.'].contains c) ∘ mask =
      fun c => c.isDigit || isBlank c || ['-', '(', ')', '.'].contains c := comp_mask (by decide)
  rcases cs with _ | ⟨sign, _ | ⟨d, rest⟩⟩
  · rfl
  · simp [isPhone]
  by_cases hsign : sign = '+'
  · subst hsign
    have hcount := digitCount_map_mask ('+' :: d :: rest)
    simp only [List.map_cons, mask_of_not_isDigit (c := '+') (by decide)] at hcount ⊢
    rw [isPhone, isPhone, hcount, isDigit_mask, List.length_map, List.all_map, hallowed]
  · have hmask : mask sign ≠ '+' := fun h => hsign ((mask_eq_iff (by decide)).mp h)
    simp [isPhone, hsign, hmask]

theorem isPercentage_map_mask (cs : List Char) : isPercentage (cs.map mask) = isPercentage cs := by
  have hallowed : (fun c => c.isDigit || isBlank c || c == ',' || c == '.') ∘ mask =
      fun c => c.isDigit || isBlank c || c == ',' || c == '.' := comp_mask (by decide)
  simp only [isPercentage, List.takeWhile_map, List.dropWhile_map, hallowed, List.isEmpty_map,
    hasDigit_map_mask]
  congr 1
  cases cs.dropWhile fun c => c.isDigit || isBlank c || c == ',' || c == '.' with
  | nil => rfl
  | cons sign rest =>
      by_cases hsign : sign = '%'
      · subst hsign
        exact atEnd_map_mask rest
      · have hmask : mask sign ≠ '%' := fun h => hsign ((mask_eq_iff (by decide)).mp h)
        simp [hsign, hmask]

theorem accepts_map_mask (p : Pattern) (cs : List Char) :
    p.accepts (cs.map mask) = p.accepts cs := by
  cases p with
  | price => exact isPrice_map_mask cs
  | amount => exact isAmount_map_mask cs
  | cardBrand => exact isCardBrand_map_mask cs
  | cardLastDigits => exact isCardEnd_map_mask cs
  | date => exact isDate_map_mask cs
  | phone => exact isPhone_map_mask cs
  | percentage => exact isPercentage_map_mask cs

theorem detect_map_mask (text : String) :
    detect (String.ofList (text.toList.map mask)) = detect text := by
  have haccepts (cs : List Char) :
      (fun p : Pattern => p.accepts (cs.map mask)) = fun p => p.accepts cs := by
    funext p
    exact accepts_map_mask p cs
  simp only [detect, String.toList_ofList, trimChars, trimBy_map_mask isBlank_comp_mask,
    List.isEmpty_map, haccepts]
  rfl

/-- Texts of one length that differ at most in which digit stands at a place. -/
def DifferInDigits (t u : String) : Prop :=
  List.Forall₂ (fun a b => a = b ∨ a.isDigit = true ∧ b.isDigit = true) t.toList u.toList

theorem DifferInDigits.map_mask_eq {t u : String} (h : DifferInDigits t u) :
    t.toList.map mask = u.toList.map mask := by
  apply Related.map_eq h
  rintro a b (rfl | ⟨ha, hb⟩)
  · rfl
  · rw [mask, mask, if_pos ha, if_pos hb]

theorem DifferInDigits.eq_empty_iff {t u : String} (h : DifferInDigits t u) : t = "" ↔ u = "" := by
  rw [← String.toList_eq_nil_iff, ← String.toList_eq_nil_iff, ← List.length_eq_zero_iff,
    h.length_eq, List.length_eq_zero_iff]

theorem DifferInDigits.detect_eq {t u : String} (h : DifferInDigits t u) : detect t = detect u := by
  rw [← detect_map_mask, h.map_mask_eq, detect_map_mask]

open Recognition

variable {n : Naming} {p q : Placed} {ts us : List (Tree Placed)} {t u : String} {e f : Element}

def guess? : Element → Option (Option String × Option String)
  | .leaf _ (.text t) => some (t.pattern, t.propName)
  | _ => none

def asText (n : Naming) (p : Placed) (ts : List (Tree Placed)) (t : String)
    (pattern propName : Option String) : Result Element :=
  (identityOf n p ts).map fun i => .leaf i (.text ⟨t, propName, some t, pattern⟩)

theorem isText_iff (htext : p.text = some t) :
    Role.isText p.toTraits = true ↔ p.isKind ["TEXT"] = true ∧ t ≠ "" := by
  rw [Role.isText, htext, Bool.and_eq_true]
  simp

theorem isText_of_eq_text (h : Role.of p ts = .ok .text) : Role.isText p.toTraits = true := by
  rw [Role.of] at h
  split at h
  · cases h
  split at h
  · next htext => exact htext
  obtain ⟨icon, -, h⟩ := Result.bind_eq_ok_iff.mp h
  split at h
  · cases h
  split at h
  · cases h
  obtain ⟨button, -, h⟩ := Result.bind_eq_ok_iff.mp h
  split at h
  · cases h
  obtain ⟨card, -, h⟩ := Result.bind_eq_ok_iff.mp h
  split at h <;> cases h

theorem recognize_of_text (hkind : p.kind = some "TEXT") (htext : p.text = some t) (hne : t ≠ "") :
    recognize n (.node p ts) = asText n p ts t ((detect t).map Pattern.name)
      (n.textPropName p.label ((detect t).map Pattern.name)) := by
  have hcomponent : Role.isComponent p.toTraits = false := by
    rw [Role.isComponent, Traits.isKind, hkind]
    decide
  have hisText : Role.isText p.toTraits = true := by
    rw [isText_iff htext, Traits.isKind, hkind]
    exact ⟨by decide, hne⟩
  have hrole : Role.of p ts = .ok .text := by
    rw [Role.of, hcomponent, hisText]
    rfl
  rw [recognize, hrole, asText, textOf, htext]
  cases identityOf n p ts <;> rfl

theorem guess?_of_asText {pattern propName : Option String}
    (he : asText n p ts t pattern propName = .ok e) : guess? e = some (pattern, propName) := by
  obtain ⟨i, -, rfl⟩ := Result.map_eq_ok_iff.mp he
  rfl

theorem guess?_of_empty (htext : p.text = some "") (he : recognize n (.node p ts) = .ok e) :
    guess? e = none := by
  obtain ⟨role, i, hrole, -, hmade⟩ := recognize_node he
  cases hmade with
  | text => exact absurd rfl ((isText_iff htext).mp (isText_of_eq_text hrole)).2
  | component | icon | image | button | group => rfl

/-- Texts that differ in their digits alone look like the same thing. Layers of one name with such
texts are texts of one pattern that fill one property. -/
theorem guess_of_differInDigits (h : DifferInDigits t u) :
    detect t = detect u ∧
      ∀ (n : Naming) (p q : Placed) (ts us : List (Tree Placed)), p.kind = some "TEXT" →
        q.kind = some "TEXT" → p.name = q.name → p.text = some t → q.text = some u →
        (t ≠ "" → ∃ pattern propName,
          recognize n (.node p ts) = asText n p ts t pattern propName ∧
            recognize n (.node q us) = asText n q us u pattern propName) ∧
        ∀ e f, recognize n (.node p ts) = .ok e → recognize n (.node q us) = .ok f →
          guess? e = guess? f := by
  refine ⟨h.detect_eq, fun n p q ts us hp hq hname ht hu => ?_⟩
  have htexts : t ≠ "" → ∃ pattern propName,
      recognize n (.node p ts) = asText n p ts t pattern propName ∧
        recognize n (.node q us) = asText n q us u pattern propName := by
    intro hne
    have hne' : u ≠ "" := fun hu => hne (h.eq_empty_iff.mpr hu)
    have hlabel : p.label = q.label := by rw [Traits.label, hname, Traits.label]
    refine ⟨_, _, recognize_of_text hp ht hne, ?_⟩
    rw [recognize_of_text hq hu hne', h.detect_eq, hlabel]
  refine ⟨htexts, fun e f he hf => ?_⟩
  by_cases hne : t = ""
  · rw [guess?_of_empty (hne ▸ ht) he, guess?_of_empty (h.eq_empty_iff.mp hne ▸ hu) hf]
  · obtain ⟨pattern, propName, hp, hq⟩ := htexts hne
    rw [guess?_of_asText (hp ▸ he), guess?_of_asText (hq ▸ hf)]

def amount (id text : String) : Placed :=
  { id := some id, name := some "Text 2", kind := some "TEXT", text := some text, box := {} }

theorem guess_of_differInDigits_amounts :
    DifferInDigits "−1 250" "−9 048" ∧
      (∃ pattern propName,
        recognize {} (.node (amount "2" "−1 250") []) =
          asText {} (amount "2" "−1 250") [] "−1 250" pattern propName ∧
        recognize {} (.node (amount "3" "−9 048") []) =
          asText {} (amount "3" "−9 048") [] "−9 048" pattern propName) ∧
      ∃ e f, recognize {} (.node (amount "2" "−1 250") []) = .ok e ∧
        recognize {} (.node (amount "3" "−9 048") []) = .ok f ∧
        guess? e = some (some "amount", some "amount") ∧ guess? f = guess? e := by
  have hdiffer : DifferInDigits "−1 250" "−9 048" := by
    rw [DifferInDigits]
    decide
  have hfirst : (guess? <$> recognize {} (.node (amount "2" "−1 250") [])) =
      .ok (some (some "amount", some "amount")) := by decide
  have hsecond : ((fun _ => ()) <$> recognize {} (.node (amount "3" "−9 048") [])) = .ok () := by
    decide
  obtain ⟨e, he, hguess⟩ := Result.map_eq_ok_iff.mp hfirst
  obtain ⟨f, hf, -⟩ := Result.map_eq_ok_iff.mp hsecond
  obtain ⟨-, hlayers⟩ := guess_of_differInDigits hdiffer
  obtain ⟨htexts, hsame⟩ := hlayers {} (amount "2" "−1 250") (amount "3" "−9 048") [] [] rfl rfl rfl
    rfl rfl
  exact ⟨hdiffer, htexts (by decide), e, f, he, hf, hguess, (hsame e f he hf).symm⟩

end Mockup.Content
