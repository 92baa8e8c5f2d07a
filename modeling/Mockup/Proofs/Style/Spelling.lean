import Mockup.Proofs.Naming.Identifier
import Mockup.Proofs.Style.Resolution

namespace Mockup

namespace Style

structure Registry.Spelled (r : Registry) : Prop where
  sound : r.Sound
  names : ∀ name ∈ Fields.names r.styles, isReference name = true

def Spelled (x : Element) : Prop := ∀ ref ∈ references x, isReference ref.name = true

variable {t : Tree Placed} {r r' : Registry}

theorem Registry.spelled_empty : Spelled {} where
  sound := sound_empty
  names := fun _ hname => absurd hname List.not_mem_nil

theorem isReference_suffixed {name : String} (h : isReference name = true) (k : Nat) :
    isReference (Registry.suffixed name k) = true := by
  refine isSpelledWith.append (isSpelledWith.append_word h (by decide)) ?_
  rw [String.toList_ofList]
  intro c hc
  rw [isReferencePart, Char.isAlphanum, Number.isDigit_numeral k c hc, Bool.or_true, Bool.true_or]

theorem Registry.Spelled.register (hr : r.Spelled) {preferred : String}
    (hname : isReference preferred = true) (s : Style) :
    isReference (r.register preferred s).1 = true ∧ (r.register preferred s).2.Spelled := by
  rcases register_cases hr.sound preferred s with ⟨e, he, -, heq⟩ | ⟨-, name, hfree, heq⟩
  · rw [heq]
    exact ⟨hr.names _ (List.mem_map_of_mem he), hr⟩
  · have hspelled : isReference name = true := by
      rcases hfree with ⟨-, rfl⟩ | ⟨-, k, -, rfl, -⟩
      · exact hname
      · exact isReference_suffixed hname k
    have hsound := hr.sound.register preferred s
    rw [heq] at hsound ⊢
    refine ⟨hspelled, hsound, fun added hadded => ?_⟩
    rw [add, Fields.names, List.map_append] at hadded
    rcases List.mem_append.mp hadded with hadded | hadded
    · exact hr.names added hadded
    · rwa [List.mem_singleton.mp hadded]

theorem spelled_button_iff {i : Identity} {b : ButtonElement} : Spelled (.leaf i (.button b)) ↔
    isReference i.styleRef = true ∧ (∀ name ∈ b.textStyleRef, isReference name = true) ∧
      (∀ name ∈ b.iconStyleRef, isReference name = true) ∧
      ∀ name ∈ b.iconRef, isReference name = true := by
  simp [Spelled, references, sideReferences, partReferences, or_imp, forall_and]

theorem spelled_branch_iff {i : Identity} {b : Branch} {l : Layout} {es : List Element} :
    Spelled (.branch i b l es) ↔ isReference i.styleRef = true := by
  rw [Spelled, references_branch, List.forall_mem_singleton]

theorem assignPart_spelled (hr : r.Spelled) {ref ref' : Option String} {id : LayerId}
    (href : ∀ name ∈ ref, isReference name = true) (h : assignPart t r ref id = .ok (ref', r')) :
    (∀ name ∈ ref', isReference name = true) ∧ r'.Spelled := by
  rw [assignPart.eq_def] at h
  split at h
  · next name id' =>
      split at h
      · cases h
        exact ⟨href, hr⟩
      · obtain ⟨s, -, h⟩ := Result.bind_eq_ok_iff.mp h
        cases h
        obtain ⟨hname, hr'⟩ := hr.register (href name rfl) s
        exact ⟨fun given hgiven => Option.some.inj hgiven ▸ hname, hr'⟩
  · cases h
    exact ⟨href, hr⟩

theorem assignLeaf_spelled (hr : r.Spelled) {i : Identity} {c c' : Leaf} {styleRef : String}
    (hx : Spelled (.leaf i c)) (hname : isReference styleRef = true)
    (h : assignLeaf t r styleRef c = .ok (c', r')) :
    Spelled (.leaf { i with styleRef } c') ∧ r'.Spelled := by
  cases c with
  | text c | image c =>
      cases h
      exact ⟨List.forall_mem_singleton.mpr hname, hr⟩
  | icon c =>
      cases h
      exact ⟨List.forall_mem_cons.mpr ⟨hname, List.forall_mem_singleton.mpr hname⟩, hr⟩
  | button b =>
      obtain ⟨⟨b', r₁⟩, hb, h⟩ := Result.bind_eq_ok_iff.mp h
      cases h
      obtain ⟨⟨textRef, r₂⟩, htext, hb⟩ := Result.bind_eq_ok_iff.mp hb
      obtain ⟨⟨iconRef, r₃⟩, hicon, hb⟩ := Result.bind_eq_ok_iff.mp hb
      cases hb
      obtain ⟨-, htextRef, hiconStyleRef, hiconRef⟩ := spelled_button_iff.mp hx
      obtain ⟨htextRef, hr₂⟩ := assignPart_spelled hr htextRef htext
      obtain ⟨hiconStyleRef, hr₃⟩ := assignPart_spelled hr₂ hiconStyleRef hicon
      refine ⟨spelled_button_iff.mpr ⟨hname, htextRef, hiconStyleRef, ?_⟩, hr₃⟩
      simp only
      split
      · exact hiconStyleRef
      · exact hiconRef

theorem assignAll_spelled {es : List Element}
    (ih : ∀ e ∈ es, (∀ x ∈ e.nodes, Spelled x) → ∀ {r r' e'}, r.Spelled →
      assign t r e = .ok (e', r') → (∀ x ∈ e'.nodes, Spelled x) ∧ r'.Spelled)
    (hes : ∀ e ∈ es, ∀ x ∈ e.nodes, Spelled x) {es' : List Element} (hr : r.Spelled)
    (h : assignAll t r es = .ok (es', r')) :
    (∀ x ∈ es'.flatMap Element.nodes, Spelled x) ∧ r'.Spelled := by
  induction es generalizing r es' with
  | nil =>
      cases h
      exact ⟨fun x hx => absurd hx List.not_mem_nil, hr⟩
  | cons e es ihl =>
      obtain ⟨e', es'', r₁, he, hrest, rfl⟩ := assignAll_cons_eq_ok h
      obtain ⟨hhead, htail⟩ := List.forall_mem_cons.mp hes
      obtain ⟨ihhead, ihtail⟩ := List.forall_mem_cons.mp ih
      obtain ⟨he', hr₁⟩ := ihhead hhead hr he
      obtain ⟨hes'', hr'⟩ := ihl ihtail htail hr₁ hrest
      rw [List.flatMap_cons]
      exact ⟨List.forall_mem_append.mpr ⟨he', hes''⟩, hr'⟩

/-- What elements ask for may be taken or be given a number, but stays a reference. -/
theorem assign_spelled {e : Element} : (∀ x ∈ e.nodes, Spelled x) → ∀ {r r' e'}, r.Spelled →
    assign t r e = .ok (e', r') → (∀ x ∈ e'.nodes, Spelled x) ∧ r'.Spelled := by
  induction e with
  | leaf i c =>
      intro hx r r' e' hr h
      have hx := hx _ (Element.mem_nodes_self _)
      obtain ⟨s, c', -, hc, rfl⟩ := assign_leaf_eq_ok h
      obtain ⟨hname, hr₁⟩ := hr.register (hx _ List.mem_cons_self) s
      obtain ⟨hx', hr'⟩ := assignLeaf_spelled hr₁ hx hname hc
      exact ⟨List.forall_mem_singleton.mpr hx', hr'⟩
  | foreign i v =>
      intro hx r r' e' hr h
      rw [assign] at h
      cases h
  | branch i b l es ih =>
      intro hx r r' e' hr h
      have hself := spelled_branch_iff.mp (hx _ (Element.mem_nodes_self _))
      obtain ⟨s, es', -, hes, rfl⟩ := assign_branch_eq_ok h
      obtain ⟨hname, hr₁⟩ := hr.register hself s
      obtain ⟨hes', hr'⟩ := assignAll_spelled ih
        (fun e he x hmem => hx x (Element.nodes_subset_of_child he hmem)) hr₁ hes
      rw [Element.nodes_branch]
      exact ⟨List.forall_mem_cons.mpr ⟨spelled_branch_iff.mpr hname, hes'⟩, hr'⟩

theorem references_unlinked (e : Element) : references e.unlinked = references e := by
  cases e with
  | leaf i c => cases c <;> rfl
  | branch i b l es =>
      rw [Element.unlinked, Element.relabel_branch, references_branch, references_branch]
  | foreign i v => rfl

theorem references_of_unlinked_eq {e e' : Element} (h : e'.unlinked = e.unlinked) :
    references e' = references e := by
  rw [← references_unlinked, h, references_unlinked]

end Style

namespace Recognition

open Style

variable {n : Naming} {p : Placed} {ts : List (Tree Placed)} {i : Identity}

theorem isReference_styleRef_of_identityOf (hn : n.IsPlain) (h : identityOf n p ts = .ok i) :
    isReference i.styleRef = true := by
  obtain ⟨ref, href, h⟩ := Result.bind_eq_ok_iff.mp h
  cases h
  exact Naming.isReference_styleRef hn href

theorem isReference_of_mapM (hn : n.IsPlain) {u : Option (Tree Placed)} {ref : Option String}
    (h : u.mapM (styleRefOfTree n) = .ok ref) : ∀ name ∈ ref, isReference name = true := by
  rcases Result.mapM_option_eq_ok_iff.mp h with ⟨-, rfl⟩ | ⟨v, name, -, rfl, hname⟩
  · exact fun name hname => nomatch hname
  · cases v with
    | node p ts =>
        intro given hgiven
        rw [← Option.some.inj hgiven]
        exact Naming.isReference_styleRef hn hname

theorem spelled_of_made (hn : n.IsPlain) {role : Role} {c : Leaf}
    (hi : isReference i.styleRef = true) (h : Made n p ts i role (.leaf i c)) :
    Spelled (.leaf i c) := by
  cases h with
  | text | image => exact List.forall_mem_singleton.mpr hi
  | icon hsize => exact List.forall_mem_cons.mpr ⟨hi, List.forall_mem_singleton.mpr hi⟩
  | button hb =>
      obtain ⟨icon, -, hiconRef, htextRef, hstyleRef, -, -⟩ := hb.parts
      have hicon := isReference_of_mapM hn hiconRef
      exact spelled_button_iff.mpr ⟨hi, isReference_of_mapM hn htextRef, hstyleRef ▸ hicon, hicon⟩

/-- Whatever the layers are called, elements ask for names that are spelled as references. -/
theorem recognize_spelled (hn : n.IsPlain) {t : Tree Placed} {e : Element}
    (h : recognize n t = .ok e) : ∀ x ∈ e.nodes, Spelled x := by
  have hbranch {p : Placed} {ts : List (Tree Placed)} {i : Identity} {r : Branch} {l : Layout}
      {es : List Element} (hi : identityOf n p ts = .ok i) : Spelled (.branch i r l es) :=
    spelled_branch_iff.mpr (isReference_styleRef_of_identityOf hn hi)
  refine forall_nodes_of_recognize (P := fun _ x => Spelled x) ?_ ?_ ?_ ?_ ?_ ?_ h
  · exact fun p ts role i c _ hi hmade =>
      spelled_of_made hn (isReference_styleRef_of_identityOf hn hi) hmade
  · exact fun p ts i c es hi _ => hbranch hi
  · exact fun p ts role r i es _ hi _ _ => hbranch hi
  · exact fun t p item items _ _ _ =>
      spelled_branch_iff.mpr (Naming.isReference_repeaterNames hn (baseName p))
  · exact fun t u x _ h => h
  · intro t x x' hxx h
    rwa [Spelled, references_of_unlinked_eq hxx]

end Recognition

end Mockup
