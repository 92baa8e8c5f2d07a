import Mockup.Proofs.Style.Assignment

namespace Mockup

def Element.bare (e : Element) : Element := e.relabel Identity.unstyled fun _ => .image {}

def Element.isButton : Element → Bool
  | .leaf _ (.button _) => true
  | _ => false

namespace Style

variable {t : Tree Placed} {r r' : Registry}

def Source.Identified : Source → Prop
  | .layer id => Given id
  | .layout _ => True

/-- The names given to an element are registered, except that a part of a button may have no id. -/
structure Resolves (r : Registry) (x : Element) : Prop where
  own : x.identity.styleRef ∈ Fields.names r.styles
  all : ∀ ref ∈ references x, (x.isButton = true → ref.source.Identified) →
    ref.name ∈ Fields.names r.styles

structure Referring (b : ButtonElement) : Prop where
  text : b.textStyleRef = none ∨ Given b.textStyleRef
  icon : b.iconStyleRef = none ∨ Given b.iconStyleRef
  iconRef : b.iconRef = b.iconStyleRef

theorem Registry.register_kept (hr : r.Sound) (preferred : String) (s : Style) :
    r.styles <+: (r.register preferred s).2.styles := by
  rcases register_cases hr preferred s with ⟨e, -, -, heq⟩ | ⟨-, name, -, heq⟩
  · rw [heq]
  · rw [heq]
    exact List.prefix_append _ _

theorem Registry.LeadsTo.kept (h : r.LeadsTo r') (hr : r.Sound) : r.styles <+: r'.styles := by
  obtain ⟨calls, rfl⟩ := h
  induction calls generalizing r with
  | nil => exact List.prefix_rfl
  | cons call calls ih =>
      exact (register_kept hr call.1 call.2).trans (ih (hr.register call.1 call.2))

theorem Registry.LeadsTo.names_subset (h : r.LeadsTo r') (hr : r.Sound) :
    Fields.names r.styles ⊆ Fields.names r'.styles :=
  ((h.kept hr).map Prod.fst).subset

theorem Registry.mem_names_register (hr : r.Sound) (preferred : String) (s : Style) :
    (r.register preferred s).1 ∈ Fields.names (r.register preferred s).2.styles := by
  rcases register_cases hr preferred s with ⟨e, he, -, heq⟩ | ⟨-, name, -, heq⟩
  · rw [heq]
    exact List.mem_map_of_mem he
  · rw [heq, add, Fields.names, List.map_append]
    exact List.mem_append_right _ (List.mem_singleton_self _)

theorem Resolves.mono {x : Element} (h : Resolves r x)
    (hsub : Fields.names r.styles ⊆ Fields.names r'.styles) : Resolves r' x where
  own := hsub h.own
  all := fun ref href hid => hsub (h.all ref href hid)

theorem source_of_mem_partReferences {ref : Option String} {id : LayerId} {x : Reference}
    (hx : x ∈ partReferences ref id) : x.source = .layer id := by
  cases ref with
  | none => cases hx
  | some name => rw [List.mem_singleton.mp hx]

theorem assignPart_resolves (hr : r.Sound) {ref ref' : Option String} {id : LayerId}
    (href : ref = none ∨ Given ref) (h : assignPart t r ref id = .ok (ref', r')) :
    ∀ x ∈ partReferences ref' id, x.source.Identified → x.name ∈ Fields.names r'.styles := by
  intro x hx hid
  rcases href with rfl | ⟨name, rfl, hname⟩
  · cases h
    cases hx
  · rw [source_of_mem_partReferences hx] at hid
    obtain ⟨a, rfl, ha⟩ := hid
    rw [assignPart, if_neg (by simp [hname, ha])] at h
    obtain ⟨s, -, h⟩ := Result.bind_eq_ok_iff.mp h
    cases h
    rw [List.mem_singleton.mp hx]
    exact Registry.mem_names_register hr name s

theorem assignButton_resolves (hr : r.Sound) {b b' : ButtonElement} (hb : Referring b)
    (h : assignButton t r b = .ok (b', r')) (i : Identity) :
    ∀ ref ∈ sideReferences i (.button b'), ref.source.Identified →
      ref.name ∈ Fields.names r'.styles := by
  obtain ⟨⟨textRef, r₁⟩, htext, h⟩ := Result.bind_eq_ok_iff.mp h
  obtain ⟨⟨iconRef, r₂⟩, hicon, h⟩ := Result.bind_eq_ok_iff.mp h
  cases h
  have hr₁ : r₁.Sound := (assignPart_leadsTo htext).sound hr
  have hkept := (assignPart_leadsTo hicon).names_subset hr₁
  have hiconRef := assignPart_resolves hr₁ hb.icon hicon
  intro ref href hid
  rcases List.mem_append.mp href with href | href
  · rcases List.mem_append.mp href with href | href
    · exact hkept (assignPart_resolves hr hb.text htext ref href hid)
    · exact hiconRef ref href hid
  · -- the second reference to the icon is replaced just when the first one is
    refine hiconRef ref ?_ hid
    rcases hb.icon with hnone | hgiven
    · rw [hnone] at hicon
      cases hicon
      simpa [hnone, hb.iconRef, isGiven] using href
    · cases hid' : isGiven b.iconId with
      | true => simpa [isGiven_of_given hgiven, hid'] using href
      | false =>
          rw [source_of_mem_partReferences href] at hid
          rw [isGiven_of_given hid] at hid'
          cases hid'

theorem assign_leaf_resolves (hr : r.Sound) {i : Identity} {c : Leaf} {e' : Element}
    (hc : ∀ b, c = .button b → Referring b) (h : assign t r (.leaf i c) = .ok (e', r')) :
    Resolves r' e' := by
  obtain ⟨s, c', -, hc', rfl⟩ := assign_leaf_eq_ok h
  have hown := Registry.mem_names_register hr i.styleRef s
  have hr₁ := hr.register i.styleRef s
  generalize r.register i.styleRef s = registered at hc' hown hr₁
  obtain ⟨name, r₁⟩ := registered
  have hkept := (assignLeaf_leadsTo hc').names_subset hr₁
  refine ⟨hkept hown, fun ref href hid => ?_⟩
  rcases List.mem_cons.mp href with rfl | href
  · exact hkept hown
  · cases c with
    | text c | image c =>
        cases hc'
        cases href
    | icon c =>
        cases hc'
        rw [List.mem_singleton.mp href]
        exact hown
    | button b =>
        obtain ⟨⟨b', r₂⟩, hb, hc'⟩ := Result.bind_eq_ok_iff.mp hc'
        cases hc'
        exact assignButton_resolves hr₁ (hc b rfl) hb _ ref href (hid rfl)

theorem assignAll_resolves {es : List Element}
    (ih : ∀ e ∈ es, ∀ {r r' e'}, r.Sound → assign t r e = .ok (e', r') →
      ∀ x ∈ e'.nodes, Resolves r' x)
    {es' : List Element} (hr : r.Sound) (h : assignAll t r es = .ok (es', r')) :
    ∀ x ∈ es'.flatMap Element.nodes, Resolves r' x := by
  induction es generalizing r es' with
  | nil =>
      cases h
      exact fun x hx => absurd hx List.not_mem_nil
  | cons e es ihl =>
      obtain ⟨e', es'', r₁, he, hes, rfl⟩ := assignAll_cons_eq_ok h
      have hr₁ := (assign_leadsTo he).sound hr
      have hkept := (assignAll_leadsTo hes).names_subset hr₁
      intro x hx
      rw [List.flatMap_cons] at hx
      rcases List.mem_append.mp hx with hx | hx
      · exact (ih e List.mem_cons_self hr he x hx).mono hkept
      · exact ihl (fun e he => ih e (List.mem_cons_of_mem _ he)) hr₁ hes x hx

/-- Whatever is assigned to an element whose buttons refer to something is registered in the end. -/
theorem assign_resolves {e : Element}
    (hb : ∀ i b, .leaf i (.button b) ∈ e.nodes → Referring b) :
    ∀ {r r' e'}, r.Sound → assign t r e = .ok (e', r') → ∀ x ∈ e'.nodes, Resolves r' x := by
  -- on the element; what one child is given is still registered when the next ones have been
  -- passed, since names are never taken out
  induction e with
  | leaf i c =>
      intro r r' e' hr h x hx
      have hres := assign_leaf_resolves hr
        (fun b hc => hb i b (hc ▸ Element.mem_nodes_self _)) h
      obtain ⟨s, c', -, -, rfl⟩ := assign_leaf_eq_ok h
      rw [List.mem_singleton.mp hx]
      exact hres
  | foreign i v =>
      intro r r' e' hr h
      rw [assign] at h
      cases h
  | branch i b l es ih =>
      intro r r' e' hr h x hx
      obtain ⟨s, es', -, hes, rfl⟩ := assign_branch_eq_ok h
      have hr₁ := hr.register i.styleRef s
      have hown := Registry.mem_names_register hr i.styleRef s
      have hkept := (assignAll_leadsTo hes).names_subset hr₁
      rw [Element.nodes_branch] at hx
      rcases List.mem_cons.mp hx with rfl | hx
      · refine ⟨hkept hown, fun ref href _ => ?_⟩
        rw [references_branch, List.mem_singleton] at href
        rw [href]
        exact hkept hown
      · exact assignAll_resolves (fun e he => ih e he fun i b hmem =>
          hb i b (Element.nodes_subset_of_child he hmem)) hr₁ hes x hx

theorem map_bare_assignAll {es : List Element}
    (ih : ∀ e ∈ es, ∀ {r r' e'}, assign t r e = .ok (e', r') → e'.bare = e.bare)
    {es' : List Element} (h : assignAll t r es = .ok (es', r')) :
    es'.map Element.bare = es.map Element.bare := by
  induction es generalizing r es' with
  | nil =>
      cases h
      rfl
  | cons e es ihl =>
      obtain ⟨e', es'', r₁, he, hes, rfl⟩ := assignAll_cons_eq_ok h
      rw [List.map_cons, List.map_cons, ih e List.mem_cons_self he,
        ihl (fun e he => ih e (List.mem_cons_of_mem _ he)) hes]

/-- Styles are assigned to elements as they are. -/
theorem bare_assign {e : Element} :
    ∀ {r r' e'}, assign t r e = .ok (e', r') → e'.bare = e.bare := by
  induction e with
  | leaf i c =>
      intro r r' e' h
      obtain ⟨s, c', -, -, rfl⟩ := assign_leaf_eq_ok h
      rfl
  | foreign i v =>
      intro r r' e' h
      rw [assign] at h
      cases h
  | branch i b l es ih =>
      intro r r' e' h
      obtain ⟨s, es', -, hes, rfl⟩ := assign_branch_eq_ok h
      rw [Element.bare, Element.bare, Element.relabel_branch, Element.relabel_branch]
      exact congrArg (Element.branch i.unstyled b l) (map_bare_assignAll ih hes)

theorem closed_of_assign {e e' : Element} (he : ∀ x ∈ e.nodes, x.isForeign = false)
    (ha : assign t r e = .ok (e', r')) : ∀ x ∈ e'.nodes, x.isForeign = false := by
  intro x' hx'
  obtain ⟨x, hx, hxx⟩ := Element.exists_mem_nodes_of_relabel_eq (bare_assign ha) hx'
  exact (Element.isForeign_of_relabel_eq hxx).trans (he x hx)

/-- The walk through a recognized tree passes all its elements once they have their styles. -/
theorem preorder_of_assign {n : Naming} {e e' : Element} (he : Recognition.recognize n t = .ok e)
    (ha : assign t r e = .ok (e', r')) : e'.preorder = .ok e'.nodes :=
  Element.preorder_eq_ok (closed_of_assign (Recognition.recognize_closed he) ha)

theorem referring_of_recognize {n : Naming} {e : Element} (h : Recognition.recognize n t = .ok e)
    {i : Identity} {b : ButtonElement} (hb : .leaf i (.button b) ∈ e.nodes) : Referring b := by
  obtain ⟨p, ts, -, -, hb⟩ := Recognition.exists_layer_of_button h hb
  obtain ⟨icon, -, hiconRef, htextRef, hstyleRef, -, -⟩ := hb.parts
  have hnamed {u : Option (Tree Placed)} {ref : Option String}
      (h : u.mapM (Recognition.styleRefOfTree n) = .ok ref) : ref = none ∨ Given ref := by
    cases u with
    | none => exact .inl (Except.ok.inj h).symm
    | some u => exact .inr (given_styleRefOfTree h)
  exact ⟨hnamed htextRef, hstyleRef ▸ hnamed hiconRef, hstyleRef.symm⟩

end Style

end Mockup
