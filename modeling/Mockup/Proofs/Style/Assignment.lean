import Mockup.Proofs.Element.Coverage
import Mockup.Proofs.Style.References
import Mockup.Proofs.Style.Totality
import Mockup.Proofs.Value.Canonical

namespace Mockup.Style

open Result

variable {t : Tree Placed} {met : List Style} {r r' : Registry}

def Given (s : Option String) : Prop := ∃ a, s = some a ∧ a ≠ ""

structure Prepared (b : ButtonElement) : Prop where
  text : Given b.textStyleRef ∧ Given b.textId
  icon : (b.iconStyleRef = none ∧ b.iconId = none) ∨ Given b.iconStyleRef ∧ Given b.iconId
  iconRef : b.iconRef = b.iconStyleRef

/-- The second references of icons and buttons agree with the first, and a part of a button has a
reference if it has an id. -/
def Settled : Element → Prop
  | .leaf i (.icon c) => c.reference = i.styleRef
  | .leaf _ (.button b) => b.textStyleRef.isSome = true ∧ b.textId.isSome = true ∧
      b.iconRef = b.iconStyleRef ∧ b.iconStyleRef.isSome = b.iconId.isSome
  | _ => True

structure Assignable (t : Tree Placed) (met : List Style) (e : Element) : Prop where
  buttons : ∀ i b, .leaf i (.button b) ∈ e.nodes → Prepared b
  met : ∀ ref ∈ e.nodes.flatMap references, ∀ s, ref.source.style t = .ok s → s ∈ met

structure Assigned (t : Tree Placed) (met : List Style) (r r' : Registry) (es es' : List Element) :
    Prop where
  assigns : Assigns t met r r' ((es'.flatMap Element.nodes).flatMap references)
  unstyled : es'.map Element.unstyled = es.map Element.unstyled
  settled : ∀ x ∈ es'.flatMap Element.nodes, Settled x

theorem Assignable.child {i : Identity} {b : Branch} {l : Layout} {es : List Element}
    (h : Assignable t met (.branch i b l es)) {e : Element} (he : e ∈ es) :
    Assignable t met e := by
  have hsub : e.nodes ⊆ (Element.branch i b l es).nodes := Element.nodes_subset_of_child he
  refine ⟨fun i b hb => h.buttons i b (hsub hb), fun ref href => h.met ref ?_⟩
  obtain ⟨x, hx, href⟩ := List.mem_flatMap.mp href
  exact List.mem_flatMap.mpr ⟨x, hsub hx, href⟩

theorem Assignable.met_self {e : Element} (h : Assignable t met e) {ref : Reference}
    (href : ref ∈ references e) {s : Style} (hs : ref.source.style t = .ok s) : s ∈ met :=
  h.met ref (List.mem_flatMap.mpr ⟨e, e.mem_nodes_self, href⟩) s hs

theorem assignPart_of_given (hfree : CollisionFree met) (hr : r.Sound)
    (hstored : r.styles.map Prod.snd ⊆ met) {ref ref' : Option String} {id : LayerId}
    (href : Given ref) (hid : Given id) (hmet : ∀ s, ofId t id = .ok s → s ∈ met)
    (h : assignPart t r ref id = .ok (ref', r')) :
    ∃ name, ref' = some name ∧ Assigns t met r r' [⟨name, .layer id⟩] := by
  obtain ⟨a, rfl, ha⟩ := href
  obtain ⟨b, rfl, hb⟩ := hid
  have hgiven : (a.isEmpty || b.isEmpty) = false := by simp [ha, hb]
  rw [assignPart, hgiven, if_neg Bool.false_ne_true] at h
  obtain ⟨s, hs, h⟩ := Result.bind_eq_ok_iff.mp h
  cases h
  exact ⟨_, rfl, Assigns.register hfree hr hstored (.layer (some b)) hs (hmet s hs) a⟩

theorem isGiven_of_given {s : Option String} (h : Given s) : isGiven s = true := by
  obtain ⟨a, rfl, ha⟩ := h
  simp [isGiven, ha]

theorem mem_partReferences {ref : Option String} (id : LayerId) (h : Given ref) :
    ∃ a, ref = some a ∧ ⟨a, .layer id⟩ ∈ partReferences ref id := by
  obtain ⟨a, rfl, -⟩ := h
  exact ⟨a, rfl, List.mem_singleton_self _⟩

theorem assignButton_spec (hfree : CollisionFree met) (hr : r.Sound)
    (hstored : r.styles.map Prod.snd ⊆ met) {i : Identity} {b b' : ButtonElement}
    (hb : Prepared b) (hmet : ∀ ref ∈ sideReferences i (.button b), ∀ s,
      ref.source.style t = .ok s → s ∈ met) (h : assignButton t r b = .ok (b', r')) :
    Assigns t met r r' (sideReferences i (.button b')) ∧
      (Leaf.button b').unstyled = (Leaf.button b).unstyled ∧ Settled (.leaf i (.button b')) := by
  obtain ⟨⟨htextRef, htextId⟩, hicons, hiconRef⟩ := hb
  obtain ⟨⟨textRef, r₁⟩, htext, h⟩ := Result.bind_eq_ok_iff.mp h
  obtain ⟨⟨iconRef, r₂⟩, hicon, h⟩ := Result.bind_eq_ok_iff.mp h
  obtain ⟨a, ha, hmem⟩ := mem_partReferences b.textId htextRef
  obtain ⟨text, rfl, hassigns⟩ := assignPart_of_given hfree hr hstored htextRef htextId
    (fun s hs => hmet _ (List.mem_append_left _ (List.mem_append_left _ hmem)) s hs) htext
  obtain ⟨textId, hid, -⟩ := htextId
  cases h
  rcases hicons with ⟨hnone, hnoId⟩ | ⟨href, hgiven⟩
  · rw [hnone] at hicon hiconRef
    obtain ⟨rfl, rfl⟩ := Prod.mk.inj (Except.ok.inj hicon)
    refine ⟨?_, ?_, ?_⟩
    · simpa [sideReferences, partReferences, hnone, hiconRef, isGiven] using hassigns
    · simp [Leaf.unstyled, ha, hnone, hiconRef, isGiven]
    · simp [Settled, hid, hnone, hiconRef, hnoId, isGiven]
  · obtain ⟨c, hc, hmem⟩ := mem_partReferences b.iconId href
    obtain ⟨icon, rfl, hassigns'⟩ := assignPart_of_given hfree hassigns.sound hassigns.stored href
      hgiven (fun s hs => hmet _ (List.mem_append_left _ (List.mem_append_right _ hmem)) s hs) hicon
    have hcond : (isGiven b.iconStyleRef && isGiven b.iconId) = true := by
      rw [isGiven_of_given href, isGiven_of_given hgiven, Bool.and_self]
    obtain ⟨iconId, hiconId, -⟩ := hgiven
    rw [if_pos hcond]
    refine ⟨?_, ?_, ?_⟩
    · refine (hassigns.trans hassigns').of_mem_iff fun ref => ?_
      simp [sideReferences, partReferences]
    · simp [Leaf.unstyled, ha, hc, hiconRef]
    · simp [Settled, hid, hiconId]

theorem assigned_singleton {e e' : Element}
    (hassigns : Assigns t met r r' (e'.nodes.flatMap references))
    (hunstyled : e'.unstyled = e.unstyled) (hsettled : ∀ x ∈ e'.nodes, Settled x) :
    Assigned t met r r' [e] [e'] := by
  refine ⟨?_, congrArg (fun e => [e]) hunstyled, ?_⟩
  · rw [List.flatMap_singleton]
    exact hassigns
  · rw [List.flatMap_singleton]
    exact hsettled

theorem assign_leaf (hfree : CollisionFree met) (hr : r.Sound)
    (hstored : r.styles.map Prod.snd ⊆ met) {i : Identity} {c : Leaf} {e' : Element}
    (he : Assignable t met (.leaf i c)) (h : assign t r (.leaf i c) = .ok (e', r')) :
    Assigned t met r r' [.leaf i c] [e'] := by
  obtain ⟨s, c', hs, hc, rfl⟩ := assign_leaf_eq_ok h
  have hmet : s ∈ met := he.met_self List.mem_cons_self hs
  have hown := Assigns.register hfree hr hstored (.layer i.id) hs hmet i.styleRef
  generalize r.register i.styleRef s = registered at hc hown
  obtain ⟨name, r₁⟩ := registered
  cases c with
  | text c =>
      cases hc
      refine assigned_singleton hown rfl fun x hx => ?_
      rw [List.mem_singleton.mp hx]
      trivial
  | image c =>
      cases hc
      refine assigned_singleton hown rfl fun x hx => ?_
      rw [List.mem_singleton.mp hx]
      trivial
  | icon c =>
      cases hc
      refine assigned_singleton (hown.of_mem_iff fun ref => ?_) rfl fun x hx => ?_
      · simp [Element.nodes_leaf, references, sideReferences]
      · rw [List.mem_singleton.mp hx]
        rfl
  | button b =>
      obtain ⟨⟨b', r₂⟩, hb, hc⟩ := Result.bind_eq_ok_iff.mp hc
      cases hc
      obtain ⟨hside, hunstyled, hsettled⟩ := assignButton_spec (i := i) hfree hown.sound
        hown.stored (he.buttons i b List.mem_cons_self)
        (fun ref href s => he.met_self (List.mem_cons_of_mem _ href)) hb
      refine assigned_singleton ?_ (congrArg (Element.leaf i.unstyled) hunstyled) fun x hx => ?_
      · rw [Element.nodes_leaf, List.flatMap_singleton]
        exact hown.trans hside
      · rw [List.mem_singleton.mp hx]
        exact hsettled

theorem Assigned.append {es es' fs fs' : List Element} {r₁ : Registry}
    (h : Assigned t met r r₁ es es') (h' : Assigned t met r₁ r' fs fs') :
    Assigned t met r r' (es ++ fs) (es' ++ fs') where
  assigns := by
    rw [List.flatMap_append, List.flatMap_append]
    exact h.assigns.trans h'.assigns
  unstyled := by rw [List.map_append, List.map_append, h.unstyled, h'.unstyled]
  settled := by
    intro x hx
    rw [List.flatMap_append] at hx
    rcases List.mem_append.mp hx with hx | hx
    · exact h.settled x hx
    · exact h'.settled x hx

theorem assignAll_spec {es : List Element}
    (ih : ∀ e ∈ es, ∀ {r r' e'}, r.Sound → r.styles.map Prod.snd ⊆ met →
      assign t r e = .ok (e', r') → Assigned t met r r' [e] [e'])
    {es' : List Element} (hr : r.Sound) (hstored : r.styles.map Prod.snd ⊆ met)
    (h : assignAll t r es = .ok (es', r')) : Assigned t met r r' es es' := by
  induction es generalizing r es' with
  | nil =>
      cases h
      exact ⟨.refl hr hstored, rfl, fun x hx => absurd hx List.not_mem_nil⟩
  | cons e es ihl =>
      obtain ⟨e', es'', r₁, he, hes, rfl⟩ := assignAll_cons_eq_ok h
      have hfirst := ih e List.mem_cons_self hr hstored he
      have hrest := ihl (fun e he => ih e (List.mem_cons_of_mem _ he)) hfirst.assigns.sound
        hfirst.assigns.stored hes
      exact hfirst.append hrest

theorem Assigned.branch {i : Identity} {b : Branch} {l : Layout} {es es' : List Element}
    {name : String} {r₁ : Registry} (hown : Assigns t met r r₁ [⟨name, branchSource i b l⟩])
    (hes : Assigned t met r₁ r' es es') :
    Assigned t met r r' [.branch i b l es] [.branch { i with styleRef := name } b l es'] := by
  refine assigned_singleton ?_ ?_ ?_
  · rw [Element.nodes_branch, List.flatMap_cons, references_branch]
    exact hown.trans hes.assigns
  · rw [Element.unstyled, Element.unstyled, Element.relabel_branch, Element.relabel_branch]
    exact congrArg (Element.branch i.unstyled b l) hes.unstyled
  · intro x hx
    rw [Element.nodes_branch] at hx
    rcases List.mem_cons.mp hx with rfl | hx
    · trivial
    · exact hes.settled x hx

/-- The invariant of the whole walk: from a sound registry, whose styles and those that are met do
not collide, it leads to a sound one in which every reference made on the way is good. -/
theorem assign_spec (hfree : CollisionFree met) {e : Element} (he : Assignable t met e) :
    ∀ {r r' e'}, r.Sound → r.styles.map Prod.snd ⊆ met → assign t r e = .ok (e', r') →
      Assigned t met r r' [e] [e'] := by
  -- on the element; the registries stay general, since each sibling starts from where the one
  -- before it ended
  induction e with
  | leaf i c =>
      intro r r' e' hr hstored h
      exact assign_leaf hfree hr hstored he h
  | foreign i v =>
      intro r r' e' hr hstored h
      rw [assign] at h
      cases h
  | branch i b l es ih =>
      intro r r' e' hr hstored h
      have hbelow : ∀ e ∈ es, ∀ {r r' e'}, r.Sound → r.styles.map Prod.snd ⊆ met →
          assign t r e = .ok (e', r') → Assigned t met r r' [e] [e'] :=
        fun e hmem => ih e hmem (he.child hmem)
      obtain ⟨s, es', hs, hes, rfl⟩ := assign_branch_eq_ok h
      have hmet : s ∈ met :=
        he.met_self (references_branch i b l es ▸ List.mem_singleton_self _) hs
      have hown := Assigns.register hfree hr hstored _ hs hmet i.styleRef
      exact .branch hown (assignAll_spec hbelow hown.sound hown.stored hes)

section Recognized

variable {n : Naming} {e : Element}

def Source.Known (t : Tree Placed) : Source → Prop
  | .layer id => ∃ p ∈ t.preorder, p.id = id
  | .layout _ => True

/-- The styles that a source may give: those of the layers with its id, or that of its layout. -/
def Source.Gives (t : Tree Placed) : Source → Style → Prop
  | .layer id, s => ∃ p ∈ t.preorder, p.id = id ∧ Style.of p = .ok s
  | .layout l, s => s = ofRepeater l

theorem layerWith_eq {p : Placed} (hnodup : (t.preorder.map fun p => p.id).Nodup)
    (hp : p ∈ t.preorder) : layerWith? t p.id = some p := by
  have hperm := t.postorder_perm_preorder
  obtain ⟨q, hq⟩ : ∃ q, layerWith? t p.id = some q :=
    Option.isSome_iff_exists.mp
      (List.find?_isSome.mpr ⟨p, hperm.mem_iff.mpr hp, beq_self_eq_true _⟩)
  have hid : q.id = p.id :=
    beq_iff_eq.mp (List.find?_some (p := fun q : Placed => q.id == p.id) hq)
  have hmem : q ∈ t.preorder := hperm.mem_iff.mp (List.mem_of_find?_eq_some hq)
  rw [hq, List.inj_on_of_nodup_map hnodup hmem hp hid]

/-- With distinct ids a source gives just the style that is registered for it. -/
theorem gives_iff (hnodup : (t.preorder.map fun p => p.id).Nodup) {source : Source}
    (hknown : source.Known t) {s s' : Style} (h : source.style t = .ok s) :
    source.Gives t s' ↔ s' = s := by
  cases source with
  | layout l =>
      cases h
      exact Iff.rfl
  | layer id =>
      obtain ⟨p, hp, rfl⟩ := hknown
      have hstyle : (Source.layer p.id).style t = registrable p := by
        rw [Source.style, ofId, layerWith_eq hnodup hp]
      obtain ⟨hs, -⟩ := registrable_eq_ok_iff.mp (hstyle.symm.trans h)
      constructor
      · rintro ⟨q, hq, hid, hs'⟩
        rw [List.inj_on_of_nodup_map hnodup hq hp hid, hs] at hs'
        exact (Except.ok.inj hs').symm
      · rintro rfl
        exact ⟨p, hp, rfl, hs⟩

theorem given_styleRefOfTree {u : Tree Placed} {ref : Option String}
    (h : (some u).mapM (Recognition.styleRefOfTree n) = .ok ref) : Given ref := by
  rcases Result.mapM_option_eq_ok_iff.mp h with ⟨hnone, -⟩ | ⟨v, name, -, rfl, hname⟩
  · cases hnone
  · cases v with
    | node p ts => exact ⟨name, rfl, Naming.styleRef_ne_empty hname⟩

/-- The parts of a recognized button are children of its layer, with references of their own. -/
theorem prepared_of_buttonOf {p : Placed} {ts : List (Tree Placed)} {b : ButtonElement}
    (hids : ∀ p ∈ t.preorder, Given p.id) (hmem : .node p ts ∈ t.subtrees)
    (hrole : Role.of p ts = .ok .button) (hb : Recognition.ButtonOf n p ts b) :
    Prepared b ∧ (∃ p ∈ t.preorder, p.id = b.textId) ∧
      (b.iconId = none ∨ ∃ p ∈ t.preorder, p.id = b.iconId) := by
  have hchild : ∀ u ∈ ts, u.item ∈ t.preorder := fun u hu =>
    Tree.item_mem_preorder (Tree.subtrees_subset hmem (Tree.mem_subtrees_child hu))
  obtain ⟨icon, hicon, hiconRef, htextRef, hstyleRef, hiconId, htextId⟩ := hb.parts
  obtain ⟨text, htext⟩ := Role.textChild_of_isButton (Role.isButton_of_eq_button hrole)
  have htextMem := hchild text (List.mem_of_find?_eq_some htext)
  rw [htext] at htextRef htextId
  have htextGiven : Given b.textId := htextId ▸ hids _ htextMem
  cases icon with
  | none =>
      have hnone : b.iconRef = none := by
        rcases Result.mapM_option_eq_ok_iff.mp hiconRef with ⟨-, h⟩ | ⟨u, name, hu, -⟩
        · exact h
        · cases hu
      exact ⟨⟨⟨given_styleRefOfTree htextRef, htextGiven⟩, .inl ⟨hstyleRef.trans hnone, hiconId⟩,
        hstyleRef.symm⟩, ⟨_, htextMem, htextId.symm⟩, .inl hiconId⟩
  | some u =>
      have hiconMem := hchild u (Result.mem_of_findM_eq_ok hicon)
      have hiconGiven : Given b.iconId := hiconId ▸ hids _ hiconMem
      exact ⟨⟨⟨given_styleRefOfTree htextRef, htextGiven⟩,
        .inr ⟨hstyleRef ▸ given_styleRefOfTree hiconRef, hiconGiven⟩, hstyleRef.symm⟩,
        ⟨_, htextMem, htextId.symm⟩, .inr ⟨_, hiconMem, hiconId.symm⟩⟩

theorem prepared_of_recognize (h : Recognition.recognize n t = .ok e)
    (hids : ∀ p ∈ t.preorder, Given p.id) {i : Identity} {b : ButtonElement}
    (hb : .leaf i (.button b) ∈ e.nodes) :
    Prepared b ∧ (∃ p ∈ t.preorder, p.id = b.textId) ∧
      (b.iconId = none ∨ ∃ p ∈ t.preorder, p.id = b.iconId) := by
  obtain ⟨p, ts, hmem, hrole, hb⟩ := Recognition.exists_layer_of_button h hb
  exact prepared_of_buttonOf hids hmem hrole hb

theorem known_of_mem_partReferences {ref : Option String} {id : LayerId} {x : Reference}
    (hid : ref = none ∨ ∃ p ∈ t.preorder, p.id = id) (hx : x ∈ partReferences ref id) :
    x.source.Known t := by
  cases ref with
  | none => cases hx
  | some name =>
      rw [List.mem_singleton.mp hx]
      exact hid.resolve_left (Option.some_ne_none name)

theorem known_of_recognize (h : Recognition.recognize n t = .ok e)
    (hids : ∀ p ∈ t.preorder, Given p.id) {x : Element} (hx : x ∈ e.nodes) {ref : Reference}
    (href : ref ∈ references x) : ref.source.Known t := by
  have hown (hplain : x.isRepeater = false) : ∃ p ∈ t.preorder, p.id = x.id := by
    have hmem : x.id ∈ e.ownIds :=
      List.mem_map_of_mem (List.mem_filter.mpr ⟨hx, by rw [hplain]; rfl⟩)
    have hsub := Recognition.ownIds_sublist (Recognition.recognize_covers h)
    exact List.mem_map.mp (hsub.subset hmem)
  cases x with
  | foreign i v =>
      rw [List.mem_singleton.mp href]
      exact hown rfl
  | branch i b l es =>
      cases b with
      | repeater b =>
          rw [List.mem_singleton.mp href]
          trivial
      | container | card | component =>
          rw [List.mem_singleton.mp href]
          exact hown rfl
  | leaf i c =>
      rcases List.mem_cons.mp href with rfl | href
      · exact hown rfl
      · cases c with
        | text c | image c => cases href
        | icon c =>
            rw [List.mem_singleton.mp href]
            exact hown rfl
        | button b =>
            obtain ⟨hb, htext, hicon⟩ := prepared_of_recognize h hids hx
            have hicon' : b.iconStyleRef = none ∨ ∃ p ∈ t.preorder, p.id = b.iconId := by
              rcases hb.icon with ⟨hnone, -⟩ | ⟨-, a, ha, -⟩
              · exact .inl hnone
              · refine .inr (hicon.resolve_left fun hnone => ?_)
                rw [hnone] at ha
                cases ha
            rcases List.mem_append.mp href with href | href
            · rcases List.mem_append.mp href with href | href
              · exact known_of_mem_partReferences (.inr htext) href
              · exact known_of_mem_partReferences hicon' href
            · exact known_of_mem_partReferences (hb.iconRef ▸ hicon') href

def stylesMet (t : Tree Placed) (e : Element) : List Style :=
  (e.nodes.flatMap references).filterMap fun ref => (ref.source.style t).toOption

theorem mem_stylesMet {ref : Reference} (href : ref ∈ e.nodes.flatMap references) {s : Style}
    (hs : ref.source.style t = .ok s) : s ∈ stylesMet t e :=
  List.mem_filterMap.mpr ⟨ref, href, by rw [hs]; rfl⟩

theorem known_of_unstyled_eq {e' : Element} (he : e'.unstyled = e.unstyled)
    (h : ∀ x ∈ e.nodes, ∀ ref ∈ references x, ref.source.Known t) :
    ∀ ref ∈ e'.nodes.flatMap references, ref.source.Known t := by
  intro ref href
  obtain ⟨x', hx', href⟩ := List.mem_flatMap.mp href
  obtain ⟨x, hx, hxx⟩ := Element.exists_mem_nodes_of_relabel_eq he hx'
  have hmem := List.mem_map_of_mem (f := Reference.source) href
  rw [sources_of_unstyled_eq hxx] at hmem
  obtain ⟨ref', href', hsource⟩ := List.mem_map.mp hmem
  exact hsource ▸ h x hx ref' href'

theorem closed_of_unstyled_eq {e' : Element} (he : e'.unstyled = e.unstyled)
    (h : ∀ x ∈ e.nodes, x.isForeign = false) : ∀ x ∈ e'.nodes, x.isForeign = false := by
  intro x' hx'
  obtain ⟨x, hx, hxx⟩ := Element.exists_mem_nodes_of_relabel_eq he hx'
  rw [Element.isForeign_of_relabel_eq hxx, h x hx]

theorem sources_nodes_of_unstyled_eq {e' : Element} (he : e'.unstyled = e.unstyled) :
    (e'.nodes.flatMap references).map Reference.source =
      (e.nodes.flatMap references).map Reference.source := by
  have hnodes (e : Element) : (e.nodes.flatMap references).map Reference.source =
      e.unstyled.nodes.flatMap fun x => (references x).map Reference.source := by
    rw [Element.unstyled, Element.nodes_relabel, List.map_flatMap, List.flatMap_map]
    exact congrArg (List.flatMap · e.nodes) (funext fun x => (sources_unstyled x).symm)
  rw [hnodes, he, hnodes]

theorem styles_of_bundle {b : StyleBundle} (hb : r.bundle t = .ok b) : b.styles = r.styles := by
  obtain ⟨tokens, -, h⟩ := Result.bind_eq_ok_iff.mp hb
  cases h
  rfl

theorem assigned_of_recognize {e' : Element} (hids : ∀ p ∈ t.preorder, Given p.id)
    (hr : Reached r) (he : Recognition.recognize n t = .ok e) (ha : assign t r e = .ok (e', r'))
    (hfree : CollisionFree (r.styles.map Prod.snd ++ stylesMet t e)) :
    Assigned t (r.styles.map Prod.snd ++ stylesMet t e) r r' [e] [e'] := by
  refine assign_spec hfree ⟨fun i b hmem => (prepared_of_recognize he hids hmem).1, ?_⟩ hr.sound
    (List.subset_append_left _ _) ha
  exact fun ref href s hs => List.mem_append_right _ (mem_stylesMet href hs)

/-- When the layers of a tree have distinct ids that are not empty, every reference in the
recognized tree is given the name of a style with the content of the style of its layer, or of its
layout if it is that of a repeater, whichever runs the registry has served before. References are
equal just when these contents are, and a fresh registry holds no style without a reference. -/
theorem references_of_assign {e' : Element} {b : StyleBundle} (hids : ∀ p ∈ t.preorder, Given p.id)
    (hnodup : (t.preorder.map fun p => p.id).Nodup) (hr : Reached r)
    (he : Recognition.recognize n t = .ok e) (ha : assign t r e = .ok (e', r'))
    (hb : r'.bundle t = .ok b) (hfree : CollisionFree (r.styles.map Prod.snd ++ stylesMet t e)) :
    ∃ xs, e'.preorder = .ok xs ∧ e'.unstyled = e.unstyled ∧ (∀ x ∈ xs, Settled x) ∧
      (∀ ref ∈ xs.flatMap references, ∃ s stored, ref.source.Gives t s ∧
        Fields.get? ref.name b.styles = some stored ∧ content stored = content s) ∧
      (∀ ref ∈ xs.flatMap references, ∀ ref' ∈ xs.flatMap references, ∀ s s',
        ref.source.Gives t s → ref'.source.Gives t s' →
          (ref.name = ref'.name ↔ content s = content s')) ∧
      (r = {} → ∀ name ∈ Fields.names b.styles, ∃ ref ∈ xs.flatMap references,
        ref.name = name) := by
  obtain ⟨hassigns, hunstyled, hsettled⟩ := assigned_of_recognize hids hr he ha hfree
  have hunstyled : e'.unstyled = e.unstyled := List.singleton_inj.mp hunstyled
  rw [List.flatMap_singleton] at hassigns hsettled
  have hknown := known_of_unstyled_eq hunstyled fun x hx ref => known_of_recognize he hids hx
  have hclosed := closed_of_unstyled_eq hunstyled (Recognition.recognize_closed he)
  have hnames : ∀ ref ∈ e'.nodes.flatMap references, ∀ s, ref.source.Gives t s →
      r'.Names ref.name s := by
    intro ref href s hs
    obtain ⟨s', hs', hnames⟩ := hassigns.named ref href
    rwa [(gives_iff hnodup (hknown ref href) hs').mp hs]
  rw [styles_of_bundle hb]
  refine ⟨e'.nodes, Element.preorder_eq_ok hclosed, hunstyled, hsettled, ?_, ?_, ?_⟩
  · intro ref href
    obtain ⟨s, hs, stored, hstored, hc⟩ := hassigns.named ref href
    exact ⟨s, stored, (gives_iff hnodup (hknown ref href) hs).mpr rfl, hstored, hc⟩
  · intro ref href ref' href' s s' hs hs'
    exact hassigns.sound.name_eq_iff (hnames ref href s hs) (hnames ref' href' s' hs')
  · rintro rfl name hname
    exact (hassigns.added name hname).resolve_left List.not_mem_nil

def part (id name kind : String) (width height : Int) (text : Option String := none) : Placed :=
  { id := some id, name := some name, kind := some kind, text,
    box := ⟨some (.int 0), some (.int 0), some (.int width), some (.int height)⟩ }

def extents (width height : Int) : Style := [("width", .ofInt width), ("height", .ofInt height)]

theorem of_part {id name kind : String} {width height : Int} {text : Option String}
    (hwidth : (Number.int width).roundHalfUp = .ok width)
    (hheight : (Number.int height).roundHalfUp = .ok height) :
    Style.of (part id name kind width height text) = .ok (extents width height) := by
  refine bind_eq_ok_iff.mpr ⟨[], rfl, bind_eq_ok_iff.mpr ⟨[], rfl, bind_eq_ok_iff.mpr ⟨[], rfl,
    bind_eq_ok_iff.mpr ⟨[], rfl, ?_⟩⟩⟩⟩
  refine bind_eq_ok_iff.mpr ⟨.int width, rfl, bind_eq_ok_iff.mpr ⟨width, hwidth, ?_⟩⟩
  refine bind_eq_ok_iff.mpr ⟨.int height, rfl, bind_eq_ok_iff.mpr ⟨height, hheight, ?_⟩⟩
  exact bind_eq_ok_iff.mpr ⟨[], rfl, rfl⟩

theorem content_extents (width height : Int) : content (extents width height) =
    Value.write Value.compact (.object [("height", .ofInt height), ("width", .ofInt width)]) := by
  have hsorted : [("height", Value.ofInt height), ("width", Value.ofInt width)].Pairwise
      fun a b => Value.nameOrder a b = true := by simp [Value.nameOrder]
  have hperm : ((extents width height).map Value.sortedField).Perm
      [("height", .ofInt height), ("width", .ofInt width)] := List.Perm.swap _ _ []
  have hnames : (Fields.names ((extents width height).map Value.sortedField)).Nodup := by
    simp [extents, Fields.names, Value.sortedField]
  rw [content, Value.canonicalText, Value.sortFields_object,
    (Value.mergeSort_eq_iff hnames).mpr hperm, List.mergeSort_of_pairwise hsorted]

def sizes : List (Int × Int) := [(16, 16), (24, 24)]

theorem small_mem_sizes : (16, 16) ∈ sizes := by decide

theorem large_mem_sizes : (24, 24) ∈ sizes := by decide

theorem roundHalfUp_sizes : ∀ x ∈ sizes, (Number.int x.1).roundHalfUp = .ok x.1 ∧
    (Number.int x.2).roundHalfUp = .ok x.2 := by decide +kernel

def sizedStyles : List Style := [] :: sizes.map fun x => extents x.1 x.2

theorem collisionFree_sizedStyles : CollisionFree sizedStyles := by
  have hdigests : sizedStyles.map digest = ["bf21a9e8fbc5a3846fb05b4fa0859e0917b2202f",
      "0e638ddafa5e51ebc657c1db14f0b9e6a1ba2839", "bf08e78da302af696b96cd3017baddb0a92a9813"] := by
    have hnone : content [] = "\x7b\x7d" := by cbv
    simp only [sizedStyles, sizes, List.map_cons, List.map_nil, digest_eq, content_extents, hnone]
    decide +kernel
  have hnodup : (sizedStyles.map digest).Nodup := by
    rw [hdigests]
    decide
  intro s hs s' hs' hdigest
  rw [List.inj_on_of_nodup_map hnodup hs hs' hdigest]

theorem hasRadii_sizedStyles : ∀ s ∈ sizedStyles, HasRadii s := by
  refine List.forall_mem_cons.mpr ⟨hasRadii_nil, List.forall_mem_map.mpr fun x _ => ?_⟩
  exact hasRadii_of_names (by simp [extents, Fields.names])

def IsSized (t : Tree Placed) : Prop :=
  ∀ p ∈ t.preorder, ∃ id name kind text, ∃ x ∈ sizes, p = part id name kind x.1 x.2 text

theorem IsSized.given (ht : IsSized t) (hids : ∀ p ∈ t.preorder, p.id ≠ some "") :
    ∀ p ∈ t.preorder, Given p.id := by
  intro p hp
  obtain ⟨id, name, kind, text, x, -, rfl⟩ := ht p hp
  exact ⟨id, rfl, fun h => hids _ hp (congrArg some h)⟩

theorem IsSized.isLaidOut (ht : IsSized t) : ∀ p ∈ t.preorder, p.IsLaidOut := by
  intro p hp
  obtain ⟨id, name, kind, text, x, hx, rfl⟩ := ht p hp
  have hsmall : ∀ x ∈ sizes, ∀ i ∈ [0, 0, x.1, x.2], i.natAbs ≤ 2 ^ 7 := by decide
  exact ⟨⟨Traits.bounded_of_isBare rfl, Box.bounded_of_ints (by decide) (hsmall x hx)⟩,
    by simp [part, Layout.IsSpaced, Padding.toList], by simp [part]⟩

theorem IsSized.isSpelled (ht : IsSized t) : ∀ p ∈ t.preorder, p.isSpelled = true := by
  intro p hp
  obtain ⟨id, name, kind, text, x, -, rfl⟩ := ht p hp
  rfl

theorem IsSized.ofId_mem (ht : IsSized t) (id : LayerId) (s : Style) (h : ofId t id = .ok s) :
    s ∈ sizedStyles := by
  rw [ofId] at h
  split at h
  · next p hp =>
      have hmem := t.postorder_perm_preorder.mem_iff.mp (List.mem_of_find?_eq_some hp)
      obtain ⟨id, name, kind, text, x, hx, rfl⟩ := ht p hmem
      obtain ⟨hwidth, hheight⟩ := roundHalfUp_sizes x hx
      have hs := (of_part hwidth hheight).symm.trans (registrable_eq_ok_iff.mp h).1
      rw [← Except.ok.inj hs]
      exact List.mem_cons_of_mem _ (List.mem_map.mpr ⟨x, hx, rfl⟩)
  · cases h
    exact List.mem_cons_self

def gear : Tree Placed := .node (part "1" "Gear" "VECTOR" 16 16) []

/-- Icons of two sizes, a button with a label and an icon, and two lines that are repeated. -/
def kiosk : Tree Placed :=
  .node (part "1" "Kiosk" "FRAME" 24 24)
    [.node (part "2" "Cog" "VECTOR" 16 16) [], .node (part "3" "Gear" "VECTOR" 24 24) [],
    .node (part "4" "Order button" "FRAME" 24 24)
      [.node (part "5" "Label" "TEXT" 24 24 (some "Order")) [],
        .node (part "6" "Cart" "VECTOR" 16 16) []],
    .node (part "7" "Line" "FRAME" 24 24) [], .node (part "8" "Line" "FRAME" 24 24) []]

def kioskSources : List Source :=
  [.layer (some "1"), .layer (some "2"), .layer (some "2"), .layer (some "3"), .layer (some "3"),
    .layer (some "4"), .layer (some "5"), .layer (some "6"), .layer (some "6"), .layout {},
    .layer (some "7"), .layer (some "8")]

theorem isSized_kiosk : IsSized kiosk := by
  have hpart {p : Placed} {id name kind : String} {text : Option String} {x : Int × Int}
      (hx : x ∈ sizes) (hp : p = part id name kind x.1 x.2 text) :
      ∃ id name kind text, ∃ x ∈ sizes, p = part id name kind x.1 x.2 text :=
    ⟨id, name, kind, text, x, hx, hp⟩
  have hsmall := small_mem_sizes
  have hlarge := large_mem_sizes
  simp only [IsSized, kiosk, Tree.preorder, Tree.preorderAll, List.append_nil, List.cons_append,
    List.nil_append, List.forall_mem_cons, List.not_mem_nil, false_imp_iff, implies_true, and_true]
  exact ⟨hpart hlarge rfl, hpart hsmall rfl, hpart hlarge rfl, hpart hlarge rfl, hpart hlarge rfl,
    hpart hsmall rfl, hpart hlarge rfl, hpart hlarge rfl⟩

theorem IsSized.stylesMet_subset (ht : IsSized t) {sources : List Source}
    (hsources : (e.nodes.flatMap references).map Reference.source = sources)
    (hlayout : ∀ l, Source.layout l ∈ sources → l = {}) : stylesMet t e ⊆ sizedStyles := by
  intro s hs
  obtain ⟨ref, href, hs⟩ := List.mem_filterMap.mp hs
  have hs := toOption_eq_some_iff.mp hs
  cases hsource : ref.source with
  | layer id =>
      rw [hsource] at hs
      exact ht.ofId_mem id s hs
  | layout l =>
      have hmem : Source.layout l ∈ sources := hsource ▸ hsources ▸ List.mem_map_of_mem href
      rw [hsource, hlayout l hmem] at hs
      cases hs
      exact List.mem_cons_self

theorem stored_subset_sizedStyles {e' : Element} (hids : ∀ p ∈ t.preorder, Given p.id)
    (hr : Reached r) (he : Recognition.recognize n t = .ok e) (ha : assign t r e = .ok (e', r'))
    (hbefore : r.styles.map Prod.snd ⊆ sizedStyles) (hmet : stylesMet t e ⊆ sizedStyles) :
    r'.styles.map Prod.snd ⊆ sizedStyles := by
  have hall := List.append_subset.mpr ⟨hbefore, hmet⟩
  have hassigned := assigned_of_recognize hids hr he ha (collisionFree_sizedStyles.mono hall)
  exact List.Subset.trans hassigned.1.stored hall

theorem isSized_gear : IsSized gear :=
  List.forall_mem_singleton.mpr ⟨"1", "Gear", "VECTOR", none, (16, 16), small_mem_sizes, rfl⟩

theorem run_gear : ∃ e e' r b, Recognition.recognize {} gear = .ok e ∧
    assign gear {} e = .ok (e', r) ∧ r.bundle gear = .ok b ∧
    (e.nodes.flatMap references).map Reference.source =
      [.layer (some "1"), .layer (some "1")] ∧
    Fields.names b.styles = ["gear"] := by
  have hrun : (Recognition.recognize {} gear >>= fun e => assign gear {} e >>= fun x =>
      x.2.bundle gear >>= fun b =>
        .ok ((e.nodes.flatMap references).map Reference.source, Fields.names b.styles)) =
      .ok ([.layer (some "1"), .layer (some "1")], ["gear"]) := by decide +kernel
  obtain ⟨e, he, hrun⟩ := bind_eq_ok_iff.mp hrun
  obtain ⟨⟨e', r⟩, ha, hrun⟩ := bind_eq_ok_iff.mp hrun
  obtain ⟨b, hb, hrun⟩ := bind_eq_ok_iff.mp hrun
  exact ⟨e, e', r, b, he, ha, hb, Prod.mk.inj (Except.ok.inj hrun)⟩

theorem recognize_kiosk : ∃ e, Recognition.recognize {} kiosk = .ok e ∧
    e.nodes.map Element.variant =
      ["Container", "Icon", "Icon", "Button", "Repeater", "Container", "Container"] ∧
    (e.nodes.flatMap references).map Reference.source = kioskSources := by
  have hrun : (Recognition.recognize {} kiosk >>= fun e =>
      .ok (e.nodes.map Element.variant, (e.nodes.flatMap references).map Reference.source)) =
      .ok (["Container", "Icon", "Icon", "Button", "Repeater", "Container", "Container"],
        kioskSources) := by decide +kernel
  obtain ⟨e, he, hrun⟩ := bind_eq_ok_iff.mp hrun
  exact ⟨e, he, Prod.mk.inj (Except.ok.inj hrun)⟩

theorem gives_kiosk (id name : String) {x : Int × Int} (hx : x ∈ sizes)
    (hmem : part id name "VECTOR" x.1 x.2 ∈ kiosk.preorder) :
    Source.Gives kiosk (.layer (some id)) (extents x.1 x.2) :=
  ⟨_, hmem, rfl, of_part (roundHalfUp_sizes x hx).1 (roundHalfUp_sizes x hx).2⟩

/-- After a gear has been given its style, two icons of a kiosk share a name, one of them in a button,
and one of another size has a name of its own. -/
theorem references_of_assign_kiosk : ∃ e₀ e₀' xs₀ r b₀ e e' r' b xs,
    Recognition.recognize {} gear = .ok e₀ ∧ assign gear {} e₀ = .ok (e₀', r) ∧
    r.bundle gear = .ok b₀ ∧ e₀'.preorder = .ok xs₀ ∧ Fields.names b₀.styles = ["gear"] ∧
    (∀ name ∈ Fields.names b₀.styles, ∃ ref ∈ xs₀.flatMap references, ref.name = name) ∧
    Reached r ∧ Recognition.recognize {} kiosk = .ok e ∧ e.nodes.map Element.variant =
      ["Container", "Icon", "Icon", "Button", "Repeater", "Container", "Container"] ∧
    assign kiosk r e = .ok (e', r') ∧ r'.bundle kiosk = .ok b ∧
    CollisionFree (r.styles.map Prod.snd ++ stylesMet kiosk e) ∧ e'.preorder = .ok xs ∧
    e'.unstyled = e.unstyled ∧ (∀ x ∈ xs, Settled x) ∧
    (xs.flatMap references).map Reference.source = kioskSources ∧
    (∀ ref ∈ xs.flatMap references, ∃ s stored, ref.source.Gives kiosk s ∧
      Fields.get? ref.name b.styles = some stored ∧ content stored = content s) ∧
    (∀ ref ∈ xs.flatMap references, ∀ ref' ∈ xs.flatMap references, ∀ s s',
      ref.source.Gives kiosk s → ref'.source.Gives kiosk s' →
        (ref.name = ref'.name ↔ content s = content s')) ∧
    ∀ ref ∈ xs.flatMap references, ∀ ref' ∈ xs.flatMap references,
      ref.source = .layer (some "2") →
        (ref'.source = .layer (some "6") → ref.name = ref'.name) ∧
        (ref'.source = .layer (some "3") → ref.name ≠ ref'.name) := by
  obtain ⟨e₀, e₀', r, b₀, he₀, ha₀, hb₀, hsources₀, hnames⟩ := run_gear
  obtain ⟨e, he, hvariants, hsources⟩ := recognize_kiosk
  have hids₀ := isSized_gear.given (by decide)
  have hids := isSized_kiosk.given (by decide)
  -- No style but those of the sizes is met, and what the first run leaves is among them.
  have hmet₀ : stylesMet gear e₀ ⊆ sizedStyles :=
    isSized_gear.stylesMet_subset hsources₀ (by simp)
  have hmet : stylesMet kiosk e ⊆ sizedStyles :=
    isSized_kiosk.stylesMet_subset hsources (by simp [kioskSources])
  have hstored := stored_subset_sizedStyles hids₀ .fresh he₀ ha₀ (List.nil_subset _) hmet₀
  have hfree₀ : CollisionFree ([] ++ stylesMet gear e₀) := collisionFree_sizedStyles.mono hmet₀
  have hfree : CollisionFree (r.styles.map Prod.snd ++ stylesMet kiosk e) :=
    collisionFree_sizedStyles.mono (List.append_subset.mpr ⟨hstored, hmet⟩)
  obtain ⟨⟨e', r'⟩, ha⟩ := assign_succeeds isSized_kiosk.isLaidOut isSized_kiosk.isSpelled
    (Recognition.recognize_closed he) r
  have hstored' := stored_subset_sizedStyles hids (.run .fresh ha₀ hb₀) he ha hstored hmet
  obtain ⟨b, hb⟩ := bundle_succeeds_of_hasRadii isSized_kiosk.isLaidOut fun entry hentry =>
    hasRadii_sizedStyles _ (hstored' (List.mem_map_of_mem hentry))
  obtain ⟨xs₀, hxs₀, -, -, -, -, hfresh⟩ :=
    references_of_assign hids₀ (by decide) .fresh he₀ ha₀ hb₀ hfree₀
  obtain ⟨xs, hxs, hunstyled, hsettled, hnamed, hiff, -⟩ :=
    references_of_assign hids (by decide) (.run .fresh ha₀ hb₀) he ha hb hfree
  have hnodes : xs = e'.nodes := Except.ok.inj (hxs.symm.trans
    (Element.preorder_eq_ok (closed_of_unstyled_eq hunstyled (Recognition.recognize_closed he))))
  have hxsources : (xs.flatMap references).map Reference.source = kioskSources := by
    rw [hnodes, sources_nodes_of_unstyled_eq hunstyled, hsources]
  have hcog : Source.Gives kiosk (.layer (some "2")) (extents 16 16) :=
    gives_kiosk "2" "Cog" small_mem_sizes (by simp [kiosk, Tree.preorder, Tree.preorderAll])
  have hgear : Source.Gives kiosk (.layer (some "3")) (extents 24 24) :=
    gives_kiosk "3" "Gear" large_mem_sizes (by simp [kiosk, Tree.preorder, Tree.preorderAll])
  have hcart : Source.Gives kiosk (.layer (some "6")) (extents 16 16) :=
    gives_kiosk "6" "Cart" small_mem_sizes (by simp [kiosk, Tree.preorder, Tree.preorderAll])
  refine ⟨e₀, e₀', xs₀, r, b₀, e, e', r', b, xs, he₀, ha₀, hb₀, hxs₀, hnames, hfresh rfl,
    .run .fresh ha₀ hb₀, he, hvariants, ha, hb, hfree, hxs, hunstyled, hsettled, hxsources, hnamed,
    hiff, fun ref href ref' href' hsource => ⟨fun hsource' => ?_, fun hsource' => ?_⟩⟩
  · refine (hiff ref href ref' href' _ _ (hsource ▸ hcog) (hsource' ▸ hcart)).mpr rfl
  · refine mt (hiff ref href ref' href' _ _ (hsource ▸ hcog) (hsource' ▸ hgear)).mp ?_
    rw [content_extents, content_extents]
    decide

end Recognized

end Mockup.Style
