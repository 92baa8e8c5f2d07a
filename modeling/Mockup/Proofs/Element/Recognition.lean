import Mockup.Proofs.Agreement
import Mockup.Proofs.Element.Runs
import Mockup.Proofs.Element.Tree
import Mockup.Proofs.Tree.Occurrence

namespace Mockup

namespace Role

def variant : Role → String
  | .component => "Component"
  | .text => "Text"
  | .icon => "Icon"
  | .image => "Image"
  | .button => "Button"
  | .card => "Card"
  | .container => "Container"

theorem variant_ne_repeater (role : Role) : role.variant ≠ "Repeater" := by
  cases role <;> decide

def isLeaf : Role → Bool
  | .text | .icon | .image | .button => true
  | _ => false

def group? : Role → Option Branch
  | .card => some .card
  | .container => some .container
  | _ => none

end Role

/-- An element that carries the id of a layer and is of the variant that its role says. -/
structure Depicts (t : Tree Placed) (e : Element) : Prop where
  id : e.id = t.item.id
  role : ∃ role, Role.of t.item t.children = .ok role ∧ e.variant = role.variant

theorem Depicts.isRepeater_eq_false {t : Tree Placed} {e : Element} (h : Depicts t e) :
    e.isRepeater = false := by
  obtain ⟨role, -, hv⟩ := h.role
  have hne := hv ▸ role.variant_ne_repeater
  cases e with
  | leaf i c => rfl
  | foreign i v => rfl
  | branch i r l es =>
      cases r with
      | repeater r => exact absurd rfl hne
      | container | card | component => rfl

theorem Depicts.of_unlinked_eq {t : Tree Placed} {e e' : Element} (h : Depicts t e)
    (he : e'.unlinked = e.unlinked) : Depicts t e' where
  id := (Element.id_of_unlinked_eq he).trans h.id
  role := by
    rw [Element.variant_of_unlinked_eq he]
    exact h.role

theorem Role.isButton_of_eq_button {p : Placed} {ts : List (Tree Placed)}
    (h : Role.of p ts = .ok .button) : isButton p ts = .ok true := by
  rw [Role.of] at h
  split at h
  · cases h
  split at h
  · cases h
  obtain ⟨icon, -, h⟩ := Result.bind_eq_ok_iff.mp h
  split at h
  · cases h
  split at h
  · cases h
  obtain ⟨button, hbutton, h⟩ := Result.bind_eq_ok_iff.mp h
  cases button with
  | true => exact hbutton
  | false =>
      obtain ⟨card, -, h⟩ := Result.bind_eq_ok_iff.mp h
      split at h <;> cases h

/-- A button has a text among its children. -/
theorem Role.textChild_of_isButton {p : Placed} {ts : List (Tree Placed)}
    (h : isButton p ts = .ok true) : ∃ t, textChild? ts = some t := by
  rw [isButton] at h
  split at h
  · cases h
  · next hsome =>
      cases ht : textChild? ts with
      | none => exact absurd (by rw [ht]; rfl) hsome
      | some t => exact ⟨t, rfl⟩

namespace Recognition

variable {n : Naming} {p : Placed} {ts : List (Tree Placed)} {e : Element}

structure ButtonOf (n : Naming) (p : Placed) (ts : List (Tree Placed)) (b : ButtonElement) :
    Prop where
  parts : ∃ icon, (ts.findM? Role.isIconTree) = .ok icon ∧
    icon.mapM (styleRefOfTree n) = .ok b.iconRef ∧
    (Role.textChild? ts).mapM (styleRefOfTree n) = .ok b.textStyleRef ∧
    b.iconStyleRef = b.iconRef ∧ b.iconId = icon.bind (fun t => t.item.id) ∧
    b.textId = (Role.textChild? ts).bind fun t => t.item.id
  label : b.label = ((Role.textChild? ts).bind fun t => t.item.text).getD "Button"
  variant : Role.buttonVariant p.toTraits = .ok b.variant

/-- The element that a layer with the given identity becomes in each role. -/
inductive Made (n : Naming) (p : Placed) (ts : List (Tree Placed)) (i : Identity) :
    Role → Element → Prop
  | component {es es' : List Element} {table : Element.PropertyTable}
      (hes : recognizeAll n ts = .ok es) (hlink : Element.linkAll n {} es = .ok (es', table))
      {c : ComponentElement}
      (hc : c = ⟨if (p.componentId.getD "").isEmpty then "unknown" else p.componentId.getD "",
        n.componentName p.label, Fields.putAll (instanceProperties n p) table.properties⟩) :
      Made n p ts i .component (.branch i (.component c) p.layout es')
  | text : Made n p ts i .text (.leaf i (.text (textOf n p)))
  | icon {size : Number} (hsize : longerSide p.box = .ok size) :
      Made n p ts i .icon (.leaf i (.icon ⟨i.styleRef, size⟩))
  | image : Made n p ts i .image (.leaf i (.image ⟨p.fills.findSome? Fill.image?, none⟩))
  | button {b : ButtonElement} (hb : ButtonOf n p ts b) :
      Made n p ts i .button (.leaf i (.button b))
  | group {role : Role} {r : Branch} {es : List Element} (hr : role.group? = some r)
      (hes : recognizeAll n ts = .ok es) :
      Made n p ts i role (.branch i r p.layout (foldRuns n ts es))

theorem recognizeAll_eq_ok_iff {es : List Element} :
    recognizeAll n ts = .ok es ↔ List.Forall₂ (fun t e => recognize n t = .ok e) ts es := by
  induction ts generalizing es with
  | nil =>
      rw [List.forall₂_nil_left_iff]
      exact ⟨fun h => by cases h; rfl, fun h => by rw [h]; rfl⟩
  | cons t ts ih =>
      rw [recognizeAll, Result.bind_eq_ok_iff, List.forall₂_cons_left_iff]
      constructor
      · rintro ⟨e, he, h⟩
        obtain ⟨es', hes, h⟩ := Result.bind_eq_ok_iff.mp h
        cases h
        exact ⟨e, es', he, ih.mp hes, rfl⟩
      · rintro ⟨e, es', he, hes, rfl⟩
        exact ⟨e, he, Result.bind_eq_ok_iff.mpr ⟨es', ih.mpr hes, rfl⟩⟩

theorem button_eq_ok (h : button n p ts = .ok e) :
    ∃ i b, identityOf n p ts = .ok i ∧ ButtonOf n p ts b ∧ e = .leaf i (.button b) := by
  rw [button] at h
  obtain ⟨icon, hicon, h⟩ := Result.bind_eq_ok_iff.mp h
  obtain ⟨iconRef, hiconRef, h⟩ := Result.bind_eq_ok_iff.mp h
  obtain ⟨i, hi, h⟩ := Result.bind_eq_ok_iff.mp h
  obtain ⟨variant, hvariant, h⟩ := Result.bind_eq_ok_iff.mp h
  obtain ⟨textRef, htextRef, h⟩ := Result.bind_eq_ok_iff.mp h
  cases h
  exact ⟨i, _, hi, ⟨⟨icon, Result.lift_eq_ok_iff.mp hicon, hiconRef, htextRef, rfl, rfl, rfl⟩, rfl,
    Result.lift_eq_ok_iff.mp hvariant⟩, rfl⟩

/-- All that recognition can make of a layer. -/
theorem recognize_node (h : recognize n (.node p ts) = .ok e) :
    ∃ role i, Role.of p ts = .ok role ∧ identityOf n p ts = .ok i ∧ Made n p ts i role e := by
  rw [recognize] at h
  obtain ⟨role, hrole, h⟩ := Result.bind_eq_ok_iff.mp h
  have hrole := Result.lift_eq_ok_iff.mp hrole
  cases role with
  | component =>
      obtain ⟨es, hes, h⟩ := Result.bind_eq_ok_iff.mp h
      obtain ⟨⟨properties, es'⟩, hlink, h⟩ := Result.bind_eq_ok_iff.mp h
      obtain ⟨⟨es'', table⟩, hlink, hp⟩ := Result.bind_eq_ok_iff.mp hlink
      cases hp
      obtain ⟨i, hi, h⟩ := Result.bind_eq_ok_iff.mp h
      cases h
      exact ⟨.component, i, hrole, hi, .component hes hlink rfl⟩
  | text =>
      obtain ⟨i, hi, h⟩ := Result.bind_eq_ok_iff.mp h
      cases h
      exact ⟨.text, i, hrole, hi, .text⟩
  | icon =>
      obtain ⟨i, hi, h⟩ := Result.bind_eq_ok_iff.mp h
      obtain ⟨size, hsize, h⟩ := Result.bind_eq_ok_iff.mp h
      cases h
      exact ⟨.icon, i, hrole, hi, .icon (Result.lift_eq_ok_iff.mp hsize)⟩
  | image =>
      obtain ⟨i, hi, h⟩ := Result.bind_eq_ok_iff.mp h
      cases h
      exact ⟨.image, i, hrole, hi, .image⟩
  | button =>
      obtain ⟨i, b, hi, hb, rfl⟩ := button_eq_ok h
      exact ⟨.button, i, hrole, hi, .button hb⟩
  | card | container =>
      obtain ⟨i, hi, h⟩ := Result.bind_eq_ok_iff.mp h
      obtain ⟨es, hes, h⟩ := Result.bind_eq_ok_iff.mp h
      cases h
      exact ⟨_, i, hrole, hi, .group rfl hes⟩

theorem id_of_identityOf {i : Identity} (h : identityOf n p ts = .ok i) : i.id = p.id := by
  obtain ⟨ref, -, h⟩ := Result.bind_eq_ok_iff.mp h
  cases h
  rfl

theorem depicts_group {i : Identity} {role : Role} {r : Branch} (hrole : Role.of p ts = .ok role)
    (hi : identityOf n p ts = .ok i) (hr : role.group? = some r) (l : Layout)
    (es : List Element) : Depicts (.node p ts) (.branch i r l es) :=
  ⟨id_of_identityOf hi, role, hrole, by cases role <;> cases hr <;> rfl⟩

theorem depicts_of_made {i : Identity} {role : Role} (hrole : Role.of p ts = .ok role)
    (hi : identityOf n p ts = .ok i) (h : Made n p ts i role e) : Depicts (.node p ts) e := by
  cases h with
  | group hr hes => exact depicts_group hrole hi hr _ _
  | component | text | icon | image | button => exact ⟨id_of_identityOf hi, _, hrole, rfl⟩

theorem recognize_depicts {t : Tree Placed} (h : recognize n t = .ok e) : Depicts t e := by
  cases t with
  | node p ts =>
      obtain ⟨role, i, hrole, hi, hmade⟩ := recognize_node h
      exact depicts_of_made hrole hi hmade

theorem isRepeater_of_forall₂ {es : List Element} (h : List.Forall₂ Depicts ts es) (he : e ∈ es) :
    e.isRepeater = false := by
  obtain ⟨t, -, hdepicts⟩ := Related.exists_of_mem h he
  exact hdepicts.isRepeater_eq_false

theorem forall₂_of_unlinked_eq {R : Tree Placed → Element → Prop}
    (hR : ∀ t e e', e'.unlinked = e.unlinked → R t e → R t e') {es es' : List Element}
    (h : List.Forall₂ R ts es) (he : es'.map Element.unlinked = es.map Element.unlinked) :
    List.Forall₂ R ts es' := by
  induction h generalizing es' with
  | nil => rw [List.map_nil, List.map_eq_nil_iff] at he; rw [he]; exact .nil
  | cons ht _ ih =>
      obtain ⟨e', es'', rfl, he', hes⟩ := List.map_eq_cons_iff.mp he
      exact .cons (hR _ _ _ he' ht) (ih hes)

/-- What is below a group is a repeater of some of the single elements, or below one of them. -/
theorem mem_nodes_foldRuns {R : Tree Placed → Element → Prop} {es : List Element}
    (h : List.Forall₂ R ts es) {x : Element} (hx : x ∈ (foldRuns n ts es).flatMap Element.nodes) :
    (∃ e ∈ es, x ∈ e.nodes) ∨ ∃ t ∈ ts, ∃ item items, item :: items ⊆ es ∧
      x = repeater n t.item (item :: items) := by
  obtain ⟨y, hy, hx⟩ := List.mem_flatMap.mp hx
  rcases mem_foldRuns h hy with hy | ⟨_, first, _, _, items, hsplit, _, _, _, hitems, hsub, rfl⟩
  · exact .inl ⟨y, hy, hx⟩
  · rw [repeater, Element.nodes_branch] at hx
    rcases List.mem_cons.mp hx with rfl | hx
    · cases hitems with
      | @cons _ item _ items _ _ =>
          exact .inr ⟨first, by simp [hsplit], item, items, hsub, rfl⟩
    · obtain ⟨e, he, hx⟩ := List.mem_flatMap.mp hx
      exact .inl ⟨e, hsub he, hx⟩

/-- Induction over recognized trees. Since the texts and images of a component are told their
properties after they were recognized, what is proved must not depend on the names of these. -/
theorem recognize_induct {P : Tree Placed → Element → Prop}
    (leaf : ∀ p ts role i c, Role.of p ts = .ok role → identityOf n p ts = .ok i →
      role.isLeaf = true → Made n p ts i role (.leaf i c) → P (.node p ts) (.leaf i c))
    (component : ∀ p ts i c es, Role.of p ts = .ok .component → identityOf n p ts = .ok i →
      List.Forall₂ (fun t e => Depicts t e ∧ P t e) ts es →
      P (.node p ts) (.branch i (.component c) p.layout es))
    (group : ∀ p ts role r i es, Role.of p ts = .ok role → identityOf n p ts = .ok i →
      role.group? = some r → List.Forall₂ (fun t e => Depicts t e ∧ P t e) ts es →
      P (.node p ts) (.branch i r p.layout (foldRuns n ts es)))
    (link : ∀ t e e', e'.unlinked = e.unlinked → P t e → P t e')
    {t : Tree Placed} (h : recognize n t = .ok e) : P t e := by
  induction t generalizing e with
  | node p ts ih =>
      have hall {es : List Element} (hes : recognizeAll n ts = .ok es) :
          List.Forall₂ (fun t e => Depicts t e ∧ P t e) ts es := by
        have hes := recognizeAll_eq_ok_iff.mp hes
        rw [List.forall₂_iff_zip] at hes ⊢
        refine ⟨hes.1, fun {t e} hz => ?_⟩
        have he := hes.2 hz
        exact ⟨recognize_depicts he, ih t (List.of_mem_zip hz).1 he⟩
      obtain ⟨role, i, hrole, hi, hmade⟩ := recognize_node h
      cases hmade with
      | @component es es' table hes hlink c hc =>
          refine component p ts i c es' hrole hi (forall₂_of_unlinked_eq ?_ (hall hes)
            (Element.map_unlinked_of_linkAll hlink))
          exact fun t e e' he h => ⟨h.1.of_unlinked_eq he, link t e e' he h.2⟩
      | text => exact leaf p ts _ i _ hrole hi rfl .text
      | icon hsize => exact leaf p ts _ i _ hrole hi rfl (.icon hsize)
      | image => exact leaf p ts _ i _ hrole hi rfl .image
      | button hb => exact leaf p ts _ i _ hrole hi rfl (.button hb)
      | group hr hes => exact group p ts role _ i _ hrole hi hr (hall hes)

/-- What holds of every element that recognition makes of a layer, and of every repeater of such
elements, holds of every node of a recognized tree, if it goes on to hold inside larger trees and
under other names of properties. -/
theorem forall_nodes_of_recognize {P : Tree Placed → Element → Prop}
    (leaf : ∀ p ts role i c, Role.of p ts = .ok role → identityOf n p ts = .ok i →
      Made n p ts i role (.leaf i c) → P (.node p ts) (.leaf i c))
    (component : ∀ p ts i c es, identityOf n p ts = .ok i → List.Forall₂ Depicts ts es →
      P (.node p ts) (.branch i (.component c) p.layout es))
    (group : ∀ p ts role r i es, Role.of p ts = .ok role → identityOf n p ts = .ok i →
      role.group? = some r → List.Forall₂ Depicts ts es →
      P (.node p ts) (.branch i r p.layout (foldRuns n ts es)))
    (repeater : ∀ t p item items, p ∈ t.preorder → (∀ y ∈ item :: items, y.isRepeater = false) →
      P t item → P t (repeater n p (item :: items)))
    (mono : ∀ t u x, t ∈ u.subtrees → P t x → P u x)
    (link : ∀ t x x', x'.unlinked = x.unlinked → P t x → P t x')
    {t : Tree Placed} (h : recognize n t = .ok e) : ∀ x ∈ e.nodes, P t x := by
  have hbelow {p : Placed} {ts : List (Tree Placed)} {es : List Element}
      (hall : List.Forall₂ (fun t e => Depicts t e ∧ ∀ x ∈ e.nodes, P t x) ts es) {e x : Element}
      (he : e ∈ es) (hx : x ∈ e.nodes) : P (.node p ts) x := by
    obtain ⟨t, ht, -, h⟩ := Related.exists_of_mem hall he
    exact mono t _ x (Tree.mem_subtrees_child ht) (h x hx)
  refine recognize_induct (P := fun t e => ∀ x ∈ e.nodes, P t x) ?_ ?_ ?_ ?_ h
  · intro p ts role i c hrole hi hleaf hmade x hx
    rw [List.mem_singleton.mp hx]
    exact leaf p ts role i c hrole hi hmade
  · intro p ts i c es hrole hi hall x hx
    rw [Element.nodes_branch] at hx
    rcases List.mem_cons.mp hx with rfl | hx
    · exact component p ts i c es hi (hall.imp fun _ _ h => h.1)
    · obtain ⟨e, he, hx⟩ := List.mem_flatMap.mp hx
      exact hbelow hall he hx
  · intro p ts role r i es hrole hi hr hall x hx
    have hdepicts := hall.imp fun _ _ h => h.1
    rw [Element.nodes_branch] at hx
    rcases List.mem_cons.mp hx with rfl | hx
    · exact group p ts role r i es hrole hi hr hdepicts
    · rcases mem_nodes_foldRuns hall hx with ⟨e, he, hx⟩ | ⟨t, ht, item, items, hsub, rfl⟩
      · exact hbelow hall he hx
      · refine repeater _ t.item item items ?_ ?_ ?_
        · exact Tree.item_mem_preorder (Tree.mem_subtrees_child ht)
        · exact fun y hy => isRepeater_of_forall₂ hdepicts (hsub hy)
        · exact hbelow hall (hsub List.mem_cons_self) (Element.mem_nodes_self item)
  · intro t e e' he h x' hx'
    obtain ⟨x, hx, hxx⟩ := Element.exists_mem_nodes_of_relabel_eq he hx'
    exact link t x x' hxx (h x hx)

/-- Recognition stays within the closed set of variants. -/
theorem recognize_closed {t : Tree Placed} (h : recognize n t = .ok e) :
    ∀ x ∈ e.nodes, x.isForeign = false := by
  refine forall_nodes_of_recognize (P := fun _ x => x.isForeign = false) ?_ ?_ ?_ ?_ ?_ ?_ h
  · exact fun p ts role i c hrole hi hmade => rfl
  · exact fun p ts i c es hi hall => rfl
  · exact fun p ts role r i es hrole hi hr hall => rfl
  · exact fun t p item items hp hplain h => rfl
  · exact fun t u x ht h => h
  · exact fun t x x' hx h => (Element.isForeign_of_relabel_eq hx).trans h

/-- Every button in a recognized tree stands for a layer with the role of one. -/
theorem exists_layer_of_button {t : Tree Placed} (h : recognize n t = .ok e) {i : Identity}
    {b : ButtonElement} (hb : .leaf i (.button b) ∈ e.nodes) :
    ∃ p ts, .node p ts ∈ t.subtrees ∧ Role.of p ts = .ok .button ∧ ButtonOf n p ts b := by
  refine forall_nodes_of_recognize (P := fun t x => ∀ i b, x = .leaf i (.button b) →
    ∃ p ts, .node p ts ∈ t.subtrees ∧ Role.of p ts = .ok .button ∧ ButtonOf n p ts b)
    ?_ ?_ ?_ ?_ ?_ ?_ h _ hb i b rfl
  · rintro p ts role i c hrole hi hmade j b heq
    cases heq
    cases hmade with
    | button hb => exact ⟨p, ts, Tree.mem_subtrees_self _, hrole, hb⟩
  · exact fun p ts i c es hi hall j b heq => nomatch heq
  · exact fun p ts role r i es hrole hi hr hall j b heq => nomatch heq
  · exact fun t p item items hp hplain h j b heq => nomatch heq
  · intro t u x ht h i b heq
    obtain ⟨p, ts, hmem, h⟩ := h i b heq
    exact ⟨p, ts, Tree.subtrees_subset ht hmem, h⟩
  · rintro t x x' hx h i b rfl
    cases x with
    | branch j r l es => cases hx
    | foreign j v => cases hx
    | leaf j c =>
        cases c with
        | button c =>
            cases hx
            exact h _ _ rfl
        | text c | image c | icon c => cases hx

end Recognition

end Mockup
