import Mockup.Element.Role
import Mockup.Proofs.Box.Motion
import Mockup.Proofs.Layer.Selection
import Mockup.Proofs.Tree.Related

namespace Mockup

def Traits.textless (t : Traits) : Traits := { t with text := none }

/-- Traits with the same text, or with two that make texts of both or of neither. -/
structure Traits.Alike (c : Change) (a b : Traits) : Prop where
  textless : a.textless = b.textless
  isText : Role.isText a = Role.isText b
  same : c ≠ .texts → a = b

/-- What is said of traits without regard to their text is said of both. -/
theorem Traits.Alike.eq_of {α : Type} {c : Change} {a b : Traits} (h : a.Alike c b)
    (f : Traits → α) (hf : ∀ t, f t.textless = f t) : f a = f b := by
  rw [← hf, h.textless, hf]

structure Change.MovesAny (c : Change) (a b : Option Box) : Prop where
  rel : Option.Rel c.Moves a b
  isSome : c ≠ .texts → a.isSome = true

theorem Change.Moves.refl_of_texts (b : Box) : Change.texts.Moves b b := rfl

theorem Change.MovesAny.getD {c : Change} {a b : Option Box} (h : c.MovesAny a b) (box : Box) :
    c.Moves (a.getD box) (b.getD box) := by
  obtain ⟨hrel, hsome⟩ := h
  cases hrel with
  | some h => exact h
  | none =>
      cases c with
      | texts => exact Change.Moves.refl_of_texts box
      | motion v => exact absurd (hsome (fun h => by cases h)) Bool.false_ne_true

structure Layer.Alike (c : Change) (a b : Layer) : Prop where
  traits : a.toTraits.Alike c b.toTraits
  box : c.MovesAny a.box b.box
  visible : a.visible = b.visible

structure Block.Alike (c : Change) (a b : Block) : Prop where
  traits : a.toTraits.Alike c b.toTraits
  box : c.Moves a.box b.box

variable {c : Change}

theorem Layer.Alike.id_eq {a b : Layer} (h : a.Alike c b) : a.id = b.id :=
  h.traits.eq_of (fun t => t.id) fun _ => rfl

theorem Layer.Alike.name_eq {a b : Layer} (h : a.Alike c b) : a.name = b.name :=
  h.traits.eq_of (fun t => t.name) fun _ => rfl

theorem Layer.Alike.label_eq {a b : Layer} (h : a.Alike c b) : a.label = b.label :=
  h.traits.eq_of (fun t => t.label) fun _ => rfl

theorem Layer.Alike.isKind_eq {a b : Layer} (h : a.Alike c b) (kinds : List String) :
    a.isKind kinds = b.isKind kinds :=
  h.traits.eq_of (fun t => t.isKind kinds) fun _ => rfl

theorem Layer.Alike.toBlock {a b : Layer} (h : a.Alike c b) : a.toBlock.Alike c b.toBlock where
  traits := {
    textless := congrArg (fun t : Traits =>
      { t with opacity := if t.opacity.any (Number.eq 1) then none else t.opacity })
      h.traits.textless
    isText := h.traits.isText
    same := fun hc => by
      rw [Layer.toBlock, Layer.toBlock, h.traits.same hc] }
  box := h.box.getD {}

theorem Block.Alike.isPlainGroup_eq {a b : Block} (h : a.Alike c b) :
    a.isPlainGroup = b.isPlainGroup :=
  h.traits.eq_of (fun t => Block.isPlainGroup { t with box := {} }) fun _ => rfl

namespace Selection

variable {s : Selection} {d d' : Document}

theorem omission_eq (s : Selection) {a b : Layer} (h : a.Alike c b) :
    s.omission? a = s.omission? b := by
  rw [omission?, omission?, h.id_eq, h.visible, h.label_eq]

theorem keep_related (s : Selection) (h : d.Related (Layer.Alike c) d') :
    Option.Rel (Tree.Related (Block.Alike c)) (s.keep? d) (s.keep? d') := by
  induction d using Tree.induct generalizing d' with
  | node l ts ih =>
      cases h with
      | @node l l' ts ts' hl hts =>
          rw [keep?_node, keep?_node, admits, admits, Tree.item_node, Tree.item_node,
            omission_eq s hl]
          split
          · have hkept := Related.imp_mem hts ih
            exact .some (.node hl.toBlock (List.rel_filterMap (fun _ _ h => h) hkept))
          · exact .none

end Selection

namespace Block

theorem wrap_related {b b' : Block} {ts ts' : List (Tree Block)} (hb : b.Alike c b')
    (h : List.Forall₂ (Tree.Related (Block.Alike c)) ts ts') :
    Tree.Related (Block.Alike c) (b.wrap ts) (b'.wrap ts') := by
  cases h with
  | nil => exact .node hb .nil
  | cons ht hts =>
      cases hts with
      | nil =>
          rw [wrap, wrap, hb.isPlainGroup_eq]
          split
          · exact ht
          · exact .node hb (.cons ht .nil)
      | cons hu hus => exact .node hb (.cons ht (.cons hu hus))

theorem unwrap_related {t t' : Tree Block} (h : t.Related (Block.Alike c) t') :
    (unwrap t).Related (Block.Alike c) (unwrap t') := by
  induction t generalizing t' with
  | node b ts ih =>
      cases h with
      | node hb hts =>
          rw [unwrap_node, unwrap_node]
          refine wrap_related hb ?_
          rw [List.forall₂_map_left_iff, List.forall₂_map_right_iff]
          exact Related.imp_mem hts ih

end Block

theorem Selection.apply_related (s : Selection) (unwrapGroups : Bool) {d d' : Document}
    (h : d.Related (Layer.Alike c) d') :
    Option.Rel (Tree.Related (Block.Alike c)) (s.apply unwrapGroups d)
      (s.apply unwrapGroups d') := by
  refine Related.option_map (keep_related s h) fun t t' h => ?_
  cases unwrapGroups with
  | true => exact Block.unwrap_related h
  | false => exact h

end Mockup
