import Mockup.Proofs.Agreement
import Mockup.Proofs.Tree.Occurrence

namespace Mockup.Tree

variable {α β : Type} {R : α → β → Prop}

inductive Related (R : α → β → Prop) : Tree α → Tree β → Prop
  | node {a : α} {b : β} {ts : List (Tree α)} {us : List (Tree β)} (hitem : R a b)
      (hchildren : List.Forall₂ (Related R) ts us) : Related R (node a ts) (node b us)

mutual

def map (f : α → β) : Tree α → Tree β
  | node a ts => node (f a) (mapAll f ts)

def mapAll (f : α → β) : List (Tree α) → List (Tree β)
  | [] => []
  | t :: ts => t.map f :: mapAll f ts

end

theorem mapAll_eq (f : α → β) (ts : List (Tree α)) : mapAll f ts = ts.map (map f) := by
  induction ts with
  | nil => rfl
  | cons t ts ih => rw [mapAll, ih, List.map_cons]

theorem map_node (f : α → β) (a : α) (ts : List (Tree α)) :
    (node a ts).map f = node (f a) (ts.map (map f)) := by
  rw [map, mapAll_eq]

theorem related_map {f : α → β} {t : Tree α} (h : ∀ a ∈ t.preorder, R a (f a)) :
    Related R t (t.map f) := by
  induction t with
  | node a ts ih =>
      rw [map_node]
      rw [preorder_node] at h
      refine .node (h a List.mem_cons_self) ?_
      rw [List.forall₂_map_right_iff, List.forall₂_same]
      exact fun t ht => ih t ht fun b hb =>
        h b (List.mem_cons_of_mem _ (List.mem_flatMap.mpr ⟨t, ht, hb⟩))

namespace Related

variable {t : Tree α} {u : Tree β}

theorem item (h : Related R t u) : R t.item u.item := by
  cases h with
  | node hitem _ => exact hitem

theorem children (h : Related R t u) : List.Forall₂ (Related R) t.children u.children := by
  cases h with
  | node _ hchildren => exact hchildren

theorem imp {S : α → β → Prop} (hRS : ∀ a b, R a b → S a b) (h : Related R t u) :
    Related S t u := by
  induction t generalizing u with
  | node a ts ih =>
      cases h with
      | node hitem hchildren =>
          exact .node (hRS _ _ hitem) (Mockup.Related.imp_mem hchildren ih)

theorem preorder (h : Related R t u) : List.Forall₂ R t.preorder u.preorder := by
  induction t generalizing u with
  | node a ts ih =>
      cases h with
      | node hitem hchildren =>
          rw [preorder_node, preorder_node]
          exact .cons hitem (Mockup.Related.flatMap hchildren ih)

theorem postorder (h : Related R t u) : List.Forall₂ R t.postorder u.postorder := by
  induction t generalizing u with
  | node a ts ih =>
      cases h with
      | node hitem hchildren =>
          rw [postorder_node, postorder_node]
          exact List.rel_append (Mockup.Related.flatMap hchildren ih) (.cons hitem .nil)

theorem subtrees (h : Related R t u) :
    List.Forall₂ (Related R) t.subtrees u.subtrees := by
  induction t generalizing u with
  | node a ts ih =>
      cases h with
      | node hitem hchildren =>
          rw [subtrees_node, subtrees_node]
          exact .cons (.node hitem hchildren) (Mockup.Related.flatMap hchildren ih)

end Related

end Mockup.Tree
