import Mathlib.Data.List.Perm.Basic
import Mockup.Tree

namespace Mockup

/-- A subtree and the trees in which it stands, the nearest first. -/
structure Occurrence (α : Type) where
  tree : Tree α
  around : List (Tree α)

namespace Occurrence

variable {α : Type}

def chain : List (Tree α) → List (Occurrence α)
  | [] => []
  | t :: around => ⟨t, around⟩ :: chain around

def enclosing (o : Occurrence α) : List (Occurrence α) := chain o.around

end Occurrence

namespace Tree

variable {α : Type}

@[elab_as_elim, induction_eliminator]
theorem induct {motive : Tree α → Prop}
    (node : ∀ a ts, (∀ t ∈ ts, motive t) → motive (node a ts)) : ∀ t, motive t
  | .node a ts => node a ts fun t _ => induct node t

mutual

/-- The occurrences of all subtrees, each before those below it, of a tree that itself stands in
the given ones. -/
def occurrencesIn (around : List (Tree α)) : Tree α → List (Occurrence α)
  | node a ts => ⟨node a ts, around⟩ :: occurrencesInAll (node a ts :: around) ts

def occurrencesInAll (around : List (Tree α)) : List (Tree α) → List (Occurrence α)
  | [] => []
  | t :: ts => occurrencesIn around t ++ occurrencesInAll around ts

end

def occurrences (t : Tree α) : List (Occurrence α) := occurrencesIn [] t

theorem subtreesAll_eq (ts : List (Tree α)) : subtreesAll ts = ts.flatMap subtrees := by
  induction ts with
  | nil => rfl
  | cons t ts ih => rw [subtreesAll, ih, List.flatMap_cons]

theorem preorderAll_eq (ts : List (Tree α)) : preorderAll ts = ts.flatMap preorder := by
  induction ts with
  | nil => rfl
  | cons t ts ih => rw [preorderAll, ih, List.flatMap_cons]

theorem postorderAll_eq (ts : List (Tree α)) : postorderAll ts = ts.flatMap postorder := by
  induction ts with
  | nil => rfl
  | cons t ts ih => rw [postorderAll, ih, List.flatMap_cons]

theorem occurrencesInAll_eq (around : List (Tree α)) (ts : List (Tree α)) :
    occurrencesInAll around ts = ts.flatMap (occurrencesIn around) := by
  induction ts with
  | nil => rfl
  | cons t ts ih => rw [occurrencesInAll, ih, List.flatMap_cons]

@[simp] theorem item_node (a : α) (ts : List (Tree α)) : (node a ts).item = a := rfl

@[simp] theorem children_node (a : α) (ts : List (Tree α)) : (node a ts).children = ts := rfl

theorem subtrees_node (a : α) (ts : List (Tree α)) :
    (node a ts).subtrees = node a ts :: ts.flatMap subtrees := by
  rw [subtrees, subtreesAll_eq]

theorem preorder_node (a : α) (ts : List (Tree α)) :
    (node a ts).preorder = a :: ts.flatMap preorder := by
  rw [preorder, preorderAll_eq]

theorem postorder_node (a : α) (ts : List (Tree α)) :
    (node a ts).postorder = ts.flatMap postorder ++ [a] := by
  rw [postorder, postorderAll_eq]

theorem occurrencesIn_node (around : List (Tree α)) (a : α) (ts : List (Tree α)) :
    occurrencesIn around (node a ts) =
      ⟨node a ts, around⟩ :: ts.flatMap (occurrencesIn (node a ts :: around)) := by
  rw [occurrencesIn, occurrencesInAll_eq]

theorem map_tree_occurrencesIn (t : Tree α) (around : List (Tree α)) :
    (t.occurrencesIn around).map Occurrence.tree = t.subtrees := by
  induction t generalizing around with
  | node a ts ih =>
      rw [occurrencesIn_node, subtrees_node, List.map_cons, List.map_flatMap]
      congr 1
      exact List.flatMap_congr fun t ht => ih t ht _

theorem map_item_subtrees (t : Tree α) : t.subtrees.map item = t.preorder := by
  induction t with
  | node a ts ih =>
      rw [subtrees_node, preorder_node, List.map_cons, List.map_flatMap]
      congr 1
      exact List.flatMap_congr ih

theorem map_item_occurrences (t : Tree α) :
    t.occurrences.map (fun o => o.tree.item) = t.preorder := by
  rw [← map_item_subtrees, ← map_tree_occurrencesIn t [], List.map_map]
  rfl

theorem mem_subtrees_self (t : Tree α) : t ∈ t.subtrees := by
  cases t with
  | node a ts => simp [subtrees_node]

theorem subtrees_subset {t u : Tree α} (h : u ∈ t.subtrees) : u.subtrees ⊆ t.subtrees := by
  induction t with
  | node a ts ih =>
      rw [subtrees_node, List.mem_cons] at h
      rcases h with rfl | h
      · exact List.Subset.refl _
      · obtain ⟨t, ht, hu⟩ := List.mem_flatMap.mp h
        intro v hv
        rw [subtrees_node]
        exact List.mem_cons_of_mem _ (List.mem_flatMap.mpr ⟨t, ht, ih t ht hu hv⟩)

theorem preorder_sublist {t u : Tree α} (h : u ∈ t.subtrees) : u.preorder.Sublist t.preorder := by
  induction t with
  | node a ts ih =>
      rw [subtrees_node, List.mem_cons] at h
      rcases h with rfl | h
      · exact List.Sublist.refl _
      · obtain ⟨t, ht, hu⟩ := List.mem_flatMap.mp h
        rw [preorder_node, List.flatMap_def]
        exact ((ih t ht hu).trans
          (List.sublist_flatten_of_mem (List.mem_map_of_mem ht))).cons a

theorem mem_subtrees_child {t u : Tree α} (h : u ∈ t.children) : u ∈ t.subtrees := by
  cases t with
  | node a ts =>
      rw [subtrees_node]
      exact List.mem_cons_of_mem _ (List.mem_flatMap.mpr ⟨u, h, mem_subtrees_self u⟩)

theorem item_mem_preorder {t u : Tree α} (h : u ∈ t.subtrees) : u.item ∈ t.preorder := by
  rw [← map_item_subtrees]
  exact List.mem_map_of_mem h

/-- What stands between a subtree and the trees around a tree begins with the tree itself. -/
theorem exists_inner_of_mem_occurrencesIn {t : Tree α} {around : List (Tree α)} {o : Occurrence α}
    (h : o ∈ t.occurrencesIn around) :
    ∃ inner, o.around = inner ++ around ∧ t ∈ o.tree :: inner := by
  induction t generalizing around with
  | node a ts ih =>
      rw [occurrencesIn_node, List.mem_cons] at h
      rcases h with rfl | h
      · exact ⟨[], rfl, List.mem_cons_self⟩
      · obtain ⟨t, ht, ho⟩ := List.mem_flatMap.mp h
        obtain ⟨inner, haround, -⟩ := ih t ht ho
        exact ⟨inner ++ [node a ts], by simp [haround], by simp⟩

/-- Every subtree of a tree that stands in some others stands in them too. -/
theorem mem_of_mem_occurrencesIn {t : Tree α} {around : List (Tree α)} {o : Occurrence α}
    (h : o ∈ t.occurrencesIn around) : t ∈ o.tree :: o.around ∧ around ⊆ o.around := by
  obtain ⟨inner, haround, ht⟩ := exists_inner_of_mem_occurrencesIn h
  rw [haround]
  exact ⟨List.cons_subset_cons _ (List.subset_append_left _ _) ht, List.subset_append_right _ _⟩

/-- What stands around a subtree is made of subtrees and of what stands around the whole. -/
theorem around_subset {t : Tree α} {around : List (Tree α)} {o : Occurrence α}
    (h : o ∈ t.occurrencesIn around) : o.around ⊆ t.subtrees ++ around := by
  induction t generalizing around with
  | node a ts ih =>
      rw [occurrencesIn_node, List.mem_cons] at h
      rcases h with rfl | h
      · exact List.subset_append_right _ _
      · obtain ⟨t, ht, ho⟩ := List.mem_flatMap.mp h
        intro u hu
        rcases List.mem_append.mp (ih t ht ho hu) with hu | hu
        · exact List.mem_append_left _ (subtrees_subset (mem_subtrees_child ht) hu)
        · rcases List.mem_cons.mp hu with rfl | hu
          · exact List.mem_append_left _ (mem_subtrees_self _)
          · exact List.mem_append_right _ hu

theorem tree_mem_subtrees {t : Tree α} {around : List (Tree α)} {o : Occurrence α}
    (h : o ∈ t.occurrencesIn around) : o.tree ∈ t.subtrees := by
  rw [← map_tree_occurrencesIn t around]
  exact List.mem_map_of_mem h

theorem chain_subset_enclosing {t : Tree α} {around : List (Tree α)} {o : Occurrence α}
    (h : o ∈ t.occurrencesIn around) : Occurrence.chain around ⊆ o.enclosing := by
  induction t generalizing around with
  | node a ts ih =>
      rw [occurrencesIn_node, List.mem_cons] at h
      rcases h with rfl | h
      · exact List.Subset.refl _
      · obtain ⟨t, ht, ho⟩ := List.mem_flatMap.mp h
        exact List.Subset.trans (List.subset_cons_self _ _) (ih t ht ho)

/-- What occurs below a tree is enclosed by it. -/
theorem mem_enclosing {a : α} {ts : List (Tree α)} {around : List (Tree α)} {o : Occurrence α}
    (h : o ∈ ts.flatMap (occurrencesIn (node a ts :: around))) :
    ⟨node a ts, around⟩ ∈ o.enclosing := by
  obtain ⟨t, -, ho⟩ := List.mem_flatMap.mp h
  exact chain_subset_enclosing ho List.mem_cons_self

theorem postorder_perm_preorder (t : Tree α) : t.postorder.Perm t.preorder := by
  induction t with
  | node a ts ih =>
      rw [postorder_node, preorder_node]
      refine List.perm_append_comm.trans (List.Perm.cons a ?_)
      exact List.Perm.flatMap_left ts ih

end Tree

end Mockup
