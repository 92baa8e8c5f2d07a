import Mockup.Pattern.Repetition
import Mockup.Proofs.Element.Tree
import Mockup.Proofs.List
import Mockup.Proofs.Tree.Occurrence

namespace Mockup

namespace Tree

variable {α : Type} [DecidableEq α]

mutual

def decEq : (t u : Tree α) → Decidable (t = u)
  | node a ts, node b us =>
    match decEqAll ts us with
    | isTrue hts => decidable_of_iff (a = b) (by simp [hts])
    | isFalse hts => isFalse (by simp [hts])

def decEqAll : (ts us : List (Tree α)) → Decidable (ts = us)
  | [], [] => isTrue rfl
  | [], _ :: _ | _ :: _, [] => isFalse (by simp)
  | t :: ts, u :: us =>
    match decEq t u, decEqAll ts us with
    | isTrue ht, isTrue hts => isTrue (by rw [ht, hts])
    | isFalse ht, _ => isFalse (by simp [ht])
    | _, isFalse hts => isFalse (by simp [hts])

end

instance : DecidableEq (Tree α) := decEq

end Tree

namespace Element

mutual

def shape : Element → Tree String
  | leaf _ c => .node c.variant []
  | branch _ r _ es => .node r.variant (shapes es)
  | foreign _ v => .node v []

def shapes : List Element → List (Tree String)
  | [] => []
  | e :: es => shape e :: shapes es

end

def variants : List String :=
  ["Container", "Text", "Image", "Icon", "Button", "Card", "Component", "Repeater"]

theorem shapes_eq (es : List Element) : shapes es = es.map shape := by
  induction es with
  | nil => rfl
  | cons e es ih => rw [shapes, ih, List.map_cons]

theorem shape_branch (i : Identity) (r : Branch) (l : Layout) (es : List Element) :
    (branch i r l es).shape = .node r.variant (es.map shape) := by
  rw [shape, shapes_eq]

theorem leaf_variant_ne (c : Leaf) (r : Branch) : c.variant ≠ r.variant := by
  cases c <;> cases r <;> simp [Leaf.variant, Branch.variant]

theorem variant_mem_variants {e : Element} (h : e.isForeign = false) : e.variant ∈ variants := by
  cases e with
  | leaf i c => cases c <;> simp [variant, Leaf.variant, variants]
  | branch i r l es => cases r <;> simp [variant, Branch.variant, variants]
  | foreign i v => cases h

theorem preorder_shape (e : Element) : e.shape.preorder = e.nodes.map variant := by
  induction e with
  | leaf i c => rfl
  | foreign i v => rfl
  | branch i r l es ih =>
      rw [shape_branch, Tree.preorder_node, nodes_branch, List.map_cons, List.map_flatMap,
        List.flatMap_map]
      exact congrArg _ (List.flatMap_congr ih)

/-- What is below an element is smaller than it. -/
theorem shape_ne_of_below {e x : Element} (hx : x ∈ e.parts.flatMap nodes) :
    x.shape ≠ e.shape := by
  have hlength (e : Element) : e.shape.preorder.length = e.nodes.length := by
    rw [preorder_shape, List.length_map]
  intro heq
  have hlt := length_nodes_lt hx
  rw [← hlength, ← hlength, heq] at hlt
  omega

end Element

namespace Repetition

open Element

def isGroupVariant (variant : String) : Bool := variant == "Container" || variant == "Card"

mutual

def shapeText : Tree String → List Char
  | .node variant ts =>
    if ts.isEmpty && !isGroupVariant variant then variant.toList
    else variant.toList ++ [':', '['] ++ commaSeparated (shapeTexts ts) ++ [']']

def shapeTexts : List (Tree String) → List (List Char)
  | [] => []
  | t :: ts => shapeText t :: shapeTexts ts

end

theorem shapeTexts_eq (ts : List (Tree String)) : shapeTexts ts = ts.map shapeText := by
  induction ts with
  | nil => rfl
  | cons t ts ih => rw [shapeTexts, ih, List.map_cons]

theorem commaSeparated_cons (text : List Char) (texts : List (List Char)) :
    commaSeparated (text :: texts) = text ++ texts.flatMap (',' :: ·) := by
  induction texts generalizing text with
  | nil => simp [commaSeparated]
  | cons next texts ih =>
      rw [commaSeparated, List.intercalate_cons_cons, ← commaSeparated, ih]
      simp

/-- Elements of the closed set of variants have a fingerprint, which is the text of their shape. -/
theorem fingerprintChars_eq_shapeText {e : Element} (h : ∀ x ∈ e.nodes, x.isForeign = false) :
    fingerprintChars e = .ok (shapeText e.shape) := by
  induction e with
  | leaf i c => cases c <;> rfl
  | foreign i v => exact absurd (h _ (mem_nodes_self _)) (by simp [isForeign])
  | branch i r l es ih =>
      have hall : ∀ es' ⊆ es, fingerprintsOf es' = .ok (es'.map fun e => shapeText e.shape) := by
        intro es' hsub
        induction es' with
        | nil => rfl
        | cons e es' ihl =>
            obtain ⟨he, hes⟩ := List.cons_subset.mp hsub
            rw [fingerprintsOf, ih e he fun x hx => h x (nodes_subset_of_child he hx), ihl hes]
            rfl
      have hgroup : isGroupVariant r.variant = r.isGroup := by cases r <;> rfl
      rw [fingerprintChars, hall es (List.Subset.refl es), shape_branch, shapeText, shapeTexts_eq,
        hgroup, List.map_map, List.isEmpty_map]
      change (if _ then _ else _) = _
      rw [List.isEmpty_map]
      split <;> rfl

def Follows (cs : List Char) : Prop := ∀ c ∈ cs.head?, c = ',' ∨ c = ']'

theorem follows_items (ts : List (Tree String)) (rest : List Char) :
    Follows (ts.flatMap (fun t => ',' :: shapeText t) ++ ']' :: rest) := by
  cases ts <;> simp [Follows]

theorem isAlpha_of_mem_variants {variant : String} (h : variant ∈ variants) :
    variant.toList ≠ [] ∧ ∀ c ∈ variant.toList, c.isAlpha = true := by
  have hall : variants.all (fun v => !v.toList.isEmpty && v.toList.all Char.isAlpha) = true := by
    decide
  have hvariant := List.all_eq_true.mp hall variant h
  rw [Bool.and_eq_true, Bool.not_eq_true', List.isEmpty_eq_false_iff] at hvariant
  exact ⟨hvariant.1, List.all_eq_true.mp hvariant.2⟩

def bracketed (variant : String) (ts : List (Tree String)) : List Char :=
  if ts.isEmpty && !isGroupVariant variant then []
  else ':' :: '[' :: commaSeparated (ts.map shapeText) ++ [']']

theorem shapeText_node (variant : String) (ts : List (Tree String)) :
    shapeText (.node variant ts) = variant.toList ++ bracketed variant ts := by
  rw [shapeText, bracketed, shapeTexts_eq]
  split <;> simp

theorem isAlpha_head_bracketed {rest : List Char} (hrest : Follows rest) (variant : String)
    (ts : List (Tree String)) : ∀ c ∈ (bracketed variant ts ++ rest).head?, c.isAlpha = false := by
  rw [bracketed]
  split
  · intro c hc
    rcases hrest c hc with rfl | rfl <;> decide
  · simp

/-- The shapes in brackets can be told apart when each of them can. -/
theorem items_inj {ts us : List (Tree String)} {rest rest' : List Char}
    (ih : ∀ t ∈ ts, ∀ u ∈ us, ∀ {rest rest'}, Follows rest → Follows rest' →
      shapeText t ++ rest = shapeText u ++ rest' → t = u ∧ rest = rest')
    (h : ts.flatMap (fun t => ',' :: shapeText t) ++ ']' :: rest =
      us.flatMap (fun u => ',' :: shapeText u) ++ ']' :: rest') : ts = us ∧ rest = rest' := by
  induction ts generalizing us with
  | nil =>
      cases us with
      | nil => simpa using h
      | cons u us => simp at h
  | cons t ts ihl =>
      cases us with
      | nil => simp at h
      | cons u us =>
          simp only [List.flatMap_cons, List.cons_append, List.append_assoc,
            List.cons.injEq, true_and] at h
          obtain ⟨htu, hitems⟩ := ih t List.mem_cons_self u List.mem_cons_self
            (follows_items ts rest) (follows_items us rest') h
          obtain ⟨htus, hrest⟩ := ihl (fun t ht u hu => ih t (List.mem_cons_of_mem _ ht) u
            (List.mem_cons_of_mem _ hu)) hitems
          exact ⟨by rw [htu, htus], hrest⟩

theorem bracketed_cons (variant : String) (t : Tree String) (ts : List (Tree String))
    (rest : List Char) : bracketed variant (t :: ts) ++ rest =
      ':' :: '[' :: (shapeText t ++ (ts.flatMap (fun t => ',' :: shapeText t) ++ ']' :: rest)) := by
  rw [bracketed, List.map_cons, commaSeparated_cons, List.flatMap_map]
  simp

/-- Brackets with nothing in them, or none at all, are no brackets with something in them. -/
theorem bracketed_nil_ne_cons {rest : List Char} (hrest : Follows rest) (variant : String)
    {u : Tree String} (hu : u.item ∈ variants) (us : List (Tree String)) (rest' : List Char) :
    bracketed variant [] ++ rest ≠ bracketed variant (u :: us) ++ rest' := by
  cases u with
  | node w vs =>
      rw [Tree.item_node] at hu
      obtain ⟨hne, halpha⟩ := isAlpha_of_mem_variants hu
      obtain ⟨c, cs, hw⟩ := List.exists_cons_of_ne_nil hne
      have hc : c.isAlpha = true := halpha c (by rw [hw]; exact List.mem_cons_self)
      rw [bracketed_cons, shapeText_node, hw, bracketed]
      intro h
      split at h
      · rw [List.nil_append] at h
        have hcolon := hrest ':' (by rw [h]; rfl)
        revert hcolon
        decide
      · simp only [List.map_nil, commaSeparated, List.intercalate_nil, List.cons_append,
          List.nil_append, List.cons.injEq, true_and] at h
        rw [← h.1] at hc
        revert hc
        decide

/-- A text that starts with that of a shape tells the shape and the rest. -/
theorem shapeText_append_inj {t u : Tree String} (ht : ∀ v ∈ t.preorder, v ∈ variants)
    (hu : ∀ v ∈ u.preorder, v ∈ variants) {rest rest' : List Char} (hrest : Follows rest)
    (hrest' : Follows rest') (h : shapeText t ++ rest = shapeText u ++ rest') :
    t = u ∧ rest = rest' := by
  induction t generalizing u rest rest' with
  | node v ts ih =>
      cases u with
      | node w us =>
          rw [Tree.preorder_node] at ht hu
          obtain ⟨-, hv⟩ := isAlpha_of_mem_variants (ht v List.mem_cons_self)
          obtain ⟨-, hw⟩ := isAlpha_of_mem_variants (hu w List.mem_cons_self)
          rw [shapeText_node, shapeText_node, List.append_assoc, List.append_assoc] at h
          obtain ⟨hvw, h⟩ := append_inj_of_head hv hw (isAlpha_head_bracketed hrest v ts)
            (isAlpha_head_bracketed hrest' w us) h
          obtain rfl := String.toList_inj.mp hvw
          have hts : ∀ t ∈ ts, ∀ v ∈ t.preorder, v ∈ variants := fun t hmem v hv =>
            ht v (List.mem_cons_of_mem _ (List.mem_flatMap.mpr ⟨t, hmem, hv⟩))
          have hus : ∀ u ∈ us, ∀ v ∈ u.preorder, v ∈ variants := fun u hmem v hv =>
            hu v (List.mem_cons_of_mem _ (List.mem_flatMap.mpr ⟨u, hmem, hv⟩))
          have hroot {t : Tree String} (ht : ∀ v ∈ t.preorder, v ∈ variants) : t.item ∈ variants :=
            ht _ (Tree.item_mem_preorder t.mem_subtrees_self)
          cases ts with
          | nil =>
              cases us with
              | nil => simpa using h
              | cons u us =>
                  exact absurd h
                    (bracketed_nil_ne_cons hrest v (hroot (hus u List.mem_cons_self)) us rest')
          | cons t ts =>
              cases us with
              | nil =>
                  exact absurd h.symm
                    (bracketed_nil_ne_cons hrest' v (hroot (hts t List.mem_cons_self)) ts rest)
              | cons u us =>
                  -- the first of them is told like any other, as if a comma stood before it
                  rw [bracketed_cons, bracketed_cons] at h
                  have hitems : (t :: ts).flatMap (fun t => ',' :: shapeText t) ++ ']' :: rest =
                      (u :: us).flatMap (fun u => ',' :: shapeText u) ++ ']' :: rest' := by
                    simpa using h
                  obtain ⟨heq, rfl⟩ := items_inj (fun t ht u hu => ih t ht (hts t ht) (hus u hu))
                    hitems
                  rw [heq]
                  exact ⟨rfl, rfl⟩

/-- Elements of the closed set of variants have one fingerprint just if they have one shape. -/
theorem shapeText_eq_iff {a b : Element} (ha : ∀ x ∈ a.nodes, x.isForeign = false)
    (hb : ∀ x ∈ b.nodes, x.isForeign = false) :
    shapeText a.shape = shapeText b.shape ↔ a.shape = b.shape := by
  have hvariants {e : Element} (he : ∀ x ∈ e.nodes, x.isForeign = false) :
      ∀ v ∈ e.shape.preorder, v ∈ variants := by
    intro v hv
    rw [preorder_shape] at hv
    obtain ⟨x, hx, rfl⟩ := List.mem_map.mp hv
    exact variant_mem_variants (he x hx)
  refine ⟨fun h => ?_, fun h => by rw [h]⟩
  have hend : Follows [] := by simp [Follows]
  exact (shapeText_append_inj (hvariants ha) (hvariants hb) hend hend (by rw [h])).1

end Repetition

end Mockup
