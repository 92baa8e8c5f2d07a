import Mathlib.Data.List.Perm.Subperm
import Mockup.Proofs.Number.Normal
import Mockup.Proofs.Value.Sorting

namespace Mockup

namespace Value

inductive Defined : Value → Prop
  | null : Defined .null
  | bool (b : Bool) : Defined (.bool b)
  | number {n : Number} (h : n ≠ .real .nan) : Defined (.number n)
  | text (s : String) : Defined (.text s)
  | list {items : List Value} (h : ∀ v ∈ items, Defined v) : Defined (.list items)
  | object {fields : Fields} (h : ∀ field ∈ fields, Defined field.2) : Defined (.object fields)

mutual

/-- Equality of values: numbers by magnitude, objects whatever the order of their fields. A truth
value equals no number. -/
def equal : Value → Value → Bool
  | .null, .null => true
  | .bool a, .bool b => a == b
  | .number a, .number b => a.eq b
  | .text s, .text t => s == t
  | .list as, .list bs => equalItems as bs
  | .object as, .object bs => as.length == bs.length && equalFields as bs
  | _, _ => false

def equalItems : List Value → List Value → Bool
  | [], [] => true
  | a :: as, b :: bs => a.equal b && equalItems as bs
  | _, _ => false

def equalFields : Fields → Fields → Bool
  | [], _ => true
  | (name, a) :: rest, bs =>
    (match Fields.get? name bs with
      | some b => a.equal b
      | none => false) && equalFields rest bs

end

def canonical (v : Value) : Value := v.normalize.sortFields

def canonicalField (field : String × Value) : String × Value := (field.1, field.2.canonical)

theorem canonical_list (items : List Value) :
    canonical (.list items) = .list (items.map canonical) := by
  rw [canonical, normalize, normalizeItems_eq, sortFields_list, List.map_map]
  rfl

theorem canonical_object (fields : Fields) : canonical (.object fields) =
    .object ((fields.map canonicalField).mergeSort nameOrder) := by
  rw [canonical, normalize, normalizeFields_eq, sortFields_object, List.map_map]
  rfl

theorem names_map_canonicalField (fields : Fields) :
    Fields.names (fields.map canonicalField) = Fields.names fields := by
  simp [Fields.names, canonicalField]

/-- Fields with distinct names are in one order by name. -/
theorem mergeSort_eq_iff {as bs : Fields} (has : (Fields.names as).Nodup) :
    as.mergeSort nameOrder = bs.mergeSort nameOrder ↔ as.Perm bs := by
  constructor
  · intro h
    exact (List.mergeSort_perm as nameOrder).symm.trans (h ▸ List.mergeSort_perm bs nameOrder)
  · intro h
    have hsorted (fields : Fields) : (fields.mergeSort nameOrder).Pairwise (nameOrder · ·) := by
      refine List.pairwise_mergeSort ?_ ?_ fields
      · simp only [nameOrder, decide_eq_true_eq]
        exact fun a b c => String.le_trans
      · simp only [nameOrder, Bool.or_eq_true, decide_eq_true_eq]
        exact fun a b => String.le_total a.1 b.1
    refine List.Perm.eq_of_pairwise ?_ (hsorted as) (hsorted bs)
      ((List.mergeSort_perm as _).trans (h.trans (List.mergeSort_perm bs _).symm))
    intro a b ha hb hab hba
    simp only [nameOrder, decide_eq_true_eq] at hab hba
    have hname : a.1 = b.1 := String.le_antisymm hab hba
    exact List.inj_on_of_nodup_map has (List.mem_mergeSort.mp ha)
      (h.mem_iff.mpr (List.mem_mergeSort.mp hb)) hname

theorem equalItems_iff {as bs : List Value}
    (h : ∀ a ∈ as, ∀ b ∈ bs, a.equal b = true ↔ a.canonical = b.canonical) :
    equalItems as bs = true ↔ as.map canonical = bs.map canonical := by
  induction as generalizing bs with
  | nil => cases bs <;> simp [equalItems]
  | cons a as ih =>
      cases bs with
      | nil => simp [equalItems]
      | cons b bs =>
          have hfirst := h a List.mem_cons_self b List.mem_cons_self
          have hlater := @ih bs fun a ha b hb =>
            h a (List.mem_cons_of_mem _ ha) b (List.mem_cons_of_mem _ hb)
          rw [equalItems, Bool.and_eq_true, hfirst, hlater, List.map_cons, List.map_cons,
            List.cons.injEq]

theorem equalFields_iff {as bs : Fields} : equalFields as bs = true ↔
    ∀ f ∈ as, ∃ b, Fields.get? f.1 bs = some b ∧ f.2.equal b = true := by
  induction as with
  | nil => simp [equalFields]
  | cons f as ih =>
      rw [equalFields, Bool.and_eq_true, ih, List.forall_mem_cons]
      cases Fields.get? f.1 bs <;> simp

theorem canonicalField_mem_iff {bs : Fields} (hbs : (Fields.names bs).Nodup)
    (f : String × Value) : canonicalField f ∈ bs.map canonicalField ↔
      ∃ b, Fields.get? f.1 bs = some b ∧ f.2.canonical = b.canonical := by
  constructor
  · intro h
    obtain ⟨⟨name, b⟩, hmem, heq⟩ := List.mem_map.mp h
    obtain ⟨rfl, hcanonical⟩ := Prod.mk.inj heq
    exact ⟨b, Fields.get?_of_mem hbs hmem, hcanonical.symm⟩
  · rintro ⟨b, hget, hcanonical⟩
    exact List.mem_map.mpr ⟨(f.1, b), Fields.mem_of_get? hget, by
      rw [canonicalField, canonicalField, hcanonical]⟩

/-- Objects with distinct names have one canonical form if each field of one is, up to its form,
under its name in the other, and there are no more. -/
theorem canonical_object_eq_iff {as bs : Fields} (has : (Fields.names as).Nodup)
    (hbs : (Fields.names bs).Nodup) :
    canonical (.object as) = canonical (.object bs) ↔ as.length = bs.length ∧
      ∀ f ∈ as, ∃ b, Fields.get? f.1 bs = some b ∧ f.2.canonical = b.canonical := by
  have hnames : (Fields.names (as.map canonicalField)).Nodup := by
    rwa [names_map_canonicalField]
  have hsub : as.map canonicalField ⊆ bs.map canonicalField ↔
      ∀ f ∈ as, ∃ b, Fields.get? f.1 bs = some b ∧ f.2.canonical = b.canonical := by
    rw [List.subset_def, List.forall_mem_map]
    exact forall₂_congr fun f _ => canonicalField_mem_iff hbs f
  rw [canonical_object, canonical_object, object.injEq, mergeSort_eq_iff hnames, ← hsub]
  constructor
  · intro hperm
    exact ⟨by simpa using hperm.length_eq, hperm.subset⟩
  · rintro ⟨hlength, hsub⟩
    exact (List.subperm_of_subset hnames.of_map hsub).perm_of_length_le (by simp [hlength])

/-- Values are equal just if they have one canonical form. -/
theorem equal_iff_canonical_eq {a b : Value} (ha : a.Distinct) (hb : b.Distinct)
    (hdefined : a.Defined) : a.equal b = true ↔ a.canonical = b.canonical := by
  induction a generalizing b with
  | null => cases b <;> simp [equal, canonical, normalize, sortFields]
  | bool s => cases b <;> simp [equal, canonical, normalize, sortFields]
  | text s => cases b <;> simp [equal, canonical, normalize, sortFields]
  | number m =>
      cases hdefined with
      | number hm =>
          cases b with
          | number n => simp [equal, canonical, normalize, sortFields,
              Number.eq_eq_true_iff_normalize_eq hm]
          | _ => simp [equal, canonical, normalize, sortFields]
  | list as ih =>
      cases ha with
      | list has =>
          cases hdefined with
          | list hdefined =>
              cases hb with
              | @list bs hbs =>
                  have hitems := @equalItems_iff as bs fun a ha b hb =>
                    ih a ha (has a ha) (hbs b hb) (hdefined a ha)
                  rw [equal, hitems, canonical_list, canonical_list, list.injEq]
              | _ => simp [equal, canonical, normalize, sortFields]
  | object as ih =>
      cases ha with
      | object hanames has =>
          cases hdefined with
          | object hdefined =>
              cases hb with
              | @object bs hbnames hbs =>
                  rw [equal, Bool.and_eq_true, beq_iff_eq, equalFields_iff,
                    canonical_object_eq_iff hanames hbnames]
                  refine and_congr_right fun _ => forall₂_congr fun f hf =>
                    exists_congr fun b => and_congr_right fun hget => ?_
                  exact ih f hf (has f hf) (hbs _ (Fields.mem_of_get? hget)) (hdefined f hf)
              | _ => simp [equal, canonical, normalize, sortFields]

theorem Distinct.canonical {v : Value} (hv : v.Distinct) : v.canonical.Distinct :=
  hv.normalize.sortFields

/-- The text of a value is its own: no other value with distinct names is written like it. -/
theorem write_injective {f : Format} (hf : f.IsPlain) {v w : Value} (hv : v.Distinct)
    (hw : w.Distinct) (h : write f v = write f w) : v = w := by
  have hread := read?_write hf hv
  rw [h, read?_write hf hw] at hread
  exact (Option.some.inj hread).symm

/-- Normalized values have one canonical text just if they are equal, and then a registry takes
them for one. -/
theorem canonicalText_normalize_eq_iff {a b : Value} (ha : a.Distinct) (hb : b.Distinct)
    (hdefined : a.Defined) :
    a.normalize.canonicalText = b.normalize.canonicalText ↔ a.equal b = true := by
  rw [equal_iff_canonical_eq ha hb hdefined]
  constructor
  · exact write_injective compact_isPlain ha.canonical hb.canonical
  · exact congrArg (write compact)

def sized (width inset : Number) (mark : Value) : Fields :=
  [("width", .number width), ("padding", .list [.number inset, mark])]

theorem distinct_sized {fields : Fields} {width inset : Number} {mark : Value}
    (hperm : fields.Perm (sized width inset mark)) (hmark : mark.Distinct) :
    (object fields).Distinct := by
  have hnames : (Fields.names (sized width inset mark)).Nodup := by simp [Fields.names, sized]
  have hvalues : ∀ field ∈ sized width inset mark, field.2.Distinct := by simpa [sized] using hmark
  exact .object ((hperm.map Prod.fst).nodup_iff.mpr hnames) fun field hfield =>
    hvalues field (hperm.mem_iff.mp hfield)

theorem canonicalText_normalize_eq_iff_sized :
    let style := object (sized (.int 10) (.int 0) (.bool true))
    let reals := object (sized (.real (.ofInt 10)) (.real (.zero true)) (.bool true)).reverse
    let counted := object (sized (.int 10) (.int 0) (.number (.int 1)))
    style.normalize.canonicalText = reals.normalize.canonicalText ∧
      style.normalize.canonicalText ≠ counted.normalize.canonicalText := by
  intro style reals counted
  have hstyle : style.Distinct := distinct_sized (.refl _) (.bool true)
  have hreals : reals.Distinct := distinct_sized (List.reverse_perm _) (.bool true)
  have hcounted : counted.Distinct := distinct_sized (.refl _) (.number _)
  have hpadding : (list [.number (.int 0), .bool true]).Defined :=
    .list (by simpa using ⟨.number (by simp), .bool true⟩)
  have hdefined : style.Defined := .object (by simpa [sized] using ⟨.number (by simp), hpadding⟩)
  constructor
  · exact (canonicalText_normalize_eq_iff hstyle hreals hdefined).mpr (by decide +kernel)
  · exact mt (canonicalText_normalize_eq_iff hstyle hcounted hdefined).mp (by decide +kernel)

end Value

end Mockup
