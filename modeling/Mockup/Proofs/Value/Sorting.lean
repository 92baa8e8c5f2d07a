import Mockup.Proofs.Value.Distinct

namespace Mockup.Value

def nameOrder (a b : String × Value) : Bool := decide (a.1 ≤ b.1)

theorem sortFields_list (items : List Value) :
    sortFields (.list items) = .list (items.map sortFields) := by
  rw [sortFields]
  congr 1
  induction items with
  | nil => rfl
  | cons v items ih => rw [sortItems, ih, List.map_cons]

def sortedField (field : String × Value) : String × Value := (field.1, field.2.sortFields)

theorem sortFields_object (fields : Fields) :
    sortFields (.object fields) = .object ((fields.map sortedField).mergeSort nameOrder) := by
  have hsort : sortEntries fields = fields.map sortedField := by
    induction fields with
    | nil => rfl
    | cons field fields ih => rw [sortEntries, ih, List.map_cons, sortedField]
  rw [sortFields, hsort]
  rfl

theorem perm_sortedFields (fields : Fields) :
    ((fields.map sortedField).mergeSort nameOrder).Perm (fields.map sortedField) :=
  List.mergeSort_perm _ _

theorem names_sortedFields (fields : Fields) :
    (Fields.names ((fields.map sortedField).mergeSort nameOrder)).Perm (Fields.names fields) := by
  refine ((perm_sortedFields fields).map Prod.fst).trans (.of_eq ?_)
  rw [List.map_map]
  rfl

theorem Distinct.sortFields {v : Value} (hv : v.Distinct) : v.sortFields.Distinct := by
  induction hv with
  | null => exact .null
  | bool b => exact .bool b
  | number n => exact .number n
  | text s => exact .text s
  | list _ ih =>
      rw [sortFields_list]
      exact .list (List.forall_mem_map.mpr ih)
  | @object fields hnames _ ih =>
      rw [sortFields_object]
      refine .object ((names_sortedFields fields).nodup_iff.mpr hnames) fun field hfield => ?_
      obtain ⟨f, hf, rfl⟩ := List.mem_map.mp ((perm_sortedFields fields).mem_iff.mp hfield)
      exact ih f hf

end Mockup.Value
