import Mockup.Layer.Source
import Mockup.Proofs.Result
import Mockup.Proofs.Tree.Occurrence

namespace Mockup

open Result

/-- No family has half a surrogate pair in its name. -/
def Document.IsSpelled (d : Document) : Prop := ∀ l ∈ d.preorder, l.isSpelled = true

theorem Typography.isSpelled_of_ofFields {fields : Fields} {type : Option Typography}
    (h : ofFields fields = .ok type) : type.all (fun type => type.fontFamily.isSpelled) = true := by
  rw [ofFields] at h
  split at h
  · cases h
    rfl
  · dsimp only at h
    split at h
    · split at h
      all_goals
        obtain ⟨lineHeight, -, h⟩ := bind_eq_ok_iff.mp h
        cases h
        rfl
    · obtain ⟨lineHeight, -, h⟩ := bind_eq_ok_iff.mp h
      cases h
      rfl

theorem Layer.isSpelled_of_ofFields {fields : Fields} {l : Layer} (h : ofFields fields = .ok l) :
    l.isSpelled = true := by
  obtain ⟨traits, htraits, h⟩ := bind_eq_ok_iff.mp h
  cases h
  obtain ⟨fills, -, htraits⟩ := bind_eq_ok_iff.mp htraits
  obtain ⟨strokes, -, htraits⟩ := bind_eq_ok_iff.mp htraits
  obtain ⟨effects, -, htraits⟩ := bind_eq_ok_iff.mp htraits
  obtain ⟨type, htype, htraits⟩ := bind_eq_ok_iff.mp htraits
  obtain ⟨properties, -, htraits⟩ := bind_eq_ok_iff.mp htraits
  cases htraits
  exact Typography.isSpelled_of_ofFields (lift_eq_ok_iff.mp htype)

namespace Document

mutual

theorem isSpelled_of_ofValue : ∀ {v : Value} {d : Document}, ofValue v = .ok d → d.IsSpelled
  | .object fields, d, h => by
      obtain ⟨l, hl, h⟩ := bind_eq_ok_iff.mp h
      obtain ⟨ds, hds, h⟩ := bind_eq_ok_iff.mp h
      cases h
      rw [IsSpelled, Tree.preorder_node]
      refine List.forall_mem_cons.mpr ⟨Layer.isSpelled_of_ofFields hl, fun x hx => ?_⟩
      obtain ⟨d, hd, hx⟩ := List.mem_flatMap.mp hx
      exact isSpelled_of_childrenOf hds d hd x hx
  | .null, d, h | .bool _, d, h | .number _, d, h | .text _, d, h | .list _, d, h => by cases h

theorem isSpelled_of_childrenOf : ∀ {fields : Fields} {ds : List Document},
    childrenOf fields = .ok ds → ∀ d ∈ ds, d.IsSpelled
  | [], ds, h => by
      cases h
      simp
  | (name, v) :: rest, ds, h => by
      rw [childrenOf.eq_def] at h
      dsimp only at h
      split at h
      · split at h
        · exact isSpelled_of_ofItems h
        · cases h
          simp
      · exact isSpelled_of_childrenOf h

theorem isSpelled_of_ofItems : ∀ {vs : List Value} {ds : List Document},
    ofItems vs = .ok ds → ∀ d ∈ ds, d.IsSpelled
  | [], ds, h => by
      cases h
      simp
  | v :: vs, ds, h => by
      obtain ⟨d, hd, h⟩ := bind_eq_ok_iff.mp h
      obtain ⟨rest, hrest, h⟩ := bind_eq_ok_iff.mp h
      cases h
      exact List.forall_mem_cons.mpr ⟨isSpelled_of_ofValue hd, isSpelled_of_ofItems hrest⟩

end

end Document

end Mockup
