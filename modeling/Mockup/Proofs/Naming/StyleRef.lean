import Mockup.Naming
import Mockup.Proofs.Result

namespace Mockup.Naming

open Result

variable {n : Naming}

def Readable (n : Naming) : Prop :=
  n.digitPrefix.toList.all Text.isPlain = true ∨ Succeeds n.numberedPattern

theorem readable_default : Readable {} := .inl (by decide)

theorem isNumberedRef_succeeds (hn : n.Readable) (identifier : String) :
    Succeeds (n.isNumberedRef identifier) := by
  by_cases hplain : n.digitPrefix.toList.all Text.isPlain = true
  · rw [isNumberedRef, if_pos hplain]
    exact succeeds_ok _
  · obtain ⟨pattern, hpattern⟩ := hn.resolve_left hplain
    rw [isNumberedRef, if_neg hplain, hpattern]
    exact succeeds_ok _

theorem styleRef_succeeds (hn : n.Readable) {id : LayerId} (hid : id ≠ none) (name : String)
    (kind : Option String) (hasChildren : Bool) :
    Succeeds (n.styleRef name id kind hasChildren) := by
  have hshort : Succeeds (n.shortRef id kind hasChildren) := by
    cases id with
    | none => exact absurd rfl hid
    | some id => exact succeeds_ok _
  apply Succeeds.ite
  · exact fun _ => hshort
  · intro _
    apply Succeeds.ite
    · exact fun _ => hshort
    · intro _
      obtain ⟨b, hb⟩ := isNumberedRef_succeeds hn (n.identifier name)
      rw [hb]
      cases b with
      | true => exact hshort
      | false => exact succeeds_ok _

/-- An identifier is made of some word, unless it is the one to fall back on. -/
theorem identifier_ne_empty {name : String} (h : n.identifier name ≠ n.fallbackIdentifier) :
    n.identifier name ≠ "" := by
  rw [identifier] at h ⊢
  split at h
  · exact absurd rfl h
  · intro hempty
    have hlist := congrArg String.toList hempty
    split at hlist <;> simp at hlist

theorem shortRef_ne_empty {id : LayerId} {kind : Option String} {hasChildren : Bool} {ref : String}
    (h : n.shortRef id kind hasChildren = .ok ref) : ref ≠ "" := by
  cases id with
  | none => cases h
  | some id =>
      cases h
      intro hempty
      have hlist := congrArg String.toList hempty
      simp at hlist

theorem styleRef_ne_empty {name : String} {id : LayerId} {kind : Option String}
    {hasChildren : Bool} {ref : String} (h : n.styleRef name id kind hasChildren = .ok ref) :
    ref ≠ "" := by
  simp only [styleRef] at h
  split at h
  · exact shortRef_ne_empty h
  · split at h
    · exact shortRef_ne_empty h
    · next hident =>
        split at h
        · cases h
        · exact shortRef_ne_empty h
        · cases h
          exact identifier_ne_empty hident

end Mockup.Naming
