import Mockup.Proofs.Element.Tree
import Mockup.Proofs.Naming.Fresh
import Mockup.Proofs.Value.Fields

namespace Mockup

namespace Element

def shown? : Element → Option String
  | leaf _ (.text t) => if t.text.isEmpty then none else some t.text
  | leaf _ (.image i) => some (i.reference.getD "")
  | _ => none

def Holds (properties : List (String × Property)) (name value : String) : Prop :=
  ∃ p, Fields.get? name properties = some p ∧ p.value = .text value

/-- A text or an image is told the name of a property that has its value. -/
def Linked (properties : List (String × Property)) (e : Element) : Prop :=
  ∀ value, e.shown? = some value → ∃ name, e.propName? = some name ∧ Holds properties name value

namespace PropertyTable

/-- Names are given once and stand for texts, and a layer that was seen before has the property that
it was given. -/
structure Sound (t : PropertyTable) : Prop where
  names : (Fields.names t.properties).Nodup
  texts : ∀ entry ∈ t.properties, ∃ s, entry.2.value = .text s
  named : ∀ entry ∈ t.named, Holds t.properties entry.2 entry.1.2.2

def Extends (t t' : PropertyTable) : Prop :=
  ∀ name p, Fields.get? name t.properties = some p → Fields.get? name t'.properties = some p

theorem Extends.refl (t : PropertyTable) : t.Extends t := fun _ _ h => h

theorem Extends.trans {t t' t'' : PropertyTable} (h : t.Extends t') (h' : t'.Extends t'') :
    t.Extends t'' := fun name p hp => h' name p (h name p hp)

theorem Extends.holds {t t' : PropertyTable} (h : t.Extends t') {name value : String}
    (hv : Holds t.properties name value) : Holds t'.properties name value := by
  obtain ⟨p, hp, hvalue⟩ := hv
  exact ⟨p, h name p hp, hvalue⟩

theorem Extends.linked {t t' : PropertyTable} (h : t.Extends t') {e : Element}
    (hl : Linked t.properties e) : Linked t'.properties e := by
  intro value hvalue
  obtain ⟨name, hname, hholds⟩ := hl value hvalue
  exact ⟨name, hname, h.holds hholds⟩

theorem sound_empty : Sound {} where
  names := List.nodup_nil
  texts _ h := absurd h List.not_mem_nil
  named _ h := absurd h List.not_mem_nil

theorem numbered_injective (base : String) : Function.Injective (numbered base) := by
  intro i j h
  have hlist := congrArg String.toList h
  by_cases hi : i = 0 <;> by_cases hj : j = 0
  · rw [hi, hj]
  · simp [numbered, hi, hj, Number.numeral, Nat.toDigits_ne_nil] at hlist
  · simp [numbered, hi, hj, Number.numeral, Nat.toDigits_ne_nil] at hlist
  · simp only [numbered, hi, hj, if_false, String.toList_append,
      List.append_cancel_left_eq] at hlist
    exact Naming.numeral_injective (String.toList_inj.mp hlist)

theorem mem_of_lookup {key : String × String × String}
    {named : List ((String × String × String) × String)} {name : String}
    (h : lookup key named = some name) : (key, name) ∈ named := by
  induction named with
  | nil => cases h
  | cons entry named ih =>
      rw [lookup] at h
      split at h
      · next hkey =>
          cases h
          rw [← hkey]
          exact List.mem_cons_self
      · exact List.mem_cons_of_mem _ (ih h)

/-- A name that is free for a value is no name yet, or that of a property with the value. -/
theorem isFree_eq_true_iff {properties : List (String × Property)} {value name : String} :
    isFree properties value name = true ↔
      Fields.get? name properties = none ∨ Holds properties name value := by
  rw [isFree, Holds]
  cases h : Fields.get? name properties with
  | none => simp
  | some p => cases hp : p.value <;> simp [Value.text?, hp]

/-- The search for a name ends: some candidate is free, and the one that is found is the first. -/
theorem firstFree_numbered (properties : List (String × Property)) (value base : String) :
    ∃ i, Naming.firstFree (numbered base) (isFree properties value) properties.length =
        numbered base i ∧
      isFree properties value (numbered base i) = true ∧
      ∀ j < i, isFree properties value (numbered base j) = false := by
  have hexists := Naming.exists_candidate_not_mem (numbered_injective base)
    (Fields.names properties) (Nat.le_of_eq (Fields.length_names properties))
  obtain ⟨i, hi, hfree⟩ := hexists
  obtain ⟨j, -, hj⟩ := Naming.firstFree_eq (numbered base) (isFree properties value)
    ⟨i, hi, isFree_eq_true_iff.mpr (.inl (Fields.get?_eq_none_iff.mpr hfree))⟩
  exact ⟨j, hj⟩

theorem isFree_firstFree (properties : List (String × Property)) (value base : String) :
    isFree properties value
      (Naming.firstFree (numbered base) (isFree properties value) properties.length) = true := by
  obtain ⟨i, heq, hfree, -⟩ := firstFree_numbered properties value base
  rw [heq]
  exact hfree

/-- What registering a layer can do: the layer was seen before, its name is new, or its name is that
of a property with the same value. -/
theorem register_cases (t : PropertyTable) (layerName kind value base : String) :
    (∃ name, ((layerName, kind, value), name) ∈ t.named ∧
      t.register layerName kind value base = (name, t)) ∨
    (∃ name, name ∉ Fields.names t.properties ∧ t.register layerName kind value base =
      (name, ⟨t.properties ++ [(name, ⟨kind, .text value⟩)],
        ((layerName, kind, value), name) :: t.named⟩)) ∨
    ∃ name, Holds t.properties name value ∧ t.register layerName kind value base =
      (name, ⟨t.properties, ((layerName, kind, value), name) :: t.named⟩) := by
  rw [register]
  cases hlookup : lookup (layerName, kind, value) t.named with
  | some name => exact .inl ⟨name, mem_of_lookup hlookup, rfl⟩
  | none =>
      right
      have hfree := isFree_firstFree t.properties value base
      generalize Naming.firstFree (numbered base) (isFree t.properties value)
        t.properties.length = name at hfree
      rcases isFree_eq_true_iff.mp hfree with hnone | ⟨p, hp, hvalue⟩
      · have hname := Fields.get?_eq_none_iff.mp hnone
        refine .inl ⟨name, hname, ?_⟩
        simp [Fields.has, hnone, Fields.put_of_not_mem hname]
      · refine .inr ⟨name, ⟨p, hp, hvalue⟩, ?_⟩
        simp [Fields.has, hp]

/-- A layer is given a property with its value, and entries stay as they are. -/
theorem register_spec {t : PropertyTable} (ht : t.Sound) (layerName kind value base : String) :
    (t.register layerName kind value base).2.Sound ∧
      t.Extends (t.register layerName kind value base).2 ∧
      Holds (t.register layerName kind value base).2.properties
        (t.register layerName kind value base).1 value := by
  rcases register_cases t layerName kind value base with
    ⟨name, hmem, heq⟩ | ⟨name, hname, heq⟩ | ⟨name, hholds, heq⟩
  · rw [heq]
    exact ⟨ht, .refl t, ht.named _ hmem⟩
  · rw [heq]
    have hextends (named) : t.Extends ⟨t.properties ++ [(name, ⟨kind, .text value⟩)], named⟩ :=
      fun _ _ h => Fields.get?_of_prefix (List.prefix_append _ _) h
    have hnew : Holds (t.properties ++ [(name, ⟨kind, .text value⟩)]) name value := by
      rw [← Fields.put_of_not_mem hname]
      exact ⟨_, Fields.get?_put_self _ _ _, rfl⟩
    refine ⟨⟨?_, ?_, ?_⟩, hextends _, hnew⟩
    · rw [Fields.names, List.map_append]
      refine List.nodup_append.mpr ⟨ht.names, by simp, ?_⟩
      rintro a ha b hb rfl
      rw [List.mem_singleton.mp hb] at ha
      exact hname ha
    · exact List.forall_mem_append.mpr ⟨ht.texts, List.forall_mem_singleton.mpr ⟨value, rfl⟩⟩
    · intro entry hentry
      rcases List.mem_cons.mp hentry with rfl | hentry
      · exact hnew
      · exact (hextends []).holds (ht.named entry hentry)
  · rw [heq]
    refine ⟨⟨ht.names, ht.texts, ?_⟩, fun _ _ h => h, hholds⟩
    intro entry hentry
    rcases List.mem_cons.mp hentry with rfl | hentry
    · exact hholds
    · exact ht.named entry hentry

end PropertyTable

end Element

end Mockup
