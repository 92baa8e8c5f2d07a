import Mockup.Proofs.Pattern.Listing
import Mockup.Proofs.Pattern.Repetition
import Mockup.Proofs.Screen.Chrome
import Mockup.Proofs.Screen.Modal
import Mockup.Proofs.Screen.Stages
import Mockup.Proofs.Screen.Variants
import Mockup.Proofs.Style.Alike

namespace Mockup

variable {c : Change}

structure Detection.Alike (c : Change) (a b : Detection) : Prop where
  listings : a.listings = b.listings
  repetitions : List.Forall₂ (Repetition.Alike c) a.repetitions b.repetitions
  modal : a.modal = b.modal
  variants : a.variants = b.variants
  safeArea : Option.Rel (SafeArea.Alike c) a.safeArea b.safeArea

namespace Screen

/-- Screens that differ as their documents do. The placeholder stands nowhere, and it shows no text,
so that it does not differ at all. -/
structure Alike (c : Change) (root : Layer) (a b : Screen) : Prop where
  id : a.id = b.id
  name : a.name = b.name
  lowered : (a.root, a.bundle) ≠ placeholder root → a.root.Alike c b.root
  empty : (a.root, a.bundle) = placeholder root → a.root = b.root
  bundle : a.bundle = b.bundle
  detection : a.detection.Alike c b.detection

theorem safeArea_agree (o : Options) {d d' : Document} (h : d.Related (Layer.Alike c) d') :
    Result.Agree (Option.Rel (SafeArea.Alike c)) (safeArea? o d) (safeArea? o d') := by
  rw [safeArea?, safeArea?]
  split
  · exact (SafeArea.detect_agree h).lift.map fun _ _ h => .some h
  · exact .ok .none

theorem modal_eq (o : Options) {d d' : Document} (h : d.Related (Layer.Alike c) d') :
    modal? o d = modal? o d' := by
  rw [modal?, modal?, Modal.detect_eq h]

theorem effectiveRoot_related {d d' : Document} (h : d.Related (Layer.Alike c) d')
    (modal : Option (Option Modal)) :
    (effectiveRoot d modal).Related (Layer.Alike c) (effectiveRoot d' modal) := by
  rw [effectiveRoot.eq_def, effectiveRoot.eq_def]
  split
  · next m => exact Related.getD (Modal.contentWith_related h m.contentId) h
  · exact h

theorem selectionOf_eq (o : Options) {a b : Option SafeArea}
    (h : Option.Rel (SafeArea.Alike c) a b) : selectionOf o a = selectionOf o b := by
  rw [selectionOf, selectionOf, Related.option_map_eq h fun _ _ h => h.excludedIds]

structure AlikeContents (c : Change) (root : Layer) (x y : Element × StyleBundle × Detection) :
    Prop where
  lowered : (x.1, x.2.1) ≠ placeholder root → x.1.Alike c y.1
  empty : (x.1, x.2.1) = placeholder root → x.1 = y.1
  bundle : x.2.1 = y.2.1
  listings : x.2.2.listings = y.2.2.listings
  repetitions : List.Forall₂ (Repetition.Alike c) x.2.2.repetitions y.2.2.repetitions

theorem lowerTree_agree (n : Naming) {t t' : Tree Block} (h : t.Related (Block.Alike c) t')
    (root : Layer) :
    Result.Agree (AlikeContents c root) (lowerTree n t) (lowerTree n t') := by
  have hne {e : Element} {b : StyleBundle} {found : Detection}
      (h : lowerTree n t = .ok (e, b, found)) := lowerTree_ne_placeholder h root
  have hagree : Result.Agree (fun x y => x.1.Alike c y.1 ∧ x.2.1 = y.2.1 ∧
      x.2.2.listings = y.2.2.listings ∧
      List.Forall₂ (Repetition.Alike c) x.2.2.repetitions y.2.2.repetitions)
      (lowerTree n t) (lowerTree n t') := by
    refine (Layout.place_agree h none .none).lift.bind fun p p' hp => ?_
    refine (Recognition.recognize_agree hp).bind fun e f he => ?_
    refine (Style.assign_agree hp he {}).bind fun x y hxy => ?_
    obtain ⟨e, r⟩ := x
    obtain ⟨f, r'⟩ := y
    obtain ⟨hef, hr⟩ := hxy
    dsimp only at hef hr ⊢
    rw [hr, Style.bundle_eq hp, Listing.detect_eq hef]
    refine Result.agree_bind_of_eq rfl fun b => Result.agree_bind_of_eq rfl fun listings => ?_
    exact (Repetition.detect_agree hef).bind fun as bs hab => .ok ⟨hef, rfl, rfl, hab⟩
  generalize lowerTree n t = x, lowerTree n t' = y at hne hagree ⊢
  cases hagree with
  | error f => exact .error f
  | @ok x y hxy =>
      obtain ⟨hef, hbundle, hlistings, hrepetitions⟩ := hxy
      exact .ok ⟨fun _ => hef, fun heq => absurd heq (hne rfl), hbundle, hlistings, hrepetitions⟩

theorem placeholder_eq {l m : Layer} (h : l.Alike c m) : placeholder l = placeholder m := by
  rw [placeholder, placeholder, h.id_eq, h.name_eq]

theorem content_agree (o : Options) {a b : Option SafeArea}
    (hab : Option.Rel (SafeArea.Alike c) a b) {d d' root root' : Document}
    (h : d.Related (Layer.Alike c) d') (hroot : root.Related (Layer.Alike c) root') :
    Result.Agree (AlikeContents c d.item) (content o a d root) (content o b d' root') := by
  have happly := Selection.apply_related (selectionOf o b) o.unwrapGroups hroot
  rw [content, content, selectionOf_eq o hab, ← placeholder_eq h.item]
  generalize (selectionOf o b).apply o.unwrapGroups root = t,
    (selectionOf o b).apply o.unwrapGroups root' = t' at happly ⊢
  cases happly with
  | none =>
      -- nothing is left on both sides, and the placeholders are one
      exact .ok ⟨fun hne => absurd rfl hne, fun _ => rfl, rfl, rfl, .nil⟩
  | some ht =>
      simp only [lower]
      split
      · exact .error _
      · exact lowerTree_agree o.naming ht d.item

/-- The two runs of the whole, side by side. -/
theorem ofDocument_agree (o : Options) {d d' : Document} (h : d.Related (Layer.Alike c) d') :
    Result.Agree (Alike c d.item) (ofDocument o d) (ofDocument o d') := by
  rw [ofDocument_eq, ofDocument_eq, ← modal_eq o h]
  refine (safeArea_agree o h).bind fun a b hab => Result.agree_bind_of_eq rfl fun modal => ?_
  have hroot := effectiveRoot_related h modal
  refine (content_agree o hab h hroot).bind fun x y hxy => ?_
  rw [assemble, assemble, Variants.detect_eq hroot, h.item.id_eq, h.item.name_eq]
  exact Result.agree_bind_of_eq rfl fun variants => .ok ⟨rfl, rfl, hxy.lowered, hxy.empty,
    hxy.bundle, ⟨hxy.listings, hxy.repetitions, rfl, rfl, hab⟩⟩

end Screen

end Mockup
