import Mockup.Proofs.Screen.Alike

namespace Mockup

def Layer.moved (v : Offset) (l : Layer) : Layer := { l with box := l.box.map (Box.moved v) }

namespace Document

def moved (v : Offset) (d : Document) : Document := Tree.map (Layer.moved v) d

def IsIntegral (d : Document) : Prop := ∀ l ∈ Tree.preorder d, ∃ b, l.box = some b ∧ b.IsIntegral

end Document

def Identity.moved (v : Offset) (i : Identity) : Identity := { i with box := i.box.moved v }

def Element.moved (v : Offset) (e : Element) : Element := e.relabel (Identity.moved v) fun l => l

def Chrome.moved (v : Offset) (c : Chrome) : Chrome := { c with box := c.box.moved v }

def SafeArea.moved (v : Offset) (s : SafeArea) : SafeArea :=
  { s with chrome := s.chrome.map (Chrome.moved v) }

/-- Of what is noticed on a screen it is only chrome that has a place. -/
def Detection.moved (v : Offset) (d : Detection) : Detection :=
  { d with safeArea := d.safeArea.map (SafeArea.moved v) }

def Screen.moved (v : Offset) (s : Screen) : Screen :=
  { s with root := s.root.moved v, detection := s.detection.moved v }

variable {v : Offset}

theorem Layer.alike_moved {l : Layer} (h : ∃ b, l.box = some b ∧ b.IsIntegral) :
    l.Alike (.motion v) (l.moved v) := by
  obtain ⟨b, hbox, hb⟩ := h
  refine ⟨⟨rfl, rfl, fun _ => rfl⟩, ⟨?_, fun _ => ?_⟩, rfl⟩
  · rw [moved, hbox]
    exact .some ⟨hb, rfl⟩
  · rw [hbox]
    rfl

theorem Document.related_moved {d : Document} (h : d.IsIntegral) :
    Tree.Related (Layer.Alike (.motion v)) d (d.moved v) :=
  Tree.related_map fun l hl => Layer.alike_moved (h l hl)

theorem Change.motion_ne_texts (v : Offset) : Change.motion v ≠ .texts := fun h => nomatch h

theorem Identity.Alike.eq_moved {i j : Identity} (h : i.Alike (.motion v) j) : j = i.moved v := by
  obtain ⟨id, name, box, styleRef⟩ := j
  obtain ⟨rfl, rfl, rfl, hbox⟩ := h
  rw [Identity.moved, ← hbox.2]

theorem Element.Alike.eq_moved {e f : Element} (h : e.Alike (.motion v) f) : f = e.moved v := by
  induction e generalizing f with
  | leaf i l =>
      cases h with
      | leaf hi hl =>
          rw [hi.eq_moved, ← hl.same (Change.motion_ne_texts v)]
          rfl
  | foreign i w => cases h
  | branch i r layout es ih =>
      cases h with
      | @branch _ j _ s _ _ fs hi hr hes =>
          have hfs : fs = es.map (moved v) := Related.eq_map hes ih
          rw [hi.eq_moved, ← hr.same (Change.motion_ne_texts v), hfs, moved, relabel_branch]
          rfl

theorem Chrome.Alike.eq_moved {a b : Chrome} (h : a.Alike (.motion v) b) : b = a.moved v := by
  obtain ⟨id, name, kind, box⟩ := b
  obtain ⟨rfl, rfl, rfl, hbox⟩ := h
  rw [Chrome.moved, ← hbox.2]

theorem SafeArea.Alike.eq_moved {a b : SafeArea} (h : a.Alike (.motion v) b) : b = a.moved v := by
  have hchrome : b.chrome = a.chrome.map (Chrome.moved v) :=
    Related.eq_map h.chrome fun _ _ _ h => h.eq_moved
  rw [SafeArea.moved, ← hchrome, h.insets, h.excludedIds, h.hasLayout]

theorem Repetition.Alike.eq {a b : Repetition} (h : a.Alike (.motion v) b) : a = b := by
  have hvariations := h.variations.same (Change.motion_ne_texts v)
  obtain ⟨name, instanceIds, variations⟩ := b
  obtain ⟨rfl, rfl, -⟩ := h
  cases hvariations
  rfl

theorem Detection.Alike.eq_moved {a b : Detection} (h : a.Alike (.motion v) b) :
    b = a.moved v := by
  have hrepetitions : a.repetitions = b.repetitions := by
    rw [← List.forall₂_eq_eq_eq]
    exact h.repetitions.imp fun _ _ h => h.eq
  have hsafeArea : a.safeArea.map (SafeArea.moved v) = b.safeArea :=
    (Related.option_map_eq h.safeArea fun _ _ h => h.eq_moved.symm).trans Option.map_id'
  rw [Detection.moved, hsafeArea, h.listings, hrepetitions, h.modal, h.variants]

namespace Screen

/-- Whether a document with integral boxes stands here or there makes no difference but this: the
boxes of elements and of chrome are moved with it. The placeholder keeps its empty box. -/
theorem ofDocument_moved (o : Options) (v : Offset) {d : Document} (h : d.IsIntegral) :
    (∀ f, ofDocument o d = .error f → ofDocument o (d.moved v) = .error f) ∧
    ∀ s, ofDocument o d = .ok s → ∃ s', ofDocument o (d.moved v) = .ok s' ∧
      ((s.root, s.bundle) ≠ placeholder d.item → s' = s.moved v) ∧
      ((s.root, s.bundle) = placeholder d.item →
        s' = { s with detection := s.detection.moved v }) := by
  have hagree := ofDocument_agree o (Document.related_moved (v := v) h)
  generalize ofDocument o d = x, ofDocument o (d.moved v) = y at hagree ⊢
  cases hagree with
  | error f =>
      refine ⟨fun g hg => hg, ?_⟩
      rintro s ⟨⟩
  | @ok s s' hs =>
      constructor
      · rintro g ⟨⟩
      rintro t ht
      cases ht
      have hmoved : s' = { s with root := s'.root, detection := s.detection.moved v } := by
        rw [hs.id, hs.name, hs.bundle, ← hs.detection.eq_moved]
      refine ⟨s', rfl, fun hne => ?_, fun heq => ?_⟩
      · rw [hmoved, (hs.lowered hne).eq_moved]
        rfl
      · rw [hmoved, ← hs.empty heq]

def statusBarred : Document :=
  .node { id := some "1", name := some "Home", kind := some "FRAME",
          box := some { width := some 375, height := some 812 } }
    [.node { id := some "2", name := some "Status Bar", kind := some "FRAME",
             box := some { width := some 375, height := some 44 } } []]

theorem ofDocument_moved_statusBarred : statusBarred.IsIntegral ∧
    ∃ s, ofDocument {} statusBarred = .ok s ∧
      ofDocument {} (statusBarred.moved ⟨400, -20⟩) = .ok (s.moved ⟨400, -20⟩) := by
  have hintegral : statusBarred.IsIntegral := by
    intro l hl
    rcases List.mem_pair.mp hl with rfl | rfl
    · exact ⟨_, rfl, 0, 0, 375, 812, rfl⟩
    · exact ⟨_, rfl, 0, 0, 375, 44, rfl⟩
  have hrun : ((ofDocument {} statusBarred).toOption.map fun s =>
      Fields.names s.bundle.styles) = some ["home"] := by decide +kernel
  refine ⟨hintegral, ?_⟩
  have hmoved := (ofDocument_moved {} ⟨400, -20⟩ hintegral).2
  cases h : ofDocument {} statusBarred with
  | error f =>
      rw [h] at hrun
      cases hrun
  | ok s =>
      rw [h] at hrun
      have hnames : Fields.names s.bundle.styles = ["home"] := Option.some.inj hrun
      have hne := ne_placeholder_of_names (by rw [hnames]; decide) statusBarred.item
      obtain ⟨s', hs', heq, -⟩ := hmoved s h
      exact ⟨s, rfl, hs'.trans (congrArg Except.ok (heq hne))⟩

def hiddenScreen : Document :=
  .node { id := some "1", name := some "Home", kind := some "FRAME",
          box := some { width := some 375, height := some 812 }, visible := false } []

/-- The placeholder for a hidden screen has the same place wherever the screen is. -/
theorem not_moved_hiddenScreen : hiddenScreen.IsIntegral ∧
    ∃ s s', ofDocument {} hiddenScreen = .ok s ∧
      ofDocument {} (hiddenScreen.moved ⟨1, 0⟩) = .ok s' ∧ s' ≠ s.moved ⟨1, 0⟩ := by
  have hrun : (ofDocument {} hiddenScreen >>= fun s =>
      ofDocument {} (hiddenScreen.moved ⟨1, 0⟩) >>= fun s' => .ok (s.root.box, s'.root.box)) =
      .ok ({}, {}) := by decide
  obtain ⟨s, hs, hrun⟩ := Result.bind_eq_ok_iff.mp hrun
  obtain ⟨s', hs', hrun⟩ := Result.bind_eq_ok_iff.mp hrun
  obtain ⟨hbox, hbox'⟩ := Prod.mk.inj (Except.ok.inj hrun)
  refine ⟨fun l hl => ?_, s, s', hs, hs', fun heq => ?_⟩
  · rw [List.mem_singleton.mp hl]
    exact ⟨_, rfl, 0, 0, 375, 812, rfl⟩
  · have hroot : s'.root.box = s.root.box.moved ⟨1, 0⟩ := by
      rw [heq]
      exact congrArg Identity.box (Element.identity_relabel _ _ _)
    rw [hbox, hbox'] at hroot
    revert hroot
    decide

end Screen

end Mockup
