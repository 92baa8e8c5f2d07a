import Mockup.Proofs.Screen.Alike
import Mockup.Proofs.Screen.Totality

namespace Mockup

/-- A layer, or the same one with another text where both texts show something. -/
inductive Layer.Rewords (l : Layer) : Layer → Prop
  | same : Rewords l l
  | other {s t : String} (kind : l.kind = some "TEXT") (text : l.text = some s) (before : s ≠ "")
      (after : t ≠ "") : Rewords l { l with text := some t }

namespace Element

mutual

def textless : Element → Element
  | leaf i l => leaf i l.textless
  | branch i r layout es => branch i r.textless layout (textlessAll es)
  | foreign i v => foreign i v

def textlessAll : List Element → List Element
  | [] => []
  | e :: es => textless e :: textlessAll es

end

theorem textlessAll_eq (es : List Element) : textlessAll es = es.map textless := by
  induction es with
  | nil => rfl
  | cons e es ih => rw [textlessAll, ih, List.map_cons]

end Element

/-- A repetition without the texts that vary in it. The places where they do are kept. -/
def Repetition.textless (r : Repetition) : Repetition :=
  { r with variations := r.variations.map fun v => (v.1, []) }

def Detection.textless (d : Detection) : Detection :=
  { d with repetitions := d.repetitions.map Repetition.textless }

def Screen.textless (s : Screen) : Screen :=
  { s with root := s.root.textless, detection := s.detection.textless }

theorem Traits.isText_reworded {t : Traits} {s s' : String} (htext : t.text = some s) (hs : s ≠ "")
    (hs' : s' ≠ "") : Role.isText { t with text := some s' } = Role.isText t := by
  have hshown {u : String} (hu : u ≠ "") : (!u.isEmpty) = true := by
    rw [Bool.not_eq_true', ← Bool.not_eq_true, String.isEmpty_iff]
    exact hu
  rw [Role.isText, Role.isText, htext, Option.any_some, Option.any_some, hshown hs, hshown hs']
  rfl

theorem Layer.Rewords.alike {l m : Layer} (h : l.Rewords m) : l.Alike .texts m := by
  have hbox : Change.texts.MovesAny l.box l.box := by
    refine ⟨?_, fun h => absurd rfl h⟩
    cases l.box with
    | none => exact .none
    | some b => exact .some (.refl_of_texts b)
  cases h with
  | same => exact ⟨⟨rfl, rfl, fun _ => rfl⟩, hbox, rfl⟩
  | other kind text before after =>
      have hrole := (Traits.isText_reworded text before after).symm
      exact ⟨⟨rfl, hrole, fun h => absurd rfl h⟩, hbox, rfl⟩

theorem Identity.Alike.eq_of_texts {i j : Identity} (h : i.Alike .texts j) : i = j := by
  obtain ⟨id, name, box, styleRef⟩ := j
  obtain ⟨rfl, rfl, rfl, rfl⟩ := h
  rfl

theorem Element.Alike.textless_eq {e f : Element} (h : e.Alike .texts f) :
    e.textless = f.textless := by
  induction e generalizing f with
  | leaf i l =>
      cases h with
      | leaf hi hl => rw [textless, textless, hi.eq_of_texts, hl.textless]
  | foreign i v => cases h
  | branch i r layout es ih =>
      cases h with
      | branch hi hr hes =>
          rw [textless, textless, hi.eq_of_texts, hr.textless, textlessAll_eq, textlessAll_eq,
            Related.map_eq (Related.imp_mem hes ih) fun e f h => h]

theorem Repetition.Alike.textless_eq {c : Change} {a b : Repetition} (h : a.Alike c b) :
    a.textless = b.textless := by
  have hnames := h.variations.names
  have hvariations := congrArg (List.map fun name => (name, ([] : List String))) hnames
  rw [Fields.names, Fields.names, List.map_map, List.map_map] at hvariations
  rw [textless, textless, h.name, h.instanceIds]
  exact congrArg (Repetition.mk b.name b.instanceIds) hvariations

theorem Chrome.Alike.eq_of_texts {a b : Chrome} (h : a.Alike .texts b) : a = b := by
  obtain ⟨id, name, kind, box⟩ := b
  obtain ⟨rfl, rfl, rfl, rfl⟩ := h
  rfl

theorem SafeArea.Alike.eq_of_texts {a b : SafeArea} (h : a.Alike .texts b) : a = b := by
  have hchrome : a.chrome = b.chrome := by
    rw [← List.forall₂_eq_eq_eq]
    exact h.chrome.imp fun _ _ h => h.eq_of_texts
  obtain ⟨insets, chrome, excludedIds, hasLayout⟩ := b
  obtain ⟨rfl, -, rfl, rfl⟩ := h
  cases hchrome
  rfl

theorem Detection.Alike.textless_eq {a b : Detection} (h : a.Alike .texts b) :
    a.textless = b.textless := by
  have hsafeArea : a.safeArea.map (fun x => x) = b.safeArea.map fun x => x :=
    Related.option_map_eq h.safeArea fun _ _ h => h.eq_of_texts
  rw [Option.map_id', Option.map_id'] at hsafeArea
  rw [textless, textless, h.listings, h.modal, h.variants, hsafeArea,
    Related.map_eq h.repetitions fun _ _ h => h.textless_eq]

namespace Screen

theorem Alike.textless_eq {root : Layer} {a b : Screen} (h : a.Alike .texts root b) :
    a.textless = b.textless := by
  have hroot : a.root.textless = b.root.textless := by
    by_cases hempty : (a.root, a.bundle) = placeholder root
    · rw [h.empty hempty]
    · exact (h.lowered hempty).textless_eq
  rw [textless, textless, h.id, h.name, hroot, h.bundle, h.detection.textless_eq]

/-- Documents that differ only in which texts they show become screens that differ only in texts and
in what is made of texts, or they fail for the same reason. -/
theorem ofDocument_reworded (o : Options) {d d' : Document} (h : d.Related Layer.Rewords d') :
    textless <$> ofDocument o d = textless <$> ofDocument o d' := by
  have hagree := ofDocument_agree o (h.imp fun _ _ h => h.alike)
  exact Result.agree_eq_iff.mp (hagree.map fun _ _ h => h.textless_eq)

def buttonOf (text : String) : Document :=
  .node { id := some "1", name := some "Button", kind := some "FRAME",
          box := some { width := some 120, height := some 40 } }
    [.node { id := some "", name := some "Label", kind := some "TEXT", text := some text,
             box := some { width := some 40, height := some 16 } } []]

theorem ofDocument_reworded_buttons :
    (buttonOf "Tea").Related Layer.Rewords (buttonOf "Coffee") ∧
    ∃ s s', ofDocument {} (buttonOf "Tea") = .ok s ∧ ofDocument {} (buttonOf "Coffee") = .ok s' ∧
      s.textless = s'.textless := by
  have hreworded : (buttonOf "Tea").Related Layer.Rewords (buttonOf "Coffee") :=
    .node .same (.cons (.node (.other rfl rfl (by decide) (by decide)) .nil) .nil)
  have hbounded : (buttonOf "Tea").Bounded := by
    refine List.forall_mem_cons.mpr ⟨⟨Traits.bounded_of_isBare rfl, ?_⟩,
      List.forall_mem_singleton.mpr ⟨Traits.bounded_of_isBare rfl, ?_⟩⟩
    all_goals
      rintro b ⟨⟩
      exact Box.bounded_of_ints (k := 7) (by decide) (by decide)
  have hspelled : (buttonOf "Tea").IsSpelled :=
    List.forall_mem_cons.mpr ⟨rfl, List.forall_mem_singleton.mpr rfl⟩
  obtain ⟨s, hs⟩ := ofDocument_succeeds (o := {}) Naming.readable_default hbounded hspelled rfl
  have hequal := ofDocument_reworded {} hreworded
  rw [hs] at hequal
  obtain ⟨s', hs', heq⟩ := Result.map_eq_ok_iff.mp hequal.symm
  exact ⟨hreworded, s, s', hs, hs', heq.symm⟩

end Screen

end Mockup
