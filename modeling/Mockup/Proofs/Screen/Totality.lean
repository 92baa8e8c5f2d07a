import Mockup.Proofs.Element.Bounds
import Mockup.Proofs.Layer.Selection
import Mockup.Proofs.Layer.Spelling
import Mockup.Proofs.Number.Exact
import Mockup.Proofs.Screen.Bounds
import Mockup.Proofs.Screen.Stages
import Mockup.Proofs.Style.Totality

namespace Mockup

open Result

theorem Layer.Becomes.bounded {l : Layer} {b : Block} (h : l.Becomes b) (hl : l.Bounded) :
    b.Bounded where
  traits := by
    rw [h.traits]
    exact ⟨hl.traits.id, hl.traits.fills, hl.traits.strokes, hl.traits.effects, hl.traits.corners,
      hl.traits.spacing⟩
  box := by
    rw [h.box]
    cases hbox : l.box with
    | none => exact Box.bounded_default
    | some box => exact hl.box box hbox

namespace Screen

variable {o : Options} {d : Document}

theorem forall_effectiveRoot {P : Layer → Prop} (hd : ∀ l ∈ d.preorder, P l)
    (modal : Option (Option Modal)) : ∀ l ∈ (effectiveRoot d modal).preorder, P l :=
  fun l hl => hd l ((Tree.preorder_sublist (effectiveRoot_mem_subtrees d modal)).subset hl)

theorem lowerTree_succeeds {n : Naming} (hn : n.Readable) {t : Tree Block}
    (ht : ∀ b ∈ t.preorder, b.Bounded) (hspelled : ∀ b ∈ t.preorder, b.isSpelled = true) :
    Succeeds (lowerTree n t) := by
  have hlaidOut : Yields (fun p => ∀ q ∈ p.preorder, q.IsLaidOut) (Layout.place none none t) :=
    Layout.place_yields ht (by simp)
  have hplace : Yields (fun p => ∀ q ∈ p.preorder, q.IsLaidOut ∧ q.isSpelled = true)
      (Layout.place none none t) := by
    obtain ⟨placed, hplaced, hall⟩ := hlaidOut
    refine ⟨placed, hplaced, fun q hq => ⟨hall q hq, hspelled q.toBlock ?_⟩⟩
    rw [← Layout.map_toBlock_place hplaced]
    exact List.mem_map_of_mem hq
  refine hplace.lift.andThen fun placed hall => ?_
  obtain ⟨hplaced, hspelled⟩ := forall₂_and.mp hall
  refine (Recognition.recognize_succeeds hn fun p hp => (hplaced p hp).complete).bind
    fun e he => ?_
  have hclosed := Recognition.recognize_closed he
  refine (Style.assign_succeeds hplaced hspelled hclosed {}).bind ?_
  rintro ⟨e', registry⟩ ha
  refine (Style.bundle_succeeds hplaced ha).bind fun bundle _ => ?_
  have hbounded := Recognition.bounded_nodes_of_recognize hplaced he
  have hbounded := Style.bounded_nodes_of_assign hbounded ha
  have hclosed := Style.closed_of_assign hclosed ha
  refine (Listing.detect_succeeds hclosed hbounded).bind fun listings _ => ?_
  obtain ⟨repetitions, hrepetitions, -⟩ := Repetition.detect_eq_ok hclosed
  exact Succeeds.bind ⟨repetitions, hrepetitions⟩ fun _ _ => succeeds_ok _

/-- Only a pattern of no use is a fault. -/
theorem content_eq_error (hn : o.naming.Readable) {safeArea : Option SafeArea} {root : Document}
    (hroot : root.Bounded) (hspelled : root.IsSpelled) {fault : Fault}
    (h : content o safeArea d root = .error fault) :
    o.patternFault = some fault := by
  rw [content] at h
  split at h
  · next t ht =>
      rw [lower] at h
      split at h
      · next hfault =>
          cases h
          exact hfault
      · refine absurd h (lowerTree_succeeds hn (fun b hb => ?_) fun b hb => ?_).ne_error
        · obtain ⟨l, hl, -, hbecomes⟩ := Selection.exists_layer_of_mem_apply ht hb
          exact hbecomes.bounded (hroot l hl)
        · obtain ⟨l, hl, -, hbecomes⟩ := Selection.exists_layer_of_mem_apply ht hb
          rw [hbecomes.traits]
          exact hspelled l hl
  · cases h

theorem safeArea?_succeeds (o : Options) (hd : d.Bounded) : Succeeds (safeArea? o d) := by
  refine Succeeds.ite (fun _ => ?_) fun _ => succeeds_ok _
  obtain ⟨safeArea, hsafeArea⟩ := (SafeArea.detect_succeeds hd).lift
  exact ⟨some safeArea, map_eq_ok_iff.mpr ⟨safeArea, hsafeArea, rfl⟩⟩

theorem modal?_succeeds (o : Options) (hd : d.Bounded) : Succeeds (modal? o d) := by
  refine Succeeds.ite (fun _ => ?_) fun _ => succeeds_ok _
  obtain ⟨modal, hmodal⟩ := (Modal.detect?_succeeds hd).lift
  exact ⟨some modal, map_eq_ok_iff.mpr ⟨modal, hmodal, rfl⟩⟩

/-- Nothing else about a bounded document is a fault if its layers can be named. -/
theorem ofDocument_eq_error (hn : o.naming.Readable) (hd : d.Bounded) (hspelled : d.IsSpelled)
    {fault : Fault} (h : ofDocument o d = .error fault) : o.patternFault = some fault := by
  rw [ofDocument_eq] at h
  rcases bind_eq_error_iff.mp h with h | ⟨safeArea, -, h⟩
  · exact absurd h (safeArea?_succeeds o hd).ne_error
  rcases bind_eq_error_iff.mp h with h | ⟨modal, -, h⟩
  · exact absurd h (modal?_succeeds o hd).ne_error
  have hroot : (effectiveRoot d modal).Bounded := forall_effectiveRoot hd modal
  rcases bind_eq_error_iff.mp h with h | ⟨shown, -, h⟩
  · exact content_eq_error hn hroot (forall_effectiveRoot hspelled modal) h
  · refine absurd h (Succeeds.ne_error ?_)
    exact (Variants.detect_succeeds hroot).lift.bind fun _ _ => succeeds_ok _

theorem ofDocument_succeeds (hn : o.naming.Readable) (hd : d.Bounded) (hspelled : d.IsSpelled)
    (hfault : o.patternFault = none) : Succeeds (ofDocument o d) := by
  cases h : ofDocument o d with
  | ok s => exact succeeds_ok s
  | error fault => cases hfault.symm.trans (ofDocument_eq_error hn hd hspelled h)

/-- A document whose coordinates are integers of magnitude at most 2^500, whose opacities and alphas
lie between zero and one, in which no id, no spacing and no radius is null, and whose families can
be spelled, shows a screen under all options with the usual naming and with patterns that are texts.
Under other patterns the first one that is no text is the only fault there can be. -/
theorem ofDocument_total (hn : o.naming = {}) (hd : d.Bounded) (hspelled : d.IsSpelled) :
    (o.patternFault = none → ∃ s, ofDocument o d = .ok s) ∧
      ∀ fault, ofDocument o d = .error fault → o.patternFault = some fault := by
  have hreadable : o.naming.Readable := hn ▸ Naming.readable_default
  exact ⟨ofDocument_succeeds hreadable hd hspelled,
    fun _ => ofDocument_eq_error hreadable hd hspelled⟩

def shape (id kind : String) (fills : List Fill) (box : Option Box)
    (typography : Option Typography := none) : Layer :=
  { id := some id, name := some kind, kind := some kind, fills, box, typography }

theorem bounded_shape {id kind : String} {fills : List Fill} {box : Option Box}
    {typography : Option Typography} (hfills : ∀ f ∈ fills, f.Bounded)
    (hbox : ∀ b, box = some b → b.Bounded) : (shape id kind fills box typography).Bounded where
  traits := ⟨by simp [shape], hfills, by simp [shape], by simp [shape], by simp [shape],
    by simp [shape]⟩
  box := hbox

/-- A frame of no size around an inverted rectangle and a text without a box. -/
def oddShapes : Document :=
  .node (shape "1" "FRAME" [] (some {}))
    [.node (shape "2" "RECTANGLE" [⟨.solid {}, some (.int 1)⟩]
      (some ⟨some (.int 3), some (.int 4), some (.int (-5)), some (.int (-2 ^ 9))⟩)) [],
    .node (shape "3" "TEXT" [] none (some { fontFamily := .named "Ωmega" })) []]

theorem ofDocument_total_oddShapes :
    oddShapes.Bounded ∧ oddShapes.IsSpelled ∧ ∃ s, ofDocument {} oddShapes = .ok s := by
  have hfill : Fill.Bounded ⟨.solid {}, some (.int 1)⟩ :=
    ⟨⟨_, rfl, Number.isShare_one⟩,
      List.forall_mem_singleton.mpr ⟨_, rfl, Number.isShare_ofInt_one⟩⟩
  have hbounded : oddShapes.Bounded := by
    refine List.forall_mem_cons.mpr ⟨bounded_shape (by simp) ?_, List.forall_mem_cons.mpr
      ⟨bounded_shape (List.forall_mem_singleton.mpr hfill) ?_, List.forall_mem_singleton.mpr
        (bounded_shape (by simp) (by simp))⟩⟩
    · rintro b ⟨⟩
      exact Box.bounded_default
    · rintro b ⟨⟩
      exact Box.bounded_of_ints (k := 9) (by decide) (by decide)
  have hspelled : oddShapes.IsSpelled := List.forall_mem_cons.mpr
    ⟨rfl, List.forall_mem_cons.mpr ⟨rfl, List.forall_mem_singleton.mpr rfl⟩⟩
  exact ⟨hbounded, hspelled, (ofDocument_total rfl hbounded hspelled).1 rfl⟩

/-- A text in a family whose name is half a surrogate pair. -/
def tornNote : Document :=
  .node (shape "1" "TEXT" [] none (some { fontFamily := .torn [0xD800] rfl })) []

/-- Nothing but the name of the family is wrong with the text, and its style has no digest. -/
theorem not_total_tornNote : tornNote.Bounded ∧ ∀ s, ofDocument {} tornNote ≠ .ok s := by
  have hbounded : tornNote.Bounded :=
    List.forall_mem_singleton.mpr (bounded_shape (by simp) (by simp))
  have hfault : (ofDocument {} tornNote).map (fun _ => ()) = .error .halfPair := by decide +kernel
  refine ⟨hbounded, fun s hs => ?_⟩
  rw [hs] at hfault
  cases hfault

end Screen

end Mockup
