import Mockup.Proofs.Style.Entries
import Mockup.Proofs.Style.Tables

namespace Mockup

namespace Style

def colors (s : Style) : List String :=
  [Fields.text? s "backgroundColor", Fields.text? s "borderColor",
    Fields.text? (Fields.nested s "shadow") "color",
    Fields.text? (Fields.nested s "typography") "color"].filterMap fun c => c

/-- The only radius of a style, or one of the radii of its corners. -/
def HasRadius (s : Style) (n : Number) : Prop :=
  Fields.get? "borderRadius" s = some (.number n) ∨
    ∃ corners, Fields.get? "borderRadius" s = some (.object corners) ∧
      .number n ∈ corners.map Prod.snd

def typeFace? (s : Style) : Option Fields := (Fields.get? "typography" s).map Value.fields

end Style

namespace Tokens

open Style Result

section Styles

variable {styles : List Style} (hstyles : ∀ s ∈ styles, IsTokenable s)

theorem get?_eq_map_text {fields : Fields} {name : String}
    (h : ∀ v, Fields.get? name fields = some v → IsColor v) :
    Fields.get? name fields = (Fields.text? fields name).map Value.text := by
  rw [Fields.text?]
  cases hget : Fields.get? name fields with
  | none => rfl
  | some v =>
      obtain ⟨c, -, rfl⟩ := h v hget
      rfl

theorem present_eq {values : List (Option Value)}
    (h : ∀ value ∈ values, ∀ v, value = some v → v.isVacant = false) :
    present values = values.filterMap fun v => v := by
  refine List.filter_eq_self.mpr fun v hv => ?_
  obtain ⟨value, hvalue, hsome⟩ := List.mem_filterMap.mp hv
  rw [h value hvalue v hsome]
  rfl

theorem isVacant_of_isColor {v : Value} (h : IsColor v) : v.isVacant = false := by
  obtain ⟨c, hc, rfl⟩ := h
  simpa [Value.isVacant] using hc

theorem isColor_nested {s : Style} {name : String}
    (h : ∀ v, Fields.get? name s = some v → ∃ fields, v = .object fields ∧
      ∃ c, Fields.get? "color" fields = some c ∧ IsColor c) :
    ∀ v, Fields.get? "color" (Fields.nested s name) = some v → IsColor v := by
  intro v hv
  rw [Fields.nested] at hv
  split at hv
  · next fields hget =>
      obtain ⟨fields', heq, c, hc, hcolor⟩ := h _ hget
      cases heq
      rw [hc] at hv
      exact Option.some.inj hv ▸ hcolor
  · cases hv

theorem styleColors_eq {s : Style} (h : IsTokenable s) :
    styleColors s = s.colors.map Value.text := by
  have hshadow := isColor_nested fun v hv =>
    have ⟨fields, heq, _, _, hc⟩ := h.shadow v hv
    ⟨fields, heq, hc⟩
  have htypography := isColor_nested fun v hv =>
    have ⟨fields, heq, _, hc⟩ := h.typography v hv
    ⟨fields, heq, hc⟩
  rw [styleColors, present_eq]
  · rw [get?_eq_map_text h.background, get?_eq_map_text h.border, get?_eq_map_text hshadow,
      get?_eq_map_text htypography, Style.colors, List.map_filterMap]
    simp only [List.filterMap_cons, List.filterMap_nil]
  · simp only [List.forall_mem_cons]
    exact ⟨fun v hv => isVacant_of_isColor (h.background v hv),
      fun v hv => isVacant_of_isColor (h.border v hv),
      fun v hv => isVacant_of_isColor (hshadow v hv),
      fun v hv => isVacant_of_isColor (htypography v hv), List.forall_mem_nil _⟩

theorem styleRadii_spec {s : Style} (h : IsTokenable s) {values : List Value}
    (hvalues : styleRadii s = .ok values) :
    (∀ v ∈ values, IsRadius v) ∧ ∀ n, .number n ∈ values ↔ s.HasRadius n := by
  rw [styleRadii] at hvalues
  split at hvalues
  · next corners hget =>
      split at hvalues
      · cases hvalues
        rcases h.radius _ hget with ⟨m, hm, -⟩ | ⟨corners', heq, hcorners⟩
        · cases hm
        · cases heq
          exact ⟨List.forall_mem_map.mpr hcorners, fun n => by simp [HasRadius, hget]⟩
      · cases hvalues
  · next v hnot hget =>
      cases hvalues
      rcases h.radius v hget with ⟨m, rfl, hm⟩ | ⟨corners, rfl, -⟩
      · refine ⟨List.forall_mem_singleton.mpr ⟨m, rfl, hm⟩, fun n => ?_⟩
        simp [HasRadius, hget, Value.asNumber?, eq_comm]
      · exact absurd rfl (hnot corners)
  · next hget =>
      cases hvalues
      exact ⟨List.forall_mem_nil _, fun n => by simp [HasRadius, hget]⟩

theorem ascends_radii {values : List Value} (h : ∀ v ∈ values, IsRadius v) :
    Ascends "radius" (fun n => .number n ∈ values ∧ Number.lt 0 n = true)
      (enumerate "radius" (((distinctBy Value.same values).filter fun v =>
        Number.lt 0 (magnitude v)).mergeSort fun a b => !(magnitude b).lt (magnitude a))) := by
  have hfirsts : Firsts id values (distinctBy Value.same values) := by
    refine firsts_distinctBy fun a ha b hb => ?_
    obtain ⟨m, rfl, hm, hm'⟩ := h a ha
    obtain ⟨n, rfl, hn, hn'⟩ := h b hb
    exact (Value.IsAtom.number hm hm').same_iff (.number hn hn')
  have hnodup : (distinctBy Value.same values).Nodup := by simpa using hfirsts.nodup
  generalize hpositive : ((distinctBy Value.same values).filter fun v =>
    Number.lt 0 (magnitude v)) = positive
  have hmem (v : Value) : v ∈ positive ↔ v ∈ values ∧ Number.lt 0 (magnitude v) = true := by
    have hpicked : v ∈ distinctBy Value.same values ↔ v ∈ values := by
      simpa using hfirsts.mem_map_iff (k := v)
    rw [← hpositive, List.mem_filter, hpicked]
  have hself : ∀ v ∈ positive, v = .number (magnitude v).normalize := by
    intro v hv
    obtain ⟨n, rfl, hn, -⟩ := h v ((hmem v).mp hv).1
    exact congrArg Value.number (Number.normalize_of_isNormal hn).symm
  rw [← List.map_id (List.mergeSort _ _)]
  refine ascends_mergeSort (fun v hv => ?_) ?_ _ hself fun n => ?_
  · exact (Number.ne_nan_of_lt ((hmem v).mp hv).2).2
  · refine List.Nodup.map_on (fun v hv w hw heq => ?_) (hpositive ▸ hnodup.filter _)
    rw [hself v hv, heq, ← hself w hw]
  · constructor
    · rintro ⟨v, hv, rfl⟩
      obtain ⟨hvalues, hpos⟩ := (hmem v).mp hv
      exact ⟨hself v hv ▸ hvalues, (Number.lt_normalize 0 _).trans hpos⟩
    · rintro ⟨hn, hpos⟩
      have hv : Value.number n ∈ positive := (hmem _).mpr ⟨hn, hpos⟩
      exact ⟨_, hv, (Value.number.inj (hself _ hv)).symm⟩

include hstyles

theorem colorsOf_spec : ∃ picked, Firsts id (styles.flatMap Style.colors) picked ∧
    colorsOf styles = numbered "color" (picked.map Value.text) := by
  have hcolors : styles.flatMap styleColors = (styles.flatMap Style.colors).map Value.text := by
    rw [List.map_flatMap]
    exact List.flatMap_congr fun s hs => styleColors_eq (hstyles s hs)
  refine ⟨distinctBy (fun a b => (Value.text a).same (.text b)) (styles.flatMap Style.colors),
    firsts_distinctBy fun a _ b _ => by simp [Value.same], ?_⟩
  rw [colorsOf, enumerate_eq, hcolors, distinctBy_map]

theorem shadowsOf_spec : ∃ picked, Firsts id (styles.filterMap (Fields.get? "shadow")) picked ∧
    shadowsOf styles = numbered "shadow" picked := by
  have hshadows : ∀ v ∈ styles.filterMap (Fields.get? "shadow"), IsShadow v := by
    intro v hv
    obtain ⟨s, hs, hget⟩ := List.mem_filterMap.mp hv
    exact (hstyles s hs).shadow v hget
  have hpresent : present (styles.map fun s => Fields.get? "shadow" s) =
      styles.filterMap (Fields.get? "shadow") := by
    rw [present_eq, List.filterMap_map]
    · rfl
    · refine List.forall_mem_map.mpr fun s hs v hv => ?_
      obtain ⟨fields, rfl, -, -, c, hc, -⟩ := (hstyles s hs).shadow v hv
      exact List.isEmpty_eq_false_iff.mpr (List.ne_nil_of_mem (Fields.mem_of_get? hc))
  refine ⟨distinctBy Value.same (styles.filterMap (Fields.get? "shadow")),
    firsts_distinctBy fun a ha b hb => ?_, ?_⟩
  · obtain ⟨as, rfl, hnames, hatoms, -⟩ := hshadows a ha
    obtain ⟨bs, rfl, hnames', hatoms', -⟩ := hshadows b hb
    rw [Value.same_object_iff (hnames.trans hnames'.symm) (hnames ▸ by decide) hatoms hatoms',
      id, id, Value.object.injEq]
  · rw [shadowsOf, enumerate_eq, hpresent]

theorem typographyOf_spec : ∃ picked, Firsts face (styles.filterMap typeFace?) picked ∧
    typographyOf styles = numbered "text" (picked.map faceEntry) := by
  have hfaces : ∀ ty ∈ styles.filterMap typeFace?, ∀ f ∈ face ty, f.2.IsAtom := by
    intro ty hty
    obtain ⟨s, hs, hface⟩ := List.mem_filterMap.mp hty
    obtain ⟨v, hv, rfl⟩ := Option.map_eq_some_iff.mp hface
    obtain ⟨fields, rfl, hatoms, -⟩ := (hstyles s hs).typography v hv
    refine List.forall_mem_map.mpr fun name hname => ?_
    obtain ⟨a, ha, hatom⟩ := hatoms name hname
    rw [Value.fields, ha]
    exact hatom
  have hpresent : (styles.map fun s => Fields.nested s "typography").filter (fun t => !t.isEmpty) =
      styles.filterMap typeFace? := by
    rw [List.filter_map, ← List.filterMap_eq_map, List.filterMap_filter]
    refine List.filterMap_congr fun s hs => ?_
    rw [typeFace?, Function.comp]
    cases hget : Fields.get? "typography" s with
    | none => simp [Fields.nested, hget]
    | some v =>
        obtain ⟨fields, rfl, -, c, hc, -⟩ := (hstyles s hs).typography v hget
        have hne := List.isEmpty_eq_false_iff.mpr (List.ne_nil_of_mem (Fields.mem_of_get? hc))
        simp [Fields.nested, hget, hne, Value.fields]
  refine ⟨distinctBy (fun a b => (Value.object (face a)).same (.object (face b)))
    (styles.filterMap typeFace?), firsts_distinctBy fun a ha b hb => ?_, ?_⟩
  · have hnodup : (Fields.names (face a)).Nodup := by simp [Fields.names, face]
    rw [Value.same_object_iff (by simp [Fields.names, face]) hnodup (hfaces a ha) (hfaces b hb)]
  · rw [typographyOf, enumerate_eq, hpresent]

theorem radiiOf_spec {radii : Fields} (h : radiiOf styles = .ok radii) :
    Ascends "radius" (fun n => (∃ s ∈ styles, s.HasRadius n) ∧ Number.lt 0 n = true) radii := by
  obtain ⟨all, hall, h⟩ := bind_eq_ok_iff.mp h
  cases h
  have hmem (n : Number) : .number n ∈ all.flatten ↔ ∃ s ∈ styles, s.HasRadius n :=
    mem_flatten_of_mapM_eq_ok hall fun s hs _ h => (styleRadii_spec (hstyles s hs) h).2 n
  simp only [← hmem]
  refine ascends_radii fun v hv => ?_
  obtain ⟨values, hvalues, hv⟩ := List.mem_flatten.mp hv
  obtain ⟨s, hs, hvalues⟩ := exists_of_mapM_eq_ok hall hvalues
  exact (styleRadii_spec (hstyles s hs) hvalues).1 v hv

end Styles

theorem mem_layoutSpacing {l : Layout} {ns : List Number} (h : layoutSpacing l = .ok ns)
    {n : Number} : n ∈ ns ↔ l.Spaces n ∧ Number.lt 0 n = true := by
  obtain ⟨all, hall, h⟩ := bind_eq_ok_iff.mp h
  cases h
  have hknown {x : Option Number} {m : Number} (hx : Number.known x = .ok m) : x = some m := by
    cases x <;> cases hx
    rfl
  have hmem : n ∈ all ↔ some n ∈ l.gap :: l.padding.toList := by
    constructor
    · intro hn
      obtain ⟨x, hx, heq⟩ := exists_of_mapM_eq_ok hall hn
      exact hknown heq ▸ hx
    · intro hn
      obtain ⟨m, hm, heq⟩ := exists_mem_of_mapM_eq_ok hall hn
      exact Option.some.inj (hknown heq) ▸ hm
  rw [List.mem_filter, hmem, List.mem_cons, Layout.Spaces, eq_comm]

theorem spacingOf_spec {t : Tree Placed} {spacing : Fields} (h : spacingOf (some t) = .ok spacing) :
    Ascends "spacing" (fun n => ∃ p ∈ t.preorder, ∃ m, p.layout.Spaces m ∧ Number.lt 0 m = true ∧
      m.normalize = n) spacing := by
  obtain ⟨all, hall, h⟩ := bind_eq_ok_iff.mp h
  cases h
  have hmem (n : Number) : n ∈ all.flatten ↔
      ∃ p ∈ t.preorder, p.layout.Spaces n ∧ Number.lt 0 n = true :=
    mem_flatten_of_mapM_eq_ok hall fun _ _ _ h => mem_layoutSpacing h
  have hdefined : ∀ n ∈ all.flatten, n ≠ .real .nan := by
    intro n hn
    obtain ⟨p, -, -, hpos⟩ := (hmem n).mp hn
    exact (Number.ne_nan_of_lt hpos).2
  have hfirsts : Firsts Number.normalize all.flatten (distinctBy Number.eq all.flatten) :=
    firsts_distinctBy fun m hm n _ => Number.eq_eq_true_iff_normalize_eq (hdefined m hm)
  refine ascends_mergeSort (fun n hn => hdefined n (hfirsts.subset hn)) hfirsts.nodup _
    (fun _ _ => rfl) fun n => ?_
  rw [← List.mem_map, hfirsts.mem_map_iff, List.mem_map]
  constructor
  · rintro ⟨m, hm, rfl⟩
    obtain ⟨p, hp, hspaces, hpos⟩ := (hmem m).mp hm
    exact ⟨p, hp, m, hspaces, hpos, rfl⟩
  · rintro ⟨p, hp, m, hspaces, hpos, rfl⟩
    exact ⟨m, (hmem m).mpr ⟨p, hp, hspaces, hpos⟩, rfl⟩

/-- What the tokens of styles and of the tree that they are for should be. -/
structure AreComplete (t : Tree Placed) (styles : List Style) (tokens : Tokens) : Prop where
  colors : ∃ picked, Firsts id (styles.flatMap Style.colors) picked ∧
    tokens.colors = numbered "color" (picked.map Value.text)
  shadows : ∃ picked, Firsts id (styles.filterMap (Fields.get? "shadow")) picked ∧
    tokens.shadows = numbered "shadow" picked
  typography : ∃ picked, Firsts face (styles.filterMap typeFace?) picked ∧
    tokens.typography = numbered "text" (picked.map faceEntry)
  radii : Ascends "radius" (fun n => (∃ s ∈ styles, s.HasRadius n) ∧ Number.lt 0 n = true)
    tokens.radii
  spacing : Ascends "spacing" (fun n => ∃ p ∈ t.preorder, ∃ m, p.layout.Spaces m ∧
    Number.lt 0 m = true ∧ m.normalize = n) tokens.spacing
  spaced : ∀ s ∈ styles, ∀ n, s.Spaces n → Number.lt 0 n = true →
    .number n ∈ tokens.spacing.map Prod.snd

theorem Ascends.mem_iff {name : String} {P : Number → Prop} {table : Fields}
    (h : Ascends name P table) {n : Number} : .number n ∈ table.map Prod.snd ↔ P n := by
  obtain ⟨ns, rfl, -, hP⟩ := h
  rw [map_snd_numbered, ← hP]
  simp

theorem areComplete_of {t : Tree Placed} (hdefined : ∀ p ∈ t.preorder, p.IsDefined)
    {styles : List (String × Style)} (hstyles : ∀ e ∈ styles, ∃ p ∈ t.preorder, SaysOf p e.2)
    {tokens : Tokens} (h : Tokens.of styles (some t) = .ok tokens) :
    AreComplete t (styles.map Prod.snd) tokens := by
  have htokenable : ∀ s ∈ styles.map Prod.snd, IsTokenable s := by
    refine List.forall_mem_map.mpr fun e he => ?_
    obtain ⟨p, hp, hsays⟩ := hstyles e he
    exact hsays.isTokenable (hdefined p hp)
  obtain ⟨spacing, hspacing, h⟩ := bind_eq_ok_iff.mp h
  obtain ⟨radii, hradii, h⟩ := bind_eq_ok_iff.mp h
  cases h
  have hspacing := spacingOf_spec hspacing
  refine ⟨colorsOf_spec htokenable, shadowsOf_spec htokenable, typographyOf_spec htokenable,
    radiiOf_spec htokenable hradii, hspacing, List.forall_mem_map.mpr fun e he n hn hpos => ?_⟩
  obtain ⟨p, hp, hsays⟩ := hstyles e he
  obtain ⟨m, hm, rfl⟩ := hsays.spaces hn
  exact hspacing.mem_iff.mpr ⟨p, hp, m, hm, (Number.lt_normalize 0 m).symm.trans hpos, rfl⟩

end Tokens

namespace Style

/-- In the bundle of a recognized tree tokens are complete and free of duplicates. The numbers of
shadows, corners and type faces have to be defined, and positions plain, as they are in every tree
that was laid out. -/
theorem areComplete_of_assign {n : Naming} {t : Tree Placed} {e e' : Element} {r : Registry}
    {b : StyleBundle} (hposition : ∀ p ∈ t.preorder, p.HasPlainPosition)
    (hdefined : ∀ p ∈ t.preorder, p.IsDefined) (he : Recognition.recognize n t = .ok e)
    (ha : assign t {} e = .ok (e', r)) (hb : r.bundle t = .ok b) :
    Tokens.AreComplete t (b.styles.map Prod.snd) b.tokens := by
  obtain ⟨tokens, htokens, hb⟩ := Result.bind_eq_ok_iff.mp hb
  cases hb
  exact Tokens.areComplete_of hdefined (saysOf_of_assign hposition he ha)
    (Result.lift_eq_ok_iff.mp htokens)

def book (id : String) (y : Int) : Placed where
  id := some id
  name := some "Book"
  kind := some "FRAME"
  fills := [⟨.solid { red := 255, green := 204 }, some 1⟩]
  effects := [.dropShadow { offsetY := some 2, radius := some 4 }]
  cornerRadius := some (.uniform 6)
  box := ⟨some 0, some (.int y), some 80, some 20⟩
  layout := { flow := .row, gap := some 4 }
  position := some [("position", .text "absolute")]

def shelf : Placed where
  id := some "1"
  name := some "Shelf"
  kind := some "FRAME"
  typography := some {}
  box := ⟨some 0, some 0, some 80, some 48⟩
  layout := { flow := .column, gap := some 8 }

def shelves : Tree Placed := .node shelf [.node (book "2" 0) [], .node (book "3" 28) []]

theorem forall_shelves {P : Placed → Prop} : (∀ p ∈ shelves.preorder, P p) ↔
    P shelf ∧ P (book "2" 0) ∧ P (book "3" 28) := by
  simp [shelves, Tree.preorder, Tree.preorderAll]

theorem isLaidOut_book (id : String) {y : Int} (hy : y.natAbs ≤ 2 ^ 7) : (book id y).IsLaidOut where
  block := by
    refine ⟨⟨by simp [book], ?_, by simp [book], ?_, by simp [book], by simp [book]⟩, ?_⟩
    · refine List.forall_mem_singleton.mpr ⟨⟨1, rfl, Number.isShare_one⟩, ?_⟩
      exact List.forall_mem_singleton.mpr ⟨_, rfl, Number.isShare_ofInt_one⟩
    · refine List.forall_mem_singleton.mpr ?_
      rintro _ ⟨⟩
      exact ⟨_, rfl, Number.isShare_ofInt_one⟩
    · exact Box.bounded_of_ints (k := 7) (by decide) (by simp; omega)
  layout := by simp [Layout.IsSpaced, book, Padding.toList]
  position := List.forall_mem_singleton.mpr (.text _)

theorem isLaidOut_shelf : shelf.IsLaidOut where
  block := ⟨Traits.bounded_of_isBare rfl, Box.bounded_of_ints (k := 7) (by decide) (by decide)⟩
  layout := by simp [Layout.IsSpaced, shelf, Padding.toList]
  position := by simp [shelf]

theorem areComplete_of_assign_shelves : ∃ e e' r b, Recognition.recognize {} shelves = .ok e ∧
    assign shelves {} e = .ok (e', r) ∧ r.bundle shelves = .ok b ∧
    Tokens.AreComplete shelves (b.styles.map Prod.snd) b.tokens ∧
    .number 4 ∈ b.tokens.spacing.map Prod.snd := by
  have hlaidOut : ∀ p ∈ shelves.preorder, p.IsLaidOut := forall_shelves.mpr
    ⟨isLaidOut_shelf, isLaidOut_book "2" (by decide), isLaidOut_book "3" (by decide)⟩
  have hposition : ∀ p ∈ shelves.preorder, p.HasPlainPosition := by
    simp [forall_shelves, Placed.HasPlainPosition, Fields.names, shelf, book, tokenNames]
  have hbooks (id : String) (y : Int) : (book id y).IsDefined :=
    ⟨by simp [book], by simp [book, CornerRadius.radii], by simp [book]⟩
  have hdefined : ∀ p ∈ shelves.preorder, p.IsDefined := forall_shelves.mpr
    ⟨⟨by simp [shelf], by simp [shelf], by simp [shelf]⟩, hbooks "2" 0, hbooks "3" 28⟩
  have hnames : (Recognition.recognize {} shelves >>= fun e => .ok (e.nodes.map Element.variant)) =
      .ok ["Container", "Repeater", "Container", "Container"] := by decide +kernel
  obtain ⟨e, he, -⟩ := Result.bind_eq_ok_iff.mp hnames
  obtain ⟨⟨e', r⟩, ha⟩ := assign_succeeds hlaidOut (forall_shelves.mpr ⟨rfl, rfl, rfl⟩)
    (Recognition.recognize_closed he) {}
  obtain ⟨b, hb⟩ := bundle_succeeds hlaidOut ha
  have hcomplete := areComplete_of_assign hposition hdefined he ha hb
  have hbook : book "2" 0 ∈ shelves.preorder := by
    simp [shelves, Tree.preorder, Tree.preorderAll]
  exact ⟨e, e', r, b, he, ha, hb, hcomplete, hcomplete.spacing.mem_iff.mpr
    ⟨_, hbook, 4, .inl rfl, by decide +kernel, rfl⟩⟩

end Style

end Mockup
