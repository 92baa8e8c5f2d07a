import Mockup.Proofs.Box.Rect
import Mockup.Proofs.Number.Order
import Mockup.Proofs.Screen.Overlays
import Mockup.Screen.Chrome

namespace Mockup

inductive Side where
  | top
  | bottom
  | left
  | right
  deriving DecidableEq

def Insets.at (i : Insets) : Side → Number
  | .top => i.top
  | .bottom => i.bottom
  | .left => i.left
  | .right => i.right

@[ext] theorem Insets.ext_at {i j : Insets} (h : ∀ side, i.at side = j.at side) : i = j := by
  obtain ⟨top, bottom, left, right⟩ := i
  obtain ⟨top', bottom', left', right'⟩ := j
  rw [mk.injEq]
  exact ⟨h .top, h .bottom, h .left, h .right⟩

namespace Side

def axis : Side → Axis
  | top | bottom => .vertical
  | left | right => .horizontal

def edge : Side → Box → Number.Result Number
  | top => Box.top
  | bottom => Box.bottom
  | left => Box.left
  | right => Box.right

def ends (side : Side) (screen : Box) (edge : Number.Result Number) :
    Number.Result Number × Number.Result Number :=
  match side with
  | top | left => (edge, side.edge screen)
  | bottom | right => (side.edge screen, edge)

def distance (side : Side) (screen : Box) (edge : Number.Result Number) : Number.Result Number := do
  (← (side.ends screen edge).1).sub (← (side.ends screen edge).2)

theorem exists_edge_toBox (side : Side) (r : Rect) : ∃ k, side.edge r.toBox = .ok (.int k) := by
  cases side with
  | top => exact ⟨_, r.start_toBox .vertical⟩
  | bottom => exact ⟨_, r.finish_toBox .vertical⟩
  | left => exact ⟨_, r.start_toBox .horizontal⟩
  | right => exact ⟨_, r.finish_toBox .horizontal⟩

end Side

def ChromeKind.edge? : ChromeKind → Side → Option Side
  | .statusBar, .top => some .bottom
  | .homeIndicator, .bottom | .navigationBar, .bottom => some .top
  | .safeArea, side => some side
  | _, _ => none

namespace SafeArea

open Result Number

variable {screen : Box} {c : Chrome} {cs cs' : List Chrome} {i i' : Insets} {side : Side}
  {m n : Number}

/-- A distance to which a piece of chrome reaches into a screen. -/
def Reaches (screen : Box) (c : Chrome) (side : Side) (n : Number) : Prop :=
  ∃ edge, c.kind.edge? side = some edge ∧ side.distance screen (edge.edge c.box) = .ok n

/-- The inset that some chrome takes on one side of a screen. -/
structure IsInset (screen : Box) (cs : List Chrome) (side : Side) (m : Number) : Prop where
  nonneg : Number.le 0 m = true
  attained : m = 0 ∨ ∃ c ∈ cs, Reaches screen c side m
  greatest : ∀ c ∈ cs, ∀ n, Reaches screen c side n → m.lt n = false

section Step

def Grows (screen : Box) (c : Chrome) (side : Side) (m m' : Number) : Prop :=
  match c.kind.edge? side with
  | none => m' = m
  | some edge => ∃ n, side.distance screen (edge.edge c.box) = .ok n ∧ m' = m.max n

/-- A distance that is not positive would not widen an inset anyway. -/
theorem widen_eq_max (h : rank 0 ≤ m.rank) : widen m n = m.max n := by
  rw [widen]
  split
  · rfl
  · next hn =>
      have hlt : ¬m.lt n = true := fun hlt => hn <| (lt_iff_rank_lt zero_ne_nan).mpr
        (h.trans_lt ((lt_iff_rank_lt (zero_le_ne_nan h)).mp hlt))
      rw [Number.max, if_neg hlt]

theorem addInsets_distances (screen : Box) (i : Insets) (c : Chrome) :
    addInsets screen i c = match c.kind with
      | .statusBar => do
        let top ← Side.top.distance screen c.box.bottom
        return { i with top := i.top.max top }
      | .homeIndicator | .navigationBar => do
        let bottom ← Side.bottom.distance screen c.box.top
        return { i with bottom := i.bottom.max bottom }
      | .safeArea => do
        let top ← Side.top.distance screen c.box.top
        let left ← Side.left.distance screen c.box.left
        let right ← Side.right.distance screen c.box.right
        let bottom ← Side.bottom.distance screen c.box.bottom
        return ⟨widen i.top top, widen i.bottom bottom, widen i.left left,
          widen i.right right⟩ := by
  rw [addInsets]
  cases c.kind <;> simp only [Side.distance, Side.ends, Side.edge, bind_assoc]

theorem grows_of_addInsets (hi : ∀ side, rank 0 ≤ (i.at side).rank)
    (h : addInsets screen i c = .ok i') (side : Side) :
    Grows screen c side (i.at side) (i'.at side) := by
  rw [Grows]
  rw [addInsets_distances] at h
  cases hkind : c.kind with
  | statusBar =>
      simp only [hkind] at h
      obtain ⟨top, htop, h⟩ := bind_eq_ok_iff.mp h
      cases h
      cases side with
      | top => exact ⟨top, htop, rfl⟩
      | _ => rfl
  | homeIndicator | navigationBar =>
      simp only [hkind] at h
      obtain ⟨bottom, hbottom, h⟩ := bind_eq_ok_iff.mp h
      cases h
      cases side with
      | bottom => exact ⟨bottom, hbottom, rfl⟩
      | _ => rfl
  | safeArea =>
      simp only [hkind] at h
      obtain ⟨top, htop, h⟩ := bind_eq_ok_iff.mp h
      obtain ⟨left, hleft, h⟩ := bind_eq_ok_iff.mp h
      obtain ⟨right, hright, h⟩ := bind_eq_ok_iff.mp h
      obtain ⟨bottom, hbottom, h⟩ := bind_eq_ok_iff.mp h
      cases h
      cases side with
      | top => exact ⟨top, htop, widen_eq_max (hi .top)⟩
      | left => exact ⟨left, hleft, widen_eq_max (hi .left)⟩
      | right => exact ⟨right, hright, widen_eq_max (hi .right)⟩
      | bottom => exact ⟨bottom, hbottom, widen_eq_max (hi .bottom)⟩

def IsReachFault (screen : Box) (c : Chrome) (fault : NumberFault) : Prop :=
  ∃ side edge, c.kind.edge? side = some edge ∧ side.distance screen (edge.edge c.box) = .error fault

theorem addInsets_blames (screen : Box) (i : Insets) (c : Chrome) :
    Blames (IsReachFault screen c) (addInsets screen i c) := by
  have hside (side : Side) {edge : Side} (h : c.kind.edge? side = some edge) :
      Blames (IsReachFault screen c) (side.distance screen (edge.edge c.box)) :=
    fun fault hfault => ⟨side, edge, h, hfault⟩
  rw [addInsets_distances]
  cases hkind : c.kind with
  | statusBar =>
      rw [hkind] at hside
      exact (hside .top rfl).bind fun _ => blames_ok _
  | homeIndicator | navigationBar =>
      rw [hkind] at hside
      exact (hside .bottom rfl).bind fun _ => blames_ok _
  | safeArea =>
      rw [hkind] at hside
      exact (hside .top rfl).bind fun _ => (hside .left rfl).bind fun _ =>
        (hside .right rfl).bind fun _ => (hside .bottom rfl).bind fun _ => blames_ok _

end Step

section Run

def distances (screen : Box) (side : Side) (cs : List Chrome) : List Number :=
  cs.filterMap fun c => (c.kind.edge? side).bind fun edge =>
    (side.distance screen (edge.edge c.box)).toOption

theorem mem_distances_iff : n ∈ distances screen side cs ↔ ∃ c ∈ cs, Reaches screen c side n := by
  simp only [distances, List.mem_filterMap, Option.bind_eq_some_iff, toOption_eq_some_iff, Reaches]

theorem Grows.eq_maximum (h : Grows screen c side m n) :
    n = maximum m (distances screen side [c]) := by
  rw [Grows] at h
  rw [distances, List.filterMap_cons, List.filterMap_nil]
  cases hedge : c.kind.edge? side with
  | none => simpa [hedge, maximum] using h
  | some edge =>
      simp only [hedge] at h
      obtain ⟨d, hd, rfl⟩ := h
      rw [Option.bind_some, toOption_eq_some_iff.mpr hd]
      rfl

/-- Every distance has been taken, and each side is the greatest of them and of what it was. -/
theorem foldlM_addInsets (hi : ∀ side, rank 0 ≤ (i.at side).rank)
    (h : cs.foldlM (addInsets screen) i = .ok i') :
    (∀ side, i'.at side = maximum (i.at side) (distances screen side cs)) ∧
      ∀ c ∈ cs, ∀ side edge, c.kind.edge? side = some edge →
        Succeeds (side.distance screen (edge.edge c.box)) := by
  induction cs generalizing i with
  | nil =>
      cases h
      exact ⟨fun _ => rfl, by simp⟩
  | cons c cs ih =>
      rw [List.foldlM_cons] at h
      obtain ⟨j, hj, h⟩ := bind_eq_ok_iff.mp h
      have hgrows := grows_of_addInsets hi hj
      have hfirst (side : Side) := (hgrows side).eq_maximum
      have hnext (side : Side) : rank 0 ≤ (j.at side).rank := by
        rw [hfirst side]
        exact (hi side).trans (rank_le_maximum (zero_le_ne_nan (hi side)) _).1
      obtain ⟨hsides, hrest⟩ := ih hnext h
      refine ⟨fun side => ?_, List.forall_mem_cons.mpr ⟨fun side edge hedge => ?_, hrest⟩⟩
      · rw [hsides side, hfirst side, ← maximum_append, distances, distances, distances,
          ← List.filterMap_append, List.singleton_append]
      · have hgrows := hgrows side
        simp only [Grows, hedge] at hgrows
        obtain ⟨d, hd, -⟩ := hgrows
        exact ⟨d, hd⟩

theorem zero_le_at_zero (side : Side) : rank 0 ≤ (Insets.at {} side).rank := by
  cases side <;> exact le_rfl

theorem at_insetsOf (h : insetsOf screen cs = .ok i) (side : Side) :
    i.at side = maximum 0 (distances screen side cs) := by
  rw [(foldlM_addInsets zero_le_at_zero h).1 side]
  cases side <;> rfl

theorem isInset_of_insetsOf (h : insetsOf screen cs = .ok i) (side : Side) :
    IsInset screen cs side (i.at side) := by
  obtain ⟨hle, hall⟩ := rank_le_maximum zero_ne_nan (distances screen side cs)
  rw [at_insetsOf h side]
  constructor
  · exact (le_iff_rank_le zero_ne_nan (maximum_ne_nan zero_ne_nan)).mpr hle
  · rw [← mem_distances_iff]
    exact (maximum_eq_or zero_ne_nan _).imp_right And.left
  · intro c hc n hn
    rw [← Bool.not_eq_true, lt_iff_rank_lt (maximum_ne_nan zero_ne_nan), not_lt]
    exact hall n (mem_distances_iff.mpr ⟨c, hc, hn⟩)

theorem insetsOf_blames : Blames (fun fault => ∃ c ∈ cs, IsReachFault screen c fault)
    (insetsOf screen cs) :=
  .foldlM (fun i c hc => (addInsets_blames screen i c).mono fun _ h => ⟨c, hc, h⟩) {}

/-- The insets can be told just if every distance can. -/
theorem insetsOf_succeeds_iff : Succeeds (insetsOf screen cs) ↔
    ∀ c ∈ cs, ∀ side edge, c.kind.edge? side = some edge →
      Succeeds (side.distance screen (edge.edge c.box)) := by
  constructor
  · rintro ⟨i, h⟩
    exact (foldlM_addInsets zero_le_at_zero h).2
  · intro h
    cases hinsets : insetsOf screen cs with
    | ok i => exact succeeds_ok i
    | error fault =>
        obtain ⟨c, hc, side, edge, hedge, hfault⟩ := insetsOf_blames fault hinsets
        exact ((h c hc side edge hedge).ne_error hfault).elim

theorem insetsOf_le (h : insetsOf screen cs = .ok i) (h' : insetsOf screen cs' = .ok i')
    (hsub : cs ⊆ cs') (side : Side) : (i.at side).le (i'.at side) = true := by
  rw [at_insetsOf h side, at_insetsOf h' side,
    le_iff_rank_le (maximum_ne_nan zero_ne_nan) (maximum_ne_nan zero_ne_nan)]
  refine rank_maximum_mono zero_ne_nan fun n hn => ?_
  obtain ⟨c, hc, hreaches⟩ := mem_distances_iff.mp hn
  exact mem_distances_iff.mpr ⟨c, hsub hc, hreaches⟩

end Run

section Order

/-- Distances from one side are all integers or all reals, as the screen is. -/
theorem Reaches.isReal_iff (hc : c.box.IsIntegral) (h : Reaches screen c side n) :
    ∃ s, side.edge screen = .ok s ∧ (n.IsReal ↔ s.IsReal) := by
  obtain ⟨edge, -, h⟩ := h
  obtain ⟨r, hr⟩ := Rect.exists_of_isIntegral hc
  obtain ⟨k, hk⟩ := edge.exists_edge_toBox r
  rw [hr, hk] at h
  cases side with
  | top | left =>
      obtain ⟨_, ⟨⟩, h⟩ := bind_eq_ok_iff.mp h
      obtain ⟨s, hs, h⟩ := bind_eq_ok_iff.mp h
      exact ⟨s, hs, isReal_int_sub_iff h⟩
  | bottom | right =>
      obtain ⟨s, hs, h⟩ := bind_eq_ok_iff.mp h
      exact ⟨s, hs, isReal_sub_int_iff h⟩

/-- Insets depend on which pieces of chrome there are, not on their order or number. -/
theorem insetsOf_eq_of_mem_iff (hboxes : ∀ c ∈ cs, c.box.IsIntegral) (hmem : ∀ c, c ∈ cs ↔ c ∈ cs')
    (h : insetsOf screen cs = .ok i) : insetsOf screen cs' = .ok i := by
  have hall := insetsOf_succeeds_iff.mp ⟨i, h⟩
  have hsucceeds : Succeeds (insetsOf screen cs') :=
    insetsOf_succeeds_iff.mpr fun c hc => hall c ((hmem c).mpr hc)
  obtain ⟨i', h'⟩ := hsucceeds
  have hsame : i = i' := by
    refine Insets.ext_at fun side => ?_
    rw [at_insetsOf h, at_insetsOf h']
    refine maximum_eq_of_mem_iff zero_ne_nan (fun n => ?_) fun m hm n hn hpos hrank => ?_
    · simp only [mem_distances_iff, hmem]
    · obtain ⟨c, hc, hm⟩ := mem_distances_iff.mp hm
      obtain ⟨d, hd, hn⟩ := mem_distances_iff.mp hn
      obtain ⟨s, hs, hms⟩ := hm.isReal_iff (hboxes c hc)
      obtain ⟨t, ht, hnt⟩ := hn.isReal_iff (hboxes d hd)
      cases hs.symm.trans ht
      exact eq_of_rank_eq (hms.trans hnt.symm) hpos hrank
  rw [hsame]
  exact h'

end Order

section Bounds

def LiesWithin (screen b : Box) : Prop :=
  ∀ side : Side, ∃ near far x, screen.start side.axis = .ok near ∧
    screen.finish side.axis = .ok far ∧ side.edge b = .ok x ∧ near.le x = true ∧ x.le far = true

def IsDifference (a b d : Number) : Prop := d.place = a.place.sub b.place

/-- Neither the edges of the screen nor the distances from them to some chrome are rounded. -/
structure IsExact (screen : Box) (cs : List Chrome) : Prop where
  extent : ∀ axis near far extent, screen.start axis = .ok near → screen.finish axis = .ok far →
    screen.extent axis = .ok extent → IsDifference far near extent
  distance : ∀ c ∈ cs, ∀ side edge, c.kind.edge? side = some edge → ∀ a b d,
    side.ends screen (edge.edge c.box) = (.ok a, .ok b) → a.sub b = .ok d → IsDifference a b d

theorem isDifference_int (i j : Int) : IsDifference (.int i) (.int j) (.int (i - j)) := by
  rw [IsDifference, place_int, place_int, place_int, Place.sub, Int.sub_mul]

theorem isExact_of_isIntegral (hscreen : screen.IsIntegral)
    (hboxes : ∀ c ∈ cs, c.box.IsIntegral) : IsExact screen cs := by
  obtain ⟨s, rfl⟩ := Rect.exists_of_isIntegral hscreen
  constructor
  · intro axis near far extent hnear hfar hextent
    rw [Rect.start_toBox] at hnear
    rw [Rect.finish_toBox] at hfar
    rw [Rect.extent_toBox] at hextent
    cases hnear
    cases hfar
    cases hextent
    have h := isDifference_int (s.finish axis) (s.start axis)
    rwa [Rect.finish, add_sub_cancel_left] at h
  · intro c hc side edge _ a b d hends hd
    obtain ⟨r, hr⟩ := Rect.exists_of_isIntegral (hboxes c hc)
    obtain ⟨k, hk⟩ := edge.exists_edge_toBox r
    obtain ⟨l, hl⟩ := side.exists_edge_toBox s
    rw [hr, hk] at hends
    have hends : side.ends s.toBox (.ok (.int k)) = (.ok a, .ok b) := hends
    cases side with
    | top | left =>
        rw [Side.ends, hl] at hends
        cases hends
        cases hd
        exact isDifference_int k l
    | bottom | right =>
        rw [Side.ends, hl] at hends
        cases hends
        cases hd
        exact isDifference_int l k

theorem axis_of_edge? {kind : ChromeKind} {edge : Side} (h : kind.edge? side = some edge) :
    edge.axis = side.axis := by
  cases kind <;> cases side <;> cases h <;> rfl

/-- A side of the screen is where it starts or where it ends. -/
theorem ends_eq (side : Side) (screen : Box) (edge : Number.Result Number) :
    side.ends screen edge = (edge, screen.start side.axis) ∨
      side.ends screen edge = (screen.finish side.axis, edge) := by
  cases side with
  | top | left => exact .inl rfl
  | bottom | right => exact .inr rfl

/-- What lies between two places is no farther from either than they are from one another. -/
theorem Reaches.rank_le {extent : Number} (hexact : IsExact screen cs) (hc : c ∈ cs)
    (hwithin : LiesWithin screen c.box) (h : Reaches screen c side n)
    (hextent : screen.extent side.axis = .ok extent) : n.rank ≤ extent.rank := by
  obtain ⟨edge, hedge, hn⟩ := h
  obtain ⟨near, far, x, hnear, hfar, hx, hle, hge⟩ := hwithin edge
  rw [axis_of_edge? hedge] at hnear hfar
  have hwide := hexact.extent side.axis near far extent hnear hfar hextent
  have hdistance := hexact.distance c hc side edge hedge
  rw [rank, rank, hwide]
  rw [Side.distance, hx] at hn
  rw [hx] at hdistance
  rcases ends_eq side screen (.ok x) with hends | hends
  · rw [hends, hnear] at hn hdistance
    rw [hdistance x near n rfl hn]
    exact Place.rank_sub_le_left (rank_le_of_le hge) _
  · rw [hends, hfar] at hn hdistance
    rw [hdistance far x n rfl hn]
    exact Place.rank_sub_le_right (place_ne_nowhere (ne_nan_of_le hle).1) (rank_le_of_le hle) _

/-- A screen around something has no negative extent. -/
theorem zero_le_of_liesWithin {b : Box} {extent : Number} (hexact : IsExact screen cs)
    (hb : b.IsIntegral) (hwithin : LiesWithin screen b)
    (hextent : screen.extent side.axis = .ok extent) : rank 0 ≤ extent.rank := by
  obtain ⟨near, far, x, hnear, hfar, hx, hle, hge⟩ := hwithin side
  obtain ⟨r, rfl⟩ := Rect.exists_of_isIntegral hb
  obtain ⟨k, hk⟩ := side.exists_edge_toBox r
  cases hk.symm.trans hx
  have hzero : (0 : Number).place = (int k).place.sub (int k).place := by
    rw [← isDifference_int k k, Int.sub_self]
    rfl
  calc rank 0 = ((int k).place.sub (int k).place).rank := by rw [rank, hzero]
    _ ≤ ((int k).place.sub near.place).rank :=
      Place.rank_sub_le_right (place_ne_nowhere (ne_nan_of_le hle).1) (rank_le_of_le hle) _
    _ ≤ (far.place.sub near.place).rank := Place.rank_sub_le_left (rank_le_of_le hge) _
    _ = extent.rank := by rw [rank, hexact.extent side.axis near far extent hnear hfar hextent]

/-- Chrome within the screen takes no more than the screen, as long as nothing is rounded. -/
theorem insetsOf_le_extent (hne : cs ≠ []) (hboxes : ∀ c ∈ cs, c.box.IsIntegral)
    (hwithin : ∀ c ∈ cs, LiesWithin screen c.box) (hexact : IsExact screen cs)
    (h : insetsOf screen cs = .ok i) {extent : Number}
    (hextent : screen.extent side.axis = .ok extent) : (i.at side).le extent = true := by
  obtain ⟨c, hc⟩ := List.exists_mem_of_ne_nil cs hne
  have hzero := zero_le_of_liesWithin hexact (hboxes c hc) (hwithin c hc) hextent
  rw [at_insetsOf h side, le_iff_rank_le (maximum_ne_nan zero_ne_nan) (zero_le_ne_nan hzero),
    rank_maximum_le_iff zero_ne_nan]
  refine ⟨hzero, fun n hn => ?_⟩
  obtain ⟨c, hc, hreaches⟩ := mem_distances_iff.mp hn
  exact hreaches.rank_le hexact hc (hwithin c hc) hextent

end Bounds

section Faults

open Modal (IsNumberFault start_blames finish_blames blames_of_tooLarge)

theorem edge_blames (side : Side) (b : Box) : Blames IsNumberFault (side.edge b) := by
  cases side with
  | top => exact start_blames b .vertical
  | bottom => exact finish_blames b .vertical
  | left => exact start_blames b .horizontal
  | right => exact finish_blames b .horizontal

theorem distance_blames (side edge : Side) (screen b : Box) :
    Blames IsNumberFault (side.distance screen (edge.edge b)) := by
  have hdistance {x y : Number.Result Number} (hx : Blames IsNumberFault x)
      (hy : Blames IsNumberFault y) : Blames IsNumberFault (do (← x).sub (← y)) :=
    hx.bind fun _ => hy.bind fun _ => blames_of_tooLarge (Number.sub_blames _ _)
  have hedge := edge_blames edge b
  have hside := edge_blames side screen
  cases side with
  | top | left => exact hdistance hedge hside
  | bottom | right => exact hdistance hside hedge

end Faults

structure Measures (screen : Box) (cs : List Chrome) : Prop where
  succeeds : Succeeds (insetsOf screen cs) ↔ ∀ c ∈ cs, ∀ side edge, c.kind.edge? side = some edge →
    Succeeds (side.distance screen (edge.edge c.box))
  total : screen.IsIntegral → Succeeds (insetsOf screen cs)
  greatest : ∀ i, insetsOf screen cs = .ok i → ∀ side, IsInset screen cs side (i.at side)
  unordered : ∀ i cs', insetsOf screen cs = .ok i → (∀ c, c ∈ cs ↔ c ∈ cs') →
    insetsOf screen cs' = .ok i
  grows : ∀ i cs' i', insetsOf screen cs = .ok i → cs ⊆ cs' → insetsOf screen cs' = .ok i' →
    ∀ side, (i.at side).le (i'.at side) = true
  bounded : ∀ i, (∀ c ∈ cs, LiesWithin screen c.box) → (screen.IsIntegral ∨ IsExact screen cs) →
    insetsOf screen cs = .ok i → ∀ side extent, screen.extent side.axis = .ok extent →
    (cs = [] → Number.le 0 extent = true) → (i.at side).le extent = true

theorem succeeds_of_isIntegral (hscreen : screen.IsIntegral)
    (hboxes : ∀ c ∈ cs, c.box.IsIntegral) : Succeeds (insetsOf screen cs) := by
  obtain ⟨s, rfl⟩ := Rect.exists_of_isIntegral hscreen
  refine insetsOf_succeeds_iff.mpr fun c hc side edge _ => ?_
  obtain ⟨r, hr⟩ := Rect.exists_of_isIntegral (hboxes c hc)
  obtain ⟨k, hk⟩ := edge.exists_edge_toBox r
  obtain ⟨l, hl⟩ := side.exists_edge_toBox s
  rw [hr, hk]
  cases side with
  | top | left => exact ⟨.int (k - l), by rw [Side.distance, Side.ends, hl]; rfl⟩
  | bottom | right => exact ⟨.int (l - k), by rw [Side.distance, Side.ends, hl]; rfl⟩

theorem measures_of_isIntegral (hboxes : ∀ c ∈ cs, c.box.IsIntegral) : Measures screen cs where
  succeeds := insetsOf_succeeds_iff
  total hscreen := succeeds_of_isIntegral hscreen hboxes
  greatest _ h := isInset_of_insetsOf h
  unordered _ _ h hmem := insetsOf_eq_of_mem_iff hboxes hmem h
  grows _ _ _ h hsub h' := insetsOf_le h h' hsub
  bounded i hwithin hexact h side extent hextent hempty := by
    have hexact : IsExact screen cs :=
      hexact.elim (fun hscreen => isExact_of_isIntegral hscreen hboxes) id
    by_cases hne : cs = []
    · subst hne
      cases h
      cases side <;> exact hempty rfl
    · exact insetsOf_le_extent hne hboxes hwithin hexact h hextent

end SafeArea

end Mockup
