import Mathlib.Order.Bounds.Image
import ParseReplay.Proofs.Automaton.Momentum
import ParseReplay.Session

/-!
# Resizing

The smallest rectangle around some points is given by the least and the greatest of their
coordinates. To resize is to map both coordinates by increasing affine functions, which take the
least to the least and the greatest to the greatest. So the extremes of the box go to the extremes
of the target, and the target is the new box.

Two such maps make one, since the box between them is known; and the map from a box to itself does
nothing. Therefore nothing of a rectangle that the states went through is left in their positions.

## Main definitions

* `Bounds.Tight`: the smallest rectangle around points, by least and greatest coordinates
* `Graph.Resizes`: the laws of resizing

## Main results

* `Bounds.enclosing_eq_some_iff`: the box that is folded from points is the tight one
* `Bounds.Tight.map`: increasing maps of the coordinates keep a tight box tight
* `Graph.rescale_rescale`, `Graph.rescale_self`: two maps between boxes, and the map of a box to
  itself
* `Graph.resizes`: the laws hold for every graph
-/

namespace ParseReplay

variable {K : Type} [Field K] [LinearOrder K] [Elementary K]

namespace Bounds

/-! ## The smallest rectangle around points -/

/-- **The smallest rectangle around the points**: it reaches from the least to the greatest of their
coordinates, each of them that of a point. -/
structure Tight (b : Bounds K) (ps : List (Vec K)) : Prop where
  left : IsLeast (Vec.x '' {p | p ∈ ps}) b.min.x
  top : IsLeast (Vec.y '' {p | p ∈ ps}) b.min.y
  right : IsGreatest (Vec.x '' {p | p ∈ ps}) b.max.x
  bottom : IsGreatest (Vec.y '' {p | p ∈ ps}) b.max.y

/-- The point lies in the rectangle. -/
def Holds (b : Bounds K) (p : Vec K) : Prop :=
  (b.min.x ≤ p.x ∧ p.x ≤ b.max.x) ∧ b.min.y ≤ p.y ∧ p.y ≤ b.max.y

section Tight

variable {b b' : Bounds K} {ps : List (Vec K)} {p : Vec K}

theorem tight_singleton (p : Vec K) : Tight ⟨p, p⟩ [p] := by
  constructor <;> simp

/-- One more point extends the box. -/
theorem Tight.extend (h : b.Tight ps) (p : Vec K) : (b.extend p).Tight (ps ++ [p]) := by
  have hmem : {q | q ∈ ps ++ [p]} = insert p {q | q ∈ ps} := by
    ext q
    simp [or_comm]
  constructor
  all_goals simp only [Bounds.extend, hmem, Set.image_insert_eq, Scalar.min_eq, Scalar.max_eq]
  · rw [min_comm]
    exact h.left.insert p.x
  · rw [min_comm]
    exact h.top.insert p.y
  · rw [max_comm]
    exact h.right.insert p.x
  · rw [max_comm]
    exact h.bottom.insert p.y

theorem Tight.unique (h : b.Tight ps) (h' : b'.Tight ps) : b = b' := by
  obtain ⟨⟨x, y⟩, ⟨x', y'⟩⟩ := b
  obtain ⟨⟨u, v⟩, ⟨u', v'⟩⟩ := b'
  obtain rfl : x = u := h.left.unique h'.left
  obtain rfl : y = v := h.top.unique h'.top
  obtain rfl : x' = u' := h.right.unique h'.right
  obtain rfl : y' = v' := h.bottom.unique h'.bottom
  rfl

theorem Tight.ne_nil (h : b.Tight ps) : ps ≠ [] := by
  rintro rfl
  obtain ⟨p, hp, -⟩ := h.left.1
  exact List.not_mem_nil hp

theorem Tight.holds (h : b.Tight ps) (hp : p ∈ ps) : b.Holds p :=
  ⟨⟨h.left.2 ⟨p, hp, rfl⟩, h.right.2 ⟨p, hp, rfl⟩⟩, h.top.2 ⟨p, hp, rfl⟩, h.bottom.2 ⟨p, hp, rfl⟩⟩

theorem enclosing_eq_none_iff : enclosing ps = none ↔ ps = [] := by
  cases ps <;> simp [enclosing]

theorem tight_of_enclosing (h : enclosing ps = some b) : b.Tight ps := by
  cases ps with
  | nil => cases h
  | cons p ps =>
    obtain rfl := Option.some.inj h
    -- The box is folded from the left, so that the last point is the last one to extend it.
    induction ps using List.reverseRecOn with
    | nil => exact tight_singleton p
    | append_singleton ps q ih =>
      rw [List.foldl_append]
      exact (ih rfl).extend q

/-- **The box that is folded from points** is the tight one. -/
theorem enclosing_eq_some_iff : enclosing ps = some b ↔ b.Tight ps := by
  refine ⟨tight_of_enclosing, fun h => ?_⟩
  cases hps : enclosing ps with
  | none => exact absurd (enclosing_eq_none_iff.mp hps) h.ne_nil
  | some b' => rw [(tight_of_enclosing hps).unique h]

/-- Increasing maps of the coordinates keep a tight box tight. -/
theorem Tight.map {f g : K → K} (hf : Monotone f) (hg : Monotone g) (h : b.Tight ps) :
    Tight ⟨⟨f b.min.x, g b.min.y⟩, ⟨f b.max.x, g b.max.y⟩⟩
      (ps.map fun p => ⟨f p.x, g p.y⟩) := by
  have hmem : {q | q ∈ ps.map fun p => (⟨f p.x, g p.y⟩ : Vec K)} =
      (fun p : Vec K => (⟨f p.x, g p.y⟩ : Vec K)) '' {p | p ∈ ps} := by
    ext q
    simp
  have hx : Vec.x '' {q | q ∈ ps.map fun p => (⟨f p.x, g p.y⟩ : Vec K)} =
      f '' (Vec.x '' {p | p ∈ ps}) := by
    rw [hmem, Set.image_image, Set.image_image]
  have hy : Vec.y '' {q | q ∈ ps.map fun p => (⟨f p.x, g p.y⟩ : Vec K)} =
      g '' (Vec.y '' {p | p ∈ ps}) := by
    rw [hmem, Set.image_image, Set.image_image]
  constructor
  · rw [hx]
    exact hf.map_isLeast h.left
  · rw [hy]
    exact hg.map_isLeast h.top
  · rw [hx]
    exact hf.map_isGreatest h.right
  · rw [hy]
    exact hg.map_isGreatest h.bottom

variable [IsStrictOrderedRing K]

/-- The extents of a tight box are not negative. -/
theorem Tight.extents (h : b.Tight ps) : 0 ≤ b.width ∧ 0 ≤ b.height := by
  obtain ⟨p, hp⟩ := List.exists_mem_of_ne_nil ps h.ne_nil
  obtain ⟨⟨hl, hr⟩, ht, hb⟩ := h.holds hp
  exact ⟨sub_nonneg.mpr (hl.trans hr), sub_nonneg.mpr (ht.trans hb)⟩

end Tight

end Bounds

/-! ## Maps of intervals -/

/-- The affine map that takes an interval from `lo` of the length `extent` to one from `lo'` of the
length `extent'`. -/
def stretch (lo extent lo' extent' x : K) : K := lo' + (x - lo) * (extent' / extent)

section Stretch

variable {lo extent lo' extent' : K}

theorem stretch_lo : stretch lo extent lo' extent' lo = lo' := by simp [stretch]

theorem stretch_hi (h : extent ≠ 0) :
    stretch lo extent lo' extent' (lo + extent) = lo' + extent' := by
  rw [stretch, add_sub_cancel_left, mul_div_cancel₀ _ h]

/-- **Two maps make one**: the interval between them leaves no trace. -/
theorem stretch_stretch (h : extent' ≠ 0) (lo'' extent'' x : K) :
    stretch lo' extent' lo'' extent'' (stretch lo extent lo' extent' x) =
      stretch lo extent lo'' extent'' x := by
  rw [stretch, stretch, stretch, add_sub_cancel_left, mul_assoc]
  congr 2
  rw [div_mul_div_comm, mul_comm extent, mul_div_mul_left _ _ h]

/-- **The map of an interval to itself** does nothing. -/
theorem stretch_self (h : extent ≠ 0) (x : K) : stretch lo extent lo extent x = x := by
  rw [stretch, div_self h, mul_one, add_sub_cancel]

theorem stretch_mono [IsStrictOrderedRing K] (h : 0 ≤ extent) (h' : 0 ≤ extent') :
    Monotone (stretch lo extent lo' extent') := by
  intro x y hxy
  have hscaled := mul_le_mul_of_nonneg_right (sub_le_sub_right hxy lo) (div_nonneg h' h)
  exact add_le_add_right hscaled lo'

end Stretch

namespace Graph

/-! ## Maps between boxes -/

section Rescale

variable {box s t : Bounds K}

/-- A point is mapped by its coordinates. -/
theorem rescale_eq (box t : Bounds K) (p : Vec K) :
    rescale box t p =
      ⟨stretch box.min.x box.width t.min.x t.width p.x,
        stretch box.min.y box.height t.min.y t.height p.y⟩ := rfl

theorem rescale_rescale (hw : s.width ≠ 0) (hh : s.height ≠ 0) (p : Vec K) :
    rescale s t (rescale box s p) = rescale box t p :=
  Vec.ext (stretch_stretch hw _ _ _) (stretch_stretch hh _ _ _)

theorem rescale_self (hw : box.width ≠ 0) (hh : box.height ≠ 0) (p : Vec K) :
    rescale box box p = p :=
  Vec.ext (stretch_self hw _) (stretch_self hh _)

/-- The corners of a box go to those of the target. -/
theorem rescale_corners (hw : box.width ≠ 0) (hh : box.height ≠ 0) (t : Bounds K) :
    rescale box t box.min = t.min ∧ rescale box t box.max = t.max := by
  refine ⟨Vec.ext stretch_lo stretch_lo, ?_⟩
  have hx : box.max.x = box.min.x + box.width := (add_sub_cancel _ _).symm
  have hy : box.max.y = box.min.y + box.height := (add_sub_cancel _ _).symm
  rw [rescale_eq, hx, hy, stretch_hi hw, stretch_hi hh]
  exact Vec.ext (add_sub_cancel _ _) (add_sub_cancel _ _)

variable [IsStrictOrderedRing K] {ps : List (Vec K)}

/-- **The target is the new box**, if it is not turned inside out. -/
theorem tight_rescale (h : box.Tight ps) (hw : box.width ≠ 0) (hh : box.height ≠ 0)
    (htw : 0 ≤ t.width) (hth : 0 ≤ t.height) : t.Tight (ps.map (rescale box t)) := by
  obtain ⟨hmin, hmax⟩ := rescale_corners hw hh t
  have hmap : Bounds.Tight ⟨rescale box t box.min, rescale box t box.max⟩
      (ps.map (rescale box t)) :=
    h.map (stretch_mono h.extents.1 htw) (stretch_mono h.extents.2 hth)
  rwa [hmin, hmax] at hmap

end Rescale

/-! ## Graphs -/

/-- Every state moved by `f`. -/
def mapPositions (g : Graph K) (f : Vec K → Vec K) : Graph K :=
  { g with nodes := g.nodes.map fun node => { node with position := f node.position } }

section Graphs

variable {g : Graph K} {box s t : Bounds K}

omit [Field K] [LinearOrder K] [Elementary K] in
theorem mapPositions_mapPositions (g : Graph K) (f f' : Vec K → Vec K) :
    (g.mapPositions f).mapPositions f' = g.mapPositions fun p => f' (f p) := by
  simp [mapPositions]

omit [Field K] [LinearOrder K] [Elementary K] in
theorem mapPositions_id {f : Vec K → Vec K} (h : ∀ p, f p = p) : g.mapPositions f = g := by
  simp [mapPositions, h]

omit [Field K] [LinearOrder K] [Elementary K] in
theorem positions_mapPositions (g : Graph K) (f : Vec K → Vec K) :
    (g.mapPositions f).positions = g.positions.map f := by
  simp [mapPositions, positions]

theorem boundingBox_eq_none_iff : g.boundingBox = none ↔ g.stateCount = 0 := by
  simp [boundingBox, Bounds.enclosing_eq_none_iff, positions, stateCount]

/-- A graph without states stays as it is. -/
theorem resize_of_empty (h : g.boundingBox = none) (t : Bounds K) : g.resize t = .ok g := by
  rw [resize, h]

variable [IsStrictOrderedRing K]

/-- States on a line along an axis are not resized, and left as they are. -/
theorem resize_of_flat (h : g.boundingBox = some box) (hflat : box.width = 0 ∨ box.height = 0)
    (t : Bounds K) : g.resize t = .error ⟨.degenerateLayout box.width box.height, g⟩ := by
  rw [resize, h]
  exact if_pos (hflat.imp (fun hw => by simp [hw]) fun hh => by simp [hh])

/-- All other states are mapped from box to box. -/
theorem resize_of_wide (h : g.boundingBox = some box) (hw : box.width ≠ 0) (hh : box.height ≠ 0)
    (t : Bounds K) : g.resize t = .ok (g.mapPositions (rescale box t)) := by
  obtain ⟨hw', hh'⟩ := (Bounds.tight_of_enclosing h).extents
  rw [resize, h]
  refine if_neg ?_
  rw [Scalar.zero_lit, not_or, not_le, not_le]
  exact ⟨hw'.lt_of_ne' hw, hh'.lt_of_ne' hh⟩

/-- **The three ways of resizing**: there are no states, their box is flat, or they are mapped. -/
theorem resize_cases (g : Graph K) :
    (g.boundingBox = none ∧ ∀ t, g.resize t = .ok g) ∨
      (∃ box, g.boundingBox = some box ∧ (box.width = 0 ∨ box.height = 0) ∧
        ∀ t, g.resize t = .error ⟨.degenerateLayout box.width box.height, g⟩) ∨
      ∃ box, g.boundingBox = some box ∧ box.width ≠ 0 ∧ box.height ≠ 0 ∧
        ∀ t, g.resize t = .ok (g.mapPositions (rescale box t)) := by
  cases h : g.boundingBox with
  | none => exact Or.inl ⟨rfl, resize_of_empty h⟩
  | some box =>
    by_cases hflat : box.width = 0 ∨ box.height = 0
    · exact Or.inr (Or.inl ⟨box, rfl, hflat, resize_of_flat h hflat⟩)
    · obtain ⟨hw, hh⟩ := not_or.mp hflat
      exact Or.inr (Or.inr ⟨box, rfl, hw, hh, resize_of_wide h hw hh⟩)

/-- **When a resize fails**, and with what. -/
theorem resize_eq_error_iff {failure : Failure (Graph K) K} :
    g.resize t = .error failure ↔
      ∃ box, g.boundingBox = some box ∧ (box.width = 0 ∨ box.height = 0) ∧
        failure.fault = .degenerateLayout box.width box.height ∧ failure.left = g := by
  constructor
  · intro h
    rcases g.resize_cases with ⟨-, hg⟩ | ⟨box, hbox, hflat, hg⟩ | ⟨box, -, -, -, hg⟩
    · cases (hg t).symm.trans h
    · cases (hg t).symm.trans h
      exact ⟨box, hbox, hflat, rfl, rfl⟩
    · cases (hg t).symm.trans h
  · obtain ⟨fault, left⟩ := failure
    rintro ⟨box, hbox, hflat, rfl, rfl⟩
    exact resize_of_flat hbox hflat t

theorem boundingBox_mapPositions (h : g.boundingBox = some box) (hw : box.width ≠ 0)
    (hh : box.height ≠ 0) (htw : 0 ≤ t.width) (hth : 0 ≤ t.height) :
    (g.mapPositions (rescale box t)).boundingBox = some t := by
  rw [boundingBox, positions_mapPositions]
  exact Bounds.enclosing_eq_some_iff.mpr
    (tight_rescale (Bounds.tight_of_enclosing h) hw hh htw hth)

/-- **A resize leaves no trace in a later one**, also where it fails. -/
theorem resize_bind_resize (g : Graph K) (hw : 0 < s.width) (hh : 0 < s.height) (t : Bounds K) :
    (g.resize s >>= fun g' => g'.resize t) = g.resize t := by
  rcases g.resize_cases with ⟨-, hg⟩ | ⟨box, -, -, hg⟩ | ⟨box, hbox, hw', hh', hg⟩
  · rw [hg s]
    rfl
  · rw [hg s, hg t]
    rfl
  · have hs := boundingBox_mapPositions hbox hw' hh' hw.le hh.le
    rw [hg s, hg t]
    show (g.mapPositions (rescale box s)).resize t = _
    rw [resize_of_wide hs hw.ne' hh.ne', mapPositions_mapPositions]
    simp only [rescale_rescale hw.ne' hh.ne']

theorem keys_change_resize (g : Graph K) (t : Bounds K) :
    (g.change (.resize t)).keys = g.keys := by
  rcases g.resize_cases with ⟨-, hg⟩ | ⟨box, -, -, hg⟩ | ⟨box, -, -, -, hg⟩
  · simp only [change, hg]
  · simp only [change, hg]
  · simp only [change, hg, mapPositions]

/-- The graph after a resize, whether it succeeds or fails. -/
theorem change_resize_resize (g : Graph K) (hw : 0 < s.width) (hh : 0 < s.height)
    (t : Bounds K) : (g.change (.resize s)).change (.resize t) = g.change (.resize t) := by
  have hboth := g.resize_bind_resize hw hh t
  rcases g.resize_cases with ⟨-, hg⟩ | ⟨box, -, -, hg⟩ | ⟨box, -, -, -, hg⟩
  · simp only [change, hg]
  · simp only [change, hg]
  · rw [hg s, hg t] at hboth
    have hmapped : (g.mapPositions (rescale box s)).resize t = _ := hboth
    simp only [change, hg, hmapped]

/-- **A resize to the box of the states** does nothing. -/
theorem change_resize_self (h : g.boundingBox = some box) : g.change (.resize box) = g := by
  rcases g.resize_cases with ⟨-, hg⟩ | ⟨box', -, -, hg⟩ | ⟨box', hbox, hw, hh, hg⟩
  · simp only [change, hg]
  · simp only [change, hg]
  · obtain rfl : box = box' := Option.some.inj (h.symm.trans hbox)
    simp only [change, hg]
    exact mapPositions_id (rescale_self hw hh)

/-! ## The laws -/

/-- **The laws of resizing.** -/
structure Resizes (g : Graph K) : Prop where
  /-- Only a graph without states has no bounding box. -/
  states : g.boundingBox = none ↔ g.stateCount = 0
  /-- The resize fails for states with a flat box alone. It tells the extents of the box, and the
  graph that it leaves is the one that it was given. -/
  fails : ∀ t failure, g.resize t = .error failure ↔
    ∃ box, g.boundingBox = some box ∧ (box.width = 0 ∨ box.height = 0) ∧
      failure.fault = .degenerateLayout box.width box.height ∧ failure.left = g
  /-- So a resize that fails moves no state. -/
  kept : ∀ t failure, g.resize t = .error failure →
    failure.left.positions = g.positions ∧ g.change (.resize t) = g
  /-- The transitions never change. -/
  keys : ∀ t, (g.change (.resize t)).keys = g.keys ∧ (g.change (.resize t)).edges = g.edges
  /-- After a resize of any states the target is the box, and holds all of them. -/
  target : ∀ t g', g.resize t = .ok g' → g.stateCount ≠ 0 → 0 ≤ t.width → 0 ≤ t.height →
    g'.boundingBox = some t ∧ g'.stateCount = g.stateCount ∧ ∀ p ∈ g'.positions, t.Holds p
  /-- A resize leaves no trace in a later one. -/
  twice : ∀ s t, 0 < s.width → 0 < s.height →
    (g.resize s >>= fun g' => g'.resize t) = g.resize t ∧
      (g.change (.resize s)).change (.resize t) = g.change (.resize t)
  /-- A resize to the box of the states does nothing. -/
  self : ∀ box, g.boundingBox = some box → g.change (.resize box) = g
  /-- Whatever a resize does to the states, the one to their former box restores. -/
  back : ∀ s box, 0 < s.width → 0 < s.height → g.boundingBox = some box →
    (g.change (.resize s)).change (.resize box) = g
  /-- A session keeps its states inside the viewport, half of the margins off on either side. A
  layout that cannot be scaled stays as it is. -/
  fit : ∀ viewport margins,
    let area := (Bounds.ofSize viewport).inset margins
    (Session.fit viewport margins g).1 = g.change (.resize area) ∧
      ∀ box, g.boundingBox = some box → box.width ≠ 0 → box.height ≠ 0 →
        margins.x ≤ viewport.x → margins.y ≤ viewport.y →
        (Session.fit viewport margins g).1.boundingBox = some area

omit [IsStrictOrderedRing K] in
theorem fit_eq (viewport margins : Vec K) (g : Graph K) :
    (Session.fit viewport margins g).1 =
      g.change (.resize ((Bounds.ofSize viewport).inset margins)) := by
  rw [Session.fit, change]
  cases g.resize ((Bounds.ofSize viewport).inset margins) <;> rfl

/-- A viewport inside its margins is not turned inside out. -/
theorem extents_inset {viewport margins : Vec K} (hx : margins.x ≤ viewport.x)
    (hy : margins.y ≤ viewport.y) :
    0 ≤ ((Bounds.ofSize viewport).inset margins).width ∧
      0 ≤ ((Bounds.ofSize viewport).inset margins).height := by
  have hhalf : (0.5 : K) + 0.5 = 1 := by norm_num
  have hextent : ∀ m v : K, v - m * 0.5 - (0.0 + m * 0.5) = v - m := fun m v => by
    rw [Scalar.zero_lit, zero_add, sub_sub, ← mul_add, hhalf, mul_one]
  constructor
  · exact (sub_nonneg.mpr hx).trans_eq (hextent margins.x viewport.x).symm
  · exact (sub_nonneg.mpr hy).trans_eq (hextent margins.y viewport.y).symm

/-- **The laws hold for every graph.** -/
theorem resizes (g : Graph K) : g.Resizes := by
  refine ⟨boundingBox_eq_none_iff, fun _ _ => resize_eq_error_iff, ?_, ?_, ?_, ?_,
    fun _ => change_resize_self, ?_, ?_⟩
  · intro t failure h
    obtain ⟨-, -, -, -, hleft⟩ := resize_eq_error_iff.mp h
    simp only [change, h, hleft, and_self]
  · intro t
    have hkeys := g.keys_change_resize t
    have hcount := stateCount_change g (.resize t)
    exact ⟨hkeys, by rw [edges, edges, hkeys, hcount]⟩
  · intro t g' h hstates htw hth
    rcases g.resize_cases with ⟨hnone, -⟩ | ⟨box, -, -, hg⟩ | ⟨box, hbox, hw, hh, hg⟩
    · exact absurd (boundingBox_eq_none_iff.mp hnone) hstates
    · cases (hg t).symm.trans h
    · cases (hg t).symm.trans h
      have htarget := boundingBox_mapPositions hbox hw hh htw hth
      exact ⟨htarget, Array.size_map, fun p hp => (Bounds.tight_of_enclosing htarget).holds hp⟩
  · intro s t hw hh
    exact ⟨g.resize_bind_resize hw hh t, g.change_resize_resize hw hh t⟩
  · intro s box hw hh hbox
    rw [g.change_resize_resize hw hh, change_resize_self hbox]
  · intro viewport margins
    refine ⟨fit_eq viewport margins g, fun box hbox hw hh hx hy => ?_⟩
    obtain ⟨htw, hth⟩ := extents_inset hx hy
    rw [fit_eq, change, resize_of_wide hbox hw hh]
    exact boundingBox_mapPositions hbox hw hh htw hth

/-- Four states, two of them at one point, and a transition back and forth. -/
theorem resizes_four :
    letI : Elementary ℝ := .real (fun _ => "") fun _ _ => ""
    ∃ g : Graph ℝ, ofAdjacency [[1], [0, 2], [], [3]] = .ok g ∧
      let placed := g.place fun i => if i < 2 then ⟨1, 5⟩ else if i < 3 then ⟨4, 2⟩ else ⟨2, 9⟩
      placed.boundingBox = some ⟨⟨1, 2⟩, ⟨4, 9⟩⟩ ∧ placed.Resizes := by
  let _ : Elementary ℝ := .real (fun _ => "") fun _ _ => ""
  have hok : (ofAdjacency [[1], [0, 2], [], [3]] : Except (Fault ℝ) (Graph ℝ)) = .ok _ := rfl
  refine ⟨_, hok, ?_, resizes _⟩
  show Bounds.enclosing [⟨1, 5⟩, ⟨1, 5⟩, ⟨4, 2⟩, ⟨2, 9⟩] = _
  simp only [Bounds.enclosing, List.foldl, Bounds.extend, Scalar.min_eq, Scalar.max_eq]
  norm_num

end Graphs

end Graph

end ParseReplay
