import ParseReplay.Automaton.Picture
import ParseReplay.Proofs.Automaton.Momentum
import ParseReplay.Proofs.Automaton.Straight
import ParseReplay.Proofs.Automaton.Transitions
import ParseReplay.Proofs.Surface.Context

/-!
# What the picture of an automaton shows

The picture of an automaton paints its background and the scale bar, then the edges and over them
the states. The picture of the edges sets its colors and its width once, for all edges. What holds
on the way from one edge to the next is therefore more than that the context is solid.

The edges are met in the order of their keys, and some of them have no shape. What is drawn is
nevertheless determined by the adjacency list: every listed transition that has a shape, however
often it is listed, once, in the order of pairs.

## Main definitions

* `EdgeShape.marks`, `stateMark`, `Graph.marks`: what the parts of the picture paint
* `Graph.drawn`: the transitions that have a shape, with it
* `Graph.Shows`: the picture shows the automaton of an adjacency list

## Main results

* `Graph.paints_picture`: the picture paints these marks
* `Graph.mem_drawn_iff`, `Graph.drawn_pairwise`: which transitions are drawn, and in which order
* `Graph.shows_adjacency`: the picture shows every accepted adjacency list
-/

namespace ParseReplay

open Canvas (Context Mark Paints)

variable {α : Type} [Scalar α]

/-! ## The marks of the picture -/

/-- **What an edge paints**: its body, which is a segment or an arc, and its three-cornered head. -/
def EdgeShape.marks (color : String) (shape : EdgeShape α) : List (Mark α) :=
  let head := shape.head
  [.stroke
      (match shape.body with
      | .line start stop => [.moveTo start.x start.y, .lineTo stop.x stop.y]
      | .arc a => [.arc a.center.x a.center.y a.radius a.startAngle a.endAngle a.counterClockwise])
      color 1.0 1.0,
    .fill
      [.moveTo head.tip.x head.tip.y, .lineTo head.left.x head.left.y,
        .lineTo head.right.x head.right.y, .closePath] color 1.0]

/-- What a state paints: a full circle around its point. -/
def stateMark (style : EdgeStyle α) (p : Vec α) : Mark α :=
  .fill [.arc p.x p.y style.nodeRadius 0.0 Scalar.turn false] style.nodeColor 1.0

/-- What the scale bar paints: a level segment in the upper left corner. -/
def scaleBarMark (style : EdgeStyle α) (idealLength : α) : Mark α :=
  .stroke [.moveTo 20.0 20.0, .lineTo (20.0 + idealLength) (20.0 + 0.0)] style.edgeColor 1.0 1.0

/-- What the picture of an automaton paints. -/
def Graph.marks (g : Graph α) (style : EdgeStyle α) (idealLength : α) (size : Vec α) :
    List (Mark α) :=
  [backgroundMark style.background size] ++ [scaleBarMark style idealLength] ++
    (g.edges.filterMap fun e => g.edgeShape style e.1 e.2).flatMap
      (EdgeShape.marks style.edgeColor) ++
    g.positions.flatMap fun p => [stateMark style p]

/-- A solid context with the colors and the width of the edges. -/
structure ForEdges (color : String) (x : Context α) : Prop where
  solid : x.Solid
  fillStyle : x.fillStyle = color
  strokeStyle : x.strokeStyle = color
  lineWidth : x.lineWidth = 1.0

/-- A solid context with the color of the states. -/
structure ForStates (color : String) (x : Context α) : Prop where
  solid : x.Solid
  fillStyle : x.fillStyle = color

/-- **One edge** leaves the context for the next. -/
theorem EdgeShape.paints_picture (color : String) (shape : EdgeShape α) :
    Paints (ForEdges color) (ForEdges color) shape.picture (shape.marks color) := by
  -- Taken apart, the context computes: the marks, and each property that is left.
  rintro ⟨fill, line, width, font, alpha, path⟩ ⟨solid, fillStyle, strokeStyle, lineWidth⟩
  obtain rfl : 1.0 = alpha := Eq.symm solid
  obtain rfl : color = fill := fillStyle.symm
  obtain rfl : color = line := strokeStyle.symm
  obtain rfl : 1.0 = width := lineWidth.symm
  obtain ⟨body, head⟩ := shape
  cases body with
  | line start stop => exact ⟨rfl, rfl, rfl, rfl, rfl⟩
  | arc a => exact ⟨rfl, rfl, rfl, rfl, rfl⟩

theorem Graph.paints_edges (g : Graph α) (style : EdgeStyle α) :
    Paints Context.Solid Context.Solid (g.edgesPicture style)
      ((g.edges.filterMap fun e => g.edgeShape style e.1 e.2).flatMap
        (EdgeShape.marks style.edgeColor)) := by
  have hset : Paints Context.Solid (ForEdges style.edgeColor)
      ([.strokeStyle style.edgeColor, .fillStyle style.edgeColor, .lineWidth 1.0] :
        List (DrawOp α)) [] :=
    fun x hx => ⟨rfl, hx, rfl, rfl, rfl⟩
  have hedges := Paints.flatMap (l := g.edges.filterMap fun e => g.edgeShape style e.1 e.2)
    fun shape _ => EdgeShape.paints_picture style.edgeColor shape
  exact (hset.append hedges).mono (fun _ hx => hx) fun _ hx => hx.solid

/-- **One state** leaves the context for the next. -/
theorem paints_statePicture (style : EdgeStyle α) (p : Vec α) :
    Paints (ForStates style.nodeColor) (ForStates style.nodeColor) (statePicture style p)
      [stateMark style p] := by
  rintro ⟨fill, line, width, font, alpha, path⟩ ⟨solid, fillStyle⟩
  obtain rfl : 1.0 = alpha := Eq.symm solid
  obtain rfl : style.nodeColor = fill := fillStyle.symm
  exact ⟨rfl, rfl, rfl⟩

theorem Graph.paints_states (g : Graph α) (style : EdgeStyle α) :
    Paints Context.Solid Context.Solid (g.statesPicture style)
      (g.positions.flatMap fun p => [stateMark style p]) := by
  have hset : Paints Context.Solid (ForStates style.nodeColor)
      ([.fillStyle style.nodeColor] : List (DrawOp α)) [] :=
    fun x hx => ⟨rfl, hx, rfl⟩
  have hstates := Paints.flatMap (l := g.positions) fun p _ => paints_statePicture style p
  exact (hset.append hstates).mono (fun _ hx => hx) fun _ hx => hx.solid

/-- **The picture of an automaton.** -/
theorem Graph.paints_picture (g : Graph α) (style : EdgeStyle α) (idealLength : α)
    (size : Vec α) :
    Paints Context.Solid Context.Solid (g.picture style idealLength size)
      (g.marks style idealLength size) := by
  have hbar : Paints Context.Solid Context.Solid (scaleBar style idealLength)
      [scaleBarMark style idealLength] :=
    fun x hx => ⟨congrArg (fun a => [Mark.stroke _ style.edgeColor 1.0 a]) hx, hx⟩
  exact (((paints_background _ _).append hbar).append (g.paints_edges style)).append
    (g.paints_states style)

/-! ## The edges that are drawn -/

namespace Graph

/-- The transitions that have a shape, with it, in the order in which they are drawn. -/
def drawn (g : Graph α) (style : EdgeStyle α) : List ((ℕ × ℕ) × EdgeShape α) :=
  g.edges.filterMap fun e => (g.edgeShape style e.1 e.2).map fun shape => (e, shape)

variable {g : Graph α} {style : EdgeStyle α}

theorem mem_drawn_iff {e : ℕ × ℕ} {shape : EdgeShape α} :
    (e, shape) ∈ g.drawn style ↔ e ∈ g.edges ∧ g.edgeShape style e.1 e.2 = some shape := by
  simp only [drawn, List.mem_filterMap, Option.map_eq_some_iff, Prod.mk.injEq]
  constructor
  · rintro ⟨e, he, shape, hshape, rfl, rfl⟩
    exact ⟨he, hshape⟩
  · rintro ⟨he, hshape⟩
    exact ⟨e, he, shape, hshape, rfl, rfl⟩

/-- **The edges are drawn in increasing order**, each once. -/
theorem drawn_pairwise (g : Graph α) (style : EdgeStyle α) :
    (g.drawn style).Pairwise fun d d' => d.1.1 < d'.1.1 ∨ d.1.1 = d'.1.1 ∧ d.1.2 < d'.1.2 := by
  refine g.edges_pairwise.filterMap _ fun e f hlt d hd d' hd' => ?_
  obtain ⟨shape, -, rfl⟩ := Option.map_eq_some_iff.mp hd
  obtain ⟨shape', -, rfl⟩ := Option.map_eq_some_iff.mp hd'
  exact hlt

/-- The shapes of the edges that are drawn. -/
theorem map_snd_drawn (g : Graph α) (style : EdgeStyle α) :
    (g.drawn style).map Prod.snd = g.edges.filterMap fun e => g.edgeShape style e.1 e.2 := by
  rw [drawn, List.map_filterMap]
  congr 1
  funext e
  cases g.edgeShape style e.1 e.2 <;> rfl

/-! ## The states that are drawn -/

omit [Scalar α] in
/-- The states stand at their points, in their order. -/
theorem positions_place (g : Graph α) (points : ℕ → Vec α) :
    (g.place points).positions = (List.range g.stateCount).map points := by
  refine List.ext_getElem (by simp [positions, place, stateCount]) fun i hi hi' => ?_
  simp [positions, place]

omit [Scalar α] in
theorem position?_place {i : ℕ} (hi : i < g.stateCount) (points : ℕ → Vec α) :
    (g.place points).position? i = some (points i) := by
  have hi' : i < g.nodes.size := hi
  simp [position?, place, hi']

omit [Scalar α] in
theorem Stored.place {rows : Adjacency} (h : g.Stored rows) (points : ℕ → Vec α) :
    (g.place points).Stored rows :=
  ⟨(Array.size_mapIdx ..).trans h.stateCount_eq, h.mem_keys, h.valid⟩

/-! ## The whole picture -/

/-- **The picture shows the automaton** of an adjacency list, with its states at the given points
and the given edges between them. -/
structure Shows (rows : Adjacency) (points : ℕ → Vec α) (style : EdgeStyle α) (idealLength : α)
    (size : Vec α) (g : Graph α) (edges : List ((ℕ × ℕ) × EdgeShape α)) : Prop where
  /-- The edges are the listed transitions that have a shape, with it. -/
  mem_iff : ∀ e shape, (e, shape) ∈ edges ↔
    rows.Lists e.1 e.2 ∧ g.edgeShape style e.1 e.2 = some shape
  /-- They stand in increasing order, each once. -/
  increasing : edges.Pairwise fun d d' => d.1.1 < d'.1.1 ∨ d.1.1 = d'.1.1 ∧ d.1.2 < d'.1.2
  /-- After background and scale bar, every edge has a body that is stroked, a segment or an arc,
  and a head of three corners that is filled. After all edges, every state has a full circle that is
  filled. -/
  picture_eq : g.picture style idealLength size =
    .fillStyle style.background :: .fillRect Vec.zero size ::
      .strokeStyle style.edgeColor :: .lineWidth 1.0 :: .beginPath :: .moveTo ⟨20.0, 20.0⟩ ::
      .lineTo ⟨20.0 + idealLength, 20.0 + 0.0⟩ :: .stroke ::
      .strokeStyle style.edgeColor :: .fillStyle style.edgeColor :: .lineWidth 1.0 ::
      (edges.flatMap fun d =>
        let head := d.2.head
        .beginPath ::
          (match d.2.body with
          | .line start stop => [.moveTo start, .lineTo stop]
          | .arc a => [.arc a.center a.radius a.startAngle a.endAngle a.counterClockwise]) ++
          [.stroke, .beginPath, .moveTo head.tip, .lineTo head.left, .lineTo head.right, .closePath,
            .fill]) ++
      .fillStyle style.nodeColor :: (List.range rows.length).flatMap fun i =>
        [.beginPath, .arc (points i) style.nodeRadius 0.0 Scalar.turn false, .fill]
  /-- This is what the operations paint on a solid context, and all that they paint. -/
  marks_eq : ∀ x : Context α, x.Solid → x.marks (g.picture style idealLength size) =
    [backgroundMark style.background size, scaleBarMark style idealLength] ++
      (edges.flatMap fun d => d.2.marks style.edgeColor) ++
      (List.range rows.length).map fun i => stateMark style (points i)

/-- **The picture of an automaton is complete and shows nothing twice**, for every adjacency list
that is accepted, its states at any points, in any style and size: it shows all listed transitions
that have a shape, and then all states. -/
theorem shows_adjacency {rows : Adjacency} (h : ofAdjacency rows = .ok g) (points : ℕ → Vec α)
    (style : EdgeStyle α) (idealLength : α) (size : Vec α) :
    Shows rows points style idealLength size (g.place points) ((g.place points).drawn style) := by
  have hstored := (stored_of_ofAdjacency h).place points
  have hpositions : (g.place points).positions = (List.range rows.length).map points := by
    rw [positions_place, ← hstored.stateCount_eq]
    simp [place, stateCount]
  refine ⟨fun e shape => ?_, drawn_pairwise _ style, ?_, fun x hx => ?_⟩
  · rw [mem_drawn_iff]
    exact and_congr_left fun _ => hstored.mem_edges_iff e.1 e.2
  · rw [picture, edgesPicture, statesPicture, hpositions, ← map_snd_drawn, List.flatMap_map,
      List.flatMap_map]
    -- What stands around the edges is written out on both sides.
    refine congrArg₂ (· ++ ·) (congrArg₂ (· ++ ·) rfl (congrArg₂ (· ++ ·) rfl ?_)) rfl
    apply List.flatMap_congr
    rintro ⟨e, body, head⟩ -
    cases body with
    | line start stop => rfl
    | arc a => rfl
  · rw [(paints_picture _ style idealLength size x hx).1, marks, hpositions, ← map_snd_drawn,
      List.flatMap_map, List.flatMap_map, List.map_eq_flatMap]
    rfl

/-- Three states, two of them at one place, with a loop, a transition between those two, one to the
third state that is listed twice, and two back and forth. The loop and the transition at one place
are dropped, the repeated one is a segment that is drawn once, and the other two are arcs. -/
theorem shows_adjacency_loops :
    letI : Elementary ℝ := .real (fun _ => "") fun _ _ => ""
    let rows : Adjacency := [[1, 0, 2, 2], [2], [1]]
    let p : Vec ℝ := ⟨30, 40⟩
    let q : Vec ℝ := ⟨80, 40⟩
    let points : ℕ → Vec ℝ := fun i => if i < 2 then p else q
    let segment : EdgeShape ℝ := ⟨.line ⟨35, 40⟩ ⟨67, 40⟩, ⟨⟨75, 40⟩, ⟨67, 36⟩, ⟨67, 44⟩⟩⟩
    ∃ g : Graph ℝ, ofAdjacency rows = .ok g ∧
      (g.place points).edges = [(0, 0), (0, 1), (0, 2), (1, 2), (2, 1)] ∧
        ∃ there back : EdgeShape ℝ, there.body.IsArc ∧ back.body.IsArc ∧
          Shows rows points .standard 40 ⟨800, 600⟩ (g.place points)
            [((0, 2), segment), ((1, 2), there), ((2, 1), back)] := by
  let _ : Elementary ℝ := .real (fun _ => "") fun _ _ => ""
  intro rows p q points segment
  have hsqrt : ∀ x : ℝ, Elementary.sqrt x = √x := fun _ => rfl
  obtain ⟨g, hok, hedges, hsingle, hthere, hback⟩ : ∃ g : Graph ℝ, ofAdjacency rows = .ok g ∧
      (g.place points).edges = [(0, 0), (0, 1), (0, 2), (1, 2), (2, 1)] ∧
      ¬ (g.place points).isMutual 0 2 ∧ (g.place points).isMutual 1 2 ∧
      (g.place points).isMutual 2 1 :=
    ⟨_, rfl, by decide +kernel, by decide +kernel, by decide +kernel, by decide +kernel⟩
  have hplace : ∀ i < 3, (g.place points).position? i = some (points i) :=
    fun i hi => position?_place (hi.trans_eq (stored_of_ofAdjacency hok).stateCount_eq.symm) points
  have h0 : (g.place points).position? 0 = some p := hplace 0 (by norm_num)
  have h1 : (g.place points).position? 1 = some p := hplace 1 (by norm_num)
  have h2 : (g.place points).position? 2 = some q := hplace 2 (by norm_num)
  have hshows := shows_adjacency hok points .standard 40 ⟨800, 600⟩
  refine ⟨g, hok, hedges, ?_⟩
  generalize g.place points = placed at *
  -- The two states at one place are too near to each other, the third one is 50 away from them.
  have hnear : (p - p).Tiny := by
    rw [sub_self]
    exact Vec.tiny_zero
  have hchord : q - p = ⟨50, 0⟩ := Vec.ext (by norm_num [p, q]) (by norm_num [p, q])
  have hchord' : p - q = ⟨-50, 0⟩ := Vec.ext (by norm_num [p, q]) (by norm_num [p, q])
  have happart : ¬ (q - p).Tiny := by
    rintro ⟨hx, -⟩
    norm_num [hchord] at hx
  have happart' : ¬ (p - q).Tiny := by
    rintro ⟨hx, -⟩
    norm_num [hchord'] at hx
  obtain ⟨there, hbend⟩ :=
    EdgeShape.exists_arc? hsqrt happart EdgeStyle.one_le_arcHeight_standard
  obtain ⟨back, hbend'⟩ :=
    EdgeShape.exists_arc? hsqrt happart' EdgeStyle.one_le_arcHeight_standard
  have hsegment : EdgeShape.line .standard p q = segment := by
    have hpiece : ¬ ((q - p) * (8 / 10 : ℝ)).Tiny := by
      rintro ⟨hx, -⟩
      norm_num [hchord] at hx
    have hnorm : (q - p).norm = 50 := by
      rw [hchord, Vec.norm, Real.sqrt_eq_iff_mul_self_eq (by positivity) (by norm_num)]
      norm_num
    rw [EdgeShape.line_eq hsqrt .standard hpiece, hnorm]
    simp only [Vec.lerp, hchord, Arrowhead.ofTip, EdgeStyle.standard, segment]
    congr 2
    all_goals apply Vec.ext
    all_goals norm_num [p, q, Vec.perp]
  -- The five transitions in turn: two are dropped, one stays straight, and two are bent.
  have hdrawn : placed.drawn .standard =
      [((0, 2), segment), ((1, 2), there), ((2, 1), back)] := by
    rw [drawn, hedges]
    simp only [List.filterMap, edgeShape_of_near hsqrt h0 h0 hnear,
      edgeShape_of_near hsqrt h0 h1 hnear, edgeShape_of_single hsqrt h0 h2 happart hsingle,
      edgeShape_of_mutual hsqrt h1 h2 happart hthere,
      edgeShape_of_mutual hsqrt h2 h1 happart' hback, hsegment, hbend, hbend', Option.map_none,
      Option.map_some]
  rw [hdrawn] at hshows
  exact ⟨there, back, EdgeShape.isArc_of_arc? hbend, EdgeShape.isArc_of_arc? hbend', hshows⟩

end Graph

end ParseReplay
