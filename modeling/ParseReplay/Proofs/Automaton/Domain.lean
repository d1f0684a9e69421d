import ParseReplay.Proofs.Scalar.Domain
import ParseReplay.Proofs.Plane.Domain
import ParseReplay.Proofs.Automaton.Picture
import ParseReplay.Proofs.Automaton.Resizing

/-!
# Automata within the domains

The layout divides by distances and by the number of states and takes logarithms of distances; a
resize divides by the extents of a box; the edges divide by lengths, by a cross product and by a
radius. The checks that keep all these away from zero are spread over the functions, with one
tolerance and different values for vectors without length. That they suffice is shown in two ways:
each divisor is bounded where it is met; and over every number type that extends the reals the
layout and the edges are what they are over the reals, so that nothing undefined has any part in
them.

## Main definitions

* `Graph.map`, `Iteration.map`, `Relaxation.map`, `EdgeShape.map` and others: the data of the
  automaton with their numbers taken to another number type
* `Graph.Defined`: the divisors and the logarithms of a graph, and its results over other types

## Main results

* `Scalar.Extends.pairForce`, `Scalar.Extends.iterate`, `Scalar.Extends.relax`: the layout over a
  number type that extends the reals
* `Scalar.Extends.resize`, `Scalar.Extends.edgeShape`: resizing and edges
* `Graph.defined_of_adjacency`: no operation on the graph of an adjacency list leaves its domain
-/

namespace ParseReplay

/-! ## Numbers of another type

Every number is taken by `f`, and what is no number stays. -/

section Map

variable {α β : Type} (f : α → β)

def Node.map (node : Node α) : Node β := ⟨node.position.map f, node.force.map f⟩

def Graph.map (g : Graph α) : Graph β := ⟨g.nodes.map (Node.map f), g.keys⟩

def LayoutSettings.map (settings : LayoutSettings α) : LayoutSettings β where
  repulsion := f settings.repulsion
  attraction := f settings.attraction
  idealLength := f settings.idealLength
  iterations := settings.iterations
  threshold := settings.threshold.map f

def EdgeStyle.map (style : EdgeStyle α) : EdgeStyle β where
  arcHeight := f style.arcHeight
  arrowWidth := f style.arrowWidth
  arrowLength := f style.arrowLength
  nodeRadius := f style.nodeRadius
  edgeColor := style.edgeColor
  nodeColor := style.nodeColor
  background := style.background

def Iteration.map (i : Iteration α) : Iteration β := ⟨i.graph.map f, f i.meanForce, f i.maxStep⟩

def Relaxation.map (r : Relaxation α) : Relaxation β :=
  ⟨r.graph.map f, r.iterations, f r.meanForce, r.log⟩

def Arrowhead.map (head : Arrowhead α) : Arrowhead β :=
  ⟨head.tip.map f, head.left.map f, head.right.map f⟩

def EdgeBody.map : EdgeBody α → EdgeBody β
  | .line start stop => .line (start.map f) (stop.map f)
  | .arc circle => .arc (circle.map f)

def EdgeShape.map (shape : EdgeShape α) : EdgeShape β := ⟨shape.body.map f, shape.head.map f⟩

def Fault.map : Fault α → Fault β
  | .invalidIndex src dst stateCount => .invalidIndex src dst stateCount
  | .degenerateLayout width height => .degenerateLayout (f width) (f height)
  | .exhaustedInput consumed => .exhaustedInput consumed
  | .stackUnderflow requested depth => .stackUnderflow requested depth
  | .unbalancedStack depth => .unbalancedStack depth
  | .batchInFlight inFlight => .batchInFlight inFlight
  | .malformedInput refusal => .malformedInput refusal

def Failure.map (failure : Failure (Graph α) α) : Failure (Graph β) β :=
  ⟨failure.fault.map f, failure.left.map f⟩

namespace Graph

theorem stateCount_map (g : Graph α) : (g.map f).stateCount = g.stateCount := Array.size_map

theorem connected_map (g : Graph α) (i j : ℕ) : (g.map f).connected i j = g.connected i j := by
  rw [connected, connected, stateCount_map]
  rfl

theorem edges_map (g : Graph α) : (g.map f).edges = g.edges := by
  rw [edges, edges, stateCount_map]
  rfl

theorem position?_map (g : Graph α) (i : ℕ) :
    (g.map f).position? i = (g.position? i).map (·.map f) := by
  rw [position?, position?, map, Array.getElem?_map, Option.map_map, Option.map_map]
  rfl

theorem positions_map (g : Graph α) : (g.map f).positions = g.positions.map (·.map f) := by
  simp [positions, map, Node.map]

/-- One state is changed alike before and after. -/
theorem modify_map {change : Node α → Node α} {change' : Node β → Node β}
    (h : ∀ node, change' (node.map f) = (change node).map f) (nodes : Array (Node α)) (i : ℕ) :
    (nodes.map (Node.map f)).modify i change' = (nodes.modify i change).map (Node.map f) := by
  refine Array.ext_getElem? fun k => ?_
  rw [Array.getElem?_modify, Array.getElem?_map, Array.getElem?_map, Array.getElem?_modify]
  split
  · rw [Option.map_map, Option.map_map]
    exact congrArg (Option.map · _) (funext h)
  · rfl

/-- What is gathered from all states is so alike. -/
theorem foldl_map {step : α → Node α → α} {step' : β → Node β → β}
    (h : ∀ s node, step' (f s) (node.map f) = f (step s node)) (nodes : Array (Node α)) (s : α) :
    f (nodes.foldl step s) = (nodes.map (Node.map f)).foldl step' (f s) := by
  rw [Array.foldl_map]
  exact (Array.foldl_hom f h).symm

end Graph

end Map

namespace Scalar.Extends

variable [Elementary ℝ] {α : Type} [Scalar α] {ι : ℝ → α} {settings : LayoutSettings ℝ}

/-! ## The layout -/

/-- **The force of a pair** is divided by a positive distance, of which a logarithm can be taken. -/
theorem pairForce (h : Extends ι) (hsqrt : ∀ x : ℝ, Elementary.sqrt x = √x)
    (hideal : 0 < settings.idealLength) (linked : Bool) (p q : Vec ℝ) :
    (Graph.pairForce settings linked p q).map ι =
      Graph.pairForce (settings.map ι) linked (p.map ι) (q.map ι) := by
  have hone : (0 : ℝ) < 1.0 := by norm_num
  have hdist := (q - p).lengthOr_pos hsqrt hone
  simp only [Graph.pairForce, LayoutSettings.map, ← h.sub]
  rw [← h.map_literal, ← h.lengthOr]
  generalize (q - p).lengthOr 1.0 = dist at hdist ⊢
  rw [h.scale, h.scale, h.map_div _ _ hdist.ne', apply_ite ι, h.map_mul,
    h.map_ln _ (div_pos hdist hideal), h.map_div _ _ hideal.ne',
    h.map_div _ _ (mul_pos hdist hdist).ne', h.map_neg, h.map_mul]

theorem addPair (h : Extends ι) (hsqrt : ∀ x : ℝ, Elementary.sqrt x = √x)
    (hideal : 0 < settings.idealLength) (g : Graph ℝ) (nodes : Array (Node ℝ)) (i j : ℕ) :
    Graph.addPair (settings.map ι) (g.map ι) (nodes.map (Node.map ι)) i j =
      (Graph.addPair settings g nodes i j).map (Node.map ι) := by
  rw [Graph.addPair, Graph.addPair, Array.getElem?_map, Array.getElem?_map, Graph.connected_map,
    Graph.connected_map]
  cases nodes[i]? with
  | none => rfl
  | some a =>
    cases nodes[j]? with
    | none => rfl
    | some b =>
      have hfirst : ∀ (v : Vec ℝ) (node : Node ℝ),
          (⟨(node.map ι).position, (node.map ι).force + v.map ι⟩ : Node α) =
            Node.map ι ⟨node.position, node.force + v⟩ := by
        intro v node
        rw [Node.map, Node.map, h.add]
      have hsecond : ∀ (v : Vec ℝ) (node : Node ℝ),
          (⟨(node.map ι).position, (node.map ι).force - v.map ι⟩ : Node α) =
            Node.map ι ⟨node.position, node.force - v⟩ := by
        intro v node
        rw [Node.map, Node.map, h.sub]
      simp only [Option.map_some]
      rw [Node.map, Node.map, ← h.pairForce hsqrt hideal, Graph.modify_map _ (hfirst _),
        Graph.modify_map _ (hsecond _)]

theorem addForces (h : Extends ι) (hsqrt : ∀ x : ℝ, Elementary.sqrt x = √x)
    (hideal : 0 < settings.idealLength) (g : Graph ℝ) :
    (g.addForces settings).map ι = (g.map ι).addForces (settings.map ι) := by
  rw [Graph.addForces, Graph.addForces, Graph.stateCount_map, Graph.map]
  refine congrArg (Graph.mk · g.keys) (Eq.symm ?_)
  exact List.foldl_hom (Array.map (Node.map ι)) fun nodes e =>
    h.addPair hsqrt hideal g nodes e.1 e.2

theorem cooling (h : Extends ι) (t : ℕ) : ι (Graph.cooling t) = Graph.cooling t := by
  rw [Graph.cooling, Graph.cooling, h.map_mul, h.map_exp, h.map_mul, h.map_neg, h.map_ofNat,
    h.map_literal, h.map_literal]

theorem displacement (h : Extends ι) (delta : ℝ) (node : Node ℝ) :
    (Graph.displacement delta node).map ι = Graph.displacement (ι delta) (node.map ι) :=
  h.scale _ _

/-- **An iteration** divides by the number of states only if there is one. -/
theorem iterate (h : Extends ι) (hsqrt : ∀ x : ℝ, Elementary.sqrt x = √x)
    (hideal : 0 < settings.idealLength) (g : Graph ℝ) (t : ℕ) :
    (g.iterate settings t).map ι = (g.map ι).iterate (settings.map ι) t := by
  have hforces : ((g.map ι).addForces (settings.map ι)).nodes =
      (g.addForces settings).nodes.map (Node.map ι) :=
    congrArg Graph.nodes (h.addForces hsqrt hideal g).symm
  simp only [Graph.iterate, hforces, ← h.cooling]
  generalize (g.addForces settings).nodes = forced
  generalize (Graph.cooling t : ℝ) = delta
  have hnodes : (forced.map fun node =>
        (⟨node.position + Graph.displacement delta node, Vec.zero⟩ : Node ℝ)).map (Node.map ι) =
      (forced.map (Node.map ι)).map fun node =>
        (⟨node.position + Graph.displacement (ι delta) node, Vec.zero⟩ : Node α) := by
    rw [Array.map_map, Array.map_map]
    refine congrArg (Array.map · forced) (funext fun node => ?_)
    simp only [Function.comp_def, ← h.displacement]
    rw [Node.map, h.add, h.zero]
    rfl
  have htotal : ι (forced.foldl (fun s node => s + node.force.length) 0.0) =
      (forced.map (Node.map ι)).foldl (fun s node => s + node.force.length) 0.0 := by
    rw [← h.map_literal]
    apply Graph.foldl_map
    intro s node
    rw [h.map_add, h.length]
    rfl
  have hlongest : ι (forced.foldl
        (fun m node => Scalar.max m (Graph.displacement delta node).length) 0.0) =
      (forced.map (Node.map ι)).foldl
        (fun m node => Scalar.max m (Graph.displacement (ι delta) node).length) 0.0 := by
    rw [← h.map_literal]
    apply Graph.foldl_map
    intro m node
    rw [h.map_max, h.length, h.displacement]
  have hmean : ι (if forced.size = 0 then 0.0
        else forced.foldl (fun s node => s + node.force.length) 0.0 / Scalar.ofNat forced.size) =
      if (forced.map (Node.map ι)).size = 0 then 0.0
        else (forced.map (Node.map ι)).foldl (fun s node => s + node.force.length) 0.0 /
          Scalar.ofNat (forced.map (Node.map ι)).size := by
    rw [← htotal, Array.size_map]
    split_ifs with hempty
    · exact h.map_literal _ _ _
    · have hcount : (Scalar.ofNat forced.size : ℝ) ≠ 0 := Nat.cast_ne_zero.mpr hempty
      rw [h.map_div _ _ hcount, h.map_ofNat]
  rw [Iteration.map, hmean, hlongest, Graph.map, hnodes]
  rfl

theorem relaxWithin (h : Extends ι) (hsqrt : ∀ x : ℝ, Elementary.sqrt x = √x)
    (hideal : 0 < settings.idealLength) (budget : ℕ) (r : Relaxation ℝ) :
    (Graph.relaxWithin settings budget r).map ι =
      Graph.relaxWithin (settings.map ι) budget (r.map ι) := by
  induction budget generalizing r with
  | zero => rfl
  | succ budget ih =>
    have hthreshold : ∀ i : Iteration ℝ,
        ((settings.map ι).threshold.any fun threshold => decide ((i.map ι).maxStep < threshold)) =
          settings.threshold.any fun threshold => decide (i.maxStep < threshold) := by
      intro i
      rw [LayoutSettings.map, Option.any_map]
      exact congrArg (Option.any · _) (funext fun x => decide_eq_decide.mpr (h.lt_iff _ x))
    have hstep : (r.map ι).graph.iterate (settings.map ι) (r.map ι).iterations =
        (r.graph.iterate settings r.iterations).map ι := (h.iterate hsqrt hideal _ _).symm
    rw [Graph.relaxWithin, Graph.relaxWithin, hstep, hthreshold]
    split
    · rfl
    · exact ih _

/-- **A relaxation.** -/
theorem relax (h : Extends ι) (hsqrt : ∀ x : ℝ, Elementary.sqrt x = √x)
    (hideal : 0 < settings.idealLength) (g : Graph ℝ) :
    (g.relax settings).map ι = (g.map ι).relax (settings.map ι) := by
  have hrun : Graph.relaxWithin (settings.map ι) (settings.map ι).iterations
        ⟨g.map ι, 0, 0.0, []⟩ =
      (Graph.relaxWithin settings settings.iterations ⟨g, 0, 0.0, []⟩).map ι := by
    rw [h.relaxWithin hsqrt hideal, Relaxation.map, h.map_literal]
    rfl
  have hfinite : ∀ r : Relaxation ℝ, (r.map ι).graph.positions.all Vec.isFinite =
      r.graph.positions.all Vec.isFinite := by
    intro r
    rw [Relaxation.map, Graph.positions_map, List.all_map]
    exact congrArg (List.all _) (funext h.vec_isFinite)
  rw [Graph.relax, Graph.relax, hrun, hfinite]
  split
  · rfl
  · rfl

/-! ## Resizing -/

theorem boundingBox (h : Extends ι) (g : Graph ℝ) :
    (g.map ι).boundingBox = g.boundingBox.map (·.map ι) := by
  rw [Graph.boundingBox, Graph.positions_map, h.enclosing]
  rfl

theorem rescale (h : Extends ι) {box : Bounds ℝ} (hw : box.width ≠ 0) (hh : box.height ≠ 0)
    (target : Bounds ℝ) (p : Vec ℝ) :
    (Graph.rescale box target p).map ι = Graph.rescale (box.map ι) (target.map ι) (p.map ι) := by
  simp only [Graph.rescale, Vec.map_mk, h.map_add, h.map_mul, h.map_div _ _ hw, h.map_div _ _ hh,
    h.width, h.height, Vec.sub_x, Vec.sub_y, h.map_sub]
  rfl

/-- **A resize** divides by the extents of the box of the states only if they are not zero. -/
theorem resize (h : Extends ι) (g : Graph ℝ) (target : Bounds ℝ) :
    (g.map ι).resize (target.map ι) =
      ((g.resize target).map (·.map ι)).mapError (·.map ι) := by
  have hbox := h.boundingBox g
  cases hcurrent : g.boundingBox with
  | none =>
    rw [Graph.resize, Graph.resize, hbox, hcurrent]
    rfl
  | some box =>
    have hzero : ι 0.0 = 0.0 := h.map_literal _ _ _
    have hbranch : ((box.map ι).width ≤ 0.0 ∨ (box.map ι).height ≤ 0.0) ↔
        (box.width ≤ 0.0 ∨ box.height ≤ 0.0) := by
      rw [← h.width, ← h.height, ← hzero, h.le_iff, h.le_iff]
    rw [Graph.resize, Graph.resize, hbox, hcurrent, Option.map_some]
    by_cases hflat : box.width ≤ 0.0 ∨ box.height ≤ 0.0
    · refine (if_pos (hbranch.mpr hflat)).trans ?_
      simp only [if_pos hflat, ← h.width, ← h.height]
      rfl
    · obtain ⟨hw, hh⟩ : box.width ≠ 0 ∧ box.height ≠ 0 := by
        rw [Scalar.zero_lit, not_or, not_le, not_le] at hflat
        exact ⟨hflat.1.ne', hflat.2.ne'⟩
      refine (if_neg (hbranch.not.mpr hflat)).trans ?_
      simp only [if_neg hflat]
      refine congrArg (fun nodes => Except.ok (Graph.mk nodes g.keys)) ?_
      rw [Graph.map, Array.map_map, Array.map_map]
      refine congrArg (Array.map · g.nodes) (funext fun node => ?_)
      simp only [Function.comp_def, Node.map, h.rescale hw hh]

/-! ## Edges -/

theorem ofTip (h : Extends ι) (tip back : Vec ℝ) (width length : ℝ) :
    (Arrowhead.ofTip tip back width length).map ι =
      Arrowhead.ofTip (tip.map ι) (back.map ι) (ι width) (ι length) := by
  have htwo : (2.0 : ℝ) ≠ 0 := by norm_num
  simp only [Arrowhead.ofTip, Arrowhead.map, h.add, h.sub, h.scale, h.perp, h.map_div _ _ htwo,
    h.map_literal]

theorem line (h : Extends ι) (hsqrt : ∀ x : ℝ, Elementary.sqrt x = √x) (style : EdgeStyle ℝ)
    (p q : Vec ℝ) :
    (EdgeShape.line style p q).map ι = EdgeShape.line (style.map ι) (p.map ι) (q.map ι) := by
  simp only [EdgeShape.line, EdgeShape.map, EdgeBody.map, h.ofTip, h.add, h.sub, h.scale,
    h.normalized hsqrt, h.map_min, h.length, h.map_literal]
  rfl

theorem bend (h : Extends ι) (hsqrt : ∀ x : ℝ, Elementary.sqrt x = √x) (style : EdgeStyle ℝ)
    (p q : Vec ℝ) :
    (EdgeShape.bend style p q).map ι = EdgeShape.bend (style.map ι) (p.map ι) (q.map ι) := by
  rw [EdgeShape.bend, EdgeShape.bend, h.add, h.scale, h.scale, h.add, h.normalized hsqrt, h.perp,
    h.sub, h.map_literal]
  rfl

/-- **A bent edge** divides by the radius of its arc. -/
theorem arc? (h : Extends ι) (hsqrt : ∀ x : ℝ, Elementary.sqrt x = √x)
    (hturn : (Scalar.turn : ℝ) ≠ 0) (style : EdgeStyle ℝ) (p q : Vec ℝ) :
    EdgeShape.arc? (style.map ι) (p.map ι) (q.map ι) =
      (EdgeShape.arc? style p q).map (·.map ι) := by
  rw [EdgeShape.arc?, EdgeShape.arc?, ← h.bend hsqrt, h.through]
  cases hfull : Arc.through p (EdgeShape.bend style p q) q with
  | none => rfl
  | some full =>
    have hc : full.Circumscribes ![p, EdgeShape.bend style p q, q] :=
      Arc.circumscribes_of_through hfull
    have hradius : full.radius ≠ 0 := (hc.radius_pos hsqrt).ne'
    have hten : (10.0 : ℝ) ≠ 0 := by norm_num
    -- To trim an arc leaves its radius as it is.
    have hhead : ∀ margin : ℝ, ι (style.arrowLength / (full.trim margin margin).radius) =
        ι style.arrowLength / ((full.map ι).trim (ι margin) (ι margin)).radius :=
      fun _ => h.map_div _ _ hradius
    simp only [Option.map_some, EdgeShape.map, EdgeBody.map, h.ofTip, h.trim, h.endPoint,
      h.endBackwardTangent, h.map_min, hhead, h.sweep hturn, h.map_div _ _ hten, h.map_literal]
    rfl

/-- **The shape of an edge.** -/
theorem edgeShape (h : Extends ι) (hsqrt : ∀ x : ℝ, Elementary.sqrt x = √x)
    (hturn : (Scalar.turn : ℝ) ≠ 0) (style : EdgeStyle ℝ) (g : Graph ℝ) (src dst : ℕ) :
    (g.map ι).edgeShape (style.map ι) src dst = (g.edgeShape style src dst).map (·.map ι) := by
  rw [Graph.edgeShape, Graph.edgeShape, Graph.position?_map, Graph.position?_map, Graph.isMutual,
    Graph.isMutual, Graph.connected_map, Graph.connected_map]
  cases g.position? src with
  | none => rfl
  | some p =>
    cases g.position? dst with
    | none => rfl
    | some q =>
      have hlength : (((q.map ι - p.map ι).lengthOr 0.0 == 0.0) : Bool) =
          ((q - p).lengthOr 0.0 == 0.0) := by
        rw [← h.sub, ← h.map_literal, ← h.lengthOr, h.beq_eq]
      simp only [Option.map_some, Option.bind_eq_bind, Option.bind_some, hlength]
      split_ifs
      · rfl
      · exact h.arc? hsqrt hturn style p q
      · exact congrArg some (h.line hsqrt style p q).symm

end Scalar.Extends

/-! ## All divisors and logarithms -/

namespace Graph

variable [Elementary ℝ]

/-- **Over the other number type the same comes out**: the layout, the resize and the edges of the
graph that `ι` takes there are what `ι` makes of those over the reals. -/
structure SameOver {α : Type} [Scalar α] (ι : ℝ → α) (settings : LayoutSettings ℝ)
    (style : EdgeStyle ℝ) (target : Bounds ℝ) (g : Graph ℝ) : Prop where
  iterate : ∀ t, (g.map ι).iterate (settings.map ι) t = (g.iterate settings t).map ι
  relax : (g.map ι).relax (settings.map ι) = (g.relax settings).map ι
  resize : (g.map ι).resize (target.map ι) =
    ((g.resize target).map (·.map ι)).mapError (·.map ι)
  edges : (g.map ι).edges = g.edges
  edgeShape : ∀ src dst,
    (g.map ι).edgeShape (style.map ι) src dst = (g.edgeShape style src dst).map (·.map ι)

/-- **No operation leaves its domain.** -/
structure Defined (settings : LayoutSettings ℝ) (style : EdgeStyle ℝ) (target : Bounds ℝ)
    (g : Graph ℝ) : Prop where
  /-- A length is divided by its larger component only where that is positive. -/
  component : ∀ v : Vec ℝ,
    ¬ Scalar.max (Scalar.abs v.x) (Scalar.abs v.y) < Vec.tolerance →
      0 < Scalar.max (Scalar.abs v.x) (Scalar.abs v.y)
  /-- A direction is divided by a positive length, whatever the vector. -/
  direction : ∀ v : Vec ℝ, 0 < v.lengthOr 1
  /-- The force between any two points is divided by their distance, which is positive as its square
  and its part of the ideal length are. Of that part the logarithm is taken. -/
  distance : ∀ p q : Vec ℝ, 0 < (q - p).lengthOr 1 ∧
    0 < (q - p).lengthOr 1 * (q - p).lengthOr 1 ∧ settings.idealLength ≠ 0 ∧
    0 < (q - p).lengthOr 1 / settings.idealLength
  /-- The mean force is divided by the number of states only if there are any. -/
  mean : ∀ g' : Graph ℝ, (g'.addForces settings).nodes.size ≠ 0 →
    (Scalar.ofNat (g'.addForces settings).nodes.size : ℝ) ≠ 0
  /-- A key is divided by the number of states only if there are any. -/
  key : ∀ k ∈ g.keys, g.stateCount ≠ 0
  /-- A resize divides by the extents of the box only if both are positive. -/
  box : ∀ g' box, g.resize target = .ok g' → g.boundingBox = some box →
    0 < box.width ∧ 0 < box.height
  /-- The arc through three points is divided by the cross product of two chords only if that is not
  zero. -/
  chords : ∀ a b c : Vec ℝ, ∀ arc, Arc.through a b c = some arc → (b - a).cross (c - b) ≠ 0
  /-- An arrow's length is divided by the radius of such an arc, trimmed or not. -/
  radius : ∀ a b c : Vec ℝ, ∀ arc, Arc.through a b c = some arc →
    ∀ start stop, 0 < (arc.trim start stop).radius
  /-- Nothing undefined has any part in the layout, the resize and the edges. -/
  extensions : ∀ {α : Type} [Scalar α] (ι : ℝ → α), Scalar.Extends ι →
    g.SameOver ι settings style target

variable {settings : LayoutSettings ℝ}

theorem sameOver (hsqrt : ∀ x : ℝ, Elementary.sqrt x = √x) (hturn : (Scalar.turn : ℝ) ≠ 0)
    (hideal : 0 < settings.idealLength) (style : EdgeStyle ℝ) (target : Bounds ℝ) (g : Graph ℝ)
    {α : Type} [Scalar α] {ι : ℝ → α} (h : Scalar.Extends ι) :
    g.SameOver ι settings style target where
  iterate t := (h.iterate hsqrt hideal g t).symm
  relax := (h.relax hsqrt hideal g).symm
  resize := h.resize g target
  edges := edges_map ι g
  edgeShape src dst := h.edgeShape hsqrt hturn style g src dst

theorem extents_pos {g g' : Graph ℝ} {target box : Bounds ℝ} (hok : g.resize target = .ok g')
    (hbox : g.boundingBox = some box) : 0 < box.width ∧ 0 < box.height := by
  obtain ⟨hw, hh⟩ := (Bounds.tight_of_enclosing hbox).extents
  by_cases hflat : box.width = 0 ∨ box.height = 0
  · cases (resize_of_flat hbox hflat target).symm.trans hok
  · obtain ⟨hw', hh'⟩ := not_or.mp hflat
    exact ⟨hw.lt_of_ne' hw', hh.lt_of_ne' hh'⟩

/-- **No division by zero and no logarithm of a number that is not positive**, for the square root
of the reals and any full turn but zero, whatever the points, the style and the target, if the ideal
length is positive:

* The larger component of a vector, a distance and its square, a length by which a direction is
  divided, and the radius of an arc are positive where they divide, and the cross product of two
  chords is not zero. The number of states is zero for no graph with a mean force or a key to
  decode, and the extents of the box are positive for every resize that succeeds.
* The part of the ideal length of which a logarithm is taken is positive.
* Over every number type that extends the reals the layout, the resize and the edges are those of
  the reals. So there is no other division and no other logarithm on which anything depends, however
  these are taken outside of their domains. -/
theorem defined_of_adjacency (hsqrt : ∀ x : ℝ, Elementary.sqrt x = √x)
    (hturn : (Scalar.turn : ℝ) ≠ 0) {rows : Adjacency} {g : Graph ℝ}
    (hg : ofAdjacency rows = .ok g) (points : ℕ → Vec ℝ) (hideal : 0 < settings.idealLength)
    (style : EdgeStyle ℝ) (target : Bounds ℝ) :
    (g.place points).Defined settings style target where
  component v hlarge := Vec.tolerance_pos.trans_le (not_lt.mp hlarge)
  direction v := v.lengthOr_pos hsqrt one_pos
  distance p q := by
    have hdist := (q - p).lengthOr_pos hsqrt one_pos
    exact ⟨hdist, mul_pos hdist hdist, hideal.ne', div_pos hdist hideal⟩
  mean g' hstates := Nat.cast_ne_zero.mpr hstates
  key k hk := by
    have hstored := (stored_of_ofAdjacency hg).place points
    obtain ⟨e, he, -⟩ := (hstored.mem_keys k).mp hk
    rw [hstored.stateCount_eq]
    exact Nat.ne_zero_of_lt (hstored.valid e he)
  box g' box hok hbox := extents_pos hok hbox
  chords a b c arc harc :=
    (Arc.circumscribes_of_through (p := ![a, b, c]) harc).orientation_ne_zero
  radius a b c arc harc start stop :=
    (Arc.circumscribes_of_through (p := ![a, b, c]) harc).radius_pos hsqrt
  extensions ι h := sameOver hsqrt hturn hideal style target _ h

omit [Elementary ℝ] in
/-- Two states with transitions back and forth and a third one on the second: over the reals with an
undefined value, the relaxation leaves nothing undefined. -/
theorem defined_of_adjacency_gathered :
    letI : Elementary ℝ := .real (fun _ => "") fun _ _ => ""
    ∃ g : Graph ℝ, ofAdjacency [[1], [0, 2], []] = .ok g ∧
      (Scalar.turn : ℝ) ≠ 0 ∧ 0 < (LayoutSettings.standard : LayoutSettings ℝ).idealLength ∧
      let placed := g.place fun i => if i = 0 then ⟨0, 0⟩ else ⟨30, 40⟩
      placed.Defined .standard .standard ⟨⟨0, 0⟩, ⟨8, 6⟩⟩ ∧
        (placed.map PartialReal.real).relax (LayoutSettings.standard.map PartialReal.real) =
          (placed.relax .standard).map PartialReal.real := by
  let _ : Elementary ℝ := .real (fun _ => "") fun _ _ => ""
  have hok : (ofAdjacency [[1], [0, 2], []] : Except (Fault ℝ) (Graph ℝ)) = .ok _ := rfl
  have hturn : (Scalar.turn : ℝ) ≠ 0 := Real.two_pi_pos.ne'
  have hideal : 0 < (LayoutSettings.standard : LayoutSettings ℝ).idealLength := by
    norm_num [LayoutSettings.standard]
  have hdefined := defined_of_adjacency (fun _ => rfl) hturn hok
    (fun i => if i = 0 then ⟨0, 0⟩ else ⟨30, 40⟩) hideal .standard ⟨⟨0, 0⟩, ⟨8, 6⟩⟩
  exact ⟨_, hok, hturn, hideal, hdefined, (hdefined.extensions _ PartialReal.extends_real).relax⟩

end Graph

end ParseReplay
