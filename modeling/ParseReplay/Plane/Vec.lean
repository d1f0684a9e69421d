import ParseReplay.Scalar

/-!
# Vectors of the drawing plane

Points and displacements; `y` grows downward. The length takes the larger component out before
squaring, so that it stays in range for every input, and treats a vector as zero when both
components are below a threshold.

## Main definitions

* `Vec α`: a point or displacement
* `Vec.lengthOr`, `Vec.length`, `Vec.normalized`: length with a value for the zero vector
* `Vec.perp`, `Vec.dot`, `Vec.cross`: quarter turn and products
* `Vec.ofAngle`, `Vec.lerp`: the unit vector of an angle, interpolation
-/

namespace ParseReplay

/-- A point or displacement of the plane. -/
structure Vec (α : Type) where
  x : α
  y : α
deriving DecidableEq, Inhabited

namespace Vec

variable {α : Type} [Scalar α]

/-- Components below this magnitude count as zero. -/
@[inline] def tolerance : α := 1e-8

/-- The origin. -/
@[inline] def zero : Vec α := ⟨0.0, 0.0⟩

instance : Add (Vec α) := ⟨fun a b => ⟨a.x + b.x, a.y + b.y⟩⟩

instance : Sub (Vec α) := ⟨fun a b => ⟨a.x - b.x, a.y - b.y⟩⟩

instance : Neg (Vec α) := ⟨fun a => ⟨-a.x, -a.y⟩⟩

instance : HMul (Vec α) α (Vec α) := ⟨fun a t => ⟨a.x * t, a.y * t⟩⟩

instance : BEq (Vec α) := ⟨fun a b => a.x == b.x && a.y == b.y⟩

/-- The Euclidean length, or `fallback` where both components are below the tolerance. -/
@[inline] def lengthOr (v : Vec α) (fallback : α) : α :=
  let m := Scalar.max (Scalar.abs v.x) (Scalar.abs v.y)
  if m < tolerance then fallback
  else
    let x := Scalar.abs v.x / m
    let y := Scalar.abs v.y / m
    m * Scalar.sqrt (x * x + y * y)

/-- The Euclidean length; zero where both components are below the tolerance. -/
@[inline] def length (v : Vec α) : α :=
  v.lengthOr 0.0

/-- The unit vector of the same direction; a vector without length keeps its components. -/
def normalized (v : Vec α) : Vec α :=
  let len := v.lengthOr 1.0
  ⟨v.x / len, v.y / len⟩

/-- The quarter turn `(-y, x)`. -/
@[inline] def perp (v : Vec α) : Vec α := ⟨-v.y, v.x⟩

/-- The scalar product. -/
@[inline] def dot (a b : Vec α) : α := a.x * b.x + a.y * b.y

/-- The signed area of the parallelogram of two vectors. -/
@[inline] def cross (a b : Vec α) : α := a.x * b.y - a.y * b.x

/-- The point of the unit circle at an angle. -/
def ofAngle (angle : α) : Vec α := ⟨Scalar.cos angle, Scalar.sin angle⟩

/-- The point a part `t` of the way from `a` to `b`. -/
def lerp (a b : Vec α) (t : α) : Vec α := a + (b - a) * t

/-- Both components are finite. -/
@[inline] def isFinite (v : Vec α) : Bool := Scalar.isFinite v.x && Scalar.isFinite v.y

/-! ## Components -/

@[simp] theorem zero_x : (zero : Vec α).x = 0.0 := rfl

@[simp] theorem zero_y : (zero : Vec α).y = 0.0 := rfl

@[simp] theorem add_x (a b : Vec α) : (a + b).x = a.x + b.x := rfl

@[simp] theorem add_y (a b : Vec α) : (a + b).y = a.y + b.y := rfl

@[simp] theorem sub_x (a b : Vec α) : (a - b).x = a.x - b.x := rfl

@[simp] theorem sub_y (a b : Vec α) : (a - b).y = a.y - b.y := rfl

@[simp] theorem neg_x (a : Vec α) : (-a).x = -a.x := rfl

@[simp] theorem neg_y (a : Vec α) : (-a).y = -a.y := rfl

@[simp] theorem mul_x (a : Vec α) (t : α) : (a * t).x = a.x * t := rfl

@[simp] theorem mul_y (a : Vec α) (t : α) : (a * t).y = a.y * t := rfl

@[simp] theorem perp_x (a : Vec α) : a.perp.x = -a.y := rfl

@[simp] theorem perp_y (a : Vec α) : a.perp.y = a.x := rfl

end Vec

end ParseReplay
