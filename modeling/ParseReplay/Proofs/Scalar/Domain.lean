import ParseReplay.Proofs.Scalar.Exact

/-!
# Operations within their domains

Read over a field, a quotient by zero is a number, and so are the root of a negative number and the
logarithm of zero; but no such number means anything. A number type extends the reals if it agrees
with them on every operation that means something. What it does elsewhere is open: there it may
give any number, or an error that is passed on. So a computation that comes out over all extensions
as over the reals does not leave the domain of any operation.

## Main definitions

* `Scalar.Extends ι`: the number type extends the reals, which lie in it by `ι`
* `PartialReal`: the reals with one more value, for what is not defined

## Main results

* `Scalar.Extends.map_max`, `Scalar.Extends.map_abs`, `Scalar.Extends.map_wrap`: extremes,
  magnitudes and wrapped angles are those of the reals
* `PartialReal.extends_real`: the reals with an undefined value extend the reals
-/

namespace ParseReplay

namespace Scalar

/-- **The number type extends the reals**, which lie in it by `ι`: each of its operations agrees
with that of the reals where that is defined. Nothing is said of a quotient by zero, of the root of
a negative number, of the logarithm of a number that is not positive, and of the remainder in a zero
modulus. -/
structure Extends [Elementary ℝ] {α : Type} [Scalar α] (ι : ℝ → α) : Prop where
  map_add : ∀ a b, ι (a + b) = ι a + ι b
  map_sub : ∀ a b, ι (a - b) = ι a - ι b
  map_mul : ∀ a b, ι (a * b) = ι a * ι b
  map_neg : ∀ a, ι (-a) = -ι a
  map_div : ∀ a b, b ≠ 0 → ι (a / b) = ι a / ι b
  map_literal : ∀ (m : ℕ) (s : Bool) (e : ℕ),
    ι (OfScientific.ofScientific m s e) = OfScientific.ofScientific m s e
  map_ofNat : ∀ n, ι (Scalar.ofNat n) = Scalar.ofNat n
  map_sqrt : ∀ a, 0 ≤ a → ι (Scalar.sqrt a) = Scalar.sqrt (ι a)
  map_ln : ∀ a, 0 < a → ι (Scalar.ln a) = Scalar.ln (ι a)
  map_exp : ∀ a, ι (Scalar.exp a) = Scalar.exp (ι a)
  map_sin : ∀ a, ι (Scalar.sin a) = Scalar.sin (ι a)
  map_cos : ∀ a, ι (Scalar.cos a) = Scalar.cos (ι a)
  map_atan2 : ∀ y x, ι (Scalar.atan2 y x) = Scalar.atan2 (ι y) (ι x)
  map_remainder : ∀ a m, m ≠ 0 → ι (Scalar.remainder a m) = Scalar.remainder (ι a) (ι m)
  map_turn : ι Scalar.turn = Scalar.turn
  lt_iff : ∀ a b, ι a < ι b ↔ a < b
  le_iff : ∀ a b, ι a ≤ ι b ↔ a ≤ b
  beq_eq : ∀ a b, (ι a == ι b) = (a == b)
  isFinite_eq : ∀ a, Scalar.isFinite (ι a) = Scalar.isFinite a

namespace Extends

variable [Elementary ℝ] {α : Type} [Scalar α] {ι : ℝ → α}

theorem map_min (h : Extends ι) (a b : ℝ) : ι (Scalar.min a b) = Scalar.min (ι a) (ι b) := by
  rw [Scalar.min, Scalar.min, apply_ite ι, apply_ite ι, h.beq_eq]
  exact if_congr (h.lt_iff b a).symm rfl rfl

theorem map_max (h : Extends ι) (a b : ℝ) : ι (Scalar.max a b) = Scalar.max (ι a) (ι b) := by
  rw [Scalar.max, Scalar.max, apply_ite ι, apply_ite ι, h.beq_eq]
  exact if_congr (h.lt_iff a b).symm rfl rfl

theorem map_abs (h : Extends ι) (a : ℝ) : ι (Scalar.abs a) = Scalar.abs (ι a) := by
  rw [Scalar.abs, Scalar.abs, apply_ite ι, h.map_neg, ← h.map_literal]
  exact if_congr (h.lt_iff a _).symm rfl rfl

theorem map_wrap (h : Extends ι) (hturn : (Scalar.turn : ℝ) ≠ 0) (a : ℝ) :
    ι (Scalar.wrap a) = Scalar.wrap (ι a) := by
  rw [Scalar.wrap, Scalar.wrap, apply_ite ι, h.map_add, h.map_remainder a _ hturn, h.map_turn]
  refine if_congr ?_ rfl rfl
  rw [← h.map_turn, ← h.map_remainder a _ hturn, ← h.map_literal, h.lt_iff]

end Extends

end Scalar

/-! ## The reals with an undefined value -/

/-- A real number, or nothing where a number is not defined. -/
structure PartialReal where
  value? : Option ℝ

namespace PartialReal

/-- A real number as a number that is defined. -/
def real (x : ℝ) : PartialReal := ⟨some x⟩

/-- Nothing comes of what is undefined, and nothing of a number outside the domain. -/
noncomputable def lift (domain : ℝ → Prop) (f : ℝ → ℝ) (a : PartialReal) : PartialReal :=
  open Classical in ⟨a.value?.bind fun x => if domain x then some (f x) else none⟩

/-- Nothing comes of two numbers if one of them is undefined, or the second one is outside the
domain. -/
noncomputable def lift₂ (domain : ℝ → Prop) (f : ℝ → ℝ → ℝ) (a b : PartialReal) : PartialReal :=
  open Classical in
  ⟨a.value?.bind fun x => b.value?.bind fun y => if domain y then some (f x y) else none⟩

/-- Two numbers are compared if both are defined. -/
def Compare (r : ℝ → ℝ → Prop) (a b : PartialReal) : Prop :=
  ∃ x ∈ a.value?, ∃ y ∈ b.value?, r x y

open Classical in
/-- Arithmetic with an undefined value. -/
noncomputable instance [Elementary ℝ] : Scalar PartialReal where
  add := lift₂ (fun _ => True) (· + ·)
  sub := lift₂ (fun _ => True) (· - ·)
  mul := lift₂ (fun _ => True) (· * ·)
  div := lift₂ (· ≠ 0) (· / ·)
  neg := lift (fun _ => True) (-·)
  ofScientific m s e := real (OfScientific.ofScientific m s e)
  lt := Compare (· < ·)
  le := Compare (· ≤ ·)
  beq a b := decide (Compare (· = ·) a b)
  toDecidableLT _ _ := inferInstance
  toDecidableLE _ _ := inferInstance
  ofNat n := real n
  sqrt := lift (0 ≤ ·) Scalar.sqrt
  ln := lift (0 < ·) Scalar.ln
  exp := lift (fun _ => True) Scalar.exp
  sin := lift (fun _ => True) Scalar.sin
  cos := lift (fun _ => True) Scalar.cos
  atan2 := lift₂ (fun _ => True) Scalar.atan2
  remainder := lift₂ (· ≠ 0) Scalar.remainder
  turn := real Scalar.turn
  isFinite a := a.value?.any Scalar.isFinite
  text a := (a.value?.map Scalar.text).getD ""
  fixed n a := (a.value?.map (Scalar.fixed n)).getD ""

theorem lift_real (domain : ℝ → Prop) {f : ℝ → ℝ} {x : ℝ} (h : domain x) :
    lift domain f (real x) = real (f x) := by
  simp [lift, real, h]

theorem lift₂_real (domain : ℝ → Prop) {f : ℝ → ℝ → ℝ} {x y : ℝ} (h : domain y) :
    lift₂ domain f (real x) (real y) = real (f x y) := by
  simp [lift₂, real, h]

theorem compare_real {r : ℝ → ℝ → Prop} {x y : ℝ} : Compare r (real x) (real y) ↔ r x y := by
  simp [Compare, real]

/-- **The reals with an undefined value extend the reals.** -/
theorem extends_real [Elementary ℝ] : Scalar.Extends real where
  map_add _ _ := (lift₂_real _ trivial).symm
  map_sub _ _ := (lift₂_real _ trivial).symm
  map_mul _ _ := (lift₂_real _ trivial).symm
  map_neg _ := (lift_real _ trivial).symm
  map_div _ _ h := (lift₂_real (· ≠ 0) h).symm
  map_literal _ _ _ := rfl
  map_ofNat _ := rfl
  map_sqrt _ h := (lift_real (0 ≤ ·) h).symm
  map_ln _ h := (lift_real (0 < ·) h).symm
  map_exp _ := (lift_real _ trivial).symm
  map_sin _ := (lift_real _ trivial).symm
  map_cos _ := (lift_real _ trivial).symm
  map_atan2 _ _ := (lift₂_real _ trivial).symm
  map_remainder _ _ h := (lift₂_real (· ≠ 0) h).symm
  map_turn := rfl
  lt_iff _ _ := compare_real
  le_iff _ _ := compare_real
  beq_eq _ _ := decide_eq_decide.mpr compare_real
  isFinite_eq _ := rfl

end PartialReal

end ParseReplay
