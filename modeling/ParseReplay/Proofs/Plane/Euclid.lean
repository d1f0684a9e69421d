import ParseReplay.Proofs.Plane.Vector

/-!
# The Euclidean length

The length of a vector is taken with the larger component out, as `m * √((x / m)² + (y / m)²)`. Read
over the reals this is the Euclidean length, apart from vectors that count as zero.

## Main definitions

* `Vec.Tiny`: a vector that counts as zero
* `Vec.norm`: the Euclidean length

## Main results

* `Vec.lengthOr_of_tiny`, `Vec.lengthOr_eq_norm`: the length of a vector that counts as zero, and of
  all others
* `Vec.tolerance_le_norm`: a vector that does not count as zero is not shorter than the tolerance
* `Vec.length_scale`, `Vec.norm_normalized`: the length of a multiple, and of a direction
-/

namespace ParseReplay

namespace Vec

section Tiny

variable {K : Type} [Field K] [LinearOrder K]

/-- Both components are below the tolerance. -/
def Tiny (v : Vec K) : Prop := |v.x| < 1e-8 ∧ |v.y| < 1e-8

instance (v : Vec K) : Decidable v.Tiny := inferInstanceAs (Decidable (_ ∧ _))

variable [Elementary K] [IsStrictOrderedRing K] {v : Vec K}

omit [IsStrictOrderedRing K] in
theorem tiny_iff : v.Tiny ↔ |v.x| ⊔ |v.y| < tolerance := max_lt_iff.symm

omit [IsStrictOrderedRing K] in
theorem tolerance_le_of_not_tiny (h : ¬ v.Tiny) : tolerance ≤ |v.x| ⊔ |v.y| :=
  not_lt.mp fun hlt => h (tiny_iff.mpr hlt)

omit [Elementary K] in
theorem tiny_zero : (0 : Vec K).Tiny := by
  have hpos : |(0 : K)| < 1e-8 := by norm_num
  exact ⟨hpos, hpos⟩

theorem lengthOr_of_tiny (h : v.Tiny) (fallback : K) : v.lengthOr fallback = fallback := by
  simp only [lengthOr, Scalar.max_eq, Scalar.abs_eq]
  exact if_pos (tiny_iff.mp h)

theorem Tiny.scale (h : v.Tiny) {t : K} (ht : |t| ≤ 1) : (v * t).Tiny := by
  rw [Tiny, mul_x, mul_y, abs_mul, abs_mul]
  exact ⟨(mul_le_of_le_one_right (abs_nonneg _) ht).trans_lt h.1,
    (mul_le_of_le_one_right (abs_nonneg _) ht).trans_lt h.2⟩

end Tiny

/-- The Euclidean length. -/
noncomputable def norm (v : Vec ℝ) : ℝ := √(v.x ^ 2 + v.y ^ 2)

theorem norm_nonneg (v : Vec ℝ) : 0 ≤ v.norm := Real.sqrt_nonneg _

theorem norm_le (v : Vec ℝ) : v.norm ≤ |v.x| + |v.y| := by
  rw [norm, Real.sqrt_le_iff]
  refine ⟨add_nonneg (abs_nonneg _) (abs_nonneg _), ?_⟩
  rw [add_sq, sq_abs, sq_abs]
  linarith [mul_nonneg (abs_nonneg v.x) (abs_nonneg v.y)]

variable [Elementary ℝ] {v : Vec ℝ}

theorem tolerance_eq : (tolerance : ℝ) = 1 / 10 ^ 8 := by norm_num [tolerance]

theorem tolerance_pos : (0 : ℝ) < tolerance := by norm_num [tolerance_eq]

/-- Two points are near each other if neither of their coordinates differs by `1e-8`. -/
theorem tiny_sub_iff {p q : Vec ℝ} :
    (q - p).Tiny ↔ |q.x - p.x| < 1 / 10 ^ 8 ∧ |q.y - p.y| < 1 / 10 ^ 8 := by
  rw [← tolerance_eq]
  rfl

/-- **All other vectors have their Euclidean length**, for the square root of the reals. -/
theorem lengthOr_eq_norm (hsqrt : ∀ x : ℝ, Elementary.sqrt x = √x) (h : ¬ v.Tiny)
    (fallback : ℝ) : v.lengthOr fallback = v.norm := by
  have hlarge : (tolerance : ℝ) ≤ |v.x| ⊔ |v.y| := tolerance_le_of_not_tiny h
  have hpos : 0 < |v.x| ⊔ |v.y| := tolerance_pos.trans_le hlarge
  simp only [lengthOr, Scalar.max_eq, Scalar.abs_eq]
  rw [if_neg (not_lt.mpr hlarge)]
  generalize |v.x| ⊔ |v.y| = m at hpos ⊢
  calc m * Elementary.sqrt (|v.x| / m * (|v.x| / m) + |v.y| / m * (|v.y| / m))
      = √(m ^ 2) * √(|v.x| / m * (|v.x| / m) + |v.y| / m * (|v.y| / m)) := by
        rw [hsqrt, Real.sqrt_sq hpos.le]
    _ = √(m ^ 2 * (|v.x| / m * (|v.x| / m) + |v.y| / m * (|v.y| / m))) :=
        (Real.sqrt_mul (sq_nonneg m) _).symm
    _ = v.norm := by
        rw [norm, ← sq_abs v.x, ← sq_abs v.y]
        congr 1
        field_simp

omit [Elementary ℝ] in
theorem norm_sq (v : Vec ℝ) : v.norm ^ 2 = v.x ^ 2 + v.y ^ 2 :=
  Real.sq_sqrt (add_nonneg (sq_nonneg _) (sq_nonneg _))

/-- A vector that does not count as zero is not shorter than the tolerance. -/
theorem tolerance_le_norm (h : ¬ v.Tiny) : tolerance ≤ v.norm := by
  refine (tolerance_le_of_not_tiny h).trans (max_le ?_ ?_)
  · exact Real.abs_le_sqrt (le_add_of_nonneg_right (sq_nonneg v.y))
  · exact Real.abs_le_sqrt (le_add_of_nonneg_left (sq_nonneg v.x))

theorem norm_pos (h : ¬ v.Tiny) : 0 < v.norm := tolerance_pos.trans_le (tolerance_le_norm h)

/-- The length is zero exactly for the vectors that count as zero. -/
theorem lengthOr_eq_zero_iff (hsqrt : ∀ x : ℝ, Elementary.sqrt x = √x) :
    v.lengthOr 0 = 0 ↔ v.Tiny := by
  constructor
  · intro h
    by_contra htiny
    rw [lengthOr_eq_norm hsqrt htiny] at h
    exact (norm_pos htiny).ne' h
  · intro h
    exact lengthOr_of_tiny h 0

/-- A vector is divided by its Euclidean length. -/
theorem normalized_eq (hsqrt : ∀ x : ℝ, Elementary.sqrt x = √x) (h : ¬ v.Tiny) :
    v.normalized = ⟨v.x / v.norm, v.y / v.norm⟩ := by
  rw [normalized, lengthOr_eq_norm hsqrt h]

/-! ## Opposites, multiples and products -/

theorem norm_neg (v : Vec ℝ) : (-v).norm = v.norm := by
  rw [norm, norm, neg_x, neg_y, neg_sq, neg_sq]

theorem normalized_neg (v : Vec ℝ) : (-v).normalized = -v.normalized := by
  rw [normalized, normalized, lengthOr_neg]
  exact Vec.ext (neg_div _ _) (neg_div _ _)

theorem norm_scale (v : Vec ℝ) (t : ℝ) : (v * t).norm = |t| * v.norm := by
  rw [norm, norm, mul_x, mul_y, mul_pow, mul_pow, ← add_mul, mul_comm,
    Real.sqrt_mul (sq_nonneg t), Real.sqrt_sq_eq_abs]

/-- Between vectors that do not count as zero a multiple is as many times as long. -/
theorem length_scale (hsqrt : ∀ x : ℝ, Elementary.sqrt x = √x) (h : ¬ v.Tiny) {t : ℝ}
    (ht : ¬ (v * t).Tiny) : (v * t).length = |t| * v.length := by
  rw [length, length, lengthOr_eq_norm hsqrt ht, lengthOr_eq_norm hsqrt h, norm_scale]

/-! ## Directions -/

theorem norm_scale_inv (h : 0 < v.norm) : (v * v.norm⁻¹).norm = 1 := by
  rw [norm_scale, abs_of_pos (inv_pos.mpr h), inv_mul_cancel₀ h.ne']

/-- **A direction is of length one.** -/
theorem norm_normalized (hsqrt : ∀ x : ℝ, Elementary.sqrt x = √x) (h : ¬ v.Tiny) :
    v.normalized.norm = 1 := by
  have hscale : v.normalized = v * v.norm⁻¹ := by
    rw [normalized_eq hsqrt h]
    exact Vec.ext (div_eq_mul_inv _ _) (div_eq_mul_inv _ _)
  rw [hscale, norm_scale_inv (norm_pos h)]

/-- A direction does not count as zero, so that its length is one also if it is taken with the
larger component out. -/
theorem length_normalized (hsqrt : ∀ x : ℝ, Elementary.sqrt x = √x) (h : ¬ v.Tiny) :
    v.normalized.length = 1 := by
  have hnorm : v.normalized.norm = 1 := norm_normalized hsqrt h
  have htiny : ¬ v.normalized.Tiny := by
    rintro ⟨hx, hy⟩
    norm_num at hx hy
    linarith [norm_le v.normalized]
  rw [length, lengthOr_eq_norm hsqrt htiny, hnorm]

/-- A multiple by a positive factor has the same direction. -/
theorem normalized_scale (hsqrt : ∀ x : ℝ, Elementary.sqrt x = √x) {t : ℝ} (ht : 0 < t)
    (h : ¬ (v * t).Tiny) : (v * t).normalized = v * v.norm⁻¹ := by
  have hdivide : ∀ x : ℝ, x * t / (|t| * v.norm) = x * v.norm⁻¹ := fun x => by
    rw [abs_of_pos ht, mul_comm x, mul_div_mul_left _ _ ht.ne', div_eq_mul_inv]
  rw [normalized_eq hsqrt h, norm_scale]
  exact Vec.ext (hdivide v.x) (hdivide v.y)

theorem dot_self (v : Vec ℝ) : v.dot v = v.norm ^ 2 := by
  rw [norm_sq, dot]
  ring

/-- Two vectors span at most the product of their lengths. -/
theorem abs_cross_le (u v : Vec ℝ) : |u.cross v| ≤ u.norm * v.norm := by
  apply abs_le_of_sq_le_sq _ (mul_nonneg (norm_nonneg u) (norm_nonneg v))
  calc u.cross v ^ 2 ≤ u.cross v ^ 2 + u.dot v ^ 2 := le_add_of_nonneg_right (sq_nonneg _)
    _ = (u.norm * v.norm) ^ 2 := by
      rw [mul_pow, norm_sq, norm_sq, cross, dot]
      ring

/-! ## Quarter turns -/

theorem tiny_perp : v.perp.Tiny ↔ v.Tiny := by
  rw [Tiny, Tiny, perp_x, perp_y, abs_neg, and_comm]

theorem norm_perp (v : Vec ℝ) : v.perp.norm = v.norm := by
  rw [norm, norm, perp_x, perp_y, neg_sq, add_comm]

/-- A multiple of a vector and one of its quarter turn stand at a right angle. -/
theorem norm_add_perp (v : Vec ℝ) (s t : ℝ) :
    (v * s + v.perp * t).norm = √(s ^ 2 + t ^ 2) * v.norm := by
  rw [norm, norm, ← Real.sqrt_mul (add_nonneg (sq_nonneg s) (sq_nonneg t))]
  congr 1
  simp only [add_x, add_y, mul_x, mul_y, perp_x, perp_y]
  ring

end Vec

end ParseReplay
