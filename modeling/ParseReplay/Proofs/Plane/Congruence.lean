import ParseReplay.Proofs.Plane.Vector

/-!
# Congruent figures

To shift the plane, to mirror it in an axis and to exchange its axes are motions that keep the shape
of every figure. Of what such motions are composed of it is enough to know how they turn
displacements: sums and multiples of displacements are turned term by term, and the length stays,
also by the rule that takes the larger component out and counts small vectors as zero.

## Main definitions

* `Vec.Motion`, `Vec.Motion.applyAll`: the motions, and several of them one after another
* `Vec.Congruence f turn`: a map of points with the map of displacements that it brings about

## Main results

* `Vec.Congruence.comp`: congruences are composed
* `Vec.Motion.congruence_applyAll`: motions one after another are a congruence
-/

namespace ParseReplay

namespace Vec

variable {K : Type} [Field K] [LinearOrder K] [Elementary K]

/-- A motion of the plane: a shift, a reflection in the vertical or the horizontal axis, or the
exchange of both axes. -/
inductive Motion (K : Type) where
  | shift (offset : Vec K)
  | mirrorX
  | mirrorY
  | swap

namespace Motion

/-- The point to which a point is moved. -/
def apply : Motion K → Vec K → Vec K
  | shift offset, p => p + offset
  | mirrorX, p => ⟨-p.x, p.y⟩
  | mirrorY, p => ⟨p.x, -p.y⟩
  | swap, p => ⟨p.y, p.x⟩

/-- The point to which several motions move a point, one after another. -/
def applyAll (motions : List (Motion K)) (p : Vec K) : Vec K :=
  motions.foldl (fun p m => m.apply p) p

end Motion

/-- **A congruence**: it moves points by `f` and turns the displacements between them by `turn`,
which keeps lengths. -/
structure Congruence (f : Vec K → Vec K) (turn : Vec K →+ Vec K) : Prop where
  map_add : ∀ p v, f (p + v) = f p + turn v
  map_scale : ∀ (v : Vec K) (t : K), turn (v * t) = turn v * t
  lengthOr_map : ∀ v fallback, (turn v).lengthOr fallback = v.lengthOr fallback

variable {f f' : Vec K → Vec K} {turn turn' : Vec K →+ Vec K}

/-- A congruence turns the displacement between two points. -/
theorem Congruence.map_sub (h : Congruence f turn) (p q : Vec K) : f q - f p = turn (q - p) := by
  rw [sub_eq_iff_eq_add', ← h.map_add, add_sub_cancel]

theorem Congruence.length_map (h : Congruence f turn) (v : Vec K) :
    (turn v).length = v.length := h.lengthOr_map v _

theorem congruence_id : Congruence id (AddMonoidHom.id (Vec K)) :=
  ⟨fun _ _ => rfl, fun _ _ => rfl, fun _ _ => rfl⟩

/-- **Congruences are composed.** -/
theorem Congruence.comp (h' : Congruence f' turn') (h : Congruence f turn) :
    Congruence (f' ∘ f) (turn'.comp turn) := by
  refine ⟨fun p v => ?_, fun v t => ?_, fun v fallback => ?_⟩
  · rw [Function.comp_apply, h.map_add, h'.map_add]
    rfl
  · rw [AddMonoidHom.comp_apply, h.map_scale, h'.map_scale]
    rfl
  · rw [AddMonoidHom.comp_apply, h'.lengthOr_map, h.lengthOr_map]

namespace Motion

/-- The displacements of a motion that fixes the origin are turned as the points are moved. -/
theorem congruence_of_linear {m : Motion K} (hadd : ∀ p v, m.apply (p + v) = m.apply p + m.apply v)
    (hscale : ∀ (v : Vec K) (t : K), m.apply (v * t) = m.apply v * t)
    (hlength : ∀ v fallback, (m.apply v).lengthOr fallback = v.lengthOr fallback) :
    ∃ turn, Congruence m.apply turn :=
  ⟨AddMonoidHom.mk' m.apply hadd, hadd, hscale, hlength⟩

variable [IsStrictOrderedRing K]

/-- **Every motion is a congruence.** -/
theorem congruence_apply (m : Motion K) : ∃ turn, Congruence m.apply turn := by
  cases m with
  | shift offset =>
    refine ⟨AddMonoidHom.id _, fun p v => ?_, fun _ _ => rfl, fun _ _ => rfl⟩
    exact add_right_comm p v offset
  | mirrorX =>
    apply congruence_of_linear
    · intro p v
      exact Vec.ext (neg_add _ _) rfl
    · intro v t
      exact Vec.ext (neg_mul_eq_neg_mul _ _) rfl
    · intro v fallback
      simp only [apply, lengthOr, Scalar.abs_eq, abs_neg]
  | mirrorY =>
    apply congruence_of_linear
    · intro p v
      exact Vec.ext rfl (neg_add _ _)
    · intro v t
      exact Vec.ext rfl (neg_mul_eq_neg_mul _ _)
    · intro v fallback
      simp only [apply, lengthOr, Scalar.abs_eq, abs_neg]
  | swap =>
    apply congruence_of_linear
    · intro p v
      rfl
    · intro v t
      rfl
    · intro v fallback
      -- The larger component is the same, and so is the sum under the root.
      simp only [apply, lengthOr, Scalar.max_eq, sup_comm, add_comm]

/-- **Motions one after another are a congruence.** -/
theorem congruence_applyAll (motions : List (Motion K)) :
    ∃ turn, Congruence (applyAll motions) turn := by
  induction motions with
  | nil => exact ⟨_, congruence_id⟩
  | cons m motions ih =>
    obtain ⟨turn, hturn⟩ := m.congruence_apply
    obtain ⟨turn', hturn'⟩ := ih
    exact ⟨_, hturn'.comp hturn⟩

end Motion

end Vec

end ParseReplay
