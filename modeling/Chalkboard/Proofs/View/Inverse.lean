import Chalkboard.Proofs.View.Exact

/-!
# From pixels to user coordinates and back

In exact arithmetic the two directions undo each other on every view that shows something
(`Viewport.toUser_toScreen`). One of them goes through the inverse of the projection, the other one
through the projection itself. The inverse by cofactors undoes any matrix that has one
(`Matrix4.apply_inverse`), so it is enough to know what the projection does; on each axis that leaves
a proportion, with `y` turned over (`Viewport.toUser?_eq`, `Viewport.toScreen_eq`).
-/

namespace Chalkboard

variable {K : Type} [FieldScalar K]

namespace Matrix4

/-- The expansion of the determinant along a column; along another one it vanishes. -/
theorem cofactors_apply (m : Matrix4 K) (v : Vector4 K) (i : Fin 4) :
    m.cofactor 0 i * m.apply v 0 + m.cofactor 1 i * m.apply v 1 + m.cofactor 2 i * m.apply v 2 +
      m.cofactor 3 i * m.apply v 3 = m.det * v i := by
  fin_cases i <;>
    simp [det, cofactor, det3, skip, apply] <;>
    ring

/-- The inverse undoes the matrix. -/
theorem apply_inverse {m inverse : Matrix4 K} (h : m.inverse? = some inverse) (v : Vector4 K) :
    inverse.apply (m.apply v) = v := by
  by_cases hdet : m.det = 0
  · simp [inverse?, hdet] at h
  · have hinverse : inverse = fun i j => m.cofactor j i * (1 / m.det) := by
      simpa [inverse?, hdet, eq_comm] using h
    funext i
    have hexpand := m.cofactors_apply v i
    rw [hinverse]
    simp only [apply] at hexpand ⊢
    field_simp
    linear_combination hexpand

theorem exists_inverse {m : Matrix4 K} (h : m.det ≠ 0) :
    ∃ inverse, m.inverse? = some inverse := by
  simp [inverse?, h]

end Matrix4

namespace BoundingBox

variable (b : BoundingBox K)

theorem width_pos (h : b.isDegenerate = false) : 0 < b.width :=
  sub_pos.2 (b.isDegenerate_eq_false_iff.1 h).1

theorem height_pos (h : b.isDegenerate = false) : 0 < b.height :=
  sub_pos.2 (b.isDegenerate_eq_false_iff.1 h).2

/-- The projection takes the box to the square from -1 to 1, and the depth 1 to 0. -/
theorem apply_projection (x y z : K) :
    b.projection.apply ![x, y, z, 1] =
      ![(2 * x - (b.right + b.left)) / b.width, (2 * y - (b.top + b.bottom)) / b.height,
        (1 - z) / 2, 1] := by
  funext i
  fin_cases i <;>
    simp [Matrix4.apply, projection, projection.row, width, height] <;>
    ring

end BoundingBox

theorem Matrix4.homogeneous_eq (p : Point K) : homogeneous p = ![p.x, p.y, 0, 1] := by
  funext i
  fin_cases i <;> simp [homogeneous]

namespace Viewport

variable (v : Viewport K)

/-- The view shows something: the canvas is not empty and the box has an area. -/
def Shows (v : Viewport K) : Prop :=
  v.width ≠ 0 ∧ v.height ≠ 0 ∧ v.box.isDegenerate = false

/-- The user coordinates of a pixel, by proportion from the top left corner. -/
def locate (v : Viewport K) (pixel : Point K) : Point K :=
  ⟨v.box.left + pixel.x / v.width.toNat * v.box.width,
   v.box.top - pixel.y / v.height.toNat * v.box.height⟩

variable {v}

theorem Shows.width_ne_zero (h : v.Shows) : (v.width.toNat : K) ≠ 0 := by
  have hwidth : v.width.toNat ≠ 0 := fun hzero => h.1 (UInt32.toNat_inj.1 hzero)
  exact_mod_cast hwidth

theorem Shows.height_ne_zero (h : v.Shows) : (v.height.toNat : K) ≠ 0 := by
  have hheight : v.height.toNat ≠ 0 := fun hzero => h.2.1 (UInt32.toNat_inj.1 hzero)
  exact_mod_cast hheight

/-- The pixel is sent to the square, and from there to the box. -/
theorem toUser?_eq (h : v.Shows) (pixel : Point K) : v.toUser? pixel = some (v.locate pixel) := by
  obtain ⟨inverse, hinverse⟩ := Matrix4.exists_inverse (v.box.det_projection_ne_zero h.2.2)
  have hflat : ¬ (v.width = 0 ∨ v.height = 0 ∨ v.box.isDegenerate = true) := by
    rw [not_or, not_or, Bool.not_eq_true]
    exact h
  have hwidth := (v.box.width_pos h.2.2).ne'
  have hheight := (v.box.height_pos h.2.2).ne'
  -- the projection takes the located point, one unit deep, to the place of the pixel in the square
  have hplace : Matrix4.homogeneous
      (⟨2 * pixel.x / v.width.toNat - 1, 1 - 2 * pixel.y / v.height.toNat⟩ : Point K) =
        v.box.projection.apply ![(v.locate pixel).x, (v.locate pixel).y, 1, 1] := by
    rw [Matrix4.homogeneous_eq, BoundingBox.apply_projection]
    have hx : 2 * pixel.x / v.width.toNat - 1 =
        (2 * (v.locate pixel).x - (v.box.right + v.box.left)) / v.box.width := by
      rw [eq_div_iff hwidth]
      simp only [locate, BoundingBox.width]
      ring
    have hy : 1 - 2 * pixel.y / v.height.toNat =
        (2 * (v.locate pixel).y - (v.box.top + v.box.bottom)) / v.box.height := by
      rw [eq_div_iff hheight]
      simp only [locate, BoundingBox.height]
      ring
    rw [hx, hy, sub_self, zero_div]
  have himage : inverse.image
      ⟨2 * pixel.x / v.width.toNat - 1, 1 - 2 * pixel.y / v.height.toNat⟩ = v.locate pixel := by
    simp only [Matrix4.image, hplace, Matrix4.apply_inverse hinverse]
    rfl
  simp [toUser?, hflat, hinverse, himage]

/-- The point is sent to the square, and from there to the canvas. -/
theorem toScreen_eq (h : v.Shows) (p : Point K) :
    v.toScreen p =
      ⟨(p.x - v.box.left) / v.box.width * v.width.toNat,
       (v.box.top - p.y) / v.box.height * v.height.toNat⟩ := by
  have hwidth : v.box.right - v.box.left ≠ 0 := (v.box.width_pos h.2.2).ne'
  have hheight : v.box.top - v.box.bottom ≠ 0 := (v.box.height_pos h.2.2).ne'
  have hplace : v.box.projection.image p = ⟨(2 * p.x - (v.box.right + v.box.left)) / v.box.width,
      (2 * p.y - (v.box.top + v.box.bottom)) / v.box.height⟩ := by
    simp only [Matrix4.image, Matrix4.homogeneous_eq, BoundingBox.apply_projection]
    rfl
  simp only [toScreen, hplace, Point.mk.injEq, Scalar.exact_ofNat, Nat.cast_one, Nat.cast_ofNat,
    BoundingBox.width, BoundingBox.height]
  constructor
  · field_simp
    ring
  · field_simp
    ring

theorem toScreen_locate (h : v.Shows) (pixel : Point K) : v.toScreen (v.locate pixel) = pixel := by
  have hwidth := (v.box.width_pos h.2.2).ne'
  have hheight := (v.box.height_pos h.2.2).ne'
  have hcolumns := h.width_ne_zero
  have hrows := h.height_ne_zero
  rw [toScreen_eq h]
  simp only [locate, add_sub_cancel_left, sub_sub_cancel]
  rw [mul_div_cancel_right₀ _ hwidth, mul_div_cancel_right₀ _ hheight, div_mul_cancel₀ _ hcolumns,
    div_mul_cancel₀ _ hrows]

theorem locate_toScreen (h : v.Shows) (p : Point K) : v.locate (v.toScreen p) = p := by
  have hwidth := (v.box.width_pos h.2.2).ne'
  have hheight := (v.box.height_pos h.2.2).ne'
  have hcolumns := h.width_ne_zero
  have hrows := h.height_ne_zero
  rw [toScreen_eq h]
  simp only [locate, mul_div_cancel_right₀ _ hcolumns, mul_div_cancel_right₀ _ hrows]
  rw [div_mul_cancel₀ _ hwidth, div_mul_cancel₀ _ hheight, add_sub_cancel, sub_sub_cancel]

/-- On a view that shows something, pixels and points correspond to each other one to one. Otherwise
no pixel has user coordinates, and that is the only reason why one has none. -/
theorem toUser_toScreen (v : Viewport K) :
    (v.width ≠ 0 → v.height ≠ 0 → v.box.left < v.box.right → v.box.bottom < v.box.top →
      (∀ pixel, ∃ p, v.toUser? pixel = some p ∧ v.toScreen p = pixel) ∧
        ∀ p, v.toUser? (v.toScreen p) = some p) ∧
      ((∀ pixel, v.toUser? pixel = none) ↔
        v.box.isDegenerate = true ∨ v.width = 0 ∨ v.height = 0) := by
  constructor
  · intro hcolumns hrows hx hy
    have h : v.Shows := ⟨hcolumns, hrows, v.box.isDegenerate_eq_false_iff.2 ⟨hx, hy⟩⟩
    constructor
    · intro pixel
      exact ⟨v.locate pixel, toUser?_eq h pixel, toScreen_locate h pixel⟩
    · intro p
      rw [toUser?_eq h, locate_toScreen h]
  · constructor
    · intro hnone
      by_contra hshows
      rw [not_or, not_or, Bool.not_eq_true] at hshows
      obtain ⟨hbox, hcolumns, hrows⟩ := hshows
      -- the corner of the canvas would have user coordinates
      have hcorner := toUser?_eq ⟨hcolumns, hrows, hbox⟩ ⟨0, 0⟩
      rw [hnone] at hcorner
      cases hcorner
    · intro hflat pixel
      refine if_pos ?_
      rcases hflat with hbox | hcolumns | hrows
      · exact .inr (.inr hbox)
      · exact .inl hcolumns
      · exact .inr (.inl hrows)

/-- The corner at the top left of the first view. -/
theorem toUser_toScreen_standard :
    let v : Viewport ℝ := ⟨⟨-10, 10, 10, -10⟩, 800, 600⟩
    v.width ≠ 0 ∧ v.height ≠ 0 ∧ v.box.left < v.box.right ∧ v.box.bottom < v.box.top ∧
      v.toUser? (v.toScreen ⟨-10, 10⟩) = some ⟨-10, 10⟩ := by
  intro v
  have hx : v.box.left < v.box.right := by norm_num [v]
  have hy : v.box.bottom < v.box.top := by norm_num [v]
  exact ⟨by decide, by decide, hx, hy,
    ((toUser_toScreen v).1 (by decide) (by decide) hx hy).2 ⟨-10, 10⟩⟩

end Viewport

end Chalkboard
