import Chalkboard.Proofs.View.Inverse
import Chalkboard.Proofs.Gesture.Step

/-!
# The point under the pointer

In exact arithmetic, zooming keeps the point under the pointer where it is, and panning takes it
along (`Gesture.grab`). The two may be mixed: every move of a pan is read in the view as the wheel has
left it, so nothing adds up. All the while the box and the scale make up for each other
(`Gesture.Steady`). Nothing is assumed of powers but that they are numbers.
-/

namespace Chalkboard

variable {K : Type} [FieldScalar K]

/-! ## Boxes that move -/

namespace BoundingBox

variable {b : BoundingBox K}

theorem isDegenerate_eq_false_of_pos (hwidth : 0 < b.width) (hheight : 0 < b.height) :
    b.isDegenerate = false :=
  b.isDegenerate_eq_false_iff.2 ⟨sub_pos.1 hwidth, sub_pos.1 hheight⟩

theorem isDegenerate_shift (dx dy : K) : (b.shift dx dy).isDegenerate = b.isDegenerate := by
  simp [isDegenerate]

theorem isDegenerate_zoomAt (h : b.isDegenerate = false) (anchor : Point K) {factor : K}
    (hfactor : 0 < factor) : (b.zoomAt anchor factor).isDegenerate = false := by
  apply isDegenerate_eq_false_of_pos
  · rw [width_zoomAt]
    exact div_pos (b.width_pos h) hfactor
  · rw [height_zoomAt]
    exact div_pos (b.height_pos h) hfactor

end BoundingBox

namespace Viewport

variable {v : Viewport K}

/-- A pixel shows what lies further by as much as the box has moved. -/
theorem locate_shift (v : Viewport K) (dx dy : K) (pixel : Point K) :
    ({ v with box := v.box.shift dx dy } : Viewport K).locate pixel =
      ⟨(v.locate pixel).x + dx, (v.locate pixel).y + dy⟩ := by
  simp only [locate, BoundingBox.width_shift, BoundingBox.height_shift, Point.mk.injEq]
  simp only [BoundingBox.shift]
  constructor <;> ring

/-- The pixel about which the box is scaled shows the same point as before. -/
theorem locate_zoomAt (v : Viewport K) (pixel : Point K) (factor : K) :
    ({ v with box := v.box.zoomAt (v.locate pixel) factor } : Viewport K).locate pixel =
      v.locate pixel := by
  simp only [locate, BoundingBox.width_zoomAt, BoundingBox.height_zoomAt, Point.mk.injEq]
  simp only [BoundingBox.zoomAt]
  constructor <;> ring

end Viewport

/-! ## One event -/

namespace Gesture

/-- One event, whatever points are drawn then and wherever these are. -/
def Leads {α : Type} [Scalar α] (x y : Gesture α × Viewport α) : Prop :=
  ∃ (targets : List (Target α)) (position? : Handle → Option (Point α)) (event : PointerEvent α)
    (effect : GestureEffect α),
    x.1.step x.2 targets position? event = .ok (y.1, effect) ∧ y.2 = effect.after x.2

/-- What holds of a gesture and its view, whatever has happened since the first view. -/
structure Steady (s : GestureSettings K) (first : Viewport K) (x : Gesture K × Viewport K) :
    Prop where
  settings : x.1.settings = s
  scale_pos : 0 < x.1.scale
  shows : x.2.Shows
  /-- The box shrinks as the scale grows. -/
  width : x.2.box.width * x.1.scale = first.box.width
  height : x.2.box.height * x.1.scale = first.box.height
  /-- A pan has seen the last place of the pointer. -/
  last : ∀ last, x.1.grip = .panning last → last = x.1.pixel

variable {s : GestureSettings K} {first : Viewport K} {x y : Gesture K × Viewport K}

theorem steady_start (s : GestureSettings K) (h : first.Shows) :
    Steady s first (.start s, first) where
  settings := rfl
  scale_pos := by simp [start]
  shows := h
  width := by simp [start]
  height := by simp [start]
  last last hpan := by cases hpan

namespace Steady

theorem toUser?_eq (h : Steady s first x) (pixel : Point K) :
    x.2.toUser? pixel = some (x.2.locate pixel) :=
  Viewport.toUser?_eq h.shows pixel

/-- A scale within the limits is positive. -/
theorem pos_of_clamp? (hlow : 0 < s.minScale) (hlimits : s.minScale ≤ s.maxScale) {target scale : K}
    (h : clamp? s.minScale s.maxScale target = some scale) : 0 < scale := by
  rw [clamp?_eq hlimits, Option.some.injEq] at h
  rw [← h]
  exact lt_max_of_lt_left hlow

/-- The pointer may move and the grip change, as long as a pan has seen the pointer. -/
theorem regrip (h : Steady s first x) (pixel : Point K) (grip : Grip K)
    (hlast : ∀ last, grip = .panning last → last = pixel) :
    Steady s first ({ x.1 with pixel, grip }, x.2) :=
  { h with last := hlast }

/-- The box may be moved, which leaves its size alone. -/
theorem shift (h : Steady s first x) (dx dy : K) :
    Steady s first (x.1, { x.2 with box := x.2.box.shift dx dy }) := by
  obtain ⟨hwidth, hheight, hbox⟩ := h.shows
  exact
    { h with
      shows := ⟨hwidth, hheight, (BoundingBox.isDegenerate_shift dx dy).trans hbox⟩
      width := by simpa using h.width
      height := by simpa using h.height }

/-- The box may be scaled as the gesture is: the ratio of the scales divides the size of the box, so
the product of size and scale stays. -/
theorem rescale (h : Steady s first x) (anchor : Point K) {scale : K} (hpos : 0 < scale) :
    Steady s first
      ({ x.1 with scale }, { x.2 with box := x.2.box.zoomAt anchor (scale / x.1.scale) }) := by
  have hfactor : 0 < scale / x.1.scale := div_pos hpos h.scale_pos
  have hold : x.1.scale ≠ 0 := h.scale_pos.ne'
  obtain ⟨hwidth, hheight, hbox⟩ := h.shows
  refine ⟨h.settings, hpos, ⟨hwidth, hheight, ?_⟩, ?_, ?_, h.last⟩
  · exact BoundingBox.isDegenerate_zoomAt hbox anchor hfactor
  · rw [← h.width]
    simp only [BoundingBox.width_zoomAt]
    field_simp
  · rw [← h.height]
    simp only [BoundingBox.height_zoomAt]
    field_simp

/-- Whatever an event does, it keeps all this. -/
theorem takes (h : Steady s first x) (hlow : 0 < s.minScale) (hlimits : s.minScale ≤ s.maxScale)
    {targets : List (Target K)} {position? : Handle → Option (Point K)} {event : PointerEvent K}
    {g' : Gesture K} {effect : GestureEffect K}
    (htakes : x.1.Takes x.2 targets position? event g' effect) :
    Steady s first (g', effect.after x.2) := by
  -- a pan that is noted has seen the pointer
  have hseen {pixel last : Point K} (hpan : Grip.panning pixel = .panning last) : last = pixel :=
    (Grip.panning.inj hpan).symm
  cases htakes with
  | still => exact h
  | points pixel hgrip =>
    exact h.regrip pixel x.1.grip fun last hpan => absurd hpan (hgrip last)
  | pans pixel hgrip ha hb =>
    exact (h.regrip pixel (.panning pixel) fun last => hseen).shift _ _
  | slips pixel hgrip hnone => exact h.regrip pixel (.panning pixel) fun last => hseen
  | drags pixel hgrip hp =>
    refine h.regrip pixel x.1.grip fun last hpan => ?_
    rw [hgrip] at hpan
    cases hpan
  | grabs => exact h.regrip x.1.pixel (.dragging _ _) nofun
  | begins => exact h.regrip x.1.pixel (.panning x.1.pixel) fun last => hseen
  | ends => exact h.regrip x.1.pixel .idle nofun
  | drops => exact h.regrip x.1.pixel .idle nofun
  | zooms delta hscale hanchor =>
    rw [h.settings] at hscale
    exact h.rescale _ (pos_of_clamp? hlow hlimits hscale)

/-- Turning the wheel keeps the point under the pointer, and so does everything during a pan. -/
theorem toUser?_after (h : Steady s first x) (hlow : 0 < s.minScale)
    (hlimits : s.minScale ≤ s.maxScale) {targets : List (Target K)}
    {position? : Handle → Option (Point K)} {event : PointerEvent K} {g' : Gesture K}
    {effect : GestureEffect K} (htakes : x.1.Takes x.2 targets position? event g' effect)
    (hevent : (∃ delta, event = .wheel delta) ∨ ∃ last, x.1.grip = .panning last) :
    (effect.after x.2).toUser? g'.pixel = x.2.toUser? x.1.pixel := by
  have hafter := h.takes hlow hlimits htakes
  rw [hafter.toUser?_eq, h.toUser?_eq, Option.some.injEq]
  cases htakes with
  | still | grabs | begins | ends | drops => rfl
  | points pixel hgrip =>
    rcases hevent with ⟨delta, hwheel⟩ | ⟨last, hpan⟩
    · cases hwheel
    · exact absurd hpan (hgrip last)
  | @pans last a b pixel hgrip ha hb =>
    -- the box moves by what lies between the two places of the pointer
    rw [h.toUser?_eq, Option.some.injEq] at ha hb
    rw [← h.last last hgrip, ← ha, ← hb]
    show ({ x.2 with box := x.2.box.shift _ _ } : Viewport K).locate pixel = _
    rw [Viewport.locate_shift, add_sub_cancel, add_sub_cancel]
  | slips pixel hgrip hnone =>
    rw [h.toUser?_eq, h.toUser?_eq] at hnone
    rcases hnone with hlast | hpixel
    · cases hlast
    · cases hpixel
  | drags pixel hgrip hp =>
    rcases hevent with ⟨delta, hwheel⟩ | ⟨last, hpan⟩
    · cases hwheel
    · rw [hgrip] at hpan
      cases hpan
  | @zooms anchor scale delta hscale hanchor =>
    rw [h.toUser?_eq, Option.some.injEq] at hanchor
    rw [← hanchor]
    exact x.2.locate_zoomAt x.1.pixel (scale / x.1.scale)

theorem leads (h : Steady s first x) (hlow : 0 < s.minScale) (hlimits : s.minScale ≤ s.maxScale)
    (hleads : Leads x y) : Steady s first y := by
  obtain ⟨targets, position?, event, effect, hstep, hview⟩ := hleads
  have hafter := h.takes hlow hlimits (takes_of_step hstep)
  rw [← hview] at hafter
  exact hafter

/-- The wheel can always be turned. -/
theorem exists_step_wheel (h : Steady s first x) (hlimits : s.minScale ≤ s.maxScale)
    (targets : List (Target K)) (position? : Handle → Option (Point K)) (delta : WheelDelta K) :
    ∃ g' effect, x.1.step x.2 targets position? (.wheel delta) = .ok (g', effect) := by
  rcases hstep : x.1.step x.2 targets position? (.wheel delta) with e | ⟨g', effect⟩
  · obtain ⟨delta', -, hnone⟩ := clamp?_of_step_error hstep
    rw [h.settings, clamp?_eq hlimits] at hnone
    cases hnone
  · exact ⟨g', effect, rfl⟩

end Steady

/-! ## All events together -/

/-- From the press that begins a pan to what the pan has led to, up to the event that ends it. -/
inductive Pan {α : Type} [Scalar α] (x : Gesture α × Viewport α) : Gesture α × Viewport α → Prop
  | begins {g' : Gesture α} (targets : List (Target α)) (position? : Handle → Option (Point α))
      (hidle : x.1.grip = .idle)
      (hpress : x.1.step x.2 targets position? (.pressed .left) = .ok (g', .nothing))
      (hpan : ∃ last, g'.grip = .panning last) : Pan x (g', x.2)
  | goesOn {y z : Gesture α × Viewport α} (h : Pan x y) (hpan : ∃ last, y.1.grip = .panning last)
      (hleads : Leads y z) : Pan x z

/-- Events keep what holds at first. -/
theorem steady_of_leads (hlow : 0 < s.minScale) (hlimits : s.minScale ≤ s.maxScale)
    (hx : Steady s first x) (h : Relation.ReflTransGen Leads x y) : Steady s first y := by
  induction h with
  | refl => exact hx
  | tail _ hleads ih => exact ih.leads hlow hlimits hleads

/-- During a pan the point under the pointer stays. -/
theorem Pan.toUser?_eq (hlow : 0 < s.minScale) (hlimits : s.minScale ≤ s.maxScale)
    (hx : Steady s first x) (h : Pan x y) :
    Steady s first y ∧ y.2.toUser? y.1.pixel = x.2.toUser? x.1.pixel := by
  induction h with
  | @begins g' targets position? hidle hpress hpan =>
    have htakes := takes_of_step hpress
    have hsteady := hx.takes hlow hlimits htakes
    refine ⟨hsteady, ?_⟩
    -- a press moves nothing
    cases htakes with
    | still | grabs | begins => rfl
  | goesOn _ hpan hleads ih =>
    obtain ⟨hsteady, hsame⟩ := ih
    refine ⟨hsteady.leads hlow hlimits hleads, ?_⟩
    obtain ⟨targets, position?, event, effect, hstep, hview⟩ := hleads
    rw [hview, hsteady.toUser?_after hlow hlimits (takes_of_step hstep) (.inr hpan)]
    exact hsame

/-- Whatever has happened since a first view that shows something: the box and the scale make up
for each other; the wheel can be turned, and then the point under the pointer stays; and so it does
from the beginning of a pan to its end, the wheel turned in between or not. -/
theorem grab (hlow : 0 < s.minScale) (hlimits : s.minScale ≤ s.maxScale)
    (hbox : first.box.isDegenerate = false) (hwidth : first.width ≠ 0) (hheight : first.height ≠ 0)
    (h : Relation.ReflTransGen Leads (.start s, first) x) :
    (x.2.box.width * x.1.scale = first.box.width ∧ x.2.box.height * x.1.scale = first.box.height ∧
      x.2.box.isDegenerate = false) ∧
    ∃ p, x.2.toUser? x.1.pixel = some p ∧
      (∀ targets position? delta, ∃ g' effect,
        x.1.step x.2 targets position? (.wheel delta) = .ok (g', effect) ∧
          (effect.after x.2).toUser? g'.pixel = some p) ∧
      ∀ y, Pan x y → y.2.toUser? y.1.pixel = some p := by
  have hx := steady_of_leads hlow hlimits (steady_start s ⟨hwidth, hheight, hbox⟩) h
  have hp := hx.toUser?_eq x.1.pixel
  refine ⟨⟨hx.width, hx.height, hx.shows.2.2⟩, _, hp, ?_, ?_⟩
  · intro targets position? delta
    obtain ⟨g', effect, hstep⟩ := hx.exists_step_wheel hlimits targets position? delta
    refine ⟨g', effect, hstep, ?_⟩
    rw [hx.toUser?_after hlow hlimits (takes_of_step hstep) (.inl ⟨delta, rfl⟩)]
    exact hp
  · intro y hpan
    rw [(hpan.toUser?_eq hlow hlimits hx).2]
    exact hp

/-- The pointer goes to the middle of the canvas, pans a hundred pixels to the right, and has the
same point under it. -/
theorem grab_standard :
    let s : GestureSettings ℝ := ⟨5 / 4, 1 / 20, 50, 40⟩
    let first : Viewport ℝ := ⟨⟨-10, 10, 10, -10⟩, 800, 600⟩
    0 < s.minScale ∧ s.minScale ≤ s.maxScale ∧ first.box.isDegenerate = false ∧
      first.width ≠ 0 ∧ first.height ≠ 0 ∧
      ∃ x y : Gesture ℝ × Viewport ℝ, Relation.ReflTransGen Leads (.start s, first) x ∧
        x.1.pixel = ⟨400, 300⟩ ∧ Pan x y ∧ y.1.pixel = ⟨500, 300⟩ ∧
        y.2.toUser? ⟨500, 300⟩ = x.2.toUser? ⟨400, 300⟩ := by
  intro s first
  have hlow : 0 < s.minScale := by norm_num [s]
  have hlimits : s.minScale ≤ s.maxScale := by norm_num [s]
  have hbox : first.box.isDegenerate = false := by
    rw [BoundingBox.isDegenerate_eq_false_iff]
    norm_num [first]
  have hwidth : first.width ≠ 0 := by decide
  have hheight : first.height ≠ 0 := by decide
  have hlocate := Viewport.toUser?_eq ⟨hwidth, hheight, hbox⟩
  let x : Gesture ℝ × Viewport ℝ := ({ Gesture.start s with pixel := ⟨400, 300⟩ }, first)
  let held : Gesture ℝ := { x.1 with grip := .panning ⟨400, 300⟩ }
  let moved := held.move first ⟨500, 300⟩
  have hfirst : (⟨400, 300⟩ : Point ℝ).same (Gesture.start s).pixel = false := by
    norm_num [Point.same, start]
  have hthen : (⟨500, 300⟩ : Point ℝ).same held.pixel = false := by
    norm_num [Point.same, held, x]
  have hx : Leads (.start s, first) x := by
    refine ⟨[], fun _ => none, .moved ⟨400, 300⟩, .nothing, ?_, rfl⟩
    simp only [step, move, hfirst]
    rfl
  have hpress : x.1.step x.2 [] (fun _ => none) (.pressed .left) = .ok (held, .nothing) := by
    simp [step, press, hlocate, nearest?, start, x, held]
  have hmove : Leads (held, first) (moved.1, moved.2.after first) :=
    ⟨[], fun _ => none, .moved ⟨500, 300⟩, moved.2, rfl, rfl⟩
  have hpixel : moved.1.pixel = ⟨500, 300⟩ := by
    simp [moved, move, hthen, held]
  have hpan : Pan x (moved.1, moved.2.after first) :=
    (Pan.begins [] (fun _ => none) rfl hpress ⟨_, rfl⟩).goesOn ⟨_, rfl⟩ hmove
  obtain ⟨-, p, hp, -, hgrab⟩ := grab hlow hlimits hbox hwidth hheight (.single hx)
  refine ⟨hlow, hlimits, hbox, hwidth, hheight, x, _, .single hx, rfl, hpan, hpixel, ?_⟩
  have hstays := hgrab _ hpan
  rw [hpixel] at hstays
  exact hstays.trans hp.symm

end Gesture

end Chalkboard
