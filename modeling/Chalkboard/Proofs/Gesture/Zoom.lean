import Chalkboard.Proofs.View.Exact
import Chalkboard.Proofs.Gesture.Step
import Chalkboard.Proofs.Config.Ranges

/-!
# The scale and the direction of zooming

In exact arithmetic, a gesture whose settings pass the check keeps its scale within the limits once
it is there, and then turning the wheel up never enlarges the visible span and turning it down never
shrinks it (`Gesture.Reached.zoom`). The first scale is one whatever the limits are, and it stays
until the wheel first takes effect: where the limits leave out one, the first turn jumps to the
nearer limit, whichever way the wheel is turned.
-/

namespace Chalkboard

/-- A scale within the limits. -/
def GestureSettings.Admits {K : Type} [LE K] (s : GestureSettings K) (scale : K) : Prop :=
  s.minScale ≤ scale ∧ scale ≤ s.maxScale

namespace GestureSettings

variable {K : Type} [ExactScalar K] {s : GestureSettings K}

theorem one_lt_zoomFactor (h : s.check = .ok ()) : 1 < s.zoomFactor := by
  simpa using (check_eq_ok_iff.1 h).1.1

theorem minScale_pos (h : s.check = .ok ()) : 0 < s.minScale := by
  simpa using (check_eq_ok_iff.1 h).2.1.1

theorem minScale_lt_maxScale (h : s.check = .ok ()) : s.minScale < s.maxScale := by
  simpa using (check_eq_ok_iff.1 h).2.1.2

/-- Settings that differ in the limits only. -/
def between (low high : K) : GestureSettings K :=
  ⟨5 / 4, low, high, 40⟩

theorem check_between {low high : K} (hlow : 0 < low) (hhigh : low < high) :
    (between low high).check = .ok () := by
  rw [check_eq_ok_iff]
  simp only [between, Scalar.exact_lt, Scalar.exact_le, Scalar.exact_ofNat, Scalar.exact_isFinite,
    Nat.cast_zero, Nat.cast_one, Nat.cast_ofNat, decide_eq_true_eq, decide_eq_false_iff_not]
  refine ⟨?_, ⟨hlow, hhigh⟩, trivial, ?_⟩ <;> norm_num

theorem Admits.pos (h : s.check = .ok ()) {scale : K} (hscale : s.Admits scale) : 0 < scale :=
  (minScale_pos h).trans_le hscale.1

end GestureSettings

namespace Gesture

section Turn

variable {K : Type} [ExactScalar K] {g : Gesture K} {view : Viewport K} {delta : WheelDelta K}

/-- The scale that a turn of the wheel aims at. -/
def aim (g : Gesture K) (delta : WheelDelta K) : K :=
  max g.settings.minScale
    (min (g.scale * ExactScalar.power g.settings.zoomFactor (-delta.notches)) g.settings.maxScale)

/-- What a turn does, where the limits leave room. -/
theorem turn_eq (view : Viewport K) (delta : WheelDelta K) (h : g.settings.check = .ok ()) :
    g.turn view delta =
      if delta.notches = 0 ∨ |g.aim delta / g.scale - 1| < 1 / 2 ^ 52 then .ok (g, .nothing)
      else match view.toUser? g.pixel with
        | none => .ok (g, .nothing)
        | some anchor =>
          .ok ({ g with scale := g.aim delta },
            .look { view with box := view.box.zoomAt anchor (g.aim delta / g.scale) }) := by
  have hclamp := clamp?_eq (GestureSettings.minScale_lt_maxScale h).le
    (g.scale * Scalar.pow g.settings.zoomFactor (-delta.notches))
  have hzero : (Scalar.ofNat 0 : K) = 0 := Nat.cast_zero
  have hone : (Scalar.ofNat 1 : K) = 1 := Nat.cast_one
  unfold turn
  rw [hzero, hone]
  by_cases hnotches : delta.notches = 0
  · rw [if_pos (Or.inl hnotches)]
    exact if_pos (decide_eq_true hnotches)
  · have hturned : ¬ Scalar.eq delta.notches 0 = true := by
      rw [Scalar.exact_eq, decide_eq_true_eq]
      exact hnotches
    dsimp only
    rw [if_neg hturned, hclamp]
    by_cases hlimit : |g.aim delta / g.scale - 1| < 1 / 2 ^ 52
    · rw [if_pos (Or.inr hlimit)]
      exact if_pos (decide_eq_true hlimit)
    · rw [if_neg (not_or.2 ⟨hnotches, hlimit⟩)]
      exact if_neg (mt of_decide_eq_true hlimit)

/-- A turn succeeds. Either nothing happens, or the scale becomes the one that is aimed at and the
view is scaled alike. -/
theorem turn_cases (view : Viewport K) (delta : WheelDelta K) (h : g.settings.check = .ok ()) :
    g.turn view delta = .ok (g, .nothing) ∨
      ∃ anchor, g.turn view delta =
        .ok ({ g with scale := g.aim delta },
          .look { view with box := view.box.zoomAt anchor (g.aim delta / g.scale) }) ∧
        view.box.isDegenerate = false := by
  rw [turn_eq view delta h]
  split
  · exact .inl rfl
  · rcases hanchor : view.toUser? g.pixel with _ | anchor
    · exact .inl rfl
    · have hsome := (view.isSome_toUser?_iff g.pixel).1 (by rw [hanchor]; rfl)
      exact .inr ⟨anchor, rfl, hsome.2.2⟩

theorem exists_turn (view : Viewport K) (delta : WheelDelta K)
    (h : g.settings.check = .ok ()) :
    ∃ g' effect, g.turn view delta = .ok (g', effect) := by
  rcases turn_cases view delta h with hstay | ⟨anchor, hlook, -⟩
  · exact ⟨_, _, hstay⟩
  · exact ⟨_, _, hlook⟩

/-- A turn changes nothing of the gesture but the scale. -/
theorem eq_of_turn (h : g.settings.check = .ok ()) {g' : Gesture K} {effect : GestureEffect K}
    (hturn : g.turn view delta = .ok (g', effect)) :
    g' = g ∨ g' = { g with scale := g.aim delta } := by
  rcases turn_cases view delta h with hstay | ⟨anchor, hlook, -⟩
  · exact .inl (congrArg Prod.fst (Except.ok.inj (hturn.symm.trans hstay)))
  · exact .inr (congrArg Prod.fst (Except.ok.inj (hturn.symm.trans hlook)))

theorem admits_aim (delta : WheelDelta K) (h : g.settings.check = .ok ()) :
    g.settings.Admits (g.aim delta) :=
  ⟨le_max_left _ _,
    max_le (GestureSettings.minScale_lt_maxScale h).le (min_le_right _ _)⟩

/-- Within the limits, turning up aims no lower than the scale. -/
theorem le_aim (h : g.settings.check = .ok ()) (hscale : g.settings.Admits g.scale)
    (hup : delta.notches < 0) : g.scale ≤ g.aim delta := by
  have hpos : 0 < g.scale := hscale.pos h
  have hpower : 1 < ExactScalar.power g.settings.zoomFactor (-delta.notches) :=
    ExactScalar.one_lt_power _ _ (GestureSettings.one_lt_zoomFactor h) (neg_pos.2 hup)
  have hgrow : g.scale ≤ g.scale * ExactScalar.power g.settings.zoomFactor (-delta.notches) :=
    le_mul_of_one_le_right hpos.le hpower.le
  exact le_max_of_le_right (le_min hgrow hscale.2)

/-- Within the limits, turning down aims no higher than the scale. -/
theorem aim_le (h : g.settings.check = .ok ()) (hscale : g.settings.Admits g.scale)
    (hdown : 0 < delta.notches) : g.aim delta ≤ g.scale := by
  have hpos : 0 < g.scale := hscale.pos h
  have hpower : ExactScalar.power g.settings.zoomFactor (-delta.notches) < 1 :=
    ExactScalar.power_lt_one _ _ (GestureSettings.one_lt_zoomFactor h) (neg_neg_iff_pos.2 hdown)
  have hshrink : g.scale * ExactScalar.power g.settings.zoomFactor (-delta.notches) ≤ g.scale :=
    mul_le_of_le_one_right hpos.le hpower.le
  exact max_le hscale.1 (min_le_of_left_le hshrink)

/-- The span shrinks as the scale grows. -/
theorem span_turn (h : g.settings.check = .ok ()) (hpos : 0 < g.scale) {g' : Gesture K}
    {effect : GestureEffect K} (hturn : g.turn view delta = .ok (g', effect)) :
    (g.scale ≤ g'.scale → (effect.after view).span ≤ view.span) ∧
      (g'.scale ≤ g.scale → view.span ≤ (effect.after view).span) := by
  rcases turn_cases view delta h with hstay | ⟨anchor, hlook, hbox⟩
  · obtain ⟨rfl, rfl⟩ : g = g' ∧ GestureEffect.nothing = effect := by
      simpa using hstay.symm.trans hturn
    exact ⟨fun _ => le_refl _, fun _ => le_refl _⟩
  · obtain ⟨rfl, rfl⟩ := Prod.mk.inj (Except.ok.inj (hlook.symm.trans hturn))
    have haim : 0 < g.aim delta := (admits_aim delta h).pos h
    have hwidth : 0 < view.box.width := by
      simpa [BoundingBox.width] using (view.box.isDegenerate_eq_false_iff.1 hbox).1
    have hspan : (GestureEffect.after view
        (.look { view with box := view.box.zoomAt anchor (g.aim delta / g.scale) })).span =
          view.span / (g.aim delta / g.scale) := view.box.width_zoomAt anchor _
    have hfactor : 0 < g.aim delta / g.scale := div_pos haim hpos
    rw [hspan]
    constructor
    · intro hgrow
      exact div_le_self hwidth.le ((one_le_div hpos).2 hgrow)
    · intro hshrink
      exact le_div_self hwidth.le hfactor ((div_le_one hpos).2 hshrink)

end Turn

/-! ## Every event -/

section Step

variable {K : Type} [ExactScalar K] {g g' : Gesture K} {view : Viewport K}
  {effect : GestureEffect K}

/-- An event changes no settings, and the scale only to one that the wheel aims at. -/
theorem step_cases (h : g.settings.check = .ok ()) {targets : List (Target K)}
    {position? : Handle → Option (Point K)} {event : PointerEvent K}
    (hstep : g.step view targets position? event = .ok (g', effect)) :
    g'.settings = g.settings ∧ (g'.scale = g.scale ∨ ∃ delta, g'.scale = g.aim delta) := by
  cases takes_of_step hstep with
  | zooms delta hscale =>
    -- the clamped scale is the one that is aimed at
    rw [clamp?_eq (GestureSettings.minScale_lt_maxScale h).le, Option.some.injEq] at hscale
    exact ⟨rfl, .inr ⟨delta, hscale.symm⟩⟩
  | still | points | pans | slips | drags | grabs | begins | ends | drops => exact ⟨rfl, .inl rfl⟩

end Step

/-! ## All events together -/

/-- The gestures and views that events can lead to, from the first view on. Which points are drawn
then, and where, is left open. -/
inductive Reached {K : Type} [ExactScalar K] (s : GestureSettings K) (first : Viewport K) :
    Gesture K → Viewport K → Prop
  | start : Reached s first (.start s) first
  | step {g g' : Gesture K} {view : Viewport K} {effect : GestureEffect K}
      (h : Reached s first g view) (targets : List (Target K))
      (position? : Handle → Option (Point K)) (event : PointerEvent K)
      (hstep : g.step view targets position? event = .ok (g', effect)) :
      Reached s first g' (effect.after view)

namespace Reached

variable {K : Type} [ExactScalar K] {s : GestureSettings K} {first view : Viewport K}
  {g : Gesture K}

theorem settings (hs : s.check = .ok ()) (h : Reached s first g view) : g.settings = s := by
  induction h with
  | start => rfl
  | step _ _ _ _ hstep ih => exact (step_cases (ih.symm ▸ hs) hstep).1.trans ih

/-- The scale is the first one until it is within the limits. -/
theorem scale (hs : s.check = .ok ()) (h : Reached s first g view) :
    g.scale = 1 ∨ s.Admits g.scale := by
  induction h with
  | start => exact .inl (Nat.cast_one : ((1 : Nat) : K) = 1)
  | step h _ _ _ hstep ih =>
    have hsettings := h.settings hs
    rcases (step_cases (hsettings.symm ▸ hs) hstep).2 with hsame | ⟨delta, haim⟩
    · rw [hsame]
      exact ih
    · have hadmits := admits_aim delta (hsettings.symm ▸ hs)
      rw [haim]
      rw [hsettings] at hadmits
      exact .inr hadmits

/-- Where the limits leave out the first scale, a turn from there leads to the nearer limit. -/
theorem span_turn_of_not_admits (hs : s.check = .ok ()) (h : Reached s first g view)
    (hout : ¬ s.Admits g.scale) {g' : Gesture K} {effect : GestureEffect K} {delta : WheelDelta K}
    (hturn : g.turn view delta = .ok (g', effect)) :
    (1 < s.minScale → (effect.after view).span ≤ view.span) ∧
      (s.maxScale < 1 → view.span ≤ (effect.after view).span) := by
  have hcheck : g.settings.check = .ok () := (h.settings hs).symm ▸ hs
  have hone : g.scale = 1 := (h.scale hs).resolve_right hout
  have hspan := span_turn hcheck (hone ▸ one_pos) hturn
  -- a scale that is new is within the limits, and these lie on one side of one
  have hscale : g'.scale = 1 ∨ s.Admits g'.scale := by
    rcases eq_of_turn hcheck hturn with rfl | rfl
    · exact .inl hone
    · exact .inr (h.settings hs ▸ admits_aim delta hcheck)
  rw [hone] at hspan
  constructor
  · intro habove
    refine hspan.1 ?_
    rcases hscale with hsame | hadmits
    · exact hsame.ge
    · exact habove.le.trans hadmits.1
  · intro hbelow
    refine hspan.2 ?_
    rcases hscale with hsame | hadmits
    · exact hsame.le
    · exact hadmits.2.trans hbelow.le

/-- However events follow each other, the scale is within the limits or still the first one, and a
turn of the wheel succeeds. Within the limits the wheel zooms in when turned up and out when turned
down, and stays within them. From a first scale outside the limits every turn zooms towards them,
also one the other way. -/
theorem zoom (hs : s.check = .ok ()) (h : Reached s first g view) (targets : List (Target K))
    (position? : Handle → Option (Point K)) (delta : WheelDelta K) :
    (g.scale = 1 ∨ s.Admits g.scale) ∧ (s.Admits 1 → s.Admits g.scale) ∧
      ∃ g' effect, g.step view targets position? (.wheel delta) = .ok (g', effect) ∧
        (s.Admits g.scale → s.Admits g'.scale ∧
          (delta.notches < 0 → (effect.after view).span ≤ view.span) ∧
          (0 < delta.notches → view.span ≤ (effect.after view).span)) ∧
        (¬ s.Admits g.scale →
          (1 < s.minScale → (effect.after view).span ≤ view.span) ∧
          (s.maxScale < 1 → view.span ≤ (effect.after view).span)) := by
  have hsettings := h.settings hs
  have hcheck : g.settings.check = .ok () := hsettings.symm ▸ hs
  have hscale := h.scale hs
  have hwithin : s.Admits 1 → s.Admits g.scale := by
    intro hone
    rcases hscale with hfirst | hadmits
    · exact hfirst.symm ▸ hone
    · exact hadmits
  obtain ⟨g', effect, hturn⟩ := exists_turn view delta hcheck
  refine ⟨hscale, hwithin, g', effect, hturn, ?_,
    fun hout => h.span_turn_of_not_admits hs hout hturn⟩
  intro hadmits
  have hadmits' : g.settings.Admits g.scale := hsettings.symm ▸ hadmits
  have hspan := span_turn hcheck (hadmits.pos hs) hturn
  rcases eq_of_turn hcheck hturn with rfl | rfl
  · exact ⟨hadmits, fun _ => hspan.1 le_rfl, fun _ => hspan.2 le_rfl⟩
  · exact ⟨hsettings ▸ admits_aim delta hcheck, fun hup => hspan.1 (le_aim hcheck hadmits' hup),
      fun hdown => hspan.2 (aim_le hcheck hadmits' hdown)⟩

/-- The pointer in the middle of the canvas, a turn up, and the limits to begin with. -/
theorem zoom_standard :
    let s : GestureSettings ℝ := .between (1 / 20) 50
    let first : Viewport ℝ := ⟨⟨-10, 10, 10, -10⟩, 800, 600⟩
    s.check = .ok () ∧ ∃ g : Gesture ℝ, g.pixel = ⟨400, 300⟩ ∧ Reached s first g first ∧
      s.Admits g.scale ∧ ∃ g' effect, g.turn first (.lines 0 (-1)) = .ok (g', effect) ∧
        s.Admits g'.scale ∧ (effect.after first).span ≤ first.span := by
  intro s first
  have hs : s.check = .ok () := GestureSettings.check_between (by norm_num) (by norm_num)
  have hmoved : (Gesture.start s).step first [] (fun _ => none) (.moved ⟨400, 300⟩) =
      .ok ({ Gesture.start s with pixel := ⟨400, 300⟩ }, .nothing) := by
    have hfar : (⟨400, 300⟩ : Point ℝ).same (Gesture.start s).pixel = false := by
      simp only [Point.same, Gesture.start, Scalar.exact_eq, Scalar.exact_ofNat]
      norm_num
    simp only [Gesture.step, move, hfar]
    rfl
  have hreached := Reached.start.step [] (fun _ => none) (.moved ⟨400, 300⟩) hmoved
  have hone : s.Admits 1 := by
    constructor <;> norm_num [s, GestureSettings.between]
  obtain ⟨-, hadmits, g', effect, hturn, hwithin, -⟩ :=
    hreached.zoom hs [] (fun _ => none) (.lines 0 (-1))
  obtain ⟨hnext, hup, -⟩ := hwithin (hadmits hone)
  exact ⟨hs, _, rfl, hreached, hadmits hone, g', effect, hturn, hnext, hup neg_one_lt_zero⟩

/-- Settings pass the check whose limits leave out the first scale. The first turn down then zooms
in. -/
theorem zoom_astray :
    let s : GestureSettings ℝ := .between 2 50
    let first : Viewport ℝ := ⟨⟨-10, 10, 10, -10⟩, 800, 600⟩
    s.check = .ok () ∧ Reached s first (.start s) first ∧ ¬ s.Admits (Gesture.start s).scale ∧
      ∃ g' effect, (Gesture.start s).turn first (.lines 0 1) = .ok (g', effect) ∧
        (effect.after first).span < first.span := by
  intro s first
  have hs : s.check = .ok () := GestureSettings.check_between (by norm_num) (by norm_num)
  have hscale : (Gesture.start s).scale = 1 := Nat.cast_one
  have hout : ¬ s.Admits (Gesture.start s).scale := by
    rw [hscale]
    intro hadmits
    have htwo : (2 : ℝ) ≤ 1 := hadmits.1
    norm_num at htwo
  -- the aim is the lower limit, twice the scale
  have haim : (Gesture.start s).aim (.lines 0 1) = 2 := by
    have hpower : ExactScalar.power s.zoomFactor (-1) < 1 :=
      ExactScalar.power_lt_one _ _ (GestureSettings.one_lt_zoomFactor hs) neg_one_lt_zero
    have hlow : (Gesture.start s).scale * ExactScalar.power s.zoomFactor (-1) ≤ 2 := by
      rw [hscale]
      linarith
    exact max_eq_left ((min_le_left _ _).trans hlow)
  have hbox : first.box.isDegenerate = false := by
    rw [BoundingBox.isDegenerate_eq_false_iff]
    norm_num [first]
  obtain ⟨anchor, hanchor⟩ := Option.isSome_iff_exists.1
    ((first.isSome_toUser?_iff (Gesture.start s).pixel).2 ⟨by decide, by decide, hbox⟩)
  have hturn := turn_eq first (.lines 0 1) (g := .start s) hs
  rw [haim, hscale, hanchor, if_neg (by norm_num [WheelDelta.notches])] at hturn
  refine ⟨hs, .start, hout, _, _, hturn, ?_⟩
  show (first.box.zoomAt anchor (2 / 1)).width < first.box.width
  rw [BoundingBox.width_zoomAt]
  norm_num [BoundingBox.width, first]

end Reached

end Gesture

end Chalkboard
