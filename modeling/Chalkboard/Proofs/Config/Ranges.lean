import Chalkboard.Config.Check
import Chalkboard.Proofs.Command.Check
import Chalkboard.Proofs.Number.Order

/-!
# Which configurations pass the check

`Config.InRange` says which settings are documented as sensible. The check passes all of those, and
beyond them the configurations in which everything but the divisor of the pointer's reach is
sensible and that divisor is not a number (`Config.check_ranges`): the other numbers are asked to
lie inside their ranges, the divisor only not to lie at zero or below.
-/

namespace Chalkboard

/-! ## Checks in a row -/

/-- A condition that is refused, and a check behind it. -/
theorem refuse_else_eq_ok_iff {ε : Type} {c : Prop} [Decidable c] {e : ε} {x : Except ε Unit} :
    (if c then .error e else x) = .ok () ↔ ¬ c ∧ x = .ok () := by
  split <;> simp [*]

theorem mapError_eq_ok_iff {ε δ α : Type} {f : ε → δ} {x : Except ε α} {a : α} :
    x.mapError f = .ok a ↔ x = .ok a := by
  cases x with
  | ok b => exact ⟨fun h => congrArg Except.ok (Except.ok.inj h), fun h => h ▸ rfl⟩
  | error e => exact ⟨nofun, nofun⟩

/-! ## The bridge -/

theorem BridgeSettings.check_eq_ok_iff {s : BridgeSettings} :
    s.check = .ok () ↔ 1 ≤ s.timeoutMs ∧ s.timeoutMs ≤ 600000 := by
  have hzero : s.timeoutMs = 0 ↔ s.timeoutMs.toNat = 0 := by
    rw [← UInt64.toNat_inj, UInt64.toNat_zero]
  rw [check, refuse_eq_ok_iff, hzero]
  simp only [UInt64.lt_iff_toNat_lt, UInt64.le_iff_toNat_le, UInt64.reduceToNat]
  omega

/-! ## Gestures -/

/-- What passes the check of gestures, in any arithmetic. -/
theorem GestureSettings.check_eq_ok_iff {α : Type} [Scalar α] {s : GestureSettings α} :
    s.check = .ok () ↔
      (Scalar.lt (Scalar.ofNat 1) s.zoomFactor = true ∧
        Scalar.le s.zoomFactor (Scalar.ofNat 10) = true) ∧
      (Scalar.lt (Scalar.ofNat 0) s.minScale = true ∧
        Scalar.lt s.minScale s.maxScale = true) ∧
      Scalar.isFinite s.maxScale = true ∧ Scalar.le s.reachDivisor (Scalar.ofNat 0) = false := by
  simp [check, refuse_else_eq_ok_iff]

/-- The documented ranges of the settings of gestures, but for the divisor. -/
structure GestureSettings.Limited (s : GestureSettings Float) : Prop where
  zoomFactor : 1 < s.zoomFactor ∧ s.zoomFactor ≤ 10
  scales : 0 < s.minScale ∧ s.minScale < s.maxScale
  maxScale : s.maxScale.isFinite = true

/-- A divisor is refused where it is at most zero, so one that is not a number passes. -/
theorem GestureSettings.check_eq_ok_iff_limited {s : GestureSettings Float} :
    s.check = .ok () ↔ s.Limited ∧ (0 < s.reachDivisor ∨ s.reachDivisor.isNaN = true) := by
  have hlt (x y : Float) : Scalar.lt x y = true ↔ x < y := decide_eq_true_iff
  have hle (x y : Float) : Scalar.le x y = true ↔ x ≤ y := decide_eq_true_iff
  have hdivisor : Scalar.le s.reachDivisor (Scalar.ofNat 0) = false ↔
      0 < s.reachDivisor ∨ s.reachDivisor.isNaN = true := by
    have hzero : ¬ (0 : Float).isNaN = true := by decide
    rw [Bool.eq_false_iff, ne_eq, hle]
    show ¬ s.reachDivisor ≤ 0 ↔ _
    rw [Number.not_le_iff, or_iff_left hzero]
  rw [check_eq_ok_iff, hlt, hle, hlt, hlt, hdivisor]
  constructor
  · rintro ⟨hzoom, hscales, hmax, hd⟩
    exact ⟨⟨hzoom, hscales, hmax⟩, hd⟩
  · rintro ⟨⟨hzoom, hscales, hmax⟩, hd⟩
    exact ⟨hzoom, hscales, hmax, hd⟩

/-! ## The first view -/

/-- The documented ranges of the first view. -/
structure Viewport.InRange (v : Viewport Float) : Prop where
  finite : ∀ x ∈ v.box.sides, x.isFinite = true
  horizontal : v.box.left < v.box.right
  vertical : v.box.bottom < v.box.top
  canvas : 0 < v.width ∧ 0 < v.height

theorem Viewport.check_eq_ok_iff {v : Viewport Float} : v.check = .ok () ↔ v.InRange := by
  have hfinite : (v.box.sides.any fun x => !x.isFinite) = false ↔
      ∀ x ∈ v.box.sides, x.isFinite = true := by simp
  have hsides (h : ∀ x ∈ v.box.sides, x.isFinite = true) :
      ¬ (v.box.right ≤ v.box.left ∨ v.box.top ≤ v.box.bottom) ↔
        v.box.left < v.box.right ∧ v.box.bottom < v.box.top := by
    rw [not_or, Number.not_le_iff_of_isFinite, Number.not_le_iff_of_isFinite]
    all_goals exact h _ (by simp [BoundingBox.sides])
  have hcanvas : ¬ (v.width = 0 ∨ v.height = 0) ↔ 0 < v.width ∧ 0 < v.height := by
    simp [not_or, UInt32.pos_iff_ne_zero]
  rw [check, refuse_else_eq_ok_iff, refuse_else_eq_ok_iff, refuse_eq_ok_iff, Bool.not_eq_true,
    hfinite, hcanvas]
  constructor
  · rintro ⟨hf, hs, hc⟩
    obtain ⟨hx, hy⟩ := (hsides hf).1 hs
    exact ⟨hf, hx, hy, hc⟩
  · rintro ⟨hf, hx, hy, hc⟩
    exact ⟨hf, (hsides hf).2 ⟨hx, hy⟩, hc⟩

/-! ## The intent service -/

/-- The documented ranges of the settings of the intent service. -/
structure IntentSettings.InRange (s : IntentSettings) : Prop where
  endpoint : "http://".toList <+: s.endpoint.toList ∨ "https://".toList <+: s.endpoint.toList
  timeout : 0 < s.timeoutMs

theorem IntentSettings.check_eq_ok_iff {s : IntentSettings} : s.check = .ok () ↔ s.InRange := by
  have hscheme : ¬ (!(s.endpoint.startsWith "http://" || s.endpoint.startsWith "https://")) = true ↔
      "http://".toList <+: s.endpoint.toList ∨ "https://".toList <+: s.endpoint.toList := by
    rw [Bool.not_eq_true, Bool.not_eq_false', Bool.or_eq_true, String.startsWith_string_iff,
      String.startsWith_string_iff]
  rw [check, refuse_else_eq_ok_iff, refuse_eq_ok_iff, hscheme, ← ne_eq, ← UInt64.pos_iff_ne_zero]
  exact ⟨fun ⟨he, ht⟩ => ⟨he, ht⟩, fun ⟨he, ht⟩ => ⟨he, ht⟩⟩

/-! ## Configurations -/

namespace Config

/-- The documented ranges of all settings but the divisor of the pointer's reach. -/
structure Limited (c : Config) : Prop where
  requestTimeout : 1 ≤ c.bridge.timeoutMs ∧ c.bridge.timeoutMs ≤ 600000
  gestures : c.gestures.Limited
  viewport : c.viewport.InRange
  intent : c.intent.InRange

/-- The documented ranges of all settings. -/
structure InRange (c : Config) : Prop extends c.Limited where
  reachDivisor : 0 < c.gestures.reachDivisor

/-- The configuration with another divisor. -/
def withDivisor (c : Config) (divisor : Float) : Config :=
  { c with gestures := { c.gestures with reachDivisor := divisor } }

theorem Limited.withDivisor {c : Config} (h : c.Limited) (divisor : Float) :
    (c.withDivisor divisor).Limited :=
  ⟨h.requestTimeout, ⟨h.gestures.zoomFactor, h.gestures.scales, h.gestures.maxScale⟩, h.viewport,
    h.intent⟩

theorem limited_standard : standard.Limited where
  requestTimeout := by decide
  gestures := ⟨by decide, by decide, by decide⟩
  viewport := ⟨by decide, by decide, by decide, by decide⟩
  intent := ⟨.inl (by decide), by decide⟩

/-- Section by section, and the divisor apart. -/
theorem check_eq_ok_iff {c : Config} :
    c.check = .ok () ↔
      c.Limited ∧ (0 < c.gestures.reachDivisor ∨ c.gestures.reachDivisor.isNaN = true) := by
  rw [check, check_bind_eq_ok_iff, check_bind_eq_ok_iff, check_bind_eq_ok_iff, mapError_eq_ok_iff,
    BridgeSettings.check_eq_ok_iff, GestureSettings.check_eq_ok_iff_limited,
    Viewport.check_eq_ok_iff, IntentSettings.check_eq_ok_iff]
  constructor
  · rintro ⟨hbridge, ⟨hgestures, hdivisor⟩, hview, hintent⟩
    exact ⟨⟨hbridge, hgestures, hview, hintent⟩, hdivisor⟩
  · rintro ⟨⟨hbridge, hgestures, hview, hintent⟩, hdivisor⟩
    exact ⟨hbridge, ⟨hgestures, hdivisor⟩, hview, hintent⟩

/-- A number as divisor passes exactly inside its range, as all other settings do. A divisor that is
not a number is in no range, but passes with whatever else is sensible. -/
theorem check_ranges (c : Config) :
    (c.gestures.reachDivisor.isNaN = false → (c.check = .ok () ↔ c.InRange)) ∧
      (c.gestures.reachDivisor.isNaN = true →
        ¬ c.InRange ∧ (c.check = .ok () ↔ c.Limited)) := by
  rw [check_eq_ok_iff]
  constructor
  · intro hnum
    rw [hnum]
    constructor
    · rintro ⟨hlimited, hpos | hnan⟩
      · exact ⟨hlimited, hpos⟩
      · cases hnan
    · intro h
      exact ⟨h.toLimited, .inl h.reachDivisor⟩
  · intro hnan
    constructor
    · intro h
      have hnum := Number.isNaN_eq_false_of_lt h.reachDivisor
      rw [hnan] at hnum
      cases hnum
    · rw [hnan]
      simp

/-- The configuration to begin with is in all its ranges; without a number as divisor it is not, but
passes. -/
theorem check_ranges_standard :
    (standard.gestures.reachDivisor.isNaN = false ∧ standard.check = .ok () ∧ standard.InRange) ∧
      let blurred := standard.withDivisor (0 / 0)
      blurred.gestures.reachDivisor.isNaN = true ∧ blurred.check = .ok () ∧ ¬ blurred.InRange := by
  have hnum : standard.gestures.reachDivisor.isNaN = false := by decide
  have hnan : (standard.withDivisor (0 / 0)).gestures.reachDivisor.isNaN = true := by decide
  have hpos : 0 < standard.gestures.reachDivisor := by decide
  have hrange : standard.InRange := ⟨limited_standard, hpos⟩
  have hlimited := limited_standard.withDivisor (0 / 0)
  refine ⟨⟨hnum, ((check_ranges standard).1 hnum).2 hrange, hrange⟩, hnan, ?_⟩
  obtain ⟨hout, hpasses⟩ := (check_ranges (standard.withDivisor (0 / 0))).2 hnan
  exact ⟨hpasses.2 hlimited, hout⟩

/-- The check and the ranges do not agree on all configurations. -/
theorem check_undefined_divisor : ¬ ∀ c : Config, c.check = .ok () ↔ c.InRange := by
  intro h
  have hnan : (standard.withDivisor (0 / 0)).gestures.reachDivisor.isNaN = true := by decide
  have hpasses : (standard.withDivisor (0 / 0)).check = .ok () :=
    check_eq_ok_iff.2 ⟨limited_standard.withDivisor (0 / 0), .inr hnan⟩
  have hpos := ((h _).1 hpasses).reachDivisor
  exact absurd hpos (by decide)

end Config

end Chalkboard
