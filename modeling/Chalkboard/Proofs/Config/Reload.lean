import Chalkboard.Config.Format
import Chalkboard.Proofs.Config.Json
import Chalkboard.Proofs.Config.Ranges
import Chalkboard.Proofs.Config.Toml
import Chalkboard.Proofs.Config.Yaml

/-!
# Saving and loading

A configuration that passes the check is written and read back as it was, exactly if the format has
room for it (`Config.reloads_iff`). All formats have room for the texts, the flags and the finite
numbers. Two settings remain that the check lets grow beyond that: the divisor of the pointer's
reach, which may be infinite or undefined, and the time of the intent service, which may need all of
64 bits.
-/

namespace Chalkboard

/-- A number that the format reads back as it was written. -/
def ConfigFormat.ReadsBack (x : Float) : ConfigFormat → Prop
  | yaml => Yaml.float? (Yaml.numberLayout.write x) = some x
  | json => (Number.real x).ReadsBack
  | toml => Toml.number? (Toml.numberLayout.write x).toList = some (.float x)

namespace Config

variable {c : Config}

/-- The configuration can be written, and what is read from that text is equal to it. -/
def Reloads (c : Config) (format : ConfigFormat) : Prop :=
  ∃ text, write format c = .ok text ∧ ∃ c', read format text = .ok c' ∧ (c' == c) = true

/-- The format has room for the settings that the check does not bound: JSON has finite numbers
only, whole numbers have 63 bits in TOML, and what is not a number is not equal to itself anywhere. -/
def FitsIn (c : Config) : ConfigFormat → Prop
  | .yaml => c.gestures.reachDivisor.isNaN = false
  | .json => c.gestures.reachDivisor.isFinite = true
  | .toml => c.gestures.reachDivisor.isNaN = false ∧
    (c.intent.timeoutMs.toNat : Int) ≤ Int64.maxValue.toInt

/-! ## Numbers -/

theorem numbers_eq (c : Config) : c.numbers =
    [c.gestures.zoomFactor, c.gestures.minScale, c.gestures.maxScale, c.gestures.reachDivisor] ++
      c.viewport.box.sides :=
  rfl

theorem mem_numbers_withDivisor {divisor x : Float} (hx : x ∈ (c.withDivisor divisor).numbers) :
    x = divisor ∨ x ∈ c.numbers := by
  simp only [numbers_eq, withDivisor, List.mem_append, List.mem_cons, List.not_mem_nil,
    or_false] at hx ⊢
  rcases hx with (h | h | h | h) | h
  · exact .inr (.inl (.inl h))
  · exact .inr (.inl (.inr (.inl h)))
  · exact .inr (.inl (.inr (.inr (.inl h))))
  · exact .inl h
  · exact .inr (.inr h)

/-- All numbers are finite in a configuration that passes the check, except perhaps the divisor. -/
theorem isFinite_of_limited (h : c.Limited) {x : Float} (hx : x ∈ c.numbers) :
    x.isFinite = true ∨ x = c.gestures.reachDivisor := by
  have hmax := h.gestures.maxScale
  rw [numbers_eq, List.mem_append] at hx
  rcases hx with hx | hx
  · simp only [List.mem_cons, List.not_mem_nil, or_false] at hx
    rcases hx with rfl | rfl | rfl | rfl
    · obtain ⟨hlow, hhigh⟩ := h.gestures.zoomFactor
      exact .inl (Number.isFinite_of_lt_of_le (by decide) (by decide) hlow hhigh)
    · obtain ⟨hpos, hbelow⟩ := h.gestures.scales
      exact .inl (Number.isFinite_of_lt_of_le (by decide) hmax hpos (Number.le_of_lt hbelow))
    · exact .inl hmax
    · exact .inr rfl
  · exact .inl (h.viewport.finite x hx)

theorem isFinite_or_infinity (hvalid : c.check = .ok ())
    (hdivisor : c.gestures.reachDivisor.isNaN = false) {x : Float} (hx : x ∈ c.numbers) :
    x.isFinite = true ∨ x = 1 / 0 := by
  obtain ⟨hlimited, hpos | hnan⟩ := check_eq_ok_iff.1 hvalid
  · rcases isFinite_of_limited hlimited hx with hfinite | rfl
    · exact .inl hfinite
    · rcases hfinite : c.gestures.reachDivisor.isFinite with _ | _
      · exact .inr (Number.eq_infinity_of_pos hpos hfinite)
      · exact .inl rfl
  · rw [hdivisor] at hnan
    cases hnan

theorem readsBack_infinity {format : ConfigFormat} (hformat : format ≠ .json) :
    format.ReadsBack (1 / 0) := by
  cases format with
  | yaml =>
    show Yaml.float? (Yaml.numberLayout.write (1 / 0)) = some (1 / 0)
    decide +kernel
  | json => exact absurd rfl hformat
  | toml => rfl

/-! ## Equality -/

theorem beq_eq (c c' : Config) : (c == c') = (c.version == c'.version && (c.bridge == c'.bridge &&
    ((c.gestures.zoomFactor == c'.gestures.zoomFactor &&
      (c.gestures.minScale == c'.gestures.minScale && (c.gestures.maxScale == c'.gestures.maxScale &&
        c.gestures.reachDivisor == c'.gestures.reachDivisor))) &&
    (((c.viewport.box.left == c'.viewport.box.left && (c.viewport.box.top == c'.viewport.box.top &&
      (c.viewport.box.right == c'.viewport.box.right &&
        c.viewport.box.bottom == c'.viewport.box.bottom))) &&
      (c.viewport.width == c'.viewport.width && c.viewport.height == c'.viewport.height)) &&
    c.intent == c'.intent)))) :=
  rfl

/-- A configuration is equal to itself if all its numbers are numbers. -/
theorem beq_self (hnan : ∀ x ∈ c.numbers, x.isNaN = false) : (c == c) = true := by
  have hself (x : Float) (hx : x ∈ c.numbers) : (x == x) = true :=
    Number.beq_self_of_isNaN_eq_false (hnan x hx)
  simp only [numbers_eq, BoundingBox.sides, List.cons_append, List.nil_append, List.mem_cons,
    List.not_mem_nil, or_false, forall_eq_or_imp, forall_eq] at hself
  obtain ⟨hzoom, hmin, hmax, hdivisor, hleft, htop, hright, hbottom⟩ := hself
  rw [beq_eq]
  simp only [hzoom, hmin, hmax, hdivisor, hleft, htop, hright, hbottom, Bool.and_true, Bool.true_and]
  simp

/-- What is equal to some configuration has a number as divisor. -/
theorem isNaN_eq_false_of_beq {c' : Config} (h : (c' == c) = true) :
    c.gestures.reachDivisor.isNaN = false := by
  have hdivisor : (c'.gestures.reachDivisor == c.gestures.reachDivisor) = true := by
    rw [beq_eq] at h
    simp only [Bool.and_eq_true] at h
    exact h.2.2.1.2.2.2
  rw [Bool.eq_false_iff]
  intro hnan
  rw [Number.isNaN_iff] at hnan
  rw [Number.beq_iff, Number.compare_eq_none_iff.2 (.inr hnan)] at hdivisor
  cases hdivisor

/-- Of the times only that of the intent service can be too long for TOML. -/
theorem fitsToml_iff (h : c.Limited) :
    c.fitsToml = true ↔ (c.intent.timeoutMs.toNat : Int) ≤ Int64.maxValue.toInt := by
  have hbridge : (c.bridge.timeoutMs.toNat : Int) ≤ Int64.maxValue.toInt := by
    have hbound : c.bridge.timeoutMs.toNat ≤ 600000 := h.requestTimeout.2
    have hmax : Int64.maxValue.toInt = 9223372036854775807 := by decide
    omega
  have hfits : c.fitsToml = (decide ((c.bridge.timeoutMs.toNat : Int) ≤ Int64.maxValue.toInt) &&
      decide ((c.intent.timeoutMs.toNat : Int) ≤ Int64.maxValue.toInt)) := by
    simp [fitsToml, settings, entries, bridgeSettings, gestureSettings, viewSettings,
      intentSettings, SettingType.fitsToml]
  rw [hfits, decide_eq_true hbridge, Bool.true_and, decide_eq_true_iff]

/-! ## The formats -/

section Formats

variable (hvalid : c.check = .ok ()) (hdivisor : c.gestures.reachDivisor.isNaN = false)

include hvalid hdivisor

theorem isNaN_eq_false_of_check {x : Float} (hx : x ∈ c.numbers) : x.isNaN = false := by
  rcases isFinite_or_infinity hvalid hdivisor hx with hfinite | rfl
  · exact Number.isNaN_eq_false_of_isFinite hfinite
  · decide

/-- Where there is a word for infinity, all numbers are read back if the finite ones are. -/
theorem readsBack_of_check {format : ConfigFormat} (hformat : format ≠ .json)
    (hnumbers : ∀ x ∈ c.numbers, x.isFinite = true → format.ReadsBack x) {x : Float}
    (hx : x ∈ c.numbers) : format.ReadsBack x := by
  rcases isFinite_or_infinity hvalid hdivisor hx with hfinite | rfl
  · exact hnumbers x hx hfinite
  · exact readsBack_infinity hformat

theorem reloads_yaml
    (hnumbers : ∀ x ∈ c.numbers, x.isFinite = true → ConfigFormat.yaml.ReadsBack x) :
    c.Reloads .yaml := by
  have hnan : ∀ x ∈ c.numbers, x.isNaN = false := fun x => isNaN_eq_false_of_check hvalid hdivisor
  have hread := yaml_read_write hnan fun x =>
    readsBack_of_check hvalid hdivisor (by decide) hnumbers
  refine ⟨_, rfl, c, ?_, beq_self hnan⟩
  simp only [read, ofText?, hread]

theorem reloads_toml
    (hnumbers : ∀ x ∈ c.numbers, x.isFinite = true → ConfigFormat.toml.ReadsBack x)
    (hfits : c.fitsToml = true) : c.Reloads .toml := by
  have hnan : ∀ x ∈ c.numbers, x.isNaN = false := fun x => isNaN_eq_false_of_check hvalid hdivisor
  obtain ⟨doc, hdoc, hread⟩ := toml_read_write hfits fun x =>
    readsBack_of_check hvalid hdivisor (by decide) hnumbers
  refine ⟨Toml.write doc, ?_, c, ?_, beq_self hnan⟩
  · simp only [write, hdoc]
  · simp only [read, ofText?, hread]

end Formats

theorem reloads_json (hfinite : ∀ x ∈ c.numbers, x.isFinite = true)
    (hnumbers : ∀ x ∈ c.numbers, (Number.real x).ReadsBack) : c.Reloads .json := by
  have hread := json_read_write hfinite hnumbers
  refine ⟨_, rfl, c, ?_, beq_self fun x hx => Number.isNaN_eq_false_of_isFinite (hfinite x hx)⟩
  simp only [read, ofText?, hread, Except.toOption]

/-- A divisor that is not finite leaves a gap in the text, over which the reader stumbles. -/
theorem not_reloads_json (hdivisor : c.gestures.reachDivisor.isFinite = false)
    (hnumbers : ∀ x ∈ c.numbers, x.isFinite = true → (Number.real x).ReadsBack) :
    ¬ c.Reloads .json := by
  rintro ⟨text, hwrite, c', hread, -⟩
  obtain ⟨e, he⟩ := decode_hold_of_endless Json.Holder.tree hdivisor
  have htext : c.toJson.pretty = text := Except.ok.inj hwrite
  rw [← htext] at hread
  simp only [read, ofText?, decodeText_pretty hnumbers, he, Except.toOption] at hread
  cases hread

/-- A configuration that passes the check is written and read back exactly if the format has room
for its divisor and its times. It is assumed that the format reads back the finite numbers as they
were written; texts and flags always are. -/
theorem reloads_iff (hvalid : c.check = .ok ()) {format : ConfigFormat}
    (hnumbers : ∀ x ∈ c.numbers, x.isFinite = true → format.ReadsBack x) :
    c.Reloads format ↔ c.FitsIn format := by
  have hlimited := (check_eq_ok_iff.1 hvalid).1
  cases format with
  | yaml =>
    constructor
    -- a divisor that is no number is not equal to itself
    · rintro ⟨text, -, c', -, hequal⟩
      exact isNaN_eq_false_of_beq hequal
    · intro hdivisor
      exact reloads_yaml hvalid hdivisor hnumbers
  | json =>
    constructor
    · intro hreloads
      by_contra hdivisor
      exact not_reloads_json (Bool.eq_false_iff.2 hdivisor) hnumbers hreloads
    · intro hdivisor
      have hfinite : ∀ x ∈ c.numbers, x.isFinite = true := by
        intro x hx
        rcases isFinite_of_limited hlimited hx with hfinite | rfl
        · exact hfinite
        · exact hdivisor
      exact reloads_json hfinite fun x hx => hnumbers x hx (hfinite x hx)
  | toml =>
    rw [FitsIn, ← fitsToml_iff hlimited]
    constructor
    · rintro ⟨text, hwrite, c', -, hequal⟩
      refine ⟨isNaN_eq_false_of_beq hequal, ?_⟩
      -- the format has no room for so long a time, so nothing is written
      by_contra hfits
      simp only [write, toToml?, if_neg hfits] at hwrite
      cases hwrite
    · rintro ⟨hdivisor, hfits⟩
      exact reloads_toml hvalid hdivisor hnumbers hfits

/-- The numbers that are configured where nothing is said. -/
theorem readsBack_standard {x : Float} (hx : x ∈ standard.numbers) :
    (Number.real x).ReadsBack := by
  have hx : x ∈ [1.25, 0.05, 50, 40, -10, 10, 10, -10] := hx
  simp only [List.mem_cons, List.not_mem_nil, or_false] at hx
  have hten : (Number.real 10).ReadsBack :=
    Number.readsBack_of_scaled "10.0" 100 1 false (by decide +kernel) rfl (by decide) (by decide)
  have hminus : (Number.real (-10)).ReadsBack :=
    Number.readsBack_of_scaled "-10.0" 100 1 true (by decide +kernel) rfl (by decide) (by decide)
  rcases hx with rfl | rfl | rfl | rfl | rfl | rfl | rfl | rfl
  · exact Number.readsBack_of_scaled "1.25" 125 2 false (by decide +kernel) rfl (by decide)
      (by decide)
  · exact Number.readsBack_of_scaled "0.05" 5 2 false (by decide +kernel) rfl (by decide)
      (by decide)
  · exact Number.readsBack_of_scaled "50.0" 500 1 false (by decide +kernel) rfl (by decide)
      (by decide)
  · exact Number.readsBack_of_scaled "40.0" 400 1 false (by decide +kernel) rfl (by decide)
      (by decide)
  · exact hminus
  · exact hten
  · exact hten
  · exact hminus

/-- What is configured where nothing is said is read back from JSON. -/
theorem reloads_standard :
    standard.check = .ok () ∧
      (∀ x ∈ standard.numbers, x.isFinite = true → ConfigFormat.json.ReadsBack x) ∧
      standard.Reloads .json := by
  have hvalid : standard.check = .ok () :=
    check_eq_ok_iff.2 ⟨limited_standard, .inl (by decide)⟩
  have hnumbers : ∀ x ∈ standard.numbers, x.isFinite = true → ConfigFormat.json.ReadsBack x :=
    fun x hx _ => readsBack_standard hx
  have hfinite : standard.gestures.reachDivisor.isFinite = true := by decide
  exact ⟨hvalid, hnumbers, (reloads_iff hvalid hnumbers).2 hfinite⟩

/-- Two configurations that pass the check and do not come back: an endless divisor is lost in JSON,
and TOML has no number for the longest times. -/
theorem not_reloads :
    let endless := standard.withDivisor (1 / 0)
    let patient := { standard with intent := ⟨standard.intent.endpoint, 9223372036854775808⟩ }
    (endless.check = .ok () ∧ ¬ endless.Reloads .json) ∧
      patient.check = .ok () ∧ write .toml patient =
        .error (.parse "TOML serialize error: out-of-range value for u64 type") := by
  intro endless patient
  have hendless : endless.check = .ok () :=
    check_eq_ok_iff.2 ⟨limited_standard.withDivisor (1 / 0), .inl (by decide)⟩
  have hpatient : patient.Limited :=
    { limited_standard with intent := ⟨limited_standard.intent.endpoint, by decide⟩ }
  refine ⟨⟨hendless, not_reloads_json (by decide) ?_⟩,
    check_eq_ok_iff.2 ⟨hpatient, .inl (by decide)⟩, ?_⟩
  · intro x hx hfinite
    rcases mem_numbers_withDivisor hx with rfl | hstandard
    · exact absurd hfinite (by decide)
    · exact readsBack_standard hstandard
  · have hfits : ¬ patient.fitsToml = true := by
      rw [fitsToml_iff hpatient]
      decide
    simp only [write, toToml?, if_neg hfits]

end Config

end Chalkboard
