import Chalkboard.Proofs.Result.Plot
import Chalkboard.Proofs.Session.Calls

/-!
# Showing results

What a diagram makes of a result. The curves and points of a plot have ids that depend on what they
show and on nothing else in the plot, and no two of them are equal (`GraphResult.plotted`), so a plot
can always be shown. A list of elements cannot be shown if it repeats an id. Then the elements stay
as they are, but what was said about the result before is forgotten (`Diagram.rejected_result`).
-/

namespace Chalkboard

/-! ## Plots -/

namespace GraphResult

/-- The functions that are drawn, each with its curve. -/
def shown (r : GraphResult) : List (GraphEntry × Element) :=
  r.drawn.zip r.plot.elements

/-- The annotations, each with its point. -/
def noted (r : GraphResult) : List ( Annotation × Element) :=
  r.annotations.zip (r.plot.elements.drop r.drawn.length)

section Entries

variable (r : GraphResult)

end Entries

end GraphResult

/-- A plot can be shown, whatever is shown so far. -/
theorem Diagram.applyResult_plot (d : Diagram) {r : GraphResult} (h : r.success = true) :
    ∃ d' report, d.applyResult (.graph r) = (d', .ok report) := by
  have hnone : Scene.firstRepeated? [] (r.plot.elements.map Element.id) = none :=
    Scene.Consistent.firstRepeated?_eq_none r.ids_plot_nodup fun _ _ => List.not_mem_nil
  simp only [applyResult, CommandResult.success, h, if_true, Scene.replaceAll, hnone]
  exact ⟨_, _, rfl⟩

namespace Scene

/-- The first element of a list that has the id of an earlier one. -/
def FirstRepeated (elements : List Element) (x : Element) : Prop :=
  ∃ before after, elements = before ++ x :: after ∧ (before.map Element.id).Nodup ∧
    x.id ∈ before.map Element.id

/-- The ids seen so far stand before the others, the latest first. -/
theorem firstRepeated?_eq_some_iff {seen ids : List ElementId} {id : ElementId}
    (hseen : seen.Nodup) : firstRepeated? seen ids = some id ↔
      ∃ before after, ids = before ++ id :: after ∧ (before.reverse ++ seen).Nodup ∧
        id ∈ before.reverse ++ seen := by
  -- on the ids to come; what was seen grows by the id that was passed
  induction ids generalizing seen with
  | nil => simp [firstRepeated?]
  | cons i rest ih =>
    rw [firstRepeated?]
    by_cases hi : i ∈ seen
    · rw [if_pos (List.contains_iff_mem.2 hi), Option.some.injEq]
      constructor
      · rintro rfl
        exact ⟨[], rest, rfl, hseen, hi⟩
      · rintro ⟨before, after, hids, hnodup, -⟩
        cases before with
        | nil => exact (List.cons.inj hids).1
        | cons b before =>
          cases (List.cons.inj hids).1
          rw [List.reverse_cons, List.append_assoc] at hnodup
          exact absurd hi (List.nodup_cons.1 hnodup.of_append_right).1
    · rw [if_neg fun h => hi (List.contains_iff_mem.1 h), ih (List.nodup_cons.2 ⟨hi, hseen⟩)]
      constructor
      · rintro ⟨before, after, rfl, h⟩
        exact ⟨i :: before, after, rfl, by simpa using h⟩
      · rintro ⟨before, after, hids, hnodup, hmem⟩
        cases before with
        | nil => exact absurd hmem (by rwa [← (List.cons.inj hids).1])
        | cons b before =>
          obtain ⟨rfl, rfl⟩ := List.cons.inj hids
          exact ⟨before, after, rfl, by simpa using hnodup, by simpa using hmem⟩

theorem replaceAll_eq_error_iff {s : Scene} {elements : List Element} {error : SceneError} :
    s.replaceAll elements = .error error ↔
      ∃ x, FirstRepeated elements x ∧ error = .duplicateId x.id := by
  have hfirst : ∀ id, firstRepeated? [] (elements.map Element.id) = some id ↔
      ∃ x, FirstRepeated elements x ∧ id = x.id := by
    intro id
    rw [firstRepeated?_eq_some_iff List.nodup_nil]
    constructor
    · rintro ⟨ids, ids', hids, hnodup, hmem⟩
      obtain ⟨before, rest, rfl, rfl, hrest⟩ := List.map_eq_append_iff.1 hids
      obtain ⟨x, after, rfl, rfl, -⟩ := List.map_eq_cons_iff.1 hrest
      exact ⟨x, ⟨before, after, rfl, by simpa using hnodup, by simpa using hmem⟩, rfl⟩
    · rintro ⟨x, ⟨before, after, rfl, hnodup, hmem⟩, rfl⟩
      exact ⟨before.map Element.id, after.map Element.id, by simp, by simpa using hnodup,
        by simpa using hmem⟩
  rw [replaceAll]
  cases h : firstRepeated? [] (elements.map Element.id) with
  | none =>
    constructor
    · intro herror
      cases herror
    · rintro ⟨x, hx, -⟩
      rw [(hfirst x.id).2 ⟨x, hx, rfl⟩] at h
      cases h
  | some id =>
    obtain ⟨x, hx, rfl⟩ := (hfirst id).1 h
    constructor
    · intro herror
      exact ⟨x, hx, (Except.error.inj herror).symm⟩
    · rintro ⟨y, hy, rfl⟩
      rw [(hfirst y.id).2 ⟨y, hy, rfl⟩, Option.some.injEq] at h
      exact congrArg (Except.error ∘ SceneError.duplicateId) h.symm

end Scene

namespace Diagram

/-- A result is rejected: it is a list of elements that repeats an id. The scene and all that is
drawn stay as they are, and nothing that was said about the result before remains. -/
structure Rejects (d : Diagram) (r : CommandResult) (d' : Diagram) (error : SceneError) :
    Prop where
  cause : ∃ g x, r = .geometry g ∧ g.success = true ∧ Scene.FirstRepeated g.elements x ∧
    error = .duplicateId x.id
  scene : d'.scene = d.scene
  graph : d'.graph = d.graph
  gesture : d'.gesture = d.gesture
  canvas : d'.canvas = d.canvas
  errors : d'.errors = []
  explanation : d'.explanation = explanationOf r

section Geometry

variable (d : Diagram) {g : GeometryResult}

theorem applyResult_of_replaceAll_error (h : g.success = true) {error : SceneError}
    (hreplace : d.scene.replaceAll g.elements = .error error) :
    d.applyResult (.geometry g) =
      ({ d with errors := [], explanation := explanationOf (.geometry g) }, .error error) := by
  simp only [applyResult, CommandResult.success, h, if_true, hreplace]

theorem applyResult_of_replaceAll_ok (h : g.success = true) {s : Scene}
    (hreplace : d.scene.replaceAll g.elements = .ok s) :
    ∃ d' report, d.applyResult (.geometry g) = (d', .ok report) := by
  simp only [applyResult, CommandResult.success, h, if_true, hreplace]
  exact ⟨_, _, rfl⟩

end Geometry

theorem rejected_result {d d' : Diagram} {r : CommandResult} {error : SceneError} :
    d.applyResult r = (d', .error error) ↔ d.Rejects r d' error := by
  constructor
  · intro h
    by_cases hsuccess : r.success = true
    · cases r with
      | graph g =>
        -- a plot repeats no id
        obtain ⟨d₁, report, hok⟩ := d.applyResult_plot (r := g) hsuccess
        rw [hok] at h
        cases h
      | geometry g =>
        cases hreplace : d.scene.replaceAll g.elements with
        | ok s =>
          obtain ⟨d₁, report, hok⟩ := d.applyResult_of_replaceAll_ok hsuccess hreplace
          rw [hok] at h
          cases h
        | error e =>
          rw [d.applyResult_of_replaceAll_error hsuccess hreplace] at h
          cases h
          obtain ⟨x, hx, he⟩ := Scene.replaceAll_eq_error_iff.1 hreplace
          exact ⟨⟨g, x, rfl, hsuccess, hx, he⟩, rfl, rfl, rfl, rfl, rfl, rfl⟩
    · -- a failed result leaves the scene as it is, so nothing can go wrong
      simp only [applyResult, hsuccess] at h
      cases h
  · obtain ⟨scene, graph, gesture, canvas, errors, explanation⟩ := d'
    rintro ⟨⟨g, x, rfl, hsuccess, hx, rfl⟩, ⟨⟩, ⟨⟩, ⟨⟩, ⟨⟩, ⟨⟩, ⟨⟩⟩
    exact d.applyResult_of_replaceAll_error hsuccess
      (Scene.replaceAll_eq_error_iff.2 ⟨x, hx, rfl⟩)

/-- After a failure that was explained. -/
def sampleFailed : Diagram :=
  ((start .standard (.empty .standard)).call (.change (.applyResult
    (.graph ⟨false, [], [], "The function is unknown.", some "unknown function"⟩)))).1

/-- Two points with one id. -/
def sampleTwins : CommandResult :=
  .geometry ⟨true, [.freePoint ⟨"p"⟩ 0 0, .freePoint ⟨"p"⟩ 1 1], "", none⟩

/-- A rejected result does not leave everything as it was. -/
theorem rejected_result_forgets :
    Reachable (start .standard (.empty .standard)) sampleFailed ∧
      sampleFailed.errors = [⟨none, "unknown function"⟩] ∧
      sampleFailed.explanation = some "The function is unknown." ∧
      ∃ d', sampleFailed.applyResult sampleTwins = (d', .error (.duplicateId ⟨"p"⟩)) ∧
        d'.errors = [] ∧ d'.explanation = none :=
  ⟨.call .start trivial, rfl, rfl, _, rfl, rfl, rfl⟩

end Diagram

end Chalkboard
