import Chalkboard.Proofs.Live.Convergence
import Chalkboard.Proofs.Scene.Order

/-!
# Scenes that one pass draws completely

In a scene made by checked changes parents stand before their children. The order of the visits is
another one, by dependency class, and has a glider before the line that it lies on. Still one pass
with nothing held draws all elements if the canvas takes each of them (`Drawing.checked_pass`): what
came too early is tried again until it is drawn.
-/

namespace Chalkboard

/-- Where each element can be drawn by itself, all of them can. -/
theorem Scene.Grounded.supported {s : Scene} (hs : s.Grounded) {refusing : List ElementId}
    (hdraw : ∀ e ∈ s.elements, e.IsDrawable refusing) {e : Element} (he : e ∈ s.elements) :
    s.Supported refusing e.id := by
  obtain ⟨i, hi⟩ := List.getElem?_of_mem he
  -- what an element refers to has an earlier place
  induction i using Nat.strongRecOn generalizing e with
  | ind i ih =>
    refine .intro he (hdraw e he) ?_
    intro r hr
    obtain ⟨j, p, hj, hp, rfl⟩ := hs.ordered.earlier hi hr
    exact ih j hj (List.mem_of_getElem? hp) hp

/-- Where all elements are live, none is deferred and none has failed. -/
theorem Pass.Outcome.of_all_live {scene : Scene} {locked : Option ElementId} {p : Pass}
    (h : Outcome scene locked p)
    (hlive : ∀ e ∈ scene.elements, ∃ o, p.graph.get? e.id = some o) :
    p.report.deferred = [] ∧ p.report.failed = [] := by
  have hnone : ∀ e ∈ scene.elements, p.graph.get? e.id ≠ none := by
    intro e he hnone
    obtain ⟨o, ho⟩ := hlive e he
    rw [hnone] at ho
    cases ho
  constructor
  · rw [List.eq_nil_iff_forall_not_mem]
    intro id hid
    obtain ⟨e, he, rfl, hnew, -⟩ := (h.deferred id).1 hid
    exact hnone e he hnew
  · rw [← List.map_eq_nil_iff (f := Prod.fst), List.eq_nil_iff_forall_not_mem]
    intro id hid
    obtain ⟨e, he, rfl, hnew, -⟩ := (h.failed id).1 hid
    exact hnone e he hnew

namespace Drawing

/-- In a scene made by checked changes each element refers to earlier ones only. So no reference
dangles and none closes a cycle; and if the canvas takes each element, a pass with nothing held
draws all of them, and none is deferred or fails. -/
theorem checked_pass {scene : Scene} (hscene : scene.Checked) :
    (∀ (i : Nat) (e : Element), scene.elements[i]? = some e → ∀ r ∈ e.refs,
      ∃ j p, j < i ∧ scene.elements[j]? = some p ∧ p.id = r) ∧
    (∀ e ∈ scene.elements, ∀ r ∈ e.refs, scene.contains r = true) ∧
    (∀ id, ¬Relation.TransGen scene.Refers id id) ∧
    ∀ d : Drawing, d.Reachable → (∀ e ∈ scene.elements, e.IsDrawable d.canvas.refusing) →
      (d.reconcile scene none).2.deferred = [] ∧ (d.reconcile scene none).2.failed = [] ∧
        ∀ e ∈ scene.elements, ∃ o, (d.reconcile scene none).1.graph.get? e.id = some o := by
  have hs := hscene.grounded
  refine ⟨fun i e hi r hr => hs.ordered.earlier hi hr, fun e he r hr => hs.contains_ref he hr,
    hs.acyclic, ?_⟩
  intro d hd hdraw
  have houtcome : Pass.Outcome scene none (d.pass scene none) :=
    Pass.run_outcome none hd.isLinked hs.consistent
  have hrefusing : (d.pass scene none).canvas.refusing = d.canvas.refusing :=
    (Pass.settings_run hd.isLinked hs.consistent).2
  have hlive : ∀ e ∈ scene.elements, ∃ o, (d.pass scene none).graph.get? e.id = some o := by
    intro e he
    apply houtcome.live
    rw [hrefusing]
    exact hs.supported hdraw he
  obtain ⟨hdeferred, hfailed⟩ := houtcome.of_all_live hlive
  exact ⟨hdeferred, hfailed, hlive⟩

/-! ## A sample -/

/-- A glider on a line and a segment that ends at a text: both are visited before what they refer
to. -/
def gliderElements : List Element :=
  [.freePoint ⟨"p"⟩ 0 0, .freePoint ⟨"q"⟩ 4 3, .new ⟨"l"⟩ .line [.ref ⟨"p"⟩, .ref ⟨"q"⟩],
   .new ⟨"g"⟩ .point [.ref ⟨"l"⟩], .new ⟨"t"⟩ .text [.number 1, .number 2],
   .new ⟨"s"⟩ .segment [.ref ⟨"g"⟩, .ref ⟨"t"⟩]]

/-- The elements in order, and a point `x` with a line through it. -/
def gliderDraft : Scene :=
  ((gliderElements.foldl Scene.push .empty).push (.freePoint ⟨"x"⟩ 7 7)).push
    (.new ⟨"m"⟩ .line [.ref ⟨"p"⟩, .ref ⟨"x"⟩])

/-- The point `x` is deleted with its line; then a circle around it cannot be added. -/
def gliderScene : Scene :=
  (gliderDraft.change (.deleteCascade ⟨"x"⟩)).change
    (.insert (.new ⟨"c"⟩ .circle [.ref ⟨"x"⟩, .ref ⟨"p"⟩]))

theorem checked_gliderDraft : gliderDraft.Checked := by
  unfold gliderDraft
  repeat' first
    | exact .empty
    | refine Scene.Checked.push ?_ (by decide) (by decide)

theorem elements_gliderScene : gliderScene.elements = gliderElements := by
  have hx : gliderDraft.contains ⟨"x"⟩ = true :=
    checked_gliderDraft.grounded.consistent.contains_iff.2
      ⟨.freePoint ⟨"x"⟩ 7 7, by simp [gliderDraft, Scene.push], rfl⟩
  have hclosure : gliderDraft.closure ⟨"x"⟩ = [⟨"x"⟩, ⟨"m"⟩] := by
    rw [Scene.closure, if_pos hx]
    rfl
  have hchecked : (gliderDraft.change (.deleteCascade ⟨"x"⟩)).Checked :=
    checked_gliderDraft.change trivial
  have hkept : (gliderDraft.change (.deleteCascade ⟨"x"⟩)).elements = gliderElements := by
    rw [Scene.change, Scene.deleteCascade, hclosure]
    rfl
  rw [gliderScene, Scene.change]
  cases hinsert : (gliderDraft.change (.deleteCascade ⟨"x"⟩)).insert
      (.new ⟨"c"⟩ .circle [.ref ⟨"x"⟩, .ref ⟨"p"⟩]) with
  | error error => exact hkept
  | ok s =>
    exfalso
    obtain ⟨-, hrefs, -⟩ := Scene.insert_eq_ok_iff.1 hinsert
    obtain ⟨e, he, hid⟩ := hchecked.grounded.consistent.contains_iff.1
      (hrefs ⟨"x"⟩ (List.mem_cons_self ..))
    have hgone : (⟨"x"⟩ : ElementId) ∉ gliderElements.map Element.id := by decide
    exact hgone (hid ▸ List.mem_map_of_mem (hkept ▸ he))

theorem isDrawable_gliderElements : ∀ e ∈ gliderElements, e.IsDrawable [⟨"z"⟩] := by
  intro e he
  simp only [gliderElements, List.mem_cons, List.not_mem_nil, or_false] at he
  rcases he with rfl | rfl | rfl | rfl | rfl | rfl
  · exact ⟨by decide, fun _ => .inl ⟨0, 0, rfl⟩⟩
  · exact ⟨by decide, fun _ => .inl ⟨4, 3, rfl⟩⟩
  · exact ⟨by decide, fun hk => by cases hk⟩
  · exact ⟨by decide, fun _ => .inr ⟨⟨"l"⟩, [], rfl⟩⟩
  · exact ⟨by decide, fun hk => by cases hk⟩
  · exact ⟨by decide, fun hk => by cases hk⟩

/-- The sample over another drawing, while painting is suspended and an id is refused. -/
theorem checked_pass_sample :
    let actions : List DrawingAction := [.pass sampleScene none, .gesture (.drag ⟨1⟩ ⟨2, 2⟩)]
    let drawn := (start .standard default [⟨"z"⟩]).run actions
    let d : Drawing := { drawn with canvas := drawn.canvas.suspend }
    gliderScene.Checked ∧ d.Reachable ∧
      (∀ e ∈ gliderScene.elements, e.IsDrawable d.canvas.refusing) ∧
      (d.reconcile gliderScene none).2.deferred = [] ∧
      (d.reconcile gliderScene none).2.failed = [] ∧
      ∀ e ∈ gliderElements, ∃ o, (d.reconcile gliderScene none).1.graph.get? e.id = some o := by
  intro actions drawn d
  have hactions : ∀ a ∈ actions, a.Valid ∧ a.KeepsSettings := by
    intro a ha
    simp only [actions, List.mem_cons, List.not_mem_nil, or_false] at ha
    rcases ha with rfl | rfl
    · exact ⟨consistent_sampleScene, trivial⟩
    · exact ⟨trivial, trivial⟩
  have hd : d.Reachable :=
    ((Reachable.start .standard default [⟨"z"⟩]).run fun a ha => (hactions a ha).1).suspend
  have hrefusing : d.canvas.refusing = [⟨"z"⟩] :=
    (unconfigured_run default [⟨"z"⟩] hactions).refusing
  have hscene : gliderScene.Checked :=
    (checked_gliderDraft.change (c := .deleteCascade ⟨"x"⟩) trivial).change trivial
  have hdraw : ∀ e ∈ gliderScene.elements, e.IsDrawable d.canvas.refusing := by
    rw [elements_gliderScene, hrefusing]
    exact isDrawable_gliderElements
  obtain ⟨hdeferred, hfailed, hlive⟩ := (checked_pass hscene).2.2.2 d hd hdraw
  exact ⟨hscene, hd, hdraw, hdeferred, hfailed, elements_gliderScene ▸ hlive⟩

end Drawing

end Chalkboard
