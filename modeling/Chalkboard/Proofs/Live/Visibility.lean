import Chalkboard.Proofs.Live.Convergence

/-!
# What is recorded and what is shown

A record says whether its object is shown, so that a pass knows when to show or hide it. The record
goes by the element's own settings, but a new object is shown or hidden by these merged with the
settings of its kind. So where the settings of a kind hide what says nothing itself, a record says
that a hidden object is shown, and passes leave the object hidden until the element is declared
hidden and then visible again (`Drawing.tracked_pass`). In all other cases they agree.
-/

namespace Chalkboard

/-! ## Settings that hide -/

/-- The settings hide the elements of a kind that do not say whether they are visible. -/
def Defaults.Hides (d : Defaults) (kind : ElementKind) : Prop :=
  ((d.get? kind).getD []).get? "visible" = some (.bool false)

/-- The settings of the kind matter exactly if they hide an element that says nothing. -/
theorem Defaults.flag_merge_ne_iff (d : Defaults) (e : Element) :
    Element.flag (d.merge e.kind e.props) "visible" true ≠ e.isVisible ↔
      e.props.get? "visible" = Option.none ∧ d.Hides e.kind := by
  rw [Element.flag, Defaults.get?_merge, Element.isVisible, Element.flag, Hides]
  cases e.props.get? "visible" with
  | some own => simp
  | none =>
    cases ((d.get? e.kind).getD []).get? "visible" with
    | none => simp
    | some value => cases value <;> simp [Json.asBool?]

/-! ## All elements -/

/-- An object is shown exactly if its record says so, unless it is of a kind that some settings
hide: then it may be hidden although the record says that it is shown. -/
structure LiveGraph.Tracks (hides : ElementKind → Prop) (g : LiveGraph) (c : Canvas) : Prop where
  settings : ∀ kind, g.defaults.Hides kind → hides kind
  agrees : ∀ id o x, g.get? id = some o → c.object? o.handle = some x →
    x.visible = o.visible ∨ hides o.kind ∧ o.visible = true ∧ x.visible = false

section Tracks

variable {hides : ElementKind → Prop} {g : LiveGraph} {c : Canvas} {locked : Option ElementId}
  {e : Element} {o : LiveObject} {x : Drawn}

theorem Pass.Visited.agrees (h : Visited locked g c e o x) (hg : g.Tracks hides c) :
    x.visible = o.visible ∨ hides o.kind ∧ o.visible = true ∧ x.visible = false := by
  cases h with
  | drawn hnew hdraw hkind hvisible hshown =>
    -- only an element that says nothing is hidden by settings, and its record says that it is shown
    by_cases hflag : x.visible = o.visible
    · exact .inl hflag
    · rw [hshown, hvisible] at hflag
      obtain ⟨hsilent, hhides⟩ := (g.defaults.flag_merge_ne_iff e).1 hflag
      have hown : e.isVisible = true := by simp [Element.isVisible, Element.flag, hsilent]
      refine .inr ⟨hkind ▸ hg.settings _ hhides, hvisible.trans hown, ?_⟩
      rw [hown] at hflag
      rw [hshown]
      exact Bool.eq_false_iff.2 hflag
  | @updated o₀ x₀ hl ho hx hf hsynced =>
    -- the canvas is told only what differs from the old record
    have hshown := hsynced.shown
    by_cases hv : e.isVisible = o₀.visible
    · rw [if_pos hv] at hshown
      rw [hshown, hsynced.visible, hv, hsynced.kind]
      exact hg.agrees _ _ _ ho hx
    · rw [if_neg hv] at hshown
      exact .inl (hshown.trans hsynced.visible.symm)
  | held hl ho hx => exact hg.agrees _ _ _ ho hx

end Tracks

namespace Drawing

/-- The settings of a run hide a kind, at its start or later. -/
def Hidden (defaults : Defaults) (actions : List DrawingAction) (kind : ElementKind) : Prop :=
  defaults.Hides kind ∨ ∃ settings, .configure settings ∈ actions ∧ settings.Hides kind

section Runs

variable {hides : ElementKind → Prop} {d : Drawing}

theorem tracks_step (hd : d.IsLinked) (h : d.graph.Tracks hides d.canvas) {a : DrawingAction}
    (ha : a.Valid)
    (hsettings : ∀ settings, a = .configure settings → ∀ kind, settings.Hides kind → hides kind) :
    (d.step a).graph.Tracks hides (d.step a).canvas := by
  cases a with
  | pass scene locked =>
    refine ⟨?_, fun id o x ho hx => ?_⟩
    · rw [show (d.step (.pass scene locked)).graph.defaults = d.graph.defaults from
        (Pass.settings_run hd ha).1]
      exact h.settings
    · obtain ⟨e, he, rfl⟩ := (Pass.run_outcome locked hd ha).inScene id o ho
      exact (Pass.run_visited hd ha he ho hx).agrees h
  | gesture effect =>
    refine ⟨h.settings, fun id o x' ho hx' => ?_⟩
    obtain ⟨x, hx, hvisible⟩ := Canvas.visible_perform hx'
    rw [← hvisible]
    exact h.agrees id o x ho hx
  | refuse id => exact ⟨h.settings, h.agrees⟩
  | configure settings => exact ⟨hsettings settings rfl, h.agrees⟩

theorem tracks_run (defaults : Defaults) (viewport : Viewport Float) (refusing : List ElementId)
    {actions : List DrawingAction} (hactions : ∀ a ∈ actions, a.Valid) :
    ((start defaults viewport refusing).run actions).graph.Tracks (Hidden defaults actions)
      ((start defaults viewport refusing).run actions).canvas := by
  have hstart : (start defaults viewport refusing).graph.Tracks (Hidden defaults actions)
      (start defaults viewport refusing).canvas :=
    ⟨fun _ h => .inl h, fun _ _ _ ho => by cases ho⟩
  refine (run_induction (motive := fun d => d.IsLinked ∧
    d.graph.Tracks (Hidden defaults actions) d.canvas) (fun d a ha hd => ?_)
    ⟨isLinked_start defaults viewport refusing, hstart⟩).2
  refine ⟨hd.1.step (hactions a ha), tracks_step hd.1 hd.2 (hactions a ha) ?_⟩
  rintro settings rfl kind h
  exact .inr ⟨settings, ha, h⟩

end Runs

/-- What a pass that leads from `d` to `d'` makes of the flags for visible things in records and on
the canvas. -/
structure Tracked (hides : ElementKind → Prop) (scene : Scene) (locked : Option ElementId)
    (d d' : Drawing) : Prop where
  /-- The flags are equal, unless settings hid the object. -/
  agrees : ∀ id o, d'.graph.get? id = some o → ∃ x, d'.canvas.object? o.handle = some x ∧
    (x.visible = o.visible ∨ hides o.kind ∧ o.visible = true ∧ x.visible = false)
  /-- The settings in force hide a new object exactly if its element leaves it to them. -/
  drawn : ∀ e ∈ scene.elements, ∀ o x, d'.graph.get? e.id = some o →
    d'.canvas.object? o.handle = some x → d.graph.handle? e.id ≠ some o.handle →
      o.visible = e.isVisible ∧
      (x.visible ≠ o.visible ↔ e.props.get? "visible" = none ∧ d.graph.defaults.Hides e.kind)
  /-- Flags of an old object that differed do so still if the record said the same as before. -/
  updated : ∀ e ∈ scene.elements, locked ≠ some e.id → ∀ o₀ x₀ o x,
    d.graph.get? e.id = some o₀ → d.canvas.object? o₀.handle = some x₀ →
    d'.graph.get? e.id = some o → d'.canvas.object? o.handle = some x → o.handle = o₀.handle →
      o.visible = e.isVisible ∧
      (x.visible ≠ o.visible ↔ x₀.visible ≠ o₀.visible ∧ e.isVisible = o₀.visible)
  held : ∀ e ∈ scene.elements, locked = some e.id → ∀ o₀ x₀ o x,
    d.graph.get? e.id = some o₀ → d.canvas.object? o₀.handle = some x₀ →
    d'.graph.get? e.id = some o → d'.canvas.object? o.handle = some x → o.handle = o₀.handle →
      o = o₀ ∧ x = x₀
  /-- What an element says itself holds, unless it says that an object is visible which settings hid
  before and whose record said that it is shown. -/
  declared : ∀ e ∈ scene.elements, locked ≠ some e.id → ∀ visible,
    e.props.get? "visible" = some (.bool visible) → ∀ o x, d'.graph.get? e.id = some o →
    d'.canvas.object? o.handle = some x → o.visible = visible ∧
      (x.visible = visible ∨ visible = true ∧ hides e.kind ∧ ∃ o₀ x₀,
        d.graph.get? e.id = some o₀ ∧ d.canvas.object? o₀.handle = some x₀ ∧
        o.handle = o₀.handle ∧ o₀.visible = true ∧ x₀.visible = false)

end Drawing

namespace Pass.Visited

variable {hides : ElementKind → Prop} {g : LiveGraph} {c : Canvas} {locked : Option ElementId}
  {e : Element} {o o₀ : LiveObject} {x x₀ : Drawn}

theorem of_drawn (h : Visited locked g c e o x) (hnew : g.handle? e.id ≠ some o.handle) :
    o.visible = e.isVisible ∧
      (x.visible ≠ o.visible ↔ e.props.get? "visible" = none ∧ g.defaults.Hides e.kind) := by
  cases h with
  | drawn _ hdraw hkind hvisible hshown =>
    refine ⟨hvisible, ?_⟩
    rw [hshown, hvisible]
    exact g.defaults.flag_merge_ne_iff e
  | updated hl ho hx hf hsynced =>
    exact absurd (LiveGraph.handle?_eq_some_iff.2 ⟨_, ho, hsynced.handle.symm⟩) hnew
  | held hl ho hx => exact absurd (LiveGraph.handle?_eq_some_iff.2 ⟨_, ho, rfl⟩) hnew

/-- An object that was there before is not new. -/
theorem not_new (hg : g.OnCanvas c) (hx₀ : c.object? o₀.handle = some x₀)
    (hh : o.handle = o₀.handle) : ¬c.lastHandle < o.handle.number :=
  Nat.not_lt.2 (hh ▸ hg.wellFormed.issued _ x₀ hx₀)

theorem of_updated (h : Visited locked g c e o x) (hg : g.OnCanvas c) (hl : locked ≠ some e.id)
    (ho₀ : g.get? e.id = some o₀) (hx₀ : c.object? o₀.handle = some x₀)
    (hh : o.handle = o₀.handle) : o.visible = e.isVisible ∧
      (x.visible ≠ o.visible ↔ x₀.visible ≠ o₀.visible ∧ e.isVisible = o₀.visible) := by
  cases h with
  | drawn hnew hdraw hkind hvisible hshown => exact absurd hnew (not_new hg hx₀ hh)
  | updated _ ho hx hf hsynced =>
    cases ho₀.symm.trans ho
    cases hx₀.symm.trans hx
    refine ⟨hsynced.visible, ?_⟩
    rw [hsynced.shown, hsynced.visible]
    by_cases hv : e.isVisible = o₀.visible <;> simp [hv]
  | held hl' ho hx => exact absurd hl' hl

theorem of_held (h : Visited locked g c e o x) (hg : g.OnCanvas c) (hl : locked = some e.id)
    (ho₀ : g.get? e.id = some o₀) (hx₀ : c.object? o₀.handle = some x₀)
    (hh : o.handle = o₀.handle) : o = o₀ ∧ x = x₀ := by
  cases h with
  | drawn hnew hdraw hkind hvisible hshown => exact absurd hnew (not_new hg hx₀ hh)
  | updated hl' => exact absurd hl hl'
  | held _ ho hx =>
    cases ho₀.symm.trans ho
    exact ⟨rfl, Option.some.inj (hx.symm.trans hx₀)⟩

theorem of_declared (h : Visited locked g c e o x) (hg : g.Tracks hides c)
    (hl : locked ≠ some e.id) {visible : Bool}
    (hown : e.props.get? "visible" = some (.bool visible)) : o.visible = visible ∧
      (x.visible = visible ∨ visible = true ∧ hides e.kind ∧ ∃ o₀ x₀,
        g.get? e.id = some o₀ ∧ c.object? o₀.handle = some x₀ ∧ o.handle = o₀.handle ∧
        o₀.visible = true ∧ x₀.visible = false) := by
  have hdeclared : e.isVisible = visible := by simp [Element.isVisible, Element.flag, hown,
    Json.asBool?]
  cases h with
  | drawn hnew hdraw hkind hvisible hshown =>
    refine ⟨hvisible.trans hdeclared, .inl ?_⟩
    have hmerged := mt (g.defaults.flag_merge_ne_iff e).1 fun h => by
      rw [hown] at h
      cases h.1
    rw [hshown, not_ne_iff.1 hmerged, hdeclared]
  | @updated o₀ x₀ _ ho hx hf hsynced =>
    refine ⟨hsynced.visible.trans hdeclared, ?_⟩
    have hshown := hsynced.shown
    rw [hdeclared] at hshown
    by_cases hv : visible = o₀.visible
    · rw [if_pos hv] at hshown
      rcases hg.agrees _ _ _ ho hx with hagree | ⟨hhides, htrue, hfalse⟩
      · exact .inl (by rw [hshown, hagree, hv])
      · refine .inr ⟨hv.trans htrue, ?_, o₀, x₀, ho, hx, hsynced.handle, htrue, hfalse⟩
        rwa [← hf.1]
    · rw [if_neg hv] at hshown
      exact .inl hshown
  | held hl' ho hx => exact absurd hl' hl

end Pass.Visited

namespace Drawing

theorem tracked_pass (defaults : Defaults) (viewport : Viewport Float)
    (refusing : List ElementId) {actions : List DrawingAction}
    (hactions : ∀ a ∈ actions, a.Valid) {scene : Scene} (hscene : scene.Consistent)
    (locked : Option ElementId) :
    Tracked (Hidden defaults actions) scene locked ((start defaults viewport refusing).run actions)
      (((start defaults viewport refusing).run actions).step (.pass scene locked)) := by
  have htracks := tracks_run defaults viewport refusing hactions
  have hlinked : ((start defaults viewport refusing).run actions).IsLinked := isLinked_run hactions
  generalize (start defaults viewport refusing).run actions = d at hlinked htracks
  have houtcome := Pass.run_outcome locked hlinked hscene
  exact
    { agrees := fun id o ho => by
        obtain ⟨x, hx, -⟩ := houtcome.onCanvas.drawn id o ho
        obtain ⟨e, he, rfl⟩ := houtcome.inScene id o ho
        exact ⟨x, hx, (Pass.run_visited hlinked hscene he ho hx).agrees htracks⟩
      drawn := fun e he o x ho hx hnew => (Pass.run_visited hlinked hscene he ho hx).of_drawn hnew
      updated := fun e he hl o₀ x₀ o x ho₀ hx₀ ho hx hh =>
        (Pass.run_visited hlinked hscene he ho hx).of_updated hlinked hl ho₀ hx₀ hh
      held := fun e he hl o₀ x₀ o x ho₀ hx₀ ho hx hh =>
        (Pass.run_visited hlinked hscene he ho hx).of_held hlinked hl ho₀ hx₀ hh
      declared := fun e he hl visible hown o x ho hx =>
        (Pass.run_visited hlinked hscene he ho hx).of_declared htracks hl hown }

/-! ## A sample -/

/-- The flag of the record and that of the object. -/
def flags (d : Drawing) (id : ElementId) : Option (Bool × Bool) :=
  (d.graph.get? id).bind fun o => (d.canvas.object? o.handle).map fun x => (o.visible, x.visible)

/-- Points are hidden unless they say something else. -/
def hidingSettings : Defaults :=
  Defaults.standard.set .point "visible" (.bool false)

/-- A point that does not say whether it is visible. -/
def silentPoint : Scene :=
  ⟨[.freePoint ⟨"p"⟩ 0 0], Scene.indexOf [.freePoint ⟨"p"⟩ 0 0], 1⟩

/-- The point, which says that it is visible. -/
def visiblePoint : Scene :=
  let elements := [(Element.freePoint ⟨"p"⟩ 0 0).withProp "visible" (.bool true)]
  ⟨elements, Scene.indexOf elements, 2⟩

theorem consistent_visiblePoint : visiblePoint.Consistent :=
  Scene.consistent_indexOf (by decide) 2

/-- The silent point is drawn. -/
def sampleHiding : Drawing :=
  (start hidingSettings default []).run [.pass silentPoint none]

theorem valid_sampleHiding : ∀ a ∈ [DrawingAction.pass silentPoint none], a.Valid := by
  intro a ha
  rw [List.mem_singleton.1 ha]
  exact Scene.consistent_indexOf (by decide) 1

/-- Nothing is torn down when the point is declared visible. -/
theorem removeStale_sampleHiding :
    Pass.removeStale visiblePoint none (Pass.start sampleHiding.graph sampleHiding.canvas) =
      Pass.start sampleHiding.graph sampleHiding.canvas := by
  have hlinked : sampleHiding.IsLinked := isLinked_run valid_sampleHiding
  refine Pass.removeStale_eq_self hlinked.nodup fun id o ho => ?_
  have hpoint : ∀ entry ∈ sampleHiding.graph.objects,
      entry.1 = ⟨"p"⟩ ∧ entry.2.isFreePoint = true := by decide +kernel
  obtain ⟨hid, hfree⟩ := hpoint (id, o) (Table.mem_of_get? ho)
  rw [Pass.isStale, consistent_visiblePoint.get?_eq_some_iff.2 ⟨List.mem_cons_self .., hid.symm⟩]
  have hsame : structurallyChanged
      ((Element.freePoint ⟨"p"⟩ 0 0).withProp "visible" (.bool true)) o = false :=
    Pass.structurallyChanged_of_free hfree rfl
  simpa using hsame

theorem flags_sampleHiding : sampleHiding.flags ⟨"p"⟩ = some (true, false) := by decide +kernel

/-- The object is hidden while the record says that it is shown, and stays hidden when the point is
declared visible. -/
theorem hidden_though_visible :
    silentPoint.Consistent ∧ sampleHiding.flags ⟨"p"⟩ = some (true, false) ∧
      visiblePoint.Consistent ∧
      (sampleHiding.step (.pass visiblePoint none)).flags ⟨"p"⟩ = some (true, false) := by
  refine ⟨valid_sampleHiding _ (List.mem_singleton_self _), flags_sampleHiding,
    consistent_visiblePoint, ?_⟩
  rw [step, reconcile, LiveGraph.reconcile, Pass.run, removeStale_sampleHiding]
  decide +kernel

theorem tracked_pass_sample :
    (∀ a ∈ [DrawingAction.pass silentPoint none], a.Valid) ∧ visiblePoint.Consistent ∧
      sampleHiding.flags ⟨"p"⟩ = some (true, false) ∧
      Tracked (Hidden hidingSettings [.pass silentPoint none]) visiblePoint none sampleHiding
        (sampleHiding.step (.pass visiblePoint none)) :=
  ⟨valid_sampleHiding, consistent_visiblePoint, flags_sampleHiding,
    tracked_pass hidingSettings default [] valid_sampleHiding consistent_visiblePoint none⟩

end Drawing

end Chalkboard
