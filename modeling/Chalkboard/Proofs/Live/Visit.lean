import Chalkboard.Proofs.Element.Parents
import Chalkboard.Proofs.Live.Link

/-!
# One visit

What a pass does to one element, as a relation between the pass before and after: the element is
drawn or turned down (`Pass.Draws`), or its object is brought in line (`Pass.Updated`), or it is
left alone; `Pass.Acts` is any of these. While the live graph and the canvas are linked, updating
never fails and the canvas never meets an unknown handle.
-/

namespace Chalkboard

/-- The canvas does not refuse the element, and its kind allows its parents. -/
def Element.IsDrawable (refusing : List ElementId) (e : Element) : Prop :=
  e.id ∉ refusing ∧ Placeable e.kind e.parents

namespace Pass

/-! ## Resolving parents -/

section Resolve

variable {g : LiveGraph} {ps : List Parent} {ds : List DrawnParent}

theorem resolve?_number (x : Float) :
    resolve? g (.number x :: ps) = (resolve? g ps).map (.number x :: ·) := by
  simp only [resolve?, List.mapM_cons, Option.pure_def, Option.bind_eq_bind, Option.bind_some,
    Option.map_eq_bind]
  rfl

theorem resolve?_ref (id : ElementId) :
    resolve? g (.ref id :: ps) =
      (g.handle? id).bind fun h => (resolve? g ps).map (.object h :: ·) := by
  cases hid : g.handle? id with
  | none => simp [resolve?, hid]
  | some h =>
    simp only [resolve?, hid, List.mapM_cons, Option.pure_def, Option.bind_eq_bind,
      Option.bind_some, Option.map_eq_bind]
    rfl

/-- Resolving puts the current object in place of each reference. -/
theorem binds_of_resolve? (h : resolve? g ps = some ds) : List.Forall₂ g.Binds ps ds := by
  induction ps generalizing ds with
  | nil =>
    cases h
    exact .nil
  | cons p ps ih =>
    cases p with
    | number x =>
      rw [resolve?_number, Option.map_eq_some_iff] at h
      rcases h with ⟨rest, hrest, rfl⟩
      exact .cons trivial (ih hrest)
    | ref id =>
      rw [resolve?_ref, Option.bind_eq_some_iff] at h
      rcases h with ⟨i, hi, h⟩
      rcases Option.map_eq_some_iff.1 h with ⟨rest, hrest, rfl⟩
      exact .cons hi (ih hrest)

/-- Resolving fails exactly for a reference that is not live. -/
theorem resolve?_eq_none_iff : resolve? g ps = none ↔ ∃ r ∈ Parent.refs ps, g.get? r = none := by
  induction ps with
  | nil => simp [resolve?, Parent.refs]
  | cons p ps ih =>
    cases p with
    | number x =>
      rw [resolve?_number, Option.map_eq_none_iff, ih]
      rfl
    | ref id =>
      have hrefs : Parent.refs (.ref id :: ps) = id :: Parent.refs ps := rfl
      rw [resolve?_ref, hrefs]
      cases hid : g.get? id with
      | none => simp [LiveGraph.handle?, hid]
      | some o => simp [LiveGraph.handle?, hid, ih]

/-- The canvas has a place for what is bound exactly if the declaration is allowed for its kind, and
it has coordinates for exactly the free points. -/
theorem placement_binds (kind : ElementKind) (hb : List.Forall₂ g.Binds ps ds) :
    (¬Placeable kind ps ∧ ∃ m, Canvas.placement kind ds = .error (.invalidParents .point m)) ∨
      (Placeable kind ps ∧ ∃ place, Canvas.placement kind ds = .ok place ∧
        place.isSome = (freePosition? kind ps).isSome) := by
  by_cases hk : kind = .point
  · subst hk
    -- a point: nothing, a reference first, one number, or two and more entries
    cases hb with
    | nil => exact .inl ⟨by simp [Placeable], _, rfl⟩
    | @cons p d ps ds hp hb =>
      cases p with
      | ref id =>
        cases d with
        | number y => exact hp.elim
        | object h => exact .inr ⟨fun _ => .inr ⟨id, ps, rfl⟩, none, rfl, rfl⟩
      | number x =>
        cases d with
        | object h => exact hp.elim
        | number x' =>
          cases hb with
          | nil => exact .inl ⟨by simp [Placeable], _, rfl⟩
          | @cons q e ps ds hq hb =>
            cases q with
            | ref id =>
              cases e with
              | number y => exact hq.elim
              | object h => exact .inl ⟨by simp [Placeable], _, rfl⟩
            | number y =>
              cases e with
              | object h => exact hq.elim
              | number y' =>
                cases hb with
                | nil => exact .inr ⟨fun _ => .inl ⟨x, y, rfl⟩, some ⟨x', y'⟩, rfl, rfl⟩
                | cons _ _ => exact .inl ⟨by simp [Placeable], _, rfl⟩
  · have hp : Canvas.placement kind ds = .ok none := by
      cases kind <;> first | rfl | exact absurd rfl hk
    have hf : freePosition? kind ps = none := by
      cases kind <;> first | rfl | exact absurd rfl hk
    exact .inr ⟨fun h => absurd h hk, none, hp, by rw [hf]; rfl⟩

/-- The coordinates of a new point are those that it was declared with. -/
theorem placement_resolve? {kind : ElementKind} (h : resolve? g ps = some ds)
    {place : Option (Point Float)} (hp : Canvas.placement kind ds = .ok place) :
    place = (freePosition? kind ps).map fun (x, y) => ⟨x, y⟩ := by
  cases hf : freePosition? kind ps with
  | some xy =>
    rcases xy with ⟨x, y⟩
    rcases freePosition?_eq_some_iff.1 hf with ⟨rfl, rfl⟩
    have hds : ds = [.number x, .number y] := (Option.some.inj h).symm
    rw [hds] at hp
    exact (Except.ok.inj hp).symm
  | none =>
    rcases placement_binds kind (binds_of_resolve? h) with ⟨-, m, herr⟩ | ⟨-, place', hp', hs⟩
    · rw [hp] at herr
      cases herr
    · rw [hp, Except.ok.injEq] at hp'
      rw [hf, ← hp'] at hs
      simpa using hs

end Resolve

/-! ## Drawing -/

/-- `q` is `p` with the object `d` drawn for the element `e` and recorded as `o`. -/
structure DrawnAs (p : Pass) (e : Element) (o : LiveObject) (d : Drawn) (q : Pass) : Prop where
  graph : q.graph = p.graph.add e.id o
  canvas : q.canvas = (p.canvas.draw d).1
  report : q.report = { p.report with created := p.report.created ++ [e.id] }
  warnings : q.warnings = p.warnings
  handle : o.handle = (p.canvas.draw d).2
  kind : o.kind = e.kind
  parents : o.parents = e.parents
  visible : o.visible = e.isVisible
  draggable : o.draggable = true → o.isFreePoint = true
  drawnId : d.id = e.id
  drawnKind : d.kind = e.kind
  binds : List.Forall₂ p.graph.Binds e.parents d.parents
  placement : Canvas.placement d.kind d.parents = .ok d.position
  position : d.position = e.position?.map fun (x, y) => ⟨x, y⟩
  shown : d.visible = Element.flag (p.graph.defaults.merge e.kind e.props) "visible" true

/-- An element whose parents are live is drawn if that is possible, and else turned down. -/
inductive Draws (p : Pass) (e : Element) : Pass → Prop
  | drawn {q : Pass} (o : LiveObject) (d : Drawn) (hdraw : e.IsDrawable p.canvas.refusing)
      (h : DrawnAs p e o d q) : Draws p e q
  | turnedDown (error : RenderError) (hdraw : ¬e.IsDrawable p.canvas.refusing)
      (hlive : ∀ r ∈ e.refs, ∃ o, p.graph.get? r = some o)
      (herror : ∀ h, error ≠ .unknownHandle h) : Draws p e (p.fail e.id error)

section Create

variable {p q : Pass} {e : Element}

theorem create?_eq_none_iff : p.create? e = none ↔ ∃ r ∈ e.refs, p.graph.get? r = none := by
  rw [create?, Option.map_eq_none_iff, resolve?_eq_none_iff, Element.refs]

/-- Only an element whose parents are live is drawn or turned down. -/
theorem Draws.refs_live (h : Draws p e q) : ∀ r ∈ e.refs, ∃ o, p.graph.get? r = some o := by
  cases h with
  | drawn o d hdraw h =>
    intro r hr
    rcases LiveGraph.Binds.of_ref h.binds hr with ⟨i, hi, -⟩
    rcases LiveGraph.handle?_eq_some_iff.1 hi with ⟨o, ho, -⟩
    exact ⟨o, ho⟩
  | turnedDown error hdraw hlive herror => exact hlive

theorem draws_of_create? (hg : p.graph.OnCanvas p.canvas) (h : p.create? e = some q) :
    Draws p e q := by
  rcases Option.map_eq_some_iff.1 h with ⟨ds, hds, rfl⟩
  have hb := binds_of_resolve? hds
  have hlive : ∀ r ∈ e.refs, ∃ o, p.graph.get? r = some o := by
    intro r hr
    rcases LiveGraph.Binds.of_ref hb hr with ⟨i, hi, -⟩
    rcases LiveGraph.handle?_eq_some_iff.1 hi with ⟨o, ho, -⟩
    exact ⟨o, ho⟩
  rcases p.canvas.create_cases e.id e.kind ds (p.graph.defaults.merge e.kind e.props) with
    ⟨hr, herr⟩ | ⟨i, hi, hnone, -⟩ | ⟨hr, error, hplace, herr⟩ | ⟨hr, -, place, hplace, hok⟩
  · rw [create, herr]
    exact .turnedDown _ (fun hd => hd.1 hr) hlive fun _ => RenderError.noConfusion
  · -- what is live is on the canvas
    rcases LiveGraph.Binds.of_object hb hi with ⟨r, -, hr⟩
    rcases LiveGraph.handle?_eq_some_iff.1 hr with ⟨o, ho, rfl⟩
    rcases hg.drawn r o ho with ⟨d, hd, -⟩
    rw [hnone] at hd
    cases hd
  · rcases placement_binds e.kind hb with ⟨hp, m, hm⟩ | ⟨-, place, hm, -⟩
    · rw [create, herr]
      rw [hplace, Except.error.injEq] at hm
      rw [hm]
      exact .turnedDown _ (fun hd => hp hd.2) hlive fun _ => RenderError.noConfusion
    · rw [hplace] at hm
      cases hm
  · rcases placement_binds e.kind hb with ⟨-, m, hm⟩ | ⟨hp, -⟩
    · rw [hplace] at hm
      cases hm
    · rw [create, hok]
      exact .drawn _ _ ⟨hr, hp⟩
        { graph := rfl, canvas := rfl, report := rfl, warnings := rfl, handle := rfl, kind := rfl
          parents := rfl, visible := rfl, draggable := fun h => (Bool.and_eq_true_iff.1 h).1
          drawnId := rfl, drawnKind := rfl, binds := hb
          placement := hplace, position := placement_resolve? hds hplace, shown := rfl }

end Create

/-! ## Updating -/

/-- The record can be brought in line with the element in place. -/
def Fits (e : Element) (o : LiveObject) : Prop :=
  o.kind = e.kind ∧ (o.parents = e.parents ∨ (e.parents == o.parents) = true ∨
    (o.isFreePoint = true ∧ e.position?.isSome = true))

theorem fits_of_structurallyChanged {e : Element} {o : LiveObject}
    (h : structurallyChanged e o = false) : Fits e o := by
  simp only [structurallyChanged, Bool.or_eq_false_iff, bne_eq_false_iff_eq,
    Bool.and_eq_false_iff, Bool.not_eq_false', Bool.and_eq_true] at h
  refine ⟨h.1.symm, .inr ?_⟩
  rcases h.2 with h | h
  · exact .inl (by simpa [bne] using h)
  · exact .inr h

/-- The place is the wanted one, up to the tolerance. -/
def AtPlace (q p : Point Float) : Prop :=
  q = p ∨ isNear q p = true

/-- There is nothing to change about the object: it is shown or hidden as declared, and a free point
is where it should be. -/
structure Matches (e : Element) (o : LiveObject) (d : Drawn) : Prop where
  visible : o.visible = e.isVisible
  position : ∀ x y, e.position? = some (x, y) → ∃ q, d.position = some q ∧ isNear q ⟨x, y⟩ = true

/-- The record `o'` and the object `d'` are `o` and `d` brought in line with the element. -/
structure Synced (e : Element) (o o' : LiveObject) (d d' : Drawn) : Prop where
  handle : o'.handle = o.handle
  kind : o'.kind = o.kind
  draggable : o'.draggable = o.draggable
  parents : o'.parents = if e.position?.isSome then e.parents else o.parents
  visible : o'.visible = e.isVisible
  shown : d'.visible = if e.isVisible = o.visible then d.visible else e.isVisible
  position : ∀ x y, e.position? = some (x, y) → ∃ q, d'.position = some q ∧ AtPlace q ⟨x, y⟩

/-- `q` is `p` with the record and the object of a live element brought in line with it. -/
structure Updated (p : Pass) (e : Element) (o o' : LiveObject) (d d' : Drawn) (q : Pass) :
    Prop where
  graph : q.graph = p.graph.replace e.id o'
  before : p.canvas.object? o.handle = some d
  canvas : p.canvas.Changes o.handle d' q.canvas
  /-- The element counts as updated if there was something to change. -/
  report : q.report = p.report ∨
    ¬Matches e o d ∧ q.report = { p.report with updated := p.report.updated ++ [e.id] }
  warnings : q.warnings = p.warnings
  synced : Synced e o o' d d'

section Update

variable {p : Pass} {e : Element} {o : LiveObject} {d : Drawn} {c : Canvas}

/-- Exactly the objects of free points have a place. -/
theorem isSome_position {g : LiveGraph} {id : ElementId} (hg : g.OnCanvas c)
    (ho : g.get? id = some o) (hd : c.object? o.handle = some d) :
    d.position.isSome = o.isFreePoint := by
  rcases hg.drawn id o ho with ⟨d', hd', -, hk, hb⟩
  rw [hd, Option.some.injEq] at hd'
  subst hd'
  rcases hg.wellFormed.placed _ d hd with ⟨place, hplace, hs⟩
  rcases placement_binds d.kind hb with ⟨-, m, herr⟩ | ⟨-, place', hplace', hs'⟩
  · rw [hplace] at herr
    cases herr
  · rw [hplace, Except.ok.injEq] at hplace'
    rw [← hs, hplace', hs', hk, LiveObject.isFreePoint]

theorem Fits.isFreePoint (hf : Fits e o) (he : e.position?.isSome = true) :
    o.isFreePoint = true := by
  rcases hf with ⟨hk, heq | hbeq | ⟨hfree, -⟩⟩
  · rw [LiveObject.isFreePoint, hk, heq]
    exact he
  · rw [LiveObject.isFreePoint, hk, ← isSome_freePosition?_eq_of_beq e.kind hbeq]
    exact he
  · exact hfree

/-- Placing the object of a free point succeeds, and leaves it at its place. -/
theorem place_eq_ok (hd : c.object? o.handle = some d)
    (hp : e.position?.isSome = true → d.position.isSome = true) :
    ∃ c' d' changed,
      place c e o =
        .ok ({ o with parents := if e.position?.isSome then e.parents else o.parents }, c',
          changed) ∧
      c.Changes o.handle d' c' ∧ d'.shape = d.shape ∧ d'.visible = d.visible ∧
      (changed = true → ¬Matches e o d) ∧
      ∀ x y, e.position? = some (x, y) → ∃ q, d'.position = some q ∧ AtPlace q ⟨x, y⟩ := by
  unfold place
  cases he : e.position? with
  | none => exact ⟨c, d, false, rfl, .refl hd, rfl, rfl, nofun, fun _ _ h => by cases h⟩
  | some xy =>
    rcases xy with ⟨x, y⟩
    have hsome := hp (by rw [he]; rfl)
    rcases Option.isSome_iff_exists.1 hsome with ⟨q, hq⟩
    have hpos : c.position? o.handle = some q := by rw [Canvas.position?, hd]; exact hq
    dsimp only
    by_cases hnear : isNear q ⟨x, y⟩ = true
    · refine ⟨c, d, false, ?_, .refl hd, rfl, rfl, nofun, ?_⟩
      · rw [hpos, Option.any_some, hnear]
        rfl
      · rintro _ _ ⟨⟩
        exact ⟨q, hq, .inr hnear⟩
    · rcases Canvas.movePoint_eq_ok hd hsome ⟨x, y⟩ with ⟨c', hmove, hc⟩
      refine ⟨c', _, true, ?_, hc, by simp [Drawn.shape, hsome], rfl, fun _ hmatch => ?_, ?_⟩
      · rw [hpos, Option.any_some, if_neg hnear, hmove]
        rfl
      · rcases hmatch.position x y he with ⟨q', hq', hnear'⟩
        rw [hq, Option.some.injEq] at hq'
        exact hnear (hq' ▸ hnear')
      · rintro _ _ ⟨⟩
        exact ⟨⟨x, y⟩, rfl, .inl rfl⟩

/-- Bringing the object of an element in line succeeds if it is a free point where it should be
one. -/
theorem sync_eq_ok (hd : c.object? o.handle = some d)
    (hp : e.position?.isSome = true → d.position.isSome = true) :
    ∃ o' d' c' changed, sync c e o = (o', c', .ok changed) ∧ c.Changes o.handle d' c' ∧
      Synced e o o' d d' ∧ (changed = true → ¬Matches e o d) := by
  rcases place_eq_ok hd hp with ⟨c₁, d₁, changed, hplace, hc, hs, hvis, hchanged, hpos⟩
  rw [sync, hplace]
  by_cases hv : e.isVisible = o.visible
  · refine ⟨_, d₁, c₁, changed, if_pos hv, hc, ?_, hchanged⟩
    exact
      { handle := rfl, kind := rfl, draggable := rfl, parents := rfl, visible := hv.symm
        shown := by rw [if_pos hv, hvis]
        position := hpos }
  · have hd₁ : c₁.object? o.handle = some d₁ := by rw [hc.object, if_pos rfl]
    rcases Canvas.setVisible_eq_ok hd₁ e.isVisible with ⟨c₂, hset, hc'⟩
    refine ⟨{ o with
      parents := if e.position?.isSome then e.parents else o.parents
      visible := e.isVisible }, _, c₂, true, ?_, hc.trans hc', ?_, fun _ hm => hv hm.visible.symm⟩
    · dsimp only
      rw [if_neg hv, hset]
    · exact
        { handle := rfl, kind := rfl, draggable := rfl, parents := rfl, visible := rfl
          shown := by rw [if_neg hv]
          position := hpos }

/-- Bringing an object in line that fits its element succeeds. -/
theorem sync_of_fits (hg : p.graph.OnCanvas p.canvas) (ho : p.graph.get? e.id = some o)
    (hf : Fits e o) :
    ∃ o' d d' c' changed, p.canvas.object? o.handle = some d ∧
      sync p.canvas e o = (o', c', .ok changed) ∧ p.canvas.Changes o.handle d' c' ∧
      Synced e o o' d d' ∧ (changed = true → ¬Matches e o d) := by
  obtain ⟨d, hd, -⟩ := hg.drawn e.id o ho
  have hp : e.position?.isSome = true → d.position.isSome = true := by
    intro he
    rw [isSome_position hg ho hd]
    exact hf.isFreePoint he
  obtain ⟨o', d', c', changed, hsync⟩ := sync_eq_ok hd hp
  exact ⟨o', d, d', c', changed, hd, hsync⟩

/-- Updating an object that fits its element succeeds. -/
theorem updated_of_fits (hg : p.graph.OnCanvas p.canvas) (ho : p.graph.get? e.id = some o)
    (hf : Fits e o) : ∃ o' d d', Updated p e o o' d d' (p.update e o) := by
  obtain ⟨o', d, d', c', changed, hd, hsync, hc, hs, hchanged⟩ := sync_of_fits hg ho hf
  refine ⟨o', d, d', ?_⟩
  rw [update, hsync]
  cases changed with
  | false =>
    exact
      { graph := rfl, before := hd, canvas := hc, report := .inl rfl, warnings := rfl, synced := hs }
  | true =>
    exact
      { graph := rfl, before := hd, canvas := hc, report := .inr ⟨hchanged rfl, rfl⟩, warnings := rfl
        synced := hs }

end Update

/-! ## Acting on one element -/

/-- What a visit that need not wait does to an element. -/
inductive Acts (locked : Option ElementId) (p : Pass) (e : Element) : Pass → Prop
  | draws {q : Pass} (hnew : p.graph.get? e.id = none) (h : Draws p e q) : Acts locked p e q
  | updates {o o' : LiveObject} {d d' : Drawn} (hl : locked ≠ some e.id)
      (ho : p.graph.get? e.id = some o) (hf : Fits e o)
      (h : Updated p e o o' d d' (p.update e o)) : Acts locked p e (p.update e o)
  | skips {o : LiveObject} (hl : locked = some e.id) (ho : p.graph.get? e.id = some o) :
      Acts locked p e (p.skip e.id)

/-- What a record becomes that is brought in line with its element keeps its parents bound. -/
theorem Synced.binds {g : LiveGraph} {e : Element} {o o' : LiveObject} {d d' : Drawn}
    (h : Synced e o o' d d') (hf : Fits e o) (ds : List DrawnParent)
    (hb : List.Forall₂ g.Binds o.parents ds) : List.Forall₂ g.Binds o'.parents ds := by
  rw [h.parents]
  split
  · next he =>
    -- both are free points: two numbers
    rcases Option.isSome_iff_exists.1 he with ⟨⟨x, y⟩, hxy⟩
    rcases Option.isSome_iff_exists.1 (hf.isFreePoint he) with ⟨⟨x', y'⟩, hxy'⟩
    rcases freePosition?_eq_some_iff.1 hxy with ⟨-, hps⟩
    rcases freePosition?_eq_some_iff.1 hxy' with ⟨-, hps'⟩
    rw [hps'] at hb
    rw [hps]
    cases hb with
    | cons hx hb =>
      cases hb with
      | @cons _ d₂ _ _ hy hb =>
        cases hb
        rename_i d₁
        cases d₁ <;> cases d₂ <;> first | exact .cons trivial (.cons trivial .nil) | contradiction
  · exact hb

/-- What a record becomes has the parents of the element, up to equal numbers. -/
theorem Synced.parents_eq {e : Element} {o o' : LiveObject} {d d' : Drawn}
    (h : Synced e o o' d d') (hf : Fits e o) :
    o'.parents = e.parents ∨ (e.position? = none ∧ (e.parents == o'.parents) = true) := by
  rw [h.parents]
  cases he : e.position? with
  | some xy => exact .inl rfl
  | none =>
    rcases hf.2 with hps | hps | ⟨-, hfree⟩
    · exact .inl hps
    · exact .inr ⟨rfl, hps⟩
    · rw [he] at hfree
      cases hfree

namespace Acts

variable {locked : Option ElementId} {p q : Pass} {e : Element}

theorem onCanvas (h : Acts locked p e q) (hg : p.graph.OnCanvas p.canvas) :
    q.graph.OnCanvas q.canvas := by
  cases h with
  | draws hnew h =>
    cases h with
    | drawn o d hdraw h =>
      have hb : List.Forall₂ p.graph.Binds o.parents d.parents := by
        rw [h.parents]
        exact h.binds
      rw [h.graph, h.canvas]
      exact hg.draw hnew h.handle h.drawnId (h.drawnKind.trans h.kind.symm) hb h.placement
    | turnedDown error hdraw hlive herror => exact hg
  | updates hl ho hf h =>
    rw [h.graph]
    exact (hg.replace ho h.synced.handle h.synced.kind (h.synced.binds hf)).alike h.canvas.alike
  | skips hl ho => exact hg

/-! Other elements keep their records and objects, and all keep their handles. -/

theorem get?_of_ne (h : Acts locked p e q) {id : ElementId} (hne : id ≠ e.id) :
    q.graph.get? id = p.graph.get? id := by
  cases h with
  | draws hnew h =>
    cases h with
    | drawn o d hdraw h => rw [h.graph, LiveGraph.get?_add_of_new hnew, if_neg hne]
    | turnedDown error hdraw hlive herror => rfl
  | updates hl ho hf h => rw [h.graph, LiveGraph.get?_replace ho, if_neg hne]
  | skips hl ho => rfl

theorem object?_of_ne (h : Acts locked p e q) (hg : p.graph.OnCanvas p.canvas) {id : ElementId}
    {o : LiveObject} (ho : p.graph.get? id = some o) (hne : id ≠ e.id) :
    q.canvas.object? o.handle = p.canvas.object? o.handle := by
  cases h with
  | draws hnew h =>
    cases h with
    | drawn o' d hdraw h =>
      rw [h.canvas, Canvas.object?_draw hg.wellFormed, if_neg]
      intro heq
      rcases hg.drawn id o ho with ⟨d', hd', -⟩
      have hle := hg.wellFormed.issued _ d' hd'
      rw [heq] at hle
      exact Nat.not_succ_le_self _ hle
    | turnedDown error hdraw hlive herror => rfl
  | updates hl ho' hf h =>
    rw [h.canvas.object, if_neg]
    exact fun heq => hne (hg.handle_injective ho ho' heq)
  | skips hl ho => rfl

theorem live (h : Acts locked p e q) {id : ElementId} {o : LiveObject}
    (ho : p.graph.get? id = some o) : ∃ o', q.graph.get? id = some o' ∧ o'.handle = o.handle := by
  by_cases hne : id = e.id
  · subst hne
    cases h with
    | draws hnew h =>
      rw [hnew] at ho
      cases ho
    | @updates o₁ o' d d' hl ho₁ hf h =>
      rw [ho, Option.some.injEq] at ho₁
      subst ho₁
      exact ⟨o', by rw [h.graph, LiveGraph.get?_replace ho, if_pos rfl], h.synced.handle⟩
    | skips hl ho' => exact ⟨o, ho, rfl⟩
  · exact ⟨o, by rw [h.get?_of_ne hne, ho], rfl⟩

/-- The settings of graph and canvas stay. -/
theorem settings (h : Acts locked p e q) :
    q.graph.defaults = p.graph.defaults ∧ q.canvas.refusing = p.canvas.refusing := by
  cases h with
  | draws hnew h =>
    cases h with
    | drawn o d hdraw h =>
      rw [h.graph, h.canvas]
      exact ⟨rfl, by simp [Canvas.draw]⟩
    | turnedDown error hdraw hlive herror => exact ⟨rfl, rfl⟩
  | updates hl ho hf h =>
    rw [h.graph]
    exact ⟨rfl, h.canvas.refusing⟩
  | skips hl ho => exact ⟨rfl, rfl⟩

/-- The canvas does not meet an unknown handle. -/
theorem known (h : Acts locked p e q)
    (hp : ∀ w ∈ p.warnings, ∀ i, w.2 ≠ .unknownHandle i) :
    ∀ w ∈ q.warnings, ∀ i, w.2 ≠ .unknownHandle i := by
  cases h with
  | draws hnew h =>
    cases h with
    | drawn o d hdraw h =>
      rw [h.warnings]
      exact hp
    | turnedDown error hdraw hlive herror =>
      intro w hw
      rcases List.mem_append.1 hw with hw | hw
      · exact hp w hw
      · rw [List.mem_singleton.1 hw]
        exact herror
  | updates hl ho hf h =>
    rw [h.warnings]
    exact hp
  | skips hl ho => exact hp

/-- Either no failure is added, or the element is turned down with its parents live. -/
theorem failed (h : Acts locked p e q) :
    q.report.failed = p.report.failed ∨
      (p.graph.get? e.id = none ∧ q.graph = p.graph ∧ ¬e.IsDrawable p.canvas.refusing ∧
        (∀ r ∈ e.refs, ∃ o, p.graph.get? r = some o) ∧
        ∃ error, q.report.failed = p.report.failed ++ [(e.id, error)]) := by
  cases h with
  | draws hnew h =>
    cases h with
    | drawn o d hdraw h => exact .inl (by rw [h.report])
    | turnedDown error hdraw hlive herror => exact .inr ⟨hnew, rfl, hdraw, hlive, error, rfl⟩
  | updates hl ho hf h =>
    rcases h.report with hr | ⟨-, hr⟩
    · exact .inl (by rw [hr])
    · exact .inl (by rw [hr])
  | skips hl ho => exact .inl rfl

end Acts

end Pass

end Chalkboard
