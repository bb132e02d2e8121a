import Mathlib.Data.List.Forall2
import Chalkboard.Proofs.Canvas.Objects
import Chalkboard.Live.Reconcile

/-!
# The live graph on its canvas

`LiveGraph.OnCanvas` says that the live graph and the canvas tell the same story: every record
names an object with its id and kind, the parents of the record are live, and the object was drawn
on the objects that they have now; no other object is on the canvas. The changes that a pass is
made of keep this, each under the condition that is stated with it.
-/

namespace Chalkboard

namespace LiveGraph

/-- What the canvas has in place of a declared parent: the object that the reference has now. -/
def Binds (g : LiveGraph) : Parent → DrawnParent → Prop
  | .number _, .number _ => True
  | .ref id, .object h => g.handle? id = some h
  | _, _ => False

theorem get?_add_of_new {g : LiveGraph} {id : ElementId} (hnew : g.get? id = none)
    (o : LiveObject) (id' : ElementId) :
    (g.add id o).get? id' = if id' = id then some o else g.get? id' := by
  rw [get?_add]
  by_cases h : id' = id
  · rw [h, hnew]
    simp
  · simp [h, Ne.symm h]

theorem keys_add_nodup {g : LiveGraph} {id : ElementId} (hnodup : g.objects.keys.Nodup)
    (hnew : g.get? id = none) (o : LiveObject) : (g.add id o).objects.keys.Nodup := by
  have hkeys : (g.add id o).objects.keys = g.objects.keys ++ [id] := by
    simp [add, Table.keys]
  rw [hkeys]
  refine List.Nodup.append hnodup (List.nodup_singleton _) ?_
  intro k hk hk'
  rw [List.mem_singleton.1 hk'] at hk
  exact Table.get?_eq_none_iff.1 hnew hk

/-- The live graph and the canvas tell the same story. -/
structure OnCanvas (g : LiveGraph) (c : Canvas) : Prop where
  wellFormed : c.WellFormed
  nodup : g.objects.keys.Nodup
  drawn : ∀ id o, g.get? id = some o → ∃ d, c.object? o.handle = some d ∧ d.id = id ∧
    d.kind = o.kind ∧ List.Forall₂ g.Binds o.parents d.parents
  live : ∀ h d, c.object? h = some d → ∃ o, g.get? d.id = some o ∧ o.handle = h

/-! ## Parents -/

section Binds

variable {g g' : LiveGraph} {parents : List Parent} {drawn : List DrawnParent}

/-- References that are live stay bound while their handles stay. -/
theorem Binds.congr (h : ∀ id ∈ Parent.refs parents, g'.handle? id = g.handle? id)
    (hb : List.Forall₂ g.Binds parents drawn) : List.Forall₂ g'.Binds parents drawn := by
  induction hb with
  | nil => exact .nil
  | @cons p d ps ds hpd _ ih =>
    refine .cons ?_ (ih fun id hid => h id ?_)
    · cases p with
      | number x => cases d <;> exact hpd
      | ref id =>
        cases d with
        | number y => exact hpd
        | object i => exact (h id (Parent.mem_refs.2 (List.mem_cons_self ..))).trans hpd
    · exact Parent.mem_refs.2 (List.mem_cons_of_mem _ (Parent.mem_refs.1 hid))

theorem Binds.of_ref (hb : List.Forall₂ g.Binds parents drawn) {id : ElementId}
    (hid : id ∈ Parent.refs parents) : ∃ h, g.handle? id = some h ∧ .object h ∈ drawn := by
  rw [Parent.mem_refs] at hid
  induction hb with
  | nil => cases hid
  | @cons p d ps ds hpd _ ih =>
    rcases List.mem_cons.1 hid with rfl | hid
    · cases d with
      | number y => exact hpd.elim
      | object h => exact ⟨h, hpd, List.mem_cons_self ..⟩
    · rcases ih hid with ⟨h, hh, hd⟩
      exact ⟨h, hh, List.mem_cons_of_mem _ hd⟩

theorem Binds.of_object (hb : List.Forall₂ g.Binds parents drawn) {h : Handle}
    (hh : .object h ∈ drawn) : ∃ id ∈ Parent.refs parents, g.handle? id = some h := by
  induction hb with
  | nil => cases hh
  | @cons p d ps ds hpd _ ih =>
    rcases List.mem_cons.1 hh with rfl | hh
    · cases p with
      | number y => exact hpd.elim
      | ref id => exact ⟨id, Parent.mem_refs.2 (List.mem_cons_self ..), hpd⟩
    · rcases ih hh with ⟨id, hid, hb⟩
      exact ⟨id, Parent.mem_refs.2 (List.mem_cons_of_mem _ (Parent.mem_refs.1 hid)), hb⟩

/-- A parent was live before, so a new element binds nothing anew. -/
theorem Binds.add {id : ElementId} {o : LiveObject} (hnew : g.get? id = none)
    (hb : List.Forall₂ g.Binds parents drawn) :
    List.Forall₂ (g.add id o).Binds parents drawn := by
  refine Binds.congr (fun r hr => ?_) hb
  rcases Binds.of_ref hb hr with ⟨h, hh, -⟩
  rcases handle?_eq_some_iff.1 hh with ⟨q, hq, -⟩
  have hne : r ≠ id := by
    rintro rfl
    rw [hnew] at hq
    cases hq
  rw [handle?, handle?, get?_add_of_new hnew, if_neg hne]

/-- A reference is bound at its own place in the list. -/
theorem Binds.getElem? (hb : List.Forall₂ g.Binds parents drawn) {i : Nat} {r : ElementId}
    (hi : parents[i]? = some (Parent.ref r)) :
    ∃ o, g.get? r = some o ∧ drawn[i]? = some (DrawnParent.object o.handle) := by
  induction hb generalizing i with
  | nil => cases hi
  | @cons p d ps ds hpd _ ih =>
    cases i with
    | succ i => exact ih hi
    | zero =>
      cases hi
      cases d with
      | number y => exact hpd.elim
      | object h =>
        rcases handle?_eq_some_iff.1 hpd with ⟨o, ho, rfl⟩
        exact ⟨o, ho, rfl⟩

end Binds

/-! ## What the link gives -/

namespace OnCanvas

variable {g : LiveGraph} {c : Canvas}

/-- Two elements never share an object. -/
theorem handle_injective (hg : g.OnCanvas c) {id id' : ElementId} {o o' : LiveObject}
    (ho : g.get? id = some o) (ho' : g.get? id' = some o') (hh : o.handle = o'.handle) :
    id = id' := by
  rcases hg.drawn id o ho with ⟨d, hd, hid, -⟩
  rcases hg.drawn id' o' ho' with ⟨d', hd', hid', -⟩
  rw [hh, hd'] at hd
  cases hd
  exact hid.symm.trans hid'

/-- What a live object refers to is live and older. -/
theorem ref_live (hg : g.OnCanvas c) {id r : ElementId} {o : LiveObject}
    (ho : g.get? id = some o) (hr : r ∈ o.refs) :
    ∃ p, g.get? r = some p ∧ p.handle.number < o.handle.number := by
  rcases hg.drawn id o ho with ⟨d, hd, -, -, hb⟩
  rcases Binds.of_ref hb hr with ⟨h, hh, hmem⟩
  rcases handle?_eq_some_iff.1 hh with ⟨p, hp, rfl⟩
  exact ⟨p, hp, hg.wellFormed.older _ d hd _ hmem⟩

/-! ## Changes that keep the link -/

theorem alike {c' : Canvas} (hg : g.OnCanvas c) (hc : c.Alike c') : g.OnCanvas c' where
  wellFormed := hc.wellFormed hg.wellFormed
  nodup := hg.nodup
  drawn id o ho := by
    rcases hg.drawn id o ho with ⟨d, hd, hid, hk, hb⟩
    rcases hc.object' hd with ⟨d', hd', hs⟩
    simp only [Drawn.shape, Prod.mk.injEq] at hs
    refine ⟨d', hd', hs.1.trans hid, hs.2.1.trans hk, ?_⟩
    rw [hs.2.2.1]
    exact hb
  live h d' hd' := by
    rcases hc.object hd' with ⟨d, hd, hs⟩
    simp only [Drawn.shape, Prod.mk.injEq] at hs
    rw [← hs.1]
    exact hg.live h d hd

/-- An element whose parents are live is drawn on their objects. -/
theorem draw (hg : g.OnCanvas c) {id : ElementId} {o : LiveObject} {d : Drawn}
    (hnew : g.get? id = none) (hh : o.handle = (c.draw d).2) (hid : d.id = id)
    (hk : d.kind = o.kind) (hb : List.Forall₂ g.Binds o.parents d.parents)
    (hplace : Canvas.placement d.kind d.parents = .ok d.position) :
    (g.add id o).OnCanvas (c.draw d).1 := by
  have hlive : ∀ p, .object p ∈ d.parents → (c.object? p).isSome = true := by
    intro p hp
    rcases Binds.of_object hb hp with ⟨r, -, hr⟩
    rcases handle?_eq_some_iff.1 hr with ⟨q, hq, rfl⟩
    rcases hg.drawn r q hq with ⟨e, he, -⟩
    rw [he]
    rfl
  -- the new object is drawn under a handle that no object had
  have hget := get?_add_of_new hnew o
  exact
    { wellFormed := hg.wellFormed.draw hlive hplace
      nodup := keys_add_nodup hg.nodup hnew o
      drawn := by
        intro id' o' ho'
        rw [hget] at ho'
        split at ho'
        · next h =>
          cases ho'
          refine ⟨d, ?_, hid.trans h.symm, hk, Binds.add hnew hb⟩
          rw [Canvas.object?_draw hg.wellFormed, hh, if_pos rfl]
        · rcases hg.drawn id' o' ho' with ⟨d', hd', hid', hk', hb'⟩
          refine ⟨d', ?_, hid', hk', Binds.add hnew hb'⟩
          rw [Canvas.object?_draw hg.wellFormed, if_neg, hd']
          intro he
          have := hg.wellFormed.issued _ d' hd'
          rw [he] at this
          exact absurd this (Nat.not_succ_le_self _)
      live := by
        intro h d' hd'
        rw [Canvas.object?_draw hg.wellFormed] at hd'
        split at hd'
        · next h' =>
          cases hd'
          exact ⟨o, by rw [hget, if_pos hid], hh.trans h'.symm⟩
        · rcases hg.live h d' hd' with ⟨o', ho', hh'⟩
          refine ⟨o', ?_, hh'⟩
          rw [hget, if_neg, ho']
          intro he
          rw [he, hnew] at ho'
          cases ho' }

/-- The record of an object may take other parents that are bound as the old ones were. -/
theorem replace (hg : g.OnCanvas c) {id : ElementId} {o o' : LiveObject}
    (ho : g.get? id = some o) (hh : o'.handle = o.handle) (hk : o'.kind = o.kind)
    (hb : ∀ d, List.Forall₂ g.Binds o.parents d → List.Forall₂ g.Binds o'.parents d) :
    (g.replace id o').OnCanvas c := by
  have hget := get?_replace ho o'
  have hhandle : ∀ r, (g.replace id o').handle? r = g.handle? r := by
    intro r
    rw [handle?, handle?, hget]
    split
    · next h => rw [h, ho, Option.map_some, Option.map_some, hh]
    · rfl
  have hkeep : ∀ ps ds, List.Forall₂ g.Binds ps ds → List.Forall₂ (g.replace id o').Binds ps ds :=
    fun ps ds hps => Binds.congr (fun r _ => hhandle r) hps
  exact
    { wellFormed := hg.wellFormed
      nodup := by
        rw [LiveGraph.replace, Table.keys_replace]
        exact hg.nodup
      drawn := by
        intro id' p hp
        rw [hget] at hp
        split at hp
        · next h =>
          cases hp
          rcases hg.drawn id o ho with ⟨d, hd, hid, hk', hps⟩
          exact ⟨d, hh ▸ hd, hid.trans h.symm, hk'.trans hk.symm, hkeep _ _ (hb _ hps)⟩
        · rcases hg.drawn id' p hp with ⟨d, hd, hid, hk', hps⟩
          exact ⟨d, hd, hid, hk', hkeep _ _ hps⟩
      live := by
        intro h d hd
        rcases hg.live h d hd with ⟨p, hp, hph⟩
        by_cases he : d.id = id
        · rw [he, ho] at hp
          cases hp
          exact ⟨o', by rw [hget, if_pos he], hh.trans hph⟩
        · exact ⟨p, by rw [hget, if_neg he, hp], hph⟩ }

/-- Objects may go if all that refers to them goes with them. -/
theorem restrict {c' : Canvas} (hg : g.OnCanvas c) (keep : ElementId → Bool)
    (hclosed : ∀ id o, g.get? id = some o → keep id = true → ∀ r ∈ o.refs, keep r = true)
    (hw : c'.WellFormed)
    (hobj : ∀ id o, g.get? id = some o →
      c'.object? o.handle = if keep id then c.object? o.handle else none)
    (honly : ∀ h d, c'.object? h = some d → c.object? h = some d) :
    ({ g with objects := g.objects.restrict keep } : LiveGraph).OnCanvas c' := by
  have hget : ∀ id, ({ g with objects := g.objects.restrict keep } : LiveGraph).get? id =
      if keep id then g.get? id else none :=
    fun id => Table.get?_restrict g.objects keep id
  exact
    { wellFormed := hw
      nodup := Table.keys_restrict_nodup hg.nodup keep
      drawn := by
        intro id o ho
        rw [hget] at ho
        split at ho
        · next hkeep =>
          rcases hg.drawn id o ho with ⟨d, hd, hid, hk, hb⟩
          refine ⟨d, by rw [hobj id o ho, if_pos hkeep, hd], hid, hk, Binds.congr ?_ hb⟩
          intro r hr
          rw [handle?, handle?, hget, if_pos (hclosed id o ho hkeep r hr)]
        · cases ho
      live := by
        intro h d hd
        rcases hg.live h d (honly h d hd) with ⟨o, ho, rfl⟩
        refine ⟨o, ?_, rfl⟩
        rw [hget]
        split
        · exact ho
        · next hkeep =>
          rw [hobj d.id o ho, if_neg hkeep] at hd
          cases hd }

end OnCanvas

theorem onCanvas_empty (defaults : Defaults) (v : Viewport Float) :
    (empty defaults).OnCanvas (.empty v) where
  wellFormed := Canvas.wellFormed_empty v
  nodup := List.nodup_nil
  drawn _ _ ho := by cases ho
  live _ _ hd := by cases hd

end LiveGraph

end Chalkboard
