import Mathlib.Data.List.Induction
import Mathlib.Data.List.Pairwise
import Mathlib.Tactic.ByContra
import Chalkboard.Gesture.Step
import Chalkboard.Proofs.Number.Order

/-!
# Which point a press takes hold of

The drawn points come in no particular order. Pressing looks for the nearest one that can be touched
by going through them once; `nearest?_eq_some_iff` says that this finds the closest of all, provided
no two of them are equally far away, so that the order does not matter. What a press then does depends
on that point alone, and on the gesture in progress only where there is no such point
(`Gesture.press_nearest`).
-/

namespace Chalkboard

namespace Gesture

variable {pointer : Point Float} {reach : Float} {targets : List (Target Float)}

/-! ## The closest target -/

/-- The target is visible, has a place, and that is `d` away from the pointer, which is within
reach. -/
def Touches (pointer : Point Float) (reach : Float) (t : Target Float) (d : Float) : Prop :=
  t.visible = true ∧ ∃ p ∈ t.position, d = pointer.distance p ∧ d ≤ reach

/-- Of all targets that can be touched, `n` is one that is closest to the pointer. -/
structure Closest (pointer : Point Float) (reach : Float) (targets : List (Target Float))
    (n : Target Float) : Prop where
  mem : n ∈ targets
  least : ∃ d, Touches pointer reach n d ∧
    ∀ t ∈ targets, ∀ e, Touches pointer reach t e → d ≤ e

/-- The targets are not both visible, or not equally far from the pointer. -/
def Differ (pointer : Point Float) (t u : Target Float) : Prop :=
  t.visible = true → u.visible = true →
    ∀ p ∈ t.position, ∀ q ∈ u.position, (pointer.distance p == pointer.distance q) = false

instance (pointer : Point Float) (t u : Target Float) : Decidable (Differ pointer t u) :=
  inferInstanceAs (Decidable (t.visible = true → u.visible = true →
    ∀ p ∈ t.position, ∀ q ∈ u.position, (pointer.distance p == pointer.distance q) = false))

instance (pointer : Point Float) : Std.Symm (Differ pointer) where
  symm t u h hu ht q hq p hp := by
    rw [Bool.eq_false_iff]
    intro hequal
    have hdiffer := h ht hu p hp q hq
    rw [Number.beq_symm hequal] at hdiffer
    cases hdiffer

theorem touch?_eq_some_iff {t : Target Float} {d : Float} :
    touch? pointer reach t = some d ↔ Touches pointer reach t d := by
  have hle (x : Float) : Scalar.le x reach = decide (x ≤ reach) := rfl
  unfold touch? Touches
  cases t.visible with
  | false => simp
  | true =>
    cases t.position with
    | none => simp
    | some p =>
      by_cases hreach : pointer.distance p ≤ reach
      · simp only [hle, hreach, decide_true, if_true, Option.bind_some, Option.some.injEq,
          true_and, Option.mem_some_iff, exists_eq_left']
        constructor
        · rintro rfl
          exact ⟨rfl, hreach⟩
        · intro h
          exact h.1.symm
      · simp only [hle, hreach, decide_false, Bool.false_eq_true, if_true, if_false,
          Option.bind_some, true_and, Option.mem_some_iff, exists_eq_left', reduceCtorEq, false_iff]
        rintro ⟨rfl, hd⟩
        exact hreach hd

theorem Touches.unique {t : Target Float} {d e : Float} (hd : Touches pointer reach t d)
    (he : Touches pointer reach t e) : d = e := by
  rw [← touch?_eq_some_iff] at hd he
  exact Option.some.inj (hd.symm.trans he)

/-! ## One look at each target -/

/-- What is known of the best target so far: none of those seen is closer. -/
def Best (pointer : Point Float) (reach : Float) (seen : List (Target Float)) :
    Option (Float × Target Float) → Prop
  | none => ∀ t ∈ seen, ∀ e, ¬ Touches pointer reach t e
  | some (d, n) => n ∈ seen ∧ Touches pointer reach n d ∧
    ∀ t ∈ seen, ∀ e, Touches pointer reach t e → ¬ e < d

/-- Looking at one more target. -/
theorem best_nearer {seen : List (Target Float)} {best : Option (Float × Target Float)}
    (h : Best pointer reach seen best) (t : Target Float) :
    Best pointer reach (seen ++ [t]) (nearer pointer reach best t) := by
  unfold nearer
  rcases htouch : touch? pointer reach t with _ | d
  · -- a target that cannot be touched changes nothing
    have hfar : ∀ e, ¬ Touches pointer reach t e := by
      intro e he
      rw [← touch?_eq_some_iff, htouch] at he
      cases he
    rcases best with _ | ⟨d, n⟩
    · exact List.forall_mem_append.2 ⟨h, List.forall_mem_singleton.2 hfar⟩
    · obtain ⟨hmem, hn, hleast⟩ := h
      refine ⟨List.mem_append_left _ hmem, hn, List.forall_mem_append.2 ⟨hleast, ?_⟩⟩
      refine List.forall_mem_singleton.2 ?_
      intro e he
      exact absurd he (hfar e)
  · have ht := touch?_eq_some_iff.1 htouch
    have hself : ∀ e, Touches pointer reach t e → ¬ e < d := by
      intro e he
      rw [ht.unique he]
      exact Number.lt_irrefl e
    rcases best with _ | ⟨d', n⟩
    · refine ⟨List.mem_append_right _ (List.mem_singleton_self t), ht, ?_⟩
      refine List.forall_mem_append.2 ⟨?_, List.forall_mem_singleton.2 hself⟩
      intro u hu e he
      exact absurd he (h u hu e)
    · obtain ⟨hmem, hn, hleast⟩ := h
      by_cases hlt : d < d'
      · have hcloser : Scalar.lt d d' = true := decide_eq_true hlt
        simp only [hcloser, if_true]
        refine ⟨List.mem_append_right _ (List.mem_singleton_self t), ht, ?_⟩
        refine List.forall_mem_append.2 ⟨?_, List.forall_mem_singleton.2 hself⟩
        intro u hu e he hed
        exact hleast u hu e he (Number.lt_trans hed hlt)
      · have hcloser : Scalar.lt d d' = false := decide_eq_false hlt
        simp only [hcloser, Bool.false_eq_true, if_false]
        refine ⟨List.mem_append_left _ hmem, hn, List.forall_mem_append.2 ⟨hleast, ?_⟩⟩
        refine List.forall_mem_singleton.2 ?_
        intro e he
        rw [← ht.unique he]
        exact hlt

theorem best_foldl (targets : List (Target Float)) :
    Best pointer reach targets (targets.foldl (nearer pointer reach) none) := by
  induction targets using List.reverseRecOn with
  | nil => exact fun t ht => absurd ht List.not_mem_nil
  | append_singleton seen t ih =>
    rw [List.foldl_append]
    exact best_nearer ih t

theorem closest_of_nearest? {n : Target Float} (h : nearest? pointer reach targets = some n) :
    Closest pointer reach targets n := by
  obtain ⟨⟨d, n'⟩, hfold, hn⟩ := Option.map_eq_some_iff.1 h
  have hbest : Best pointer reach targets _ := best_foldl targets
  rw [hfold] at hbest
  obtain ⟨hmem, htouch, hleast⟩ := hbest
  cases hn
  refine ⟨hmem, d, htouch, ?_⟩
  intro t ht e he
  -- both are distances within reach, so they are numbers
  obtain ⟨-, p, -, -, hd⟩ := htouch
  obtain ⟨-, q, -, -, hwithin⟩ := id he
  by_contra hnot
  rcases Number.not_le_iff.1 hnot with hlt | hnan | hnan
  · exact hleast t ht e he hlt
  · rw [Number.isNaN_eq_false_of_le hd] at hnan
    cases hnan
  · rw [Number.isNaN_eq_false_of_le hwithin] at hnan
    cases hnan

theorem not_touches_of_nearest? (h : nearest? pointer reach targets = none) :
    ∀ t ∈ targets, ∀ e, ¬ Touches pointer reach t e := by
  have hbest : Best pointer reach targets _ := best_foldl targets
  rw [Option.map_eq_none_iff.1 h] at hbest
  exact hbest

/-- Where no two targets are equally far away, only one of them is closest. -/
theorem Closest.unique (hapart : targets.Pairwise (Differ pointer)) {n n' : Target Float}
    (h : Closest pointer reach targets n) (h' : Closest pointer reach targets n') : n = n' := by
  obtain ⟨hmem, d, htouch, hleast⟩ := h
  obtain ⟨hmem', d', htouch', hleast'⟩ := h'
  have hequal : (d == d') = true :=
    Number.beq_of_le_of_le (hleast n' hmem' d' htouch') (hleast' n hmem d htouch)
  by_contra hne
  obtain ⟨hvisible, p, hp, rfl, -⟩ := htouch
  obtain ⟨hvisible', p', hp', rfl, -⟩ := htouch'
  have hdiffer := hapart.forall hmem hmem' hne hvisible hvisible' p hp p' hp'
  rw [hequal] at hdiffer
  cases hdiffer

theorem nearest?_eq_some_iff (hapart : targets.Pairwise (Differ pointer)) {n : Target Float} :
    nearest? pointer reach targets = some n ↔ Closest pointer reach targets n := by
  constructor
  · exact closest_of_nearest?
  · intro h
    rcases hnearest : nearest? pointer reach targets with _ | n'
    · obtain ⟨hmem, d, htouch, -⟩ := h
      exact absurd htouch (not_touches_of_nearest? hnearest n hmem d)
    · rw [(closest_of_nearest? hnearest).unique hapart h]

theorem nearest?_eq_none_iff :
    nearest? pointer reach targets = none ↔ ∀ n, ¬ Closest pointer reach targets n := by
  constructor
  · rintro hnone n ⟨hmem, d, htouch, -⟩
    exact not_touches_of_nearest? hnone n hmem d htouch
  · intro hclosest
    rcases hnearest : nearest? pointer reach targets with _ | n
    · rfl
    · exact absurd (closest_of_nearest? hnearest) (hclosest n)

theorem Closest.perm {targets' : List (Target Float)} (hperm : targets'.Perm targets)
    {n : Target Float} (h : Closest pointer reach targets n) :
    Closest pointer reach targets' n := by
  obtain ⟨hmem, d, htouch, hleast⟩ := h
  exact ⟨hperm.mem_iff.2 hmem, d, htouch, fun t ht => hleast t (hperm.mem_iff.1 ht)⟩

/-- The order of the targets does not matter. -/
theorem nearest?_perm {targets' : List (Target Float)} (hperm : targets'.Perm targets)
    (hapart : targets.Pairwise (Differ pointer)) :
    nearest? pointer reach targets' = nearest? pointer reach targets := by
  have hapart' : targets'.Pairwise (Differ pointer) :=
    (hperm.pairwise_iff fun h => Std.Symm.symm _ _ h).2 hapart
  apply Option.ext
  intro n
  rw [nearest?_eq_some_iff hapart', nearest?_eq_some_iff hapart]
  exact ⟨Closest.perm hperm.symm, Closest.perm hperm⟩

/-! ## Pressing -/

theorem targets_perm {graph graph' : LiveGraph} (hperm : graph'.objects.Perm graph.objects)
    (canvas : Canvas) : (graph'.targets canvas).Perm (graph.targets canvas) :=
  (hperm.filter _).map _

/-- A press moves nothing and asks for nothing. -/
theorem handle_press (g : Gesture Float) (graph : LiveGraph) (canvas : Canvas) :
    g.handle graph canvas (.pressed .left) =
      .ok (g.press canvas.viewport (graph.targets canvas), canvas, none) :=
  rfl

/-- A press depends on the nearest target only. -/
theorem press_eq {g : Gesture Float} {view : Viewport Float}
    (hpointer : view.toUser? g.pixel = some pointer) (targets : List (Target Float)) :
    g.press view targets =
      match nearest? pointer (view.reach g.settings.reachDivisor) targets with
      | some t => if t.draggable then { g with grip := .dragging t.id t.handle } else g
      | none => if g.grip = .idle then { g with grip := .panning g.pixel } else g := by
  unfold press
  rw [hpointer]
  dsimp only
  rcases nearest? pointer (view.reach g.settings.reachDivisor) targets with _ | t
  · cases g.grip with
    | idle | panning | dragging => rfl
  · rfl

/-- Where the pointer has user coordinates and no two visible points are equally far from it, the
order in which the points are listed makes no difference to a press. If the closest point within
reach can be dragged, it is taken hold of, whatever went on before; if it cannot, nothing happens,
though another one within reach could be. If no point is within reach, a pan begins, unless a gesture
is going on. -/
theorem press_nearest {g : Gesture Float} {graph graph' : LiveGraph} {canvas : Canvas}
    (hpointer : canvas.viewport.toUser? g.pixel = some pointer)
    (hapart : (graph.targets canvas).Pairwise (Differ pointer))
    (hperm : graph'.objects.Perm graph.objects) :
    let closest := Closest pointer (canvas.viewport.reach g.settings.reachDivisor)
      (graph.targets canvas)
    g.handle graph' canvas (.pressed .left) = g.handle graph canvas (.pressed .left) ∧
      (∀ n, closest n → n.draggable = true → g.handle graph canvas (.pressed .left) =
        .ok ({ g with grip := .dragging n.id n.handle }, canvas, none)) ∧
      (∀ n, closest n → n.draggable = false →
        g.handle graph canvas (.pressed .left) = .ok (g, canvas, none)) ∧
      ((∀ n, ¬ closest n) → g.grip = .idle → g.handle graph canvas (.pressed .left) =
        .ok ({ g with grip := .panning g.pixel }, canvas, none)) ∧
      ((∀ n, ¬ closest n) → g.grip ≠ .idle →
        g.handle graph canvas (.pressed .left) = .ok (g, canvas, none)) := by
  intro closest
  have hpress := press_eq hpointer
  refine ⟨?_, ?_, ?_, ?_, ?_⟩
  · rw [handle_press, handle_press, hpress, hpress, nearest?_perm (targets_perm hperm canvas) hapart]
  · intro n hn hdrag
    rw [handle_press, hpress, (nearest?_eq_some_iff hapart).2 hn]
    simp only [hdrag, if_true]
  · intro n hn hdrag
    rw [handle_press, hpress, (nearest?_eq_some_iff hapart).2 hn]
    simp only [hdrag, Bool.false_eq_true, if_false]
  · intro hnone hidle
    rw [handle_press, hpress, nearest?_eq_none_iff.2 hnone]
    simp only [hidle, if_true]
  · intro hnone hbusy
    rw [handle_press, hpress, nearest?_eq_none_iff.2 hnone]
    simp only [hbusy, if_false]

/-- A point that cannot be dragged lies under the pointer, and one that can be dragged a little
further off. The press does nothing, in whichever order the two are listed. -/
theorem press_nearest_fixed :
    let g : Gesture Float := { Gesture.start .standard with pixel := ⟨400, 300⟩ }
    let free : ElementId × LiveObject := (⟨"A"⟩, ⟨⟨1⟩, .point, [], true, true⟩)
    let fixed : ElementId × LiveObject := (⟨"B"⟩, ⟨⟨2⟩, .point, [], false, true⟩)
    let canvas : Canvas := { Canvas.empty .standard with
      objects := [(⟨1⟩, ⟨⟨"A"⟩, .point, [], [], true, some ⟨0.25, 0⟩⟩),
        (⟨2⟩, ⟨⟨"B"⟩, .point, [], [], true, some ⟨0, 0⟩⟩)] }
    let graph : LiveGraph := ⟨[free, fixed], .none⟩
    let graph' : LiveGraph := ⟨[fixed, free], .none⟩
    canvas.viewport.toUser? g.pixel = some ⟨0, 0⟩ ∧
      (graph.targets canvas).Pairwise (Differ ⟨0, 0⟩) ∧ graph'.objects.Perm graph.objects ∧
      g.handle graph' canvas (.pressed .left) = .ok (g, canvas, none) := by
  intro g free fixed canvas graph graph'
  have hpointer : canvas.viewport.toUser? g.pixel = some ⟨0, 0⟩ := by decide +kernel
  have hapart : (graph.targets canvas).Pairwise (Differ ⟨0, 0⟩) := by decide +kernel
  have hperm : graph'.objects.Perm graph.objects := .swap free fixed []
  obtain ⟨hsame, -, hfixed, -⟩ := press_nearest hpointer hapart hperm
  let reach := canvas.viewport.reach g.settings.reachDivisor
  have hclosest : Closest ⟨0, 0⟩ reach (graph.targets canvas)
      ⟨⟨"B"⟩, ⟨2⟩, true, false, some ⟨0, 0⟩⟩ := by
    refine ⟨.tail _ (.head _), 0, ⟨rfl, ⟨0, 0⟩, rfl, by decide +kernel, by decide +kernel⟩, ?_⟩
    rintro t ht e ⟨-, p, hp, rfl, -⟩
    -- the two distances are a quarter and zero
    rcases ht with _ | ⟨_, _ | ⟨_, ⟨⟩⟩⟩
    · cases hp
      decide +kernel
    · cases hp
      decide +kernel
  exact ⟨hpointer, hapart, hperm, hsame.trans (hfixed _ hclosest rfl)⟩

end Gesture

end Chalkboard
