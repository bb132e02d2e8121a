import Mathlib.Tactic.ByContra
import Chalkboard.Bridge.Step

/-!
# The connected host

A bridge listens to no host but the connected one (`Bridge.attached_run`). Most actions keep the
connection, which `Bridge.Keeps` says once for all of them; what remains are the actions that connect
or disconnect a host.
-/

namespace Chalkboard

namespace Bridge

variable {setup : BridgeSetup} {b c d : Bridge}

/-! ## The hosts that are listened to -/

/-- Only the connected host is listened to. -/
def Attached (b : Bridge) : Prop :=
  ∀ h ∈ b.hosts, h.listening = true → b.connection = some h.generation

/-- No host is listened to. -/
def Deaf (b : Bridge) : Prop :=
  ∀ h ∈ b.hosts, h.listening = false

/-- `c` has the connection of `b` and listens to no more hosts. -/
structure Keeps (b c : Bridge) : Prop where
  connection : c.connection = b.connection
  generation : c.generation = b.generation
  hosts : ∀ h ∈ c.hosts, h.listening = true →
    ∃ h' ∈ b.hosts, h'.listening = true ∧ h'.generation = h.generation

theorem Keeps.of_eq (hc : c.connection = b.connection) (hg : c.generation = b.generation)
    (hh : c.hosts = b.hosts) : Keeps b c :=
  ⟨hc, hg, fun h hmem hl => ⟨h, hh ▸ hmem, hl, rfl⟩⟩

theorem Keeps.trans (h : Keeps b c) (h' : Keeps c d) : Keeps b d where
  connection := h'.connection.trans h.connection
  generation := h'.generation.trans h.generation
  hosts x hx hl := by
    obtain ⟨y, hy, hyl, hyg⟩ := h'.hosts x hx hl
    obtain ⟨z, hz, hzl, hzg⟩ := h.hosts y hy hyl
    exact ⟨z, hz, hzl, hzg.trans hyg⟩

theorem Keeps.attached (h : Keeps b c) (hb : b.Attached) : c.Attached := by
  intro x hx hl
  obtain ⟨y, hy, hyl, hyg⟩ := h.hosts x hx hl
  rw [h.connection, ← hyg]
  exact hb y hy hyl

theorem Keeps.deaf (h : Keeps b c) (hb : b.Deaf) : c.Deaf := by
  intro x hx
  by_contra hl
  obtain ⟨y, hy, hyl, -⟩ := h.hosts x hx (Bool.not_eq_false _ ▸ hl)
  exact absurd hyl (by simp [hb y hy])

theorem Deaf.attached (h : b.Deaf) : b.Attached := by
  intro x hx hl
  rw [h x hx] at hl
  cases hl

/-- Changing a host keeps the connection, unless the change makes the bridge listen. -/
theorem keeps_updateHost (b : Bridge) (generation : Nat) {f : HostLink → HostLink}
    (hf : ∀ h, (f h).generation = h.generation ∧ ((f h).listening = true → h.listening = true)) :
    Keeps b (b.updateHost generation f) := by
  refine ⟨rfl, rfl, fun x hx hl => ?_⟩
  obtain ⟨y, hy, rfl⟩ := List.mem_map.1 hx
  by_cases hg : y.generation = generation
  · rw [if_pos hg] at hl ⊢
    exact ⟨y, hy, (hf y).2 hl, (hf y).1.symm⟩
  · rw [if_neg hg] at hl ⊢
    exact ⟨y, hy, hl, rfl⟩

/-- Who stops listening to the connected host listens to none. -/
theorem Attached.deaf_updateHost {generation : Nat} (h : b.Attached)
    (hc : b.connection = some generation) {f : HostLink → HostLink}
    (hf : ∀ h, (f h).listening = false) : (b.updateHost generation f).Deaf := by
  intro x hx
  obtain ⟨y, hy, rfl⟩ := List.mem_map.1 hx
  split
  · exact hf y
  · next hne =>
    by_contra hl
    have hconnected := h y hy (Bool.not_eq_false _ ▸ hl)
    rw [hc, Option.some.injEq] at hconnected
    exact hne hconnected.symm

theorem generation_disconnect (b : Bridge) : b.disconnect.generation = b.generation := by
  unfold disconnect
  split <;> rfl

theorem connection_disconnect (b : Bridge) : b.disconnect.connection = none := by
  unfold disconnect
  split
  · assumption
  · rfl

theorem Attached.deaf_disconnect (h : b.Attached) : b.disconnect.Deaf := by
  unfold disconnect
  split
  · next hnone =>
    intro x hx
    by_contra hl
    have hconnected := h x hx (Bool.not_eq_false _ ▸ hl)
    rw [hnone] at hconnected
    cases hconnected
  · next g hg => exact h.deaf_updateHost hg fun _ => rfl

theorem attached_connect (h : b.Attached) (generation : Nat) :
    (b.connect generation).Attached := by
  intro x hx hl
  rcases List.mem_append.1 hx with hx | hx
  · rw [h.deaf_disconnect x hx] at hl
    cases hl
  · rw [List.mem_singleton.1 hx]
    rfl

/-! ## Actions that keep the connection -/

section Keeps

variable (setup : BridgeSetup) (b : Bridge)

theorem keeps_conclude (id : RequestId) (purpose : Purpose) (answer : Answer) :
    Keeps b (b.conclude id purpose answer).1 := by
  cases purpose with
  | answer => exact .of_eq rfl rfl rfl
  | handshake generation =>
    unfold conclude
    dsimp only
    split
    · exact .of_eq rfl rfl rfl
    · split <;> exact .of_eq rfl rfl rfl

theorem keeps_post {request : HostRequest} (h : b.post request = .ok c) : Keeps b c := by
  unfold post at h
  split at h
  · cases h
  · next g _ =>
    split at h
    · cases h
      have hposted := keeps_updateHost b g (f := fun h =>
        { h with requests := h.requests ++ [request] }) fun h => ⟨rfl, id⟩
      exact hposted.trans (.of_eq rfl rfl rfl)
    · cases h

theorem keeps_ask (purpose : Purpose) (kind : RequestKind) (payload : Json) :
    Keeps b (b.ask setup purpose kind payload).1 := by
  have hissued : Keeps b { b with issued := b.issued + 1 } := .of_eq rfl rfl rfl
  unfold ask
  dsimp only
  split
  · next c hc => exact hissued.trans (keeps_post _ hc)
  · exact hissued.trans (keeps_conclude _ _ _ _)

theorem keeps_resume (call : Nat) : Keeps b (b.resume call) := by
  unfold resume
  split
  · next id purpose answer _ =>
    exact (keeps_conclude b id purpose answer).trans (.of_eq rfl rfl rfl)
  · exact .of_eq rfl rfl rfl

theorem keeps_expire (call : Nat) : Keeps b (b.expire setup call) := by
  unfold expire
  split
  · next id purpose _ _ =>
    split
    · have hforget : Keeps b (b.forget id) := .of_eq rfl rfl rfl
      have hconclude := keeps_conclude (b.forget id) id purpose
        (.error (.timeout id setup.settings.timeoutMs))
      exact (hforget.trans hconclude).trans (.of_eq rfl rfl rfl)
    · exact .of_eq rfl rfl rfl
  · exact .of_eq rfl rfl rfl

theorem keeps_abandon (call : Nat) : Keeps b (b.abandon call) := by
  unfold abandon
  split <;> exact .of_eq rfl rfl rfl

theorem keeps_resolve (generation : Nat) (id : RequestId) (answer : Answer) :
    Keeps b (b.resolve generation id answer) := by
  unfold resolve
  split <;> exact .of_eq rfl rfl rfl

/-- Not listening to a host any more keeps the connection. -/
theorem keeps_silence (generation : Nat) :
    Keeps b (b.updateHost generation fun h => { h with listening := false }) := by
  apply keeps_updateHost
  intro h
  exact ⟨rfl, nofun⟩

theorem keeps_route (generation : Nat) (event : HostEvent) :
    Keeps b (b.route generation event) := by
  cases event with
  | frame frame =>
    unfold route
    dsimp only
    split
    · exact .of_eq rfl rfl rfl
    · exact .of_eq rfl rfl rfl
    · exact keeps_resolve b generation _ _
    · exact keeps_resolve b generation _ _
  | crashed reason => exact (keeps_silence b generation).trans (.of_eq rfl rfl rfl)

theorem keeps_dispatch (generation : Nat) : Keeps b (b.dispatch generation) := by
  unfold dispatch
  split
  · exact .of_eq rfl rfl rfl
  · split
    · split
      · next event events _ =>
        have htake := keeps_updateHost b generation (f := fun h => { h with events := events })
          fun h => ⟨rfl, id⟩
        exact htake.trans (keeps_route _ generation event)
      · split
        · exact .of_eq rfl rfl rfl
        · exact (keeps_silence b generation).trans (.of_eq rfl rfl rfl)
    · exact .of_eq rfl rfl rfl

/-- The action may connect or disconnect a host. -/
def Rewires : BridgeAction → Prop
  | .begin .init | .begin .restart | .shutdown | .drop => True
  | _ => False

theorem keeps_step {a : BridgeAction} (ha : ¬Rewires a) : Keeps b (b.step setup a) := by
  cases a with
  | begin request =>
    cases request with
    | init => exact absurd trivial ha
    | restart => exact absurd trivial ha
    | send kind payload =>
      exact (keeps_ask setup b .answer kind payload).trans (.of_eq rfl rfl rfl)
  | abandon call => exact keeps_abandon b call
  | resume call => exact keeps_resume b call
  | expire call => exact keeps_expire setup b call
  | dispatch generation => exact keeps_dispatch b generation
  | report generation event =>
    refine keeps_updateHost b generation fun h => ?_
    split <;> exact ⟨rfl, id⟩
  | take generation => exact keeps_updateHost b generation fun h => ⟨rfl, id⟩
  | closeEvents generation => exact keeps_updateHost b generation fun h => ⟨rfl, id⟩
  | closeRequests generation => exact keeps_updateHost b generation fun h => ⟨rfl, id⟩
  | elapse ms => exact .of_eq rfl rfl rfl
  | shutdown => exact absurd trivial ha
  | drop => exact absurd trivial ha

end Keeps

/-! ## Every run -/

theorem attached_startHost (h : b.Attached) : (b.startHost setup).1.Attached := by
  unfold startHost
  dsimp only
  split
  · exact h
  · exact (keeps_ask setup _ _ _ _).attached
      (attached_connect (b := { b with generation := b.generation + 1 }) h _)

theorem keeps_foldl_abandon (calls : List Nat) (b : Bridge) : Keeps b (calls.foldl abandon b) :=
  List.foldlRecOn (motive := Keeps b) calls abandon (.of_eq rfl rfl rfl) fun c hc call _ =>
    hc.trans (keeps_abandon c call)

/-- The end of the bridge is the end of its connection. -/
theorem Attached.deaf_drop (h : b.Attached) : b.drop.Deaf :=
  ((keeps_foldl_abandon _ b).attached h).deaf_disconnect

theorem attached_step (h : b.Attached) (a : BridgeAction) : (b.step setup a).Attached := by
  by_cases ha : Rewires a
  · cases a with
    | begin request =>
      cases request with
      | init =>
        change (b.init setup).1.Attached
        unfold init
        split
        · next board _ => exact attached_startHost (b := { b with board }) h
        · exact h
      | restart =>
        -- the old host is let go before the new one is spawned
        change (b.restart setup).1.Attached
        have hdeaf : b.disconnect.Attached := h.deaf_disconnect.attached
        unfold restart
        dsimp only
        split
        · exact attached_startHost (b := (b.disconnect.answerAll _).publish _ _) hdeaf
        · exact attached_startHost (b := b.disconnect.publish _ _) hdeaf
      | send kind payload => exact ha.elim
    | shutdown => exact h.deaf_disconnect.attached
    | drop => exact h.deaf_drop.attached
    | _ => exact ha.elim
  · exact (keeps_step setup b ha).attached h

/-! ## Runs -/

/-- What every action of a run keeps, the run keeps. -/
@[elab_as_elim]
theorem run_induction {motive : Bridge → Prop} {actions : List BridgeAction} (start : motive b)
    (act : ∀ c, ∀ a ∈ actions, motive c → motive (step setup c a)) :
    motive (b.run setup actions) :=
  List.foldlRecOn actions _ start fun c hc a ha => act c a ha hc

/-- In every run, only the connected host is listened to. -/
theorem attached_run (actions : List BridgeAction) (h : b.Attached) :
    (b.run setup actions).Attached :=
  run_induction h fun _ a _ hc => attached_step hc a

end Bridge

end Chalkboard
