import Chalkboard.Proofs.Bridge.Connection
import Chalkboard.Proofs.Bridge.Ledger

/-!
# The hosts and their requests

A new host has a generation that no other host has (`Bridge.counted_run`), so requests go to the
host that is connected. What a call does that asks something is said here once: it posts its request
and waits, or it is over.
-/

namespace Chalkboard

namespace Bridge

variable {setup : BridgeSetup} {b : Bridge} {generation other : Nat}

/-! ## Finding a host -/

section Find

variable {f : HostLink → HostLink}

/-- Changing hosts does not change which one is found. -/
theorem host?_updateHost (b : Bridge) (generation other : Nat)
    (hf : ∀ h, (f h).generation = h.generation) :
    (b.updateHost generation f).host? other =
      (b.host? other).map fun h => if h.generation = generation then f h else h := by
  unfold host? updateHost
  dsimp only
  rw [List.find?_map]
  congr 2
  funext h
  dsimp only [Function.comp_apply]
  split
  · rw [hf]
  · rfl

theorem generation_of_host? {h : HostLink} (hh : b.host? generation = some h) :
    h.generation = generation := by
  simpa using List.find?_some hh

theorem host?_updateHost_self (hf : ∀ h, (f h).generation = h.generation) {h : HostLink}
    (hh : b.host? generation = some h) :
    (b.updateHost generation f).host? generation = some (f h) := by
  rw [host?_updateHost b generation generation hf, hh, Option.map_some,
    if_pos (generation_of_host? hh)]

end Find

/-! ## Hosts that stay as they are -/

section Hosts

variable (b : Bridge)

theorem hosts_conclude (id : RequestId) (purpose : Purpose) (answer : Answer) :
    (b.conclude id purpose answer).1.hosts = b.hosts := by
  cases purpose with
  | answer => rfl
  | handshake generation =>
    unfold conclude
    dsimp only
    split
    · rfl
    · split <;> rfl

theorem hosts_resume (call : Nat) : (b.resume call).hosts = b.hosts := by
  unfold resume
  split
  · exact hosts_conclude b _ _ _
  · rfl

theorem hosts_expire (call : Nat) : (b.expire setup call).hosts = b.hosts := by
  unfold expire
  split
  · split
    · exact hosts_conclude (b.forget _) _ _ _
    · rfl
  · rfl

theorem hosts_abandon (call : Nat) : (b.abandon call).hosts = b.hosts := by
  unfold abandon
  split <;> rfl

theorem hosts_resolve (generation : Nat) (id : RequestId) (answer : Answer) :
    (b.resolve generation id answer).hosts = b.hosts := by
  unfold resolve
  split <;> rfl

theorem hosts_foldl_abandon (calls : List Nat) : (calls.foldl abandon b).hosts = b.hosts :=
  List.foldlRecOn (motive := fun c => c.hosts = b.hosts) calls abandon rfl fun c hc call _ =>
    (hosts_abandon c call).trans hc

end Hosts

/-! ## Generations -/

/-- The generations of all hosts, in order. -/
def spawned (b : Bridge) : List Nat :=
  b.hosts.map HostLink.generation

/-- The generation of every host has been counted. -/
def Counted (b : Bridge) : Prop :=
  ∀ g ∈ b.spawned, g ≤ b.generation

theorem spawned_updateHost (b : Bridge) (generation : Nat) {f : HostLink → HostLink}
    (hf : ∀ h, (f h).generation = h.generation) :
    (b.updateHost generation f).spawned = b.spawned := by
  unfold spawned updateHost
  rw [List.map_map]
  apply List.map_congr_left
  intro h _
  dsimp only [Function.comp_apply]
  split
  · exact hf h
  · rfl

theorem spawned_disconnect (b : Bridge) : b.disconnect.spawned = b.spawned := by
  unfold disconnect
  split
  · rfl
  · exact spawned_updateHost b _ fun _ => rfl

/-- What a restart makes of the bridge before it starts the new host. -/
def vacated (setup : BridgeSetup) (b : Bridge) : Bridge :=
  publish
    (if setup.settings.rejectOnRestart then
      b.disconnect.answerAll fun id => .error (.hostRestarted id)
    else b.disconnect)
    .loading "Restarting computation host"

theorem restart_eq (b : Bridge) : b.restart setup = (b.vacated setup).startHost setup := rfl

theorem hosts_vacated (b : Bridge) : (b.vacated setup).hosts = b.disconnect.hosts := by
  unfold vacated
  split <;> rfl

theorem spawned_vacated (b : Bridge) : (b.vacated setup).spawned = b.spawned := by
  rw [spawned, hosts_vacated]
  exact spawned_disconnect b

theorem generation_vacated (setup : BridgeSetup) (b : Bridge) :
    (b.vacated setup).generation = b.generation := by
  unfold vacated
  split <;> exact generation_disconnect b

theorem Counted.vacated (setup : BridgeSetup) (h : b.Counted) : (b.vacated setup).Counted := by
  intro g hg
  rw [spawned_vacated] at hg
  rw [generation_vacated]
  exact h g hg

theorem connection_vacated (b : Bridge) : (b.vacated setup).connection = none := by
  unfold vacated
  split <;> exact connection_disconnect b

theorem ledger_vacated (setup : BridgeSetup) (b : Bridge) :
    (b.vacated setup).ledger = b.cleared setup .restart := by
  unfold vacated cleared
  rw [ledger_publish]
  split
  · rw [ledger_answerAll, ledger_disconnect]
  · exact b.ledger_disconnect

theorem spawned_connect (b : Bridge) (generation : Nat) :
    (b.connect generation).spawned = b.spawned ++ [generation] := by
  change (b.disconnect.hosts ++ [HostLink.new generation]).map HostLink.generation = _
  rw [List.map_append]
  exact congrArg (· ++ [generation]) (spawned_disconnect b)

theorem spawned_ask (b : Bridge) (purpose : Purpose) (kind : RequestKind) (payload : Json) :
    (b.ask setup purpose kind payload).1.spawned = b.spawned := by
  unfold ask
  dsimp only
  split
  · next c hc =>
    unfold post at hc
    split at hc
    · cases hc
    · split at hc
      · cases hc
        exact spawned_updateHost _ _ fun _ => rfl
      · cases hc
  · exact congrArg (List.map HostLink.generation) (hosts_conclude _ _ _ _)

theorem spawned_route (b : Bridge) (generation : Nat) (event : HostEvent) :
    (b.route generation event).spawned = b.spawned := by
  cases event with
  | frame frame =>
    unfold route
    dsimp only
    split
    · rfl
    · rfl
    · exact congrArg (List.map HostLink.generation) (hosts_resolve b _ _ _)
    · exact congrArg (List.map HostLink.generation) (hosts_resolve b _ _ _)
  | crashed reason => exact spawned_updateHost b _ fun _ => rfl

theorem spawned_dispatch (b : Bridge) (generation : Nat) :
    (b.dispatch generation).spawned = b.spawned := by
  unfold dispatch
  split
  · rfl
  · split
    · split
      · exact (spawned_route _ _ _).trans (spawned_updateHost b _ fun _ => rfl)
      · split
        · rfl
        · exact spawned_updateHost b _ fun _ => rfl
    · rfl

/-- An attempt to start a host is counted, and spawns the host that it is counted for or none. -/
theorem spawned_startHost (setup : BridgeSetup) (b : Bridge) :
    (b.startHost setup).1.generation = b.generation + 1 ∧
      ((b.startHost setup).1.spawned = b.spawned ∨
        (b.startHost setup).1.spawned = b.spawned ++ [b.generation + 1]) := by
  unfold startHost
  dsimp only
  split
  · exact ⟨rfl, .inl rfl⟩
  · refine ⟨?_, .inr ((spawned_ask _ _ _ _).trans (spawned_connect { b with generation := _ } _))⟩
    rw [(keeps_ask setup _ _ _ _).generation]
    exact generation_disconnect { b with generation := b.generation + 1 }

/-- Hosts are spawned one at a time, and the generation counts the attempts. -/
theorem spawned_step (setup : BridgeSetup) (b : Bridge) (a : BridgeAction) :
    (b.step setup a).generation = b.generation ∧ (b.step setup a).spawned = b.spawned ∨
      (b.step setup a).generation = b.generation + 1 ∧
        ((b.step setup a).spawned = b.spawned ∨
          (b.step setup a).spawned = b.spawned ++ [b.generation + 1]) := by
  cases a with
  | begin request =>
    cases request with
    | init =>
      change (b.init setup).1.generation = _ ∧ (b.init setup).1.spawned = _ ∨
        (b.init setup).1.generation = _ ∧
          ((b.init setup).1.spawned = _ ∨ (b.init setup).1.spawned = _)
      unfold init
      split
      · next board _ => exact .inr (spawned_startHost setup { b with board })
      · exact .inl ⟨rfl, rfl⟩
    | restart =>
      have hstart := spawned_startHost setup (b.vacated setup)
      rw [generation_vacated, spawned_vacated] at hstart
      exact .inr hstart
    | send kind payload =>
      exact .inl ⟨(keeps_ask setup b .answer kind payload).generation, spawned_ask b _ _ _⟩
  | abandon call =>
    exact .inl ⟨(keeps_abandon b call).generation,
      congrArg (List.map HostLink.generation) (hosts_abandon b call)⟩
  | resume call =>
    exact .inl ⟨(keeps_resume b call).generation,
      congrArg (List.map HostLink.generation) (hosts_resume b call)⟩
  | expire call =>
    exact .inl ⟨(keeps_expire setup b call).generation,
      congrArg (List.map HostLink.generation) (hosts_expire b call)⟩
  | dispatch generation =>
    exact .inl ⟨(keeps_dispatch b generation).generation, spawned_dispatch b generation⟩
  | report generation event =>
    refine .inl ⟨rfl, spawned_updateHost b _ fun h => ?_⟩
    split <;> rfl
  | take generation => exact .inl ⟨rfl, spawned_updateHost b _ fun _ => rfl⟩
  | closeEvents generation => exact .inl ⟨rfl, spawned_updateHost b _ fun _ => rfl⟩
  | closeRequests generation => exact .inl ⟨rfl, spawned_updateHost b _ fun _ => rfl⟩
  | elapse ms => exact .inl ⟨rfl, rfl⟩
  | shutdown =>
    exact .inl ⟨generation_disconnect b, spawned_disconnect b⟩
  | drop =>
    left
    change (disconnect (List.foldl abandon b _)).generation = _ ∧
      (disconnect (List.foldl abandon b _)).spawned = _
    refine ⟨?_, (spawned_disconnect _).trans
      (congrArg (List.map HostLink.generation) (hosts_foldl_abandon b _))⟩
    exact (generation_disconnect _).trans (keeps_foldl_abandon _ b).generation

theorem Counted.step (h : b.Counted) (a : BridgeAction) : (b.step setup a).Counted := by
  intro g hg
  rcases b.spawned_step setup a with ⟨hgeneration, hs⟩ | ⟨hgeneration, hs | hs⟩
  · rw [hs] at hg
    rw [hgeneration]
    exact h g hg
  · rw [hs] at hg
    have := h g hg
    omega
  · rw [hs, List.mem_append, List.mem_singleton] at hg
    rcases hg with hg | rfl
    · have := h g hg
      omega
    · omega

/-- In every run, the generation of every host has been counted, so the next one is new. -/
theorem counted_run (actions : List BridgeAction) : (initial.run setup actions).Counted :=
  run_induction (fun _ hg => by cases hg) fun _ a _ hc => hc.step a

/-! ## The connected host -/

/-- The connected host is one of the hosts. -/
def Linked (b : Bridge) : Prop :=
  ∀ g, b.connection = some g → g ∈ b.spawned

/-- A host that was spawned stays. -/
theorem spawned_subset_step (setup : BridgeSetup) (b : Bridge) (a : BridgeAction) :
    b.spawned ⊆ (b.step setup a).spawned := by
  rcases b.spawned_step setup a with ⟨-, hs⟩ | ⟨-, hs | hs⟩
  · rw [hs]
    exact List.Subset.refl _
  · rw [hs]
    exact List.Subset.refl _
  · rw [hs]
    exact List.subset_append_left _ _

theorem linked_of_disconnected (h : b.connection = none) : b.Linked := by
  intro g hg
  rw [h] at hg
  cases hg

theorem Linked.startHost (h : b.Linked) : (b.startHost setup).1.Linked := by
  intro g hg
  unfold Bridge.startHost at hg ⊢
  dsimp only at hg ⊢
  split at hg
  · exact h g hg
  · rw [spawned_ask, spawned_connect]
    rw [(keeps_ask setup _ _ _ _).connection] at hg
    cases hg
    exact List.mem_append_right _ (List.mem_singleton_self _)

theorem Linked.step (h : b.Linked) (a : BridgeAction) : (b.step setup a).Linked := by
  by_cases ha : Rewires a
  · cases a with
    | begin request =>
      cases request with
      | init =>
        change (b.init setup).1.Linked
        unfold init
        split
        · next board _ => exact Linked.startHost (b := { b with board }) h
        · exact h
      | restart =>
        have hvacated : (b.vacated setup).Linked := linked_of_disconnected (connection_vacated b)
        exact hvacated.startHost
      | send kind payload => exact ha.elim
    | shutdown => exact linked_of_disconnected (connection_disconnect b)
    | drop => exact linked_of_disconnected (connection_disconnect _)
    | _ => exact ha.elim
  · intro g hg
    rw [(keeps_step setup b ha).connection] at hg
    exact spawned_subset_step setup b a (h g hg)

/-- In every run, the connected host is one that was spawned. -/
theorem linked_run (actions : List BridgeAction) : (initial.run setup actions).Linked :=
  run_induction (linked_of_disconnected rfl) fun _ a _ hc => hc.step a

/-! ## Posting a request -/

/-- The connected host takes requests. -/
def Accepts (b : Bridge) (generation : Nat) : Prop :=
  b.connection = some generation ∧
    ∃ h, b.host? generation = some h ∧ h.accepting = true

theorem post_of_accepts (h : b.Accepts generation) (request : HostRequest) :
    b.post request = .ok
      { b.updateHost generation fun h => { h with requests := h.requests ++ [request] } with
        pending := b.pending ++ [⟨request.id, request.kind, generation⟩] } := by
  obtain ⟨hg, host, hhost, haccepts⟩ := h
  have hany : (b.host? generation).any HostLink.accepting = true := by
    rw [hhost]
    exact haccepts
  unfold post
  rw [hg]
  dsimp only
  rw [if_pos hany]

theorem post_of_not_accepts (h : ∀ generation, ¬b.Accepts generation) (request : HostRequest) :
    ∃ m, b.post request = .error (.hostUnavailable m) := by
  unfold post
  split
  · exact ⟨_, rfl⟩
  · next g hg =>
    have hany : ¬(b.host? g).any HostLink.accepting = true := by
      intro hany
      cases hhost : b.host? g with
      | none =>
        rw [hhost] at hany
        cases hany
      | some host =>
        rw [hhost] at hany
        exact h g ⟨hg, host, hhost, hany⟩
    rw [if_neg hany]
    exact ⟨_, rfl⟩

/-- The bridge once it has posted a request to a host, under the next id. -/
def posted (setup : BridgeSetup) (b : Bridge) (generation : Nat) (kind : RequestKind)
    (payload : Json) : Bridge :=
  { b.updateHost generation fun h =>
      { h with requests := h.requests ++ [⟨kind, setup.requestId (b.issued + 1), payload⟩] } with
    pending := b.pending ++ [⟨setup.requestId (b.issued + 1), kind, generation⟩]
    issued := b.issued + 1 }

/-- Who asks a host that takes requests waits for the answer. -/
theorem ask_of_accepts (setup : BridgeSetup) (h : b.Accepts generation) (purpose : Purpose)
    (kind : RequestKind) (payload : Json) :
    b.ask setup purpose kind payload =
      (b.posted setup generation kind payload,
        .waiting (setup.requestId (b.issued + 1)) purpose
          (b.now + setup.settings.timeoutMs.toNat)) := by
  have hpost := post_of_accepts (b := { b with issued := b.issued + 1 }) h
    ⟨kind, setup.requestId (b.issued + 1), payload⟩
  unfold ask
  dsimp only
  rw [hpost]
  rfl

/-- Who asks without such a host is told so at once. -/
theorem ask_of_not_accepts (setup : BridgeSetup) (h : ∀ generation, ¬b.Accepts generation)
    (purpose : Purpose) (kind : RequestKind) (payload : Json) :
    ∃ m, b.ask setup purpose kind payload =
      ((conclude { b with issued := b.issued + 1 } (setup.requestId (b.issued + 1)) purpose
          (.error (.hostUnavailable m))).1,
        .finished (conclude { b with issued := b.issued + 1 } (setup.requestId (b.issued + 1))
          purpose (.error (.hostUnavailable m))).2) := by
  obtain ⟨m, hpost⟩ := post_of_not_accepts (b := { b with issued := b.issued + 1 }) h
    ⟨kind, setup.requestId (b.issued + 1), payload⟩
  refine ⟨m, ?_⟩
  unfold ask
  dsimp only
  rw [hpost]

/-- A new host is found under its generation. -/
theorem host?_connect (h : ∀ g ∈ b.spawned, g < generation) :
    (b.connect generation).host? generation = some (.new generation) := by
  change (b.disconnect.hosts ++ [HostLink.new generation]).find? _ = _
  rw [List.find?_append, Option.or_eq_some_iff]
  right
  refine ⟨?_, by simp [HostLink.new]⟩
  rw [List.find?_eq_none]
  intro host hhost
  have hmem : host.generation ∈ b.spawned := by
    rw [← spawned_disconnect]
    exact List.mem_map_of_mem hhost
  have := h _ hmem
  simp only [beq_iff_eq]
  omega

/-- The bridge with the next host in place of the connected one. -/
def renewed (b : Bridge) : Bridge :=
  connect { b with generation := b.generation + 1 } (b.generation + 1)

theorem accepts_renewed (h : b.Counted) : b.renewed.Accepts (b.generation + 1) := by
  refine ⟨rfl, .new (b.generation + 1), ?_, rfl⟩
  have hfree : ∀ g ∈ b.spawned, g < b.generation + 1 := fun g hg => Nat.lt_succ_of_le (h g hg)
  exact host?_connect (b := { b with generation := b.generation + 1 }) hfree

theorem ledger_renewed (b : Bridge) : b.renewed.ledger = b.ledger :=
  ledger_connect { b with generation := b.generation + 1 } _

theorem now_renewed (b : Bridge) : b.renewed.now = b.now := by
  unfold renewed connect disconnect
  dsimp only
  split <;> rfl

/-- A host that can be spawned is asked for its handshake. -/
theorem startHost_of_spawned (h : b.Counted) (hspawn : setup.refusal (b.generation + 1) = none) :
    b.startHost setup =
      (b.renewed.posted setup (b.generation + 1) .init .null,
        .waiting (setup.requestId (b.issued + 1)) (.handshake (b.generation + 1))
          (b.now + setup.settings.timeoutMs.toNat)) := by
  have hask := ask_of_accepts setup (accepts_renewed h) (.handshake (b.generation + 1))
    .init .null
  have hissued : b.renewed.issued = b.issued := congrArg Ledger.issued (ledger_renewed b)
  rw [hissued, now_renewed] at hask
  unfold startHost
  dsimp only
  rw [hspawn]
  exact hask

/-! ## Starting the host -/

/-- An idle bridge starts a host when it is asked to. -/
theorem init_of_idle (setup : BridgeSetup) (h : b.status.phase = .idle) :
    ∃ board : StatusBoard, board.status = ⟨.loading, "Starting computation host"⟩ ∧
      b.init setup = startHost setup { b with board } := by
  have hphase : b.board.status.phase = .idle := h
  unfold init StatusBoard.beginLoading
  rw [if_pos hphase]
  exact ⟨_, rfl, rfl⟩

/-- Any other bridge does nothing. -/
theorem init_of_not_idle (setup : BridgeSetup) (h : b.status.phase ≠ .idle) :
    b.init setup =
      (b, .finished
        (if b.status.phase = .error then
          if b.reachedReady then .error (.hostCrashed b.status.message)
          else .error (.hostInit b.status.message)
        else .ok .null)) := by
  have hphase : b.board.status.phase ≠ .idle := h
  unfold init StatusBoard.beginLoading
  rw [if_neg hphase]

end Bridge

end Chalkboard
