import Chalkboard.Proofs.Bridge.Reports
import Chalkboard.Proofs.Bridge.Shutdown
import Chalkboard.Proofs.Bridge.Table

/-!
# Requests of a replaced host

A host can be replaced or stopped by a restart, by a shutdown, or by a call to start a host while
one is connected. The last happens if the connected host has said that it is idle. Restart and
shutdown answer all requests; the start answers none, so requests that wait for the old host wait
for their deadlines (`Bridge.Strands`). Without such a start every request in the table waits for
the connected host (`Bridge.pending_current`).
-/

namespace Chalkboard

namespace Bridge

variable {setup : BridgeSetup} {b : Bridge} {a : BridgeAction}

/-- Every request in the table waits for the connected host. -/
def Current (b : Bridge) : Prop :=
  ∀ p ∈ b.pending, b.connection = some p.generation

/-- The action is a call to start a host, it spawns one, and requests wait. -/
def Strands (setup : BridgeSetup) (b : Bridge) (a : BridgeAction) : Prop :=
  a = .begin .init ∧ b.status.phase = .idle ∧ setup.refusal (b.generation + 1) = none ∧
    b.pending ≠ []

/-- An action of the run does so. -/
def Stranding (setup : BridgeSetup) (actions : List BridgeAction) : Prop :=
  ∃ before a rest, actions = before ++ a :: rest ∧ Strands setup (initial.run setup before) a

/-! ## The table and the connection -/

theorem current_of_empty (h : b.pending = []) : b.Current := by
  intro p hp
  rw [h] at hp
  cases hp

/-- With the same connection and no more requests the table stays current. -/
theorem Current.of_subset {c : Bridge} (h : b.Current) (hpending : c.pending ⊆ b.pending)
    (hconnection : c.connection = b.connection) : c.Current := by
  intro p hp
  rw [hconnection]
  exact h p (hpending hp)

/-- A new request waits for the connected host. -/
theorem Current.ask (h : b.Current) (purpose : Purpose) (kind : RequestKind) (payload : Json) :
    (b.ask setup purpose kind payload).1.Current := by
  by_cases haccepts : ∃ g, b.Accepts g
  · obtain ⟨g, hg⟩ := haccepts
    rw [ask_of_accepts setup hg]
    intro p hp
    rcases List.mem_append.1 hp with hp | hp
    · exact h p hp
    · rw [List.mem_singleton.1 hp]
      exact hg.1
  · obtain ⟨m, hask⟩ := ask_of_not_accepts setup (fun g hg => haccepts ⟨g, hg⟩) purpose kind payload
    rw [hask]
    apply h.of_subset
    · change (conclude _ _ _ _).1.ledger.pending ⊆ b.pending
      rw [ledger_conclude]
      exact List.Subset.refl _
    · exact (keeps_conclude { b with issued := b.issued + 1 } _ _ _).connection

/-- A host that is spawned while no request waits has only its handshake in the table. -/
theorem Current.startHost (h : b.Current)
    (hempty : setup.refusal (b.generation + 1) = none → b.pending = []) :
    (b.startHost setup).1.Current := by
  unfold Bridge.startHost
  dsimp only
  split
  · exact h
  · next hspawn =>
    apply Current.ask
    apply current_of_empty
    have hl := ledger_connect { b with generation := b.generation + 1 } (b.generation + 1)
    exact (congrArg Ledger.pending hl).trans (hempty hspawn)

theorem pending_shutdown (b : Bridge) : b.shutdown.pending = [] :=
  congrArg Ledger.pending b.ledger_shutdown

theorem pending_vacated (hreject : setup.settings.rejectOnRestart = true) (b : Bridge) :
    (b.vacated setup).pending = [] := by
  unfold vacated
  rw [if_pos hreject]
  rfl

theorem Current.step (hreject : setup.settings.rejectOnRestart = true) (h : b.Current)
    (howned : b.ledger.Owned) (ha : ¬Strands setup b a) : (b.step setup a).Current := by
  cases a with
  | begin request =>
    cases request with
    | init =>
      by_cases hidle : b.status.phase = .idle
      · obtain ⟨board, -, hinit⟩ := init_of_idle setup hidle
        have hstart : (Bridge.startHost setup { b with board }).1.Current := by
          apply Current.startHost (b := { b with board }) h
          intro hspawn
          by_contra hne
          exact ha ⟨rfl, hidle, hspawn, hne⟩
        rw [← hinit] at hstart
        exact hstart
      · change (b.init setup).1.Current
        rw [init_of_not_idle setup hidle]
        exact h
    | restart =>
      have hempty : (b.vacated setup).pending = [] := pending_vacated hreject b
      exact (current_of_empty hempty).startHost fun _ => hempty
    | send kind payload => exact h.ask .answer kind payload
  | shutdown => exact current_of_empty (pending_shutdown b)
  | drop => exact current_of_empty (pending_drop howned)
  | _ => exact h.of_subset (pending_subset_step setup b nofun) (keeps_step setup b id).connection

theorem Current.run (hreject : setup.settings.rejectOnRestart = true)
    {actions : List BridgeAction} (hkept : ¬Stranding setup actions) :
    (initial.run setup actions).Current := by
  induction actions using List.reverseRecOn with
  | nil => exact current_of_empty rfl
  | append_singleton actions a ih =>
    have hbefore : (initial.run setup actions).Current := by
      apply ih
      rintro ⟨before, c, rest, rfl, hc⟩
      exact hkept ⟨before, c, rest ++ [a], by simp, hc⟩
    rw [run_append_singleton]
    exact hbefore.step hreject (owned_run actions) fun ha => hkept ⟨actions, a, [], rfl, ha⟩

/-! ## Idle hosts -/

/-- A caller that says what became of its host does not call it idle. -/
theorem idle_of_conclude {id : RequestId} {purpose : Purpose} {answer : Answer}
    (h : (b.conclude id purpose answer).1.status.phase = .idle) : b.status.phase = .idle := by
  cases purpose with
  | answer => exact h
  | handshake generation =>
    unfold conclude at h
    dsimp only at h
    split at h
    · exact h
    · split at h
      · rw [phase_publish] at h
        cases h
      · rw [phase_publish] at h
        cases h

theorem idle_of_ask {purpose : Purpose} {kind : RequestKind} {payload : Json}
    (h : (b.ask setup purpose kind payload).1.status.phase = .idle) : b.status.phase = .idle := by
  by_cases haccepts : ∃ g, b.Accepts g
  · obtain ⟨g, hg⟩ := haccepts
    rwa [ask_of_accepts setup hg] at h
  · obtain ⟨m, hask⟩ := ask_of_not_accepts setup (fun g hg => haccepts ⟨g, hg⟩) purpose kind payload
    rw [hask] at h
    exact idle_of_conclude (b := { b with issued := b.issued + 1 }) h

theorem idle_of_resume {call : Nat} (h : (b.resume call).status.phase = .idle) :
    b.status.phase = .idle := by
  unfold resume at h
  split at h
  · exact idle_of_conclude (b := b) h
  · exact h

theorem idle_of_expire {call : Nat} (h : (b.expire setup call).status.phase = .idle) :
    b.status.phase = .idle := by
  unfold expire at h
  split at h
  · split at h
    · exact idle_of_conclude (b := b.forget _) h
    · exact h
  · exact h

/-- Who starts a host does not show idle any more. -/
theorem not_idle_startHost (setup : BridgeSetup) (h : b.status.phase ≠ .idle) :
    (b.startHost setup).1.status.phase ≠ .idle := by
  intro hidle
  unfold Bridge.startHost at hidle
  dsimp only at hidle
  split at hidle
  · rw [phase_publish] at hidle
    cases hidle
  · have hconnect := idle_of_ask hidle
    have hkept := status_disconnect { b with generation := b.generation + 1 }
    exact h ((congrArg Status.phase hkept).symm.trans hconnect)

/-- Of the reports of a host only a status can make a bridge idle. -/
theorem idle_of_route {generation : Nat} {event : HostEvent}
    (h : (b.route generation event).status.phase = .idle) :
    b.status.phase = .idle ∨
      ∃ frame s, event = .frame frame ∧ HostMessage.decode frame = .ok (.status s) ∧
        s.phase = .idle := by
  cases event with
  | crashed reason =>
    dsimp only [route] at h
    rw [phase_publish] at h
    cases h
  | frame frame =>
    dsimp only [route] at h
    cases hdecode : HostMessage.decode frame with
    | error e =>
      rw [hdecode] at h
      exact .inl h
    | ok m =>
      rw [hdecode] at h
      cases m with
      | status s =>
        rw [phase_publish] at h
        exact .inr ⟨frame, s, rfl, hdecode, h⟩
      | result id payload => exact .inl (status_resolve b generation id _ ▸ h)
      | error id message => exact .inl (status_resolve b generation id _ ▸ h)

/-- A dispatch makes a bridge idle only by routing a status. -/
theorem idle_of_dispatch {generation : Nat}
    (h : (b.dispatch generation).status.phase = .idle) :
    b.status.phase = .idle ∨
      ∃ s, b.routed? generation = some (.status s) ∧ s.phase = .idle := by
  rcases b.dispatch_cases generation with ⟨event, hnext, hdispatch⟩ | ⟨-, hdispatch | hdispatch⟩
  · rw [hdispatch] at h
    rcases idle_of_route h with hbefore | ⟨frame, s, rfl, hdecode, hphase⟩
    · exact .inl hbefore
    · refine .inr ⟨s, ?_, hphase⟩
      rw [routed?_of_next? hnext, hdecode]
      rfl
  · rw [hdispatch] at h
    exact .inl h
  · rw [hdispatch, silenced, phase_publish] at h
    cases h

/-- A bridge with a host shows idle only because the host has said so. -/
theorem idle_of_step (hidle : (b.step setup a).status.phase = .idle)
    (hconnected : (b.step setup a).connection ≠ none) :
    (b.status.phase = .idle ∧ b.connection ≠ none) ∨
      ∃ g s, a = .dispatch g ∧ b.routed? g = some (.status s) ∧ s.phase = .idle := by
  cases a with
  | begin request =>
    cases request with
    | init =>
      by_cases hbefore : b.status.phase = .idle
      · obtain ⟨board, hboard, hinit⟩ := init_of_idle setup hbefore
        have hstarted := not_idle_startHost setup (b := { b with board })
          (by rw [status, hboard]; nofun)
        rw [← hinit] at hstarted
        exact absurd hidle hstarted
      · change (b.init setup).1.status.phase = .idle at hidle
        rw [init_of_not_idle setup hbefore] at hidle
        exact absurd hidle hbefore
    | restart =>
      have hvacated : (b.vacated setup).status.phase ≠ .idle := by
        rw [vacated, phase_publish]
        nofun
      exact absurd hidle (not_idle_startHost setup hvacated)
    | send kind payload =>
      rw [(keeps_step setup b (a := .begin (.send kind payload)) id).connection] at hconnected
      exact .inl ⟨idle_of_ask (b := b) hidle, hconnected⟩
  | abandon call =>
    rw [(keeps_step setup b (a := .abandon call) id).connection] at hconnected
    exact .inl ⟨status_abandon b call ▸ hidle, hconnected⟩
  | resume call =>
    rw [(keeps_step setup b (a := .resume call) id).connection] at hconnected
    exact .inl ⟨idle_of_resume hidle, hconnected⟩
  | expire call =>
    rw [(keeps_step setup b (a := .expire call) id).connection] at hconnected
    exact .inl ⟨idle_of_expire hidle, hconnected⟩
  | dispatch generation =>
    rw [(keeps_step setup b (a := .dispatch generation) id).connection] at hconnected
    rcases idle_of_dispatch hidle with hbefore | ⟨s, hs, hphase⟩
    · exact .inl ⟨hbefore, hconnected⟩
    · exact .inr ⟨generation, s, rfl, hs, hphase⟩
  | shutdown => exact absurd (connection_disconnect b) hconnected
  | drop => exact absurd (connection_disconnect _) hconnected
  | _ => exact .inl ⟨hidle, hconnected⟩

/-- In every run, a connected host that shows idle has said so. -/
theorem idle_run {actions : List BridgeAction}
    (hidle : (initial.run setup actions).status.phase = .idle)
    (hconnected : (initial.run setup actions).connection ≠ none) :
    ∃ before g rest s, actions = before ++ .dispatch g :: rest ∧
      (initial.run setup before).routed? g = some (.status s) ∧ s.phase = .idle := by
  induction actions using List.reverseRecOn with
  | nil => exact absurd rfl hconnected
  | append_singleton actions a ih =>
    rw [run_append_singleton] at hidle hconnected
    rcases idle_of_step hidle hconnected with ⟨hbefore, hc⟩ | ⟨g, s, rfl, hs, hphase⟩
    · obtain ⟨before, g, rest, s, rfl, hs⟩ := ih hbefore hc
      exact ⟨before, g, rest ++ [a], s, by simp, hs⟩
    · exact ⟨actions, g, [], s, rfl, hs, hphase⟩

/-! ## The main result -/

/-- A call to start a host leaves the table and the callers as they are, and adds to them. -/
theorem begin_init_keeps (setup : BridgeSetup) (b : Bridge) :
    b.pending ⊆ (b.step setup (.begin .init)).pending ∧
      ∀ (n : Nat) (c : Call), b.calls[n]? = some c →
        (b.step setup (.begin .init)).calls[n]? = some c := by
  obtain ⟨l, call, hopens, hl⟩ := b.ledger_begin setup .init
  have hpending : (b.step setup (.begin .init)).pending = l.pending := congrArg Ledger.pending hl
  have hcalls : (b.step setup (.begin .init)).calls = l.calls ++ [call] :=
    congrArg Ledger.calls hl
  constructor
  · rw [hpending]
    cases hopens with
    | asked => exact List.subset_append_left _ _
    | ended => exact List.Subset.refl _
  · intro n c hc
    rw [hcalls, hopens.calls]
    exact getElem?_append hc call

/-- Whatever replaces or stops the connected host, but strands no requests, tells every caller whose
request waits. -/
theorem told_of_replaced (hreject : setup.settings.rejectOnRestart = true)
    (ha : ¬Strands setup b a) (hreplaced : (b.step setup a).connection ≠ b.connection)
    {p : PendingRequest} (hp : p ∈ b.pending) {n : Nat} {purpose : Purpose} {deadline : Nat}
    (hc : b.calls[n]? = some (.waiting p.id purpose deadline)) :
    (b.step setup a).calls[n]? =
        some (.answered p.id purpose (.error (.hostRestarted p.id))) ∨
      (b.step setup a).calls[n]? = some (.answered p.id purpose (.error (.cancelled p.id))) ∨
      a = .drop ∧ (b.step setup a).calls[n]? = some .abandoned := by
  have hrewires : Rewires a := by
    by_contra hkeeps
    exact hreplaced (keeps_step setup b hkeeps).connection
  cases a with
  | begin request =>
    cases request with
    | init =>
      -- the requests would be stranded
      exfalso
      by_cases hidle : b.status.phase = .idle
      · obtain ⟨board, -, hinit⟩ := init_of_idle setup hidle
        cases hspawn : setup.refusal (b.generation + 1) with
        | none => exact ha ⟨rfl, hidle, hspawn, List.ne_nil_of_mem hp⟩
        | some e =>
          apply hreplaced
          change (b.init setup).1.connection = b.connection
          rw [hinit, Bridge.startHost]
          dsimp only
          rw [hspawn]
          rfl
      · apply hreplaced
        change (b.init setup).1.connection = b.connection
        rw [init_of_not_idle setup hidle]
    | restart => exact .inl (answered_restart hreject hc ⟨p, hp, rfl⟩)
    | send kind payload => exact hrewires.elim
  | shutdown => exact .inr (.inl (answered_shutdown hc ⟨p, hp, rfl⟩))
  | drop => exact .inr (.inr ⟨rfl, abandoned_drop hc⟩)
  | _ => exact hrewires.elim

/-- If restarts reject requests, then every request in the table waits for the connected host, and
whatever replaces or stops that host tells all callers at once, as long as no call starts a host
while requests wait. Such a call strands them: it needs a host that has said that it is idle, and it
leaves the requests of that host in the table and their callers waiting. -/
theorem pending_current (setup : BridgeSetup) (hreject : setup.settings.rejectOnRestart = true)
    (actions : List BridgeAction) (hkept : ¬Stranding setup actions) (a : BridgeAction) :
    let b := initial.run setup actions
    let after := b.step setup a
    b.Current ∧
      (¬Strands setup b a → after.connection ≠ b.connection →
        ∀ p ∈ b.pending, p ∉ after.pending ∧ (∃ n, b.ledger.Waits n p.id) ∧
          ∀ (n : Nat) (purpose : Purpose) (deadline : Nat),
            b.calls[n]? = some (.waiting p.id purpose deadline) →
              after.calls[n]? = some (.answered p.id purpose (.error (.hostRestarted p.id))) ∨
              after.calls[n]? = some (.answered p.id purpose (.error (.cancelled p.id))) ∨
              a = .drop ∧ after.calls[n]? = some .abandoned) ∧
      (Strands setup b a →
        (∃ before g rest s, actions = before ++ .dispatch g :: rest ∧
          (initial.run setup before).routed? g = some (.status s) ∧ s.phase = .idle) ∧
        after.connection = some (b.generation + 1) ∧
        ∀ p ∈ b.pending, p.generation ≤ b.generation ∧ p ∈ after.pending ∧
          ∀ (n : Nat) (purpose : Purpose) (deadline : Nat),
            b.calls[n]? = some (.waiting p.id purpose deadline) →
              after.calls[n]? = some (.waiting p.id purpose deadline)) := by
  intro b after
  have hcurrent : b.Current := Current.run hreject hkept
  have howned : b.ledger.Owned := owned_run actions
  have hcounted : b.Counted := counted_run actions
  have hlinked : b.Linked := linked_run actions
  refine ⟨hcurrent, ?_, ?_⟩
  · intro ha hreplaced p hp
    refine ⟨?_, howned p hp, ?_⟩
    · intro hafter
      -- an entry that stays would wait for the host that was replaced
      have hbefore := hcurrent p hp
      have hstays := hcurrent.step hreject howned ha p hafter
      exact hreplaced (hstays.trans hbefore.symm)
    · intro n purpose deadline hc
      exact told_of_replaced hreject ha hreplaced hp hc
  · rintro ⟨rfl, hidle, hspawn, hne⟩
    have hkeeps := begin_init_keeps setup b
    have hwaiting : ∀ p ∈ b.pending, b.connection = some p.generation := hcurrent
    refine ⟨?_, (begin_init_of_idle hidle hcounted hspawn).2, ?_⟩
    · obtain ⟨p, hp⟩ := List.exists_mem_of_ne_nil _ hne
      have hconnected : b.connection ≠ none := by
        rw [hwaiting p hp]
        nofun
      exact idle_run hidle hconnected
    · intro p hp
      exact ⟨hcounted _ (hlinked _ (hwaiting p hp)), hkeeps.1 hp, fun n _ _ hc => hkeeps.2 n _ hc⟩

/-- A restart tells the caller of the request that the host has not answered. -/
theorem pending_current_sample :
    let b := initial.run sampleSetup sampleBusy
    b.Current ∧ b.pending = [⟨⟨"rr"⟩, .calculate, 1⟩] ∧
      (b.step sampleSetup (.begin .restart)).calls[1]? =
        some (.answered ⟨"rr"⟩ .answer (.error (.hostRestarted ⟨"rr"⟩))) := by
  have hkept : ¬Stranding sampleSetup sampleBusy := by
    rintro ⟨before, a, rest, heq, rfl, -, -, hpending⟩
    cases before with
    | nil => exact hpending rfl
    | cons first before =>
      -- the only call that starts a host is the first action
      have htail := congrArg List.tail heq
      have hmem : BridgeAction.begin .init ∈ sampleBusy.tail := by
        rw [htail]
        simp
      simp [sampleBusy] at hmem
  obtain ⟨hcurrent, htold, -⟩ :=
    pending_current sampleSetup rfl sampleBusy hkept (.begin .restart)
  have hstrands : ¬Strands sampleSetup (initial.run sampleSetup sampleBusy) (.begin .restart) := by
    rintro ⟨heq, -⟩
    cases heq
  obtain ⟨-, -, hcalls⟩ := htold hstrands nofun ⟨⟨"rr"⟩, .calculate, 1⟩
    (List.mem_singleton_self _)
  refine ⟨hcurrent, rfl, ?_⟩
  rcases hcalls 1 .answer 30000 rfl with hrestarted | hcancelled | ⟨heq, -⟩
  · exact hrestarted
  · cases hcancelled
  · cases heq

/-- The host says that it is idle while a request waits, and the next call starts another host. The
request of the first host stays in the table, and its caller waits. -/
theorem pending_after_idle_host :
    let b := initial.run sampleSetup (sampleBusy ++
      [.report 1 (.frame (HostMessage.status ⟨.idle, "resting"⟩).toJson), .dispatch 1])
    let after := b.step sampleSetup (.begin .init)
    sampleSetup.settings.rejectOnRestart = true ∧ after.connection = some 2 ∧
      after.pending = [⟨⟨"rr"⟩, .calculate, 1⟩, ⟨⟨"rrr"⟩, .init, 2⟩] ∧
      after.calls[1]? = some (.waiting ⟨"rr"⟩ .answer 30000) ∧ ¬after.Current := by
  refine ⟨rfl, rfl, rfl, rfl, ?_⟩
  intro hcurrent
  have hconnected := hcurrent ⟨⟨"rr"⟩, .calculate, 1⟩ (List.mem_cons_self ..)
  cases hconnected

end Bridge

end Chalkboard
