import Chalkboard.Proofs.Bridge.Hosts

/-!
# What is heard of a host

The reports of a host wait in a queue until the bridge dispatches them. Nothing but a report adds to
the queue, and nothing but a dispatch takes from it (`Bridge.queue_step`). So what is heard of a host
in a run is the beginning of what it has reported, in order and each report once
(`Bridge.heard_isPrefix`).
-/

namespace Chalkboard

namespace Bridge

variable {setup : BridgeSetup} {b c : Bridge} {generation other : Nat}

/-- The reports of a host that have not been dispatched. -/
def queue (b : Bridge) (generation : Nat) : List HostEvent :=
  ((b.host? generation).map HostLink.events).getD []

theorem queue_of_host? {h : HostLink} (hh : b.host? generation = some h) :
    b.queue generation = h.events := by
  rw [queue, hh]
  rfl

theorem queue_of_hosts (h : c.hosts = b.hosts) (generation : Nat) :
    c.queue generation = b.queue generation := by
  rw [queue, queue, host?, host?, h]

/-! ## Changes that leave the queues alone -/

section Queue

variable (b)

theorem queue_updateHost (generation other : Nat) {f : HostLink → HostLink}
    (hf : ∀ h, (f h).generation = h.generation ∧ (f h).events = h.events) :
    (b.updateHost generation f).queue other = b.queue other := by
  unfold queue
  rw [host?_updateHost b generation other fun h => (hf h).1, Option.map_map]
  congr 2
  funext h
  dsimp only [Function.comp_apply]
  split
  · exact (hf h).2
  · rfl

/-- Changing one host leaves the queues of the others alone. -/
theorem queue_updateHost_of_ne (hne : other ≠ generation) {f : HostLink → HostLink}
    (hf : ∀ h, (f h).generation = h.generation) :
    (b.updateHost generation f).queue other = b.queue other := by
  unfold queue
  rw [host?_updateHost b generation other hf]
  cases hh : b.host? other with
  | none => rfl
  | some h =>
    have hother : h.generation ≠ generation := by
      rw [generation_of_host? hh]
      exact hne
    rw [Option.map_some, if_neg hother]

theorem queue_disconnect (other : Nat) : b.disconnect.queue other = b.queue other := by
  unfold disconnect
  split
  · rfl
  · exact queue_updateHost b _ other fun _ => ⟨rfl, rfl⟩

/-- A new host has reported nothing. -/
theorem queue_connect (generation other : Nat) :
    (b.connect generation).queue other = b.queue other := by
  have hhosts : (b.connect generation).host? other =
      (b.disconnect.host? other).or ([HostLink.new generation].find? (·.generation == other)) :=
    List.find?_append
  rw [← queue_disconnect b other, queue, hhosts, queue]
  -- a host that is there already is found before the new one
  cases b.disconnect.host? other with
  | some h => rfl
  | none =>
    rw [Option.none_or, List.find?_singleton]
    split <;> rfl

theorem queue_ask (purpose : Purpose) (kind : RequestKind) (payload : Json) (other : Nat) :
    (b.ask setup purpose kind payload).1.queue other = b.queue other := by
  by_cases haccepts : ∃ generation, b.Accepts generation
  · obtain ⟨generation, haccepts⟩ := haccepts
    rw [ask_of_accepts setup haccepts]
    exact queue_updateHost b generation other fun _ => ⟨rfl, rfl⟩
  · obtain ⟨m, hask⟩ := ask_of_not_accepts setup (not_exists.1 haccepts) purpose kind payload
    rw [hask]
    exact queue_of_hosts (hosts_conclude _ _ _ _) other

theorem queue_startHost (other : Nat) : (b.startHost setup).1.queue other = b.queue other := by
  unfold startHost
  dsimp only
  split
  · rfl
  · rw [queue_ask, queue_connect]
    rfl

theorem queue_begin (request : CallRequest) (other : Nat) :
    (b.begin setup request).queue other = b.queue other := by
  cases request with
  | init =>
    change (b.init setup).1.queue other = _
    unfold init
    split
    · next board _ => exact queue_startHost { b with board } other
    · rfl
  | restart =>
    change ((b.vacated setup).startHost setup).1.queue other = _
    rw [queue_startHost, queue_of_hosts (hosts_vacated b), queue_disconnect]
  | send kind payload => exact queue_ask b .answer kind payload other

theorem queue_route (generation other : Nat) (event : HostEvent) :
    (b.route generation event).queue other = b.queue other := by
  cases event with
  | frame frame =>
    unfold route
    dsimp only
    split
    · rfl
    · rfl
    · exact queue_of_hosts (hosts_resolve b _ _ _) other
    · exact queue_of_hosts (hosts_resolve b _ _ _) other
  | crashed reason => exact queue_updateHost b generation other fun _ => ⟨rfl, rfl⟩

end Queue

/-! ## Reporting and dispatching -/

/-- The report that a dispatch takes from a host that is listened to. -/
def next? (b : Bridge) (generation : Nat) : Option HostEvent :=
  (b.host? generation).bind fun h => if h.listening then h.events.head? else none

/-- The bridge without the first report of a host. -/
def popped (b : Bridge) (generation : Nat) : Bridge :=
  b.updateHost generation fun h => { h with events := (b.queue generation).tail }

/-- The bridge that has noticed the end of a host. -/
def silenced (b : Bridge) (generation : Nat) : Bridge :=
  (b.updateHost generation fun h => { h with listening := false }).publish .error
    "Computation host exited"

/-- The next report stands first in the queue of its host. -/
theorem queue_of_next? {event : HostEvent} (hnext : b.next? generation = some event) :
    ∃ h, b.host? generation = some h ∧
      b.queue generation = event :: (b.queue generation).tail := by
  obtain ⟨h, hh, hfirst⟩ := Option.bind_eq_some_iff.1 hnext
  refine ⟨h, hh, ?_⟩
  split at hfirst
  · rw [queue_of_host? hh]
    exact List.eq_cons_of_mem_head? hfirst
  · cases hfirst

/-- The message that is routed is the one that the next report says. -/
theorem routed?_of_next? {frame : Json} (hnext : b.next? generation = some (.frame frame)) :
    b.routed? generation = (HostMessage.decode frame).toOption := by
  obtain ⟨h, hh, hfirst⟩ := Option.bind_eq_some_iff.1 hnext
  split at hfirst
  · next hlistening =>
    obtain ⟨events, hevents⟩ := List.head?_eq_some_iff.1 hfirst
    unfold routed?
    rw [hh]
    dsimp only
    rw [hlistening, hevents]
  · cases hfirst

/-- A dispatch acts on the next report. Without one it does nothing, or notices that the host has
come to its end. -/
theorem dispatch_cases (b : Bridge) (generation : Nat) :
    (∃ event, b.next? generation = some event ∧
        b.dispatch generation = (b.popped generation).route generation event) ∨
      b.next? generation = none ∧
        (b.dispatch generation = b ∨ b.dispatch generation = b.silenced generation) := by
  unfold next? dispatch
  cases hh : b.host? generation with
  | none => exact .inr ⟨rfl, .inl rfl⟩
  | some h =>
    rw [Option.bind_some]
    dsimp only
    split
    · cases hevents : h.events with
      | cons event events =>
        refine .inl ⟨event, rfl, ?_⟩
        rw [popped, queue_of_host? hh, hevents]
        rfl
      | nil =>
        refine .inr ⟨rfl, ?_⟩
        dsimp only
        split
        · exact .inl rfl
        · exact .inr rfl
    · exact .inr ⟨rfl, .inl rfl⟩

/-- The report of a host that an action dispatches. -/
def heard? (b : Bridge) (generation : Nat) : BridgeAction → Option HostEvent
  | .dispatch other => if other = generation then b.next? generation else none
  | _ => none

/-- The report that an action adds to the queue of a host. A host that is not there, or has closed
its channel, cannot report. -/
def accepted? (b : Bridge) (generation : Nat) : BridgeAction → Option HostEvent
  | .report other event =>
    if other = generation ∧ (b.host? generation).any HostLink.reporting then some event else none
  | _ => none

theorem queue_silenced (b : Bridge) (generation other : Nat) :
    (b.silenced generation).queue other = b.queue other :=
  queue_updateHost b generation other fun _ => ⟨rfl, rfl⟩

theorem queue_dispatch (b : Bridge) (generation : Nat) :
    (b.next? generation).toList ++ (b.dispatch generation).queue generation =
      b.queue generation := by
  rcases b.dispatch_cases generation with ⟨event, hnext, hdispatch⟩ | ⟨hnext, h | h⟩
  · obtain ⟨h, hh, hqueue⟩ := queue_of_next? hnext
    have hpopped : (b.popped generation).queue generation = (b.queue generation).tail :=
      queue_of_host? (host?_updateHost_self
        (f := fun h => { h with events := (b.queue generation).tail }) (fun _ => rfl) hh)
    rw [hnext, hdispatch, queue_route, hpopped]
    exact hqueue.symm
  · rw [hnext, h]
    rfl
  · rw [hnext, h, queue_silenced]
    rfl

theorem queue_dispatch_of_ne (hne : other ≠ generation) :
    (b.dispatch generation).queue other = b.queue other := by
  rcases b.dispatch_cases generation with ⟨event, -, hdispatch⟩ | ⟨-, h | h⟩
  · rw [hdispatch, queue_route]
    exact queue_updateHost_of_ne b hne fun _ => rfl
  · rw [h]
  · rw [h, queue_silenced]

theorem queue_report (b : Bridge) (generation : Nat) (event : HostEvent) :
    (b.step setup (.report generation event)).queue generation =
      b.queue generation ++ (b.accepted? generation (.report generation event)).toList := by
  have hhost := host?_updateHost b generation generation
    (f := fun h => if h.reporting then { h with events := h.events ++ [event] } else h)
    fun h => by split <;> rfl
  unfold accepted?
  cases hh : b.host? generation with
  | none =>
    rw [hh] at hhost
    rw [step, queue, queue, hhost, hh]
    simp
  | some h =>
    rw [hh, Option.map_some, if_pos (generation_of_host? hh)] at hhost
    rw [step, queue_of_host? hhost, queue_of_host? hh]
    cases hreporting : h.reporting <;> simp [hreporting]

/-- An action takes what it dispatches from the front of a queue, and adds what is reported at its
end. -/
theorem queue_step (setup : BridgeSetup) (b : Bridge) (generation : Nat) (a : BridgeAction) :
    (b.heard? generation a).toList ++ (b.step setup a).queue generation =
      b.queue generation ++ (b.accepted? generation a).toList := by
  -- for the actions that neither report nor dispatch
  have quiet {c : Bridge} (hc : c.queue generation = b.queue generation) :
      [] ++ c.queue generation = b.queue generation ++ [] := by
    rw [hc, List.nil_append, List.append_nil]
  cases a with
  | dispatch other =>
    by_cases heq : other = generation
    · rw [heq, heard?, if_pos rfl]
      exact (queue_dispatch b generation).trans (List.append_nil _).symm
    · rw [heard?, if_neg heq]
      exact quiet (queue_dispatch_of_ne fun h => heq h.symm)
  | report other event =>
    by_cases heq : other = generation
    · rw [heq]
      exact queue_report b generation event
    · rw [accepted?, if_neg fun h => heq h.1]
      refine quiet (queue_updateHost_of_ne b (fun h => heq h.symm) fun h => ?_)
      split <;> rfl
  | begin request => exact quiet (queue_begin b request generation)
  | abandon call => exact quiet (queue_of_hosts (hosts_abandon b call) generation)
  | resume call => exact quiet (queue_of_hosts (hosts_resume b call) generation)
  | expire call => exact quiet (queue_of_hosts (hosts_expire b call) generation)
  | take other => exact quiet (queue_updateHost b other generation fun _ => ⟨rfl, rfl⟩)
  | closeEvents other => exact quiet (queue_updateHost b other generation fun _ => ⟨rfl, rfl⟩)
  | closeRequests other => exact quiet (queue_updateHost b other generation fun _ => ⟨rfl, rfl⟩)
  | elapse ms => exact quiet rfl
  | shutdown => exact quiet (queue_disconnect b generation)
  | drop =>
    have hcalls := queue_of_hosts (hosts_foldl_abandon b (List.range b.calls.length)) generation
    exact quiet ((queue_disconnect _ generation).trans hcalls)

/-! ## Every run -/

section Run

variable (setup) (generation)

/-- What is heard of a host in a run. -/
def heardIn : Bridge → List BridgeAction → List HostEvent
  | _, [] => []
  | b, a :: actions => (b.heard? generation a).toList ++ heardIn (b.step setup a) actions

/-- What a host reports in a run, as far as it can. -/
def acceptedIn : Bridge → List BridgeAction → List HostEvent
  | _, [] => []
  | b, a :: actions => (b.accepted? generation a).toList ++ acceptedIn (b.step setup a) actions

/-- What a run finds in a queue and what it adds is heard in this order, up to what is left. -/
theorem queue_run (b : Bridge) (actions : List BridgeAction) :
    heardIn setup generation b actions ++ (b.run setup actions).queue generation =
      b.queue generation ++ acceptedIn setup generation b actions := by
  induction actions generalizing b with
  | nil => simp [heardIn, acceptedIn, run]
  | cons a actions ih =>
    calc heardIn setup generation b (a :: actions) ++ (b.run setup (a :: actions)).queue generation
      _ = (b.heard? generation a).toList ++ (heardIn setup generation (b.step setup a) actions ++
            ((b.step setup a).run setup actions).queue generation) := List.append_assoc ..
      _ = ((b.heard? generation a).toList ++ (b.step setup a).queue generation) ++
            acceptedIn setup generation (b.step setup a) actions := by rw [ih, List.append_assoc]
      _ = b.queue generation ++ acceptedIn setup generation b (a :: actions) := by
        rw [queue_step, acceptedIn, List.append_assoc]

/-- In every run, what is heard of a host is the beginning of what it has reported. -/
theorem heard_isPrefix (actions : List BridgeAction) :
    heardIn setup generation initial actions <+: acceptedIn setup generation initial actions :=
  ⟨_, queue_run setup generation initial actions⟩

variable {setup generation} {event : HostEvent} {actions : List BridgeAction}

/-- A host accepts no reports but its own. -/
theorem report_mem_of_acceptedIn (h : event ∈ acceptedIn setup generation b actions) :
    .report generation event ∈ actions := by
  induction actions generalizing b with
  | nil => cases h
  | cons a actions ih =>
    rcases List.mem_append.1 h with hnow | hlater
    · have ha : a = .report generation event := by
        cases a with
        | report other reported =>
          obtain ⟨⟨hown, -⟩, hreported⟩ : _ ∧ reported = event := by
            simpa [accepted?] using hnow
          rw [hown, hreported]
        | _ => cases hnow
      rw [ha]
      exact List.mem_cons_self
    · exact List.mem_cons_of_mem a (ih hlater)

/-- In every run, what waits in a queue was reported by its host. -/
theorem report_mem_of_queue (h : event ∈ (initial.run setup actions).queue generation) :
    .report generation event ∈ actions := by
  have hrun := queue_run setup generation initial actions
  have hmem : event ∈ acceptedIn setup generation initial actions := by
    rw [← List.nil_append (acceptedIn _ _ _ _)]
    exact hrun ▸ List.mem_append_right _ h
  exact report_mem_of_acceptedIn hmem

end Run

end Bridge

end Chalkboard
