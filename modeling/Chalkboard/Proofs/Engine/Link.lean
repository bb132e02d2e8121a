import Chalkboard.Proofs.Bridge.Outstanding
import Chalkboard.Proofs.Bridge.Replacement
import Chalkboard.Proofs.Engine.Worker

/-!
# The host that a bridge is connected to

While nothing replaces the host, an action of the bridge does one of three things to it: nothing, it
posts a request, or it takes a report (`Bridge.Goes`). A host serves a request if all that it has
under the id of the request is the request itself and the right reply (`HostLink.Serves`); each of
the three keeps that, and so does the worker when it takes its next request.
-/

namespace Chalkboard

/-- The action belongs to a caller or to the bridge, not to a host. -/
def BridgeAction.Proper : BridgeAction → Prop
  | .report .. | .take _ | .closeEvents _ | .closeRequests _ => False
  | _ => True

/-- A proper action that neither replaces nor stops a host that is connected. -/
def BridgeAction.Calm : BridgeAction → Prop
  | .begin .restart | .shutdown | .drop => False
  | a => a.Proper

/-! ## Hosts that serve -/

namespace HostLink

variable {setup : BridgeSetup} {f : Computation} {l l' : Ledger} {h : HostLink} {r q : HostRequest}

/-- The host takes requests and is listened to, and all that is under way between it and the bridge
has ids that were used. -/
structure Healthy (setup : BridgeSetup) (l : Ledger) (h : HostLink) : Prop where
  accepting : h.accepting = true
  reporting : h.reporting = true
  listening : h.listening = true
  requests : ∀ r ∈ h.requests, l.Issued setup r.id
  events : ∀ e ∈ h.events, ∃ m : HostMessage,
    e = m.event ∧ m.Mild ∧ ∀ id, m.id? = some id → l.Issued setup id

/-- The host has the request or has replied to it, and has nothing else under its id. -/
structure Serves (f : Computation) (h : HostLink) (r : HostRequest) : Prop where
  requests : ∀ q ∈ h.requests, q.id = r.id → q = r
  replies : ∀ m : HostMessage, m.event ∈ h.events → m.id? = some r.id → m = reply f r
  present : r ∈ h.requests ∨ (reply f r).event ∈ h.events

/-- The host with one more request. -/
def post (h : HostLink) (q : HostRequest) : HostLink :=
  { h with requests := h.requests ++ [q] }

/-- The host once its worker has taken the next request and has said something. -/
def served (h : HostLink) (messages : List HostMessage) : HostLink :=
  { h with
    requests := h.requests.tail
    events := if h.reporting then h.events ++ messages.map HostMessage.event else h.events }

theorem Healthy.mono (hh : h.Healthy setup l)
    (hl : ∀ id, l.Issued setup id → l'.Issued setup id) : h.Healthy setup l' where
  accepting := hh.accepting
  reporting := hh.reporting
  listening := hh.listening
  requests r hr := hl _ (hh.requests r hr)
  events e he := by
    obtain ⟨m, hm, hmild, hid⟩ := hh.events e he
    exact ⟨m, hm, hmild, fun id h => hl id (hid id h)⟩

theorem Healthy.post (hh : h.Healthy setup l) (hq : l.Issued setup q.id) :
    (h.post q).Healthy setup l where
  accepting := hh.accepting
  reporting := hh.reporting
  listening := hh.listening
  requests r hr := by
    rcases List.mem_append.1 hr with hr | hr
    · exact hh.requests r hr
    · rw [List.mem_singleton.1 hr]
      exact hq
  events := hh.events

theorem Healthy.pop (hh : h.Healthy setup l) {e : HostEvent} {events : List HostEvent}
    (he : h.events = e :: events) : { h with events }.Healthy setup l where
  accepting := hh.accepting
  reporting := hh.reporting
  listening := hh.listening
  requests := hh.requests
  events x hx := hh.events x (he ▸ List.mem_cons_of_mem e hx)

theorem Healthy.served (hh : h.Healthy setup l) {requests : List HostRequest}
    (hq : h.requests = q :: requests) (w : Worker Nat) :
    (h.served (w.sayings f q)).Healthy setup l where
  accepting := hh.accepting
  reporting := hh.reporting
  listening := hh.listening
  requests r hr := hh.requests r (List.mem_of_mem_tail hr)
  events e he := by
    have he : e ∈ h.events ++ (w.sayings f q).map HostMessage.event := by
      have hevents : (h.served (w.sayings f q)).events = _ := if_pos hh.reporting
      rwa [hevents] at he
    -- a report that is new is the reply, or belongs to the greeting
    rcases List.mem_append.1 he with he | he
    · exact hh.events e he
    · obtain ⟨m, hm, rfl⟩ := List.mem_map.1 he
      rcases Worker.mem_sayings hm with rfl | hm
      · refine ⟨reply f q, rfl, ?_, ?_⟩
        · unfold reply
          split
          · trivial
          · split <;> trivial
        · intro id hid
          rw [id?_reply, Option.some.injEq] at hid
          rw [← hid]
          exact hh.requests q (hq ▸ List.mem_cons_self ..)
      · refine ⟨m, rfl, mild_of_mem_greeting hm, ?_⟩
        intro id hid
        rw [id?_of_mem_greeting hm] at hid
        cases hid

/-- A host serves a request that is posted under a new id. -/
theorem Healthy.serves_post (hh : h.Healthy setup l) (hnew : ¬l.Issued setup r.id) :
    (h.post r).Serves f r where
  requests q hq hid := by
    rcases List.mem_append.1 hq with hq | hq
    · have hissued := hh.requests q hq
      rw [hid] at hissued
      exact absurd hissued hnew
    · exact List.mem_singleton.1 hq
  replies m hm hid := by
    obtain ⟨m', hm', -, hissued⟩ := hh.events m.event hm
    rw [event_injective hm'] at hid
    exact absurd (hissued r.id hid) hnew
  present := .inl (List.mem_append_right _ (List.mem_singleton_self _))

theorem Serves.post (hs : h.Serves f r) (hne : q.id ≠ r.id) : (h.post q).Serves f r where
  requests p hp hid := by
    rcases List.mem_append.1 hp with hp | hp
    · exact hs.requests p hp hid
    · rw [List.mem_singleton.1 hp] at hid
      exact absurd hid hne
  replies := hs.replies
  present := hs.present.imp_left (List.mem_append_left _)

/-- A report about something else leaves the reply where it is. -/
theorem Serves.pop (hs : h.Serves f r) {m : HostMessage} {events : List HostEvent}
    (hm : h.events = m.event :: events) (hne : m.id? ≠ some r.id) :
    { h with events }.Serves f r where
  requests := hs.requests
  replies m' hm' := hs.replies m' (hm ▸ List.mem_cons_of_mem _ hm')
  present := by
    refine hs.present.imp_right fun hreply => ?_
    rw [hm, List.mem_cons] at hreply
    refine hreply.resolve_left fun heq => ?_
    rw [← event_injective heq, id?_reply] at hne
    exact hne rfl

/-- The worker takes the next request, which may be this one. -/
theorem Serves.served (hs : h.Serves f r) (hreporting : h.reporting = true)
    {requests : List HostRequest} (hq : h.requests = q :: requests) (w : Worker Nat) :
    (h.served (w.sayings f q)).Serves f r := by
  have hevents : (h.served (w.sayings f q)).events =
      h.events ++ (w.sayings f q).map HostMessage.event := if_pos hreporting
  -- the next request can only have this id if it is this request
  have hhead : q.id = r.id → q = r := hs.requests q (hq ▸ List.mem_cons_self ..)
  refine ⟨fun p hp => hs.requests p (List.mem_of_mem_tail hp), ?_, ?_⟩
  · intro m hm hid
    rw [hevents, List.mem_append, List.mem_map] at hm
    rcases hm with hm | ⟨m', hm', heq⟩
    · exact hs.replies m hm hid
    · rw [event_injective heq] at hm'
      rcases Worker.mem_sayings hm' with rfl | hm'
      · rw [id?_reply, Option.some.injEq] at hid
        rw [hhead hid]
      · rw [id?_of_mem_greeting hm'] at hid
        cases hid
  · rw [hevents]
    rcases hs.present with hr | hr
    · rw [hq, List.mem_cons] at hr
      rcases hr with rfl | hr
      · right
        exact List.mem_append_right _ (List.mem_map_of_mem (Worker.reply_mem_sayings f w r))
      · left
        change r ∈ h.requests.tail
        rw [hq]
        exact hr
    · exact .inr (List.mem_append_left _ hr)

end HostLink

namespace Bridge

variable {setup : BridgeSetup} {b c : Bridge} {a : BridgeAction} {g : Nat} {h : HostLink}

/-! ## What an action does to the host -/

/-- What an action does to the host `h` of generation `g`, as long as that host stays. -/
inductive Goes (setup : BridgeSetup) (b : Bridge) (g : Nat) (h : HostLink) :
    BridgeAction → HostLink → Prop
  /-- Nothing is posted and no message is heard. -/
  | stays {a : BridgeAction} (hquiet : ∀ g', a = .dispatch g' → b.routed? g' = none) :
      Goes setup b g h a h
  | posts (kind : RequestKind) (payload : Json) :
      Goes setup b g h (.begin (.send kind payload))
        (h.post ⟨kind, setup.requestId (b.issued + 1), payload⟩)
  | hears {m : HostMessage} {events : List HostEvent} (hm : h.events = m.event :: events)
      (hrouted : b.routed? g = some m) : Goes setup b g h (.dispatch g) { h with events }

theorem host?_of_hosts (h : c.hosts = b.hosts) (g : Nat) : c.host? g = b.host? g := by
  unfold host?
  rw [h]

/-- Acting on a message changes no host. -/
theorem hosts_route_event (b : Bridge) (g : Nat) (m : HostMessage) :
    (b.route g m.event).hosts = b.hosts := by
  unfold HostMessage.event route
  dsimp only
  rw [decode_of_toJson]
  cases m with
  | status s => rfl
  | result id payload => exact hosts_resolve b g id _
  | error id message => exact hosts_resolve b g id _

theorem routed?_of_event (hh : b.host? g = some h) (hl : h.listening = true) {m : HostMessage}
    {events : List HostEvent} (hm : h.events = m.event :: events) : b.routed? g = some m := by
  unfold routed?
  rw [hh]
  dsimp only
  rw [hl, hm]
  exact congrArg Except.toOption (decode_of_toJson m)

/-- The bridge dispatches nothing for other hosts. -/
theorem Attached.dispatch_of_ne (hb : b.Attached) (hg : b.connection = some g) {g' : Nat}
    (hne : g' ≠ g) : b.dispatch g' = b ∧ b.routed? g' = none := by
  unfold dispatch routed?
  cases hh : b.host? g' with
  | none => exact ⟨rfl, rfl⟩
  | some h' =>
    have hl : h'.listening = false := by
      rw [← Bool.not_eq_true]
      intro hl
      have hconnected := hb h' (List.mem_of_find?_eq_some hh) hl
      rw [hg, generation_of_host? hh, Option.some.injEq] at hconnected
      exact hne hconnected.symm
    simp [hl]

/-- The next message of a healthy host is taken and acted on. -/
theorem dispatch_of_event (hh : b.host? g = some h) (hl : h.listening = true) {m : HostMessage}
    {events : List HostEvent} (hm : h.events = m.event :: events) :
    b.dispatch g = (b.updateHost g fun h => { h with events }).route g m.event := by
  unfold dispatch
  rw [hh]
  dsimp only
  rw [if_pos hl, hm]

theorem dispatch_of_silence (hh : b.host? g = some h) (hr : h.reporting = true)
    (hm : h.events = []) : b.dispatch g = b := by
  unfold dispatch
  rw [hh]
  dsimp only
  rw [hm]
  dsimp only
  rw [if_pos hr, ite_self]

/-- A call to start a host that is not idle is over at once, with a good answer if there was no
error. -/
theorem begin_init_of_not_idle (setup : BridgeSetup) (hidle : b.status.phase ≠ .idle) :
    ∃ answer : Answer, (b.status.phase ≠ .error → answer = .ok .null) ∧
      b.step setup (.begin .init) = { b with calls := b.calls ++ [.finished answer] } := by
  unfold step begin
  dsimp only
  rw [init_of_not_idle setup hidle]
  exact ⟨_, fun herror => if_neg herror, rfl⟩

/-- A send to a host that takes requests posts its request and waits. -/
theorem begin_send_of_accepts (setup : BridgeSetup) (h : b.Accepts g) (kind : RequestKind)
    (payload : Json) :
    b.step setup (.begin (.send kind payload)) =
      { b.posted setup g kind payload with
        calls := b.calls ++ [.waiting (setup.requestId (b.issued + 1)) .answer
          (b.now + setup.settings.timeoutMs.toNat)] } := by
  unfold step begin
  dsimp only
  rw [ask_of_accepts setup h]
  rfl

theorem host?_posted (setup : BridgeSetup) (hh : b.host? g = some h) (kind : RequestKind)
    (payload : Json) :
    (b.posted setup g kind payload).host? g =
      some (h.post ⟨kind, setup.requestId (b.issued + 1), payload⟩) :=
  host?_updateHost_self (f := fun h => h.post _) (fun _ => rfl) hh

/-- Of all hosts only the connected one is heard, and of its reports the first. -/
theorem goes_of_dispatch (hattached : b.Attached) (hg : b.connection = some g)
    (hh : b.host? g = some h) (hhealthy : h.Healthy setup b.ledger) (generation : Nat) :
    (b.dispatch generation).connection = some g ∧
      ∃ h', (b.dispatch generation).host? g = some h' ∧
        Goes setup b g h (.dispatch generation) h' := by
  refine ⟨(keeps_dispatch b generation).connection.trans hg, ?_⟩
  by_cases hne : generation = g
  · subst hne
    cases hevents : h.events with
    | nil =>
      have hquiet : b.routed? generation = none := by
        unfold routed?
        rw [hh]
        dsimp only
        rw [hhealthy.listening, hevents]
      rw [dispatch_of_silence hh hhealthy.reporting hevents]
      refine ⟨h, hh, .stays ?_⟩
      rintro g' heq
      cases heq
      exact hquiet
    | cons e events =>
      obtain ⟨m, rfl, -⟩ := hhealthy.events e (hevents ▸ List.mem_cons_self ..)
      rw [dispatch_of_event hh hhealthy.listening hevents]
      have hrouted := routed?_of_event hh hhealthy.listening hevents
      refine ⟨{ h with events }, ?_, .hears hevents hrouted⟩
      rw [host?_of_hosts (hosts_route_event _ _ _)]
      exact host?_updateHost_self (f := fun h => { h with events }) (fun _ => rfl) hh
  · obtain ⟨hdispatch, hrouted⟩ := hattached.dispatch_of_ne hg hne
    rw [hdispatch]
    refine ⟨h, hh, .stays ?_⟩
    rintro g' heq
    cases heq
    exact hrouted

/-- A calm action leaves a healthy host connected, and does one of three things to it. -/
theorem goes_of_calm (hattached : b.Attached) (hidle : b.status.phase ≠ .idle)
    (hg : b.connection = some g) (hh : b.host? g = some h)
    (hhealthy : h.Healthy setup b.ledger) (ha : a.Calm) :
    (b.step setup a).connection = some g ∧
      ∃ h', (b.step setup a).host? g = some h' ∧ Goes setup b g h a h' := by
  cases a with
  | begin request =>
    cases request with
    | init =>
      change (b.init setup).1.connection = some g ∧ ∃ h', (b.init setup).1.host? g = some h' ∧ _
      rw [init_of_not_idle setup hidle]
      exact ⟨hg, h, hh, .stays nofun⟩
    | restart => exact ha.elim
    | send kind payload =>
      have haccepts : b.Accepts g := ⟨hg, h, hh, hhealthy.accepting⟩
      rw [begin_send_of_accepts setup haccepts]
      exact ⟨hg, _, host?_posted setup hh kind payload, .posts kind payload⟩
  | dispatch generation => exact goes_of_dispatch hattached hg hh hhealthy generation
  | abandon call =>
    refine ⟨(keeps_abandon b call).connection.trans hg, h, ?_, .stays nofun⟩
    exact (host?_of_hosts (hosts_abandon b call) g).trans hh
  | resume call =>
    refine ⟨(keeps_resume b call).connection.trans hg, h, ?_, .stays nofun⟩
    exact (host?_of_hosts (hosts_resume b call) g).trans hh
  | expire call =>
    refine ⟨(keeps_expire setup b call).connection.trans hg, h, ?_, .stays nofun⟩
    exact (host?_of_hosts (hosts_expire b call) g).trans hh
  | elapse ms => exact ⟨hg, h, hh, .stays nofun⟩
  | _ => exact ha.elim

end Bridge

end Chalkboard
