import Chalkboard.Proofs.Bridge.Shutdown
import Chalkboard.Proofs.Engine.Link

/-!
# Bridges whose hosts are workers

Whatever callers do, a bridge whose hosts all compute a function stays sound (`Bridge.Sound.step`,
`Bridge.Sound.served`): the connected host is healthy and of the last generation, an idle bridge has
no host, and every caller that still has to say what became of the host will get a good handshake. A
call that has to do with a request gets the outcome that the function has for it (`Bridge.Handled`).
-/

namespace Chalkboard

theorem BridgeAction.Calm.proper {a : BridgeAction} (h : a.Calm) : a.Proper := by
  cases a with
  | begin request => trivial
  | _ => first | exact h | trivial

namespace Bridge

variable {setup : BridgeSetup} {f : Computation} {b : Bridge} {a : BridgeAction} {n : Nat}
  {purpose : Purpose} {r : HostRequest}

/-! ## Calls whose request is handled -/

/-- The call waits for a request that the connected host serves, or has got its outcome. -/
inductive Handled (f : Computation) (b : Bridge) (n : Nat) (purpose : Purpose) (r : HostRequest) :
    Prop
  | underway {g deadline : Nat} {h : HostLink}
      (hstands : b.ledger.Stands ⟨n, r.id, r.kind, g, deadline⟩)
      (hpurpose : b.ledger.purpose? n = some purpose) (hg : b.connection = some g)
      (hh : b.host? g = some h) (hserves : h.Serves f r)
  | answered (hcall : b.calls[n]? = some (.answered r.id purpose (outcome f r)))

/-- The host of the last generation is healthy, and whoever has to say what became of it will get a
good handshake. -/
structure Connected (setup : BridgeSetup) (f : Computation) (b : Bridge) : Prop where
  linked : ∀ g, b.connection = some g →
    g = b.generation ∧ ∃ h, b.host? g = some h ∧ h.Healthy setup b.ledger
  greeted : b.connection ≠ none → ∀ n, b.Undecided n →
    ∃ id, Handled f b n (.handshake b.generation) ⟨.init, id, .null⟩

/-- The invariant of a bridge whose hosts compute `f`. -/
structure Sound (setup : BridgeSetup) (f : Computation) (b : Bridge) : Prop
    extends Connected setup f b where
  exact : b.ledger.Exact setup
  attached : b.Attached
  counted : b.Counted
  idle : b.status.phase = .idle → b.connection = none
  /-- Nobody waits for a handshake of a later generation. -/
  dated : ∀ n g, b.ledger.purpose? n = some (.handshake g) → g ≤ b.generation

/-- What a caller waits for, it waits for with the purpose that it has. -/
theorem waiting_of_stands {s : Sending} (hs : b.ledger.Stands s)
    (hpurpose : b.ledger.purpose? s.call = some purpose) :
    b.calls[s.call]? = some (.waiting s.id purpose s.deadline) := by
  obtain ⟨-, p, hc⟩ := hs
  rw [Ledger.purpose?, hc] at hpurpose
  cases hpurpose
  exact hc

theorem Sound.not_idle (hb : b.Sound setup f) (hg : b.connection ≠ none) :
    b.status.phase ≠ .idle :=
  fun hidle => hg (hb.idle hidle)

/-- A calm action by which nothing is heard removes the request of no other caller. -/
theorem removal?_of_quiet (ha : a.Calm) {s : Sending} (hn : ¬a.Touches s.call)
    (hquiet : ∀ g, a = .dispatch g → b.routed? g = none) : removal? setup b s a = none := by
  cases a with
  | dispatch generation =>
    dsimp only [removal?]
    rw [hquiet generation rfl, if_neg (by simp)]
  | begin request =>
    cases request with
    | restart => exact ha.elim
    | init => rfl
    | send => rfl
  | expire call =>
    dsimp only [removal?]
    rw [if_neg]
    rintro ⟨rfl, -⟩
    exact hn (.inr (.inl rfl))
  | abandon call =>
    dsimp only [removal?]
    rw [if_neg]
    rintro rfl
    exact hn (.inr (.inr rfl))
  | resume call => rfl
  | elapse ms => rfl
  | _ => exact ha.elim

/-- An answer stays with its caller until the caller goes on. -/
theorem answered_of_calm {id : RequestId} {answer : Answer} (ha : a.Calm) (hn : ¬a.Touches n)
    (hcall : b.calls[n]? = some (.answered id purpose answer)) :
    (b.step setup a).calls[n]? = some (.answered id purpose answer) := by
  have hdrop : a ≠ .drop := by
    rintro rfl
    exact ha
  have hcall : b.ledger.calls[n]? = some (.answered id purpose answer) := hcall
  obtain ⟨c', hnext, hc'⟩ :
      ∃ c', Continues _ c' ∧ (b.step setup a).ledger.calls[n]? = some c' :=
    done_step hcall (fun _ _ _ h => by cases h) a
  -- the caller still has its purpose, so it did not go on
  have hkept := purpose?_kept setup (Ledger.purpose?_of_getElem? hcall) hn hdrop
  rw [Ledger.purpose?_of_getElem? hc'] at hkept
  cases hnext with
  | stays => exact hc'
  | returns => cases hkept
  | leaves => cases hkept

/-- When the host's reply is heard, the caller that waits for it has the outcome. -/
theorem answered_of_reply {g deadline : Nat} (hrouted : b.routed? g = some (reply f r))
    (hstands : b.ledger.Stands ⟨n, r.id, r.kind, g, deadline⟩)
    (hpurpose : b.ledger.purpose? n = some purpose) :
    (b.step setup (.dispatch g)).calls[n]? = some (.answered r.id purpose (outcome f r)) := by
  have hdispatch : (b.step setup (.dispatch g)).ledger = b.ledger.settle r.id (outcome f r) := by
    rw [Bridge.step, ledger_dispatch, hrouted, Option.bind_some, answer?_reply]
    exact if_pos ⟨_, hstands.1, rfl, rfl⟩
  change (b.step setup (.dispatch g)).ledger.calls[n]? = _
  rw [hdispatch]
  exact Ledger.getElem?_deliver_self (waiting_of_stands hstands hpurpose)

/-- A calm action that does not concern the caller keeps its request handled. -/
theorem Handled.step (hinj : Function.Injective setup.requestId) (hb : b.Sound setup f)
    (hconnected : b.connection ≠ none) (ha : a.Calm) (hn : ¬a.Touches n)
    (h : Handled f b n purpose r) : Handled f (b.step setup a) n purpose r := by
  cases h with
  | answered hcall => exact .answered (answered_of_calm ha hn hcall)
  | @underway g deadline h hstands hpurpose hg hh hserves =>
    have hdrop : a ≠ .drop := by
      rintro rfl
      exact ha
    have hpurpose' := purpose?_kept setup hpurpose hn hdrop
    obtain ⟨-, h₁, hh₁, hhealthy⟩ := hb.linked g hg
    cases hh.symm.trans hh₁
    obtain ⟨hg', h', hh', hgoes⟩ :=
      goes_of_calm hb.attached (hb.not_idle hconnected) hg hh hhealthy ha
    -- the request stays in the table unless it is answered, and then the call has the answer
    have hwaits : removal? setup b ⟨n, r.id, r.kind, g, deadline⟩ a = none → h'.Serves f r →
        Handled f (b.step setup a) n purpose r := by
      intro hkept hserves'
      have hstands' := (stands_step_iff hinj hb.exact a).2 (.inr ⟨hstands, hkept⟩)
      exact .underway hstands' hpurpose' hg' hh' hserves'
    cases hgoes with
    | stays hquiet => exact hwaits (removal?_of_quiet ha hn hquiet) hserves
    | posts kind payload =>
      refine hwaits rfl (hserves.post fun heq => ?_)
      have hissued : b.ledger.Issued setup r.id := hb.exact.known.pending _ hstands.1
      rw [← heq] at hissued
      exact Ledger.not_issued_next hinj hissued
    | @hears m events hm hrouted =>
      by_cases hid : m.id? = some r.id
      · have hreply : m = reply f r := hserves.replies m (hm ▸ List.mem_cons_self ..) hid
        exact .answered (answered_of_reply (hreply ▸ hrouted) hstands hpurpose)
      · refine hwaits ?_ (hserves.pop hm hid)
        dsimp only [removal?]
        rw [hrouted, Option.bind_some, if_neg]
        rintro ⟨-, heq⟩
        exact hid heq

/-! ## A host that was started -/

/-- What a call makes of the bridge that starts a host. -/
def started (setup : BridgeSetup) (b : Bridge) : Bridge :=
  { (b.startHost setup).1 with calls := (b.startHost setup).1.calls ++ [(b.startHost setup).2] }

theorem begin_init_of_idle_eq (setup : BridgeSetup) (hidle : b.status.phase = .idle) :
    ∃ board : StatusBoard, board.status = ⟨.loading, "Starting computation host"⟩ ∧
      b.step setup (.begin .init) = started setup { b with board } := by
  obtain ⟨board, hboard, hinit⟩ := init_of_idle setup hidle
  refine ⟨board, hboard, ?_⟩
  unfold step begin started
  dsimp only
  rw [hinit]

/-- The new host has got its handshake, and the call waits for it. -/
theorem started_of_spawned (hcounted : b.Counted)
    (hspawn : setup.refusal (b.generation + 1) = none) :
    b.started setup =
      { b.renewed.posted setup (b.generation + 1) .init .null with
        calls := b.calls ++ [.waiting (setup.requestId (b.issued + 1))
          (.handshake (b.generation + 1)) (b.now + setup.settings.timeoutMs.toNat)] } := by
  have hcalls : b.renewed.calls = b.calls := congrArg Ledger.calls (ledger_renewed b)
  unfold started
  rw [startHost_of_spawned hcounted hspawn, ← hcalls]
  rfl

/-- A host that cannot be started leaves an error, and the call for it is over. -/
theorem started_of_refused {e : BridgeError} (hrefused : setup.refusal (b.generation + 1) = some e) :
    b.started setup =
      { publish { b with generation := b.generation + 1 } .error e.message with
        calls := b.calls ++ [.finished (.error e)] } := by
  unfold started startHost
  dsimp only
  rw [hrefused]
  rfl

/-- Where no host was connected, one is after a start only if it could be spawned. -/
theorem refusal_of_started (hbase : b.connection = none)
    (hstarted : (b.started setup).connection ≠ none) :
    setup.refusal (b.generation + 1) = none := by
  by_contra hrefused
  obtain ⟨e, he⟩ := Option.ne_none_iff_exists'.1 hrefused
  rw [started_of_refused he] at hstarted
  exact hstarted hbase

/-- The new host is found under its generation, and has got its handshake. -/
theorem host?_started (hcounted : b.Counted) (hspawn : setup.refusal (b.generation + 1) = none) :
    (b.started setup).host? (b.generation + 1) =
      some ((HostLink.new (b.generation + 1)).post
        ⟨.init, setup.requestId (b.issued + 1), .null⟩) := by
  have hissued : b.renewed.issued = b.issued := congrArg Ledger.issued (ledger_renewed b)
  have hnew : b.renewed.host? (b.generation + 1) = some (.new (b.generation + 1)) :=
    host?_connect (b := { b with generation := b.generation + 1 })
      fun g hg => Nat.lt_succ_of_le (hcounted g hg)
  have hposted := host?_posted setup hnew .init .null
  rw [hissued] at hposted
  rw [started_of_spawned hcounted hspawn]
  exact hposted

/-- The handshake stands in the table, and whoever started the host waits for it. -/
theorem stands_started (hcounted : b.Counted)
    (hspawn : setup.refusal (b.generation + 1) = none) :
    (b.started setup).ledger.Stands
        ⟨b.calls.length, setup.requestId (b.issued + 1), .init, b.generation + 1,
          b.now + setup.settings.timeoutMs.toNat⟩ ∧
      (b.started setup).ledger.purpose? b.calls.length =
        some (.handshake (b.generation + 1)) := by
  have hissued : b.renewed.issued = b.issued := congrArg Ledger.issued (ledger_renewed b)
  have hlast : (b.started setup).calls[b.calls.length]? =
      some (.waiting (setup.requestId (b.issued + 1)) (.handshake (b.generation + 1))
        (b.now + setup.settings.timeoutMs.toNat)) := by
    rw [started_of_spawned hcounted hspawn]
    exact List.getElem?_concat_length ..
  have hentry : ⟨setup.requestId (b.issued + 1), .init, b.generation + 1⟩ ∈
      (b.started setup).pending := by
    rw [started_of_spawned hcounted hspawn, ← hissued]
    exact List.mem_append_right _ (List.mem_singleton_self _)
  exact ⟨⟨hentry, .handshake (b.generation + 1), hlast⟩, congrArg (Option.bind · Call.purpose?) hlast⟩

/-- The new host has its handshake to serve. -/
theorem handled_started (f : Computation) (hinj : Function.Injective setup.requestId)
    (hcounted : b.Counted) (hspawn : setup.refusal (b.generation + 1) = none) :
    ((b.started setup).connection = some (b.generation + 1) ∧
      (b.started setup).generation = b.generation + 1) ∧
      (∃ h, (b.started setup).host? (b.generation + 1) = some h ∧
        h.Healthy setup (b.started setup).ledger) ∧
      ∃ id, Handled f (b.started setup) b.calls.length (.handshake (b.generation + 1))
        ⟨.init, id, .null⟩ := by
  have hhost := host?_started hcounted hspawn
  obtain ⟨hstands, hpurpose⟩ := stands_started hcounted hspawn
  have hconnected : (b.started setup).connection = some (b.generation + 1) := by
    rw [started_of_spawned hcounted hspawn]
    rfl
  have hgeneration : (b.started setup).generation = b.generation + 1 := by
    rw [started_of_spawned hcounted hspawn]
    exact generation_disconnect { b with generation := b.generation + 1 }
  have hused : (b.started setup).ledger.Issued setup (setup.requestId (b.issued + 1)) := by
    have hissued : b.renewed.issued = b.issued := congrArg Ledger.issued (ledger_renewed b)
    refine ⟨b.issued + 1, ?_, rfl⟩
    rw [started_of_spawned hcounted hspawn, ← hissued]
    exact Nat.le_refl _
  -- a new host has received and reported nothing, so all it has to serve is the handshake
  have hblank (l : Ledger) : (HostLink.new (b.generation + 1)).Healthy setup l :=
    ⟨rfl, rfl, rfl, nofun, nofun⟩
  have hnew := Ledger.not_issued_next (l := b.ledger) hinj
  refine ⟨⟨hconnected, hgeneration⟩, ⟨_, hhost, (hblank _).post hused⟩,
    setup.requestId (b.issued + 1), ?_⟩
  exact .underway hstands hpurpose hconnected hhost ((hblank b.ledger).serves_post hnew)

theorem status_started (hcounted : b.Counted)
    (hspawn : setup.refusal (b.generation + 1) = none) :
    (b.started setup).status = b.status := by
  change (b.startHost setup).1.status = b.status
  rw [startHost_of_spawned hcounted hspawn]
  exact status_disconnect { b with generation := b.generation + 1 }

theorem Handled.purpose?_eq (h : Handled f b n purpose r) :
    b.ledger.purpose? n = some purpose := by
  cases h with
  | underway _ hpurpose => exact hpurpose
  | answered hc => exact Ledger.purpose?_of_getElem? (l := b.ledger) hc

/-! ## Every action -/

/-- A host that is connected after an action was connected before, or the action started it. -/
theorem connected_cases (hb : b.Sound setup f) (ha : a.Proper)
    (hconnected : (b.step setup a).connection ≠ none) :
    (b.connection ≠ none ∧ a.Calm) ∨
      ∃ request base, a = .begin request ∧ b.step setup a = started setup base ∧
        setup.refusal (base.generation + 1) = none ∧ base.Counted ∧
        base.generation = b.generation ∧ base.calls.length = b.calls.length := by
  cases a with
  | begin request =>
    cases request with
    | init =>
      by_cases hidle : b.status.phase = .idle
      · right
        obtain ⟨board, -, hstep⟩ := begin_init_of_idle_eq setup hidle
        rw [hstep] at hconnected
        exact ⟨.init, { b with board }, rfl, hstep,
          refusal_of_started (b := { b with board }) (hb.idle hidle) hconnected, hb.counted, rfl, rfl⟩
      · left
        obtain ⟨answer, -, hstep⟩ := begin_init_of_not_idle setup hidle
        rw [hstep] at hconnected
        exact ⟨hconnected, trivial⟩
    | restart =>
      right
      have hstep : b.step setup (.begin .restart) = started setup (b.vacated setup) := rfl
      rw [hstep] at hconnected
      refine ⟨.restart, b.vacated setup, rfl, hstep,
        refusal_of_started (connection_vacated b) hconnected, hb.counted.vacated setup,
        generation_vacated setup b, ?_⟩
      have hcalls := congrArg Ledger.calls (ledger_vacated setup b)
      exact (congrArg List.length hcalls).trans (length_cleared setup b .restart)
    | send kind payload =>
      left
      rw [(keeps_step setup b (a := .begin (.send kind payload)) id).connection] at hconnected
      exact ⟨hconnected, trivial⟩
  | shutdown => exact absurd (connection_disconnect b) hconnected
  | drop => exact absurd (connection_disconnect _) hconnected
  | abandon call => exact .inl ⟨(keeps_abandon b call).connection ▸ hconnected, trivial⟩
  | resume call => exact .inl ⟨(keeps_resume b call).connection ▸ hconnected, trivial⟩
  | expire call => exact .inl ⟨(keeps_expire setup b call).connection ▸ hconnected, trivial⟩
  | dispatch g => exact .inl ⟨(keeps_dispatch b g).connection ▸ hconnected, trivial⟩
  | elapse ms => exact .inl ⟨hconnected, trivial⟩
  | _ => exact ha.elim

theorem generation_calm (hidle : b.status.phase ≠ .idle) (ha : a.Calm) :
    (b.step setup a).generation = b.generation := by
  by_cases hrewires : Rewires a
  · cases a with
    | begin request =>
      cases request with
      | init =>
        change (b.init setup).1.generation = b.generation
        rw [init_of_not_idle setup hidle]
      | restart => exact ha.elim
      | send => exact hrewires.elim
    | shutdown => exact ha.elim
    | drop => exact ha.elim
    | _ => exact hrewires.elim
  · exact (keeps_step setup b hrewires).generation

/-- A calm action keeps the host healthy. -/
theorem Sound.healthy_calm (hb : b.Sound setup f) {g : Nat} (hg : b.connection = some g)
    (ha : a.Calm) :
    (b.step setup a).connection = some g ∧
      ∃ h, (b.step setup a).host? g = some h ∧ h.Healthy setup (b.step setup a).ledger := by
  have hidle : b.status.phase ≠ .idle := hb.not_idle (by rw [hg]; nofun)
  obtain ⟨-, h, hh, hhealthy⟩ := hb.linked g hg
  have hlater : h.Healthy setup (b.step setup a).ledger :=
    hhealthy.mono fun id hid => issued_step hid a
  obtain ⟨hg', h', hh', hgoes⟩ := goes_of_calm hb.attached hidle hg hh hhealthy ha
  refine ⟨hg', h', hh', ?_⟩
  cases hgoes with
  | stays => exact hlater
  | hears hm => exact hlater.pop hm
  | posts kind payload =>
    apply hlater.post
    rw [begin_send_of_accepts setup ⟨hg, h, hh, hhealthy.accepting⟩]
    exact ⟨b.issued + 1, Nat.le_refl _, rfl⟩

/-- A calm action keeps every undecided caller's handshake handled. -/
theorem Sound.greeted_calm (hinj : Function.Injective setup.requestId) (hb : b.Sound setup f)
    (hconnected : b.connection ≠ none) (ha : a.Calm)
    (hgeneration : (b.step setup a).generation = b.generation) (hn : (b.step setup a).Undecided n) :
    ∃ id, Handled f (b.step setup a) n (.handshake b.generation) ⟨.init, id, .null⟩ := by
  rw [Undecided, hgeneration] at hn
  by_cases htouches : a.Touches n
  · rcases eq_or_over_of_touches setup b htouches with hsame | hover
    · rw [hsame] at hn ⊢
      exact hb.greeted hconnected n hn
    · rw [hover] at hn
      cases hn
  · have hbefore : b.Undecided n := by
      by_cases hbegin : ∃ request, a = .begin request
      · obtain ⟨request, rfl⟩ := hbegin
        rcases purpose?_begin hn with hbefore | ⟨-, hanswer | ⟨hnext, -⟩⟩
        · exact hbefore
        · cases hanswer
        · injection hnext with hnext
          omega
      · exact purpose?_before (fun request heq => hbegin ⟨request, heq⟩) hn
    obtain ⟨id, hhandled⟩ := hb.greeted hconnected n hbefore
    exact ⟨id, hhandled.step hinj hb hconnected ha htouches⟩

/-- No host says that it is idle. -/
theorem Sound.mild (hb : b.Sound setup f) (hconnected : b.connection ≠ none) {g : Nat}
    {m : HostMessage} (hrouted : b.routed? g = some m) : m.Mild := by
  obtain ⟨g', hg⟩ := Option.ne_none_iff_exists'.1 hconnected
  have hsame : g = g' := by
    by_contra hne
    rw [(hb.attached.dispatch_of_ne hg hne).2] at hrouted
    cases hrouted
  subst hsame
  obtain ⟨-, h, hh, hhealthy⟩ := hb.linked g hg
  cases hevents : h.events with
  | nil =>
    unfold routed? at hrouted
    rw [hh] at hrouted
    dsimp only at hrouted
    rw [hhealthy.listening, hevents] at hrouted
    cases hrouted
  | cons e events =>
    obtain ⟨m', rfl, hmild, -⟩ := hhealthy.events e (hevents ▸ List.mem_cons_self ..)
    rw [routed?_of_event hh hhealthy.listening hevents, Option.some.injEq] at hrouted
    rwa [← hrouted]

theorem Sound.connected_step (hinj : Function.Injective setup.requestId) (hb : b.Sound setup f)
    (ha : a.Proper) : Connected setup f (b.step setup a) := by
  by_cases hconnected : (b.step setup a).connection = none
  · constructor
    · intro g hg
      rw [hconnected] at hg
      cases hg
    · exact fun hc => absurd hconnected hc
  rcases connected_cases hb ha hconnected with
    ⟨hbefore, hcalm⟩ | ⟨request, base, rfl, hstep, hspawn, hcounted, hgeneration, hlen⟩
  · obtain ⟨g₀, hg₀⟩ := Option.ne_none_iff_exists'.1 hbefore
    obtain ⟨hg₁, hhealthy⟩ := hb.healthy_calm hg₀ hcalm
    have hsame : (b.step setup a).generation = b.generation :=
      generation_calm (hb.not_idle hbefore) hcalm
    constructor
    · intro g hg
      cases hg₁.symm.trans hg
      exact ⟨(hb.linked g₀ hg₀).1.trans hsame.symm, hhealthy⟩
    · intro _ n hn
      rw [hsame]
      exact hb.greeted_calm hinj hbefore hcalm hsame hn
  · obtain ⟨⟨hg₁, hnow⟩, hhealthy, hhandled⟩ := handled_started f hinj hcounted hspawn
    rw [← hstep] at hg₁ hnow hhealthy hhandled
    constructor
    · intro g hg
      cases hg₁.symm.trans hg
      exact ⟨hnow.symm, hhealthy⟩
    · intro _ n hn
      rw [Undecided, hnow] at hn
      -- only the new call can wait for the handshake of the new host
      rcases purpose?_begin hn with hbefore | ⟨hlast, -⟩
      · have := hb.dated n _ hbefore
        omega
      · rw [hnow, hlast, ← hlen]
        exact hhandled

/-- Every action keeps a bridge sound. -/
theorem Sound.step (hinj : Function.Injective setup.requestId) (hb : b.Sound setup f)
    (ha : a.Proper) : (b.step setup a).Sound setup f := by
  -- the generation never falls, so no call waits for a handshake of a later one
  have hmono : b.generation ≤ (b.step setup a).generation := by
    rcases b.spawned_step setup a with ⟨hgeneration, -⟩ | ⟨hgeneration, -⟩ <;> omega
  have hdated : ∀ n g, (b.step setup a).ledger.purpose? n = some (.handshake g) →
      g ≤ (b.step setup a).generation := by
    intro n g hn
    by_cases hbegin : ∃ request, a = .begin request
    · obtain ⟨request, rfl⟩ := hbegin
      rcases purpose?_begin hn with hbefore | ⟨-, hanswer | ⟨hnext, hgeneration⟩⟩
      · exact Nat.le_trans (hb.dated n g hbefore) hmono
      · cases hanswer
      · injection hnext with hnext
        omega
    · have hbefore := purpose?_before (fun request heq => hbegin ⟨request, heq⟩) hn
      exact Nat.le_trans (hb.dated n g hbefore) hmono
  -- only a host could make a connected bridge idle, and no host says so
  have hidle : (b.step setup a).status.phase = .idle → (b.step setup a).connection = none := by
    intro hidle
    by_contra hconnected
    rcases idle_of_step hidle hconnected with ⟨hbefore, hc⟩ | ⟨g, s, rfl, hs, hphase⟩
    · exact hc (hb.idle hbefore)
    · have hc : b.connection ≠ none := (keeps_dispatch b g).connection ▸ hconnected
      rcases hb.mild hc hs with hmild | hmild
      · rw [hmild] at hphase
        cases hphase
      · rw [hmild] at hphase
        cases hphase
  exact
    { toConnected := hb.connected_step hinj ha
      exact := exact_step hinj hb.exact a
      attached := attached_step hb.attached a
      counted := hb.counted.step a
      idle := hidle
      dated := hdated }

theorem sound_initial (setup : BridgeSetup) (f : Computation) : initial.Sound setup f where
  exact := exact_initial setup
  attached h hh := by cases hh
  counted g hg := by cases hg
  idle _ := rfl
  dated n g hn := by cases hn
  linked g hg := by cases hg
  greeted hc := absurd rfl hc

/-! ## The worker takes a request -/

theorem updateHost_updateHost (b : Bridge) (g : Nat) {f f' : HostLink → HostLink}
    (hf : ∀ h, (f h).generation = h.generation) :
    (b.updateHost g f).updateHost g f' = b.updateHost g (f' ∘ f) := by
  unfold updateHost
  rw [List.map_map]
  congr 1
  apply List.map_congr_left
  intro h _
  dsimp only [Function.comp_apply]
  by_cases hg : h.generation = g
  · rw [if_pos hg, if_pos ((hf h).trans hg), if_pos hg]
  · rw [if_neg hg, if_neg hg, if_neg hg]

/-- Reports arrive one after the other, as long as the host can report. -/
theorem run_reports (setup : BridgeSetup) (b : Bridge) (g : Nat) (events : List HostEvent) :
    b.run setup (events.map (BridgeAction.report g)) =
      b.updateHost g fun h =>
        { h with events := if h.reporting then h.events ++ events else h.events } := by
  induction events generalizing b with
  | nil =>
    unfold updateHost run
    simp
  | cons e events ih =>
    change (b.step setup (.report g e)).run setup (events.map (BridgeAction.report g)) = _
    rw [ih]
    unfold step
    dsimp only
    rw [updateHost_updateHost _ _ fun h => by split <;> rfl]
    congr 1
    funext h
    dsimp only [Function.comp_apply]
    cases hr : h.reporting <;> simp [hr]

/-- The worker of a host takes the next request and says something. -/
theorem run_served (setup : BridgeSetup) (b : Bridge) (g : Nat) (messages : List HostMessage) :
    b.run setup (.take g :: (messages.map HostMessage.event).map (BridgeAction.report g)) =
      b.updateHost g fun h => h.served messages := by
  change (b.step setup (.take g)).run setup _ = _
  rw [run_reports]
  unfold step
  dsimp only
  rw [updateHost_updateHost b g (f := fun h => { h with requests := h.requests.tail })
    fun _ => rfl]
  rfl

section Served

variable {g : Nat} {h : HostLink} {q : HostRequest} {requests : List HostRequest}

theorem Handled.served (hb : b.Sound setup f) (hg : b.connection = some g)
    (hh : b.host? g = some h) (hq : h.requests = q :: requests) (w : Worker Nat)
    (hr : Handled f b n purpose r) :
    Handled f (b.updateHost g fun h => h.served (w.sayings f q)) n purpose r := by
  cases hr with
  | answered hcall => exact .answered hcall
  | underway hstands hpurpose hg' hh' hserves =>
    cases hg.symm.trans hg'
    cases hh.symm.trans hh'
    obtain ⟨-, h₁, hh₁, hhealthy⟩ := hb.linked g hg
    cases hh.symm.trans hh₁
    refine .underway hstands hpurpose hg ?_ (hserves.served hhealthy.reporting hq w)
    exact host?_updateHost_self (f := fun h => h.served _) (fun _ => rfl) hh

/-- The worker keeps the bridge sound. -/
theorem Sound.served (hb : b.Sound setup f) (hg : b.connection = some g)
    (hh : b.host? g = some h) (hq : h.requests = q :: requests) (w : Worker Nat) :
    (b.updateHost g fun h => h.served (w.sayings f q)).Sound setup f where
  exact := hb.exact
  attached := by
    have hkeeps := keeps_updateHost b g (f := fun h => h.served (w.sayings f q))
      fun _ => ⟨rfl, id⟩
    exact hkeeps.attached hb.attached
  counted g' hg' := by
    rw [spawned_updateHost b g (f := fun h => h.served _) fun _ => rfl] at hg'
    exact hb.counted g' hg'
  idle := hb.idle
  dated := hb.dated
  linked g' hg' := by
    cases hg.symm.trans hg'
    obtain ⟨hgeneration, h₁, hh₁, hhealthy⟩ := hb.linked g hg
    cases hh.symm.trans hh₁
    refine ⟨hgeneration, h.served (w.sayings f q), ?_, hhealthy.served hq w⟩
    exact host?_updateHost_self (f := fun h => h.served _) (fun _ => rfl) hh
  greeted hc n hn := by
    obtain ⟨id, hid⟩ := hb.greeted hc n hn
    exact ⟨id, hid.served hb hg hh hq w⟩

end Served

end Bridge

end Chalkboard
