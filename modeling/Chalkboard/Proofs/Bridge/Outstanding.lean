import Chalkboard.Proofs.Bridge.Correlation
import Chalkboard.Proofs.Bridge.Hosts
import Chalkboard.Proofs.Bridge.Table

/-!
# Requests that are outstanding

A request is posted once and removed once. `Bridge.Posts` says what posting is, in terms of the host
and the caller; `Bridge.removal?` says what removes a request, without a look at the table. The
requests that were posted and not removed since are exactly those in the table
(`Bridge.pending_exact`).
-/

namespace Chalkboard

/-- A request is given by its call, its entry and its deadline. -/
theorem Sending.eq_of_entry {s r : Sending} (hentry : s.entry = r.entry) (hcall : s.call = r.call)
    (hdeadline : s.deadline = r.deadline) : s = r := by
  cases s
  cases r
  cases hentry
  cases hcall
  cases hdeadline
  rfl

namespace Ledger

variable {setup : BridgeSetup} {l l' : Ledger} {s : Sending} {call : Nat} {id : RequestId}

/-- A request stands in the table and its caller waits for it. -/
def Stands (l : Ledger) (s : Sending) : Prop :=
  s.entry ∈ l.pending ∧ ∃ purpose, l.calls[s.call]? = some (.waiting s.id purpose s.deadline)

theorem Stands.waits (h : l.Stands s) : l.Waits s.call s.id := by
  obtain ⟨-, purpose, hc⟩ := h
  exact ⟨purpose, s.deadline, hc⟩

/-- A caller that waits stands behind its request. -/
theorem exists_stands_of_mem (h : l.Owned) {p : PendingRequest} (hp : p ∈ l.pending) :
    ∃ s : Sending, s.entry = p ∧ l.Stands s := by
  obtain ⟨call, purpose, deadline, hc⟩ := h p hp
  exact ⟨⟨call, p.id, p.kind, p.generation, deadline⟩, rfl, hp, purpose, hc⟩

/-! ## What stands after a change -/

theorem stands_settle_iff {answer : Answer} :
    (l.settle id answer).Stands s ↔ l.Stands s ∧ s.id ≠ id := by
  constructor
  · rintro ⟨hp, purpose, hc⟩
    obtain ⟨hp, hne⟩ := mem_filter_id.1 hp
    exact ⟨⟨hp, purpose, (getElem?_deliver_eq_waiting_iff.1 hc).1⟩, hne⟩
  · rintro ⟨⟨hp, purpose, hc⟩, hne⟩
    exact ⟨mem_filter_id.2 ⟨hp, hne⟩, purpose, getElem?_deliver_eq_waiting_iff.2 ⟨hc, hne⟩⟩

theorem not_stands_settleAll {answer : RequestId → Answer} : ¬(l.settleAll answer).Stands s := by
  rintro ⟨hp, -⟩
  cases hp

/-- A caller that has its answer stands behind no request. -/
theorem stands_record_iff {purpose : Purpose} {answer : Answer}
    (hcall : l.calls[call]? = some (.answered id purpose answer)) {c : Call} (hc : c.id? = none) :
    (l.record call c).Stands s ↔ l.Stands s := by
  constructor
  · rintro ⟨hp, p, hwaiting⟩
    rw [record, List.getElem?_set] at hwaiting
    split at hwaiting
    · split at hwaiting
      · cases hwaiting
        cases hc
      · cases hwaiting
    · exact ⟨hp, p, hwaiting⟩
  · intro h
    have hne : s.call ≠ call := h.waits.ne_of_answered hcall
    obtain ⟨hp, p, hwaiting⟩ := h
    refine ⟨hp, p, ?_⟩
    rw [record, List.getElem?_set_ne hne.symm]
    exact hwaiting

/-- The end of a call that waits takes one request out of the table. -/
theorem stands_close_iff (h : l.Exact setup) (hcall : l.Waits call id) {c : Call}
    (hc : c.id? = none) : (l.close call id c).Stands s ↔ l.Stands s ∧ s.call ≠ call := by
  constructor
  · rintro ⟨hp, purpose, hwaiting⟩
    have hne : s.call ≠ call := ((waits_close_iff hc).1 ⟨purpose, s.deadline, hwaiting⟩).2
    rw [close, List.getElem?_set_ne hne.symm] at hwaiting
    exact ⟨⟨(mem_filter_id.1 hp).1, purpose, hwaiting⟩, hne⟩
  · rintro ⟨hs, hne⟩
    have hid : s.id ≠ id := by
      rintro rfl
      exact hne (h.waits_inj hs.waits hcall)
    obtain ⟨hp, purpose, hwaiting⟩ := hs
    refine ⟨mem_filter_id.2 ⟨hp, hid⟩, purpose, ?_⟩
    rw [close, List.getElem?_set_ne hne.symm]
    exact hwaiting

/-- A request that stands is known by its id. -/
theorem Exact.stands_inj {r : Sending} (h : l.Exact setup) (hs : l.Stands s) (hr : l.Stands r)
    (hid : s.id = r.id) : s = r := by
  have hentry : s.entry = r.entry := h.eq_of_id_eq hs.1 hr.1 hid
  have hcall : s.call = r.call := h.waits_inj hs.waits (hid ▸ hr.waits)
  obtain ⟨-, p, hwaiting⟩ := hs
  obtain ⟨-, p', hwaiting'⟩ := hr
  rw [hcall, hwaiting', Option.some.injEq, Call.waiting.injEq] at hwaiting
  exact Sending.eq_of_entry hentry hcall hwaiting.2.2.symm

/-- A call that is over brings no request. -/
theorem stands_append_over_iff {c : Call} (hc : c.id? = none) :
    (l.append c).Stands s ↔ l.Stands s := by
  constructor
  · rintro ⟨hp, purpose, hwaiting⟩
    rcases waits_append_iff.1 ⟨purpose, s.deadline, hwaiting⟩ with ⟨p, d, hold⟩ | ⟨-, p, d, rfl⟩
    · have hlen := (List.getElem?_eq_some_iff.1 hold).1
      rw [append, List.getElem?_append_left hlen] at hwaiting
      exact ⟨hp, purpose, hwaiting⟩
    · cases hc
  · rintro ⟨hp, purpose, hwaiting⟩
    exact ⟨hp, purpose, Bridge.getElem?_append hwaiting c⟩

/-- A new request brings itself. -/
theorem stands_asked_iff (h : l.Known setup) (hinj : Function.Injective setup.requestId)
    {r : Sending} (hid : r.id = setup.requestId (l.issued + 1)) (hcall : r.call = l.calls.length)
    {purpose : Purpose} :
    (append { l with pending := l.pending ++ [r.entry], issued := l.issued + 1 }
      (.waiting r.id purpose r.deadline)).Stands s ↔ l.Stands s ∨ s = r := by
  have hnew : ¬l.Issued setup r.id := hid ▸ not_issued_next hinj
  constructor
  · rintro ⟨hp, p, hwaiting⟩
    change s.entry ∈ l.pending ++ [r.entry] at hp
    change (l.calls ++ [_])[s.call]? = _ at hwaiting
    rw [List.getElem?_append] at hwaiting
    rw [List.mem_append, List.mem_singleton] at hp
    split at hwaiting
    · -- an old call has an old request
      left
      refine ⟨hp.resolve_right ?_, p, hwaiting⟩
      intro heq
      have hold : l.Waits s.call s.id := ⟨p, _, hwaiting⟩
      have hissued := h.calls s.id (List.mem_of_getElem? hold.getElem?_ids)
      rw [show s.id = r.id from congrArg PendingRequest.id heq] at hissued
      exact hnew hissued
    · next hle =>
      right
      rw [List.getElem?_singleton] at hwaiting
      split at hwaiting
      · next hzero =>
        have heq := Option.some.inj hwaiting
        rw [Call.waiting.injEq] at heq
        obtain ⟨hsame, -, hdeadline⟩ := heq
        have hentry : s.entry = r.entry := by
          refine hp.resolve_left fun hold => hnew ?_
          rw [hsame]
          exact h.pending s.entry hold
        exact Sending.eq_of_entry hentry (by omega) hdeadline.symm
      · cases hwaiting
  · rintro (⟨hp, p, hwaiting⟩ | rfl)
    · exact ⟨List.mem_append_left _ hp, p, Bridge.getElem?_append hwaiting _⟩
    · refine ⟨List.mem_append_right _ (List.mem_singleton_self _), purpose, ?_⟩
      rw [hcall]
      exact List.getElem?_concat_length ..

end Ledger

namespace Bridge

variable {setup : BridgeSetup} {b : Bridge} {a : BridgeAction} {s : Sending}
  {actions : List BridgeAction}

/-! ## Posting and removing -/

/-- The action posts the request: a call begins and waits, and the request is the last one that the
connected host has got. -/
structure Posts (setup : BridgeSetup) (b : Bridge) (a : BridgeAction) (s : Sending) : Prop where
  begins : ∃ request, a = .begin request
  call : s.call = b.calls.length
  waits : ∃ purpose, (b.step setup a).calls[s.call]? = some (.waiting s.id purpose s.deadline)
  connected : (b.step setup a).connection = some s.generation
  posted : ∃ h payload, (b.step setup a).host? s.generation = some h ∧
    h.requests.getLast? = some ⟨s.kind, s.id, payload⟩

/-- What takes a request out of the table. -/
inductive Removal where
  /-- The host that was asked has answered. -/
  | answered
  /-- A restart rejects it. -/
  | rejected
  /-- The host is stopped. -/
  | cancelled
  /-- Its deadline has passed. -/
  | expired
  /-- Its caller has stopped waiting. -/
  | left
  deriving DecidableEq, Repr

/-- Why an action takes a request that was posted out of the table, if it does. -/
def removal? (setup : BridgeSetup) (b : Bridge) (s : Sending) : BridgeAction → Option Removal
  | .dispatch generation =>
    if generation = s.generation ∧ (b.routed? generation).bind HostMessage.id? = some s.id then
      some .answered
    else none
  | .begin .restart => if setup.settings.rejectOnRestart then some .rejected else none
  | .shutdown => some .cancelled
  | .expire call => if call = s.call ∧ s.deadline ≤ b.now then some .expired else none
  | .abandon call => if call = s.call then some .left else none
  | .drop => some .left
  | _ => none

/-- No action of the run removes the request. -/
def Unremoved (setup : BridgeSetup) (b : Bridge) (s : Sending) (actions : List BridgeAction) :
    Prop :=
  ∀ before a rest, actions = before ++ a :: rest → removal? setup (b.run setup before) s a = none

/-- The run has posted the request and has not removed it since. -/
def Outstanding (setup : BridgeSetup) (actions : List BridgeAction) (s : Sending) : Prop :=
  ∃ before a rest, actions = before ++ a :: rest ∧ Posts setup (initial.run setup before) a s ∧
    Unremoved setup (initial.run setup (before ++ [a])) s rest

/-! ## Calls that begin -/

/-- What becomes of a call that finds the ledger `l`: it posts a request under the next id and
waits, or it is over. -/
inductive Begun (setup : BridgeSetup) (l : Ledger) (r : Bridge × Call) : Prop
  | posted (s : Sending) (purpose : Purpose) (payload : Json)
      (hid : s.id = setup.requestId (l.issued + 1)) (hcall : s.call = l.calls.length)
      (hwaits : r.2 = .waiting s.id purpose s.deadline)
      (hledger : r.1.ledger =
        { l with pending := l.pending ++ [s.entry], issued := l.issued + 1 })
      (hconnected : r.1.connection = some s.generation)
      (hposted : ∃ h, r.1.host? s.generation = some h ∧
        h.requests.getLast? = some ⟨s.kind, s.id, payload⟩)
  | ended (used : Nat) (answer : Answer) (hover : r.2 = .finished answer)
      (hledger : r.1.ledger = { l with issued := l.issued + used })

theorem begun_ask (setup : BridgeSetup) (b : Bridge) (purpose : Purpose) (kind : RequestKind)
    (payload : Json) : Begun setup b.ledger (b.ask setup purpose kind payload) := by
  by_cases haccepts : ∃ g, b.Accepts g
  · obtain ⟨g, hg⟩ := haccepts
    rw [ask_of_accepts setup hg]
    obtain ⟨hconnected, h, hhost, -⟩ := hg
    refine .posted ⟨b.calls.length, setup.requestId (b.issued + 1), kind, g,
      b.now + setup.settings.timeoutMs.toNat⟩ purpose payload rfl rfl rfl rfl hconnected ?_
    have hfound := host?_updateHost_self (f := fun h => { h with
      requests := h.requests ++ [⟨kind, setup.requestId (b.issued + 1), payload⟩] })
      (fun _ => rfl) hhost
    exact ⟨_, hfound, List.getLast?_concat ..⟩
  · obtain ⟨m, hask⟩ := ask_of_not_accepts setup (fun g hg => haccepts ⟨g, hg⟩) purpose kind payload
    rw [hask]
    exact .ended 1 _ rfl (ledger_conclude { b with issued := b.issued + 1 } _ _ _)

theorem begun_startHost (setup : BridgeSetup) (b : Bridge) :
    Begun setup b.ledger (b.startHost setup) := by
  unfold startHost
  dsimp only
  split
  · exact .ended 0 _ rfl rfl
  · have hask := begun_ask setup (connect { b with generation := b.generation + 1 }
      (b.generation + 1)) (.handshake (b.generation + 1)) .init .null
    rw [ledger_connect] at hask
    exact hask

theorem begun_init (setup : BridgeSetup) (b : Bridge) : Begun setup b.ledger (b.init setup) := by
  by_cases hidle : b.status.phase = .idle
  · obtain ⟨board, -, hinit⟩ := init_of_idle setup hidle
    rw [hinit]
    exact begun_startHost setup { b with board }
  · rw [init_of_not_idle setup hidle]
    exact .ended 0 _ rfl rfl

theorem begun_restart (setup : BridgeSetup) (b : Bridge) :
    Begun setup (b.cleared setup .restart) (b.restart setup) := by
  rw [← ledger_vacated]
  exact begun_startHost setup (b.vacated setup)

theorem begun (setup : BridgeSetup) (b : Bridge) (request : CallRequest) :
    ∃ r : Bridge × Call, Begun setup (b.cleared setup request) r ∧
      b.step setup (.begin request) = { r.1 with calls := r.1.calls ++ [r.2] } := by
  cases request with
  | init => exact ⟨_, begun_init setup b, rfl⟩
  | restart => exact ⟨_, begun_restart setup b, rfl⟩
  | send kind payload => exact ⟨_, begun_ask setup b .answer kind payload, rfl⟩

/-- A call that begins posts a request, or is over at once. -/
theorem step_begin_cases (setup : BridgeSetup) (b : Bridge) (request : CallRequest) :
    (∃ s purpose, Posts setup b (.begin request) s ∧
      s.id = setup.requestId ((b.cleared setup request).issued + 1) ∧
      (b.step setup (.begin request)).ledger =
        Ledger.append
          { b.cleared setup request with
            pending := (b.cleared setup request).pending ++ [s.entry]
            issued := (b.cleared setup request).issued + 1 }
          (.waiting s.id purpose s.deadline)) ∨
    ∃ used answer, (∀ s, ¬Posts setup b (.begin request) s) ∧
      (b.step setup (.begin request)).ledger =
        Ledger.append
          { b.cleared setup request with issued := (b.cleared setup request).issued + used }
          (.finished answer) := by
  obtain ⟨⟨c, call⟩, hbegun, hstep⟩ := begun setup b request
  have hledger : (b.step setup (.begin request)).ledger = c.ledger.append call := by
    rw [hstep]
    rfl
  cases hbegun with
  -- the call is the last one, and waits for the request
  | posted s purpose payload hid hcall hwaits hl hconnected hposted =>
    left
    dsimp only at hwaits hl hconnected hposted
    rw [hl, hwaits] at hledger
    rw [length_cleared] at hcall
    refine ⟨s, purpose, ?_, hid, hledger⟩
    have hlast : (b.step setup (.begin request)).calls[s.call]? =
        some (.waiting s.id purpose s.deadline) := by
      change (b.step setup (.begin request)).ledger.calls[s.call]? = _
      rw [hledger, hcall, ← length_cleared setup b request]
      exact List.getElem?_concat_length ..
    obtain ⟨h, hhost, hlastRequest⟩ := hposted
    exact
      { begins := ⟨request, rfl⟩
        call := hcall
        waits := ⟨purpose, hlast⟩
        connected := by rwa [hstep]
        posted := ⟨h, payload, by rwa [hstep], hlastRequest⟩ }
  | ended used answer hover hl =>
    right
    dsimp only at hover hl
    rw [hl, hover] at hledger
    refine ⟨used, answer, ?_, hledger⟩
    -- a call that is over does not wait, so nothing was posted
    intro s hs
    obtain ⟨purpose, hwaiting⟩ := hs.waits
    change (b.step setup (.begin request)).ledger.calls[s.call]? = _ at hwaiting
    rw [hledger, hs.call, ← length_cleared setup b request] at hwaiting
    have hfinished := (List.getElem?_concat_length ..).symm.trans hwaiting
    cases hfinished

/-- An action posts at most one request. -/
theorem Posts.unique {s' : Sending} (h : Posts setup b a s) (h' : Posts setup b a s') : s = s' := by
  obtain ⟨purpose, hwaiting⟩ := h.waits
  obtain ⟨purpose', hwaiting'⟩ := h'.waits
  obtain ⟨host, payload, hhost, hlast⟩ := h.posted
  obtain ⟨host', payload', hhost', hlast'⟩ := h'.posted
  have hcall : s.call = s'.call := h.call.trans h'.call.symm
  have hgeneration : s.generation = s'.generation :=
    Option.some.inj (h.connected.symm.trans h'.connected)
  rw [hcall, hwaiting', Option.some.injEq, Call.waiting.injEq] at hwaiting
  obtain ⟨hid, -, hdeadline⟩ := hwaiting
  rw [hgeneration, hhost', Option.some.injEq] at hhost
  rw [← hhost, hlast', Option.some.injEq, HostRequest.mk.injEq] at hlast
  have hentry : s.entry = s'.entry := by
    rw [Sending.entry, Sending.entry, hgeneration, ← hlast.1, ← hid]
  exact Sending.eq_of_entry hentry hcall hdeadline.symm

/-- What stands once a call has begun stood before, or the call has posted it. -/
theorem stands_begin_iff (hinj : Function.Injective setup.requestId)
    (hknown : b.ledger.Known setup) (request : CallRequest) :
    (b.step setup (.begin request)).ledger.Stands s ↔
      Posts setup b (.begin request) s ∨ (b.cleared setup request).Stands s := by
  rcases step_begin_cases setup b request with
    ⟨s', purpose, hs', hid, hl⟩ | ⟨used, answer, hnone, hl⟩
  · have hcall : s'.call = (b.cleared setup request).calls.length := by
      rw [length_cleared, hs'.call]
    rw [hl, Ledger.stands_asked_iff (known_cleared hknown request) hinj hid hcall, or_comm]
    apply or_congr_left
    constructor
    · rintro rfl
      exact hs'
    · exact fun hs => hs.unique hs'
  · rw [hl, Ledger.stands_append_over_iff rfl, or_iff_right (hnone s)]
    rfl

/-! ## Other actions -/

/-- A restart that rejects leaves no request standing. -/
theorem stands_cleared_iff (request : CallRequest) :
    (b.cleared setup request).Stands s ↔
      b.ledger.Stands s ∧ removal? setup b s (.begin request) = none := by
  cases request with
  | init => exact (and_iff_left rfl).symm
  | send kind payload => exact (and_iff_left rfl).symm
  | restart =>
    unfold cleared removal?
    dsimp only
    split
    · constructor
      · intro h
        exact absurd h Ledger.not_stands_settleAll
      · rintro ⟨-, hnone⟩
        cases hnone
    · exact (and_iff_left rfl).symm

/-- The id of what a dispatch routes is the id of the request that it answers. -/
theorem routed_id (b : Bridge) (generation : Nat) :
    (b.routed? generation).bind HostMessage.id? =
      ((b.routed? generation).bind HostMessage.answer?).map Prod.fst := by
  cases b.routed? generation with
  | none => rfl
  | some m => cases m <;> rfl

/-- A report removes the request that it answers, if that waits for the host that reports. -/
theorem stands_dispatch_iff (h : b.ledger.Exact setup) (generation : Nat) :
    (b.dispatch generation).ledger.Stands s ↔
      b.ledger.Stands s ∧ removal? setup b s (.dispatch generation) = none := by
  have hremoval : removal? setup b s (.dispatch generation) = none ↔
      ¬(generation = s.generation ∧
        ((b.routed? generation).bind HostMessage.answer?).map Prod.fst = some s.id) := by
    dsimp only [removal?]
    rw [← routed_id, ite_eq_right_iff]
    constructor
    · intro hnone heq
      cases hnone heq
    · intro hnot heq
      exact absurd heq hnot
  rw [ledger_dispatch, hremoval]
  cases (b.routed? generation).bind HostMessage.answer? with
  | none =>
    dsimp only [settleIf]
    symm
    apply and_iff_left_of_imp
    rintro - ⟨-, heq⟩
    cases heq
  | some x =>
    obtain ⟨id, answer⟩ := x
    rw [Option.map_some, Option.some.injEq]
    dsimp only [settleIf]
    split
    · next hwaits =>
      rw [Ledger.stands_settle_iff]
      apply and_congr_right
      intro hs
      obtain ⟨p, hp, hid, hgeneration⟩ := hwaits
      constructor
      · rintro hne ⟨-, heq⟩
        exact hne heq.symm
      · intro hnot heq
        -- the request that waits is this one
        have hentry : p = s.entry := h.eq_of_id_eq hp hs.1 (hid.trans heq.symm)
        exact hnot ⟨hgeneration.symm.trans (congrArg PendingRequest.generation hentry), heq.symm⟩
    · next hnone =>
      symm
      apply and_iff_left_of_imp
      rintro ⟨hp, -⟩ ⟨hgeneration, hid⟩
      exact hnone ⟨s.entry, hp, hid.symm, hgeneration.symm⟩

theorem stands_resume_iff (call : Nat) :
    (b.resume call).ledger.Stands s ↔ b.ledger.Stands s := by
  rcases b.ledger_resume call with hl | ⟨_, _, _, _, hcall, -, hl⟩
  · rw [hl]
  · rw [hl]
    exact Ledger.stands_record_iff hcall rfl

/-- Only a call that waits can find that its deadline has passed. -/
theorem expire_of_early {call : Nat}
    (h : ∀ id purpose d, b.calls[call]? = some (.waiting id purpose d) → ¬d ≤ b.now) :
    b.expire setup call = b := by
  unfold expire
  split
  · next id purpose d hcall => exact if_neg (h id purpose d hcall)
  · rfl

theorem ledger_expire_of_due (setup : BridgeSetup) {call d : Nat} {id : RequestId}
    {purpose : Purpose} (hcall : b.calls[call]? = some (.waiting id purpose d)) (hdue : d ≤ b.now) :
    ∃ answer, (b.expire setup call).ledger = b.ledger.close call id (.finished answer) := by
  unfold expire
  rw [hcall]
  dsimp only
  rw [if_pos hdue]
  refine ⟨((b.forget id).conclude id purpose (.error (.timeout id setup.settings.timeoutMs))).2, ?_⟩
  change ((b.forget id).conclude id purpose _).1.ledger.record call _ = _
  rw [ledger_conclude]
  rfl

theorem stands_expire_iff (h : b.ledger.Exact setup) (call : Nat) :
    (b.expire setup call).ledger.Stands s ↔
      b.ledger.Stands s ∧ removal? setup b s (.expire call) = none := by
  dsimp only [removal?]
  by_cases hdue : ∃ id purpose d, b.calls[call]? = some (.waiting id purpose d) ∧ d ≤ b.now
  · obtain ⟨id, purpose, d, hcall, hdue⟩ := hdue
    obtain ⟨answer, hl⟩ := ledger_expire_of_due setup hcall hdue
    rw [hl, Ledger.stands_close_iff h ⟨purpose, d, hcall⟩ rfl]
    apply and_congr_right
    rintro ⟨-, p, hwaiting⟩
    constructor
    · intro hne
      rw [if_neg]
      rintro ⟨heq, -⟩
      exact hne heq.symm
    · rintro hnone rfl
      rw [show b.ledger.calls[s.call]? = _ from hcall] at hwaiting
      cases hwaiting
      rw [if_pos ⟨rfl, hdue⟩] at hnone
      cases hnone
  · have hearly : ∀ id purpose d, b.calls[call]? = some (.waiting id purpose d) → ¬d ≤ b.now :=
      fun id purpose d hcall hle => hdue ⟨id, purpose, d, hcall, hle⟩
    rw [expire_of_early hearly]
    symm
    apply and_iff_left_of_imp
    rintro ⟨-, p, hwaiting⟩
    rw [if_neg]
    rintro ⟨rfl, hle⟩
    exact hearly _ _ _ hwaiting hle

theorem stands_abandon_iff (h : b.ledger.Exact setup) (call : Nat) :
    (b.abandon call).ledger.Stands s ↔
      b.ledger.Stands s ∧ removal? setup b s (.abandon call) = none := by
  have hremoval : removal? setup b s (.abandon call) = none ↔ s.call ≠ call := by
    dsimp only [removal?]
    rw [ite_eq_right_iff]
    constructor
    · rintro hne rfl
      cases hne rfl
    · intro hne heq
      exact absurd heq.symm hne
  rw [hremoval]
  unfold abandon
  split
  · next id purpose d hcall => exact Ledger.stands_close_iff h ⟨purpose, d, hcall⟩ rfl
  · next id purpose answer hcall =>
    have hcall : b.ledger.calls[call]? = some (.answered id purpose answer) := hcall
    refine (Ledger.stands_record_iff hcall rfl).trans ?_
    exact (and_iff_left_of_imp fun hs => hs.waits.ne_of_answered hcall).symm
  · next hnot _ =>
    symm
    apply and_iff_left_of_imp
    rintro ⟨-, p, hwaiting⟩ rfl
    exact hnot _ _ _ hwaiting

/-- What stands after an action was posted by it, or stood before and was not removed. -/
theorem stands_step_iff (hinj : Function.Injective setup.requestId) (h : b.ledger.Exact setup)
    (a : BridgeAction) :
    (b.step setup a).ledger.Stands s ↔
      Posts setup b a s ∨ (b.ledger.Stands s ∧ removal? setup b s a = none) := by
  by_cases hbegin : ∃ request, a = .begin request
  · obtain ⟨request, rfl⟩ := hbegin
    rw [stands_begin_iff hinj h.known, stands_cleared_iff]
  -- only a call that begins posts a request
  · rw [or_iff_right fun hs : Posts setup b a s => hbegin hs.begins]
    cases a with
    | begin request => exact absurd ⟨_, rfl⟩ hbegin
    | abandon call => exact stands_abandon_iff h call
    | resume call => exact (stands_resume_iff call).trans (and_iff_left rfl).symm
    | expire call => exact stands_expire_iff h call
    | dispatch generation => exact stands_dispatch_iff h generation
    | shutdown =>
      rw [step, ledger_shutdown]
      constructor
      · intro hs
        exact absurd hs Ledger.not_stands_settleAll
      · rintro ⟨-, hnone⟩
        cases hnone
    | drop =>
      constructor
      · rintro ⟨hp, -⟩
        rw [show (b.step setup .drop).ledger.pending = [] from pending_drop h.owned] at hp
        cases hp
      · rintro ⟨-, hnone⟩
        cases hnone
    | _ => exact (and_iff_left rfl).symm

/-! ## Every run -/

theorem Unremoved.append (h : Unremoved setup b s actions)
    (ha : removal? setup (b.run setup actions) s a = none) :
    Unremoved setup b s (actions ++ [a]) := by
  intro before c rest heq
  rcases List.eq_nil_or_concat rest with rfl | ⟨rest, last, rfl⟩
  · obtain ⟨rfl, hlast⟩ := List.append_inj' heq rfl
    cases hlast
    exact ha
  · rw [List.concat_eq_append, ← List.cons_append, ← List.append_assoc] at heq
    exact h before c rest (List.append_inj' heq rfl).1

/-- One more action posts a request, or leaves it outstanding. -/
theorem outstanding_append_iff :
    Outstanding setup (actions ++ [a]) s ↔
      Posts setup (initial.run setup actions) a s ∨
        (Outstanding setup actions s ∧ removal? setup (initial.run setup actions) s a = none) := by
  constructor
  · rintro ⟨before, c, rest, heq, hposts, hkept⟩
    rcases List.eq_nil_or_concat rest with rfl | ⟨rest, last, rfl⟩
    · obtain ⟨rfl, hlast⟩ := List.append_inj' heq rfl
      cases hlast
      exact .inl hposts
    · rw [List.concat_eq_append, ← List.cons_append, ← List.append_assoc] at heq
      obtain ⟨rfl, hlast⟩ := List.append_inj' heq rfl
      cases hlast
      refine .inr ⟨⟨before, c, rest, rfl, hposts, ?_⟩, ?_⟩
      · intro mid d later hmid
        exact hkept mid d (later ++ [a]) (by simp [hmid])
      · have hlast := hkept rest a [] (by simp)
        rw [run, run, ← List.foldl_append, List.append_assoc] at hlast
        exact hlast
  · rintro (hposts | ⟨⟨before, c, rest, rfl, hposts, hkept⟩, hnone⟩)
    · refine ⟨actions, a, [], rfl, hposts, ?_⟩
      intro mid d later hmid
      simp at hmid
    · refine ⟨before, c, rest ++ [a], by simp, hposts, hkept.append ?_⟩
      rw [run, run, ← List.foldl_append, List.append_assoc]
      exact hnone

/-- In every run, the requests that stand are those that are outstanding. -/
theorem stands_run_iff (hinj : Function.Injective setup.requestId) (actions : List BridgeAction) :
    (initial.run setup actions).ledger.Stands s ↔ Outstanding setup actions s := by
  induction actions using List.reverseRecOn with
  | nil =>
    constructor
    · rintro ⟨hp, -⟩
      cases hp
    · rintro ⟨before, a, rest, heq, -⟩
      simp at heq
  | append_singleton actions a ih =>
    rw [run_append_singleton, stands_step_iff hinj (exact_run hinj actions), ih,
      outstanding_append_iff]

/-! ## Ids that are used up -/

/-- The id was used, and no request in the table has it. -/
def Spent (setup : BridgeSetup) (b : Bridge) (id : RequestId) : Prop :=
  b.ledger.Issued setup id ∧ ∀ p ∈ b.pending, p.id ≠ id

/-- Ids are used up for good. -/
theorem issued_le_step (setup : BridgeSetup) (b : Bridge) (a : BridgeAction) :
    b.issued ≤ (b.step setup a).issued := by
  change b.ledger.issued ≤ (b.step setup a).ledger.issued
  by_cases hbegin : ∃ request, a = .begin request
  · obtain ⟨request, rfl⟩ := hbegin
    rw [← (cleared_within setup b request).issued]
    rcases step_begin_cases setup b request with ⟨_, _, -, -, hl⟩ | ⟨used, _, -, hl⟩
    · rw [hl]
      exact Nat.le_succ _
    · rw [hl]
      exact Nat.le_add_right _ used
  · have hwithin := within_step setup b fun request heq => hbegin ⟨request, heq⟩
    exact Nat.le_of_eq hwithin.issued.symm

theorem issued_step {id : RequestId} (h : b.ledger.Issued setup id) (a : BridgeAction) :
    (b.step setup a).ledger.Issued setup id := by
  obtain ⟨k, hk, hid⟩ := h
  exact ⟨k, Nat.le_trans hk (issued_le_step setup b a), hid⟩

/-- A request that is posted has a new id. -/
theorem Posts.not_issued (hinj : Function.Injective setup.requestId) (h : Posts setup b a s) :
    ¬b.ledger.Issued setup s.id := by
  obtain ⟨request, rfl⟩ := h.begins
  rcases step_begin_cases setup b request with ⟨s', -, hs', hid, -⟩ | ⟨-, -, hnone, -⟩
  · rw [h.unique hs', hid, (cleared_within setup b request).issued]
    exact Ledger.not_issued_next hinj
  · exact absurd h (hnone s)

/-- A request that enters the table was posted. -/
theorem mem_pending_step (hinj : Function.Injective setup.requestId) (h : b.ledger.Exact setup)
    {p : PendingRequest} (hp : p ∈ (b.step setup a).pending) :
    (∃ s, s.entry = p ∧ Posts setup b a s) ∨
      ∃ s, s.entry = p ∧ b.ledger.Stands s ∧ removal? setup b s a = none := by
  have hafter : (b.step setup a).ledger.Exact setup := exact_step hinj h a
  obtain ⟨s, hs, hstands⟩ := Ledger.exists_stands_of_mem hafter.owned hp
  rcases (stands_step_iff hinj h a).1 hstands with hposts | hkept
  · exact .inl ⟨s, hs, hposts⟩
  · exact .inr ⟨s, hs, hkept⟩

/-- An id that is used up stays so, because requests get new ids. -/
theorem Spent.step (hinj : Function.Injective setup.requestId) (hb : b.ledger.Exact setup)
    {id : RequestId} (h : b.Spent setup id) (a : BridgeAction) :
    (b.step setup a).Spent setup id := by
  obtain ⟨hissued, hnone⟩ := h
  refine ⟨issued_step hissued a, ?_⟩
  rintro p hp rfl
  rcases mem_pending_step hinj hb hp with ⟨s, rfl, hposts⟩ | ⟨s, rfl, hstands, -⟩
  · exact hposts.not_issued hinj hissued
  · exact hnone s.entry hstands.1 rfl

/-- The id of a request that is removed is used up. -/
theorem spent_of_removed (hinj : Function.Injective setup.requestId) (hb : b.ledger.Exact setup)
    (hs : b.ledger.Stands s) (hremoved : removal? setup b s a ≠ none) :
    (b.step setup a).Spent setup s.id := by
  have hissued : b.ledger.Issued setup s.id := hb.known.pending s.entry hs.1
  refine ⟨issued_step hissued a, ?_⟩
  intro p hp hid
  rcases mem_pending_step hinj hb hp with ⟨s', rfl, hposts⟩ | ⟨s', rfl, hstands, hkept⟩
  · have hid : s'.id = s.id := hid
    rw [← hid] at hissued
    exact hposts.not_issued hinj hissued
  · rw [hb.stands_inj hstands hs hid] at hkept
    exact hremoved hkept

/-- Nobody waits for a request whose id is used up. -/
theorem Spent.run (hinj : Function.Injective setup.requestId) (hb : b.ledger.Exact setup)
    {id : RequestId} (h : b.Spent setup id) (actions : List BridgeAction) :
    (∀ p ∈ (b.run setup actions).pending, p.id ≠ id) ∧
      ∀ n, ¬(b.run setup actions).ledger.Waits n id := by
  induction actions generalizing b with
  | nil =>
    refine ⟨h.2, fun n hwaits => ?_⟩
    obtain ⟨p, hp, hid⟩ := hb.entered n id hwaits
    exact h.2 p hp hid
  | cons a actions ih => exact ih (exact_step hinj hb a) (h.step hinj hb a)

/-! ## The main result -/

/-- A report that answers no request of its host in the table leaves the table as it is. -/
theorem pending_dispatch {generation : Nat}
    (h : ∀ p ∈ b.pending, p.generation = generation →
      (b.routed? generation).bind HostMessage.id? ≠ some p.id) :
    (b.dispatch generation).pending = b.pending := by
  change (b.dispatch generation).ledger.pending = b.pending
  rw [ledger_dispatch]
  rw [routed_id] at h
  cases hrouted : (b.routed? generation).bind HostMessage.answer? with
  | none => rfl
  | some x =>
    rw [hrouted] at h
    dsimp only [settleIf]
    rw [if_neg]
    · rfl
    · rintro ⟨p, hp, hid, hgeneration⟩
      exact h p hp hgeneration (congrArg some hid.symm)

/-- If ids are distinct, then the table holds the requests that are outstanding, each once: those
that were posted and whose callers still wait. One of five causes takes a request out of the table
in the step in which it comes about, and nothing else does. A request that was taken out does not
come back, and nobody waits for it. A report about no request of its host that is in the table
leaves the table as it is. -/
theorem pending_exact (setup : BridgeSetup) (hinj : Function.Injective setup.requestId)
    (actions : List BridgeAction) :
    let b := initial.run setup actions
    (b.pending.map PendingRequest.id).Nodup ∧
      (∀ p, p ∈ b.pending ↔ ∃ s : Sending, s.entry = p ∧ Outstanding setup actions s) ∧
      (∀ s, Outstanding setup actions s →
        (∃ purpose, b.calls[s.call]? = some (.waiting s.id purpose s.deadline)) ∧
        ∀ a,
          (removal? setup b s a = none → s.entry ∈ (b.step setup a).pending) ∧
          (removal? setup b s a ≠ none → ∀ rest,
            let later := (b.step setup a).run setup rest
            (∀ p ∈ later.pending, p.id ≠ s.id) ∧ ∀ n, ¬later.ledger.Waits n s.id)) ∧
      ∀ generation,
        (∀ p ∈ b.pending, p.generation = generation →
          (b.routed? generation).bind HostMessage.id? ≠ some p.id) →
        (b.step setup (.dispatch generation)).pending = b.pending := by
  intro b
  have hexact : b.ledger.Exact setup := exact_run hinj actions
  refine ⟨hexact.once, ?_, ?_, fun generation => pending_dispatch⟩
  · intro p
    constructor
    · intro hp
      obtain ⟨s, hs, hstands⟩ := Ledger.exists_stands_of_mem hexact.owned hp
      exact ⟨s, hs, (stands_run_iff hinj actions).1 hstands⟩
    · rintro ⟨s, rfl, hs⟩
      exact ((stands_run_iff hinj actions).2 hs).1
  · intro s hs
    have hstands : b.ledger.Stands s := (stands_run_iff hinj actions).2 hs
    refine ⟨hstands.2, fun a => ⟨?_, ?_⟩⟩
    · intro hkept
      exact ((stands_step_iff hinj hexact a).2 (.inr ⟨hstands, hkept⟩)).1
    -- an id that was issued and removed is spent for the rest of the run
    · intro hremoved rest
      have hspent := spent_of_removed hinj hexact hstands hremoved
      exact hspent.run hinj (exact_step hinj hexact a) rest

/-- The handshake of the first host is outstanding, and a shutdown takes it out of the table. -/
theorem pending_exact_sample :
    ∃ s : Sending, s.entry = ⟨⟨"r"⟩, .init, 1⟩ ∧
      Outstanding sampleSetup [.begin .init] s ∧
      ∀ p ∈ (initial.run sampleSetup [.begin .init, .shutdown, .begin .init]).pending,
        p.id ≠ ⟨"r"⟩ := by
  obtain ⟨-, hmem, hremoval, -⟩ :=
    pending_exact sampleSetup injective_sampleSetup [.begin .init]
  obtain ⟨s, hs, houtstanding⟩ := (hmem ⟨⟨"r"⟩, .init, 1⟩).1 (List.mem_singleton_self _)
  refine ⟨s, hs, houtstanding, ?_⟩
  obtain ⟨-, hstep⟩ := hremoval s houtstanding
  have hgone := ((hstep .shutdown).2 nofun [.begin .init]).1
  rw [show s.id = ⟨"r"⟩ from congrArg PendingRequest.id hs] at hgone
  exact hgone

end Bridge

end Chalkboard
