import Mathlib.Data.List.Nodup
import Chalkboard.Proofs.Bridge.Life

/-!
# The table agrees with the calls

Every request in the table has a call that waits for it (`Bridge.owned_run`), whatever the ids are.
If ids are distinct, then every call that waits has its request in the table, and the table has no
request twice (`Bridge.exact_run`). The end of the bridge therefore empties the table.
-/

namespace Chalkboard

namespace Ledger

variable {setup : BridgeSetup} {l l' : Ledger} {n call : Nat} {id id' : RequestId}

/-- A call waits for a request. -/
def Waits (l : Ledger) (call : Nat) (id : RequestId) : Prop :=
  ∃ purpose deadline, l.calls[call]? = some (.waiting id purpose deadline)

theorem Waits.getElem?_ids (h : l.Waits n id) : l.ids[n]? = some (some id) := by
  obtain ⟨purpose, deadline, hc⟩ := h
  rw [ids, List.getElem?_map, hc]
  rfl

/-- A call that waits has no other id. -/
theorem Waits.unique (h : l.Waits n id) (h' : l.Waits n id') : id = id' := by
  have hids := h.getElem?_ids.symm.trans h'.getElem?_ids
  simpa using hids

theorem Within.refl (l : Ledger) : Within l l where
  pending := List.Subset.refl _
  ids _ _ h := h
  issued := rfl

theorem Within.trans {l'' : Ledger} (h : Within l l') (h' : Within l' l'') : Within l l'' where
  pending _ hp := h.pending (h'.pending hp)
  ids n id hn := h.ids n id (h'.ids n id hn)
  issued := h'.issued.trans h.issued

/-! ## What calls wait for after a change -/

/-- An answer leaves those waiting who wait for another request. -/
theorem getElem?_deliver_eq_waiting_iff {answer : Answer} {calls : List Call} {purpose : Purpose}
    {deadline : Nat} :
    (Bridge.deliver id answer calls)[n]? = some (.waiting id' purpose deadline) ↔
      calls[n]? = some (.waiting id' purpose deadline) ∧ id' ≠ id := by
  constructor
  · intro hn
    rw [Bridge.deliver, List.getElem?_map, Option.map_eq_some_iff] at hn
    obtain ⟨c, hc, hdelivered⟩ := hn
    cases c with
    | waiting i p d =>
      dsimp only at hdelivered
      split at hdelivered
      · cases hdelivered
      · next hne =>
        cases hdelivered
        exact ⟨hc, hne⟩
    | answered i p a => cases hdelivered
    | finished a => cases hdelivered
    | abandoned => cases hdelivered
  · rintro ⟨hn, hne⟩
    apply getElem?_deliver_of_ne hn
    intro p d heq
    cases heq
    exact hne rfl

theorem waits_settle_iff {answer : Answer} :
    (l.settle id answer).Waits n id' ↔ l.Waits n id' ∧ id' ≠ id := by
  constructor
  · rintro ⟨purpose, deadline, hn⟩
    obtain ⟨hn, hne⟩ := getElem?_deliver_eq_waiting_iff.1 hn
    exact ⟨⟨purpose, deadline, hn⟩, hne⟩
  · rintro ⟨⟨purpose, deadline, hn⟩, hne⟩
    exact ⟨purpose, deadline, getElem?_deliver_eq_waiting_iff.2 ⟨hn, hne⟩⟩

/-- Who waits after several answers was waiting for none of those requests. -/
theorem ne_of_waiting_foldl_deliver {calls : List Call} (answer : RequestId → Answer)
    {pending : List PendingRequest} {purpose : Purpose} {deadline : Nat}
    (hn : (pending.foldl (fun calls p => Bridge.deliver p.id (answer p.id) calls) calls)[n]? =
      some (.waiting id purpose deadline)) :
    calls[n]? = some (.waiting id purpose deadline) ∧ ∀ p ∈ pending, p.id ≠ id := by
  induction pending generalizing calls with
  | nil =>
    refine ⟨hn, ?_⟩
    intro p hp
    cases hp
  | cons p pending ih =>
    obtain ⟨hdelivered, hrest⟩ := ih hn
    obtain ⟨hbefore, hne⟩ := getElem?_deliver_eq_waiting_iff.1 hdelivered
    refine ⟨hbefore, ?_⟩
    intro q hq
    rcases List.mem_cons.1 hq with rfl | hq
    · exact hne.symm
    · exact hrest q hq

/-- A call that is over waits for nothing. -/
theorem waits_record_iff {c : Call} (hc : c.id? = none) :
    (l.record call c).Waits n id ↔ l.Waits n id ∧ n ≠ call := by
  constructor
  · rintro ⟨purpose, deadline, hn⟩
    rw [record, List.getElem?_set] at hn
    split at hn
    · split at hn
      · cases hn
        cases hc
      · cases hn
    · next hne => exact ⟨⟨purpose, deadline, hn⟩, Ne.symm hne⟩
  · rintro ⟨⟨purpose, deadline, hn⟩, hne⟩
    refine ⟨purpose, deadline, ?_⟩
    rw [record, List.getElem?_set_ne hne.symm]
    exact hn

theorem waits_close_iff {c : Call} (hc : c.id? = none) :
    (l.close call id' c).Waits n id ↔ l.Waits n id ∧ n ≠ call :=
  waits_record_iff hc

/-- Who has its answer waits for nothing. -/
theorem Waits.ne_of_answered {purpose : Purpose} {answer : Answer} (h : l.Waits n id)
    (hcall : l.calls[call]? = some (.answered id' purpose answer)) : n ≠ call := by
  rintro rfl
  obtain ⟨p, d, hc⟩ := h
  rw [hcall] at hc
  cases hc

/-- Two calls that wait for different requests are different. -/
theorem Waits.ne_of_ne (h : l.Waits n id) (h' : l.Waits call id') (hne : id ≠ id') :
    n ≠ call := by
  rintro rfl
  exact hne (h.unique h')

theorem waits_append_iff {c : Call} :
    (l.append c).Waits n id ↔
      l.Waits n id ∨ n = l.calls.length ∧ ∃ purpose deadline, c = .waiting id purpose deadline := by
  constructor
  · rintro ⟨purpose, deadline, hn⟩
    rw [append, List.getElem?_append] at hn
    split at hn
    · exact .inl ⟨purpose, deadline, hn⟩
    · next hle =>
      rw [List.getElem?_singleton] at hn
      split at hn
      · next hzero => exact .inr ⟨by omega, purpose, deadline, Option.some.inj hn⟩
      · cases hn
  · rintro (⟨purpose, deadline, hn⟩ | ⟨rfl, purpose, deadline, rfl⟩)
    · exact ⟨purpose, deadline, Bridge.getElem?_append hn c⟩
    · exact ⟨purpose, deadline, List.getElem?_concat_length ..⟩

/-! ## Every request has its call -/

/-- Every request in the table has a call that waits for it. -/
def Owned (l : Ledger) : Prop :=
  ∀ p ∈ l.pending, ∃ call, l.Waits call p.id

theorem mem_filter_id {pending : List PendingRequest} {p : PendingRequest} :
    (p ∈ pending.filter fun q => q.id != id) ↔ p ∈ pending ∧ p.id ≠ id := by
  rw [List.mem_filter, bne_iff_ne]

theorem Owned.settle (h : l.Owned) (id : RequestId) (answer : Answer) :
    (l.settle id answer).Owned := by
  intro p hp
  obtain ⟨hmem, hne⟩ := mem_filter_id.1 hp
  obtain ⟨call, hw⟩ := h p hmem
  exact ⟨call, waits_settle_iff.2 ⟨hw, hne⟩⟩

theorem owned_settleAll (l : Ledger) (answer : RequestId → Answer) : (l.settleAll answer).Owned := by
  intro p hp
  cases hp

theorem Owned.record (h : l.Owned) {purpose : Purpose} {answer : Answer} {c : Call}
    (hcall : l.calls[call]? = some (.answered id purpose answer)) (hc : c.id? = none) :
    (l.record call c).Owned := by
  intro p hp
  obtain ⟨n, hw⟩ := h p hp
  exact ⟨n, (waits_record_iff hc).2 ⟨hw, hw.ne_of_answered hcall⟩⟩

theorem Owned.close (h : l.Owned) (hcall : l.Waits call id) {c : Call} (hc : c.id? = none) :
    (l.close call id c).Owned := by
  intro p hp
  obtain ⟨hmem, hne⟩ := mem_filter_id.1 hp
  obtain ⟨n, hw⟩ := h p hmem
  exact ⟨n, (waits_close_iff hc).2 ⟨hw, hw.ne_of_ne hcall hne⟩⟩

/-- A new call brings its own request. -/
theorem Owned.opens (h : l.Owned) {c : Call} (ho : l.Opens setup l' c) : (l'.append c).Owned := by
  cases ho with
  | asked kind generation purpose deadline =>
    intro p hp
    rcases List.mem_append.1 hp with hp | hp
    · obtain ⟨n, hw⟩ := h p hp
      exact ⟨n, waits_append_iff.2 (.inl hw)⟩
    · rw [List.mem_singleton.1 hp]
      exact ⟨_, waits_append_iff.2 (.inr ⟨rfl, purpose, deadline, rfl⟩)⟩
  | ended used answer =>
    intro p hp
    obtain ⟨n, hw⟩ := h p hp
    exact ⟨n, waits_append_iff.2 (.inl hw)⟩

/-! ## Every call that waits has its request -/

/-- No two calls have to do with the same request. -/
def Alone (l : Ledger) : Prop :=
  ∀ (n n' : Nat) (id : RequestId),
    l.ids[n]? = some (some id) → l.ids[n']? = some (some id) → n = n'

/-- A call whose request is new has it for itself. -/
theorem Alone.append (h : l.Alone) {c : Call} (hc : ∀ id, c.id? = some id → some id ∉ l.ids) :
    (l.append c).Alone := by
  have hids : (l.append c).ids = l.ids ++ [c.id?] := by
    rw [Ledger.ids, Ledger.append, List.map_append]
    rfl
  have hcases : ∀ (n : Nat) (id : RequestId), (l.append c).ids[n]? = some (some id) →
      l.ids[n]? = some (some id) ∨ n = l.ids.length ∧ c.id? = some id := by
    intro n id hn
    rw [hids, List.getElem?_append] at hn
    split at hn
    · exact .inl hn
    · rw [List.getElem?_singleton] at hn
      split at hn
      · exact .inr ⟨by omega, Option.some.inj hn⟩
      · cases hn
  intro n n' id hn hn'
  rcases hcases n id hn with hold | ⟨rfl, hnew⟩
  · rcases hcases n' id hn' with hold' | ⟨-, hnew⟩
    · exact h n n' id hold hold'
    · exact absurd (List.mem_of_getElem? hold) (hc id hnew)
  · rcases hcases n' id hn' with hold' | ⟨rfl, -⟩
    · exact absurd (List.mem_of_getElem? hold') (hc id hnew)
    · rfl

/-- Table and calls agree: who waits has its request in the table, and no request stands in it
twice or belongs to two calls. -/
structure Exact (setup : BridgeSetup) (l : Ledger) : Prop where
  known : l.Known setup
  owned : l.Owned
  entered : ∀ n id, l.Waits n id → ∃ p ∈ l.pending, p.id = id
  once : (l.pending.map PendingRequest.id).Nodup
  alone : l.Alone

namespace Exact

/-- A request is known by its id. -/
theorem eq_of_id_eq (h : l.Exact setup) {p q : PendingRequest} (hp : p ∈ l.pending)
    (hq : q ∈ l.pending) (hid : p.id = q.id) : p = q :=
  List.inj_on_of_nodup_map h.once hp hq hid

/-- A call is known by the request that it waits for. -/
theorem waits_inj (h : l.Exact setup) (hn : l.Waits n id) (hcall : l.Waits call id) : n = call :=
  h.alone n call id hn.getElem?_ids hcall.getElem?_ids

/-- With fewer requests and fewer calls that wait, the table agrees with the calls if who still
waits has its request. -/
theorem within (h : l.Exact setup) (hw : Within l l') (howned : l'.Owned)
    (hsub : l'.pending.Sublist l.pending)
    (hentered : ∀ n id, l'.Waits n id → ∃ p ∈ l'.pending, p.id = id) : l'.Exact setup where
  known := hw.known h.known
  owned := howned
  entered := hentered
  once := (hsub.map PendingRequest.id).nodup h.once
  alone n n' id hn hn' := h.alone n n' id (hw.ids n id hn) (hw.ids n' id hn')

theorem settle (h : l.Exact setup) (id : RequestId) (answer : Answer) :
    (l.settle id answer).Exact setup := by
  apply h.within (within_settle l id answer) (h.owned.settle id answer) List.filter_sublist
  intro n id' hwaits
  obtain ⟨hwaits, hne⟩ := waits_settle_iff.1 hwaits
  obtain ⟨p, hp, rfl⟩ := h.entered n id' hwaits
  exact ⟨p, mem_filter_id.2 ⟨hp, hne⟩, rfl⟩

theorem settleAll (h : l.Exact setup) (answer : RequestId → Answer) :
    (l.settleAll answer).Exact setup := by
  apply h.within (within_settleAll l answer) (owned_settleAll l answer) (List.nil_sublist _)
  rintro n id ⟨purpose, deadline, hc⟩
  obtain ⟨hbefore, hnone⟩ := ne_of_waiting_foldl_deliver answer hc
  obtain ⟨p, hp, hid⟩ := h.entered n id ⟨purpose, deadline, hbefore⟩
  exact absurd hid (hnone p hp)

theorem record (h : l.Exact setup) {purpose : Purpose} {answer : Answer} {c : Call}
    (hcall : l.calls[call]? = some (.answered id purpose answer)) (hc : c.id? = none) :
    (l.record call c).Exact setup := by
  apply h.within (within_record l call hc) (h.owned.record hcall hc) (List.Sublist.refl _)
  intro n id' hwaits
  exact h.entered n id' ((waits_record_iff hc).1 hwaits).1

theorem close (h : l.Exact setup) (hcall : l.Waits call id) {c : Call} (hc : c.id? = none) :
    (l.close call id c).Exact setup := by
  apply h.within (within_close l call id hc) (h.owned.close hcall hc) List.filter_sublist
  intro n id' hwaits
  obtain ⟨hwaits, hne⟩ := (waits_close_iff hc).1 hwaits
  obtain ⟨p, hp, rfl⟩ := h.entered n id' hwaits
  refine ⟨p, mem_filter_id.2 ⟨hp, ?_⟩, rfl⟩
  -- two calls that wait have two requests
  intro heq
  rw [heq] at hwaits
  exact hne (h.waits_inj hwaits hcall)

/-- A new request has a new id. -/
theorem opens (h : l.Exact setup) (hinj : Function.Injective setup.requestId) {c : Call}
    (ho : l.Opens setup l' c) : (l'.append c).Exact setup := by
  have hknown := ho.known h.known
  have howned := h.owned.opens ho
  cases ho with
  | asked kind generation purpose deadline =>
    have hnew := not_issued_next hinj (l := l)
    refine ⟨hknown, howned, ?_, ?_, ?_⟩
    · intro n id hwaits
      rcases waits_append_iff.1 hwaits with hwaits | ⟨-, purpose', deadline', heq⟩
      · obtain ⟨p, hp, hid⟩ := h.entered n id hwaits
        exact ⟨p, List.mem_append_left _ hp, hid⟩
      · cases heq
        exact ⟨_, List.mem_append_right _ (List.mem_singleton_self _), rfl⟩
    · change ((l.pending ++ [_]).map PendingRequest.id).Nodup
      rw [List.map_append, List.map_singleton]
      refine List.Nodup.append h.once (List.nodup_singleton _) ?_
      rw [List.disjoint_singleton]
      intro hmem
      obtain ⟨p, hp, hid⟩ := List.mem_map.1 hmem
      have hissued := h.known.pending p hp
      rw [hid] at hissued
      exact hnew hissued
    · apply Alone.append (l := { l with pending := _, issued := _ }) h.alone
      intro id hid hmem
      cases hid
      exact hnew (h.known.calls _ hmem)
  | ended used answer =>
    refine ⟨hknown, howned, ?_, h.once, ?_⟩
    · intro n id hwaits
      rcases waits_append_iff.1 hwaits with hwaits | ⟨-, _, _, heq⟩
      · exact h.entered n id hwaits
      · cases heq
    · apply Alone.append (l := { l with issued := _ }) h.alone
      intro id hid
      cases hid

end Exact

end Ledger

namespace Bridge

variable {setup : BridgeSetup} {b : Bridge}

/-! ## Every run -/

theorem within_abandon (b : Bridge) (call : Nat) :
    Ledger.Within b.ledger (b.abandon call).ledger := by
  rcases b.ledger_abandon call with h | ⟨id, _, _, -, h⟩ | ⟨_, _, _, -, h⟩
  · rw [h]
    exact .refl _
  · rw [h]
    exact Ledger.within_close _ call id rfl
  · rw [h]
    exact Ledger.within_record _ call rfl

theorem owned_abandon (hb : b.ledger.Owned) (call : Nat) : (b.abandon call).ledger.Owned := by
  rcases b.ledger_abandon call with h | ⟨id, purpose, d, hcall, h⟩ | ⟨id, purpose, answer, hcall, h⟩
  · rwa [h]
  · rw [h]
    exact hb.close ⟨purpose, d, hcall⟩ rfl
  · rw [h]
    exact hb.record hcall rfl

theorem owned_drop (hb : b.ledger.Owned) : b.drop.ledger.Owned :=
  ledger_drop_induction hb fun _ call hb => owned_abandon hb call

theorem owned_cleared (hb : b.ledger.Owned) (request : CallRequest) :
    (b.cleared setup request).Owned := by
  unfold cleared
  split
  · split
    · exact Ledger.owned_settleAll _ _
    · exact hb
  · exact hb
  · exact hb

theorem owned_step (hb : b.ledger.Owned) (a : BridgeAction) : (b.step setup a).ledger.Owned := by
  have hmoves := b.step_moves setup a
  generalize (b.step setup a).ledger = l' at hmoves ⊢
  cases hmoves with
  | rests => exact hb
  | opens h => exact (owned_cleared hb _).opens h
  | settles hrouted hwaits => exact hb.settle _ _
  | cancels => exact Ledger.owned_settleAll _ _
  | returns hcall hanswer => exact hb.record hcall rfl
  | expires hcall hdue hanswer => exact hb.close ⟨_, _, hcall⟩ rfl
  | leaves call => exact owned_abandon hb call
  | drops => exact owned_drop hb

/-- In every run, each request in the table has a call that waits for it. -/
theorem owned_run (actions : List BridgeAction) : (initial.run setup actions).ledger.Owned :=
  run_induction (fun p hp => by cases hp) fun _ a _ hb => owned_step hb a

theorem exact_abandon (hb : b.ledger.Exact setup) (call : Nat) :
    (b.abandon call).ledger.Exact setup := by
  rcases b.ledger_abandon call with h | ⟨id, purpose, d, hcall, h⟩ | ⟨id, purpose, answer, hcall, h⟩
  · rwa [h]
  · rw [h]
    exact hb.close ⟨purpose, d, hcall⟩ rfl
  · rw [h]
    exact hb.record hcall rfl

theorem exact_cleared (hb : b.ledger.Exact setup) (request : CallRequest) :
    (b.cleared setup request).Exact setup := by
  unfold cleared
  split
  · split
    · exact hb.settleAll _
    · exact hb
  · exact hb
  · exact hb

theorem exact_step (hinj : Function.Injective setup.requestId) (hb : b.ledger.Exact setup)
    (a : BridgeAction) : (b.step setup a).ledger.Exact setup := by
  have hmoves := b.step_moves setup a
  generalize (b.step setup a).ledger = l' at hmoves ⊢
  cases hmoves with
  | rests => exact hb
  | opens h => exact (exact_cleared hb _).opens hinj h
  | settles hrouted hwaits => exact hb.settle _ _
  | cancels => exact hb.settleAll _
  | returns hcall hanswer => exact hb.record hcall rfl
  | expires hcall hdue hanswer => exact hb.close ⟨_, _, hcall⟩ rfl
  | leaves call => exact exact_abandon hb call
  | drops => exact ledger_drop_induction hb fun _ call hb => exact_abandon hb call

theorem exact_initial (setup : BridgeSetup) : initial.ledger.Exact setup where
  known := known_run []
  owned := by
    intro p hp
    cases hp
  entered := by
    rintro n id ⟨purpose, deadline, hc⟩
    cases hc
  once := List.nodup_nil
  alone := by
    intro n n' id hn
    cases hn

/-- In every run, the table agrees with the calls. -/
theorem exact_run (hinj : Function.Injective setup.requestId) (actions : List BridgeAction) :
    (initial.run setup actions).ledger.Exact setup :=
  run_induction (exact_initial setup) fun _ a _ hb => exact_step hinj hb a

/-- A restart changes calls and takes requests out of the table, no more. -/
theorem cleared_within (setup : BridgeSetup) (b : Bridge) (request : CallRequest) :
    Ledger.Within b.ledger (b.cleared setup request) := by
  unfold cleared
  split
  · split
    · exact Ledger.within_settleAll _ _
    · exact .refl _
  · exact .refl _
  · exact .refl _

theorem length_cleared (setup : BridgeSetup) (b : Bridge) (request : CallRequest) :
    (b.cleared setup request).calls.length = b.calls.length := by
  unfold cleared
  split
  · split
    · have hids : _ = b.ledger.calls.map Call.id? :=
        Ledger.map_id?_foldl_deliver (fun id => .error (.hostRestarted id)) b.ledger.pending
      have hlength := congrArg List.length hids
      rw [List.length_map, List.length_map] at hlength
      exact hlength
    · rfl
  · rfl
  · rfl

/-- No action but a call uses ids or enters requests into the table. -/
theorem within_step (setup : BridgeSetup) (b : Bridge) {a : BridgeAction}
    (ha : ∀ request, a ≠ .begin request) : Ledger.Within b.ledger (b.step setup a).ledger := by
  have hmoves := b.step_moves setup a
  generalize (b.step setup a).ledger = l' at hmoves ⊢
  cases hmoves with
  | rests => exact .refl _
  | opens => exact absurd rfl (ha _)
  | settles => exact Ledger.within_settle _ _ _
  | cancels => exact Ledger.within_settleAll _ _
  | returns => exact Ledger.within_record _ _ rfl
  | expires => exact Ledger.within_close _ _ _ rfl
  | leaves call => exact within_abandon b call
  | drops =>
    exact ledger_drop_induction (.refl _) fun c call hc => hc.trans (within_abandon c call)

theorem pending_subset_step (setup : BridgeSetup) (b : Bridge) {a : BridgeAction}
    (ha : ∀ request, a ≠ .begin request) : (b.step setup a).pending ⊆ b.pending :=
  (within_step setup b ha).pending

/-! ## The end of the bridge -/

/-- Who waits after a caller gave up waited before, and is another one. -/
theorem waits_abandon {call n : Nat} {id : RequestId}
    (h : (b.abandon call).ledger.Waits n id) : b.ledger.Waits n id ∧ n ≠ call := by
  unfold abandon at h
  split at h
  · exact (Ledger.waits_close_iff (l := b.ledger) rfl).1 h
  · exact (Ledger.waits_record_iff (l := b.ledger) rfl).1 h
  · next hnot _ =>
    refine ⟨h, ?_⟩
    rintro rfl
    obtain ⟨purpose, deadline, hc⟩ := h
    exact hnot _ _ _ hc

theorem waits_foldl_abandon {calls : List Nat} {n : Nat} {id : RequestId}
    (h : (calls.foldl abandon b).ledger.Waits n id) : b.ledger.Waits n id ∧ n ∉ calls := by
  induction calls generalizing b with
  | nil => exact ⟨h, List.not_mem_nil⟩
  | cons call calls ih =>
    obtain ⟨hafter, hrest⟩ := ih h
    obtain ⟨hbefore, hne⟩ := waits_abandon hafter
    refine ⟨hbefore, ?_⟩
    rw [List.mem_cons]
    rintro (heq | hmem)
    · exact hne heq
    · exact hrest hmem

/-- The end of the bridge empties the table, because it ends all calls. -/
theorem pending_drop (hb : b.ledger.Owned) : b.drop.pending = [] := by
  rw [List.eq_nil_iff_forall_not_mem]
  intro p hp
  obtain ⟨n, hwaits⟩ := owned_drop hb p hp
  rw [drop, ledger_disconnect] at hwaits
  obtain ⟨hbefore, hnot⟩ := waits_foldl_abandon hwaits
  obtain ⟨purpose, deadline, hc⟩ := hbefore
  exact hnot (List.mem_range.2 (List.getElem?_eq_some_iff.1 hc).1)

/-! ## Answers to all requests -/

section Callers

variable {n : Nat} {id : RequestId} {purpose : Purpose} {deadline : Nat}

/-- A restart that rejects tells every caller whose request is in the table. -/
theorem answered_restart (hreject : setup.settings.rejectOnRestart = true)
    (h : b.calls[n]? = some (.waiting id purpose deadline)) (hmem : ∃ p ∈ b.pending, p.id = id) :
    (b.step setup (.begin .restart)).calls[n]? =
      some (.answered id purpose (.error (.hostRestarted id))) := by
  obtain ⟨p, hp, rfl⟩ := hmem
  obtain ⟨l, call, hopens, hl⟩ := b.ledger_begin setup .restart
  have hcalls := congrArg Ledger.calls hl
  change (b.step setup (.begin .restart)).calls = l.calls ++ [call] at hcalls
  rw [hcalls]
  refine getElem?_append ?_ call
  rw [hopens.calls, cleared, if_pos hreject]
  exact Ledger.getElem?_foldl_deliver (fun id => .error (.hostRestarted id))
    (List.mem_map_of_mem hp) h

/-- A shutdown tells them, too. -/
theorem answered_shutdown (h : b.calls[n]? = some (.waiting id purpose deadline))
    (hmem : ∃ p ∈ b.pending, p.id = id) :
    b.shutdown.calls[n]? = some (.answered id purpose (.error (.cancelled id))) := by
  obtain ⟨p, hp, rfl⟩ := hmem
  have hl := congrArg Ledger.calls b.ledger_shutdown
  change b.shutdown.calls = _ at hl
  rw [hl]
  exact Ledger.getElem?_foldl_deliver (fun id => .error (.cancelled id))
    (List.mem_map_of_mem hp) h

/-- A caller that gives up changes no other call. -/
theorem getElem?_abandon_of_ne {call : Nat} (hne : call ≠ n) :
    (b.abandon call).calls[n]? = b.calls[n]? := by
  unfold abandon
  split
  · exact List.getElem?_set_ne hne
  · exact List.getElem?_set_ne hne
  · rfl

theorem getElem?_abandon_self (h : b.calls[n]? = some (.waiting id purpose deadline)) :
    (b.abandon n).calls[n]? = some .abandoned := by
  unfold abandon
  rw [h]
  exact List.getElem?_set_self (List.getElem?_eq_some_iff.1 h).1

/-- The end of the bridge ends every call that waits. -/
theorem abandoned_drop (h : b.calls[n]? = some (.waiting id purpose deadline)) :
    b.drop.calls[n]? = some .abandoned := by
  have hor : b.drop.ledger.calls[n]? = some (.waiting id purpose deadline) ∨
      b.drop.ledger.calls[n]? = some .abandoned := by
    refine ledger_drop_induction
      (motive := fun l => l.calls[n]? = some (.waiting id purpose deadline) ∨
        l.calls[n]? = some .abandoned) (.inl h) ?_
    rintro c call (hc | hc)
    · by_cases hne : call = n
      · subst hne
        exact .inr (getElem?_abandon_self hc)
      · exact .inl ((getElem?_abandon_of_ne hne).trans hc)
    · obtain ⟨c', hnext, hc'⟩ := done_abandon hc (fun _ _ _ h => by cases h) call
      cases hnext
      exact .inr hc'
  refine hor.resolve_left fun hwaiting => ?_
  rw [drop, ledger_disconnect] at hwaiting
  obtain ⟨-, hnot⟩ := waits_foldl_abandon ⟨purpose, deadline, hwaiting⟩
  exact hnot (List.mem_range.2 (List.getElem?_eq_some_iff.1 h).1)

end Callers

end Bridge

end Chalkboard
