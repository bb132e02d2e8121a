import Chalkboard.Proofs.Bridge.Ledger

/-!
# One request in the ledger

`Ledger.Open` says that a call waits for its request, that the table has exactly one entry for the
request, and that no other call has to do with it. Answering another request, ending another call
and opening new calls keep this; answering the request itself hands its call the answer.
-/

namespace Chalkboard

/-- A request that was sent: its call, its entry in the table, and its deadline. -/
structure Sending where
  call : Nat
  id : RequestId
  kind : RequestKind
  generation : Nat
  deadline : Nat

/-- The entry of the request in the table. -/
def Sending.entry (s : Sending) : PendingRequest :=
  ⟨s.id, s.kind, s.generation⟩

namespace Ledger

variable {setup : BridgeSetup} {l l' : Ledger} {s : Sending}

/-! ## Ids -/

/-- The id has been used. -/
def Issued (setup : BridgeSetup) (l : Ledger) (id : RequestId) : Prop :=
  ∃ k ≤ l.issued, setup.requestId k = id

/-- The ids that the calls have to do with. -/
def ids (l : Ledger) : List (Option RequestId) :=
  l.calls.map Call.id?

/-- Only used ids stand in the table and belong to calls. -/
structure Known (setup : BridgeSetup) (l : Ledger) : Prop where
  pending : ∀ p ∈ l.pending, l.Issued setup p.id
  calls : ∀ id, some id ∈ l.ids → l.Issued setup id

/-- `l'` has the requests and ids of `l`, or fewer. -/
structure Within (l l' : Ledger) : Prop where
  pending : l'.pending ⊆ l.pending
  ids : ∀ (n : Nat) (id : RequestId), l'.ids[n]? = some (some id) → l.ids[n]? = some (some id)
  issued : l'.issued = l.issued

theorem Within.known (h : Within l l') (hl : l.Known setup) : l'.Known setup where
  pending p hp := by
    rw [Issued, h.issued]
    exact hl.pending p (h.pending hp)
  calls id hid := by
    rcases List.getElem?_of_mem hid with ⟨n, hn⟩
    rw [Issued, h.issued]
    exact hl.calls id (List.mem_of_getElem? (h.ids n id hn))

/-- The id that is used next is new. -/
theorem not_issued_next (hinj : Function.Injective setup.requestId) :
    ¬l.Issued setup (setup.requestId (l.issued + 1)) := by
  rintro ⟨k, hk, he⟩
  have := hinj he
  omega

/-! ## Delivering -/

section Deliver

variable {id : RequestId} {answer : Answer} {calls : List Call} {n : Nat}

theorem getElem?_deliver_self {purpose : Purpose} {deadline : Nat}
    (hc : calls[n]? = some (.waiting id purpose deadline)) :
    (Bridge.deliver id answer calls)[n]? = some (.answered id purpose answer) := by
  rw [Bridge.deliver, List.getElem?_map, hc, Option.map_some]
  simp

/-- A call that does not wait for the request stays as it is. -/
theorem getElem?_deliver_of_ne {c : Call} (hc : calls[n]? = some c)
    (hne : ∀ purpose deadline, c ≠ .waiting id purpose deadline) :
    (Bridge.deliver id answer calls)[n]? = some c := by
  rw [Bridge.deliver, List.getElem?_map, hc, Option.map_some]
  cases c with
  | waiting j purpose deadline =>
    have hj : j ≠ id := by
      rintro rfl
      exact hne purpose deadline rfl
    simp [hj]
  | answered j purpose answer => rfl
  | finished answer => rfl
  | abandoned => rfl

/-- Delivering does not change what calls have to do with. -/
theorem map_id?_deliver : (Bridge.deliver id answer calls).map Call.id? = calls.map Call.id? := by
  rw [Bridge.deliver, List.map_map]
  refine List.map_congr_left fun c _ => ?_
  cases c with
  | waiting j purpose deadline => by_cases hj : j = id <;> simp [hj, Call.id?]
  | answered j purpose answer => rfl
  | finished answer => rfl
  | abandoned => rfl

theorem getElem?_foldl_deliver_of_done (answer : RequestId → Answer)
    (pending : List PendingRequest) {c : Call} (hc : calls[n]? = some c)
    (hdone : ∀ p ∈ pending, ∀ purpose deadline, c ≠ .waiting p.id purpose deadline) :
    (pending.foldl (fun calls p => Bridge.deliver p.id (answer p.id) calls) calls)[n]? =
      some c := by
  induction pending generalizing calls with
  | nil => exact hc
  | cons p pending ih =>
    have hp : (Bridge.deliver p.id (answer p.id) calls)[n]? = some c :=
      getElem?_deliver_of_ne hc (hdone p (List.mem_cons_self ..))
    exact ih hp fun q hq => hdone q (List.mem_cons_of_mem _ hq)

/-- Delivering several answers does to a call what the one for its request does. -/
theorem getElem?_foldl_deliver (answer : RequestId → Answer) {pending : List PendingRequest}
    {purpose : Purpose} {deadline : Nat} (hid : id ∈ pending.map PendingRequest.id)
    (hc : calls[n]? = some (.waiting id purpose deadline)) :
    (pending.foldl (fun calls p => Bridge.deliver p.id (answer p.id) calls) calls)[n]? =
      some (.answered id purpose (answer id)) := by
  induction pending generalizing calls with
  | nil => cases hid
  | cons p pending ih =>
    rw [List.foldl_cons]
    by_cases hp : p.id = id
    · -- the answer is there, and later ones are not for this call
      rw [hp]
      exact getElem?_foldl_deliver_of_done answer pending (getElem?_deliver_self hc)
        fun _ _ _ _ h => by cases h
    · refine ih ((List.mem_cons.1 hid).resolve_left (Ne.symm hp))
        (getElem?_deliver_of_ne hc fun _ _ h => ?_)
      cases h
      exact hp rfl

theorem map_id?_foldl_deliver (answer : RequestId → Answer) (pending : List PendingRequest) :
    (pending.foldl (fun calls p => Bridge.deliver p.id (answer p.id) calls) calls).map Call.id? =
      calls.map Call.id? := by
  induction pending generalizing calls with
  | nil => rfl
  | cons p pending ih => exact ih.trans map_id?_deliver

end Deliver

/-! ## Changes within a ledger -/

theorem within_settle (l : Ledger) (id : RequestId) (answer : Answer) :
    Within l (l.settle id answer) where
  pending := List.filter_subset_self _
  ids n j hj := by
    rw [ids, settle, map_id?_deliver] at hj
    exact hj
  issued := rfl

theorem within_settleAll (l : Ledger) (answer : RequestId → Answer) :
    Within l (l.settleAll answer) where
  pending := List.nil_subset _
  ids n j hj := by
    rw [ids, settleAll, map_id?_foldl_deliver] at hj
    exact hj
  issued := rfl

/-- A call that is over has to do with no id. -/
theorem within_record (l : Ledger) (call : Nat) {c : Call} (hc : c.id? = none) :
    Within l (l.record call c) where
  pending := List.Subset.refl _
  ids n j hj := by
    rw [ids, record, List.map_set, hc, List.getElem?_set] at hj
    split at hj
    · split at hj <;> simp at hj
    · exact hj
  issued := rfl

theorem within_close (l : Ledger) (call : Nat) (id : RequestId) {c : Call} (hc : c.id? = none) :
    Within l (l.close call id c) where
  pending := List.filter_subset_self _
  ids := (within_record l call hc).ids
  issued := rfl

/-- A new call brings no id but the next one. -/
theorem Opens.known {call : Call} (h : l.Opens setup l' call) (hl : l.Known setup) :
    (l'.append call).Known setup := by
  have hmore : ∀ {k id}, l.Issued setup id → ∃ i ≤ l.issued + k, setup.requestId i = id := by
    rintro k id ⟨i, hi, hid⟩
    exact ⟨i, by omega, hid⟩
  cases h with
  | asked kind generation purpose deadline =>
    refine ⟨fun p hp => ?_, fun id hid => ?_⟩
    · rcases List.mem_append.1 hp with hp | hp
      · exact hmore (hl.pending p hp)
      · rw [List.mem_singleton.1 hp]
        exact ⟨l.issued + 1, Nat.le_refl _, rfl⟩
    · rw [ids, append, List.map_append, List.mem_append] at hid
      rcases hid with hid | hid
      · exact hmore (hl.calls id hid)
      · have hid : id = setup.requestId (l.issued + 1) := by simpa [Call.id?] using hid
        exact ⟨l.issued + 1, Nat.le_refl _, hid.symm⟩
  | ended used answer =>
    refine ⟨fun p hp => hmore (hl.pending p hp), fun id hid => hmore (hl.calls id ?_)⟩
    rw [ids, append, List.map_append, List.mem_append] at hid
    exact hid.resolve_right (by simp [Call.id?])

/-! ## A request that waits -/

/-- The call of a request waits for it, the table has the request exactly once, and no other call
has to do with it. -/
structure Open (setup : BridgeSetup) (l : Ledger) (s : Sending) : Prop where
  call : l.calls[s.call]? = some (.waiting s.id .answer s.deadline)
  entry : ∀ p, p.id = s.id → (p ∈ l.pending ↔ p = s.entry)
  alone : ∀ n, l.ids[n]? = some (some s.id) → n = s.call
  issued : l.Issued setup s.id

namespace Open

/-- The entry of the request is in the table. -/
theorem mem_pending (h : l.Open setup s) : s.entry ∈ l.pending :=
  (h.entry s.entry rfl).2 rfl

/-- The request may wait on while fewer others do. -/
theorem within (h : l.Open setup s) (hw : Within l l')
    (hcall : l'.calls[s.call]? = some (.waiting s.id .answer s.deadline))
    (hmem : s.entry ∈ l'.pending) : l'.Open setup s where
  call := hcall
  entry p hp := by
    constructor
    · intro hp'
      exact (h.entry p hp).1 (hw.pending hp')
    · rintro rfl
      exact hmem
  alone n hn := h.alone n (hw.ids n s.id hn)
  issued := by
    rw [Issued, hw.issued]
    exact h.issued

theorem mem_filter_pending (h : l.Open setup s) {id : RequestId} (hne : id ≠ s.id) :
    s.entry ∈ l.pending.filter fun p => p.id != id :=
  List.mem_filter.2 ⟨h.mem_pending, by simpa [Sending.entry] using hne.symm⟩

theorem settle_of_ne (h : l.Open setup s) {id : RequestId} (hne : id ≠ s.id) (answer : Answer) :
    (l.settle id answer).Open setup s := by
  refine h.within (within_settle l id answer) ?_ (h.mem_filter_pending hne)
  refine getElem?_deliver_of_ne h.call fun purpose deadline heq => ?_
  cases heq
  exact hne rfl

/-- The answer of the request reaches its call. -/
theorem settle_self (h : l.Open setup s) (answer : Answer) :
    (l.settle s.id answer).calls[s.call]? = some (.answered s.id .answer answer) :=
  getElem?_deliver_self h.call

/-- So does an answer to all requests. -/
theorem settleAll (h : l.Open setup s) (answer : RequestId → Answer) :
    (l.settleAll answer).calls[s.call]? = some (.answered s.id .answer (answer s.id)) :=
  getElem?_foldl_deliver answer (List.mem_map_of_mem h.mem_pending) h.call

theorem record_of_ne (h : l.Open setup s) {call : Nat} (hne : call ≠ s.call) {c : Call}
    (hc : c.id? = none) : (l.record call c).Open setup s := by
  refine h.within (within_record l call hc) ?_ h.mem_pending
  rw [record, List.getElem?_set_ne hne]
  exact h.call

/-- Another call that ends was waiting for another request. -/
theorem close_of_ne (h : l.Open setup s) {call : Nat} (hne : call ≠ s.call) {id : RequestId}
    {purpose : Purpose} {deadline : Nat}
    (hcall : l.calls[call]? = some (.waiting id purpose deadline)) {c : Call}
    (hc : c.id? = none) : (l.close call id c).Open setup s := by
  have hid : id ≠ s.id := by
    rintro rfl
    refine hne (h.alone call ?_)
    rw [ids, List.getElem?_map, hcall]
    rfl
  refine h.within (within_close l call id hc) ?_ (h.mem_filter_pending hid)
  rw [close, List.getElem?_set_ne hne]
  exact h.call

/-- New calls wait for other requests. -/
theorem opens (h : l.Open setup s) (hinj : Function.Injective setup.requestId) {call : Call}
    (ho : l.Opens setup l' call) : (l'.append call).Open setup s := by
  have hlen := (List.getElem?_eq_some_iff.1 h.call).1
  have hnew : setup.requestId (l.issued + 1) ≠ s.id := fun heq =>
    not_issued_next hinj (heq ▸ h.issued)
  have hids : ∀ c : Call, c.id? ≠ some s.id → ∀ n : Nat,
      ((l.calls ++ [c]).map Call.id?)[n]? = some (some s.id) → n = s.call := by
    intro c hc n hn
    rw [List.map_append, List.getElem?_append] at hn
    split at hn
    · exact h.alone n hn
    · rw [List.map_singleton, List.getElem?_singleton] at hn
      split at hn
      · exact absurd (Option.some.inj hn) hc
      · cases hn
  cases ho with
  | asked kind generation purpose deadline =>
    refine ⟨?_, fun p hp => ?_, hids _ (by simpa [Call.id?] using hnew), ?_⟩
    · exact (List.getElem?_append_left hlen).trans h.call
    · rw [← h.entry p hp]
      change p ∈ l.pending ++ [_] ↔ p ∈ l.pending
      rw [List.mem_append, List.mem_singleton]
      refine ⟨fun hor => hor.resolve_right ?_, .inl⟩
      rintro rfl
      exact hnew hp
    · rcases h.issued with ⟨k, hk, hid⟩
      exact ⟨k, Nat.le_succ_of_le hk, hid⟩
  | ended used answer =>
    refine ⟨?_, h.entry, hids _ (by simp [Call.id?]), ?_⟩
    · exact (List.getElem?_append_left hlen).trans h.call
    · rcases h.issued with ⟨k, hk, hid⟩
      exact ⟨k, Nat.le_trans hk (Nat.le_add_right ..), hid⟩

end Open

/-- A request under a new id waits, and nothing else has to do with the id. -/
theorem Known.open_asked (hl : l.Known setup) (hinj : Function.Injective setup.requestId)
    (kind : RequestKind) (generation deadline : Nat) :
    (Ledger.append
      { l with
        pending := l.pending ++ [⟨setup.requestId (l.issued + 1), kind, generation⟩]
        issued := l.issued + 1 }
      (.waiting (setup.requestId (l.issued + 1)) .answer deadline)).Open setup
      ⟨l.calls.length, setup.requestId (l.issued + 1), kind, generation, deadline⟩ := by
  have hnew := not_issued_next hinj (l := l)
  refine ⟨List.getElem?_concat_length .., fun p hp => ?_, fun n hn => ?_, _, Nat.le_refl _, rfl⟩
  · change p ∈ l.pending ++ [_] ↔ _
    rw [List.mem_append, List.mem_singleton]
    refine ⟨fun hor => hor.resolve_left fun hmem => ?_, .inr⟩
    have hp : p.id = setup.requestId (l.issued + 1) := hp
    exact hnew (hp ▸ hl.pending p hmem)
  · rw [ids, append, List.map_append, List.getElem?_append] at hn
    split at hn
    · exact absurd (hl.calls _ (List.mem_of_getElem? hn)) hnew
    · next hle =>
      rw [List.map_singleton, List.getElem?_singleton] at hn
      split at hn
      · next hzero =>
        rw [List.length_map] at hle hzero
        exact Nat.le_antisymm (Nat.sub_eq_zero_iff_le.1 hzero) (Nat.le_of_not_lt hle)
      · cases hn

/-! ## Other requests -/

/-- What has nothing to do with the id is the same in both ledgers. -/
structure Apart (id : RequestId) (l l' : Ledger) : Prop where
  pending : ∀ p, p.id ≠ id → (p ∈ l'.pending ↔ p ∈ l.pending)
  calls : ∀ (n : Nat) (c : Call), l.calls[n]? = some c → c.id? ≠ some id → l'.calls[n]? = some c

theorem apart_refl (id : RequestId) (l : Ledger) : Apart id l l :=
  ⟨fun _ _ => Iff.rfl, fun _ _ hc _ => hc⟩

theorem mem_filter_ne {pending : List PendingRequest} {id : RequestId} {p : PendingRequest}
    (hne : p.id ≠ id) : (p ∈ pending.filter fun q => q.id != id) ↔ p ∈ pending := by
  rw [List.mem_filter]
  exact ⟨And.left, fun hp => ⟨hp, by simpa using hne⟩⟩

theorem apart_settle (l : Ledger) (id : RequestId) (answer : Answer) :
    Apart id l (l.settle id answer) where
  pending _ hne := mem_filter_ne hne
  calls n c hc hne := by
    refine getElem?_deliver_of_ne hc fun purpose deadline heq => hne ?_
    rw [heq]
    rfl

/-- A call that goes on changes nothing else. -/
theorem apart_record {l : Ledger} {call : Nat} {id : RequestId} {c₁ : Call}
    (hcall : l.calls[call]? = some c₁) (hid : c₁.id? = some id) (c₂ : Call) :
    Apart id l (l.record call c₂) where
  pending _ _ := Iff.rfl
  calls n c hc hne := by
    have hn : call ≠ n := by
      rintro rfl
      rw [hc, Option.some.injEq] at hcall
      exact hne (hcall ▸ hid)
    rw [record, List.getElem?_set_ne hn]
    exact hc

theorem apart_close {l : Ledger} {call : Nat} {id : RequestId} {c₁ : Call}
    (hcall : l.calls[call]? = some c₁) (hid : c₁.id? = some id) (c₂ : Call) :
    Apart id l (l.close call id c₂) where
  pending _ hne := mem_filter_ne hne
  calls := (apart_record hcall hid c₂).calls

end Ledger

end Chalkboard
