import Chalkboard.Proofs.Engine.Sound

/-!
# Calls on their way

While nothing replaces the host and no deadline passes, no error is shown
(`Bridge.Sound.fine_step`). A call for the host finds it there or on its way (`Bridge.Hosted`), and
a call for an answer has the right one or will get it (`Bridge.Fetches`).
-/

namespace Chalkboard

namespace Bridge

variable {setup : BridgeSetup} {f : Computation} {b : Bridge} {a : BridgeAction} {n : Nat}

/-- The action finds no deadline that has passed. -/
def Timely (b : Bridge) (a : BridgeAction) : Prop :=
  ∀ n, a = .expire n → ∀ id purpose deadline,
    b.calls[n]? = some (.waiting id purpose deadline) → ¬deadline ≤ b.now

theorem Timely.expire_eq (h : b.Timely (.expire n)) : b.step setup (.expire n) = b :=
  expire_of_early (h n rfl)

/-- An undecided caller that has an answer has a good one. -/
theorem Sound.greeting (hb : b.Sound setup f) (hconnected : b.connection ≠ none) {id : RequestId}
    {answer : Answer} (hc : b.calls[n]? = some (.answered id (.handshake b.generation) answer)) :
    ∃ payload, answer = .ok payload := by
  have hn : b.Undecided n := (undecided_of_answered hc).2 rfl
  obtain ⟨id', hhandled⟩ := hb.greeted hconnected n hn
  cases hhandled with
  | underway hstands =>
    obtain ⟨-, p, hwaiting⟩ := hstands
    cases hc.symm.trans hwaiting
  | answered hanswered =>
    cases hc.symm.trans hanswered
    exact ⟨_, if_pos rfl⟩

/-! ## No error is shown -/

/-- A message shows an error only if it says so. -/
theorem error_of_route (g : Nat) {m : HostMessage}
    (h : (b.route g m.event).status.phase = .error) :
    b.status.phase = .error ∨ ∃ s, m = .status s ∧ s.phase = .error := by
  unfold HostMessage.event route at h
  dsimp only at h
  rw [decode_of_toJson] at h
  cases m with
  | status s =>
    rw [phase_publish] at h
    exact .inr ⟨s, rfl, h⟩
  | result id payload => exact .inl (status_resolve b g id _ ▸ h)
  | error id message => exact .inl (status_resolve b g id _ ▸ h)

theorem Sound.fine_dispatch (hb : b.Sound setup f) (hconnected : b.connection ≠ none)
    (hfine : b.status.phase ≠ .error) (g : Nat) : (b.dispatch g).status.phase ≠ .error := by
  obtain ⟨g₀, hg₀⟩ := Option.ne_none_iff_exists'.1 hconnected
  by_cases hne : g = g₀
  · subst hne
    obtain ⟨-, h, hh, hhealthy⟩ := hb.linked g hg₀
    cases hevents : h.events with
    | nil =>
      rw [dispatch_of_silence hh hhealthy.reporting hevents]
      exact hfine
    | cons e events =>
      obtain ⟨m, rfl, hmild, -⟩ := hhealthy.events e (hevents ▸ List.mem_cons_self ..)
      rw [dispatch_of_event hh hhealthy.listening hevents]
      intro herror
      rcases error_of_route g herror with hbefore | ⟨s, rfl, hs⟩
      · exact hfine hbefore
      · rcases hmild with hphase | hphase
        · rw [hphase] at hs
          cases hs
        · rw [hphase] at hs
          cases hs
  · rw [(hb.attached.dispatch_of_ne hg₀ hne).1]
    exact hfine

/-- A caller that goes on while the host is sound shows no error. -/
theorem Sound.fine_resume (hb : b.Sound setup f) (hconnected : b.connection ≠ none)
    (hfine : b.status.phase ≠ .error) (n : Nat) : (b.resume n).status.phase ≠ .error := by
  unfold resume
  split
  · next id purpose answer hc =>
    change (b.conclude id purpose answer).1.status.phase ≠ .error
    by_cases hpurpose : purpose = .handshake b.generation
    · subst hpurpose
      obtain ⟨payload, rfl⟩ := hb.greeting hconnected hc
      dsimp only [conclude]
      rw [if_neg (not_not.2 rfl), phase_publish]
      nofun
    · rw [status_conclude hpurpose]
      exact hfine
  · exact hfine

/-- No calm action shows an error, unless a deadline has passed. -/
theorem Sound.fine_step (hb : b.Sound setup f) (hconnected : b.connection ≠ none)
    (hfine : b.status.phase ≠ .error) (ha : a.Calm) (htimely : b.Timely a) :
    (b.step setup a).status.phase ≠ .error := by
  cases a with
  | begin request =>
    cases request with
    | init =>
      obtain ⟨answer, -, hstep⟩ := begin_init_of_not_idle setup (hb.not_idle hconnected)
      rw [hstep]
      exact hfine
    | restart => exact ha.elim
    | send kind payload =>
      have hstatus : (b.step setup (.begin (.send kind payload))).status = b.status :=
        status_ask b kind payload
      rw [hstatus]
      exact hfine
  | abandon call =>
    have hstatus : (b.step setup (.abandon call)).status = b.status := status_abandon b call
    rw [hstatus]
    exact hfine
  | resume call => exact hb.fine_resume hconnected hfine call
  | expire call =>
    rw [htimely.expire_eq]
    exact hfine
  | dispatch g => exact hb.fine_dispatch hconnected hfine g
  | elapse ms => exact hfine
  | _ => exact ha.elim

/-! ## Calls that are made for a command -/

/-- The call was for the host, and the host is there or on its way. -/
def Hosted (b : Bridge) (n : Nat) : Prop :=
  b.calls[n]? = some (.finished (.ok .null)) ∨ b.Undecided n

/-- The call was for an answer, and has it or will get it. -/
def Fetches (f : Computation) (b : Bridge) (n : Nat) (r : HostRequest) : Prop :=
  b.calls[n]? = some (.finished (outcome f r)) ∨ Handled f b n .answer r

theorem Hosted.step (hb : b.Sound setup f) (hconnected : b.connection ≠ none) (ha : a.Calm)
    (htimely : b.Timely a) (hleft : a ≠ .abandon n) (h : b.Hosted n) :
    (b.step setup a).Hosted n := by
  rcases h with hc | hn
  · exact .inl (over_step (show b.ledger.calls[n]? = _ from hc) rfl a)
  have hgeneration : (b.step setup a).generation = b.generation :=
    generation_calm (hb.not_idle hconnected) ha
  by_cases htouches : a.Touches n
  · rcases htouches with rfl | rfl | rfl
    · -- the caller sees its answer, if it is there
      change (b.resume n).Hosted n
      unfold resume
      split
      · next id purpose answer hc =>
        left
        obtain rfl := (undecided_of_answered hc).1 hn
        obtain ⟨payload, rfl⟩ := hb.greeting hconnected hc
        dsimp only [conclude]
        rw [if_neg (not_not.2 rfl)]
        exact List.getElem?_set_self (List.getElem?_eq_some_iff.1 hc).1
      · exact .inr hn
    · rw [htimely.expire_eq]
      exact .inr hn
    · exact absurd rfl hleft
  · right
    rw [Undecided, hgeneration]
    refine purpose?_kept setup hn htouches ?_
    rintro rfl
    exact ha

theorem Fetches.step (hinj : Function.Injective setup.requestId) {r : HostRequest}
    (hb : b.Sound setup f) (hconnected : b.connection ≠ none) (ha : a.Calm) (htimely : b.Timely a)
    (hleft : a ≠ .abandon n) (h : b.Fetches f n r) : (b.step setup a).Fetches f n r := by
  rcases h with hc | hn
  · exact .inl (over_step (show b.ledger.calls[n]? = _ from hc) rfl a)
  by_cases htouches : a.Touches n
  · rcases htouches with rfl | rfl | rfl
    · change (b.resume n).Fetches f n r
      cases hn with
      | underway hstands hpurpose hg hh hserves =>
        have hwaiting := waiting_of_stands hstands hpurpose
        have hsame : b.resume n = b := by
          unfold resume
          rw [hwaiting]
        rw [hsame]
        exact .inr (.underway hstands hpurpose hg hh hserves)
      | answered hc =>
        left
        unfold resume
        rw [hc]
        exact List.getElem?_set_self (List.getElem?_eq_some_iff.1 hc).1
    · rw [htimely.expire_eq]
      exact .inr hn
    · exact absurd rfl hleft
  · exact .inr (hn.step hinj hb hconnected ha htouches)

/-- A send to a healthy host will get its answer. -/
theorem Sound.fetches_send (hinj : Function.Injective setup.requestId) (hb : b.Sound setup f)
    {g : Nat} (hg : b.connection = some g) (kind : RequestKind) (payload : Json) :
    (b.step setup (.begin (.send kind payload))).Fetches f b.calls.length
      ⟨kind, setup.requestId (b.issued + 1), payload⟩ := by
  obtain ⟨-, h, hh, hhealthy⟩ := hb.linked g hg
  have hstep := begin_send_of_accepts setup ⟨hg, h, hh, hhealthy.accepting⟩ kind payload
  have hlast : (b.step setup (.begin (.send kind payload))).calls[b.calls.length]? =
      some (.waiting (setup.requestId (b.issued + 1)) .answer
        (b.now + setup.settings.timeoutMs.toNat)) := by
    rw [hstep]
    exact List.getElem?_concat_length ..
  have hstands : (b.step setup (.begin (.send kind payload))).ledger.Stands
      ⟨b.calls.length, setup.requestId (b.issued + 1), kind, g,
        b.now + setup.settings.timeoutMs.toNat⟩ := by
    refine ⟨?_, .answer, hlast⟩
    rw [hstep]
    exact List.mem_append_right _ (List.mem_singleton_self _)
  refine .inr (.underway hstands ?_ ?_ ?_ (hhealthy.serves_post (Ledger.not_issued_next hinj)))
  · rw [Ledger.purpose?]
    exact congrArg (Option.bind · Call.purpose?) hlast
  · rw [hstep]
    exact hg
  · rw [hstep]
    exact host?_posted setup hh kind payload

end Bridge

end Chalkboard
