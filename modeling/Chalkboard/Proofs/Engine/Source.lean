import Chalkboard.Proofs.Bridge.Ids
import Chalkboard.Proofs.Engine.Execution

/-!
# Runs on the ids of a source

What is said of runs asks for ids that never repeat. The ids of a source repeat after `2 ^ 64` of
them. A run reads no id beyond those that it uses (`Bridge.run_congr`, `Computer.run_congr`), so up
to then it is the same run as with ids that never repeat (`Bridge.run_source`,
`Computer.run_source`), and all that is said of runs holds of it.
-/

namespace Chalkboard

/-- The same setup with other ids. -/
def BridgeSetup.withIds (setup : BridgeSetup) (f : Nat → RequestId) : BridgeSetup :=
  { setup with requestId := f }

namespace Bridge

variable {setup : BridgeSetup} {f : Nat → RequestId} {b : Bridge}

/-! ## A call uses the next id, or none -/

theorem issued_ask (setup : BridgeSetup) (b : Bridge) (purpose : Purpose) (kind : RequestKind)
    (payload : Json) : (b.ask setup purpose kind payload).1.issued = b.issued + 1 := by
  unfold ask
  dsimp only
  rcases post_cases { b with issued := b.issued + 1 }
    ⟨kind, setup.requestId (b.issued + 1), payload⟩ with ⟨g, b', -, hok, -, hl⟩ | ⟨m, herr⟩
  · rw [hok]
    exact congrArg Ledger.issued hl
  · rw [herr]
    exact congrArg Ledger.issued (ledger_conclude { b with issued := b.issued + 1 } _ _ _)

theorem ask_congr {purpose : Purpose} {kind : RequestKind} {payload : Json}
    (h : ∀ n, b.issued < n → n ≤ (b.ask setup purpose kind payload).1.issued →
      f n = setup.requestId n) :
    b.ask (setup.withIds f) purpose kind payload = b.ask setup purpose kind payload := by
  have hused := Nat.le_of_eq (issued_ask setup b purpose kind payload).symm
  have hid := h (b.issued + 1) (Nat.lt_succ_self _) hused
  unfold ask
  dsimp only [BridgeSetup.withIds]
  rw [hid]

theorem startHost_congr
    (h : ∀ n, b.issued < n → n ≤ (b.startHost setup).1.issued → f n = setup.requestId n) :
    b.startHost (setup.withIds f) = b.startHost setup := by
  unfold startHost at h ⊢
  dsimp only [BridgeSetup.withIds] at h ⊢
  cases hrefusal : setup.refusal (b.generation + 1) with
  | some e => rfl
  | none =>
    rw [hrefusal] at h
    have hissued : (connect { b with generation := b.generation + 1 }
        (b.generation + 1)).issued = b.issued :=
      congrArg Ledger.issued (ledger_connect { b with generation := b.generation + 1 }
        (b.generation + 1))
    exact ask_congr fun n hn hle => h n (hissued ▸ hn) hle

theorem init_congr
    (h : ∀ n, b.issued < n → n ≤ (b.init setup).1.issued → f n = setup.requestId n) :
    b.init (setup.withIds f) = b.init setup := by
  unfold init at h ⊢
  cases hload : b.board.beginLoading "Starting computation host" with
  | none => rfl
  | some board =>
    rw [hload] at h
    exact startHost_congr (b := { b with board }) h

theorem restart_congr
    (h : ∀ n, b.issued < n → n ≤ (b.restart setup).1.issued → f n = setup.requestId n) :
    b.restart (setup.withIds f) = b.restart setup := by
  rw [restart_eq] at h ⊢
  rw [restart_eq]
  have hissued : (b.vacated setup).issued = b.issued := by
    have hcleared := (cleared_within setup b .restart).issued
    rw [← ledger_vacated] at hcleared
    exact hcleared
  exact startHost_congr (b := b.vacated setup) fun n hn hle => h n (hissued ▸ hn) hle

/-- An action reads no id that it does not use up. -/
theorem step_congr {a : BridgeAction}
    (h : ∀ n, b.issued < n → n ≤ (b.step setup a).issued → f n = setup.requestId n) :
    b.step (setup.withIds f) a = b.step setup a := by
  cases a with
  | begin request =>
    unfold step begin at h ⊢
    cases request with
    | init =>
      dsimp only at h ⊢
      rw [init_congr h]
    | restart =>
      dsimp only at h ⊢
      rw [restart_congr h]
    | send kind payload =>
      dsimp only at h ⊢
      rw [ask_congr h]
  | _ => rfl

/-! ## Runs -/

theorem issued_le_run (setup : BridgeSetup) (b : Bridge) (actions : List BridgeAction) :
    b.issued ≤ (b.run setup actions).issued :=
  run_induction (Nat.le_refl _) fun c a _ hc => Nat.le_trans hc (issued_le_step setup c a)

/-- A run reads no id beyond those that were used in the end. -/
theorem run_congr {actions : List BridgeAction}
    (h : ∀ n ≤ (b.run setup actions).issued, f n = setup.requestId n) :
    b.run (setup.withIds f) actions = b.run setup actions := by
  induction actions generalizing b with
  | nil => rfl
  | cons a actions ih =>
    have hle : (b.step setup a).issued ≤ (b.run setup (a :: actions)).issued :=
      issued_le_run setup (b.step setup a) actions
    have hstep : b.step (setup.withIds f) a = b.step setup a :=
      step_congr fun n _ hn => h n (Nat.le_trans hn hle)
    change (b.step (setup.withIds f) a).run (setup.withIds f) actions = _
    rw [hstep]
    exact ih h

/-- As long as fewer than `2 ^ 64` ids are used, a run on the ids of a source is one on ids that
never repeat. -/
theorem run_source {random : UInt32} {clock : Nat → Int}
    (hids : setup.requestId = Correlation.ids random clock) {actions : List BridgeAction}
    (hfew : (b.run setup actions).issued < 2 ^ 64) :
    ∃ f : Nat → RequestId, Function.Injective f ∧ (∀ n < 2 ^ 64, f n = setup.requestId n) ∧
      b.run (setup.withIds f) actions = b.run setup actions := by
  obtain ⟨f, hinj, hf⟩ := Correlation.exists_injective_ids random clock
  rw [← hids] at hf
  exact ⟨f, hinj, hf, run_congr fun n hn => hf n (Nat.lt_of_le_of_lt hn hfew)⟩

end Bridge

namespace Computer

variable {σ : Type} {setup : BridgeSetup} {f : Nat → RequestId} {e : Engine σ} {s : Computer σ}

/-- Whatever a move does to the bridge, the bridge may do by itself. -/
theorem bridge_step (setup : BridgeSetup) (e : Engine σ) (s : Computer σ) (m : Move) :
    ∃ actions, (s.step setup e m).bridge = s.bridge.run setup actions := by
  cases m with
  | bridge action => exact ⟨[action], rfl⟩
  | begin command => exact ⟨[.begin .init], rfl⟩
  | serve =>
    change ∃ actions, (s.serve setup e).bridge = _
    unfold serve
    split
    · exact ⟨[], rfl⟩
    · exact ⟨_, rfl⟩
  | proceed job =>
    change ∃ actions, (s.proceed setup job).bridge = _
    unfold proceed
    split
    · exact ⟨[], rfl⟩
    · next j _ =>
      rcases proceedJob_cases setup s.bridge j with ⟨command, hgo⟩ | hsame
      · exact ⟨[.begin (.send command.request command.toJson)], congrArg Prod.fst hgo⟩
      · exact ⟨[], hsame⟩

theorem issued_le_step (setup : BridgeSetup) (e : Engine σ) (s : Computer σ) (m : Move) :
    s.bridge.issued ≤ (s.step setup e m).bridge.issued := by
  obtain ⟨actions, hactions⟩ := bridge_step setup e s m
  rw [hactions]
  exact Bridge.issued_le_run setup s.bridge actions

theorem issued_le_run (setup : BridgeSetup) (e : Engine σ) (s : Computer σ) (moves : List Move) :
    s.bridge.issued ≤ (s.run setup e moves).bridge.issued :=
  List.foldlRecOn (motive := fun s' => s.bridge.issued ≤ s'.bridge.issued) moves _ (Nat.le_refl _)
    fun s' hs' m _ => Nat.le_trans hs' (issued_le_step setup e s' m)

theorem proceedJob_congr {b : Bridge} {j : Job}
    (h : ∀ n ≤ (proceedJob setup b j).1.issued, f n = setup.requestId n) :
    proceedJob (setup.withIds f) b j = proceedJob setup b j := by
  cases j with
  | done result => rfl
  | sending call => rfl
  | starting call command =>
    unfold proceedJob at h ⊢
    dsimp only at h ⊢
    split
    · next hc =>
      rw [hc] at h
      have hsend := Bridge.step_congr (a := .begin (.send command.request command.toJson))
        fun n _ hle => h n hle
      exact congrArg (·, Job.sending b.calls.length) hsend
    · rfl
    · rfl

/-- A move reads no id beyond those that were used after it. -/
theorem step_congr {m : Move}
    (h : ∀ n ≤ (s.step setup e m).bridge.issued, f n = setup.requestId n) :
    s.step (setup.withIds f) e m = s.step setup e m := by
  cases m with
  | bridge action =>
    have hstep := Bridge.step_congr (b := s.bridge) (a := action) fun n _ hle => h n hle
    exact congrArg (fun b => { s with bridge := b }) hstep
  | begin command =>
    have hstep := Bridge.step_congr (b := s.bridge) (a := .begin .init) fun n _ hle => h n hle
    exact congrArg (fun b => { s with
      bridge := b
      jobs := s.jobs ++ [Job.starting s.bridge.calls.length command] }) hstep
  | serve =>
    unfold step serve at h ⊢
    dsimp only at h ⊢
    split
    · rfl
    · next g request hnext =>
      rw [hnext] at h
      dsimp only at h
      rw [Bridge.run_congr h]
  | proceed job =>
    unfold step proceed at h ⊢
    dsimp only at h ⊢
    split
    · rfl
    · next j hj =>
      rw [hj] at h
      dsimp only at h
      rw [proceedJob_congr h]

/-- A run reads no id beyond those that were used in the end. -/
theorem run_congr {moves : List Move}
    (h : ∀ n ≤ (s.run setup e moves).bridge.issued, f n = setup.requestId n) :
    s.run (setup.withIds f) e moves = s.run setup e moves := by
  induction moves generalizing s with
  | nil => rfl
  | cons m moves ih =>
    have hle : (s.step setup e m).bridge.issued ≤ (s.run setup e (m :: moves)).bridge.issued :=
      issued_le_run setup e (s.step setup e m) moves
    have hstep : s.step (setup.withIds f) e m = s.step setup e m :=
      step_congr fun n hn => h n (Nat.le_trans hn hle)
    change (s.step (setup.withIds f) e m).run (setup.withIds f) e moves = _
    rw [hstep]
    exact ih h

/-- As long as fewer than `2 ^ 64` ids are used, a run on the ids of a source is one on ids that
never repeat. -/
theorem run_source {random : UInt32} {clock : Nat → Int}
    (hids : setup.requestId = Correlation.ids random clock) {moves : List Move}
    (hfew : (s.run setup e moves).bridge.issued < 2 ^ 64) :
    ∃ f : Nat → RequestId, Function.Injective f ∧ (∀ n < 2 ^ 64, f n = setup.requestId n) ∧
      s.run (setup.withIds f) e moves = s.run setup e moves := by
  obtain ⟨f, hinj, hf⟩ := Correlation.exists_injective_ids random clock
  rw [← hids] at hf
  exact ⟨f, hinj, hf, run_congr fun n hn => hf n (Nat.lt_of_le_of_lt hn hfew)⟩

end Computer

end Chalkboard
