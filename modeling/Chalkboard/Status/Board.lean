import Chalkboard.Status.Basic

/-!
# The status board

The board shows the current status, counts its changes, and remembers for each observer which change
it saw last.
-/

namespace Chalkboard

/-- What has been counted on the board. -/
structure StatusCounts where
  transitions : Nat
  errorsReported : Nat
  deriving DecidableEq, Repr, Inhabited

/-- The board. -/
structure StatusBoard where
  status : Status
  counts : StatusCounts
  /-- How often the shown status has changed. -/
  version : Nat
  /-- A publication has changed the status. -/
  touched : Bool
  /-- For each observer the version it saw last. -/
  observers : List Nat
  deriving DecidableEq, Repr, Inhabited

namespace StatusBoard

/-- The board at the start. -/
def initial : StatusBoard :=
  ⟨.initial, ⟨0, 0⟩, 0, false, []⟩

/-- Shows a status, whatever was shown before. -/
def publish (b : StatusBoard) (status : Status) : StatusBoard :=
  if b.status = status then b
  else
    { b with
      status
      version := b.version + 1
      touched := true
      counts :=
        { transitions := b.counts.transitions + 1
          errorsReported := b.counts.errorsReported + (if status.phase = .error then 1 else 0) } }

/-- Moves from `idle` to `loading`; nothing happens in any other phase. -/
def beginLoading (b : StatusBoard) (message : String) : Option StatusBoard :=
  if b.status.phase = .idle then
    some
      { b with
        status := ⟨.loading, message⟩
        version := b.version + 1
        counts := { b.counts with transitions := b.counts.transitions + 1 } }
  else none

/-- A new observer, which has seen the current status; its number. -/
def subscribe (b : StatusBoard) : StatusBoard × Nat :=
  ({ b with observers := b.observers ++ [b.version] }, b.observers.length)

/-- Whether the status has changed since the observer last looked. -/
def hasChanged (b : StatusBoard) (observer : Nat) : Bool :=
  b.observers[observer]?.any (· != b.version)

/-- The observer looks at the status. -/
def read (b : StatusBoard) (observer : Nat) : StatusBoard × Status :=
  ({ b with observers := b.observers.set observer b.version }, b.status)

theorem status_publish (b : StatusBoard) (s : Status) : (b.publish s).status = s := by
  unfold publish
  split
  · assumption
  · rfl

end StatusBoard

end Chalkboard
