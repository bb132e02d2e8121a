import Chalkboard.Bridge.Message

/-!
# Correlation ids

An id has the form `session-counter-clock`. The session is eight hexadecimal digits that are random
for each bridge; the counter goes up with every id and the clock reads milliseconds, so ids differ
within a bridge and between bridges.
-/

namespace Chalkboard

/-- A source of ids: its session and how many ids it has handed out. The count goes round after
`2 ^ 64` ids. -/
structure Correlation where
  session : String
  issued : UInt64
  deriving DecidableEq, Repr

namespace Correlation

/-- A source for a session that is named by 32 random bits. -/
def start (random : UInt32) : Correlation :=
  ⟨String.ofList (Text.hexFixed 8 random.toNat), 0⟩

/-- The id with the given count and time. -/
def idAt (session : String) (count : UInt64) (millis : Int) : RequestId :=
  ⟨session ++ "-" ++ toString count.toNat ++ "-" ++ toString millis⟩

/-- The next id at the given time. -/
def next (c : Correlation) (millis : Int) : Correlation × RequestId :=
  let count := c.issued + 1
  ({ c with issued := count }, idAt c.session count millis)

/-- The ids for a list of times, in order. -/
def nextAll (c : Correlation) : List Int → Correlation × List RequestId
  | [] => (c, [])
  | millis :: rest =>
    let (c, id) := c.next millis
    let (c, ids) := c.nextAll rest
    (c, id :: ids)

end Correlation

end Chalkboard
