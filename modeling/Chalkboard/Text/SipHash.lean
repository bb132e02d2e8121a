/-!
# SipHash

A hash of 64 bits. The bytes are taken eight at a time, the least first; the last word holds the
bytes that are left over and, in its top byte, the length. This is the variant with one round for
each word and three rounds at the end, and its key is zero.
-/

namespace Chalkboard.Text.SipHash

/-- The four words that are mixed. -/
structure State where
  a : UInt64
  b : UInt64
  c : UInt64
  d : UInt64
  deriving DecidableEq, Repr

/-- The state under the zero key. -/
def State.initial : State :=
  ⟨0x736f6d6570736575, 0x646f72616e646f6d, 0x6c7967656e657261, 0x7465646279746573⟩

/-- A word turned left by less than 64 bits. -/
def rotate (x : UInt64) (bits : UInt64) : UInt64 :=
  (x <<< bits) ||| (x >>> (64 - bits))

/-- One round of mixing. -/
def State.round (s : State) : State :=
  let a := s.a + s.b
  let b := rotate s.b 13 ^^^ a
  let a := rotate a 32
  let c := s.c + s.d
  let d := rotate s.d 16 ^^^ c
  let a := a + d
  let d := rotate d 21 ^^^ a
  let c := c + b
  let b := rotate b 17 ^^^ c
  let c := rotate c 32
  ⟨a, b, c, d⟩

/-- Takes in one word. -/
def State.absorb (s : State) (word : UInt64) : State :=
  let s := { s with d := s.d ^^^ word }.round
  { s with a := s.a ^^^ word }

/-- The word that bytes make, the least first. -/
def wordOf (bytes : List UInt8) : UInt64 :=
  bytes.foldr (fun byte word => (word <<< 8) ||| byte.toUInt64) 0

/-- Takes in all bytes of a message of the given length. -/
def absorbAll (length : Nat) (s : State) : List UInt8 → State
  | b0 :: b1 :: b2 :: b3 :: b4 :: b5 :: b6 :: b7 :: rest =>
    absorbAll length (s.absorb (wordOf [b0, b1, b2, b3, b4, b5, b6, b7])) rest
  | rest => s.absorb (wordOf rest ||| (UInt64.ofNat length <<< 56))

/-- The hash of a message. -/
def hash (bytes : List UInt8) : UInt64 :=
  let s := absorbAll bytes.length .initial bytes
  let s := { s with c := s.c ^^^ 0xff }.round.round.round
  s.a ^^^ s.b ^^^ s.c ^^^ s.d

end Chalkboard.Text.SipHash
