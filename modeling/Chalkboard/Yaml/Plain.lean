import Chalkboard.Decimal.Literal

/-!
# What plain scalars mean

A plain scalar may write a truth value, a whole number, a floating-point number or nothing; anything
else is text.
-/

namespace Chalkboard.Yaml

open Decimal

/-- The words for nothing. -/
def isNull (s : String) : Bool :=
  ["", "~", "null", "Null", "NULL"].contains s

/-- A truth value. -/
def bool? (s : String) : Option Bool :=
  if ["true", "True", "TRUE"].contains s then some true
  else if ["false", "False", "FALSE"].contains s then some false
  else none

/-- Digits that begin with a needless zero. They are text, not a number. -/
def isPadded (cs : List Char) : Bool :=
  match (splitSign cs).2 with
  | '0' :: rest => !rest.isEmpty && rest.all Char.isDigit
  | _ => false

/-- A whole number without a sign, in base ten, sixteen, eight or two. -/
def magnitude? : List Char → Option Nat
  | '0' :: 'x' :: rest => Text.numberIn? 16 rest
  | '0' :: 'o' :: rest => Text.numberIn? 8 rest
  | '0' :: 'b' :: rest => Text.numberIn? 2 rest
  | cs => Text.numberIn? 10 cs

/-- A whole number that is not negative. -/
def natural? (s : String) : Option Nat :=
  match s.toList with
  | '+' :: cs => if isPadded cs then none else magnitude? cs
  | cs => if isPadded cs then none else magnitude? cs

/-- A negative whole number. -/
def negative? (s : String) : Option Nat :=
  match s.toList with
  | '-' :: cs => if isPadded cs then none else magnitude? cs
  | _ => none

/-- A floating-point number. -/
def float? (s : String) : Option Float :=
  let unsigned := match s.toList with
    | '+' :: cs => cs
    | cs => cs
  if [".inf", ".Inf", ".INF"].contains (String.ofList unsigned) then some (1.0 / 0.0)
  else if ["-.inf", "-.Inf", "-.INF"].contains s then some (-1.0 / 0.0)
  else if [".nan", ".NaN", ".NAN"].contains s then some (0.0 / 0.0)
  else if s.startsWith "+" && (unsigned.head? = some '+' || unsigned.head? = some '-') then none
  else (literal? unsigned).filter Float.isFinite

/-- A text that would be read as something else if it were plain. -/
def isAmbiguous (s : String) : Bool :=
  isNull s || (bool? s).isSome || (natural? s).isSome || (negative? s).isSome ||
    isPadded s.toList || (float? s).isSome ||
    ["y", "Y", "yes", "Yes", "YES", "n", "N", "no", "No", "NO", "on", "On", "ON", "off", "Off",
     "OFF"].contains s

end Chalkboard.Yaml
