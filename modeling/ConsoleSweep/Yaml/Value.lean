import ConsoleSweep.Text.Decimal
import ConsoleSweep.Text.Quoted
import ConsoleSweep.Yaml.Tag

/-!
# Values of texts

A plain text without a tag stands for nothing, a truth value or a number if it is written like one.
A tag can ask for one of these kinds.
-/

namespace ConsoleSweep.Yaml

/-- What a text stands for. -/
inductive Value where
  | null
  | boolean (b : Bool)
  | integer (i : Int)
  | number (b : Binary)
  /-- Infinity or its opposite. -/
  | infinite (negative : Bool)
  | notANumber
  | text (s : String)
  deriving DecidableEq, Repr, Inhabited

namespace Value

/-- The ways to write nothing. -/
def nullWords : List String := ["null", "Null", "NULL", "~"]

/-- The truth value that is written. -/
def boolean? (s : String) : Option Bool :=
  if ["true", "True", "TRUE"].contains s then some true
  else if ["false", "False", "FALSE"].contains s then some false
  else none

/-- Whether digits start with a zero that does not belong there, which makes them a text. -/
def hasLeadingZero (cs : List Char) : Bool :=
  match (if cs.head? = some '-' || cs.head? = some '+' then cs.drop 1 else cs) with
  | '0' :: d :: rest => (d :: rest).all Char.isDigit
  | _ => false

/-- The value of digits in a base, if there are any and nothing else. -/
def natIn? (base : Nat) (cs : List Char) : Option Nat :=
  let push (n : Nat) (c : Char) : Option Nat :=
    (hexDigit? c).bind fun d => if d < base then some (n * base + d) else none
  if cs.isEmpty then none else cs.foldlM push 0

/-- The number without a sign that is written in decimal, or in another base after `0x`, `0o` or
`0b`. -/
def nat? (cs : List Char) : Option Nat :=
  match cs with
  | '0' :: 'x' :: rest => natIn? 16 rest
  | '0' :: 'o' :: rest => natIn? 8 rest
  | '0' :: 'b' :: rest => natIn? 2 rest
  | cs => if hasLeadingZero cs then none else natIn? 10 cs

/-- Whether a whole number is kept as one. -/
def isKept (i : Int) : Bool := -(Nat.pow 2 127 : Int) ≤ i && i < (Nat.pow 2 128 : Int)

/-- The whole number that is written. -/
def integer? (s : String) : Option Int :=
  let value :=
    match s.toList with
    | '-' :: cs => (nat? cs).map fun n => -(n : Int)
    | '+' :: cs => (nat? cs).map Int.ofNat
    | cs => (nat? cs).map Int.ofNat
  value.filter isKept

/-- The number with a fraction that is written. -/
def number? (s : String) : Option Value :=
  let unsigned := if s.toList.head? = some '+' then String.ofList (s.toList.drop 1) else s
  if s.toList.head? = some '+' && unsigned.toList.head?.any (fun c => c == '+' || c == '-') then
    none
  else if [".inf", ".Inf", ".INF"].contains unsigned then some (.infinite false)
  else if ["-.inf", "-.Inf", "-.INF"].contains s then some (.infinite true)
  else if [".nan", ".NaN", ".NAN"].contains s then some .notANumber
  else (Binary.ofChars? unsigned.toList).map .number

/-- What a plain text without a tag stands for. -/
def ofPlain (s : String) : Value :=
  if s = "" || nullWords.contains s then .null
  else
    match boolean? s, integer? s with
    | some b, _ => .boolean b
    | none, some i => .integer i
    | none, none =>
      if hasLeadingZero s.toList then .text s
      else
        match number? s with
        | some value => value
        | none => .text s

/-- What a text stands for, or, if it is not written as its tag asks, what it should be. -/
def ofScalar (tag : Option Bytes) (plain : Bool) (s : String) : Except String Value :=
  match tag with
  | none => .ok (if plain then ofPlain s else .text s)
  | some tag =>
    if tag = Tag.shared "bool" then
      match boolean? s with
      | some b => .ok (.boolean b)
      | none => .error "a boolean"
    else if tag = Tag.shared "int" then
      match integer? s with
      | some i => .ok (.integer i)
      | none => .error "an integer"
    else if tag = Tag.shared "float" then
      match number? s with
      | some value => .ok value
      | none => .error "a float"
    else if tag = Tag.shared "null" then
      if nullWords.contains s then .ok .null else .error "null"
    else .ok (.text s)

/-- A text as messages show it. -/
def describeText (s : String) : String := "string " ++ Quoted.text s

/-- A value as messages show it. -/
def describe : Value → String
  | null => "unit value"
  | boolean b => "boolean \x60" ++ toString b ++ "\x60"
  | integer i =>
    "integer \x60" ++ toString i ++ "\x60" ++
      if (Nat.pow 2 64 : Int) ≤ i then " as u128"
      else if i < -(Nat.pow 2 63 : Int) then " as i128" else ""
  | number b => "floating point \x60" ++ b.display ++ "\x60"
  | infinite negative => "floating point \x60" ++ (if negative then "-inf" else "inf") ++ "\x60"
  | notANumber => "floating point \x60NaN\x60"
  | text s => describeText s

end Value

end ConsoleSweep.Yaml
