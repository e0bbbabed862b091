import TraceContainer.Json.Basic

namespace TraceContainer.Text

/-- The first and the last code point of each run of white space: 25 characters in all. -/
def blankRanges : List (Nat × Nat) := [
  (0x9, 0xd), (0x20, 0x20), (0x85, 0x85), (0xa0, 0xa0), (0x1680, 0x1680), (0x2000, 0x200a),
  (0x2028, 0x2029), (0x202f, 0x202f), (0x205f, 0x205f), (0x3000, 0x3000)]

def isBlank (char : Char) : Bool :=
  blankRanges.any fun (first, last) => first ≤ char.toNat && char.toNat ≤ last

def trim (text : List Char) : List Char :=
  ((text.dropWhile isBlank).reverse.dropWhile isBlank).reverse

/-- The integer itself, if a signed word of 128 bits holds it. -/
def wide? (number : Int) : Option Int :=
  if -2 ^ 127 ≤ number ∧ number < 2 ^ 127 then some number else none

/-- Reads on behind the digits read so far, away from zero. No product and no sum on the way may
leave a signed word of 128 bits. -/
def readOnto (negative : Bool) (number : Int) : List Char → Option Int
  | [] => some number
  | digit :: rest =>
    if digit.isDigit then do
      let shifted ← wide? (10 * number)
      let size : Int := (digit.toNat - '0'.toNat : Nat)
      let next ← wide? (if negative then shifted - size else shifted + size)
      readOnto negative next rest
    else none

def readDigits? (negative : Bool) (digits : List Char) : Option Int :=
  if digits.isEmpty then none else readOnto negative 0 digits

/-- The integer that a text spells in ASCII digits behind at most one sign, if a signed word of
128 bits holds it. -/
def signed? : List Char → Option Int
  | '-' :: digits => readDigits? true digits
  | '+' :: digits => readDigits? false digits
  | digits => readDigits? false digits

end TraceContainer.Text

namespace TraceContainer.Json

def integer? : Json → Option Int
  | .number (.integer value _) => some value
  | _ => none

def word? (value : Json) : Option UInt64 :=
  match value.integer? with
  | some (.ofNat size) => some (UInt64.ofNat size)
  | _ => none

/-- The integer that a value denotes: a number kept as an integer, or a string that spells one of at
most 128 bits between white space. -/
def denoted? : Json → Option Int
  | .string text => Text.signed? (Text.trim text.toList)
  | value => value.integer?

end TraceContainer.Json
