import TraceContainer.Json.Literal

/-! JSON text as a sequence of tokens: six marks, string literals, and words, which are the longest
runs of letters, digits, signs and points. Blanks separate and leave no trace. -/
namespace TraceContainer

inductive Token where
  | openArray
  | closeArray
  | openObject
  | closeObject
  | comma
  | colon
  | word (spelling : List Char)
  | text (value : String)
  deriving DecidableEq

namespace Token

def spelling : Token → List Char
  | openArray => ['[']
  | closeArray => [']']
  | openObject => ['\x7b']
  | closeObject => ['\x7d']
  | comma => [',']
  | colon => [':']
  | word spelling => spelling
  | text value => '"' :: Literal.encode value.toList ++ ['"']

def mark? : Char → Option Token
  | '[' => some openArray
  | ']' => some closeArray
  | '\x7b' => some openObject
  | '\x7d' => some closeObject
  | ',' => some comma
  | ':' => some colon
  | _ => none

def isBlank (char : Char) : Bool :=
  char == ' ' || char == '\t' || char == '\n' || char == '\r'

def isWordChar (char : Char) : Bool :=
  char.isAlphanum || char == '+' || char == '-' || char == '.'

/-- The token that a reader is inside of, with the characters of it read so far in reverse. -/
inductive Pending where
  | nothing
  | word (reversed : List Char)
  | literal (reversed : List Char) (escaped : Bool)

/-- The tokens that are complete, in reverse, and the one that is not. -/
structure Scanner where
  complete : List Token
  pending : Pending

namespace Scanner

def enter (complete : List Token) (char : Char) : Option Scanner :=
  if isBlank char then some ⟨complete, .nothing⟩
  else if char = '"' then some ⟨complete, .literal [] false⟩
  else if isWordChar char then some ⟨complete, .word [char]⟩
  else (mark? char).map fun mark => ⟨mark :: complete, .nothing⟩

/-- A quote ends a literal and a backslash keeps the next character from doing so; a word ends
before the first character that no word holds. -/
def step (scanner : Scanner) (char : Char) : Option Scanner :=
  match scanner.pending with
  | .nothing => enter scanner.complete char
  | .word reversed =>
    if isWordChar char then some ⟨scanner.complete, .word (char :: reversed)⟩
    else enter (.word reversed.reverse :: scanner.complete) char
  | .literal reversed escaped =>
    if escaped then some ⟨scanner.complete, .literal (char :: reversed) false⟩
    else if char = '"' then
      (Literal.decode reversed.reverse).map fun chars =>
        ⟨.text (String.ofList chars) :: scanner.complete, .nothing⟩
    else some ⟨scanner.complete, .literal (char :: reversed) (char == '\\')⟩

def finish? (scanner : Scanner) : Option (List Token) :=
  match scanner.pending with
  | .nothing => some scanner.complete.reverse
  | .word reversed => some (.word reversed.reverse :: scanner.complete).reverse
  | .literal _ _ => none

end Scanner

/-- The tokens of a text; none where a character starts no token or a literal is malformed. -/
def read? (text : List Char) : Option (List Token) :=
  (text.foldlM Scanner.step ⟨[], .nothing⟩).bind Scanner.finish?

end Token

end TraceContainer
