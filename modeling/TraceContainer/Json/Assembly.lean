import TraceContainer.Json.Numeral
import TraceContainer.Json.Token

/-! JSON values as token sequences. A value is taken apart by `Json.tokens` and put together by a
machine that accepts one token at a time and keeps the containers that are still open. -/
namespace TraceContainer

namespace Json

def wordOfBool : Bool → List Char
  | true => ['t', 'r', 'u', 'e']
  | false => ['f', 'a', 'l', 's', 'e']

mutual

def tokens : Json → List Token
  | .null => [.word ['n', 'u', 'l', 'l']]
  | .bool value => [.word (wordOfBool value)]
  | .number value => [.word value.spelling]
  | .string value => [.text value]
  | .array items => .openArray :: itemTokens items
  | .object members => .openObject :: memberTokens members

def itemTokens : List Json → List Token
  | [] => [.closeArray]
  | first :: rest => first.tokens ++ moreItemTokens rest

def moreItemTokens : List Json → List Token
  | [] => [.closeArray]
  | next :: rest => .comma :: next.tokens ++ moreItemTokens rest

def memberTokens : List (String × Json) → List Token
  | [] => [.closeObject]
  | (key, value) :: rest => .text key :: .colon :: value.tokens ++ moreMemberTokens rest

def moreMemberTokens : List (String × Json) → List Token
  | [] => [.closeObject]
  | (key, value) :: rest => .comma :: .text key :: .colon :: value.tokens ++ moreMemberTokens rest

end

def ofWord? (spelling : List Char) : Option Json :=
  if spelling = ['n', 'u', 'l', 'l'] then some .null
  else if spelling = wordOfBool true then some (.bool true)
  else if spelling = wordOfBool false then some (.bool false)
  else (Number.ofChars? spelling).map .number

end Json

/-- An open container: what it holds so far, in reverse, up to the value being read. -/
inductive Frame where
  | items (done : List Json)
  | member (done : Members) (key : String)

/-- What may come next, inside which open containers, the innermost first. -/
inductive Assembly where
  | value (frames : List Frame)
  | firstItem (frames : List Frame)
  | afterItem (done : List Json) (frames : List Frame)
  | firstKey (frames : List Frame)
  | nextKey (done : Members) (frames : List Frame)
  | afterKey (done : Members) (key : String) (frames : List Frame)
  | afterMember (done : Members) (frames : List Frame)
  | complete (value : Json)

namespace Assembly

def maxDepth : Nat := 127

/-- Hands a finished value to the container around it. -/
def place (value : Json) : List Frame → Assembly
  | [] => complete value
  | .items done :: frames => afterItem (value :: done) frames
  | .member done key :: frames => afterMember ((key, value) :: done) frames

def start (frames : List Frame) : Token → Option Assembly
  | .word spelling => (Json.ofWord? spelling).map (place · frames)
  | .text text => some (place (.string text) frames)
  | .openArray => if frames.length < maxDepth then some (firstItem frames) else none
  | .openObject => if frames.length < maxDepth then some (firstKey frames) else none
  | _ => none

def accept : Assembly → Token → Option Assembly
  | .value frames, token => start frames token
  | .firstItem frames, .closeArray => some (place (.array []) frames)
  | .firstItem frames, token => start (.items [] :: frames) token
  | .afterItem done frames, .comma => some (.value (.items done :: frames))
  | .afterItem done frames, .closeArray => some (place (.array done.reverse) frames)
  | .firstKey frames, .closeObject => some (place (.object []) frames)
  | .firstKey frames, .text key => some (afterKey [] key frames)
  | .nextKey done frames, .text key => some (afterKey done key frames)
  | .afterKey done key frames, .colon => some (.value (.member done key :: frames))
  | .afterMember done frames, .comma => some (nextKey done frames)
  | .afterMember done frames, .closeObject =>
    some (place (.object (Members.ofReversed done)) frames)
  | _, _ => none

def run? (tokens : List Token) : Option Json :=
  match tokens.foldlM accept (.value []) with
  | some (.complete result) => some result
  | _ => none

end Assembly

end TraceContainer
