import TraceContainer.Numeric.Binary64

namespace TraceContainer

/-- A number is an integer of a signed or an unsigned 64-bit word, or else a binary64. -/
inductive Number where
  | integer (value : Int) (fits : -2 ^ 63 ≤ value ∧ value < 2 ^ 64)
  | real (value : Binary64)
  deriving DecidableEq

inductive Json where
  | null
  | bool (value : Bool)
  | number (value : Number)
  | string (value : String)
  | array (items : List Json)
  | object (members : List (String × Json))

/-- The members of an object, in the order in which they are written. -/
abbrev Members := List (String × Json)

namespace Json

mutual

private def decideEq : (left right : Json) → Decidable (left = right)
  | .null, .null => isTrue rfl
  | .bool left, .bool right =>
    if same : left = right then isTrue (congrArg _ same)
    else isFalse fun equal => same (Json.bool.inj equal)
  | .number left, .number right =>
    if same : left = right then isTrue (congrArg _ same)
    else isFalse fun equal => same (Json.number.inj equal)
  | .string left, .string right =>
    if same : left = right then isTrue (congrArg _ same)
    else isFalse fun equal => same (Json.string.inj equal)
  | .array left, .array right =>
    match decideEqItems left right with
    | isTrue same => isTrue (congrArg _ same)
    | isFalse different => isFalse fun equal => different (Json.array.inj equal)
  | .object left, .object right =>
    match decideEqMembers left right with
    | isTrue same => isTrue (congrArg _ same)
    | isFalse different => isFalse fun equal => different (Json.object.inj equal)
  | .null, .bool _ | .null, .number _ | .null, .string _ | .null, .array _ | .null, .object _
  | .bool _, .null | .bool _, .number _ | .bool _, .string _ | .bool _, .array _
  | .bool _, .object _ | .number _, .null | .number _, .bool _ | .number _, .string _
  | .number _, .array _ | .number _, .object _ | .string _, .null | .string _, .bool _
  | .string _, .number _ | .string _, .array _ | .string _, .object _ | .array _, .null
  | .array _, .bool _ | .array _, .number _ | .array _, .string _ | .array _, .object _
  | .object _, .null | .object _, .bool _ | .object _, .number _ | .object _, .string _
  | .object _, .array _ => isFalse nofun

private def decideEqItems : (left right : List Json) → Decidable (left = right)
  | [], [] => isTrue rfl
  | left :: lefts, right :: rights =>
    match decideEq left right with
    | isTrue same =>
      match decideEqItems lefts rights with
      | isTrue rest => isTrue (by rw [same, rest])
      | isFalse different => isFalse fun equal => different (List.cons.inj equal).2
    | isFalse different => isFalse fun equal => different (List.cons.inj equal).1
  | [], _ :: _ | _ :: _, [] => isFalse nofun

private def decideEqMembers : (left right : Members) → Decidable (left = right)
  | [], [] => isTrue rfl
  | (leftKey, left) :: lefts, (rightKey, right) :: rights =>
    if key : leftKey = rightKey then
      match decideEq left right with
      | isTrue same =>
        match decideEqMembers lefts rights with
        | isTrue rest => isTrue (by rw [key, same, rest])
        | isFalse different => isFalse fun equal => different (List.cons.inj equal).2
      | isFalse different =>
        isFalse fun equal => different (Prod.mk.inj (List.cons.inj equal).1).2
    else isFalse fun equal => key (Prod.mk.inj (List.cons.inj equal).1).1
  | [], _ :: _ | _ :: _, [] => isFalse nofun

end

instance : DecidableEq Json := decideEq

def ofWord (word : UInt64) : Json :=
  .number (.integer word.toNat (by have bound := word.toNat_lt; omega))

def ofSigned (word : Int64) : Json :=
  .number (.integer word.toInt (by
    have low := word.le_toInt
    have high := word.toInt_lt
    omega))

end Json

namespace Members

def find? (members : Members) (key : String) : Option Json :=
  members.lookup key

/-- The value under a key, where an explicit null counts as no value. -/
def present? (members : Members) (key : String) : Option Json :=
  (find? members key).filter (· ≠ .null)

/-- Puts a member in its place among ascending keys, unless its key is there already. -/
def insertNew (key : String) (value : Json) : Members → Members
  | [] => [(key, value)]
  | (head, first) :: rest =>
    if key < head then (key, value) :: (head, first) :: rest
    else if key = head then (head, first) :: rest
    else (head, first) :: insertNew key value rest

/-- The members of an object from their reversed list: keys ascend, and of several members with
one key the last written stays. -/
def ofReversed (reversed : Members) : Members :=
  reversed.foldl (fun members (key, value) => insertNew key value members) []

end Members

end TraceContainer
