import TraceContainer.Json.Assembly

namespace TraceContainer.Json

/-- The compact text of a value, members in the order in which the value holds them. -/
def text (value : Json) : String :=
  String.ofList (value.tokens.flatMap Token.spelling)

def ofText? (text : String) : Option Json := do
  Assembly.run? (← Token.read? text.toList)

def encode (value : Json) : ByteArray :=
  value.text.toUTF8

/-- The value of a document; bytes that are no UTF-8 text are none. -/
def decode? (payload : ByteArray) : Option Json := do
  ofText? (← String.fromUTF8? payload)

inductive Backend where
  | scalar
  | vector
  deriving DecidableEq

namespace Backend

def preferred : Backend := scalar

def isAvailable : Backend → Bool
  | scalar => true
  | vector => false

def effective (backend : Backend) : Backend :=
  if backend.isAvailable then backend else scalar

def name : Backend → String
  | scalar => "SerdeJson"
  | vector => "SimdJson"

end Backend

/-- The backend that is selected, and the words that the library behind it has for a payload which
is no document. -/
structure Decoder where
  backend : Backend
  complaint : ByteArray → String

namespace Decoder

def saying (words : String) : Decoder where
  backend := .preferred
  complaint _ := words

def decodeScalar (decoder : Decoder) (payload : ByteArray) : Except String Json :=
  match decode? payload with
  | none => .error (decoder.complaint payload)
  | some value => .ok value

/-- This build has no decoder with vector instructions; the scalar one stands in for it. -/
def decodeVector (decoder : Decoder) (payload : ByteArray) : Except String Json :=
  decoder.decodeScalar payload

def decode (decoder : Decoder) (payload : ByteArray) : Except String Json :=
  match decoder.backend with
  | .scalar => decoder.decodeScalar payload
  | .vector => decoder.decodeVector payload

/-- Every backend leads to one decoder. -/
theorem decode_eq_decodeScalar (decoder : Decoder) (payload : ByteArray) :
    decoder.decode payload = decoder.decodeScalar payload := by
  cases selected : decoder.backend with
  | scalar => simp only [decode, selected]
  | vector => simp only [decode, selected, decodeVector]

theorem decode_congr {decoder other : Decoder} (same : decoder.complaint = other.complaint)
    (payload : ByteArray) : decoder.decode payload = other.decode payload := by
  rw [decode_eq_decodeScalar, decode_eq_decodeScalar, decodeScalar, decodeScalar, same]

theorem decode_eq_ok_iff (decoder : Decoder) {payload : ByteArray} {value : Json} :
    decoder.decode payload = .ok value ↔ decode? payload = some value := by
  rw [decode_eq_decodeScalar, decodeScalar]
  cases decode? payload with
  | none => exact ⟨nofun, nofun⟩
  | some found => simp only [Except.ok.injEq, Option.some.injEq]

end Decoder

end TraceContainer.Json
