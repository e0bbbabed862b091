import TraceContainer.Detail
import TraceContainer.MappedFile

/-! Entries of the detail section: a length of four bytes and a payload of so many bytes. The
offsets that lead to them come from files and are not to be trusted. -/
namespace TraceContainer

structure DetailEntry where
  length : UInt32
  payload : ByteArray

namespace MappedFile

/-- The bytes of the length in front of an entry. Where they cannot be had from an open file, the
entry is to blame. -/
def lengthAt (file : MappedFile) (offset : Int64) : Except Error UInt32 :=
  match file.slice offset.toUInt64 Format.lengthSize with
  | .error (.notOpen subject) => .error (.notOpen subject)
  | .error _ => .error (.decode (.noLength offset))
  | .ok bytes =>
    match Binary.number? bytes 0 4 with
    | none => .error (.decode (.noLength offset))
    | some length => .ok (.ofNat length)

def entryAt (file : MappedFile) (sectionStart : UInt64) (offset : Int64) :
    Except Error DetailEntry :=
  if offset < 0 ∨ offset.toUInt64 < sectionStart then
    .error (.decode (.precedesSection offset sectionStart))
  else
    match file.lengthAt offset with
    | .error error => .error error
    | .ok length =>
      let payloadStart := offset.toUInt64 + Format.lengthSize
      if file.size < (payloadStart + length.toUInt64).toNat then
        .error (.decode (.beyondFile offset length))
      else
        match file.slice payloadStart length.toUInt64 with
        | .error error => .error error
        | .ok payload => .ok { length, payload }

/-- The detail at an offset. Once the entry's bounds are accepted it is reported, whether or not
its payload can be decoded. -/
def detailAt (file : MappedFile) (decoder : Json.Decoder) (sectionStart : UInt64)
    (offset : Int64) : Reported (Except Error Detail) :=
  match file.entryAt sectionStart offset with
  | .error error => { answer := .error error }
  | .ok entry => {
      answer := (Detail.decode decoder entry.payload offset).mapError .decode
      events := [.resolving offset entry.length] }

end MappedFile

end TraceContainer
