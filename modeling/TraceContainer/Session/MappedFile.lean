import TraceContainer.Session.Basic

namespace TraceContainer

inductive FileQuery where
  | isOpen
  | path
  | size
  | read (offset size : UInt64)
  | slice (offset size : UInt64)
  /-- Takes the detail section to start at a given offset. -/
  | resolve (sectionStart : UInt64) (offset : Int64)

inductive MappedFileCall where
  | files (call : FileCall)
  | selectBackend (backend : Json.Backend)
  | openFile (path : String)
  | close
  | startScan (id : String) (indexOffset count : UInt64) (request : FilterRequest)
  | useScan (id : String) (call : ScanCall)
  | query (query : FileQuery)

namespace MappedFile

/-- A scan over records that are taken to start at a given offset. -/
def scanFor (file : MappedFile) (indexOffset count : UInt64) (request : FilterRequest) :
    Except Error Scan :=
  request.filter.map fun filter => { file, indexOffset, count, filter }

def answer (file : MappedFile) (decoder : Json.Decoder) : FileQuery → Reported Reply
  | .isOpen => { answer := .flag file.isOpen }
  | .path => { answer := .path file.path? }
  | .size => { answer := .number file.size }
  | .read offset size => { answer := .of .bytes (file.read offset size) }
  | .slice offset size => { answer := .of .bytes (file.slice offset size) }
  | .resolve sectionStart offset => (file.detailAt decoder sectionStart offset).map (.of .detail)

end MappedFile

namespace Session

/-- Changes the file and thereby ends all scans. -/
def replaceFile (session : Session MappedFile)
    (outcome : Outcome MappedFile (Except Error Unit)) : Outcome (Session MappedFile) Reply where
  answer := .status outcome.answer outcome.state.isOpen outcome.state.path?
  state := { session with source := outcome.state, scans := [] }
  events := outcome.events

def callFile (session : Session MappedFile) :
    MappedFileCall → Outcome (Session MappedFile) Reply
  | .files call => session.changeFiles call
  | .selectBackend backend => session.selectBackend backend
  | .openFile path => session.replaceFile (session.source.openFile session.store path)
  | .close => session.replaceFile (session.source.close.map id .ok)
  | .startScan id indexOffset count request =>
    session.startScan id (session.source.scanFor indexOffset count request)
  | .useScan id call => session.useScan id call
  | .query query => { session.source.answer session.decoder query with state := session }

end Session

end TraceContainer
