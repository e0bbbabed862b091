import TraceContainer.Session.Basic

namespace TraceContainer

inductive ReaderQuery where
  | isOpen
  | path
  | layout
  | manifest
  | metadata
  | timeRange
  | threadIds
  | events (request : FilterRequest)
  | detail (offset : Int64)
  | detailFor (event : Event)
  | detailEach (request : FilterRequest)
  | estimate (bounds : Option (UInt64 × UInt64))

inductive ReaderCall where
  | files (call : FileCall)
  | selectBackend (backend : Json.Backend)
  | openFile (path : String)
  /-- Opens a new reader, which takes the place of the present one if it succeeds. -/
  | openNew (path : String)
  | close
  | startScan (id : String) (request : FilterRequest)
  | useScan (id : String) (call : ScanCall)
  | query (query : ReaderQuery)

namespace Reader

/-- A scan as it is asked for; a filter that cannot be comes before a reader that is closed. -/
def scanFor (reader : Reader) (request : FilterRequest) : Except Error Scan := do
  reader.scan (← request.filter)

/-- The detail of an item of a scan; the error that ends a scan is its own answer. -/
def detailOfItem (reader : Reader) (decoder : Json.Decoder) :
    Except Error Event → Reported (Except Error (Option Detail))
  | .error error => { answer := .error error }
  | .ok event => reader.detailFor decoder event

def answer (reader : Reader) (decoder : Json.Decoder) : ReaderQuery → Reported Reply
  | .isOpen => { answer := .flag reader.isOpen }
  | .path => { answer := .path reader.path? }
  | .layout => { answer := .of .layout reader.layout }
  | .manifest => { answer := .of .manifest reader.manifest }
  | .metadata => { answer := .of .metadata reader.metadata.answer }
  | .timeRange => { answer := .of .timeRange reader.timeRange }
  | .threadIds => { answer := .of .threadIds reader.threadIds }
  | .events request =>
    { answer := .of (.events ·.result) (reader.scanFor request) }
  | .detail offset => (reader.detailAt decoder offset).map (.of .detail)
  | .detailFor event => (reader.detailFor decoder event).map (.of .eventDetail)
  | .detailEach request =>
    match reader.scanFor request with
    | .error error => { answer := .failed error }
    | .ok scan =>
      let outcomes := scan.items.map (reader.detailOfItem decoder)
      { answer := .details (outcomes.map (·.answer))
        events := outcomes.flatMap (·.events) }
  | .estimate bounds =>
    let estimate := do
      let filter ← EventFilter.between bounds []
      reader.estimate filter.timeRange?
    { answer := .of (.number ·.toNat) estimate }

/-- The reader behind a query, which may have made it keep something. -/
def asked (reader : Reader) : ReaderQuery → Reader
  | .metadata => reader.metadata.state
  | _ => reader

end Reader

namespace Session

def replaceReader (session : Session Reader) (outcome : Outcome Reader (Except Error Unit)) :
    Outcome (Session Reader) Reply where
  answer := .status outcome.answer outcome.state.isOpen outcome.state.path?
  state := { session with source := outcome.state, scans := [] }
  events := outcome.events

/-- A new reader's outcome, with the present one kept where the new one failed. -/
def preferNew (present : Reader) (outcome : Outcome Reader (Except Error Unit)) :
    Outcome Reader (Except Error Unit) :=
  match outcome.answer with
  | .ok () => outcome
  | .error _ => { outcome with state := present }

def callReader (session : Session Reader) : ReaderCall → Outcome (Session Reader) Reply
  | .files call => session.changeFiles call
  | .selectBackend backend => session.selectBackend backend
  | .openFile path =>
    session.replaceReader (session.source.openFile session.decoder session.store path)
  | .openNew path =>
    session.replaceReader (preferNew session.source
      (Reader.closed.openFile session.decoder session.store path))
  | .close => session.replaceReader (session.source.close.map id .ok)
  | .startScan id request => session.startScan id (session.source.scanFor request)
  | .useScan id call => session.useScan id call
  | .query query =>
    { session.source.answer session.decoder query with
      state := { session with source := session.source.asked query } }

end Session

end TraceContainer
