import TraceContainer.Reader

/-! Sessions: a store of files, a source of events that has at most one of them open, and scans
over that source which were given names. Opening and closing the source ends all its scans. -/
namespace TraceContainer

structure Session (Source : Type) where
  store : FileStore
  source : Source
  decoder : Json.Decoder
  scans : List (String × Scan)

structure FileCall where
  change : FileStore → FileStore

namespace FileCall

def write (name : String) (bytes : ByteArray) : FileCall := ⟨(·.write name bytes)⟩

def remove (name : String) : FileCall := ⟨(·.remove name)⟩

end FileCall

/-- Calls on a scan. The last two end it. -/
inductive ScanCall where
  | next
  | hint
  | rest
  | count

/-- What is wanted of a scan's filter: bounds of time, which may be in the wrong order, and
threads. -/
structure FilterRequest where
  bounds : Option (UInt64 × UInt64)
  threadIds : List UInt64

def FilterRequest.filter (request : FilterRequest) : Except Error EventFilter :=
  EventFilter.between request.bounds request.threadIds

inductive Reply where
  | done
  | failed (error : Error)
  /-- The named scan is not there. -/
  | noScan
  /-- The source was to be opened or closed; how that went, and how it is now. -/
  | status (result : Except Error Unit) (isOpen : Bool) (path? : Option String)
  | flag (value : Bool)
  | path (path? : Option String)
  | backend (backend : Json.Backend)
  | number (value : Nat)
  | bytes (bytes : ByteArray)
  | started (hint : Nat × Nat)
  | item (item? : Option (Except Error Event)) (hint : Nat × Nat)
  | hint (hint : Nat × Nat)
  | events (result : ScanResult)
  | layout (layout : Layout)
  | manifest (manifest : Manifest)
  | metadata (members : Members)
  | timeRange (range : TimeRange)
  | threadIds (threadIds : List UInt64)
  | detail (detail : Detail)
  | eventDetail (detail? : Option Detail)
  | details (answers : List (Except Error (Option Detail)))

def Reply.of {Answer : Type} (reply : Answer → Reply) : Except Error Answer → Reply
  | .ok answer => reply answer
  | .error error => .failed error

namespace Session

variable {Source : Type}

def start (decoder : Json.Decoder) (store : FileStore) (source : Source) : Session Source where
  store
  source
  decoder
  scans := []

def scan? (session : Session Source) (id : String) : Option Scan :=
  session.scans.lookup id

def endScan (session : Session Source) (id : String) : Session Source :=
  { session with scans := session.scans.filter fun (other, _) => other ≠ id }

/-- Gives a name to a scan, which takes the place of any other of that name. -/
def putScan (session : Session Source) (id : String) (scan : Scan) : Session Source :=
  { session with scans := (id, scan) :: (session.endScan id).scans }

def changeFiles (session : Session Source) (call : FileCall) : Outcome (Session Source) Reply where
  answer := .done
  state := { session with store := call.change session.store }

def selectBackend (session : Session Source) (requested : Json.Backend) :
    Outcome (Session Source) Reply where
  answer := .backend requested.effective
  state := { session with decoder := { session.decoder with backend := requested.effective } }
  events := [.backendSelected requested requested.effective]

def startScan (session : Session Source) (id : String) :
    Except Error Scan → Outcome (Session Source) Reply
  | .error error => { answer := .failed error, state := session }
  | .ok scan => { answer := .started scan.sizeHint, state := session.putScan id scan }

def useScan (session : Session Source) (id : String) (call : ScanCall) :
    Outcome (Session Source) Reply :=
  match session.scan? id with
  | none => { answer := .noScan, state := session }
  | some scan =>
    match call with
    | .next =>
      let (item?, later) := scan.next
      { answer := .item item? later.sizeHint, state := session.putScan id later }
    | .hint => { answer := .hint scan.sizeHint, state := session }
    | .rest => { answer := .events scan.result, state := session.endScan id }
    | .count => { answer := .number scan.items.length, state := session.endScan id }

def run {Call : Type} (step : Session Source → Call → Outcome (Session Source) Reply)
    (session : Session Source) : List Call → List (Outcome (Session Source) Reply)
  | [] => []
  | call :: rest =>
    let outcome := step session call
    outcome :: run step outcome.state rest

end Session

end TraceContainer
