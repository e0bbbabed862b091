import TraceContainer.DetailEntry
import TraceContainer.Header
import TraceContainer.Manifest
import TraceContainer.Scan

/-! A reader of trace files, which has at most one file open. What an open file says of itself is
read once, when it is opened; everything else is read when it is asked for. The merged metadata
are put together when they are first asked for, and kept. -/
namespace TraceContainer

/-- What a file was found to hold when it was opened. -/
structure Contents where
  layout : Layout
  manifest : Manifest
  keptMetadata? : Option Members := none
  deriving DecidableEq

/-- The manifest's metadata with the path and the number of records, under keys that the manifest
does not use itself. -/
def Contents.mergedMetadata (contents : Contents) (path? : Option String) : Members :=
  let withPath := match path? with
    | none => contents.manifest.metadata
    | some path => Members.insertNew "path" (.string path) contents.manifest.metadata
  Members.insertNew "event_count" (.ofWord contents.layout.indexCount) withPath

structure Reader where
  file : MappedFile
  contents? : Option Contents
  deriving DecidableEq

namespace Reader

def closed : Reader := ⟨.closed, none⟩

def isOpen (reader : Reader) : Bool :=
  reader.contents?.isSome

def path? (reader : Reader) : Option String :=
  reader.file.path?

def readContents (decoder : Json.Decoder) (file : MappedFile) : Except Error Contents := do
  let headerBytes ← file.slice 0 (.ofNat (min Format.headerSize.toNat file.size))
  let header ← (Header.decode headerBytes).mapError .header
  let layout ← (header.validate file.size).mapError .header
  let manifestBytes ← file.slice layout.manifestOffset layout.manifestLength
  let manifest ← (Manifest.decode decoder manifestBytes).mapError .manifest
  return { layout, manifest := manifest.withCount layout.indexCount }

def close (reader : Reader) : Outcome Reader Unit :=
  reader.file.close.map (⟨·, none⟩) id

/-- Closes what is open and opens another file. A file that is refused is closed again. -/
def openFile (reader : Reader) (decoder : Json.Decoder) (store : FileStore) (path : String) :
    Outcome Reader (Except Error Unit) :=
  let closing := reader.close
  let mapping := closing.state.file.openFile store path
  let earlier := closing.events ++ mapping.events
  match mapping.answer with
  | .error error => { answer := .error error, state := ⟨mapping.state, none⟩, events := earlier }
  | .ok () =>
    match readContents decoder mapping.state with
    | .error error =>
      let releasing := mapping.state.close
      { answer := .error error
        state := ⟨releasing.state, none⟩
        events := earlier ++ .rejected path error :: releasing.events }
    | .ok contents =>
      { answer := .ok ()
        state := ⟨mapping.state, some contents⟩
        events := earlier ++ [.opened path mapping.state.size contents.layout.indexOffset
          contents.layout.indexCount contents.layout.detailOffset] }

/-- What the open file holds; every query fails on a closed reader. -/
def contents (reader : Reader) : Except Error Contents :=
  match reader.contents? with
  | none => .error (.notOpen .reader)
  | some contents => .ok contents

def layout (reader : Reader) : Except Error Layout :=
  reader.contents.map (·.layout)

def manifest (reader : Reader) : Except Error Manifest :=
  reader.contents.map (·.manifest)

/-- The merged metadata. Those that were put together before are given again. -/
def metadata (reader : Reader) : Outcome Reader (Except Error Members) :=
  match reader.contents? with
  | none => { answer := .error (.notOpen .reader), state := reader }
  | some contents =>
    match contents.keptMetadata? with
    | some members => { answer := .ok members, state := reader }
    | none =>
      let members := contents.mergedMetadata reader.path?
      { answer := .ok members
        state := { reader with contents? := some { contents with keptMetadata? := some members } } }

def timeRange (reader : Reader) : Except Error TimeRange :=
  reader.contents.map (·.manifest.timeRange)

def threadIds (reader : Reader) : Except Error (List UInt64) :=
  reader.contents.map (·.manifest.threadIds)

def scan (reader : Reader) (filter : EventFilter) : Except Error Scan :=
  reader.contents.map fun contents =>
    { file := reader.file
      indexOffset := contents.layout.indexOffset
      count := contents.layout.indexCount
      filter }

def detailAt (reader : Reader) (decoder : Json.Decoder) (offset : Int64) :
    Reported (Except Error Detail) :=
  match reader.contents with
  | .error error => { answer := .error error }
  | .ok contents => reader.file.detailAt decoder contents.layout.detailOffset offset

def detailFor (reader : Reader) (decoder : Json.Decoder) (event : Event) :
    Reported (Except Error (Option Detail)) :=
  match reader.contents with
  | .error error => { answer := .error error }
  | .ok _ =>
    if event.hasDetail then (reader.detailAt decoder event.detailOffset).map (·.map some)
    else { answer := .ok none }

/-- How many events a time range holds. Without one the number of records is taken from the header;
with one the index is scanned. -/
def estimate (reader : Reader) (timeRange? : Option TimeRange) : Except Error UInt64 := do
  let contents ← reader.contents
  match timeRange? with
  | none => return contents.layout.indexCount
  | some _ =>
    let scan ← reader.scan ⟨timeRange?, []⟩
    scan.items.foldlM (fun (count : UInt64) item => item.map fun _ => count + 1) 0

end Reader

end TraceContainer
