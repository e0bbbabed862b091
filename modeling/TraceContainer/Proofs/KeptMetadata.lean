import TraceContainer.Session.Reader
import TraceContainer.Proofs.Results

namespace TraceContainer.Reader

/-- Whatever is kept of the metadata is what would be put together now. -/
def Coherent (reader : Reader) : Prop :=
  ∀ contents ∈ reader.contents?, ∀ members ∈ contents.keptMetadata?,
    members = contents.mergedMetadata reader.path?

/-- The reader as it was before its metadata were asked for. -/
def forget (reader : Reader) : Reader :=
  { reader with
    contents? := reader.contents?.map fun contents => { contents with keptMetadata? := none } }

theorem coherent_of_forget_eq {reader : Reader} (fresh : reader.forget = reader) :
    reader.Coherent := by
  intro contents present members kept
  have again := congrArg Reader.contents? fresh
  rw [forget, Option.mem_def.mp present, Option.map_some, Option.some.injEq] at again
  rw [← again] at kept
  cases kept

@[simp] theorem path?_forget (reader : Reader) : reader.forget.path? = reader.path? := rfl

@[simp] theorem file_forget (reader : Reader) : reader.forget.file = reader.file := rfl

@[simp] theorem isOpen_forget (reader : Reader) : reader.forget.isOpen = reader.isOpen := by
  simp [forget, isOpen]

/-- What is kept of the metadata is not looked at by a view of the other contents. -/
theorem map_contents_forget {View : Type} (reader : Reader) (view : Contents → View)
    (blind : ∀ contents : Contents, view { contents with keptMetadata? := none } = view contents) :
    reader.forget.contents.map view = reader.contents.map view := by
  obtain ⟨file, contents?⟩ := reader
  cases contents? with
  | none => rfl
  | some contents => exact congrArg Except.ok (blind contents)

section Views

variable (reader : Reader) (decoder : Json.Decoder)

@[simp] theorem layout_forget : reader.forget.layout = reader.layout :=
  reader.map_contents_forget _ fun _ => rfl

@[simp] theorem manifest_forget : reader.forget.manifest = reader.manifest :=
  reader.map_contents_forget _ fun _ => rfl

@[simp] theorem timeRange_forget : reader.forget.timeRange = reader.timeRange :=
  reader.map_contents_forget _ fun _ => rfl

@[simp] theorem threadIds_forget : reader.forget.threadIds = reader.threadIds :=
  reader.map_contents_forget _ fun _ => rfl

@[simp] theorem scan_forget (filter : EventFilter) :
    reader.forget.scan filter = reader.scan filter :=
  reader.map_contents_forget _ fun _ => rfl

@[simp] theorem scanFor_forget (request : FilterRequest) :
    reader.forget.scanFor request = reader.scanFor request := by
  simp only [scanFor, scan_forget]

@[simp] theorem detailAt_forget (offset : Int64) :
    reader.forget.detailAt decoder offset = reader.detailAt decoder offset := by
  obtain ⟨file, contents?⟩ := reader
  cases contents? <;> rfl

@[simp] theorem detailFor_forget (event : Event) :
    reader.forget.detailFor decoder event = reader.detailFor decoder event := by
  obtain ⟨file, contents?⟩ := reader
  cases contents? <;> rfl

@[simp] theorem estimate_forget (timeRange? : Option TimeRange) :
    reader.forget.estimate timeRange? = reader.estimate timeRange? := by
  obtain ⟨file, contents?⟩ := reader
  cases contents? <;> rfl

@[simp] theorem detailOfItem_forget :
    reader.forget.detailOfItem decoder = reader.detailOfItem decoder := by
  funext item
  cases item with
  | error error => rfl
  | ok event => exact reader.detailFor_forget decoder event

end Views

variable {reader : Reader}

theorem metadata_answer (coherent : reader.Coherent) :
    reader.metadata.answer = reader.contents.map (·.mergedMetadata reader.path?) := by
  obtain ⟨file, contents?⟩ := reader
  cases contents? with
  | none => rfl
  | some contents =>
    cases kept : contents.keptMetadata? with
    | none => simp [metadata, Reader.contents, kept, Except.map]
    | some members =>
      have same := coherent contents rfl members kept
      simp [metadata, Reader.contents, kept, Except.map, same]

/-- Asking changes nothing but what is kept of the metadata. -/
theorem forget_asked (reader : Reader) (query : ReaderQuery) :
    (reader.asked query).forget = reader.forget := by
  cases query with
  | metadata =>
    obtain ⟨file, contents?⟩ := reader
    cases contents? with
    | none => rfl
    | some contents => cases kept : contents.keptMetadata? <;> simp [asked, metadata, forget, kept]
  | _ => rfl

theorem coherent_asked (coherent : reader.Coherent) (query : ReaderQuery) :
    (reader.asked query).Coherent := by
  cases query with
  | metadata =>
    obtain ⟨file, contents?⟩ := reader
    cases contents? with
    | none => exact coherent
    | some contents =>
      cases kept : contents.keptMetadata? with
      | none =>
        simp only [asked, metadata, kept]
        intro later present members found
        cases present
        cases found
        rfl
      | some members =>
        simp only [asked, metadata, kept]
        exact coherent
  | _ => exact coherent

theorem coherent_forget (reader : Reader) : reader.forget.Coherent := by
  intro contents present members kept
  obtain ⟨former, _, rfl⟩ := Option.map_eq_some_iff.mp present
  cases kept

theorem metadata_forget (coherent : reader.Coherent) :
    reader.forget.metadata.answer = reader.metadata.answer := by
  rw [metadata_answer coherent, metadata_answer reader.coherent_forget, path?_forget]
  exact reader.map_contents_forget _ fun _ => rfl

/-- No reply shows whether the metadata were asked for before. -/
theorem answer_forget (coherent : reader.Coherent) (decoder : Json.Decoder) (query : ReaderQuery) :
    reader.forget.answer decoder query = reader.answer decoder query := by
  cases query with
  | metadata => simp only [answer, metadata_forget coherent]
  | _ => simp [answer]

end TraceContainer.Reader
