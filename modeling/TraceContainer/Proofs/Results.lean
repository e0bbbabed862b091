import Mathlib.Data.List.Forall2
import TraceContainer.Error

namespace TraceContainer

def Error.failure? {Answer : Type} : Except Error Answer → Option ErrorKind
  | .error error => some error.kind
  | .ok _ => none

variable {Failure Value Result : Type}

theorem mapError_ok {Cause : Type} (wrap : Failure → Cause) (value : Value) :
    (Except.ok value).mapError wrap = .ok value := rfl

theorem mapError_error {Cause : Type} (wrap : Failure → Cause) (failure : Failure) :
    (Except.error failure : Except Failure Value).mapError wrap = .error (wrap failure) := rfl

theorem mapError_eq_ok_iff {Cause : Type} {wrap : Failure → Cause} {result : Except Failure Value}
    {value : Value} : result.mapError wrap = .ok value ↔ result = .ok value := by
  cases result with
  | ok other => rw [mapError_ok, Except.ok.injEq, Except.ok.injEq]
  | error failure => exact ⟨nofun, nofun⟩

theorem bind_ok (value : Value) (next : Value → Except Failure Result) :
    Except.ok value >>= next = next value := rfl

theorem bind_error (failure : Failure) (next : Value → Except Failure Result) :
    Except.error failure >>= next = .error failure := rfl

theorem bind_eq_ok_iff {first : Except Failure Value} {next : Value → Except Failure Result}
    {result : Result} :
    first >>= next = .ok result ↔ ∃ value, first = .ok value ∧ next value = .ok result := by
  cases first with
  | ok value =>
    refine ⟨fun last => ⟨value, rfl, last⟩, ?_⟩
    rintro ⟨_, same, last⟩
    cases same
    exact last
  | error failure =>
    refine ⟨nofun, ?_⟩
    rintro ⟨_, same, _⟩
    cases same

/-- A failure has the class of the errors that its causes become, and a value has none. -/
theorem failure?_mapError_iff {wrap : Failure → Error} {kind : ErrorKind}
    (same : ∀ cause, (wrap cause).kind = kind) (result : Except Failure Value) (other : ErrorKind) :
    Error.failure? (result.mapError wrap) = some other ↔
      other = kind ∧ ¬ ∃ value, result = .ok value := by
  cases result with
  | ok value =>
    refine ⟨nofun, ?_⟩
    rintro ⟨_, nothing⟩
    exact absurd ⟨value, rfl⟩ nothing
  | error cause =>
    rw [mapError_error, Error.failure?, same cause, Option.some.injEq]
    refine ⟨fun equal => ⟨equal.symm, ?_⟩, fun both => both.1.symm⟩
    rintro ⟨_, impossible⟩
    cases impossible

theorem mapM_eq_some_iff {Item : Type} {read : Item → Option Value} {items : List Item}
    {values : List Value} :
    items.mapM read = some values ↔
      List.Forall₂ (fun item value => read item = some value) items values := by
  induction items generalizing values with
  | nil =>
    rw [List.mapM_nil, List.forall₂_nil_left_iff]
    exact ⟨fun same => (Option.some.inj same).symm, congrArg some ∘ Eq.symm⟩
  | cons item rest ih =>
    rw [List.mapM_cons, List.forall₂_cons_left_iff, Option.bind_eq_bind, Option.bind_eq_some_iff]
    constructor
    · rintro ⟨value, first, read⟩
      obtain ⟨others, later, same⟩ := Option.bind_eq_some_iff.mp read
      exact ⟨value, others, first, ih.mp later, (Option.some.inj same).symm⟩
    · rintro ⟨value, others, first, later, rfl⟩
      exact ⟨value, first, Option.bind_eq_some_iff.mpr ⟨others, ih.mpr later, rfl⟩⟩

/-- A value that is there is the result, whatever failures there are. -/
theorem eq_ok_of_toOption {result : Except Failure Value} {value : Value}
    (present : result.toOption = some value) : result = .ok value := by
  cases result with
  | ok value => exact congrArg Except.ok (Option.some.inj present)
  | error failure => cases present

end TraceContainer
