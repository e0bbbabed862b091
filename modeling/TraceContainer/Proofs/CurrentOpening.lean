import Mathlib.Data.List.Induction
import TraceContainer.Proofs.Lifecycle

namespace TraceContainer.Session

/-- The opening that a run of calls has left in force: where it stands in the run, what its path
led to then, and what that was found to hold. No later call opened or closed anything. -/
structure CurrentOpening (start : Session Reader) (calls : List ReaderCall) where
  earlier : List ReaderCall
  call : ReaderCall
  later : List ReaderCall
  path : String
  bytes : ByteArray
  contents : Contents
  split : earlier ++ [call] ++ later = calls
  opens : call = .openFile path ∨ call = .openNew path
  found : (start.after callReader earlier).store.read path = .ok bytes
  read : Contents.read (start.after callReader earlier).decoder bytes = .ok contents
  undisturbed : ReaderCall.lastVerdict?
    ((start.after callReader (earlier ++ [call])).history callReader later) = none

namespace CurrentOpening

variable {start : Session Reader} {calls : List ReaderCall}

def extend (current : start.CurrentOpening calls) (call : ReaderCall)
    (keeps : ReaderCall.verdict? (call,
      ((start.after callReader calls).callReader call).answer) = none) :
    start.CurrentOpening (calls ++ [call]) where
  earlier := current.earlier
  call := current.call
  later := current.later ++ [call]
  path := current.path
  bytes := current.bytes
  contents := current.contents
  split := by rw [← List.append_assoc, current.split]
  opens := current.opens
  found := current.found
  read := current.read
  undisturbed := by
    rw [← current.split, after_append] at keeps
    rw [history_append, ReaderCall.lastVerdict?_append, current.undisturbed, Option.or_none]
    exact (ReaderCall.lastVerdict?_singleton _).trans keeps

end CurrentOpening

def ClosedOrCurrent (start : Session Reader) (calls : List ReaderCall) (reader : Reader) : Prop :=
  reader = .closed ∨ ∃ current : start.CurrentOpening calls,
    reader.Continues (.holding current.path current.bytes current.contents)

theorem ClosedOrCurrent.step {start : Session Reader} {calls : List ReaderCall} {call : ReaderCall}
    (holds : start.ClosedOrCurrent calls (start.after callReader calls).source) :
    start.ClosedOrCurrent (calls ++ [call])
      ((start.after callReader calls).callReader call).state.source := by
  have step := (start.after callReader calls).readerStep call
  generalize ((start.after callReader calls).callReader call).state.source = later at step ⊢
  generalize said : ReaderCall.verdict? (call,
    ((start.after callReader calls).callReader call).answer) = verdict at step
  cases step with
  | kept query =>
    rcases holds with closed | ⟨current, continues⟩
    · left
      rw [closed]
      cases query <;> rfl
    · exact .inr ⟨current.extend call said, continues.asked query⟩
  | @opened path after opens success =>
    obtain ⟨bytes, contents, found, read, rfl⟩ := Reader.exists_read success
    exact .inr ⟨⟨calls, call, [], path, bytes, contents, List.append_nil _, opens, found, read,
      rfl⟩, .of_fresh (Reader.forget_of_opened success)⟩
  | closed => exact .inl rfl

/-- Behind a run of calls that starts with nothing open, the reader is closed, or it is the one that
the opening in force has given. -/
theorem closedOrCurrent_after {start : Session Reader} (fresh : start.source = .closed)
    (calls : List ReaderCall) :
    start.ClosedOrCurrent calls (start.after callReader calls).source := by
  induction calls using List.reverseRecOn with
  | nil => exact .inl fresh
  | append_singleton calls call ih =>
    rw [after_append, after_cons, after_nil]
    exact ih.step

theorem exists_current {start : Session Reader} {calls : List ReaderCall}
    (isOpen : (start.after callReader calls).source.isOpen = true)
    (fresh : start.source = .closed) :
    ∃ current : start.CurrentOpening calls, (start.after callReader calls).source.Continues
      (.holding current.path current.bytes current.contents) := by
  rcases closedOrCurrent_after fresh calls with closed | current
  · rw [closed] at isOpen
    cases isOpen
  · exact current

end TraceContainer.Session
