import TraceContainer.Session.Basic

namespace TraceContainer.Session

section Runs

variable {Source Call : Type} {step : Session Source → Call → Outcome (Session Source) Reply}

def after (step : Session Source → Call → Outcome (Session Source) Reply)
    (session : Session Source) (calls : List Call) : Session Source :=
  calls.foldl (fun session call => (step session call).state) session

@[simp] theorem after_nil (session : Session Source) : session.after step [] = session := rfl

@[simp] theorem after_cons (session : Session Source) (call : Call) (calls : List Call) :
    session.after step (call :: calls) = (step session call).state.after step calls := rfl

theorem after_append (session : Session Source) (calls more : List Call) :
    session.after step (calls ++ more) = (session.after step calls).after step more :=
  List.foldl_append

/-- What every call keeps is kept by a run of them. -/
theorem after_keeps (Holds : Session Source → Prop) {session : Session Source} {calls : List Call}
    (start : Holds session)
    (keeps : ∀ session, ∀ call ∈ calls, Holds session → Holds (step session call).state) :
    Holds (session.after step calls) := by
  induction calls generalizing session with
  | nil => exact start
  | cons call rest ih =>
    apply ih
    · exact keeps session call List.mem_cons_self start
    · intro other later member
      exact keeps other later (List.mem_cons_of_mem call member)

def history (step : Session Source → Call → Outcome (Session Source) Reply)
    (session : Session Source) (calls : List Call) : List (Call × Reply) :=
  calls.zip ((session.run step calls).map (·.answer))

theorem history_cons (session : Session Source) (call : Call) (calls : List Call) :
    session.history step (call :: calls) =
      (call, (step session call).answer) :: (step session call).state.history step calls := rfl

theorem history_append (session : Session Source) (calls more : List Call) :
    session.history step (calls ++ more) =
      session.history step calls ++ (session.after step calls).history step more := by
  induction calls generalizing session with
  | nil => rfl
  | cons call rest ih =>
    rw [List.cons_append, history_cons, ih, history_cons, List.cons_append, after_cons]

end Runs

section Sources

variable {Source : Type} (session : Session Source) (id : String)

/-- Calls on scans change nothing but these. -/
theorem exists_scans_startScan (result : Except Error Scan) :
    ∃ scans, (session.startScan id result).state = { session with scans } := by
  cases result with
  | error error => exact ⟨_, rfl⟩
  | ok scan => exact ⟨_, rfl⟩

theorem exists_scans_useScan (call : ScanCall) :
    ∃ scans, (session.useScan id call).state = { session with scans } := by
  rw [useScan]
  cases session.scan? id with
  | none => exact ⟨_, rfl⟩
  | some scan => cases call <;> exact ⟨_, rfl⟩

@[simp] theorem source_startScan (result : Except Error Scan) :
    (session.startScan id result).state.source = session.source := by
  obtain ⟨scans, same⟩ := session.exists_scans_startScan id result
  rw [same]

@[simp] theorem source_useScan (call : ScanCall) :
    (session.useScan id call).state.source = session.source := by
  obtain ⟨scans, same⟩ := session.exists_scans_useScan id call
  rw [same]

end Sources

section NamedScans

variable {Source : Type} (session : Session Source) {id other : String}

private theorem lookup_filter_of_ne (scans : List (String × Scan)) (different : other ≠ id) :
    (scans.filter fun (name, _) => name ≠ other).lookup id = scans.lookup id := by
  induction scans with
  | nil => rfl
  | cons first rest ih =>
    obtain ⟨name, scan⟩ := first
    by_cases same : name = other
    · subst same
      have apart : (id == name) = false := beq_eq_false_iff_ne.mpr different.symm
      simp only [List.filter_cons, ne_eq, not_true_eq_false, decide_false, Bool.false_eq_true,
        if_false, List.lookup_cons, apart]
      exact ih
    · simp only [List.filter_cons, ne_eq, same, not_false_eq_true, decide_true, if_true,
        List.lookup_cons]
      rw [← ih]

theorem scan?_endScan_of_ne (different : other ≠ id) :
    (session.endScan other).scan? id = session.scan? id :=
  lookup_filter_of_ne session.scans different

@[simp] theorem scan?_putScan (scan : Scan) : (session.putScan id scan).scan? id = some scan :=
  List.lookup_cons_self

theorem scan?_putScan_of_ne (different : other ≠ id) (scan : Scan) :
    (session.putScan other scan).scan? id = session.scan? id := by
  have apart : (id == other) = false := beq_eq_false_iff_ne.mpr different.symm
  rw [putScan, scan?, List.lookup_cons, apart]
  exact scan?_endScan_of_ne session different

end NamedScans

end TraceContainer.Session
