import RecordText.Log
import RecordText.Record

/-!
# Summaries

A record on one line: its name and its value. The name stands as it is, so it may hold the
separator itself; the value never does.
-/

namespace RecordText.Record

/-- Stands between name and value. -/
def separator : String := ": "

/-- The record on one line. -/
def summary (r : Record) : String := r.name ++ separator ++ r.decimal

/-- Summarizes a record and reports its name. -/
def summarize (r : Record) : Logged String := do
  Logged.report (.summarizing r.name)
  return r.summary

/-- Summarizes records in their order. -/
def summarizeAll (rs : List Record) : Logged (List String) := rs.mapM summarize

/-- Each record is reported once, in the order of the summaries. -/
theorem summarizeAll_eq (rs : List Record) :
    summarizeAll rs = ⟨rs.map summary, rs.map fun r => .summarizing r.name⟩ := by
  induction rs with
  | nil => rfl
  | cons r rs ih =>
    rw [summarizeAll] at ih ⊢
    rw [List.mapM_cons, ih]
    refine Logged.ext rfl ?_
    simp only [summarize, Logged.events_bind, Logged.events_report, Logged.events_pure,
      List.append_nil, List.map_cons, List.singleton_append]

end RecordText.Record
