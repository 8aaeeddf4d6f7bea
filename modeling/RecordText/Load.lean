import RecordText.Json.Records
import RecordText.Json.Write
import RecordText.Record.Summary

/-!
# Loading records

A text is loaded as a whole or not at all, and only then is anything reported.

* `run_bind_of_ok`, `run_bind_of_error`: a sequence reports what its parts report, and nothing
  behind a failure.
* `load_run_of_ok`, `load_run_of_error`: what is reported of a text.
-/

namespace RecordText

/-- Why records could not be loaded. -/
structure LoadError where
  cause : Json.ReadError
deriving DecidableEq

/-- What has failed; the cause tells why and where. -/
def LoadError.message (_ : LoadError) : String := "Failed to parse records from JSON"

/-- A computation that may stop because records could not be loaded. -/
abbrev Loading := ExceptT LoadError Logged

section

variable {α β : Type} {x : Loading α} {events : List Event}

theorem run_bind_of_ok {a : α} (h : x.run = ⟨.ok a, events⟩) (f : α → Loading β) :
    (x >>= f).run = ⟨(f a).run.value, events ++ (f a).run.events⟩ := by
  rw [ExceptT.run_bind, h]
  rfl

theorem run_bind_of_error {e : LoadError} (h : x.run = ⟨.error e, events⟩)
    (f : α → Loading β) : (x >>= f).run = ⟨.error e, events⟩ := by
  rw [ExceptT.run_bind, h]
  exact Logged.ext rfl (List.append_nil events)

theorem run_lift (x : Logged α) : (liftM x : Loading α).run = ⟨.ok x.value, x.events⟩ :=
  Logged.ext rfl (List.append_nil x.events)

end

/-- Loads the records of a JSON text and reports how many there are. -/
def load (text : String) : Loading (List Record) := do
  match Json.readRecords text with
  | .ok rs =>
    Logged.report (.loaded rs.length)
    return rs
  | .error cause => throw ⟨cause⟩

theorem load_run_of_ok {text : String} {rs : List Record} (h : Json.readRecords text = .ok rs) :
    (load text).run = ⟨.ok rs, [.loaded rs.length]⟩ := by
  rw [load, h]
  rfl

theorem load_run_of_error {text : String} {e : Json.ReadError}
    (h : Json.readRecords text = .error e) : (load text).run = ⟨.error ⟨e⟩, []⟩ := by
  rw [load, h]
  rfl

/-- Loads records and summarizes each. -/
def loadSummaries (text : String) : Loading (List String) := do
  Record.summarizeAll (← load text)

/-- What is left of records that were written and loaded again. -/
structure Reloaded where
  /-- The text they were written as. -/
  compact : String
  /-- Whether the same records came back. -/
  equal : Bool

/-- Loads records, writes them without blanks and loads them again. -/
def reload (text : String) : Loading Reloaded := do
  let first ← load text
  let compact := Json.write .compact first
  let second ← load compact
  return ⟨compact, second == first⟩

end RecordText
