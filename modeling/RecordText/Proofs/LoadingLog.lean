import RecordText.Proofs.RoundTrip

/-!
# What loading reports

A text that is refused leaves no entry in the log, whatever could be read of it. Otherwise each way
to load it reports the number of its records first, with every load, and summaries are reported only
behind that, one for each record.

* `Event.line_loaded`, `Event.line_summarizing`: the entries in words.
* `loadSummaries_run_of_ok`: summaries stand behind what loading reports.
* `loadSummaries_eq_ok_iff`: which summaries a text has.
* `load_all_or_nothing`: the three ways to load a text fail together, or succeed together.
-/

namespace RecordText

/-- The entries of the log. -/
def Logged.lines {α : Type} (x : Logged α) : List String := x.events.map Event.line

/-! ## Entries -/

theorem Event.line_loaded (n : Nat) :
    (loaded n).line = "DEBUG Loaded " ++ toString n ++ " records" := by
  have hline : (loaded n).line = "DEBUG" ++ " " ++ ("Loaded " ++ toString n ++ " records") := rfl
  rw [hline, ← String.append_assoc, ← String.append_assoc]
  rfl

theorem Event.line_summarizing (name : String) :
    (summarizing name).line = "TRACE Describing record " ++ Text.quoted name := by
  have hline : (summarizing name).line =
      "TRACE" ++ " " ++ ("Describing record " ++ Text.quoted name) := rfl
  rw [hline, ← String.append_assoc]
  rfl

/-! ## All ways to load -/

theorem loadSummaries_run_of_ok {text : String} {rs : List Record}
    (h : (load text).run = ⟨.ok rs, [.loaded rs.length]⟩) :
    (loadSummaries text).run = ⟨.ok (rs.map Record.summary),
      .loaded rs.length :: rs.map fun r => .summarizing r.name⟩ := by
  rw [loadSummaries, run_bind_of_ok h, run_lift, Record.summarizeAll_eq]
  rfl

theorem loadSummaries_eq_ok_iff {text : String} {lines : List String} :
    (loadSummaries text).run.value = .ok lines ↔
      ∃ rs, Json.SpellsRecords text.toList rs ∧ lines = rs.map Record.summary := by
  constructor
  · intro h
    cases hread : Json.readRecords text with
    | error cause =>
      rw [loadSummaries, run_bind_of_error (load_run_of_error hread)] at h
      cases h
    | ok rs =>
      rw [loadSummaries_run_of_ok (load_run_of_ok hread)] at h
      cases h
      exact ⟨rs, Json.readRecords_eq_ok_iff.mp hread, rfl⟩
  · rintro ⟨rs, hspells, rfl⟩
    rw [loadSummaries_run_of_ok (load_run_of_ok (Json.readRecords_eq_ok_iff.mpr hspells))]

/-- A text that spells no list of records is refused with the same error however it is loaded, and
nothing is reported. A text that spells one is loaded as it: the number of records is reported by
every load, and the summaries behind that one by one. -/
theorem load_all_or_nothing (text : String) :
    ((∀ rs, ¬ Json.SpellsRecords text.toList rs) ∧ ∃ e : LoadError,
      (load text).run = ⟨.error e, []⟩ ∧ (loadSummaries text).run = ⟨.error e, []⟩ ∧
      (reload text).run = ⟨.error e, []⟩) ∨
    ∃ rs, Json.SpellsRecords text.toList rs ∧
      ((load text).run.value = .ok rs ∧
        (load text).run.lines = ["DEBUG Loaded " ++ toString rs.length ++ " records"]) ∧
      ((loadSummaries text).run.value = .ok (Record.summarizeAll rs).value ∧
        (Record.summarizeAll rs).value = rs.map Record.summary ∧
        (loadSummaries text).run.lines = ("DEBUG Loaded " ++ toString rs.length ++ " records") ::
          rs.map fun r => "TRACE Describing record " ++ Text.quoted r.name) ∧
      ∃ again, (reload text).run.value = .ok again ∧ again.equal = true ∧
        (reload text).run.lines = ["DEBUG Loaded " ++ toString rs.length ++ " records",
          "DEBUG Loaded " ++ toString rs.length ++ " records"] := by
  cases hread : Json.readRecords text with
  | error cause =>
    have hload := load_run_of_error hread
    refine .inl ⟨fun rs hspells => ?_, ⟨cause⟩, hload, ?_, ?_⟩
    · rw [Json.readRecords_eq_ok_iff.mpr hspells] at hread
      cases hread
    · exact run_bind_of_error hload _
    · exact run_bind_of_error hload _
  | ok rs =>
    have hload := load_run_of_ok hread
    refine .inr ⟨rs, Json.readRecords_eq_ok_iff.mp hread, ⟨?_, ?_⟩, ⟨?_, ?_, ?_⟩, ?_⟩
    · rw [hload]
    · rw [hload, ← Event.line_loaded]
      rfl
    · rw [loadSummaries_run_of_ok hload, Record.summarizeAll_eq]
    · rw [Record.summarizeAll_eq]
    · rw [loadSummaries_run_of_ok hload, ← Event.line_loaded]
      simp only [Logged.lines, List.map_cons, List.map_map, ← Event.line_summarizing]
      rfl
    · refine ⟨⟨Json.write .compact rs, true⟩, ?_, rfl, ?_⟩
      · rw [reload_run_of_ok hload]
      · rw [reload_run_of_ok hload, ← Event.line_loaded]
        rfl

end RecordText
