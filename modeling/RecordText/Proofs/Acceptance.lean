import RecordText.Load
import RecordText.Proofs.RecordForms

/-!
# Which texts are accepted

A list of records is read element by element, and nothing but blanks may stand behind it.

* `run_records`, `records_ok`: exactly the arrays of records of the grammar are read.
* `read_eq_ok_iff`: a text is read as a whole when only blanks are left of it.
* `load_ok_iff_spells`: a text loads as a list exactly when the grammar derives it for that list. So
  no text has two meanings, and `load` decides the grammar.
-/

namespace RecordText.Json

open Reader

/-! ## Lists of records -/

theorem run_nextElement_record {first : Bool} {l cs : List Char} {r : Record}
    (hl : Leads first l) (h : SpellsRecord cs r) (rest : List Char) :
    (nextElement first).run (l ++ (cs ++ rest)) = .ok (true, cs ++ rest) := by
  obtain ⟨c, behind, rfl, rfl | rfl⟩ := h.head
  · exact run_nextElement hl (by decide) (by decide) _
  · exact run_nextElement hl (by decide) (by decide) _

theorem run_nextRecord {l cs : List Char} {r : Record} (hl : Leads false l)
    (h : SpellsRecord cs r) (rest : List Char) :
    nextRecord.run (l ++ (cs ++ rest)) = .ok (some r, rest) := by
  simp only [nextRecord, run_bind, run_nextElement_record hl h, if_true, run_record h, run_pure]

theorem run_nextRecord_closing {w : List Char} (hw : Blank w) (text : List Char) :
    nextRecord.run (w ++ ']' :: text) = .ok (none, ']' :: text) := by
  simp only [nextRecord, run_bind, run_nextElement_closing false hw, Bool.false_eq_true, if_false,
    run_pure]

theorem nextRecord_ok {text rest : List Char} {o : Option Record}
    (h : nextRecord.run text = .ok (o, rest)) :
    (o = none ∧ ∃ w behind, Blank w ∧ rest = ']' :: behind ∧ text = w ++ rest) ∨
      ∃ r l cs, o = some r ∧ Leads false l ∧ SpellsRecord cs r ∧ text = l ++ (cs ++ rest) := by
  obtain ⟨more, mid, he, h⟩ := run_bind_ok_iff.mp h
  rcases nextElement_ok he with ⟨rfl, hclosing⟩ | ⟨rfl, l, ⟨w, w', hw, hw', rfl⟩, ht⟩
  · cases h
    exact .inl ⟨rfl, hclosing⟩
  · simp only [if_true] at h
    obtain ⟨r, mid', hr, h⟩ := run_bind_ok_iff.mp h
    obtain ⟨w'', cs, hw'', hcs, hmid⟩ := record_ok hr
    cases h
    refine .inr ⟨r, w ++ ',' :: (w' ++ w''), cs, rfl,
      ⟨w, w' ++ w'', hw, blank_append.mpr ⟨hw', hw''⟩, rfl⟩, hcs, ?_⟩
    rw [ht, hmid]
    simp

theorem run_many_nextRecord {cs w : List Char} {rs : List Record}
    (h : SpellsFurther SpellsRecord cs rs) (hw : Blank w) (text : List Char) :
    (many nextRecord nextRecord_advances).run (cs ++ (w ++ ']' :: text)) =
      .ok (rs, ']' :: text) := by
  induction h with
  | nil => exact run_many_none _ (run_nextRecord_closing hw text)
  | @cons w₁ w₂ cs ds r rs hw₁ hw₂ h hs ih =>
    rw [further_append]
    exact run_many_some _ (run_nextRecord (leads_comma hw₁ hw₂) h (ds ++ (w ++ ']' :: text))) ih

theorem many_nextRecord_ok {text rest : List Char} {rs : List Record}
    (h : (many nextRecord nextRecord_advances).run text = .ok (rs, rest)) :
    ∃ cs w behind, SpellsFurther SpellsRecord cs rs ∧ Blank w ∧ rest = ']' :: behind ∧
      text = cs ++ (w ++ rest) := by
  refine many_ok (motive := fun text rs => ∃ cs w behind, SpellsFurther SpellsRecord cs rs ∧
    Blank w ∧ rest = ']' :: behind ∧ text = cs ++ (w ++ rest)) nextRecord_advances ?_ ?_ h
  · intro text hn
    rcases nextRecord_ok hn with ⟨-, w, behind, hw, hrest, ht⟩ | ⟨r, _, _, hr, _⟩
    · exact ⟨[], w, behind, .nil, hw, hrest, ht⟩
    · cases hr
  · rintro text r mid rs hr ⟨ds, w, behind, hds, hw, hrest, rfl⟩
    rcases nextRecord_ok hr with ⟨hn, -⟩ | ⟨r', l, cs, hr', ⟨w₁, w₂, hw₁, hw₂, rfl⟩, hcs, ht⟩
    · cases hn
    · cases hr'
      exact ⟨_, w, behind, .cons hw₁ hw₂ hcs hds, hw, hrest, by rw [ht]; simp⟩

theorem run_records_blank {w : List Char} (hw : Blank w) (text : List Char) :
    records.run (w ++ text) = records.run text := by
  simp only [records, run_bind, run_found_blank hw]

theorem run_records {cs : List Char} {rs : List Record}
    (h : SpellsEnclosed '[' ']' SpellsRecord cs rs) (rest : List Char) :
    records.run (cs ++ rest) = .ok (rs, rest) := by
  cases h with
  | empty hw =>
    have hn := run_nextElement_closing true hw rest
    simp only [List.cons_append, List.append_assoc, List.nil_append]
    simp only [records, run_bind, run_found_list, run_skip, List.tail_cons, hn,
      Bool.false_eq_true, if_false, run_pure]
  | @cons w w' cs ds r rs hw h hs hw' =>
    have hn := run_nextElement_record (leads_blank hw) h (ds ++ (w' ++ ']' :: rest))
    have hr := run_record h (ds ++ (w' ++ ']' :: rest))
    have hm := run_many_nextRecord hs hw' rest
    simp only [List.cons_append, List.append_assoc, List.nil_append]
    simp only [records, run_bind, run_found_list, run_skip, List.tail_cons, hn, if_true, hr, hm,
      run_pure]

theorem records_ok {text rest : List Char} {rs : List Record}
    (h : records.run text = .ok (rs, rest)) :
    ∃ w cs, Blank w ∧ SpellsEnclosed '[' ']' SpellsRecord cs rs ∧ text = w ++ (cs ++ rest) := by
  obtain ⟨f, mid, hf, h⟩ := run_bind_ok_iff.mp h
  obtain ⟨w, cs, hw, ht, hshows⟩ := found_ok hf
  split at h
  · obtain ⟨rfl, behind, rfl⟩ := hshows
    rw [run_skip_bind] at h
    obtain ⟨more, mid₁, he, h⟩ := run_bind_ok_iff.mp h
    rcases nextElement_ok he with ⟨rfl, w', behind', hw', hmid₁, hmid⟩ | ⟨rfl, w', hw', hmid⟩
    · simp only [Bool.false_eq_true, if_false, hmid₁] at h
      rw [run_skip_bind] at h
      cases h
      refine ⟨w, _, hw, .empty hw', ?_⟩
      rw [ht, hmid, hmid₁]
      simp
    · simp only [if_true] at h
      obtain ⟨r, mid₂, hr, h⟩ := run_bind_ok_iff.mp h
      obtain ⟨rs, mid₃, hm, h⟩ := run_bind_ok_iff.mp h
      obtain ⟨w₁, cs, hw₁, hcs, hmid₁⟩ := record_ok hr
      obtain ⟨ds, w₂, behind', hds, hw₂, hmid₃, hmid₂⟩ := many_nextRecord_ok hm
      rw [hmid₃, run_skip_bind] at h
      cases h
      refine ⟨w, _, hw, .cons (blank_append.mpr ⟨hw', hw₁⟩) hcs hds hw₂, ?_⟩
      rw [ht, hmid, hmid₁, hmid₂, hmid₃]
      simp
  · cases h

/-! ## Whole texts -/

theorem run_ending {rest : List Char} (h : Blank rest) : ending.run rest = .ok ((), []) := by
  rw [ending, run_blanks_peek_nil h]
  rfl

theorem ending_ok {text rest : List Char} (h : ending.run text = .ok ((), rest)) : Blank text := by
  rcases blank_or_exists text with hb | ⟨w, c, behind, hw, hc, rfl⟩
  · exact hb
  · rw [ending, run_blanks_peek hw hc] at h
    cases h

theorem read_eq_ok_iff {α : Type} {r : Reader α} {text : String} {a : α} :
    read r text = .ok a ↔ ∃ rest, r.run text.toList = .ok (a, rest) ∧ Blank rest := by
  simp only [read]
  constructor
  · intro h
    split at h
    · rename_i a' rest hr
      obtain ⟨a'', mid, hr, he⟩ := run_bind_ok_iff.mp hr
      obtain ⟨_, mid', he, hp⟩ := run_bind_ok_iff.mp he
      cases h
      cases hp
      exact ⟨mid, hr, ending_ok he⟩
    · cases h
  · rintro ⟨rest, hr, hb⟩
    simp only [run_bind, hr, run_ending hb, run_pure]

theorem read_of_fails {α : Type} {r : Reader α} {P : Fault → Prop} {text : String}
    (h : r.Fails P text.toList) :
    ∃ fault, read r text = .error (fault.locate text.toList) ∧ P fault := by
  obtain ⟨fault, h, hP⟩ := h
  refine ⟨fault, ?_, hP⟩
  simp only [read, run_bind, h]

theorem readRecords_eq_ok_iff {text : String} {rs : List Record} :
    readRecords text = .ok rs ↔ SpellsRecords text.toList rs := by
  rw [readRecords, read_eq_ok_iff]
  constructor
  · rintro ⟨rest, hr, hb⟩
    obtain ⟨w, cs, hw, hcs, ht⟩ := records_ok hr
    rw [ht]
    exact .list hw hcs hb
  · intro h
    generalize text.toList = cs at h
    cases h with
    | list hw h hw' => exact ⟨_, by rw [run_records_blank hw, run_records h], hw'⟩

end RecordText.Json

namespace RecordText

theorem load_value (text : String) :
    (load text).run.value = (Json.readRecords text).mapError LoadError.mk := by
  simp only [load]
  cases Json.readRecords text <;> rfl

theorem load_eq_ok_iff {text : String} {rs : List Record} :
    (load text).run.value = .ok rs ↔ Json.readRecords text = .ok rs := by
  rw [load_value]
  cases Json.readRecords text with
  | error e => exact ⟨nofun, nofun⟩
  | ok rs' =>
    constructor
    all_goals
      intro h
      cases h
      rfl

theorem load_of_run {text : String} {rs : List Record}
    (h : Json.records.run text.toList = .ok (rs, [])) : (load text).run.value = .ok rs :=
  load_eq_ok_iff.mpr (Json.read_eq_ok_iff.mpr ⟨[], h, Json.blank_nil⟩)

/-- A text loads as a list of records exactly when the grammar derives it for that list. -/
theorem load_ok_iff_spells (text : String) (rs : List Record) :
    (load text).run.value = .ok rs ↔ Json.SpellsRecords text.toList rs := by
  rw [load_eq_ok_iff, Json.readRecords_eq_ok_iff]

end RecordText
