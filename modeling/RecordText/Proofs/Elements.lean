import RecordText.Proofs.Beginnings
import RecordText.Proofs.Refusals

/-!
# A list is read record by record

Behind the bracket of a list, or a comma in it, stands the text of a record, and nothing that is
read there depends on what has been read before. So a list with another record in front is what is
read of the list, with that record in front; and what is wrong with a record is wrong with every
list that comes to it, at the same byte of it.

* `elements`: what is read behind the bracket of a list that is not empty.
* `run_elements_leading`: any number of records in front.
* `load_elements`: lists as whole texts.
-/

namespace RecordText.Json

open Reader

/-- The text goes on behind its blanks, and not with the end of a list. -/
def BeginsElement (text : List Char) : Prop :=
  ∃ w c behind, Blank w ∧ ¬ c.isWhitespace ∧ c ≠ ']' ∧ text = w ++ c :: behind

/-- The records of a list, behind its bracket. -/
def elements : Reader (List Record) := do
  let r ← record
  let rs ← many nextRecord nextRecord_advances
  return r :: rs

variable {text : List Char}

theorem elements_ignoresBlanks : elements.IgnoresBlanks := by
  intro cs cs' h
  apply (record_ignoresBlanks cs cs' h).bind
  intro r rest rest' h
  have hmany := agrees_many nextRecord_advances (fun _ => rfl) nextRecord_ignoresBlanks h
  exact hmany.bind fun _ _ _ h => agrees_pure h

theorem run_elements_blank {w : List Char} (hw : Blank w) (text : List Char) :
    elements.run (w ++ text) = elements.run text := by
  simp only [elements, run_bind, run_record_blank hw]

theorem BeginsElement.append (h : BeginsElement text) (rest : List Char) :
    BeginsElement (text ++ rest) := by
  obtain ⟨w, c, behind, hw, hc, hb, rfl⟩ := h
  exact ⟨w, c, behind ++ rest, hw, hc, hb, by simp⟩

/-- In front of an element only its blanks are passed over, and they say nothing to it. -/
theorem BeginsElement.run_nextElement (h : BeginsElement text) :
    ∃ rest, record.run rest = record.run text ∧
      (nextElement true).run text = .ok (true, rest) ∧
      ∀ w, Blank w → (nextElement false).run (w ++ ',' :: text) = .ok (true, rest) := by
  obtain ⟨w, c, behind, hw, hc, hb, rfl⟩ := h
  refine ⟨c :: behind, (run_record_blank hw _).symm, ?_, fun w' hw' => ?_⟩
  · exact Json.run_nextElement (leads_blank hw) hc hb behind
  · have hnext := Json.run_nextElement (leads_comma hw' hw) hc hb behind
    rwa [List.append_assoc, List.cons_append] at hnext

/-- Behind a comma a list goes on as it does behind its bracket. -/
theorem run_many_comma {w : List Char} (hw : Blank w) (h : BeginsElement text) :
    (many nextRecord nextRecord_advances).run (w ++ ',' :: text) = elements.run text := by
  obtain ⟨rest, hrest, -, hnext⟩ := h.run_nextElement
  have hround : nextRecord.run (w ++ ',' :: text) =
      (record.run text).map fun p => (some p.1, p.2) := by
    simp only [nextRecord, run_bind, hnext w hw, if_true, hrest, run_pure]
    cases record.run text <;> rfl
  rw [run_many, hround, elements, run_bind]
  cases record.run text with
  | error fault => rfl
  | ok p =>
    simp only [Except.map, run_bind]
    cases (many nextRecord nextRecord_advances).run p.2 <;> rfl

theorem run_records_bracket (h : BeginsElement text) :
    records.run ('[' :: text) = Reader.run (do let rs ← elements; skip; return rs) text := by
  obtain ⟨rest, hrest, hnext, -⟩ := h.run_nextElement
  simp only [records, run_bind, run_found_list, run_skip, List.tail_cons, hnext, if_true, hrest,
    elements, run_pure]
  cases record.run text with
  | error fault => rfl
  | ok p =>
    simp only
    cases (many nextRecord nextRecord_advances).run p.2 <;> rfl

/-! ## Records in front -/

theorem BeginsElement.leading {cs : List Char} {rs : List Record}
    (hs : SpellsLeading SpellsRecord cs rs) (h : BeginsElement text) :
    BeginsElement (cs ++ text) := by
  cases hs with
  | nil hw =>
    obtain ⟨w, c, behind, hw', hc, hb, rfl⟩ := h
    exact ⟨cs ++ w, c, behind, blank_append.mpr ⟨hw, hw'⟩, hc, hb, by simp⟩
  | @cons w w' cs ds r rs hw hr hw' hs =>
    obtain ⟨c, behind, rfl, hc⟩ := hr.head
    refine ⟨w, c, behind ++ (w' ++ ',' :: ds) ++ text, hw, ?_, ?_, by simp⟩
    all_goals rcases hc with rfl | rfl <;> decide

/-- One record in front stands in front of what is found behind its comma. -/
theorem run_elements_comma {u w : List Char} {r : Record}
    (hr : record.run u = .ok (r, w ++ ',' :: text)) (hw : Blank w) (h : BeginsElement text) :
    elements.run u = (elements.run text).map fun p => (r :: p.1, p.2) := by
  conv => lhs; rw [elements, run_bind, hr]
  simp only [run_bind, run_many_comma hw h, run_pure]
  cases elements.run text <;> rfl

theorem run_elements_leading {cs : List Char} {rs : List Record}
    (hs : SpellsLeading SpellsRecord cs rs) (h : BeginsElement text) :
    elements.run (cs ++ text) = (elements.run text).map fun p => (rs ++ p.1, p.2) := by
  induction hs with
  | nil hw =>
    rw [run_elements_blank hw]
    cases elements.run text <;> rfl
  | @cons w w' cs ds r rs hw hr hw' hs ih =>
    have hrun := run_record hr (w' ++ ',' :: (ds ++ text))
    rw [← run_record_blank hw] at hrun
    simp only [List.append_assoc, List.cons_append]
    rw [run_elements_comma hrun hw' (h.leading hs), ih]
    cases elements.run text <;> rfl

/-- The bracket of a list and the texts of its first records, each with a comma behind it. -/
def opening (ts : List String) : String :=
  String.ofList ('[' :: ts.flatMap fun t => t.toList ++ [','])

theorem toList_opening_append (ts : List String) (t : String) :
    (opening ts ++ t).toList = '[' :: ((ts.flatMap fun t => t.toList ++ [',']) ++ t.toList) := by
  rw [String.toList_append, opening, String.toList_ofList, List.cons_append]

theorem spellsLeading_opening {ts : List String} {rs : List Record}
    (hts : ts.map readRecord = rs.map .ok) :
    SpellsLeading SpellsRecord (ts.flatMap fun t => t.toList ++ [',']) rs := by
  induction ts generalizing rs with
  | nil =>
    cases rs with
    | nil => exact .nil blank_nil
    | cons => cases hts
  | cons t ts ih =>
    cases rs with
    | nil => cases hts
    | cons r rs =>
      rw [List.map_cons, List.map_cons, List.cons.injEq] at hts
      obtain ⟨rest, hr, hrest⟩ := read_eq_ok_iff.mp hts.1
      obtain ⟨w, cs, hw, hcs, ht⟩ := record_ok hr
      have hs := SpellsLeading.cons hw hcs hrest (ih hts.2)
      rw [List.flatMap_cons, ht]
      simpa using hs

/-- What is read behind an opening, up to the end of the list. -/
theorem run_records_opening {ts : List String} {rs : List Record}
    (hts : ts.map readRecord = rs.map .ok) {t : String} (h : BeginsElement t.toList) :
    records.run (opening ts ++ t).toList = match elements.run t.toList with
      | .error fault => .error fault
      | .ok (as, rest) => .ok (rs ++ as, rest.tail) := by
  have hs := spellsLeading_opening hts
  rw [toList_opening_append, run_records_bracket (h.leading hs), run_bind,
    run_elements_leading hs h]
  cases elements.run t.toList with
  | error fault => rfl
  | ok p => simp only [Except.map, run_bind, run_skip, run_pure]

/-! ## The last record -/

theorem run_elements_last {t : String} {r : Record} (h : readRecord t = .ok r) :
    elements.run (t.toList ++ [']']) = .ok ([r], [']']) := by
  obtain ⟨rest, hr, hrest⟩ := read_eq_ok_iff.mp h
  have happend := record_delimited.run_append hr [']']
  have hclosing := run_many_none nextRecord_advances (run_nextRecord_closing hrest [])
  rw [elements, run_bind, happend]
  simp only [run_bind, hclosing, run_pure]

theorem run_elements_of_record_error {fault : Fault} (h : record.run text = .error fault) :
    elements.run text = .error fault := by
  rw [elements, run_bind, h]

/-- Behind a record only a comma or the end of the list may follow. -/
theorem run_elements_of_record_ok {r : Record} {w behind : List Char} {c : Char}
    (h : record.run text = .ok (r, w ++ c :: behind)) (hw : Blank w) (hc : ¬ c.isWhitespace)
    (hcomma : c ≠ ',') (hb : c ≠ ']') : elements.run text =
      .error ⟨.malformed .afterElement, Text.byteLength (c :: behind) - 1⟩ := by
  have hnext : nextRecord.run (w ++ c :: behind) =
      .error ⟨.malformed .afterElement, Text.byteLength (c :: behind) - 1⟩ := by
    rw [nextRecord, run_bind, nextElement, run_blanks_peek hw hc]
    simp only [if_neg hb, if_neg hcomma, Bool.false_eq_true, if_false, run_failPast]
  rw [elements, run_bind, h]
  simp only [run_bind]
  rw [run_many, hnext]

/-- What stands between the brackets of a list with one record is that record. -/
theorem spellsRecord_of_brackets {r : Record} (h : SpellsRecords ('[' :: (text ++ [']'])) [r]) :
    ∃ w cs w', Blank w ∧ SpellsRecord cs r ∧ Blank w' ∧ text = w ++ (cs ++ w') := by
  generalize htext : '[' :: (text ++ [']']) = whole at h
  cases h with
  | @list w w' cs _ hw henclosed hw' =>
    -- A blank at either end of the list would be one of the two brackets.
    have hfront : w = [] := by
      cases w with
      | nil => rfl
      | cons d w =>
        rw [List.cons_append, List.cons.injEq] at htext
        rw [← htext.1] at hw
        exact absurd (blank_cons.mp hw).1 (by decide)
    have hbehind : w' = [] := by
      rcases List.eq_nil_or_concat w' with rfl | ⟨u, d, rfl⟩
      · rfl
      · have hlast : ('[' :: text) ++ [']'] = (w ++ (cs ++ u)) ++ [d] := by simpa using htext
        rw [List.concat_eq_append, ← (List.append_inj' hlast rfl).2] at hw'
        exact absurd (blank_append.mp hw').2 (by simp [Char.isWhitespace])
    subst hfront hbehind
    cases henclosed with
    | @cons w₁ w₂ cs _ _ _ hw₁ hr hs hw₂ =>
      cases hs with
      | nil =>
        have hlast : text ++ [']'] = (w₁ ++ (cs ++ w₂)) ++ [']'] := by simpa using htext
        exact ⟨w₁, cs, w₂, hw₁, hr, hw₂, (List.append_inj' hlast rfl).1⟩

theorem readRecord_of_readRecords {t : String} {r : Record}
    (h : readRecords (opening [] ++ t ++ "]") = .ok [r]) : readRecord t = .ok r := by
  have hbrackets : (opening [] ++ t ++ "]").toList = '[' :: (t.toList ++ [']']) := by
    simp [opening]
  have hspells := readRecords_eq_ok_iff.mp h
  rw [hbrackets] at hspells
  obtain ⟨w, cs, w', hw, hr, hw', ht⟩ := spellsRecord_of_brackets hspells
  refine read_eq_ok_iff.mpr ⟨w', ?_, hw'⟩
  rw [ht, run_record_blank hw, run_record hr]

end RecordText.Json

namespace RecordText

open Json (opening)

theorem refusedAt_of_elements {ts : List String} {rs : List Record}
    (hts : ts.map Json.readRecord = rs.map .ok) {t : String} (h : Json.BeginsElement t.toList)
    {fault : Json.Fault} (he : Json.elements.run t.toList = .error fault) :
    RefusedAt (opening ts ++ t) fault.cause
      (Text.byteLength (opening ts).toList + fault.offset t.toList) := by
  have hfault := Json.elements_ignoresBlanks.liesIn he
  have hrun : Json.records.run (opening ts ++ t).toList = .error fault := by
    rw [Json.run_records_opening hts h, he]
  rw [← hfault.offset_append, ← String.toList_append]
  exact refusedAt_of_run hrun

/-- Behind any records a text is read in a list as it is read as a record. If it is a record, the
list ends with it. If it has a fault, so has every list that comes to it, at the same byte of it.
And if more stands behind the record than may, that is too much text for a record, and for a list a
comma or its end is missing there. -/
theorem load_elements {ts : List String} {rs : List Record}
    (hts : ts.map Json.readRecord = rs.map .ok) {t : String} (h : Json.BeginsElement t.toList) :
    (∀ r, Json.readRecord t = .ok r →
      (load (opening ts ++ t ++ "]")).run.value = .ok (rs ++ [r])) ∧
    (∀ r, ts = [] → (load (opening ts ++ t ++ "]")).run.value = .ok [r] →
      Json.readRecord t = .ok r) ∧
    (∀ fault, Json.record.run t.toList = .error fault →
      fault.offset t.toList ≤ Text.byteLength t.toList ∧
      Json.readRecord t = .error (.atByte t fault.cause (fault.offset t.toList)) ∧
      RefusedAt (opening ts ++ t) fault.cause
        (Text.byteLength (opening ts).toList + fault.offset t.toList)) ∧
    ∀ r w c behind, Json.record.run t.toList = .ok (r, w ++ c :: behind) → Json.Blank w →
      ¬ c.isWhitespace → c ≠ ',' → c ≠ ']' → ∃ offset,
        Json.readRecord t = .error (.atByte t (.malformed .trailingText) offset) ∧
        RefusedAt (opening ts ++ t) (.malformed .afterElement)
          (Text.byteLength (opening ts).toList + offset) := by
  refine ⟨?_, ?_, ?_, ?_⟩
  · intro r hr
    refine load_eq_ok_iff.mpr (Json.read_eq_ok_iff.mpr ⟨[], ?_, Json.blank_nil⟩)
    have hbegins : Json.BeginsElement (t ++ "]").toList := by
      rw [String.toList_append]
      exact h.append _
    have hlast := Json.run_elements_last hr
    have hclosing : (t ++ "]").toList = t.toList ++ [']'] := String.toList_append
    rw [String.append_assoc, Json.run_records_opening hts hbegins, hclosing, hlast]
    rfl
  · rintro r rfl hload
    exact Json.readRecord_of_readRecords (load_eq_ok_iff.mp hload)
  · intro fault hf
    refine ⟨Nat.sub_le _ _, ?_, ?_⟩
    · obtain ⟨_, hread, rfl⟩ := Json.read_of_fails ⟨fault, hf, rfl⟩
      exact hread
    · exact refusedAt_of_elements hts h (Json.run_elements_of_record_error hf)
  · intro r w c behind hr hw hc hcomma hb
    have helements := Json.run_elements_of_record_ok hr hw hc hcomma hb
    refine ⟨_, ?_, refusedAt_of_elements hts h helements⟩
    rw [Json.readRecord, Json.read_of_text_behind hr hw hc]
    rfl

/-- The array that is no record stands behind a record here. -/
theorem load_short_behind_record :
    RefusedAt "[\x7b\"name\":\"a\",\"value\":1\x7d,[ ]" (.mismatched (.tooShort 0)) 27 := by
  have hrun : Json.record.run "[ ]".toList = .error ⟨.mismatched (.tooShort 0), 0⟩ := rfl
  have hread : Json.readRecord "\x7b\"name\":\"a\",\"value\":1\x7d" = .ok ⟨"a", 1⟩ :=
    Json.read_eq_ok_iff.mpr ⟨[], Json.run_record
      (Json.spellsRecord_writeRecord .compact ⟨"a", 1⟩) [], Json.blank_nil⟩
  have hts : ["\x7b\"name\":\"a\",\"value\":1\x7d"].map Json.readRecord =
      [(⟨"a", 1⟩ : Record)].map .ok := by
    rw [List.map_singleton, hread, List.map_singleton]
  have hbegins : Json.BeginsElement "[ ]".toList :=
    ⟨[], '[', [' ', ']'], Json.blank_nil, by decide, by decide, rfl⟩
  exact ((load_elements hts hbegins).2.2.1 _ hrun).2.2

end RecordText
