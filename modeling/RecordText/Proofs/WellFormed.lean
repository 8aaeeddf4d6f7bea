import RecordText.Proofs.Written
import RecordText.Proofs.WrongShape

/-!
# Loading any JSON document

Of a document that does not hold records the shape is wrong, and nothing else: the text does not end
too early and its grammar is not broken. There is one exception. An array that begins like a record
is read as one, and where it goes on its further elements are refused as if they stood behind the
end of the text.

* `records_settles`, `records_trailing`: lists of values.
* `load_document`: whole documents.
-/

namespace RecordText.Json

open Reader

variable {cs w rest : List Char} {es : List Element} {x : Element}

/-! ## The first element that is no record -/

theorem firstBeginsLikeRecord_cons_iff (hx : x.Readable) :
    FirstBeginsLikeRecord (x :: es) ↔ FirstBeginsLikeRecord es := by
  constructor
  · rintro ⟨before, y, after, hes, hbefore, hy, hbegins⟩
    cases before with
    | nil =>
      cases hes
      exact absurd hx hy
    | cons z before =>
      cases hes
      exact ⟨before, y, after, rfl, fun e he => hbefore e (List.mem_cons_of_mem _ he), hy, hbegins⟩
  · rintro ⟨before, y, after, rfl, hbefore, hy, hbegins⟩
    exact ⟨x :: before, y, after, rfl, List.forall_mem_cons.mpr ⟨hx, hbefore⟩, hy, hbegins⟩

theorem firstBeginsLikeRecord_cons_iff_of_not (hx : ¬ x.Readable) :
    FirstBeginsLikeRecord (x :: es) ↔ x.tree.BeginsLikeRecord := by
  constructor
  · rintro ⟨before, y, after, hes, hbefore, hy, hbegins⟩
    cases before with
    | nil =>
      cases hes
      exact hbegins
    | cons z before =>
      cases hes
      exact absurd (hbefore x List.mem_cons_self) hx
  · intro hbegins
    exact ⟨[], x, es, rfl, nofun, hx, hbegins⟩

theorem SpellsElement.run_record (h : SpellsElement cs x) (hx : x.Readable) (rest : List Char) :
    ∃ r, record.run (cs ++ rest) = .ok (r, rest) := by
  obtain ⟨rfl, -⟩ := h
  obtain ⟨r, hr⟩ := hx
  exact ⟨r, Json.run_record hr rest⟩

theorem SpellsElement.record_fails (h : SpellsElement cs x) (hx : ¬ x.Readable)
    (hbegins : ¬ x.tree.BeginsLikeRecord) (hr : EndsNumber rest) :
    record.Fails Fault.Mismatched (cs ++ rest) := by
  obtain ⟨rfl, ht⟩ := h
  rcases record_settles ht hbegins hr with ⟨r, hrun⟩ | hfails
  · exact absurd (readable_of_run ht hrun) hx
  · exact hfails

/-- An array that is longer than a record is none. -/
theorem SpellsElement.not_readable (h : SpellsElement cs x) (hbegins : x.tree.BeginsLikeRecord) :
    ¬ x.Readable := by
  intro hx
  obtain ⟨r, hr⟩ := h.run_record hx []
  obtain ⟨fault, hfault, -⟩ := record_trailing h.2 hbegins []
  rw [hr] at hfault
  cases hfault

/-! ## Lists of values -/

theorem nextRecord_fails {P : Fault → Prop} {l : List Char} (hl : Leads false l)
    (h : SpellsElement cs x) (hfails : record.Fails P (cs ++ rest)) :
    nextRecord.Fails P (l ++ (cs ++ rest)) := by
  refine fails_bind (run_nextElement_tree hl h.2 rest) ?_
  exact hfails.bind _

theorem run_nextRecord_element {l : List Char} {r : Record} (hl : Leads false l)
    (h : SpellsElement cs x) (hr : record.run (cs ++ rest) = .ok (r, rest)) :
    nextRecord.run (l ++ (cs ++ rest)) = .ok (some r, rest) := by
  rw [nextRecord, run_bind, run_nextElement_tree hl h.2 rest]
  simp only [if_true, run_bind, hr, run_pure]

theorem many_settles {ds : List Char} (hs : SpellsFurther SpellsElement ds es) (hw : Blank w)
    (hes : ¬ FirstBeginsLikeRecord es) (rest : List Char) :
    (many nextRecord nextRecord_advances).Settles (ds ++ (w ++ ']' :: rest)) (']' :: rest) := by
  induction hs with
  | nil => exact .inl ⟨[], run_many_none _ (run_nextRecord_closing hw rest)⟩
  | @cons w₁ w₂ cs ds x es hw₁ hw₂ h hs ih =>
    have hl := leads_comma hw₁ hw₂
    have hends := endsNumber_further hs hw ']' (by decide) rest
    rw [further_append]
    by_cases hx : x.Readable
    · rw [firstBeginsLikeRecord_cons_iff hx] at hes
      obtain ⟨r, hr⟩ := h.run_record hx (ds ++ (w ++ ']' :: rest))
      have hnext := run_nextRecord_element hl h hr
      rcases ih hes with ⟨rs, hm⟩ | hfails
      · exact .inl ⟨r :: rs, run_many_some _ hnext hm⟩
      · exact .inr (fails_many_some _ hnext hfails)
    · rw [firstBeginsLikeRecord_cons_iff_of_not hx] at hes
      exact .inr (fails_many _ (nextRecord_fails hl h (h.record_fails hx hes hends)))

theorem many_trailing {ds : List Char} (hs : SpellsFurther SpellsElement ds es)
    (hes : FirstBeginsLikeRecord es) (text : List Char) :
    (many nextRecord nextRecord_advances).Fails Fault.Trailing (ds ++ text) := by
  induction hs with
  | nil =>
    obtain ⟨before, y, after, hnil, -⟩ := hes
    cases before <;> cases hnil
  | @cons w₁ w₂ cs ds x es hw₁ hw₂ h hs ih =>
    have hl := leads_comma hw₁ hw₂
    rw [further_append]
    by_cases hx : x.Readable
    · rw [firstBeginsLikeRecord_cons_iff hx] at hes
      obtain ⟨r, hr⟩ := h.run_record hx (ds ++ text)
      exact fails_many_some _ (run_nextRecord_element hl h hr) (ih hes)
    · rw [firstBeginsLikeRecord_cons_iff_of_not hx] at hes
      exact fails_many _ (nextRecord_fails hl h (record_trailing h.2 hes (ds ++ text)))

theorem records_settles (h : SpellsEnclosed '[' ']' SpellsElement cs es)
    (hes : ¬ FirstBeginsLikeRecord es) (rest : List Char) : records.Settles (cs ++ rest) rest := by
  cases h with
  | @empty w hw =>
    simp only [List.cons_append, List.append_assoc, List.nil_append]
    refine settles_bind (run_found_list _) (settles_bind (run_skip _) ?_)
    rw [List.tail_cons]
    refine settles_bind (run_nextElement_closing true hw rest) ?_
    exact settles_bind (run_skip _) (settles_pure _)
  | @cons w w' cs ds x es hw h hs hw' =>
    have hl := leads_blank hw
    have hends := endsNumber_further hs hw' ']' (by decide) rest
    simp only [List.cons_append, List.append_assoc, List.nil_append]
    refine settles_bind (run_found_list _) (settles_bind (run_skip _) ?_)
    rw [List.tail_cons]
    refine settles_bind (run_nextElement_tree hl h.2 _) ?_
    by_cases hx : x.Readable
    · rw [firstBeginsLikeRecord_cons_iff hx] at hes
      obtain ⟨r, hr⟩ := h.run_record hx (ds ++ (w' ++ ']' :: rest))
      refine settles_bind hr ((many_settles hs hw' hes rest).bind fun rs _ => ?_)
      exact settles_bind (run_skip _) (settles_pure _)
    · rw [firstBeginsLikeRecord_cons_iff_of_not hx] at hes
      exact .inr ((h.record_fails hx hes hends).bind _)

theorem records_trailing (h : SpellsEnclosed '[' ']' SpellsElement cs es)
    (hes : FirstBeginsLikeRecord es) (rest : List Char) :
    records.Fails Fault.Trailing (cs ++ rest) := by
  cases h with
  | empty =>
    obtain ⟨before, y, after, hnil, -⟩ := hes
    cases before <;> cases hnil
  | @cons w w' cs ds x es hw h hs hw' =>
    have hl := leads_blank hw
    simp only [List.cons_append, List.append_assoc, List.nil_append]
    refine fails_bind (run_found_list _) (fails_bind (run_skip _) ?_)
    rw [List.tail_cons]
    refine fails_bind (run_nextElement_tree hl h.2 _) ?_
    by_cases hx : x.Readable
    · rw [firstBeginsLikeRecord_cons_iff hx] at hes
      obtain ⟨r, hr⟩ := h.run_record hx (ds ++ (w' ++ ']' :: rest))
      exact fails_bind hr ((many_trailing hs hes _).bind _)
    · rw [firstBeginsLikeRecord_cons_iff_of_not hx] at hes
      exact (record_trailing h.2 hes _).bind _

/-! ## Whole documents -/

theorem records_settles_tree {t : Tree} (h : SpellsTree cs t)
    (hes : ∀ es, SpellsEnclosed '[' ']' SpellsElement cs es → ¬ FirstBeginsLikeRecord es)
    (hr : EndsNumber rest) : records.Settles (cs ++ rest) rest := by
  obtain ⟨mid, hf⟩ := run_found_tree h hr
  cases h with
  | array h =>
    obtain ⟨es, h⟩ := h.elements
    exact records_settles h (hes es h) rest
  | _ => exact .inr (fails_bind hf (fails_wrongType _ _ _))

theorem fails_records_blank {P : Fault → Prop} (hw : Blank w) (h : records.Fails P rest) :
    records.Fails P (w ++ rest) := by
  obtain ⟨fault, h, hP⟩ := h
  refine ⟨fault, ?_, hP⟩
  rw [run_records_blank hw, h]

theorem readRecords_document {text : String} (h : IsDocument text.toList) :
    (¬ Overlong text.toList ∧ ((∃ rs, readRecords text = .ok rs) ∨
        ∃ e, readRecords text = .error e ∧ e.cause.kind = .mismatched)) ∨
      (Overlong text.toList ∧
        ∃ e, readRecords text = .error e ∧ e.cause = .malformed .trailingText) := by
  -- A text may be derived in several ways, so that it is decided first whether one is overlong.
  by_cases hlong : Overlong text.toList
  · have hfails : records.Fails Fault.Trailing text.toList := by
      generalize text.toList = cs at hlong
      cases hlong with
      | @list w cs w' es hw h hw' hes => exact fails_records_blank hw (records_trailing h hes w')
    obtain ⟨fault, hread, hcause⟩ := read_of_fails hfails
    exact .inr ⟨hlong, _, hread, hcause⟩
  · refine .inl ⟨hlong, ?_⟩
    generalize ht : text.toList = cs at h hlong
    cases h with
    | @blanks w cs w' t hw h hw' =>
      have hes : ∀ es, SpellsEnclosed '[' ']' SpellsElement cs es →
          ¬ FirstBeginsLikeRecord es := by
        intro es he hfirst
        exact hlong (.list hw he hw' hfirst)
      have hends := endsNumber_append hw' endsNumber_nil
      rw [List.append_nil] at hends
      rcases records_settles_tree h hes hends with ⟨rs, hrun⟩ | hfails
      · rw [← run_records_blank hw, ← ht] at hrun
        exact .inl ⟨rs, read_eq_ok_iff.mpr ⟨w', hrun, hw'⟩⟩
      · have hfails' := fails_records_blank hw hfails
        rw [← ht] at hfails'
        obtain ⟨fault, hread, hkind⟩ := read_of_fails hfails'
        exact .inr ⟨_, hread, hkind⟩

end RecordText.Json

namespace RecordText

/-- Whatever the document: it holds records, or its shape is wrong, or it is a list in which an
array begins like a record and goes on, before anything else is wrong. -/
theorem load_document {text : String} (h : Json.IsDocument text.toList) :
    (¬ Json.Overlong text.toList ∧ ((∃ rs, (load text).run.value = .ok rs) ∨
        ∃ e, (load text).run.value = .error e ∧ e.cause.cause.kind = .mismatched)) ∨
      (Json.Overlong text.toList ∧ ∃ e, (load text).run.value = .error e ∧
        e.cause.cause = .malformed .trailingText) := by
  rw [load_value]
  rcases Json.readRecords_document h with ⟨hlong, ⟨rs, hr⟩ | ⟨e, he, hkind⟩⟩ | ⟨hlong, e, he, hc⟩
  · exact .inl ⟨hlong, .inl ⟨rs, by rw [hr]; rfl⟩⟩
  · exact .inl ⟨hlong, .inr ⟨⟨e⟩, by rw [he]; rfl, hkind⟩⟩
  · exact .inr ⟨hlong, ⟨e⟩, by rw [he]; rfl, hc⟩

/-- A name, a value and something else. -/
theorem load_overlong : ∃ e, (load "[[\"b\",2,null]]").run.value = .error e ∧
    e.cause.cause = .malformed .trailingText := by
  have hb : Json.SpellsString ['"', 'b', '"'] "b" := Json.spellsString_writeString "b"
  have htwo : Json.SpellsInteger ['2'] 2 := Json.spellsInteger_toString 2
  have hthird := Json.SpellsFurther.cons Json.blank_nil Json.blank_nil Json.SpellsTree.null .nil
  have hsecond := Json.SpellsFurther.cons Json.blank_nil Json.blank_nil
    (Json.SpellsTree.integer htwo (by decide) (by decide)) hthird
  have htree := Json.SpellsTree.array
    (.cons Json.blank_nil (.string hb) hsecond Json.blank_nil)
  have hbegins : (Json.Tree.array [.string "b", .integer 2, .null]).BeginsLikeRecord :=
    ⟨"b", 2, .null, [], rfl, by decide, by decide⟩
  have helement : Json.SpellsElement _ ⟨_, .array [.string "b", .integer 2, .null]⟩ := ⟨rfl, htree⟩
  have hdocument := Json.IsDocument.blanks Json.blank_nil
    (.array (.cons Json.blank_nil htree .nil Json.blank_nil)) Json.blank_nil
  have hoverlong := Json.Overlong.list Json.blank_nil
    (.cons Json.blank_nil helement .nil Json.blank_nil) Json.blank_nil
    ⟨[], _, [], rfl, nofun, helement.not_readable hbegins, hbegins⟩
  have htext : Json.IsDocument "[[\"b\",2,null]]".toList := by simpa using hdocument
  rcases load_document htext with ⟨hlong, -⟩ | ⟨-, hfails⟩
  · exact absurd (by simpa using hoverlong) hlong
  · exact hfails

end RecordText
