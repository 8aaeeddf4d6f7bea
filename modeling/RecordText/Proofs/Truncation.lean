import RecordText.Proofs.Bytes
import RecordText.Proofs.Cutoff
import RecordText.Proofs.RoundTrip

/-!
# Accepted texts that are cut off or go on

A record ends with a bracket, so that an accepted text cannot be taken for the beginning of another
one: cut anywhere it is unfinished, and whatever is put behind it is too much. Blanks alone make no
difference.

* `survives_members`, `survives_record`, `survives_records`: records survive every cut.
* `Reader.Delimited`, `Reader.Delimited.of_spells`: what this takes of a reader.
* `load_respectsEnds`: what becomes of an accepted text.
-/

namespace RecordText.Json

open Reader

variable {p s : List Char}

/-! ## Between the parts of arrays and objects -/

theorem survives_nextElement (first : Bool) : (nextElement first).Survives p s := by
  apply survives_blanks_peek (runsOut_fail _)
  intro c behind
  refine survives_ite (survives_pure _) (survives_ite (survives_pure _) ?_)
  refine survives_ite (survives_skip_bind ?_ c) (survives_failPast _ _)
  apply survives_blanks_peek (runsOut_fail _)
  intro d behind
  exact survives_ite (survives_failPast _ _) (survives_pure _)

theorem survives_closeArray : closeArray.Survives p s := by
  apply survives_blanks_peek (runsOut_fail _)
  intro c behind
  refine survives_ite (survives_skip c) (survives_ite ?_ (survives_failPast _ _))
  -- Behind a comma the reader fails at the end of the text too, but not by asking for more.
  intro u rest h
  simp only [run_bind, run_skip, run_blanks, run_peek] at h
  split at h <;> cases h

theorem survives_nextKey (first : Bool) : (nextKey first).Survives p s := by
  have hkey : ∀ c behind, Reader.Survives (do skip; return some (← stringRest))
      (c :: behind) s := by
    intro c behind
    refine survives_skip_bind ?_ c
    exact survives_stringRest.bind fun key mid _ => survives_pure _
  apply survives_blanks_peek (runsOut_fail _)
  intro c behind
  refine survives_ite (survives_pure _) (survives_ite ?_ ?_)
  · exact survives_ite (hkey c behind) (survives_failPast _ _)
  · refine survives_ite (survives_skip_bind ?_ c) (survives_failPast _ _)
    apply survives_blanks_peek (runsOut_fail _)
    intro d behind
    refine survives_ite (hkey d behind) ?_
    exact survives_ite (survives_failPast _ _) (survives_failPast _ _)

theorem survives_colon : colon.Survives p s := by
  apply survives_blanks_peek (runsOut_fail _)
  intro c behind
  exact survives_ite (survives_skip c) (survives_failPast _ _)

/-! ## Records -/

theorem survives_refuse {α : Type} (bracket : Char) (m : Mismatch) :
    (refuse bracket m : Reader α).Survives p s := by
  intro a rest h
  exact absurd h refuse_ok

theorem runsOut_members (first : Bool) (d : Draft) : (members first d).RunsOut [] := by
  rw [members]
  have hkey : (nextKey first).RunsOut [] := ⟨⟨.unfinished .object, 0⟩, rfl, rfl, rfl⟩
  exact hkey.bind _

theorem survives_members (first : Bool) (d : Draft) (p : List Char) :
    (members first d).Survives p s := by
  induction first, d using members.induct generalizing p with
  | case1 first d ihname ihvalue =>
    rw [members]
    apply (survives_nextKey first).bind
    intro key mid _
    cases key with
    | none => exact survives_pure d
    | some key =>
      simp only
      split
      · exact survives_refuse _ _
      · split
        · rename_i hd
          apply survives_colon.bind
          intro _ mid _
          apply survives_name.bind
          intro n mid _
          exact ihname hd n mid
        · exact survives_refuse _ _
      · split
        · rename_i hd
          apply survives_colon.bind
          intro _ mid _
          exact survives_value_bind (fun v mid => ihvalue hd v mid)
            (fun v => runsOut_members false _)
        · exact survives_refuse _ _

/-- The members of an object are read up to its closing brace. -/
theorem members_closing {first : Bool} {d d' : Draft} {text rest : List Char}
    (h : (members first d).run text = .ok (d', rest)) : ∃ behind, rest = '}' :: behind := by
  -- By the number of absent fields, which every round but the last makes smaller.
  induction hn : d.absent using Nat.strongRecOn generalizing first d text with
  | ind n ih =>
    rcases members_ok h with ⟨-, w, behind, -, hrest, -⟩ | ⟨r, f, l, m, mid, -, -, hlacks, -, -, hm⟩
    · exact ⟨behind, hrest⟩
    · exact ih _ (hn ▸ Draft.absent_fill hlacks) hm rfl

theorem survives_objectRecord (c : Char) : objectRecord.Survives (c :: p) s := by
  refine survives_skip_bind ?_ c
  apply (survives_members true {} p).bind
  intro d mid hm
  match d with
  | ⟨none, _⟩ => exact survives_refuse _ _
  | ⟨some _, none⟩ => exact survives_refuse _ _
  | ⟨some n, some v⟩ =>
    obtain ⟨behind, rfl⟩ := members_closing hm
    exact survives_skip_bind (survives_pure (Record.mk n v)) _

theorem survives_arrayRecord (c : Char) : arrayRecord.Survives (c :: p) s := by
  refine survives_skip_bind ?_ c
  apply (survives_nextElement true).bind
  intro more mid _
  refine survives_ite ?_ (survives_refuse _ _)
  apply survives_name.bind
  intro n mid _
  apply (survives_nextElement false).bind
  intro more mid _
  refine survives_ite ?_ (survives_refuse _ _)
  refine survives_value_bind (fun v mid => ?_) fun v => ?_
  · exact survives_closeArray.bind fun _ mid _ => survives_pure _
  · have hclose : closeArray.RunsOut [] := ⟨⟨.unfinished .list, 0⟩, rfl, rfl, rfl⟩
    exact hclose.bind _

section

variable {α : Type} {f : Found → Reader α}

theorem survives_found_list (h : (f .list).Survives ('[' :: p) s) :
    (found >>= f).Survives ('[' :: p) s := by
  have hrun : ∀ text, (found >>= f).run ('[' :: text) = (f .list).run ('[' :: text) := by
    intro text
    rw [run_bind, run_found_list]
  exact h.of_run (hrun p) (hrun (p ++ s))

theorem survives_found_object (h : (f .object).Survives ('{' :: p) s) :
    (found >>= f).Survives ('{' :: p) s := by
  have hrun : ∀ text, (found >>= f).run ('{' :: text) = (f .object).run ('{' :: text) := by
    intro text
    rw [run_bind, run_found_object]
  exact h.of_run (hrun p) (hrun (p ++ s))

end

/-- Only an opening bracket is found to be an array. -/
theorem eq_of_found_list {c : Char} (hc : ¬ c.isWhitespace) {text rest : List Char}
    (h : found.run (c :: text) = .ok (.list, rest)) : c = '[' := by
  obtain ⟨cs, ht, rfl, _, rfl⟩ := found_ok_cons hc h
  exact (List.cons.inj ht).1

/-- Only an opening brace is found to be an object. -/
theorem eq_of_found_object {c : Char} (hc : ¬ c.isWhitespace) {text rest : List Char}
    (h : found.run (c :: text) = .ok (.object, rest)) : c = '{' := by
  obtain ⟨cs, ht, rfl, _, rfl⟩ := found_ok_cons hc h
  exact (List.cons.inj ht).1

theorem survives_record : record.Survives p s := by
  apply survives_found_bind
  intro c behind hc r rest h
  obtain ⟨f, mid, hf, hr⟩ := run_bind_ok_iff.mp h
  split at hr
  · cases eq_of_found_object hc hf
    exact survives_found_object (survives_objectRecord '{') r rest h
  · cases eq_of_found_list hc hf
    exact survives_found_list (survives_arrayRecord '[') r rest h
  · cases hr

/-! ## Lists of records -/

theorem survives_nextRecord (p : List Char) : nextRecord.Survives p s := by
  apply (survives_nextElement false).bind
  intro more mid _
  refine survives_ite ?_ (survives_pure _)
  exact survives_record.bind fun r mid _ => survives_pure _

theorem nextElement_closing {first : Bool} {text rest : List Char}
    (h : (nextElement first).run text = .ok (false, rest)) : ∃ behind, rest = ']' :: behind := by
  rcases nextElement_ok h with ⟨-, w, behind, -, hrest, -⟩ | ⟨hmore, -⟩
  · exact ⟨behind, hrest⟩
  · cases hmore

theorem survives_records : records.Survives p s := by
  apply survives_found_bind
  intro c behind hc rs rest h
  obtain ⟨f, mid, hf, hr⟩ := run_bind_ok_iff.mp h
  split at hr
  · cases eq_of_found_list hc hf
    refine survives_found_list (survives_skip_bind ?_ '[') rs rest h
    apply (survives_nextElement true).bind
    intro more mid he
    cases more with
    | false =>
      obtain ⟨behind, rfl⟩ := nextElement_closing he
      exact survives_skip_bind (survives_pure []) ']'
    | true =>
      apply survives_record.bind
      intro r mid _
      apply (survives_many nextRecord_advances survives_nextRecord mid).bind
      intro rs mid hm
      obtain ⟨_, _, behind, -, -, rfl, -⟩ := many_nextRecord_ok hm
      exact survives_skip_bind (survives_pure (r :: rs)) ']'
  · cases hr

/-! ## Whole texts -/

/-- A reader that never finds anything else in a text that is cut off, and that knows the last
character of what it finds. -/
structure Reader.Delimited {α : Type} (r : Reader α) : Prop where
  survives : ∀ p s, r.Survives p s
  closes : ∀ {text rest : List Char} {a : α}, r.run text = .ok (a, rest) →
    ∃ v c, ¬ c.isWhitespace ∧ text = v ++ c :: rest ∧ ∀ s, r.run (v ++ c :: s) = .ok (a, s)

/-- How whole texts are read when an accepted text is cut off or goes on. -/
structure RespectsEnds {α : Type} (f : String → Except ReadError α) : Prop where
  /-- Blanks at the end may be cut off. -/
  cut_blank : ∀ p s a, f (p ++ s) = .ok a → Blank s.toList → f p = .ok a
  /-- Without anything else the text is unfinished, and the fault lies at its end. -/
  cut : ∀ p s a, f (p ++ s) = .ok a → ¬ Blank s.toList → ∃ construct,
    f p = .error ⟨.unfinished construct, .ofOffset p.toList (Text.byteLength p.toList)⟩
  blank_behind : ∀ t s a, f t = .ok a → Blank s.toList → f (t ++ s) = .ok a
  /-- Anything else behind the text is too much; the fault lies behind its first byte. -/
  text_behind : ∀ t s a w c behind, f t = .ok a → s.toList = w ++ c :: behind → Blank w →
    ¬ c.isWhitespace → f (t ++ s) = .error ⟨.malformed .trailingText,
      .ofOffset (t ++ s).toList (Text.byteLength t.toList + Text.byteLength w + 1)⟩
  /-- A text that is refused for another reason than its end is no beginning of an accepted one. -/
  refused : ∀ t e, f t = .error e → e.cause.kind ≠ .unfinished → ∀ s a, f (t ++ s) ≠ .ok a

section

variable {α : Type} {r : Reader α}

theorem read_of_runsOut {text : String} (h : r.RunsOut text.toList) : ∃ construct,
    read r text =
      .error ⟨.unfinished construct, .ofOffset text.toList (Text.byteLength text.toList)⟩ := by
  obtain ⟨⟨cause, unread⟩, hread, hkind, hunread⟩ := read_of_fails h
  cases cause with
  | unfinished construct =>
    refine ⟨construct, ?_⟩
    rw [hread, Fault.locate, Fault.offset, hunread, Nat.sub_zero]
  | malformed | mismatched => cases hkind

theorem read_of_text_behind {text : String} {a : α} {w behind : List Char} {c : Char}
    (h : r.run text.toList = .ok (a, w ++ c :: behind)) (hw : Blank w) (hc : ¬ c.isWhitespace) :
    read r text = .error ⟨.malformed .trailingText, .ofOffset text.toList
      (Text.byteLength text.toList - (Text.byteLength (c :: behind) - 1))⟩ := by
  simp only [read, run_bind, h, ending, run_blanks, dropWhile_blank hw,
    List.dropWhile_cons_of_neg hc, run_peek, List.head?_cons, run_failPast, Fault.locate,
    Fault.offset]

theorem Reader.Delimited.read_cut (h : r.Delimited) {p s : String} {a : α}
    (ha : read r (p ++ s) = .ok a) (hs : ¬ Blank s.toList) : ∃ construct,
    read r p = .error ⟨.unfinished construct, .ofOffset p.toList (Text.byteLength p.toList)⟩ := by
  obtain ⟨rest, hrun, hrest⟩ := read_eq_ok_iff.mp ha
  rw [String.toList_append] at hrun
  rcases h.survives p.toList s.toList a rest hrun with hout | ⟨rest', rfl, -⟩
  · exact read_of_runsOut hout
  · exact absurd (blank_append.mp hrest).2 hs

theorem Reader.Delimited.read_cut_blank (h : r.Delimited) {p s : String} {a : α}
    (ha : read r (p ++ s) = .ok a) (hs : Blank s.toList) : read r p = .ok a := by
  obtain ⟨rest, hrun, hrest⟩ := read_eq_ok_iff.mp ha
  rw [String.toList_append] at hrun
  obtain ⟨v, c, hc, ht, hclosed⟩ := h.closes hrun
  have hmem : c ∉ s.toList := fun hm => hc (blank_iff.mp hs c hm)
  rcases List.append_eq_append_iff.mp ht with ⟨k, -, hk⟩ | ⟨k, hp, hk⟩
  · rw [hk] at hmem
    simp at hmem
  · cases k with
    | nil =>
      rw [← List.nil_append s.toList, ← hk] at hmem
      simp at hmem
    | cons d k =>
      simp only [List.cons_append, List.cons.injEq] at hk
      obtain ⟨rfl, rfl⟩ := hk
      exact read_eq_ok_iff.mpr ⟨k, hp ▸ hclosed k, (blank_append.mp hrest).1⟩

theorem Reader.Delimited.run_append (h : r.Delimited) {text rest : List Char} {a : α}
    (ha : r.run text = .ok (a, rest)) (s : List Char) : r.run (text ++ s) = .ok (a, rest ++ s) := by
  obtain ⟨v, c, -, rfl, hclosed⟩ := h.closes ha
  rw [List.append_assoc, List.cons_append]
  exact hclosed (rest ++ s)

theorem Reader.Delimited.read_blank_behind (h : r.Delimited) {t s : String} {a : α}
    (ha : read r t = .ok a) (hs : Blank s.toList) : read r (t ++ s) = .ok a := by
  obtain ⟨rest, hrun, hrest⟩ := read_eq_ok_iff.mp ha
  have happend := h.run_append hrun s.toList
  rw [← String.toList_append] at happend
  exact read_eq_ok_iff.mpr ⟨_, happend, blank_append.mpr ⟨hrest, hs⟩⟩

theorem Reader.Delimited.read_text_behind (h : r.Delimited) {t s : String} {a : α}
    {w behind : List Char} {c : Char} (ha : read r t = .ok a) (hs : s.toList = w ++ c :: behind)
    (hw : Blank w) (hc : ¬ c.isWhitespace) :
    read r (t ++ s) = .error ⟨.malformed .trailingText,
      .ofOffset (t ++ s).toList (Text.byteLength t.toList + Text.byteLength w + 1)⟩ := by
  obtain ⟨rest, hrun, hrest⟩ := read_eq_ok_iff.mp ha
  have happend := h.run_append hrun s.toList
  rw [← String.toList_append, hs, ← List.append_assoc] at happend
  rw [read_of_text_behind happend (blank_append.mpr ⟨hrest, hw⟩) hc, String.toList_append, hs]
  have hsize := c.utf8Size_pos
  have hoffset : Text.byteLength (t.toList ++ (w ++ c :: behind)) -
      (Text.byteLength (c :: behind) - 1) =
        Text.byteLength t.toList + Text.byteLength w + 1 := by
    simp only [Text.byteLength_append, Text.byteLength_cons]
    omega
  rw [hoffset]

theorem Reader.Delimited.respectsEnds (h : r.Delimited) : RespectsEnds (read r) where
  cut_blank _ _ _ := h.read_cut_blank
  cut _ _ _ := h.read_cut
  blank_behind _ _ _ := h.read_blank_behind
  text_behind _ _ _ _ _ _ := h.read_text_behind
  refused t e he hkind s a ha := by
    by_cases hs : Blank s.toList
    · rw [h.read_cut_blank ha hs] at he
      cases he
    · obtain ⟨construct, hcut⟩ := h.read_cut ha hs
      rw [hcut] at he
      cases he
      exact hkind rfl

end

/-! ## Records as whole texts -/

/-- A reader that skips blanks in front and reads exactly the texts of a grammar knows the last
character of what it finds, if this is never a blank. -/
theorem Reader.Delimited.of_spells {α : Type} {r : Reader α} {Spells : List Char → α → Prop}
    (hsurvives : ∀ p s, r.Survives p s)
    (hok : ∀ {text rest a}, r.run text = .ok (a, rest) →
      ∃ w cs, Blank w ∧ Spells cs a ∧ text = w ++ (cs ++ rest))
    (hlast : ∀ {cs a}, Spells cs a → ∃ v c, ¬ c.isWhitespace ∧ cs = v ++ [c])
    (hblank : ∀ {w}, Blank w → ∀ text, r.run (w ++ text) = r.run text)
    (hrun : ∀ {cs a}, Spells cs a → ∀ rest, r.run (cs ++ rest) = .ok (a, rest)) :
    r.Delimited where
  survives := hsurvives
  closes h := by
    obtain ⟨w, cs, hw, hcs, rfl⟩ := hok h
    obtain ⟨v, c, hc, rfl⟩ := hlast hcs
    refine ⟨w ++ v, c, hc, by simp, fun s => ?_⟩
    have hclosed := hrun hcs s
    rw [List.append_assoc, List.singleton_append] at hclosed
    rw [List.append_assoc, hblank hw, hclosed]

theorem record_delimited : record.Delimited :=
  .of_spells (fun _ _ => survives_record) record_ok SpellsRecord.last run_record_blank run_record

theorem records_delimited : records.Delimited := by
  refine .of_spells (fun _ _ => survives_records) records_ok (fun h => ?_) run_records_blank
    run_records
  obtain ⟨v, hv⟩ := h.last
  exact ⟨v, ']', by decide, hv⟩

end RecordText.Json

namespace RecordText

/-- Both lists of records and single records are accepted only where their last bracket is. -/
theorem load_respectsEnds :
    Json.RespectsEnds (fun text => (load text).run.value.mapError LoadError.cause) ∧
      Json.RespectsEnds Json.readRecord := by
  have hload : (fun text => (load text).run.value.mapError LoadError.cause) = Json.readRecords := by
    funext text
    rw [load_value]
    cases Json.readRecords text <;> rfl
  rw [hload]
  exact ⟨Json.records_delimited.respectsEnds, Json.record_delimited.respectsEnds⟩

/-- Of the value 12 only the first digit is left, which is a value too. -/
theorem load_cut_inside_value : ∃ construct,
    (load "[\x7b\"name\":\"a\",\"value\":1").run.value.mapError LoadError.cause =
      .error ⟨.unfinished construct, ⟨1, 22⟩⟩ := by
  have hwhole : (load ("[\x7b\"name\":\"a\",\"value\":1" ++ "2\x7d]")).run.value =
      .ok [⟨"a", 12⟩] := load_write .compact [⟨"a", 12⟩]
  refine load_respectsEnds.1.cut "[\x7b\"name\":\"a\",\"value\":1" "2\x7d]" [⟨"a", 12⟩] ?_ ?_
  · simp only [hwhole]
    rfl
  · simp [Char.isWhitespace]

end RecordText
