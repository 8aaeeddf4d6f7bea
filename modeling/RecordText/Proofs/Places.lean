import RecordText.Proofs.Elements

/-!
# What is read behind a beginning

A text that has come to a place of a list of records is read up to that place, and there the reader
for what is asked for goes on. What this reader fails with is what the whole text is refused for:
nothing that has been read before alters the fault, and nothing is read behind it.

* `AsksForRecord.run_records`, `AsksForRecord.run_records_error`: in front of an element of the
  list.
* `AsksForRecord.run_records_members`: behind members of an object.
* `EndsInKey.run_records`, `EndsInKey.run_records_error`: behind a key, with what is known of the
  record there.
-/

namespace RecordText.Json

open Reader

/-! ## Elements of a list -/

/-- The rest of a list behind one of its records, with all records in front. -/
def listRest (front : List Record) (r : Record) : Reader (List Record) := do
  let rs ← many nextRecord nextRecord_advances
  skip
  return front ++ r :: rs

theorem AsksForRecord.run_records {p : List Char} (hp : AsksForRecord p) :
    ∃ front, ∀ c text, ¬ c.isWhitespace → c ≠ ']' →
      records.run (p ++ c :: text) = (record >>= listRest front).run (c :: text) := by
  cases hp with
  | @list w cs rs hw hs =>
    refine ⟨rs, fun c text hc hb => ?_⟩
    have hbegins : BeginsElement (c :: text) := ⟨[], c, text, blank_nil, hc, hb, rfl⟩
    rw [List.append_assoc, List.cons_append, run_records_blank hw,
      run_records_bracket (hbegins.leading hs), run_bind, run_elements_leading hs hbegins,
      elements, run_bind, run_bind]
    cases record.run (c :: text) with
    | error fault => rfl
    | ok q =>
      simp only [listRest, run_bind]
      cases (many nextRecord nextRecord_advances).run q.2 <;> rfl

theorem AsksForRecord.run_records_error {p text : List Char} {c : Char} {fault : Fault}
    (hp : AsksForRecord p) (hc : ¬ c.isWhitespace) (hb : c ≠ ']')
    (h : record.run (c :: text) = .error fault) :
    records.run (p ++ c :: text) = .error fault := by
  obtain ⟨front, hrun⟩ := hp.run_records
  rw [hrun c text hc hb, run_bind, h]

/-! ## Members of an object -/

/-- The rest of a member behind its key, and the members behind it. -/
def memberRest (d : Draft) (key : String) : Reader Draft :=
  match Record.Field.ofKey? key with
  | none => refuse '}' (.unknownField key)
  | some .name =>
    if _ : d.name = none then do
      colon
      let s ← name
      members false { d with name := some s }
    else refuse '}' (.duplicateField .name)
  | some .value =>
    if _ : d.value = none then do
      colon
      let n ← value
      members false { d with value := some n }
    else refuse '}' (.duplicateField .value)

theorem run_members_quote {first : Bool} {d : Draft} {l : List Char} (hl : Leads first l)
    (text : List Char) :
    (members first d).run (l ++ '"' :: text) = (stringRest >>= memberRest d).run text := by
  rw [members, run_bind, run_nextKey_quote hl, run_bind, run_bind]
  cases stringRest.run text <;> rfl

theorem run_members_key {first : Bool} {d : Draft} {l k : List Char} {key : String}
    (hl : Leads first l) (hk : SpellsString k key) (text : List Char) :
    (members first d).run (l ++ (k ++ text)) = (memberRest d key).run text := by
  cases hk with
  | quoted h =>
    rw [List.cons_append, List.append_assoc, List.singleton_append, run_members_quote hl, run_bind,
      run_stringRest h]

/-- Members in front fill their fields, and what leads to the next member is still to be read. -/
theorem run_members_leading {first : Bool} {d : Draft} {l cs : List Char}
    {fs : List Record.Field} (hs : SpellsLeading SpellsField cs fs)
    (hl : ∀ w, Blank w → Leads first (l ++ w)) (hd : ∀ f ∈ fs, d.Lacks f) (hfs : fs.Nodup) :
    ∃ first' d' l', Leads first' l' ∧ (∀ f, d'.Lacks f ↔ d.Lacks f ∧ f ∉ fs) ∧
      ∀ rest, (members first d).run (l ++ (cs ++ rest)) =
        (members first' d').run (l' ++ rest) := by
  induction hs generalizing first d l with
  | @nil w hw =>
    refine ⟨first, d, l ++ w, hl w hw, by simp, fun rest => ?_⟩
    rw [List.append_assoc]
  | @cons w w' cs ds f fs hw h hw' hs ih =>
    obtain ⟨r, hm⟩ := h
    obtain ⟨hf, hfs⟩ := List.nodup_cons.mp hfs
    rw [List.forall_mem_cons] at hd
    have hlack : ∀ f' ∈ fs, (d.fill r f).Lacks f' := by
      intro f' hf'
      refine Draft.lacks_fill_iff.mpr ⟨?_, hd.2 f' hf'⟩
      rintro rfl
      exact hf hf'
    have hcomma : ∀ w'', Blank w'' → Leads false (w' ++ [','] ++ w'') := by
      intro w'' hw''
      rw [List.append_assoc]
      exact leads_comma hw' hw''
    obtain ⟨first', d', l', hl', hd', hrun⟩ := ih hcomma hlack hfs
    refine ⟨first', d', l', hl', fun f' => ?_, fun rest => ?_⟩
    · rw [hd', Draft.lacks_fill_iff, List.mem_cons, not_or, and_comm (a := f ≠ f'), and_assoc,
        ne_comm]
    · have hends : EndsNumber (w' ++ ',' :: (ds ++ rest)) :=
        endsNumber_append hw' (endsNumber_cons ',' (by decide) _)
      have hround := run_members (hl w hw) hm hd.1 fun _ => hends
      have hrest := hrun rest
      simp only [List.append_assoc, List.cons_append, List.nil_append] at hround hrest ⊢
      rw [hround, hrest]

/-- What is made of the members of an object, from its closing brace on. -/
def complete : Draft → Reader Record
  | ⟨none, _⟩ => refuse '}' (.missingField .name)
  | ⟨some _, none⟩ => refuse '}' (.missingField .value)
  | ⟨some s, some n⟩ => do
    skip
    return ⟨s, n⟩

theorem run_objectRecord_members (text : List Char) :
    objectRecord.run ('{' :: text) = (members true {} >>= complete).run text := by
  rw [objectRecord, run_skip_bind]
  rfl

/-- Behind these members the object goes on with a draft that lacks exactly the other fields. -/
theorem AsksForRecord.run_records_members {p cs : List Char} {fs : List Record.Field}
    (hp : AsksForRecord p) (hs : SpellsLeading SpellsField cs fs) (hfs : fs.Nodup) :
    ∃ front first d l, Leads first l ∧ (∀ f : Record.Field, d.Lacks f ↔ f ∉ fs) ∧
      ∀ rest, records.run (p ++ '{' :: (cs ++ rest)) =
        (members first d >>= fun d => complete d >>= listRest front).run (l ++ rest) := by
  obtain ⟨front, hrecords⟩ := hp.run_records
  obtain ⟨first, d, l, hl, hd, hrun⟩ := run_members_leading (l := []) hs
    (fun _ hw => leads_blank hw) (fun f _ => Draft.lacks_empty f) hfs
  refine ⟨front, first, d, l, hl, fun f => ?_, fun rest => ?_⟩
  · rw [hd, and_iff_right (Draft.lacks_empty f)]
  · have hobject : record.run ('{' :: (cs ++ rest)) =
        (members first d >>= complete).run (l ++ rest) := by
      rw [run_record_object, run_objectRecord_members, run_bind, run_bind, ← hrun, List.nil_append]
    rw [hrecords '{' _ (by decide) (by decide), run_bind_of_run_eq hobject]

/-- The draft behind the key lacks exactly the fields that are not in front of it. -/
theorem EndsInKey.run_records {p : List Char} {fs : List Record.Field} {key : String}
    (hp : EndsInKey p fs key) :
    ∃ front first d l k, Leads first l ∧ SpellsString k key ∧
      (∀ f : Record.Field, d.Lacks f ↔ f ∉ fs) ∧
      ∀ rest, records.run (p ++ rest) =
        (members first d >>= fun d => complete d >>= listRest front).run (l ++ (k ++ rest)) := by
  cases hp with
  | @object p cs k _ _ hp hs hfs hk =>
    obtain ⟨front, first, d, l, hl, hd, hrun⟩ := hp.run_records_members hs hfs
    refine ⟨front, first, d, l, k, hl, hk, hd, fun rest => ?_⟩
    rw [← hrun]
    simp

theorem EndsInKey.run_records_error {p : List Char} {fs : List Record.Field} {key : String}
    (hp : EndsInKey p fs key) :
    ∃ first d l k, Leads first l ∧ SpellsString k key ∧ (∀ f : Record.Field, d.Lacks f ↔ f ∉ fs) ∧
      ∀ rest fault, (members first d).run (l ++ (k ++ rest)) = .error fault →
        records.run (p ++ rest) = .error fault := by
  obtain ⟨_, first, d, l, k, hl, hk, hd, hrun⟩ := hp.run_records
  refine ⟨first, d, l, k, hl, hk, hd, fun rest fault h => ?_⟩
  rw [hrun, run_bind, h]

end RecordText.Json
