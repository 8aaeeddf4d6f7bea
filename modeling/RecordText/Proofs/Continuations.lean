import RecordText.Proofs.Places
import RecordText.Proofs.Written

/-!
# How a list goes on behind a name or a value

A text that has come to a name or a value of a record goes on with the reader for it, and then with
a reader that depends on the text in front alone. So what is read of the whole text is told by what
is read of the name or value and by the text behind it. Whatever this gives is what the list holds
there.

* `ReadsBehind`: the reader that goes on, and the one behind it.
* `HoldsField`: what is read at last holds what has been read here.
* `AsksFor.reads_name`, `AsksFor.reads_value`: every place of a name, and every place of a value.
* `AsksFor.run_records_error`: a text that comes to any value fails with what is read there.
-/

namespace RecordText.Json

open Reader

/-! ## What is read behind a place -/

/-- Behind `p` this reader goes on whatever stands there, and behind it `k`, to the end of the
list. -/
def ReadsBehind {α : Type} (p : List Char) (r : Reader α) (k : α → Reader (List Record)) : Prop :=
  ∀ c text, ¬ c.isWhitespace → c ≠ ']' → records.run (p ++ c :: text) = (r >>= k).run (c :: text)

/-- The list that is read holds these records and then one with what has been read in this field. It
can be read to its end, whatever has been read. -/
structure HoldsField {α : Type} (field : Record → α) (front : List Record)
    (k : α → Reader (List Record)) : Prop where
  kept : ∀ {a text rest rs}, (k a).run text = .ok (rs, rest) →
    ∃ r behind, rs = front ++ r :: behind ∧ field r = a
  completed : ∃ close, EndsNumber close ∧ ∀ a, ∃ r, field r = a ∧
    (k a).run close = .ok (front ++ [r], [])

theorem HoldsField.of_load {α : Type} {field : Record → α} {front rs : List Record}
    {k : α → Reader (List Record)} {t : String} {a : α} {text : List Char}
    (h : HoldsField field front k) (hrun : records.run t.toList = (k a).run text)
    (hload : (load t).run.value = .ok rs) :
    ∃ r behind, rs = front ++ r :: behind ∧ field r = a := by
  rw [load_eq_ok_iff, readRecords, read_eq_ok_iff, hrun] at hload
  obtain ⟨rest, hk, -⟩ := hload
  exact h.kept hk

/-! ## The rest of a list -/

theorem listRest_ok {front rs : List Record} {r : Record} {text rest : List Char}
    (h : (listRest front r).run text = .ok (rs, rest)) : ∃ behind, rs = front ++ r :: behind := by
  obtain ⟨behind, mid, -, h⟩ := run_bind_ok_iff.mp h
  obtain ⟨_, _, -, h⟩ := run_bind_ok_iff.mp h
  cases h
  exact ⟨behind, rfl⟩

theorem run_listRest_closing (front : List Record) (r : Record) :
    (listRest front r).run [']'] = .ok (front ++ [r], []) := by
  have hnone := run_nextRecord_closing blank_nil []
  rw [List.nil_append] at hnone
  simp only [listRest, run_bind, run_many_none nextRecord_advances hnone, run_skip, List.tail_cons,
    run_pure]

/-! ## The rest of an object -/

theorem members_keeps {first : Bool} {d d' : Draft} {text rest : List Char}
    (h : (members first d).run text = .ok (d', rest)) :
    (∀ s, d.name = some s → d'.name = some s) ∧ (∀ v, d.value = some v → d'.value = some v) := by
  induction hn : d.absent using Nat.strongRecOn generalizing first d text with
  | ind n ih =>
    rcases members_ok h with ⟨rfl, -⟩ | ⟨r, f, l, m, mid, -, -, hlacks, -, -, hm⟩
    · exact ⟨fun _ => id, fun _ => id⟩
    · have hkeeps := ih _ (hn ▸ Draft.absent_fill hlacks) hm rfl
      cases f <;> simp_all [Draft.fill, Draft.Lacks]

theorem complete_ok {d : Draft} {r : Record} {text rest : List Char}
    (h : (complete d).run text = .ok (r, rest)) : d = ⟨some r.name, some r.value⟩ := by
  match d with
  | ⟨none, _⟩ => exact absurd h refuse_ok
  | ⟨some _, none⟩ => exact absurd h refuse_ok
  | ⟨some s, some v⟩ =>
    obtain ⟨_, _, -, h⟩ := run_bind_ok_iff.mp h
    cases h
    rfl

/-- The members of an object behind these, and the rest of the list. -/
def objectRest (front : List Record) (d : Draft) : Reader (List Record) := do
  let r ← complete (← members false d)
  listRest front r

theorem objectRest_ok {front rs : List Record} {d : Draft} {text rest : List Char}
    (h : (objectRest front d).run text = .ok (rs, rest)) :
    ∃ r behind, rs = front ++ r :: behind ∧ (∀ s, d.name = some s → r.name = s) ∧
      ∀ v, d.value = some v → r.value = v := by
  obtain ⟨d', mid, hm, h⟩ := run_bind_ok_iff.mp h
  obtain ⟨r, mid', hr, h⟩ := run_bind_ok_iff.mp h
  obtain ⟨hname, hvalue⟩ := members_keeps hm
  obtain ⟨behind, rfl⟩ := listRest_ok h
  have hd := complete_ok hr
  subst hd
  refine ⟨r, behind, rfl, fun s hs => ?_, fun v hv => ?_⟩
  · exact Option.some.inj (hname s hs)
  · exact Option.some.inj (hvalue v hv)

theorem run_objectRest_closing (front : List Record) (s : String) (v : Int64) :
    (objectRest front ⟨some s, some v⟩).run ['}', ']'] = .ok (front ++ [⟨s, v⟩], []) := by
  have hm := run_members_closing false ⟨some s, some v⟩ blank_nil [']']
  rw [List.nil_append] at hm
  simp only [objectRest, run_bind, hm, complete, run_skip, List.tail_cons, run_pure,
    run_listRest_closing]

/-- A member that is the last one missing, the object and the list can be closed behind. -/
theorem run_objectRest_member (front : List Record) {d : Draft} {r : Record} {f : Record.Field}
    {m : List Char} (hm : SpellsMember r m f) (hd : d.Lacks f)
    (hfill : d.fill r f = ⟨some r.name, some r.value⟩) :
    (objectRest front d).run (',' :: (m ++ ['}', ']'])) = .ok (front ++ [r], []) := by
  have hround := run_members (leads_comma blank_nil blank_nil) hm hd
    fun _ => endsNumber_cons '}' (by decide) [']']
  rw [hfill] at hround
  have hclosing := run_objectRest_closing front r.name r.value
  rw [objectRest, run_bind] at hclosing ⊢
  rw [← hround] at hclosing
  exact hclosing

/-! ## Members -/

/-- A draft with a field as it stands in the text. -/
def fieldInto (d : Draft) : Record.Field → Reader Draft
  | .name => do return { d with name := some (← name) }
  | .value => do return { d with value := some (← value) }

/-- Behind its key and colon a field is read that is not there yet. -/
theorem run_memberRest_field {d : Draft} {w w' : List Char} {f : Record.Field} (hd : d.Lacks f)
    (hw : Blank w) (hw' : Blank w') (text : List Char) :
    (memberRest d f.key).run (w ++ ':' :: (w' ++ text)) =
      (fieldInto d f >>= members false).run text := by
  rw [memberRest, ofKey?_key]
  cases f with
  | name =>
    have hd : d.name = none := hd
    simp only [dif_pos hd, run_bind, run_colon hw, run_name_blank hw', fieldInto]
    cases name.run text <;> rfl
  | value =>
    have hd : d.value = none := hd
    simp only [dif_pos hd, run_bind, run_colon hw, run_value_blank hw', fieldInto]
    cases value.run text <;> rfl

theorem EndsInKey.reads_field {p w w' : List Char} {fs : List Record.Field} {f : Record.Field}
    (hp : EndsInKey p fs f.key) (hf : f ∉ fs) (hw : Blank w) (hw' : Blank w') :
    ∃ front, ∃ d : Draft, d.Lacks f ∧
      ReadsBehind (p ++ (w ++ ':' :: w')) (fieldInto d f) (objectRest front) := by
  obtain ⟨front, first, d, l, k, hl, hk, hd, hrecords⟩ := hp.run_records
  have hlacks := (hd f).mpr hf
  refine ⟨front, d, hlacks, fun c text _ _ => ?_⟩
  have hmembers : (members first d).run (l ++ (k ++ (w ++ ':' :: (w' ++ c :: text)))) =
      (fieldInto d f >>= members false).run (c :: text) := by
    rw [run_members_key hl hk, run_memberRest_field hlacks hw hw']
  have hrest := hrecords (w ++ ':' :: (w' ++ c :: text))
  rw [run_bind_of_run_eq hmembers] at hrest
  simpa [objectRest] using hrest

theorem ReadsBehind.of_map {α β : Type} {p : List Char} {r : Reader α} {g : α → β}
    {k : β → Reader (List Record)} (h : ReadsBehind p (do return g (← r)) k) :
    ReadsBehind p r fun a => k (g a) := by
  intro c text hc hb
  rw [h c text hc hb, run_bind, run_bind, run_bind]
  cases r.run (c :: text) <;> rfl

theorem holdsField_name (front : List Record) {d : Draft} (hd : d.Lacks .name) :
    HoldsField Record.name front fun s => objectRest front { d with name := some s } where
  kept h := by
    obtain ⟨r, behind, hrs, hname, -⟩ := objectRest_ok h
    exact ⟨r, behind, hrs, hname _ rfl⟩
  completed := by
    obtain ⟨n, v⟩ := d
    cases v with
    | some v =>
      exact ⟨['}', ']'], endsNumber_cons '}' (by decide) [']'],
        fun s => ⟨⟨s, v⟩, rfl, run_objectRest_closing front s v⟩⟩
    | none =>
      have hm : ∀ s, SpellsMember ⟨s, 0⟩ _ .value := fun s =>
        .value (spellsString_writeString Record.Field.value.key) blank_nil blank_nil
          (spellsInteger_toString (0 : Int64).toInt)
      exact ⟨_, endsNumber_cons ',' (by decide) _,
        fun s => ⟨⟨s, 0⟩, rfl, run_objectRest_member front (hm s) rfl rfl⟩⟩

theorem holdsField_value (front : List Record) {d : Draft} (hd : d.Lacks .value) :
    HoldsField Record.value front fun v => objectRest front { d with value := some v } where
  kept h := by
    obtain ⟨r, behind, hrs, -, hvalue⟩ := objectRest_ok h
    exact ⟨r, behind, hrs, hvalue _ rfl⟩
  completed := by
    obtain ⟨n, v⟩ := d
    cases n with
    | some s =>
      exact ⟨['}', ']'], endsNumber_cons '}' (by decide) [']'],
        fun v => ⟨⟨s, v⟩, rfl, run_objectRest_closing front s v⟩⟩
    | none =>
      have hm : ∀ v, SpellsMember ⟨"", v⟩ _ .name := fun v =>
        .name (spellsString_writeString Record.Field.name.key) blank_nil blank_nil
          (spellsString_writeString "")
      exact ⟨_, endsNumber_cons ',' (by decide) _,
        fun v => ⟨⟨"", v⟩, rfl, run_objectRest_member front (hm v) rfl rfl⟩⟩

/-! ## Elements of arrays -/

/-- An array in the place of a record, behind its first element. -/
def arrayRest (s : String) : Reader Record := do
  if ← nextElement false then
    let v ← value
    closeArray
    return ⟨s, v⟩
  else refuse ']' (.tooShort 1)

/-- An array in the place of a record, behind both of its elements. -/
def arrayEnd (s : String) (v : Int64) : Reader Record := do
  closeArray
  return ⟨s, v⟩

theorem arrayEnd_ok {s : String} {v : Int64} {r : Record} {text rest : List Char}
    (h : (arrayEnd s v).run text = .ok (r, rest)) : r = ⟨s, v⟩ := by
  obtain ⟨_, _, -, h⟩ := run_bind_ok_iff.mp h
  cases h
  rfl

theorem run_arrayEnd (s : String) (v : Int64) (rest : List Char) :
    (arrayEnd s v).run (']' :: rest) = .ok (⟨s, v⟩, rest) := by
  have hclose := run_closeArray blank_nil rest
  rw [List.nil_append] at hclose
  rw [arrayEnd, run_bind, hclose]
  rfl

theorem arrayRest_ok {s : String} {r : Record} {text rest : List Char}
    (h : (arrayRest s).run text = .ok (r, rest)) : r.name = s := by
  obtain ⟨more, mid, -, h⟩ := run_bind_ok_iff.mp h
  cases more with
  | false => exact absurd h refuse_ok
  | true =>
    obtain ⟨v, mid', -, h⟩ := run_bind_ok_iff.mp h
    rw [arrayEnd_ok h]

theorem run_arrayRest (s : String) (rest : List Char) :
    (arrayRest s).run (',' :: '0' :: ']' :: rest) = .ok (⟨s, 0⟩, rest) := by
  have hnext := run_nextElement (leads_comma blank_nil blank_nil) (c := '0') (by decide)
    (by decide) (']' :: rest)
  have hvalue := run_value blank_nil (spellsInteger_toString (0 : Int64).toInt)
    (endsNumber_cons ']' (by decide) rest)
  have hzero : (toString (0 : Int64).toInt).toList = ['0'] := rfl
  simp only [hzero, List.nil_append, List.cons_append] at hnext hvalue
  have hend := run_arrayEnd s 0 rest
  simp only [arrayEnd, run_bind, run_pure] at hend
  simp only [arrayRest, run_bind, hnext, if_true, hvalue, run_pure, hend]

theorem AsksForRecord.reads_first {p w : List Char} (hp : AsksForRecord p) (hw : Blank w) :
    ∃ front, ReadsBehind (p ++ '[' :: w) name fun s => arrayRest s >>= listRest front := by
  obtain ⟨front, hrecords⟩ := hp.run_records
  refine ⟨front, fun c text hc hb => ?_⟩
  have harray : record.run ('[' :: (w ++ c :: text)) = (name >>= arrayRest).run (c :: text) := by
    rw [run_record_array, arrayRecord, run_skip_bind, run_bind,
      run_nextElement (leads_blank hw) hc hb]
    rfl
  have hrest := hrecords '[' (w ++ c :: text) (by decide) (by decide)
  rw [run_bind_of_run_eq harray] at hrest
  simpa using hrest

theorem AsksForRecord.reads_second {p w₁ w₂ w₃ k : List Char} {s : String} (hp : AsksForRecord p)
    (hw₁ : Blank w₁) (hk : SpellsString k s) (hw₂ : Blank w₂) (hw₃ : Blank w₃) :
    ∃ front, ReadsBehind (p ++ '[' :: (w₁ ++ (k ++ (w₂ ++ ',' :: w₃)))) value
      fun v => arrayEnd s v >>= listRest front := by
  obtain ⟨front, hrecords⟩ := hp.run_records
  refine ⟨front, fun c text hc hb => ?_⟩
  have harray : record.run ('[' :: (w₁ ++ (k ++ (w₂ ++ ',' :: (w₃ ++ c :: text))))) =
      (value >>= arrayEnd s).run (c :: text) := by
    rw [run_record_array, run_arrayRecord_value hw₁ hk hw₂ hw₃ hc hb]
    rfl
  have hrest := hrecords '[' (w₁ ++ (k ++ (w₂ ++ ',' :: (w₃ ++ c :: text)))) (by decide) (by decide)
  rw [run_bind_of_run_eq harray] at hrest
  simpa using hrest

theorem holdsField_first (front : List Record) :
    HoldsField Record.name front fun s => arrayRest s >>= listRest front where
  kept h := by
    obtain ⟨r, mid, hr, h⟩ := run_bind_ok_iff.mp h
    obtain ⟨behind, hrs⟩ := listRest_ok h
    exact ⟨r, behind, hrs, arrayRest_ok hr⟩
  completed := by
    refine ⟨[',', '0', ']', ']'], endsNumber_cons ',' (by decide) _, fun s => ⟨⟨s, 0⟩, rfl, ?_⟩⟩
    rw [run_bind, run_arrayRest]
    exact run_listRest_closing front ⟨s, 0⟩

theorem holdsField_second (front : List Record) (s : String) :
    HoldsField Record.value front fun v => arrayEnd s v >>= listRest front where
  kept h := by
    obtain ⟨r, mid, hr, h⟩ := run_bind_ok_iff.mp h
    obtain ⟨behind, hrs⟩ := listRest_ok h
    exact ⟨r, behind, hrs, by rw [arrayEnd_ok hr]⟩
  completed := by
    refine ⟨[']', ']'], endsNumber_cons ']' (by decide) _, fun v => ⟨⟨s, v⟩, rfl, ?_⟩⟩
    rw [run_bind, run_arrayEnd]
    exact run_listRest_closing front ⟨s, v⟩

/-! ## Every name and every value -/

/-- Wherever a name is asked for it is read, and stands in the record that is read there. -/
theorem AsksFor.reads_name {p : List Char} (hp : AsksFor p .name) :
    ∃ front k, HoldsField Record.name front k ∧ ReadsBehind p name k := by
  generalize he : Expected.name = e at hp
  cases hp with
  | list | element | second => cases he
  | first hp hw =>
    obtain ⟨front, hreads⟩ := hp.reads_first hw
    exact ⟨front, _, holdsField_first front, hreads⟩
  | @member p w w' fs f hp hf hw hw' =>
    cases f with
    | value => cases he
    | name =>
      obtain ⟨front, d, hd, hreads⟩ := hp.reads_field hf hw hw'
      exact ⟨front, _, holdsField_name front hd, hreads.of_map⟩

/-- Wherever a value is asked for it is read, and stands in the record that is read there. -/
theorem AsksFor.reads_value {p : List Char} (hp : AsksFor p .value) :
    ∃ front k, HoldsField Record.value front k ∧ ReadsBehind p value k := by
  generalize he : Expected.value = e at hp
  cases hp with
  | list | element | first => cases he
  | @second p w₁ w₂ w₃ k s hp hw₁ hk hw₂ hw₃ =>
    obtain ⟨front, hreads⟩ := hp.reads_second hw₁ hk hw₂ hw₃
    exact ⟨front, _, holdsField_second front s, hreads⟩
  | @member p w w' fs f hp hf hw hw' =>
    cases f with
    | name => cases he
    | value =>
      obtain ⟨front, d, hd, hreads⟩ := hp.reads_field hf hw hw'
      exact ⟨front, _, holdsField_value front hd, hreads.of_map⟩

/-! ## Failures -/

/-- The reader for what is asked for fails. -/
def FailsFor : Expected → List Char → Fault → Prop
  | .records, text, fault => records.run text = .error fault
  | .record, text, fault => record.run text = .error fault
  | .name, text, fault => name.run text = .error fault
  | .value, text, fault => value.run text = .error fault

theorem ReadsBehind.run_records_error {α : Type} {p text : List Char} {r : Reader α}
    {k : α → Reader (List Record)} {c : Char} {fault : Fault} (h : ReadsBehind p r k)
    (hc : ¬ c.isWhitespace) (hb : c ≠ ']') (hr : r.run (c :: text) = .error fault) :
    records.run (p ++ c :: text) = .error fault := by
  rw [h c text hc hb, run_bind, hr]

/-- A text that comes to a value fails with what is read there. -/
theorem AsksFor.run_records_error {p text : List Char} {e : Expected} {c : Char} {fault : Fault}
    (hp : AsksFor p e) (hc : ¬ c.isWhitespace) (hb : c ≠ ']') (h : FailsFor e (c :: text) fault) :
    records.run (p ++ c :: text) = .error fault := by
  cases hp with
  | list hw =>
    rw [run_records_blank hw]
    exact h
  | element hp => exact hp.run_records_error hc hb h
  | first hp hw =>
    obtain ⟨front, hreads⟩ := hp.reads_first hw
    exact hreads.run_records_error hc hb h
  | second hp hw₁ hk hw₂ hw₃ =>
    obtain ⟨front, hreads⟩ := hp.reads_second hw₁ hk hw₂ hw₃
    exact hreads.run_records_error hc hb h
  | @member p w w' fs f hp hf hw hw' =>
    obtain ⟨front, d, -, hreads⟩ := hp.reads_field hf hw hw'
    cases f with
    | name => exact hreads.of_map.run_records_error hc hb h
    | value => exact hreads.of_map.run_records_error hc hb h

end RecordText.Json
