import RecordText.Proofs.Separators

/-!
# What is read of a record

An object is read member by member into a draft of the record. `members_ok` says all that one round
may do with success: find the closing brace, or fill a field that the draft lacks. A record is read
where no field is lacking at the brace, so there are exactly two rounds before it.

* `run_members`, `members_ok`: one round.
* `run_record`, `record_ok`: exactly the records of the grammar are read, in either form.
-/

namespace RecordText.Json

open Reader

/-! ## Drafts -/

namespace Draft

/-- Whether a field has not been read yet. -/
def Lacks (d : Draft) : Record.Field → Prop
  | .name => d.name = none
  | .value => d.value = none

/-- A draft with one field as in a record. -/
def fill (d : Draft) (r : Record) : Record.Field → Draft
  | .name => { d with name := some r.name }
  | .value => { d with value := some r.value }

theorem lacks_empty (f : Record.Field) : Lacks {} f := by
  cases f <;> rfl

theorem lacks_fill_iff {d : Draft} {r : Record} {f f' : Record.Field} :
    (d.fill r f).Lacks f' ↔ f ≠ f' ∧ d.Lacks f' := by
  cases f <;> cases f' <;> simp [fill, Lacks]

theorem absent_fill {d : Draft} {r : Record} {f : Record.Field} (h : d.Lacks f) :
    (d.fill r f).absent < d.absent := by
  cases f <;> simp_all [Lacks, fill, absent]

theorem fill_fill {d : Draft} {r : Record} {f f' : Record.Field} (hf : f ≠ f') :
    (d.fill r f).fill r f' = ⟨some r.name, some r.value⟩ := by
  cases f <;> cases f' <;> simp [fill] at hf ⊢

/-- What is in a draft at the end was filled in by its last two rounds. -/
theorem eq_of_fill_fill {r₁ r₂ r : Record} {f₁ f₂ : Record.Field} (hf : f₁ ≠ f₂)
    (h : (⟨some r.name, some r.value⟩ : Draft) = (fill {} r₁ f₁).fill r₂ f₂) :
    (f₁ = .name → r₁.name = r.name) ∧ (f₁ = .value → r₁.value = r.value) ∧
      (f₂ = .name → r₂.name = r.name) ∧ (f₂ = .value → r₂.value = r.value) := by
  cases f₁ <;> cases f₂ <;> simp_all [fill]

end Draft

/-- Of the record only the field of the member matters. -/
theorem SpellsMember.congr {r r' : Record} {m : List Char} {f : Record.Field}
    (h : SpellsMember r m f) (hn : f = .name → r.name = r'.name)
    (hv : f = .value → r.value = r'.value) : SpellsMember r' m f := by
  cases h with
  | name hk hw hw' hs => exact .name hk hw hw' (hn rfl ▸ hs)
  | value hk hw hw' hs => exact .value hk hw hw' (hv rfl ▸ hs)

/-! ## Objects -/

theorem ofKey?_eq_some {key : String} {f : Record.Field} (h : Record.Field.ofKey? key = some f) :
    key = f.key := by
  unfold Record.Field.ofKey? at h
  split at h
  · cases h
    assumption
  · split at h
    · cases h
      assumption
    · cases h

theorem ofKey?_key (f : Record.Field) : Record.Field.ofKey? f.key = some f := by
  cases f <;> decide

theorem run_members_closing (first : Bool) (d : Draft) {w : List Char} (hw : Blank w)
    (text : List Char) : (members first d).run (w ++ '}' :: text) = .ok (d, '}' :: text) := by
  rw [members, run_bind, run_nextKey_closing first hw]
  rfl

/-- A member that the draft lacks is read into it. -/
theorem run_members {first : Bool} {d : Draft} {l m rest : List Char} {r : Record}
    {f : Record.Field} (hl : Leads first l) (hm : SpellsMember r m f) (hd : d.Lacks f)
    (hr : f = .value → EndsNumber rest) :
    (members first d).run (l ++ (m ++ rest)) = (members false (d.fill r f)).run rest := by
  cases hm with
  | @name k w w' v hk hw hw' hs =>
    have hkey : Record.Field.ofKey? "name" = some .name := ofKey?_key .name
    have hd : d.name = none := hd
    rw [List.append_assoc, List.append_assoc, List.cons_append, List.append_assoc, members,
      run_bind, run_nextKey hl hk]
    simp only [hkey, dif_pos hd, run_bind, run_colon hw, run_name hw' hs, Draft.fill]
  | @value k w w' v hk hw hw' hn =>
    have hkey : Record.Field.ofKey? "value" = some .value := ofKey?_key .value
    have hd : d.value = none := hd
    rw [List.append_assoc, List.append_assoc, List.cons_append, List.append_assoc, members,
      run_bind, run_nextKey hl hk]
    simp only [hkey, dif_pos hd, run_bind, run_colon hw, run_value hw' hn (hr rfl), Draft.fill]

theorem refuse_ok {α : Type} {bracket : Char} {m : Mismatch} {text rest : List Char} {a : α} :
    (refuse bracket m : Reader α).run text ≠ .ok (a, rest) := by
  intro h
  obtain ⟨_, _, _, h⟩ := run_bind_ok_iff.mp h
  obtain ⟨_, _, _, h⟩ := run_bind_ok_iff.mp h
  cases h

theorem member_name_ok {r : Record} {k mid mid₁ rest : List Char} (hk : SpellsString k "name")
    (hc : colon.run mid = .ok ((), mid₁)) (hv : name.run mid₁ = .ok (r.name, rest)) :
    ∃ m, SpellsMember r m .name ∧ k ++ mid = m ++ rest := by
  obtain ⟨w, hw, rfl⟩ := colon_ok hc
  obtain ⟨w', cs, hw', hcs, rfl⟩ := name_ok hv
  exact ⟨_, .name hk hw hw' hcs, by simp⟩

theorem member_value_ok {r : Record} {k mid mid₁ rest : List Char} (hk : SpellsString k "value")
    (hc : colon.run mid = .ok ((), mid₁)) (hv : value.run mid₁ = .ok (r.value, rest)) :
    ∃ m, SpellsMember r m .value ∧ EndsNumber rest ∧ k ++ mid = m ++ rest := by
  obtain ⟨w, hw, rfl⟩ := colon_ok hc
  obtain ⟨w', cs, hw', hcs, hends, rfl⟩ := value_ok hv
  exact ⟨_, .value hk hw hw' hcs, hends, by simp⟩

theorem members_ok {first : Bool} {d d' : Draft} {text rest : List Char}
    (h : (members first d).run text = .ok (d', rest)) :
    (d' = d ∧ ∃ w behind, Blank w ∧ rest = '}' :: behind ∧ text = w ++ rest) ∨
      ∃ r f l m mid, Leads first l ∧ SpellsMember r m f ∧ d.Lacks f ∧
        text = l ++ (m ++ mid) ∧ (f = .value → EndsNumber mid) ∧
        (members false (d.fill r f)).run mid = .ok (d', rest) := by
  rw [members] at h
  obtain ⟨key, mid, hkey, h⟩ := run_bind_ok_iff.mp h
  rcases nextKey_ok hkey with ⟨rfl, hclosing⟩ | ⟨s, l, k, rfl, hl, hk, ht⟩
  · cases h
    exact .inl ⟨rfl, hclosing⟩
  refine .inr ?_
  cases hf : Record.Field.ofKey? s with
  | none =>
    simp only [hf] at h
    exact absurd h refuse_ok
  | some f =>
    have hkey := ofKey?_eq_some hf
    subst hkey
    simp only [hf] at h
    cases f with
    | name =>
      by_cases hd : d.name = none
      · simp only [dif_pos hd] at h
        obtain ⟨_, mid₁, hc, h⟩ := run_bind_ok_iff.mp h
        obtain ⟨v, mid₂, hv, h⟩ := run_bind_ok_iff.mp h
        obtain ⟨m, hm, hmid⟩ := member_name_ok (r := ⟨v, 0⟩) hk hc hv
        exact ⟨⟨v, 0⟩, .name, l, m, mid₂, hl, hm, hd, by rw [ht, hmid],
          (fun hvalue => by cases hvalue), h⟩
      · simp only [dif_neg hd] at h
        exact absurd h refuse_ok
    | value =>
      by_cases hd : d.value = none
      · simp only [dif_pos hd] at h
        obtain ⟨_, mid₁, hc, h⟩ := run_bind_ok_iff.mp h
        obtain ⟨v, mid₂, hv, h⟩ := run_bind_ok_iff.mp h
        obtain ⟨m, hm, hends, hmid⟩ := member_value_ok (r := ⟨"", v⟩) hk hc hv
        exact ⟨⟨"", v⟩, .value, l, m, mid₂, hl, hm, hd, by rw [ht, hmid], fun _ => hends, h⟩
      · simp only [dif_neg hd] at h
        exact absurd h refuse_ok

theorem run_objectRecord {w₁ w₂ w₃ w₄ m m' : List Char} {r : Record} {f f' : Record.Field}
    (hw₁ : Blank w₁) (hm : SpellsMember r m f) (hw₂ : Blank w₂) (hw₃ : Blank w₃)
    (hm' : SpellsMember r m' f') (hw₄ : Blank w₄) (hf : f ≠ f') (rest : List Char) :
    objectRecord.run ('{' :: (w₁ ++ (m ++ (w₂ ++ ',' :: (w₃ ++ (m' ++ (w₄ ++ '}' :: rest))))))) =
      .ok (r, rest) := by
  have hfirst := run_members (leads_blank hw₁) hm (Draft.lacks_empty f)
    (fun _ => endsNumber_append hw₂ (endsNumber_cons ',' (by decide)
      (w₃ ++ (m' ++ (w₄ ++ '}' :: rest)))))
  have hlack : (Draft.fill {} r f).Lacks f' :=
    Draft.lacks_fill_iff.mpr ⟨hf, Draft.lacks_empty f'⟩
  have hsecond := run_members (leads_comma hw₂ hw₃)
    hm' hlack (fun _ => endsNumber_append hw₄ (endsNumber_cons '}' (by decide) rest))
  rw [List.append_assoc, List.cons_append] at hsecond
  rw [objectRecord, run_skip_bind, run_bind, hfirst, hsecond, Draft.fill_fill hf,
    run_members_closing false _ hw₄]
  rfl

theorem objectRecord_ok {text rest : List Char} {r : Record}
    (h : objectRecord.run ('{' :: text) = .ok (r, rest)) :
    ∃ cs, SpellsRecord cs r ∧ '{' :: text = cs ++ rest := by
  rw [objectRecord, run_skip_bind] at h
  obtain ⟨⟨n, v⟩, mid, hm, h⟩ := run_bind_ok_iff.mp h
  cases n with
  | none => exact absurd h refuse_ok
  | some n =>
    cases v with
    | none => exact absurd h refuse_ok
    | some v =>
      rcases members_ok hm with ⟨hd, -⟩ | ⟨r₁, f₁, w₁, m₁, mid₁, hw₁, hm₁, -, ht, -, hm⟩
      · cases hd
      rcases members_ok hm with ⟨hd, -⟩ | ⟨r₂, f₂, l, m₂, mid₂, hl, hm₂, hlack, ht₁, -, hm⟩
      · cases f₁ <;> cases hd
      have hf := (Draft.lacks_fill_iff.mp hlack).1
      rcases members_ok hm with ⟨hd, w₄, behind, hw₄, hmid, ht₂⟩ | ⟨_, f₃, _, _, _, _, _, hlack', _⟩
      · simp only at h
        rw [hmid, run_skip_bind] at h
        cases h
        obtain ⟨hn₁, hv₁, hn₂, hv₂⟩ := Draft.eq_of_fill_fill (r := ⟨n, v⟩) hf hd
        obtain ⟨w₂, w₃, hw₂, hw₃, rfl⟩ := hl
        refine ⟨_, .object hw₁ (hm₁.congr hn₁ hv₁) hw₂ hw₃ (hm₂.congr hn₂ hv₂) hw₄ hf, ?_⟩
        rw [ht, ht₁, ht₂, hmid]
        simp
      · -- A third round would need a third field.
        rw [Draft.lacks_fill_iff, Draft.lacks_fill_iff] at hlack'
        cases f₁ <;> cases f₂ <;> cases f₃ <;> simp at hf hlack'

/-! ## Arrays -/

/-- Behind the first element of an array a value is asked for, and then the end of the array. -/
theorem run_arrayRecord_value {w₁ w₂ w₃ k : List Char} {s : String} (hw₁ : Blank w₁)
    (hk : SpellsString k s) (hw₂ : Blank w₂) (hw₃ : Blank w₃) {c : Char} (hc : ¬ c.isWhitespace)
    (hb : c ≠ ']') (text : List Char) :
    arrayRecord.run ('[' :: (w₁ ++ (k ++ (w₂ ++ ',' :: (w₃ ++ c :: text))))) =
      Reader.run (do let n ← value; closeArray; return ⟨s, n⟩) (c :: text) := by
  obtain ⟨q, rfl⟩ := hk.head
  have hfirst := run_nextElement (leads_blank hw₁) (c := '"') (by decide) (by decide)
    (q ++ (w₂ ++ ',' :: (w₃ ++ c :: text)))
  have hname := run_name blank_nil hk (w₂ ++ ',' :: (w₃ ++ c :: text))
  have hsecond := run_nextElement (leads_comma hw₂ hw₃) hc hb text
  simp only [List.append_assoc, List.cons_append, List.nil_append] at hfirst hname hsecond ⊢
  rw [arrayRecord, run_skip_bind]
  simp only [run_bind, hfirst, if_true, hname, hsecond]

theorem run_arrayRecord {w₁ w₂ w₃ w₄ s n : List Char} {r : Record} (hw₁ : Blank w₁)
    (hs : SpellsString s r.name) (hw₂ : Blank w₂) (hw₃ : Blank w₃)
    (hn : SpellsInteger n r.value.toInt) (hw₄ : Blank w₄) (rest : List Char) :
    arrayRecord.run ('[' :: (w₁ ++ (s ++ (w₂ ++ ',' :: (w₃ ++ (n ++ (w₄ ++ ']' :: rest))))))) =
      .ok (r, rest) := by
  obtain ⟨c, ds, rfl, hc⟩ := hn.head
  have hends := endsNumber_append hw₄ (endsNumber_cons ']' (by decide) rest)
  have hvalue := run_value blank_nil hn hends
  rw [List.nil_append, List.cons_append] at hvalue
  rw [List.cons_append, run_arrayRecord_value hw₁ hs hw₂ hw₃ hc.not_isWhitespace
    (hc.ne ']' (by decide))]
  simp only [run_bind, hvalue, run_closeArray hw₄ rest, run_pure]

theorem arrayRecord_ok {text rest : List Char} {r : Record}
    (h : arrayRecord.run ('[' :: text) = .ok (r, rest)) :
    ∃ cs, SpellsRecord cs r ∧ '[' :: text = cs ++ rest := by
  rw [arrayRecord, run_skip_bind] at h
  obtain ⟨more, mid₁, he, h⟩ := run_bind_ok_iff.mp h
  rcases nextElement_ok he with ⟨rfl, -⟩ | ⟨rfl, w₁, hw₁, ht⟩
  · exact absurd h refuse_ok
  simp only [if_true] at h
  obtain ⟨s, mid₂, hs, h⟩ := run_bind_ok_iff.mp h
  obtain ⟨w, cs, hw, hcs, ht₁⟩ := name_ok hs
  obtain ⟨more, mid₃, he, h⟩ := run_bind_ok_iff.mp h
  rcases nextElement_ok he with ⟨rfl, -⟩ | ⟨rfl, l, ⟨w₂, w₃, hw₂, hw₃, rfl⟩, ht₂⟩
  · exact absurd h refuse_ok
  simp only [if_true] at h
  obtain ⟨v, mid₄, hv, h⟩ := run_bind_ok_iff.mp h
  obtain ⟨w', ds, hw', hds, -, ht₃⟩ := value_ok hv
  obtain ⟨_, mid₅, hc, h⟩ := run_bind_ok_iff.mp h
  obtain ⟨w₄, hw₄, ht₄⟩ := closeArray_ok hc
  cases h
  refine ⟨_, .array (blank_append.mpr ⟨hw₁, hw⟩) hcs hw₂ (blank_append.mpr ⟨hw₃, hw'⟩) hds hw₄, ?_⟩
  rw [ht, ht₁, ht₂, ht₃, ht₄]
  simp

/-! ## Either form -/

theorem run_record_blank {w : List Char} (hw : Blank w) (text : List Char) :
    record.run (w ++ text) = record.run text := by
  simp only [record, run_bind, run_found_blank hw]

theorem run_record_array (text : List Char) :
    record.run ('[' :: text) = arrayRecord.run ('[' :: text) := by
  rw [record, run_bind, run_found_list]

theorem run_record_object (text : List Char) :
    record.run ('{' :: text) = objectRecord.run ('{' :: text) := by
  rw [record, run_bind, run_found_object]

theorem run_record {cs : List Char} {r : Record} (h : SpellsRecord cs r) (rest : List Char) :
    record.run (cs ++ rest) = .ok (r, rest) := by
  cases h with
  | array hw₁ hs hw₂ hw₃ hn hw₄ =>
    have ha := run_arrayRecord hw₁ hs hw₂ hw₃ hn hw₄ rest
    simp only [List.cons_append, List.append_assoc, List.nil_append] at ha ⊢
    rw [run_record_array, ha]
  | object hw₁ hm hw₂ hw₃ hm' hw₄ hf =>
    have ho := run_objectRecord hw₁ hm hw₂ hw₃ hm' hw₄ hf rest
    simp only [List.cons_append, List.append_assoc, List.nil_append] at ho ⊢
    rw [run_record_object, ho]

theorem record_ok {text rest : List Char} {r : Record} (h : record.run text = .ok (r, rest)) :
    ∃ w cs, Blank w ∧ SpellsRecord cs r ∧ text = w ++ (cs ++ rest) := by
  obtain ⟨f, mid, hf, h⟩ := run_bind_ok_iff.mp h
  obtain ⟨w, cs, hw, ht, hshows⟩ := found_ok hf
  split at h
  · obtain ⟨rfl, behind, rfl⟩ := hshows
    obtain ⟨cs, hcs, hmid⟩ := objectRecord_ok h
    exact ⟨w, cs, hw, hcs, by rw [ht, hmid, List.nil_append]⟩
  · obtain ⟨rfl, behind, rfl⟩ := hshows
    obtain ⟨cs, hcs, hmid⟩ := arrayRecord_ok h
    exact ⟨w, cs, hw, hcs, by rw [ht, hmid, List.nil_append]⟩
  · cases h

end RecordText.Json
