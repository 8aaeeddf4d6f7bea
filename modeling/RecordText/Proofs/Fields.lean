import RecordText.Proofs.Places

/-!
# Records with too few or too many fields

A record has two fields. The first key of an object that names none of them, or one for the second
time, is where the list is refused, and so is the end of an object or array that lacks one of them.
The text behind is not read, save for the blanks and the bracket that the refusal passes over. An
array that goes on behind both of its fields is refused for the text behind its comma.

* `run_refuse`, `run_refuse_closing`: how far a refusal gets.
* `load_refuses_key`: unknown and repeated fields.
* `load_refuses_fields`: missing and surplus fields.
-/

namespace RecordText.Json

open Reader

/-! ## Refusals -/

/-- How many bytes a refusal passes over: the blanks, and the bracket if it comes next. -/
def refusalLength (bracket : Char) (text : List Char) : Nat :=
  Text.byteLength (text.takeWhile Char.isWhitespace) +
    if (text.dropWhile Char.isWhitespace).head? = some bracket then 1 else 0

theorem byteLength_blanks (text : List Char) :
    Text.byteLength (text.takeWhile Char.isWhitespace) +
      Text.byteLength (text.dropWhile Char.isWhitespace) = Text.byteLength text := by
  rw [← Text.byteLength_append, List.takeWhile_append_dropWhile]

variable {α : Type}

theorem run_refuse {bracket : Char} (hb : bracket.utf8Size = 1) (m : Mismatch) (text : List Char) :
    ∃ unread, (refuse bracket m : Reader α).run text = .error ⟨.mismatched m, unread⟩ ∧
      refusalLength bracket text + unread = Text.byteLength text := by
  rw [← byteLength_blanks text, refusalLength]
  by_cases hhead : (text.dropWhile Char.isWhitespace).head? = some bracket
  · obtain ⟨behind, hbehind⟩ := List.head?_eq_some_iff.mp hhead
    refine ⟨Text.byteLength behind, ?_, ?_⟩
    · simp only [refuse, run_bind, run_blanks, run_accept, if_pos hhead, run_fail]
      rw [hbehind, List.tail_cons]
    · rw [if_pos hhead, hbehind, Text.byteLength_cons, hb, Nat.add_assoc]
  · refine ⟨Text.byteLength (text.dropWhile Char.isWhitespace), ?_, ?_⟩
    · simp only [refuse, run_bind, run_blanks, run_accept, if_neg hhead, run_fail]
    · rw [if_neg hhead, Nat.add_zero]

/-- Where the bracket comes next the refusal is placed behind it. -/
theorem run_refuse_closing {bracket : Char} (hb : ¬ bracket.isWhitespace) (m : Mismatch)
    (text : List Char) :
    (refuse bracket m : Reader α).run (bracket :: text) =
      .error ⟨.mismatched m, Text.byteLength text⟩ := by
  simp only [refuse, run_bind, run_blanks, List.dropWhile_cons_of_neg hb, run_accept,
    List.head?_cons, if_true, List.tail_cons, run_fail]

/-! ## Keys -/

/-- Why a key is refused that names no field, or one that is there already. -/
def keyMismatch (key : String) : Mismatch :=
  match Record.Field.ofKey? key with
  | none => .unknownField key
  | some f => .duplicateField f

theorem run_memberRest_refused {d : Draft} {key : String}
    (h : ∀ f, Record.Field.ofKey? key = some f → ¬ d.Lacks f) (text : List Char) :
    ∃ unread, (memberRest d key).run text = .error ⟨.mismatched (keyMismatch key), unread⟩ ∧
      refusalLength '}' text + unread = Text.byteLength text := by
  have hbrace : ('}' : Char).utf8Size = 1 := rfl
  obtain ⟨unread, hrefuse, hlength⟩ := run_refuse (α := Draft) hbrace (keyMismatch key) text
  refine ⟨unread, ?_, hlength⟩
  rw [memberRest]
  cases hf : Record.Field.ofKey? key with
  | none =>
    simp only [keyMismatch, hf] at hrefuse ⊢
    exact hrefuse
  | some f =>
    simp only [keyMismatch, hf] at hrefuse ⊢
    cases f with
    | name =>
      have hd : ¬ d.name = none := h .name hf
      simp only [dif_neg hd]
      exact hrefuse
    | value =>
      have hd : ¬ d.value = none := h .value hf
      simp only [dif_neg hd]
      exact hrefuse

theorem EndsInKey.run_refused {p : List Char} {fs : List Record.Field} {key : String}
    (hp : EndsInKey p fs key) (hkey : ∀ f, Record.Field.ofKey? key = some f → f ∈ fs)
    (rest : List Char) :
    ∃ unread, records.run (p ++ rest) = .error ⟨.mismatched (keyMismatch key), unread⟩ ∧
      refusalLength '}' rest + unread = Text.byteLength rest := by
  obtain ⟨first, d, l, k, hl, hk, hd, hrecords⟩ := hp.run_records_error
  obtain ⟨unread, hrefused, hlength⟩ :=
    run_memberRest_refused (fun f hf h => (hd f).mp h (hkey f hf)) rest
  refine ⟨unread, hrecords _ _ ?_, hlength⟩
  rw [run_members_key hl hk, hrefused]

/-! ## Missing fields -/

/-- At its closing brace an object is refused for the first field that it lacks. -/
theorem run_objectRecord_lacking {d : Draft} {f : Record.Field} {text rest : List Char}
    (h : (members true {}).run text = .ok (d, '}' :: rest)) (hf : d.Lacks f)
    (hname : f = .value → ¬ d.Lacks .name) :
    objectRecord.run ('{' :: text) =
      .error ⟨.mismatched (.missingField f), Text.byteLength rest⟩ := by
  rw [objectRecord, run_skip_bind, run_bind, h]
  obtain ⟨n, v⟩ := d
  cases f with
  | name =>
    have hn : n = none := hf
    subst hn
    exact run_refuse_closing (by decide) _ rest
  | value =>
    have hv : v = none := hf
    subst hv
    cases n with
    | none => exact absurd rfl (hname rfl)
    | some s => exact run_refuse_closing (by decide) _ rest

theorem run_objectRecord_missing {cs : List Char} {fs : List Record.Field} {f : Record.Field}
    (h : SpellsEnclosed '{' '}' SpellsField cs fs) (hfs : fs.Nodup) (hf : f ∉ fs)
    (hname : f = .value → .name ∈ fs) (rest : List Char) :
    objectRecord.run (cs ++ rest) =
      .error ⟨.mismatched (.missingField f), Text.byteLength rest⟩ := by
  cases h with
  | @empty w hw =>
    have hmembers := run_members_closing true {} hw rest
    simp only [List.cons_append, List.append_assoc, List.nil_append]
    refine run_objectRecord_lacking hmembers (Draft.lacks_empty f) fun hvalue => ?_
    exact absurd (hname hvalue) List.not_mem_nil
  | @cons w w' m ds f' fs hw hm hs hw' =>
    obtain ⟨r, hm⟩ := hm
    cases hs with
    | nil =>
      have hends := endsNumber_append hw' (endsNumber_cons '}' (by decide) rest)
      have hround := run_members (leads_blank hw) hm (Draft.lacks_empty f') fun _ => hends
      rw [run_members_closing false _ hw'] at hround
      simp only [List.cons_append, List.append_assoc, List.nil_append]
      refine run_objectRecord_lacking hround ?_ fun hvalue hlacks => ?_
      · rw [Draft.lacks_fill_iff]
        exact ⟨(List.ne_of_not_mem_cons hf).symm, Draft.lacks_empty f⟩
      · have hmem := List.mem_singleton.mp (hname hvalue)
        exact (Draft.lacks_fill_iff.mp hlacks).1 hmem.symm
    | @cons w₁ w₂ m' ds f'' fs hw₁ hw₂ hm' hs =>
      -- Two fields and one that is missing would be three.
      cases f <;> cases f' <;> cases f'' <;> simp_all

theorem text_tooShort (n : Nat) : (Mismatch.tooShort n).text =
    "invalid length " ++ toString n ++ ", expected struct Record with 2 elements" := by
  have htext : (Mismatch.tooShort n).text = "invalid length " ++ toString n ++ ", expected " ++
    "struct Record" ++ " with 2 elements" := rfl
  rw [htext, String.append_assoc, String.append_assoc]
  rfl

theorem run_arrayRecord_short {cs : List Char} {ns : List String}
    (h : SpellsEnclosed '[' ']' SpellsString cs ns) (hns : ns.length < 2) (rest : List Char) :
    arrayRecord.run (cs ++ rest) =
      .error ⟨.mismatched (.tooShort ns.length), Text.byteLength rest⟩ := by
  cases h with
  | @empty w hw =>
    simp only [List.cons_append, List.append_assoc, List.nil_append]
    rw [arrayRecord, run_skip_bind, run_bind, run_nextElement_closing true hw]
    exact run_refuse_closing (by decide) _ rest
  | @cons w w' k ds s ns hw hk hs hw' =>
    cases hs with
    | nil =>
      obtain ⟨q, rfl⟩ := hk.head
      have hnext := run_nextElement (leads_blank hw) (c := '"') (by decide) (by decide)
        (q ++ (w' ++ ']' :: rest))
      have hname := run_name blank_nil hk (w' ++ ']' :: rest)
      simp only [List.cons_append, List.append_assoc, List.nil_append] at hname ⊢
      rw [arrayRecord, run_skip_bind, run_bind, hnext]
      simp only [if_true, run_bind, hname, run_nextElement_closing false hw', Bool.false_eq_true,
        if_false]
      exact run_refuse_closing (by decide) _ rest
    | cons =>
      simp only [List.length_cons] at hns
      omega

section

variable {p : List Char}

theorem EndsInObject.run_records_error {fs : List Record.Field} {f : Record.Field}
    (hp : EndsInObject p fs) (hf : f ∉ fs) (hname : f = .value → .name ∈ fs) (rest : List Char) :
    records.run (p ++ rest) = .error ⟨.mismatched (.missingField f), Text.byteLength rest⟩ := by
  cases hp with
  | @closed p cs fs hp h hfs =>
    have hobject := run_objectRecord_missing h hfs hf hname rest
    obtain ⟨behind, rfl⟩ := h.head
    rw [List.cons_append, ← run_record_object] at hobject
    rw [List.append_assoc, List.cons_append]
    exact hp.run_records_error (by decide) (by decide) hobject

theorem EndsInArray.run_records_error {ns : List String} (hp : EndsInArray p ns)
    (hns : ns.length < 2) (rest : List Char) :
    records.run (p ++ rest) = .error ⟨.mismatched (.tooShort ns.length), Text.byteLength rest⟩ := by
  cases hp with
  | @closed p cs ns hp h =>
    have harray := run_arrayRecord_short h hns rest
    obtain ⟨behind, rfl⟩ := h.head
    rw [List.cons_append, ← run_record_array] at harray
    rw [List.append_assoc, List.cons_append]
    exact hp.run_records_error (by decide) (by decide) harray

end

/-! ## Surplus fields -/

theorem EndsInSurplus.run_records_error {p : List Char} (hp : EndsInSurplus p) (rest : List Char) :
    records.run (p ++ rest) =
      .error ⟨.malformed (if (rest.dropWhile Char.isWhitespace).head? = some ']' then
        .trailingComma else .trailingText),
        Text.byteLength (rest.dropWhile Char.isWhitespace) - 1⟩ := by
  cases hp with
  | @comma p w₁ w₂ w₃ w₄ k n s v hp hw₁ hk hw₂ hw₃ hn hw₄ =>
    have hends := endsNumber_append hw₄ (endsNumber_cons ',' (by decide) rest)
    have hvalue := run_value blank_nil hn hends
    obtain ⟨c, ds, rfl, hc⟩ := hn.head
    have harray := run_arrayRecord_value hw₁ hk hw₂ hw₃ hc.not_isWhitespace
      (hc.ne ']' (by decide)) (ds ++ (w₄ ++ ',' :: rest))
    rw [List.nil_append, List.cons_append] at hvalue
    simp only [run_bind, hvalue, run_closeArray_comma hw₄] at harray
    rw [← run_record_array] at harray
    have hrecords := hp.run_records_error (by decide) (by decide) harray
    simpa using hrecords

end RecordText.Json

namespace RecordText

/-! ## Lists of records -/

/-- A list is refused at its first key that is unknown or there for the second time, in whatever way
it is spelled. Of the text behind only the blanks and a brace that comes next are passed over. -/
theorem load_refuses_key {p : String} {fs : List Record.Field} {key : String}
    (hp : Json.EndsInKey p.toList fs key) (s : String) :
    (key ≠ "name" → key ≠ "value" →
      Reports (p ++ s) .mismatched ("unknown field `" ++ key ++ "`, expected `name` or `value`")
        (Text.byteLength p.toList + Json.refusalLength '}' s.toList)) ∧
    ∀ f ∈ fs, key = f.key →
      Reports (p ++ s) .mismatched ("duplicate field `" ++ key ++ "`")
        (Text.byteLength p.toList + Json.refusalLength '}' s.toList) := by
  have hreports : (∀ f, Record.Field.ofKey? key = some f → f ∈ fs) →
      Reports (p ++ s) .mismatched (Json.keyMismatch key).text
        (Text.byteLength p.toList + Json.refusalLength '}' s.toList) := by
    intro hkey
    obtain ⟨unread, hrun, hlength⟩ := hp.run_refused hkey s.toList
    rw [← String.toList_append] at hrun
    refine reports_of_run hrun ?_
    rw [String.toList_append, Text.byteLength_append, Nat.add_assoc, hlength]
  constructor
  · intro hname hvalue
    have hkey : Record.Field.ofKey? key = none := (if_neg hname).trans (if_neg hvalue)
    rw [hkey, Json.keyMismatch, hkey] at hreports
    exact hreports nofun
  · rintro f hf rfl
    rw [Json.ofKey?_key, Json.keyMismatch, Json.ofKey?_key] at hreports
    refine hreports fun f' hf' => ?_
    cases hf'
    exact hf

/-- The second key is spelled with an escape, and only behind it a brace comes next. -/
theorem load_refuses_escaped_key :
    Reports ("[\x7b\"value\":2,\"v\\u0061lue\"" ++ " \x7d!") .mismatched
        "duplicate field `value`" 26 ∧
      Reports ("[\x7b\"size\"" ++ ":") .mismatched
        "unknown field `size`, expected `name` or `value`" 8 := by
  have hlist : Json.AsksForRecord ['['] := .list Json.blank_nil (.nil Json.blank_nil)
  constructor
  · have hfield : Json.SpellsField _ .value := ⟨⟨"", 2⟩, .value
      (Json.spellsString_writeString "value") Json.blank_nil Json.blank_nil
      (Json.spellsInteger_toString 2)⟩
    have hv : Json.SpellsChar ['v'] 'v' := .plain (by decide) (by decide) (by decide)
    have ha : Json.SpellsChar ['\\', 'u', '0', '0', '6', '1'] 'a' :=
      .unit (Json.spellsUnit_hex (by decide : 97 < 0x10000))
    have hkey : Json.SpellsString _ "value" :=
      .quoted (.cons hv (.cons ha (Json.spellsChars_flatMap ['l', 'u', 'e'])))
    have hends : Json.EndsInKey "[\x7b\"value\":2,\"v\\u0061lue\"".toList [.value] "value" :=
      .object hlist (.cons Json.blank_nil hfield Json.blank_nil (.nil Json.blank_nil))
        (by decide) hkey
    exact (load_refuses_key hends " \x7d!").2 .value List.mem_cons_self rfl
  · have hends : Json.EndsInKey "[\x7b\"size\"".toList [] "size" :=
      .object hlist (.nil Json.blank_nil) List.nodup_nil (Json.spellsString_writeString "size")
    exact (load_refuses_key hends ":").1 (by decide) (by decide)

/-- A list is refused behind the first object or array that lacks a field of a record, for the field
that is missing or for the number of elements; and where an array goes on behind both fields, for
what stands behind its comma. -/
theorem load_refuses_fields (p s : String) :
    (∀ fs, Json.EndsInObject p.toList fs →
      (.name ∉ fs → Reports (p ++ s) .mismatched "missing field `name`"
        (Text.byteLength p.toList)) ∧
      (.name ∈ fs → .value ∉ fs → Reports (p ++ s) .mismatched "missing field `value`"
        (Text.byteLength p.toList))) ∧
    (∀ ns, Json.EndsInArray p.toList ns → ns.length < 2 →
      Reports (p ++ s) .mismatched
        ("invalid length " ++ toString ns.length ++ ", expected struct Record with 2 elements")
        (Text.byteLength p.toList)) ∧
    (Json.EndsInSurplus p.toList →
      ((s.toList.dropWhile Char.isWhitespace).head? = some ']' →
        Reports (p ++ s) .malformed "trailing comma" (Text.byteLength p.toList +
          Text.byteLength (s.toList.takeWhile Char.isWhitespace) + 1)) ∧
      ((s.toList.dropWhile Char.isWhitespace).head? ≠ some ']' →
        Reports (p ++ s) .malformed "trailing characters"
          (min (Text.byteLength (p ++ s).toList) (Text.byteLength p.toList +
            Text.byteLength (s.toList.takeWhile Char.isWhitespace) + 1)))) := by
  have hclosed : ∀ {cause : Json.Cause},
      Json.records.run (p.toList ++ s.toList) = .error ⟨cause, Text.byteLength s.toList⟩ →
      Reports (p ++ s) cause.kind cause.text (Text.byteLength p.toList) := by
    intro cause h
    rw [← String.toList_append] at h
    refine reports_of_run h ?_
    rw [String.toList_append, Text.byteLength_append]
  have hlength : Text.byteLength (p ++ s).toList = Text.byteLength p.toList +
      Text.byteLength (s.toList.takeWhile Char.isWhitespace) +
      Text.byteLength (s.toList.dropWhile Char.isWhitespace) := by
    rw [String.toList_append, Text.byteLength_append, ← Json.byteLength_blanks s.toList,
      Nat.add_assoc]
  refine ⟨fun fs hp => ⟨fun hname => ?_, fun hname hvalue => ?_⟩, fun ns hp hns => ?_,
    fun hp => ⟨fun hhead => ?_, fun hhead => ?_⟩⟩
  · exact hclosed (hp.run_records_error hname nofun s.toList)
  · exact hclosed (hp.run_records_error hvalue (fun _ => hname) s.toList)
  · rw [← Json.text_tooShort]
    exact hclosed (hp.run_records_error hns s.toList)
  · have hrun := hp.run_records_error s.toList
    rw [if_pos hhead, ← String.toList_append] at hrun
    refine reports_of_run hrun ?_
    obtain ⟨behind, hbehind⟩ := List.head?_eq_some_iff.mp hhead
    have hbracket : (']' : Char).utf8Size = 1 := rfl
    rw [hlength, hbehind, Text.byteLength_cons, hbracket]
    omega
  · have hrun := hp.run_records_error s.toList
    rw [if_neg hhead, ← String.toList_append] at hrun
    refine reports_of_run hrun ?_
    rw [hlength]
    omega

/-- An object without a name, an array of one string, and an array that is open behind its comma. -/
theorem load_refuses_lacking_fields :
    Reports ("[\x7b\"value\":1\x7d" ++ "!") .mismatched "missing field `name`" 12 ∧
      Reports ("[[\"a\"]" ++ "") .mismatched
        "invalid length 1, expected struct Record with 2 elements" 6 ∧
      Reports ("[[\"a\",1," ++ " ]") .malformed "trailing comma" 10 ∧
      Reports ("[[\"a\",1," ++ "") .malformed "trailing characters" 8 := by
  have hlist : Json.AsksForRecord ['['] := .list Json.blank_nil (.nil Json.blank_nil)
  have hfield : Json.SpellsField _ .value := ⟨⟨"", 1⟩, .value
    (Json.spellsString_writeString "value") Json.blank_nil Json.blank_nil
    (Json.spellsInteger_toString 1)⟩
  have hobject : Json.EndsInObject "[\x7b\"value\":1\x7d".toList [.value] :=
    .closed hlist (.cons Json.blank_nil hfield .nil Json.blank_nil) (by decide)
  have harray : Json.EndsInArray "[[\"a\"]".toList ["a"] :=
    .closed hlist (.cons Json.blank_nil (Json.spellsString_writeString "a") .nil Json.blank_nil)
  have hone : Json.SpellsInteger _ (1 : Int64).toInt := Json.spellsInteger_toString 1
  have hsurplus : Json.EndsInSurplus "[[\"a\",1,".toList :=
    .comma hlist Json.blank_nil (Json.spellsString_writeString "a") Json.blank_nil Json.blank_nil
      hone Json.blank_nil
  refine ⟨?_, ?_, ?_, ?_⟩
  · exact ((load_refuses_fields _ "!").1 _ hobject).1 (by decide)
  · exact (load_refuses_fields _ "").2.1 _ harray (by decide)
  · exact ((load_refuses_fields _ " ]").2.2 hsurplus).1 rfl
  · exact ((load_refuses_fields _ "").2.2 hsurplus).2 (by decide)

end RecordText
