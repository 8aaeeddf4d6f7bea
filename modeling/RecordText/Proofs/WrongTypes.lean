import RecordText.Proofs.Continuations

/-!
# Values of another type than is asked for

Wherever a value is asked for, one of another type is reported with what it is and what should be
there. A scalar is read to its end and refused there, an array or object in front of its bracket; no
text behind it is looked at, so that nothing in it changes the report.

* `SpellsFound`: the values, each with what it is called.
* `failsFor_found`: what is refused where this is asked for.
* `load_refuses_wrongType`: the four types that are asked for in a list of records.
-/

namespace RecordText.Json

open Reader

/-! ## Values -/

/-- What is found of a value in front of a text, and what it is called. Of a scalar the whole text
is passed over, of an array or object none. -/
inductive SpellsFound : List Char → List Char → Found → String → Prop
  | null (rest : List Char) : SpellsFound ['n', 'u', 'l', 'l'] rest .null "null"
  | true (rest : List Char) :
      SpellsFound ['t', 'r', 'u', 'e'] rest (.boolean true) "boolean `true`"
  | false (rest : List Char) :
      SpellsFound ['f', 'a', 'l', 's', 'e'] rest (.boolean false) "boolean `false`"
  | string {v : List Char} {s : String} (h : SpellsString v s) (rest : List Char) :
      SpellsFound v rest (.string s) ("string " ++ Text.quoted s)
  /-- An integer of 64 bits, with or without sign. -/
  | integer {v rest : List Char} {n : Int} (h : SpellsInteger v n)
      (hlo : Int64.minValue.toInt ≤ n) (hhi : n < UInt64.size) (hr : EndsNumber rest) :
      SpellsFound v rest (.integer n) ("integer `" ++ toString n ++ "`")
  | list (rest : List Char) : SpellsFound [] ('[' :: rest) .list "sequence"
  | object (rest : List Char) : SpellsFound [] ('{' :: rest) .object "map"

variable {v rest : List Char} {f : Found} {called : String}

theorem SpellsFound.text_eq (h : SpellsFound v rest f called) : f.text = called := by
  cases h <;> rfl

theorem SpellsFound.head (h : SpellsFound v rest f called) :
    ∃ c behind, v ++ rest = c :: behind ∧ ¬ c.isWhitespace ∧ c ≠ ']' := by
  cases h with
  | null | true | false | list | object => exact ⟨_, _, rfl, by decide, by decide⟩
  | string h =>
    obtain ⟨behind, rfl⟩ := h.head
    exact ⟨_, _, rfl, by decide, by decide⟩
  | integer h =>
    obtain ⟨c, behind, rfl, hc⟩ := h.head
    exact ⟨c, _, rfl, hc.not_isWhitespace, hc.ne ']' (by decide)⟩

theorem SpellsFound.run_found (h : SpellsFound v rest f called) :
    found.run (v ++ rest) = .ok (f, rest) := by
  cases h with
  | null => exact run_found_null rest
  | true => exact run_found_true rest
  | false => exact run_found_false rest
  | string h => exact run_found_string h rest
  | integer h hlo hhi hr =>
    have hlimit : Number.significandLimit = UInt64.size - 1 := rfl
    exact run_found_integer h hlo (by omega) hr
  | list => exact run_found_list _
  | object => exact run_found_object _

/-! ## Refusals -/

/-- Whether what is found has the type that is asked for. -/
def Expected.accepts : Expected → Found → Bool
  | .records, .list => true
  | .record, .list | .record, .object => true
  | .name, .string _ => true
  | .value, .integer _ => true
  | _, _ => false

theorem failsFor_found {e : Expected} {text : List Char} (h : found.run text = .ok (f, rest))
    (hf : e.accepts f = false) :
    FailsFor e text ⟨.mismatched (.wrongType f e), Text.byteLength rest⟩ := by
  cases e with
  | records =>
    rw [FailsFor, records, run_bind, h]
    cases f with
    | list => cases hf
    | _ => rfl
  | record =>
    rw [FailsFor, record, run_bind, h]
    cases f with
    | list | object => cases hf
    | _ => rfl
  | name =>
    rw [FailsFor, name, run_bind, h]
    cases f with
    | string => cases hf
    | _ => rfl
  | value =>
    rw [FailsFor, value, run_bind, h]
    cases f with
    | integer => cases hf
    | _ => rfl

theorem AsksFor.run_records_wrongType {p : List Char} {e : Expected} (hp : AsksFor p e)
    (hv : SpellsFound v rest f called) (hf : e.accepts f = false) :
    records.run (p ++ (v ++ rest)) =
      .error ⟨.mismatched (.wrongType f e), Text.byteLength rest⟩ := by
  have hfails := failsFor_found hv.run_found hf
  obtain ⟨c, behind, htext, hc, hb⟩ := hv.head
  rw [htext] at hfails ⊢
  exact hp.run_records_error hc hb hfails

end RecordText.Json

namespace RecordText

/-! ## Lists of records -/

theorem reports_wrongType {p v s called ending : String} {e : Json.Expected} {f : Json.Found}
    (hp : Json.AsksFor p.toList e) (hv : Json.SpellsFound v.toList s.toList f called)
    (hf : e.accepts f = false) (he : ", expected " ++ e.text = ending) :
    Reports (p ++ v ++ s) .mismatched ("invalid type: " ++ called ++ ending)
      (Text.byteLength (p ++ v).toList) := by
  have hrun := hp.run_records_wrongType hv hf
  rw [← List.append_assoc, ← String.toList_append] at hrun
  have htext : (Json.Cause.mismatched (.wrongType f e)).text =
      "invalid type: " ++ called ++ ending := by
    rw [← hv.text_eq, ← he, ← String.append_assoc]
    rfl
  rw [← htext]
  exact reports_behind hrun

/-- A value of another type than is asked for is reported as what it is, whatever stands behind it:
in the place of the list, of a record in it, and of the name and value of a record in either
form. -/
theorem load_refuses_wrongType {p v s called : String} {f : Json.Found}
    (hv : Json.SpellsFound v.toList s.toList f called) :
    (Json.AsksFor p.toList .records → f ≠ .list →
      Reports (p ++ v ++ s) .mismatched ("invalid type: " ++ called ++ ", expected a sequence")
        (Text.byteLength (p ++ v).toList)) ∧
    (Json.AsksFor p.toList .record → f ≠ .list → f ≠ .object →
      Reports (p ++ v ++ s) .mismatched ("invalid type: " ++ called ++ ", expected struct Record")
        (Text.byteLength (p ++ v).toList)) ∧
    (Json.AsksFor p.toList .name → (∀ t, f ≠ .string t) →
      Reports (p ++ v ++ s) .mismatched ("invalid type: " ++ called ++ ", expected a string")
        (Text.byteLength (p ++ v).toList)) ∧
    (Json.AsksFor p.toList .value → (∀ n, f ≠ .integer n) →
      Reports (p ++ v ++ s) .mismatched ("invalid type: " ++ called ++ ", expected i64")
        (Text.byteLength (p ++ v).toList)) := by
  refine ⟨fun hp hlist => reports_wrongType hp hv ?_ rfl,
    fun hp hlist hobject => reports_wrongType hp hv ?_ rfl,
    fun hp hstring => reports_wrongType hp hv ?_ rfl,
    fun hp hinteger => reports_wrongType hp hv ?_ rfl⟩
  · cases f with
    | list => exact absurd rfl hlist
    | _ => rfl
  · cases f with
    | list => exact absurd rfl hlist
    | object => exact absurd rfl hobject
    | _ => rfl
  · cases f with
    | string t => exact absurd rfl (hstring t)
    | _ => rfl
  · cases f with
    | integer n => exact absurd rfl (hinteger n)
    | _ => rfl

/-- One value for each type that is asked for. The last one stands behind its key, and a record is
in front of it. -/
theorem load_refuses_each_type :
    Reports (" " ++ "" ++ "\x7b") .mismatched "invalid type: map, expected a sequence" 1 ∧
      Reports ("[" ++ "true" ++ "e") .mismatched
        "invalid type: boolean `true`, expected struct Record" 5 ∧
      Reports ("[[" ++ "7" ++ "") .mismatched "invalid type: integer `7`, expected a string" 3 ∧
      Reports ("[[\"a\",1],\x7b\"value\":" ++ "\"\\t\"" ++ "]") .mismatched
        "invalid type: string \"\\t\", expected i64" 22 := by
  have hlist : Json.AsksForRecord ['['] := .list Json.blank_nil (.nil Json.blank_nil)
  refine ⟨?_, ?_, ?_, ?_⟩
  · have hp : Json.AsksFor " ".toList .records := .list (by simp [Char.isWhitespace])
    have hbrace : Json.SpellsFound "".toList "\x7b".toList .object "map" := .object []
    exact (load_refuses_wrongType hbrace).1 hp (by decide)
  · have hp : Json.AsksFor "[".toList .record := .element hlist
    have htrue : Json.SpellsFound "true".toList "e".toList (.boolean true) "boolean `true`" :=
      .true ['e']
    exact (load_refuses_wrongType htrue).2.1 hp (by decide) (by decide)
  · have hp : Json.AsksFor "[[".toList .name := .first hlist Json.blank_nil
    have hseven : Json.SpellsFound "7".toList "".toList (.integer 7) "integer `7`" :=
      .integer (Json.spellsInteger_toString 7) (by decide) (by decide) Json.endsNumber_nil
    exact (load_refuses_wrongType hseven).2.2.1 hp nofun
  · have hone : Json.SpellsInteger _ (1 : Int64).toInt := Json.spellsInteger_toString 1
    have hrecord : Json.SpellsRecord _ ⟨"a", 1⟩ := .array Json.blank_nil
      (Json.spellsString_writeString "a") Json.blank_nil Json.blank_nil hone Json.blank_nil
    have hbehind : Json.AsksForRecord _ := .list Json.blank_nil
      (.cons Json.blank_nil hrecord Json.blank_nil (.nil Json.blank_nil))
    have hkey : Json.EndsInKey _ [] Record.Field.value.key := .object hbehind
      (.nil Json.blank_nil) List.nodup_nil (Json.spellsString_writeString "value")
    have hp : Json.AsksFor "[[\"a\",1],\x7b\"value\":".toList (.ofField .value) :=
      .member hkey List.not_mem_nil Json.blank_nil Json.blank_nil
    have htab : Json.SpellsFound "\"\\t\"".toList "]".toList (.string "\t")
        ("string " ++ Text.quoted "\t") := .string (Json.spellsString_writeString "\t") [']']
    exact (load_refuses_wrongType htab).2.2.2 hp nofun

end RecordText
