import Mathlib.Algebra.Order.BigOperators.Group.List
import Mathlib.Data.Nat.Cast.Basic
import RecordText.Proofs.Bytes
import RecordText.Proofs.Cutoff
import RecordText.Proofs.LoadingLog
import RecordText.Proofs.Summaries

/-!
# How many bytes summaries take

No character is spelled in fewer bytes than it takes, and an integer is spelled as its decimal and
in no other way. So the literals of a record take at least the bytes of its name and its value, and
the quotes of the name make up for the separator. The brackets of each record, the comma in it and
the one behind it are not needed for its summary: these are four bytes, and the list has a bracket
more than commas.

* `SpellsString.utf8ByteSize_le`, `SpellsInteger.byteLength_eq`: names and values.
* `SpellsRecord.utf8ByteSize_le`: records, in either form.
* `SpellsRecords.summaryBytes_le`: lists of records.
* `loadSummaries_bytes_le`: all summaries of a text together, and the literals that are read.
-/

namespace RecordText

theorem Record.utf8ByteSize_summary (r : Record) :
    r.summary.utf8ByteSize = r.name.utf8ByteSize + 2 + r.decimal.utf8ByteSize := by
  have hseparator : separator.utf8ByteSize = 2 := rfl
  rw [summary, String.utf8ByteSize_append, String.utf8ByteSize_append, hseparator]

namespace Json

/-! ## String literals -/

theorem SpellsUnit.byteLength_eq {u : List Char} {n : Nat} (h : SpellsUnit u n) :
    Text.byteLength u = 4 := by
  cases h with
  | digits ha hb hc hd =>
    simp only [Text.byteLength_cons, Text.byteLength_nil, ha.utf8Size, hb.utf8Size, hc.utf8Size,
      hd.utf8Size]

theorem utf8Size_of_shortEscapes {l c : Char} (h : (l, c) ∈ shortEscapes) : c.utf8Size = 1 := by
  have hall : shortEscapes.all fun e => e.2.utf8Size == 1 := by decide
  exact beq_iff_eq.mp (List.all_eq_true.mp hall _ h)

theorem SpellsChar.utf8Size_le {us : List Char} {c : Char} (h : SpellsChar us c) :
    c.utf8Size ≤ Text.byteLength us := by
  have hbackslash : ('\\' : Char).utf8Size = 1 := rfl
  have hmark : ('u' : Char).utf8Size = 1 := rfl
  cases h with
  | plain => exact Nat.le_refl _
  | letter h =>
    rw [utf8Size_of_shortEscapes h, Text.byteLength_cons]
    omega
  | unit hu =>
    -- A single unit is below the code points that take four bytes.
    have hthree : c.utf8Size ≠ 4 := by
      intro hfour
      have hc : 65535 < c.toNat := Char.utf8Size_eq_four_iff.mp hfour
      have hlt := hu.lt
      omega
    have hfour := c.utf8Size_le_four
    rw [Text.byteLength_cons, Text.byteLength_cons, hu.byteLength_eq]
    omega
  | pair hu hv =>
    have hfour := c.utf8Size_le_four
    simp only [Text.byteLength_cons, Text.byteLength_append, hu.byteLength_eq, hv.byteLength_eq]
    omega

theorem SpellsChars.byteLength_le {us cs : List Char} (h : SpellsChars us cs) :
    Text.byteLength cs ≤ Text.byteLength us := by
  induction h with
  | nil => exact Nat.le_refl 0
  | cons h _ ih =>
    rw [Text.byteLength_cons, Text.byteLength_append]
    exact Nat.add_le_add h.utf8Size_le ih

theorem SpellsString.utf8ByteSize_le {cs : List Char} {s : String} (h : SpellsString cs s) :
    s.utf8ByteSize + 2 ≤ Text.byteLength cs := by
  have hquote : ('"' : Char).utf8Size = 1 := rfl
  cases h with
  | quoted h =>
    have hle := h.byteLength_le
    rw [Text.byteLength_toList] at hle
    simp only [Text.byteLength_cons, Text.byteLength_append, Text.byteLength_nil]
    omega

/-! ## Integers -/

theorem SpellsInteger.byteLength_eq {cs : List Char} {r : Record}
    (h : SpellsInteger cs r.value.toInt) : Text.byteLength cs = r.decimal.utf8ByteSize := by
  rw [h.eq_toString, Text.byteLength_toList, Record.decimal]

/-! ## Records -/

/-- The bytes that a field takes in a summary. -/
def fieldBytes (r : Record) : Record.Field → Nat
  | .name => r.name.utf8ByteSize
  | .value => r.decimal.utf8ByteSize

/-- The key and the colon of a member come on top of its field, and would do for a separator. -/
theorem SpellsMember.fieldBytes_le {cs : List Char} {r : Record} {f : Record.Field}
    (h : SpellsMember r cs f) : fieldBytes r f + 2 ≤ Text.byteLength cs := by
  cases h with
  | name hk hw hw' hv =>
    have hkey := hk.utf8ByteSize_le
    have hname := hv.utf8ByteSize_le
    simp only [Text.byteLength_append, Text.byteLength_cons, fieldBytes]
    omega
  | value hk hw hw' hv =>
    have hkey := hk.utf8ByteSize_le
    have hvalue := hv.byteLength_eq
    simp only [Text.byteLength_append, Text.byteLength_cons, fieldBytes]
    omega

theorem fieldBytes_add {r : Record} {f f' : Record.Field} (hf : f ≠ f') :
    fieldBytes r f + fieldBytes r f' = r.name.utf8ByteSize + r.decimal.utf8ByteSize := by
  match f, f' with
  | .name, .name | .value, .value => exact absurd rfl hf
  | .name, .value => rfl
  | .value, .name => exact Nat.add_comm _ _

theorem SpellsRecord.utf8ByteSize_le {cs : List Char} {r : Record} (h : SpellsRecord cs r) :
    r.summary.utf8ByteSize + 3 ≤ Text.byteLength cs := by
  have hcomma : (',' : Char).utf8Size = 1 := rfl
  rw [r.utf8ByteSize_summary]
  cases h with
  | array hw₁ hs hw₂ hw₃ hn hw₄ =>
    have hopening : ('[' : Char).utf8Size = 1 := rfl
    have hclosing : (']' : Char).utf8Size = 1 := rfl
    have hname := hs.utf8ByteSize_le
    have hvalue := hn.byteLength_eq
    simp only [Text.byteLength_append, Text.byteLength_cons, Text.byteLength_nil]
    omega
  | object hw₁ hm hw₂ hw₃ hm' hw₄ hf =>
    have hopening : ('{' : Char).utf8Size = 1 := rfl
    have hclosing : ('}' : Char).utf8Size = 1 := rfl
    have hfirst := hm.fieldBytes_le
    have hsecond := hm'.fieldBytes_le
    have hboth := fieldBytes_add (r := r) hf
    simp only [Text.byteLength_append, Text.byteLength_cons, Text.byteLength_nil]
    omega

/-! ## Lists of records -/

/-- The bytes of all summaries together. -/
def summaryBytes (rs : List Record) : Nat := ((rs.map Record.summary).map String.utf8ByteSize).sum

theorem summaryBytes_cons (r : Record) (rs : List Record) :
    summaryBytes (r :: rs) = r.summary.utf8ByteSize + summaryBytes rs := by
  rw [summaryBytes, List.map_cons, List.map_cons, List.sum_cons, summaryBytes]

theorem SpellsFurther.summaryBytes_le {cs : List Char} {rs : List Record}
    (h : SpellsFurther SpellsRecord cs rs) :
    summaryBytes rs + 4 * rs.length ≤ Text.byteLength cs := by
  have hcomma : (',' : Char).utf8Size = 1 := rfl
  induction h with
  | nil => exact Nat.le_refl 0
  | cons hw hw' h hs ih =>
    have hrecord := h.utf8ByteSize_le
    simp only [Text.byteLength_append, Text.byteLength_cons, summaryBytes_cons, List.length_cons]
    omega

theorem SpellsRecords.summaryBytes_le {cs : List Char} {rs : List Record} (hrs : rs ≠ [])
    (h : SpellsRecords cs rs) : summaryBytes rs + 4 * rs.length + 1 ≤ Text.byteLength cs := by
  have hopening : ('[' : Char).utf8Size = 1 := rfl
  have hclosing : (']' : Char).utf8Size = 1 := rfl
  cases h with
  | list hw h hw' =>
    cases h with
    | empty => exact absurd rfl hrs
    | cons hw h hs hw' =>
      have hrecord := h.utf8ByteSize_le
      have hfurther := hs.summaryBytes_le
      simp only [Text.byteLength_append, Text.byteLength_cons, Text.byteLength_nil,
        summaryBytes_cons, List.length_cons]
      omega

/-- Not even a record without a name has a shorter summary. -/
theorem three_le_utf8ByteSize_summary (r : Record) : 3 ≤ r.summary.utf8ByteSize := by
  obtain ⟨c, behind, hdecimal, -⟩ := r.spellsInteger_decimal.head
  have hpos := c.utf8Size_pos
  rw [r.utf8ByteSize_summary, ← Text.byteLength_toList r.decimal, hdecimal, Text.byteLength_cons]
  omega

theorem le_summaryBytes (rs : List Record) : 3 * rs.length ≤ summaryBytes rs := by
  have hthree : ∀ n ∈ (rs.map Record.summary).map String.utf8ByteSize, 3 ≤ n := by
    rw [List.map_map, List.forall_mem_map]
    exact fun r _ => three_le_utf8ByteSize_summary r
  have hsum := List.card_nsmul_le_sum _ 3 hthree
  rw [List.length_map, List.length_map, nsmul_eq_mul, Nat.cast_id] at hsum
  rw [Nat.mul_comm, summaryBytes]
  exact hsum

end Json

/-! ## Whole texts -/

/-- All summaries of a text together, with four bytes more for each and one for the list, take no
more bytes than the text, so that a record takes at least seven. A name takes fewer bytes than the
literal it is read from, by the quotes at least; a value is read from its decimal and nothing else. -/
theorem loadSummaries_bytes_le :
    (∀ (text : String) (lines : List String), (loadSummaries text).run.value = .ok lines →
      lines ≠ [] →
      (lines.map String.utf8ByteSize).sum + 4 * lines.length + 1 ≤ text.utf8ByteSize ∧
      lines.length ≤ (text.utf8ByteSize - 1) / 7) ∧
    (∀ (text rest : List Char) (s : String), Json.name.run text = .ok (s, rest) →
      ∃ w literal, text = w ++ (literal ++ rest) ∧ Json.Blank w ∧ Json.SpellsString literal s ∧
        s.utf8ByteSize + 2 ≤ Text.byteLength literal) ∧
    ∀ (text rest : List Char) (v : Int64), Json.value.run text = .ok (v, rest) →
      ∃ w literal, text = w ++ (literal ++ rest) ∧ Json.Blank w ∧
        literal = (toString v.toInt).toList ∧
        (toString v.toInt).utf8ByteSize = Text.byteLength literal := by
  refine ⟨fun text lines h hlines => ?_, fun text rest s h => ?_, fun text rest v h => ?_⟩
  · obtain ⟨rs, hspells, rfl⟩ := loadSummaries_eq_ok_iff.mp h
    have hrs : rs ≠ [] := mt List.map_eq_nil_iff.mpr hlines
    have hsum := hspells.summaryBytes_le hrs
    have hthree := Json.le_summaryBytes rs
    rw [Text.byteLength_toList] at hsum
    rw [List.length_map, ← Json.summaryBytes]
    omega
  · obtain ⟨w, literal, hw, hliteral, htext⟩ := Json.name_ok h
    exact ⟨w, literal, htext, hw, hliteral, hliteral.utf8ByteSize_le⟩
  · obtain ⟨w, literal, hw, hliteral, -, htext⟩ := Json.value_ok h
    refine ⟨w, literal, htext, hw, hliteral.eq_toString, ?_⟩
    rw [hliteral.eq_toString, Text.byteLength_toList]

/-- Arrays without blanks leave no byte over. An escaped name takes fewer bytes than its literal. -/
theorem loadSummaries_bytes_of_arrays :
    ((loadSummaries "[[\"é\",-7],[\"\",0]]").run.value = .ok ["é: -7", ": 0"] ∧
      "[[\"é\",-7],[\"\",0]]".utf8ByteSize = 18 ∧
      (["é: -7", ": 0"].map String.utf8ByteSize).sum + 4 * 2 + 1 ≤ 18 ∧ 2 ≤ (18 - 1) / 7) ∧
    (Json.name.run "\"\\u00e9\",".toList = .ok ("é", [',']) ∧
      ∃ w literal, "\"\\u00e9\",".toList = w ++ (literal ++ [',']) ∧ Json.Blank w ∧
        Json.SpellsString literal "é" ∧ "é".utf8ByteSize + 2 ≤ Text.byteLength literal) ∧
    Json.value.run " -7]".toList = .ok (-7, [']']) ∧
      ∃ w literal, " -7]".toList = w ++ (literal ++ [']']) ∧ Json.Blank w ∧
        literal = (toString (-7 : Int64).toInt).toList ∧
        (toString (-7 : Int64).toInt).utf8ByteSize = Text.byteLength literal := by
  obtain ⟨hbytes, hname, hvalue⟩ := loadSummaries_bytes_le
  have harray : ∀ (s : String) (v : Int64), Json.SpellsRecord _ ⟨s, v⟩ := fun s v =>
    .array Json.blank_nil (Json.spellsString_writeString s) Json.blank_nil Json.blank_nil
      (Json.spellsInteger_toString v.toInt) Json.blank_nil
  have hspells : Json.SpellsRecords _ [⟨"é", -7⟩, ⟨"", 0⟩] := .list Json.blank_nil
    (.cons Json.blank_nil (harray "é" (-7))
      (.cons Json.blank_nil Json.blank_nil (harray "" 0) .nil) Json.blank_nil) Json.blank_nil
  have hload : (loadSummaries "[[\"é\",-7],[\"\",0]]").run.value = .ok ["é: -7", ": 0"] :=
    loadSummaries_eq_ok_iff.mpr ⟨_, hspells, rfl⟩
  refine ⟨⟨hload, by decide, hbytes _ _ hload (by simp)⟩, ?_, ?_⟩
  · have hu : Json.SpellsUnit _ ('é').toNat := Json.spellsUnit_hex (by decide)
    have hliteral : Json.SpellsString _ "é" := .quoted (.cons (.unit hu) .nil)
    have hrun : Json.name.run "\"\\u00e9\",".toList = .ok ("é", [',']) :=
      Json.run_name Json.blank_nil hliteral [',']
    exact ⟨hrun, hname _ _ _ hrun⟩
  · have hb : Json.EndsNumber [']'] := Json.endsNumber_cons ']' (by decide) []
    have hw : Json.Blank [' '] := by simp
    have hrun : Json.value.run " -7]".toList = .ok (-7, [']']) :=
      Json.run_value hw (Json.spellsInteger_toString (-7 : Int64).toInt) hb
    exact ⟨hrun, hvalue _ _ _ hrun⟩

end RecordText
