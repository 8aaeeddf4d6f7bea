import RecordText.Proofs.LoadingLog
import RecordText.Proofs.Summaries
import RecordText.Record.Inspect

/-!
# Quoted text is faithful and stays on its line

Between quotes every character is written in its own way, and the ways do not begin alike. So a
quoted text can be read back, also when more text follows: it ends at its first quote that is not
escaped. This does not depend on which characters are shown as they are. Those that may break a line
are never shown, and so what is written of a record keeps the lines of its template.

* `decode`, `decode_encode`: reading back.
* `quoteIndex?`, `quoteIndex?_encode`: where a quoted text ends.
* `breaksLine`, `lineBreaks_quoted`: what is never shown.
* `inspect_inj`, `inspectBlock_inj`: no two records are written alike.
* `inspection_faithful`: what is written of records, and what is logged.
-/

namespace RecordText.Text.Quoted

/-! ## Reading back -/

/-- The character that a letter behind a backslash stands for. -/
def ofLetter? : Char → Option Char
  | '0' => some '\x00'
  | 't' => some '\t'
  | 'n' => some '\n'
  | 'r' => some '\r'
  | '"' => some '"'
  | '\\' => some '\\'
  | _ => none

/-- How much of an escape has been read. -/
inductive Stage
  | plain
  | backslash
  | mark
  | digits (codePoint : Nat)

/-- What the characters up to the closing quote stand for, and the text behind it. -/
def decodeRest : Stage → List Char → Option (List Char × List Char)
  | _, [] => none
  | .plain, c :: text =>
    if c = '"' then some ([], text)
    else if c = '\\' then decodeRest .backslash text
    else (decodeRest .plain text).map fun p => (c :: p.1, p.2)
  | .backslash, l :: text =>
    if l = 'u' then decodeRest .mark text
    else (ofLetter? l).bind fun c => (decodeRest .plain text).map fun p => (c :: p.1, p.2)
  | .mark, c :: text => if c = '{' then decodeRest (.digits 0) text else none
  | .digits n, c :: text =>
    if c = '}' then (decodeRest .plain text).map fun p => (Char.ofNat n :: p.1, p.2)
    else (Json.Escape.hexDigit? c).bind fun d => decodeRest (.digits (n * 16 + d)) text

/-- What a quoted text stands for, and the text behind it. -/
def decode : List Char → Option (List Char × List Char)
  | '"' :: text => decodeRest .plain text
  | _ => none

theorem ofLetter?_letter? {c l : Char} (h : letter? c = some l) :
    ofLetter? l = some c ∧ l ≠ 'u' := by
  unfold letter? at h
  split at h <;> cases h <;> exact ⟨rfl, by decide⟩

theorem ne_of_letter?_eq_none {c : Char} (h : letter? c = none) : c ≠ '"' ∧ c ≠ '\\' := by
  constructor
  all_goals
    rintro rfl
    cases h

theorem hexDigit?_digitChar : ∀ n < 16,
    Json.Escape.hexDigit? (Nat.digitChar n) = some n ∧ Nat.digitChar n ≠ '}' := by
  decide

theorem decodeRest_digitChar {n d : Nat} (hd : d < 16) (text : List Char) :
    decodeRest (.digits n) (Nat.digitChar d :: text) = decodeRest (.digits (n * 16 + d)) text := by
  obtain ⟨hhex, hbrace⟩ := hexDigit?_digitChar d hd
  rw [decodeRest, if_neg hbrace, hhex, Option.bind_some]

theorem decodeRest_toDigits (n : Nat) (text : List Char) :
    decodeRest (.digits 0) (Nat.toDigits 16 n ++ text) = decodeRest (.digits n) text := by
  induction n using Nat.strongRecOn generalizing text with
  | ind n ih =>
    by_cases hn : n < 16
    · rw [Nat.toDigits_of_lt_base hn, List.singleton_append, decodeRest_digitChar hn, Nat.zero_mul,
        Nat.zero_add]
    · rw [Nat.toDigits_of_base_le (by decide) (by omega), List.append_assoc, ih _ (by omega),
        List.singleton_append, decodeRest_digitChar (Nat.mod_lt n (by decide)), Nat.div_add_mod']

variable (visible : Char → Bool)

theorem decodeRest_encodeChar (c : Char) (text : List Char) :
    decodeRest .plain (encodeChar visible c ++ text) =
      (decodeRest .plain text).map fun p => (c :: p.1, p.2) := by
  unfold encodeChar
  split
  · rename_i l hl
    obtain ⟨hc, hu⟩ := ofLetter?_letter? hl
    simp [decodeRest, hc, hu]
  · rename_i hl
    obtain ⟨hquote, hbackslash⟩ := ne_of_letter?_eq_none hl
    split
    · simp [decodeRest, hquote, hbackslash]
    · have hdigits := decodeRest_toDigits c.toNat ('}' :: text)
      simp [decodeRest, codePoint, hdigits]

theorem decode_encode (cs rest : List Char) :
    decode (encode visible cs ++ rest) = some (cs, rest) := by
  have hbody : ∀ cs : List Char, decodeRest .plain
      (cs.flatMap (encodeChar visible) ++ '"' :: rest) = some (cs, rest) := by
    intro cs
    induction cs with
    | nil => rfl
    | cons c cs ih =>
      rw [List.flatMap_cons, List.append_assoc, decodeRest_encodeChar, ih]
      rfl
  rw [encode, List.cons_append, List.cons_append, List.append_assoc, decode]
  exact hbody cs

/-! ## Where a quoted text ends -/

/-- How many characters stand in front of the first quote that is not behind a backslash. -/
def quoteIndex? : List Char → Option Nat
  | [] => none
  | '\\' :: _ :: text => (quoteIndex? text).map (· + 2)
  | c :: text => if c = '"' then some 0 else (quoteIndex? text).map (· + 1)

theorem quoteIndex?_cons {c : Char} (hquote : c ≠ '"') (hbackslash : c ≠ '\\')
    (text : List Char) : quoteIndex? (c :: text) = (quoteIndex? text).map (· + 1) := by
  rw [quoteIndex?, if_neg hquote]
  rintro _ _ rfl
  exact absurd rfl hbackslash

theorem quoteIndex?_append {cs : List Char} (h : ∀ c ∈ cs, c ≠ '"' ∧ c ≠ '\\')
    (text : List Char) : quoteIndex? (cs ++ text) = (quoteIndex? text).map (· + cs.length) := by
  induction cs with
  | nil => simp
  | cons c cs ih =>
    obtain ⟨⟨hquote, hbackslash⟩, hcs⟩ := List.forall_mem_cons.mp h
    simp only [List.cons_append, quoteIndex?_cons hquote hbackslash, ih hcs, Option.map_map,
      Function.comp_def, List.length_cons, Nat.add_assoc]

theorem exists_of_mem_toDigits {n : Nat} {c : Char} (h : c ∈ Nat.toDigits 16 n) :
    ∃ d < 16, c = Nat.digitChar d := by
  induction n using Nat.strongRecOn with
  | ind n ih =>
    by_cases hn : n < 16
    · rw [Nat.toDigits_of_lt_base hn, List.mem_singleton] at h
      exact ⟨n, hn, h⟩
    · rw [Nat.toDigits_of_base_le (by decide) (by omega), List.mem_append, List.mem_singleton] at h
      rcases h with h | h
      · exact ih _ (by omega) h
      · exact ⟨n % 16, Nat.mod_lt n (by decide), h⟩

theorem quoteIndex?_encodeChar (c : Char) (text : List Char) :
    quoteIndex? (encodeChar visible c ++ text) =
      (quoteIndex? text).map (· + (encodeChar visible c).length) := by
  unfold encodeChar
  split
  · rfl
  · rename_i hl
    obtain ⟨hquote, hbackslash⟩ := ne_of_letter?_eq_none hl
    split
    · exact quoteIndex?_cons hquote hbackslash text
    · have hdigit : ∀ d < 16, Nat.digitChar d ≠ '"' ∧ Nat.digitChar d ≠ '\\' := by decide
      have hbraces : ∀ d ∈ '{' :: (codePoint c ++ ['}']), d ≠ '"' ∧ d ≠ '\\' := by
        intro d hd
        rcases List.mem_cons.mp hd with rfl | hd
        · decide
        rcases List.mem_append.mp hd with hd | hd
        · obtain ⟨n, hn, rfl⟩ := exists_of_mem_toDigits hd
          exact hdigit n hn
        · rw [List.mem_singleton.mp hd]
          decide
      have hindex := quoteIndex?_append hbraces text
      simp only [List.append_assoc, List.cons_append, List.nil_append] at hindex ⊢
      rw [quoteIndex?, hindex, Option.map_map]
      rfl

/-- The quote behind the characters of a quoted text is the first one that is not escaped. -/
theorem quoteIndex?_encode (cs rest : List Char) :
    quoteIndex? (cs.flatMap (encodeChar visible) ++ '"' :: rest) =
      some (cs.flatMap (encodeChar visible)).length := by
  induction cs with
  | nil => rfl
  | cons c cs ih =>
    rw [List.flatMap_cons, List.append_assoc, quoteIndex?_encodeChar, ih, Option.map_some,
      List.length_append, Nat.add_comm]

end Quoted

/-! ## What is never shown -/

/-- The control characters of ASCII and the characters that separate lines. -/
def breaksLine (c : Char) : Bool := c.toNat < 0x20 || c.toNat ∈ [0x7F, 0x85, 0x2028, 0x2029]

/-- The characters of a text that may break its line. -/
def lineBreaks (s : String) : List Char := s.toList.filter breaksLine

theorem lineBreaks_append (s t : String) : lineBreaks (s ++ t) = lineBreaks s ++ lineBreaks t := by
  rw [lineBreaks, String.toList_append, List.filter_append]
  rfl

theorem lineBreaks_eq_nil_iff {s : String} :
    lineBreaks s = [] ↔ ∀ c ∈ s.toList, breaksLine c = false := by
  simp [lineBreaks]

theorem not_isPrintable {c : Char} (h : breaksLine c = true) : isPrintable c = false := by
  have hlow : ∀ n < 0x20, covers unprintable n = true := by decide
  have hother : ∀ n ∈ [0x7F, 0x85, 0x2028, 0x2029], covers unprintable n = true := by
    decide +kernel
  rw [breaksLine, Bool.or_eq_true, decide_eq_true_eq, decide_eq_true_eq] at h
  have hcovers : covers unprintable c.toNat = true := by
    rcases h with h | h
    · exact hlow _ h
    · exact hother _ h
  rw [isPrintable, hcovers]
  rfl

theorem breaksLine_encodeChar {c d : Char} (hd : d ∈ Quoted.encodeChar isPrintable c) :
    breaksLine d = false := by
  have hletter : ∀ {c l}, Quoted.letter? c = some l → breaksLine l = false := by
    intro c l h
    unfold Quoted.letter? at h
    split at h <;> cases h <;> decide
  have hdigit : ∀ n < 16, breaksLine (Nat.digitChar n) = false := by decide
  unfold Quoted.encodeChar at hd
  split at hd
  · rename_i l hl
    rcases List.mem_cons.mp hd with rfl | hd
    · decide
    · rw [List.mem_singleton.mp hd]
      exact hletter hl
  · split at hd
    · rename_i hc
      rw [List.mem_singleton.mp hd, ← Bool.not_eq_true]
      intro hbreaks
      rw [not_isPrintable hbreaks] at hc
      cases hc
    · rcases List.mem_append.mp hd with hd | hd
      · rcases List.mem_append.mp hd with hd | hd
        · simp only [List.mem_cons, List.not_mem_nil, or_false] at hd
          rcases hd with rfl | rfl | rfl <;> decide
        · obtain ⟨n, hn, rfl⟩ := Quoted.exists_of_mem_toDigits hd
          exact hdigit n hn
      · rw [List.mem_singleton.mp hd]
        decide

theorem lineBreaks_quoted (s : String) : lineBreaks (quoted s) = [] := by
  rw [lineBreaks_eq_nil_iff, quoted, String.toList_ofList]
  have hquote : breaksLine '"' = false := by decide
  intro c hc
  rcases List.mem_append.mp hc with hc | hc
  · rcases List.mem_cons.mp hc with rfl | hc
    · exact hquote
    · obtain ⟨d, -, hd⟩ := List.mem_flatMap.mp hc
      exact breaksLine_encodeChar hd
  · rw [List.mem_singleton.mp hc]
    exact hquote

theorem quoted_append_inj {s s' t t' : String} :
    quoted s ++ t = quoted s' ++ t' ↔ s = s' ∧ t = t' := by
  constructor
  · intro h
    have hdecode := congrArg (fun u : String => Quoted.decode u.toList) h
    simp only [quoted, String.toList_append, String.toList_ofList, Quoted.decode_encode,
      Option.some.injEq, Prod.mk.injEq, String.toList_inj] at hdecode
    exact hdecode
  · rintro ⟨rfl, rfl⟩
    rfl

theorem quoted_inj {s s' : String} : quoted s = quoted s' ↔ s = s' := by
  have hinj : quoted s ++ "" = quoted s' ++ "" ↔ s = s' ∧ "" = "" := quoted_append_inj
  rwa [String.append_empty, String.append_empty, and_iff_left rfl] at hinj

end RecordText.Text

namespace RecordText.Record

/-! ## Records -/

theorem lineBreaks_decimal (r : Record) : Text.lineBreaks r.decimal = [] := by
  rw [Text.lineBreaks_eq_nil_iff]
  intro c hc
  rcases beginsNumber_of_mem_decimal hc with rfl | hdigit
  · decide
  · have hrange : 48 ≤ c.toNat ∧ c.toNat ≤ 57 := Char.isDigit_iff_toNat.mp hdigit
    simp [Text.breaksLine]
    omega

/-- Whatever stands around them, a quoted name and a decimal tell the record. -/
theorem quoted_decimal_inj {a b : Record} (opening middle closing : String) :
    opening ++ Text.quoted a.name ++ middle ++ a.decimal ++ closing =
      opening ++ Text.quoted b.name ++ middle ++ b.decimal ++ closing ↔ a = b := by
  simp only [String.append_assoc]
  rw [String.append_right_inj, Text.quoted_append_inj, String.append_right_inj,
    String.append_left_inj, decimal_inj]
  cases a
  cases b
  rw [mk.injEq]

theorem inspect_inj {a b : Record} : a.inspect = b.inspect ↔ a = b :=
  quoted_decimal_inj _ _ _

theorem inspectBlock_inj {a b : Record} : a.inspectBlock = b.inspectBlock ↔ a = b :=
  quoted_decimal_inj _ _ _

/-- What a template is filled with breaks none of its lines. -/
theorem lineBreaks_filled (r : Record) {opening middle closing : String} {cs ds es : List Char}
    (hopening : Text.lineBreaks opening = cs) (hmiddle : Text.lineBreaks middle = ds)
    (hclosing : Text.lineBreaks closing = es) :
    Text.lineBreaks (opening ++ Text.quoted r.name ++ middle ++ r.decimal ++ closing) =
      cs ++ ds ++ es := by
  rw [Text.lineBreaks_append, Text.lineBreaks_append, Text.lineBreaks_append,
    Text.lineBreaks_append, hopening, Text.lineBreaks_quoted, hmiddle, lineBreaks_decimal, hclosing,
    List.append_nil, List.append_nil]

theorem lineBreaks_inspect (r : Record) : Text.lineBreaks r.inspect = [] := by
  have hopening : Text.lineBreaks "Record \x7b name: " = [] := by decide
  have hmiddle : Text.lineBreaks ", value: " = [] := by decide
  have hclosing : Text.lineBreaks " \x7d" = [] := by decide
  exact lineBreaks_filled r hopening hmiddle hclosing

theorem lineBreaks_inspectBlock (r : Record) :
    Text.lineBreaks r.inspectBlock = ['\n', '\n', '\n'] := by
  have hopening : Text.lineBreaks "Record \x7b\n    name: " = ['\n'] := by decide
  have hmiddle : Text.lineBreaks ",\n    value: " = ['\n'] := by decide
  have hclosing : Text.lineBreaks ",\n\x7d" = ['\n'] := by decide
  exact lineBreaks_filled r hopening hmiddle hclosing

/-! ## What is logged of a record -/

theorem lines_summarize (r : Record) :
    (summarize r).lines = ["TRACE Describing record " ++ Text.quoted r.name] := by
  rw [← Event.line_summarizing]
  rfl

theorem lines_summarize_inj {a b : Record} :
    (summarize a).lines = (summarize b).lines ↔ a.name = b.name := by
  rw [lines_summarize, lines_summarize, List.cons.injEq, and_iff_left rfl, String.append_right_inj,
    Text.quoted_inj]

/-- A quoted text is read back as what it stands for, and ends at its first quote that is not
escaped, whichever characters are shown. So no two records are written alike, on one line or as a
block, and the line that is logged of a record tells its name. No name breaks any of these lines:
all that breaks a block are its three line feeds. -/
theorem inspection_faithful :
    (∀ (visible : Char → Bool) (cs rest : List Char),
      Text.Quoted.decode (Text.Quoted.encode visible cs ++ rest) = some (cs, rest) ∧
        ∃ body, Text.Quoted.encode visible cs = '"' :: (body ++ ['"']) ∧
          Text.Quoted.quoteIndex? (body ++ '"' :: rest) = some body.length) ∧
    (∀ a b : Record, (a == b ↔ a.inspect = b.inspect) ∧ (a == b ↔ a.inspectBlock = b.inspectBlock) ∧
      ((summarize a).lines = (summarize b).lines ↔ a.name = b.name)) ∧
    (∀ s : String, Text.lineBreaks (Text.quoted s) = []) ∧
    ∀ r : Record, Text.lineBreaks r.inspect = [] ∧
      (summarize r).lines.map Text.lineBreaks = [[]] ∧
      Text.lineBreaks r.inspectBlock = ['\n', '\n', '\n'] := by
  refine ⟨fun visible cs rest => ⟨Text.Quoted.decode_encode visible cs rest, ?_⟩,
    fun a b => ⟨?_, ?_, lines_summarize_inj⟩, Text.lineBreaks_quoted,
    fun r => ⟨lineBreaks_inspect r, ?_, lineBreaks_inspectBlock r⟩⟩
  · exact ⟨_, rfl, Text.Quoted.quoteIndex?_encode visible cs rest⟩
  · rw [beq_iff_eq, inspect_inj]
  · rw [beq_iff_eq, inspectBlock_inj]
  · have htrace : Text.lineBreaks "TRACE Describing record " = [] := by decide
    rw [lines_summarize, List.map_singleton, Text.lineBreaks_append, htrace,
      Text.lineBreaks_quoted, List.nil_append]

end RecordText.Record
