import RecordText.Proofs.Continuations
import RecordText.Proofs.Fields

/-!
# Runs of escaped code units

A character of a string literal may be escaped by its UTF-16 code units. So a run of such escapes
is read exactly if its units are UTF-16, and as the characters that they encode. Otherwise some half
of a surrogate pair stands alone, and at the earliest of these the literal is refused, and the list
with it.

* `utf16`, `Unpaired`, `utf16_or_unpaired`: sequences of code units, and where they break.
* `SpellsUnits.spellsChars`: escapes that spell UTF-16 spell its characters.
* `run_stringRest_low`, `run_stringRest_high`, `run_stringRest_last`: the three ways to break.
* `AsksForString`: a name or a key is asked for.
* `load_code_units`: lists of records.
-/

namespace RecordText.Text

/-! ## UTF-16 -/

/-- The first half of a surrogate pair. -/
def HighHalf (unit : Nat) : Prop := 0xD800 ≤ unit ∧ unit ≤ 0xDBFF

/-- The second half of a surrogate pair. -/
def LowHalf (unit : Nat) : Prop := 0xDC00 ≤ unit ∧ unit ≤ 0xDFFF

instance : DecidablePred HighHalf := fun _ => inferInstanceAs (Decidable (_ ∧ _))

instance : DecidablePred LowHalf := fun _ => inferInstanceAs (Decidable (_ ∧ _))

/-- The code units of a character in UTF-16: its code point, or a surrogate pair for it. -/
def utf16Char (c : Char) : List Nat :=
  if c.toNat < 0x10000 then [c.toNat]
  else [0xD800 + (c.toNat - 0x10000) / 0x400, 0xDC00 + (c.toNat - 0x10000) % 0x400]

/-- The code units of a text in UTF-16. -/
def utf16 (cs : List Char) : List Nat := cs.flatMap utf16Char

theorem utf16_cons (c : Char) (cs : List Char) : utf16 (c :: cs) = utf16Char c ++ utf16 cs :=
  List.flatMap_cons

/-- Code units that begin with a half of a surrogate pair without the other one. -/
inductive Unpaired : List Nat → Prop
  | low {unit : Nat} (h : LowHalf unit) (units : List Nat) : Unpaired (unit :: units)
  | high {unit next : Nat} (h : HighHalf unit) (hnext : ¬ LowHalf next) (units : List Nat) :
      Unpaired (unit :: next :: units)
  | last {unit : Nat} (h : HighHalf unit) : Unpaired [unit]

theorem utf16Char_unit {unit : Nat} (h : unit < 0x10000) (hhigh : ¬ HighHalf unit)
    (hlow : ¬ LowHalf unit) : utf16Char (Char.ofNat unit) = [unit] := by
  rw [HighHalf] at hhigh
  rw [LowHalf] at hlow
  rw [utf16Char, Json.toNat_ofNat (by omega), if_pos h]

theorem utf16Char_pair {high low : Nat} (hhigh : HighHalf high) (hlow : LowHalf low) :
    utf16Char (Char.ofNat (0x10000 + (high - 0xD800) * 0x400 + (low - 0xDC00))) = [high, low] := by
  rw [HighHalf] at hhigh
  rw [LowHalf] at hlow
  rw [utf16Char, Json.toNat_ofNat (by omega), if_neg (by omega)]
  simp only [List.cons.injEq, and_true]
  omega

/-- Code units are UTF-16 to their end, or up to a half of a surrogate pair that stands alone. -/
theorem utf16_or_unpaired {units : List Nat} (h : ∀ unit ∈ units, unit < 0x10000) :
    (∃ cs, units = utf16 cs) ∨ ∃ cs rest, units = utf16 cs ++ rest ∧ Unpaired rest := by
  -- A character takes one unit or two.
  induction hn : units.length using Nat.strongRecOn generalizing units with
  | ind n ih =>
    have hcons : ∀ (c : Char) (rest : List Nat), units = utf16Char c ++ rest →
        rest.length < units.length → (∀ unit ∈ rest, unit < 0x10000) →
        (∃ cs, units = utf16 cs) ∨ ∃ cs rest, units = utf16 cs ++ rest ∧ Unpaired rest := by
      intro c rest heq hlt hrest
      rcases ih _ (hn ▸ hlt) hrest rfl with ⟨cs, rfl⟩ | ⟨cs, rest, rfl, hbreak⟩
      · exact .inl ⟨c :: cs, by rw [heq, utf16_cons]⟩
      · exact .inr ⟨c :: cs, rest, by rw [heq, utf16_cons, List.append_assoc], hbreak⟩
    cases units with
    | nil => exact .inl ⟨[], rfl⟩
    | cons unit units =>
      obtain ⟨hunit, hunits⟩ := List.forall_mem_cons.mp h
      by_cases hlow : LowHalf unit
      · exact .inr ⟨[], _, rfl, .low hlow units⟩
      by_cases hhigh : HighHalf unit
      · cases units with
        | nil => exact .inr ⟨[], _, rfl, .last hhigh⟩
        | cons next units =>
          by_cases hnext : LowHalf next
          · have hpair := congrArg (· ++ units) (utf16Char_pair hhigh hnext).symm
            exact hcons _ units hpair (by simp only [List.length_cons]; omega)
              (List.forall_mem_cons.mp hunits).2
          · exact .inr ⟨[], _, rfl, .high hhigh hnext units⟩
      · have hsingle := congrArg (· ++ units) (utf16Char_unit hunit hhigh hlow).symm
        exact hcons _ units hsingle (by simp only [List.length_cons]; omega) hunits

end RecordText.Text

namespace RecordText.Json

open Reader
open Text (HighHalf LowHalf Unpaired utf16 utf16Char)

/-! ## Escapes -/

/-- Any number of code units, each escaped by its digits. -/
inductive SpellsUnits : List Char → List Nat → Prop
  | nil : SpellsUnits [] []
  | cons {u es : List Char} {unit : Nat} {units : List Nat} (h : SpellsUnit u unit)
      (hs : SpellsUnits es units) : SpellsUnits ('\\' :: 'u' :: (u ++ es)) (unit :: units)

theorem SpellsUnits.lt {es : List Char} {units : List Nat} (h : SpellsUnits es units) :
    ∀ unit ∈ units, unit < 0x10000 := by
  induction h with
  | nil => nofun
  | cons h _ ih => exact List.forall_mem_cons.mpr ⟨h.lt, ih⟩

theorem SpellsUnits.of_cons {es : List Char} {unit : Nat} {units : List Nat}
    (h : SpellsUnits es (unit :: units)) :
    ∃ u e, es = '\\' :: 'u' :: (u ++ e) ∧ SpellsUnit u unit ∧ SpellsUnits e units := by
  cases h with
  | cons hu hs => exact ⟨_, _, rfl, hu, hs⟩

theorem SpellsUnits.of_append {es : List Char} {front units : List Nat}
    (h : SpellsUnits es (front ++ units)) :
    ∃ e e', es = e ++ e' ∧ SpellsUnits e front ∧ SpellsUnits e' units := by
  induction front generalizing es with
  | nil => exact ⟨[], es, rfl, .nil, h⟩
  | cons unit front ih =>
    obtain ⟨u, es, rfl, hu, hs⟩ := h.of_cons
    obtain ⟨e, e', rfl, he, he'⟩ := ih hs
    exact ⟨_, e', by simp, .cons hu he, he'⟩

theorem SpellsUnits.spellsChar {es : List Char} {c : Char} (h : SpellsUnits es (utf16Char c)) :
    SpellsChar es c := by
  unfold utf16Char at h
  split at h
  · obtain ⟨u, es, rfl, hu, hs⟩ := h.of_cons
    cases hs
    rw [List.append_nil]
    exact .unit hu
  · rename_i hc
    have hlt := toNat_lt_or c
    obtain ⟨u, es, rfl, hu, hs⟩ := h.of_cons
    obtain ⟨v, es, rfl, hv, hs⟩ := hs.of_cons
    cases hs
    rw [List.append_nil]
    exact .pair hu hv (by omega) (by omega) (by omega)

theorem SpellsUnits.spellsChars {es cs : List Char} (h : SpellsUnits es (utf16 cs)) :
    SpellsChars es cs := by
  induction cs generalizing es with
  | nil =>
    cases h
    exact .nil
  | cons c cs ih =>
    rw [Text.utf16_cons] at h
    obtain ⟨e, e', rfl, he, he'⟩ := h.of_append
    exact .cons he.spellsChar (ih he')

theorem SpellsChars.append {us us' cs cs' : List Char} (h : SpellsChars us cs)
    (h' : SpellsChars us' cs') : SpellsChars (us ++ us') (cs ++ cs') := by
  induction h with
  | nil => exact h'
  | cons hc _ ih =>
    rw [List.append_assoc]
    exact .cons hc ih

/-! ## Where a literal is refused -/

/-- Behind the characters in front a literal fails with what is read next. -/
theorem run_stringRest_error {us cs text : List Char} {fault : Fault} (h : SpellsChars us cs)
    (hc : stringChar.run text = .error fault) :
    stringRest.run (us ++ text) = .error fault := by
  have hm : (many stringChar stringChar_advances).run (us ++ text) = .error fault := by
    induction h with
    | nil => rw [List.nil_append, run_many, hc]
    | cons h _ ih =>
      rw [List.append_assoc, run_many, run_stringChar h]
      simp only [ih]
  rw [stringRest, run_bind, hm]

theorem run_stringChar_unit (text : List Char) :
    stringChar.run ('\\' :: 'u' :: text) = (escapedUnits >>= fun c => pure (some c)).run text := by
  simp [stringChar, escaped]

theorem isLow_iff {unit : Nat} : Escape.isLow unit = true ↔ LowHalf unit := by
  simp [Escape.isLow, LowHalf]

theorem isHigh_iff {unit : Nat} : Escape.isHigh unit = true ↔ HighHalf unit := by
  simp [Escape.isHigh, HighHalf]

section

variable {u v : List Char} {unit next : Nat}

theorem run_escapedUnits_low (hu : SpellsUnit u unit) (h : LowHalf unit) (rest : List Char) :
    escapedUnits.run (u ++ rest) = .error ⟨.malformed .loneSurrogate, Text.byteLength rest⟩ := by
  simp [escapedUnits, run_codeUnit hu, isLow_iff.mpr h]

/-- Behind the first half of a surrogate pair the second one is asked for. -/
theorem run_escapedUnits_high (hu : SpellsUnit u unit) (h : HighHalf unit) (text : List Char) :
    escapedUnits.run (u ++ text) = Reader.run (do
      pairMark '\\'
      pairMark 'u'
      let second ← codeUnit
      if Escape.isLow second then return Escape.pair unit second
      else fail (.malformed .loneSurrogate)) text := by
  have hlow : ¬ LowHalf unit := by
    rw [HighHalf] at h
    rw [LowHalf]
    omega
  simp [escapedUnits, run_codeUnit hu, mt isLow_iff.mp hlow, isHigh_iff.mpr h]

theorem run_escapedUnits_high_unit (hu : SpellsUnit u unit) (h : HighHalf unit)
    (hv : SpellsUnit v next) (hnext : ¬ LowHalf next) (rest : List Char) :
    escapedUnits.run (u ++ '\\' :: 'u' :: (v ++ rest)) =
      .error ⟨.malformed .loneSurrogate, Text.byteLength rest⟩ := by
  rw [run_escapedUnits_high hu h]
  simp [run_pairMark, run_codeUnit hv, mt isLow_iff.mp hnext]

theorem run_escapedUnits_high_quote (hu : SpellsUnit u unit) (h : HighHalf unit)
    (rest : List Char) :
    escapedUnits.run (u ++ '"' :: rest) =
      .error ⟨.malformed .brokenPair, Text.byteLength rest⟩ := by
  have hquote : ('"' : Char).utf8Size = 1 := rfl
  rw [run_escapedUnits_high hu h]
  simp [pairMark, hquote]

end

section

variable {us cs e ds : List Char} {unit next : Nat}

/-- Behind readable escapes a literal fails with what is read of the next one, if this is the same
for every spelling of the code units from there on. -/
theorem run_stringRest_unit {text : List Char} {units : List Nat} {fault : Fault}
    (hus : SpellsChars us cs) (he : SpellsUnits e (utf16 ds ++ unit :: units))
    (h : ∀ u v, SpellsUnit u unit → SpellsUnits v units →
      escapedUnits.run (u ++ (v ++ text)) = .error fault) :
    stringRest.run (us ++ (e ++ text)) = .error fault := by
  obtain ⟨e, e', rfl, hfront, he'⟩ := he.of_append
  obtain ⟨u, v, rfl, hu, hv⟩ := he'.of_cons
  have hchar : stringChar.run ('\\' :: 'u' :: (u ++ (v ++ text))) = .error fault := by
    rw [run_stringChar_unit, run_bind, h u v hu hv]
  have hrun := run_stringRest_error (hus.append hfront.spellsChars) hchar
  simpa using hrun

theorem run_stringRest_low (hus : SpellsChars us cs) (he : SpellsUnits e (utf16 ds ++ [unit]))
    (h : LowHalf unit) (rest : List Char) : stringRest.run (us ++ (e ++ rest)) =
      .error ⟨.malformed .loneSurrogate, Text.byteLength rest⟩ := by
  refine run_stringRest_unit hus he fun u v hu hv => ?_
  cases hv
  exact run_escapedUnits_low hu h rest

theorem run_stringRest_high (hus : SpellsChars us cs)
    (he : SpellsUnits e (utf16 ds ++ [unit, next])) (h : HighHalf unit) (hnext : ¬ LowHalf next)
    (rest : List Char) : stringRest.run (us ++ (e ++ rest)) =
      .error ⟨.malformed .loneSurrogate, Text.byteLength rest⟩ := by
  refine run_stringRest_unit hus he fun u e' hu he' => ?_
  obtain ⟨v, _, rfl, hv, hnil⟩ := he'.of_cons
  cases hnil
  simpa using run_escapedUnits_high_unit hu h hv hnext rest

theorem run_stringRest_last (hus : SpellsChars us cs) (he : SpellsUnits e (utf16 ds ++ [unit]))
    (h : HighHalf unit) (rest : List Char) : stringRest.run (us ++ (e ++ '"' :: rest)) =
      .error ⟨.malformed .brokenPair, Text.byteLength rest⟩ := by
  refine run_stringRest_unit hus he fun u v hu hv => ?_
  cases hv
  exact run_escapedUnits_high_quote hu h rest

theorem run_stringRest_utf16 (hus : SpellsChars us cs) (he : SpellsUnits e (utf16 ds))
    (rest : List Char) :
    stringRest.run (us ++ (e ++ '"' :: rest)) = .ok (String.ofList (cs ++ ds), rest) := by
  rw [← List.append_assoc]
  apply run_stringRest
  rw [String.toList_ofList]
  exact hus.append he.spellsChars

/-- A literal that ends behind escaped code units is read exactly if these are UTF-16. -/
theorem stringRest_units_ok_iff {units : List Nat} (hus : SpellsChars us cs)
    (he : SpellsUnits e units) (rest : List Char) :
    (∃ p, stringRest.run (us ++ (e ++ '"' :: rest)) = .ok p) ↔ ∃ ds, units = utf16 ds := by
  constructor
  · rintro ⟨p, hp⟩
    rcases Text.utf16_or_unpaired he.lt with hok | ⟨ds, units, rfl, hbreak⟩
    · exact hok
    exfalso
    cases hbreak with
    | @low unit h units =>
      rw [← List.singleton_append, ← List.append_assoc] at he
      obtain ⟨e, e', rfl, he, -⟩ := he.of_append
      rw [List.append_assoc, run_stringRest_low hus he h] at hp
      cases hp
    | @high unit next h hnext units =>
      have hsplit : unit :: next :: units = [unit, next] ++ units := rfl
      rw [hsplit, ← List.append_assoc] at he
      obtain ⟨e, e', rfl, he, -⟩ := he.of_append
      rw [List.append_assoc, run_stringRest_high hus he h hnext] at hp
      cases hp
    | last h =>
      rw [run_stringRest_last hus he h] at hp
      cases hp
  · rintro ⟨ds, rfl⟩
    exact ⟨_, run_stringRest_utf16 hus he rest⟩

end

/-! ## Names and keys -/

/-- An object in the place of a record is open and holds these fields, and one more key is asked
for. -/
inductive AsksForKey : List Char → List Record.Field → Prop
  | object {p cs : List Char} {fs : List Record.Field} (hp : AsksForRecord p)
      (h : SpellsLeading SpellsField cs fs) (hfs : fs.Nodup) : AsksForKey (p ++ '{' :: cs) fs

/-- A name or a key is asked for. -/
inductive AsksForString : List Char → Prop
  | name {p : List Char} (hp : AsksFor p .name) : AsksForString p
  | key {p : List Char} {fs : List Record.Field} (hp : AsksForKey p fs) : AsksForString p

/-- From its opening quote on a string is read, and then `k` goes on to the end of the list. -/
def ReadsString (p : List Char) (k : String → Reader (List Record)) : Prop :=
  ∀ text, records.run (p ++ '"' :: text) = (stringRest >>= k).run text

/-- The list is refused for a key that names no field, or one of these; with every other key it can
be read to its end. -/
structure HoldsKey (fs : List Record.Field) (k : String → Reader (List Record)) : Prop where
  refused : ∀ key, (∀ f, Record.Field.ofKey? key = some f → f ∈ fs) → ∀ text, ∃ unread,
    (k key).run text = .error ⟨.mismatched (keyMismatch key), unread⟩
  completed : ∀ f, f ∉ fs → ∃ close rs, (k f.key).run close = .ok (rs, [])

theorem ReadsBehind.readsString {p : List Char} {k : String → Reader (List Record)}
    (h : ReadsBehind p name k) : ReadsString p k := by
  intro text
  rw [h '"' text (by decide) (by decide), run_bind, run_name_quote, run_bind]

theorem holdsKey (front : List Record) {d : Draft} {fs : List Record.Field}
    (hd : ∀ f, d.Lacks f ↔ f ∉ fs) : HoldsKey fs fun key =>
      memberRest d key >>= fun d => complete d >>= listRest front where
  refused key hkey text := by
    obtain ⟨unread, hrefused, -⟩ :=
      run_memberRest_refused (fun f hf h => (hd f).mp h (hkey f hf)) text
    exact ⟨unread, by rw [run_bind, hrefused]⟩
  completed f hf := by
    have hlacks := (hd f).mpr hf
    have hfield : ∀ text, (memberRest d f.key).run (':' :: text) =
        (fieldInto d f >>= members false).run text :=
      run_memberRest_field hlacks blank_nil blank_nil
    cases f with
    | name =>
      obtain ⟨close, -, hclose⟩ := (holdsField_name front hlacks).completed
      obtain ⟨r, -, hrun⟩ := hclose ""
      have hname := run_name blank_nil (spellsString_writeString "") close
      have hinto : (fieldInto d .name).run (writeString "".toList ++ close) =
          .ok ({ d with name := some "" }, close) := by
        rw [List.nil_append] at hname
        rw [fieldInto, run_bind, hname]
        rfl
      refine ⟨':' :: (writeString "".toList ++ close), front ++ [r], ?_⟩
      rw [run_bind_of_run_eq (hfield _), run_bind, hinto]
      exact hrun
    | value =>
      obtain ⟨close, hends, hclose⟩ := (holdsField_value front hlacks).completed
      obtain ⟨r, -, hrun⟩ := hclose 0
      have hvalue := run_value blank_nil (spellsInteger_toString (0 : Int64).toInt) hends
      have hinto : (fieldInto d .value).run ((toString (0 : Int64).toInt).toList ++ close) =
          .ok ({ d with value := some 0 }, close) := by
        rw [List.nil_append] at hvalue
        rw [fieldInto, run_bind, hvalue]
        rfl
      refine ⟨':' :: ((toString (0 : Int64).toInt).toList ++ close), front ++ [r], ?_⟩
      rw [run_bind_of_run_eq (hfield _), run_bind, hinto]
      exact hrun

theorem AsksForKey.reads_key {p : List Char} {fs : List Record.Field} (hp : AsksForKey p fs) :
    ∃ k, HoldsKey fs k ∧ ReadsString p k := by
  cases hp with
  | @object p cs _ hp hs hfs =>
    obtain ⟨front, first, d, l, hl, hd, hrecords⟩ := hp.run_records_members hs hfs
    refine ⟨_, holdsKey front hd, fun text => ?_⟩
    rw [List.append_assoc, List.cons_append, hrecords]
    exact run_bind_of_run_eq (run_members_quote hl text) _

theorem AsksForString.reads_string {p : List Char} (hp : AsksForString p) :
    ∃ k, ReadsString p k := by
  cases hp with
  | name hp =>
    obtain ⟨front, k, -, hreads⟩ := hp.reads_name
    exact ⟨k, hreads.readsString⟩
  | key hp =>
    obtain ⟨k, -, hreads⟩ := hp.reads_key
    exact ⟨k, hreads⟩

end RecordText.Json

namespace RecordText

/-! ## Lists of records -/

/-- Every text that begins like this is refused directly behind the beginning. -/
def RefusesBehind (t description : String) : Prop :=
  ∀ s, Reports (t ++ s) .malformed description (Text.byteLength t.toList)

theorem refusesBehind_of_string {p t : String} {m : Json.Malformation}
    (hp : Json.AsksForString p.toList)
    (h : ∀ rest, Json.stringRest.run (t.toList ++ rest) =
      .error ⟨.malformed m, Text.byteLength rest⟩) : RefusesBehind (p ++ "\"" ++ t) m.text := by
  intro s
  obtain ⟨k, hreads⟩ := hp.reads_string
  have hrun : Json.records.run ((p ++ "\"" ++ t).toList ++ s.toList) =
      .error ⟨.malformed m, Text.byteLength s.toList⟩ := by
    have hrest := hreads (t.toList ++ s.toList)
    rw [Json.Reader.run_bind, h] at hrest
    simpa using hrest
  exact reports_behind hrun

section

variable {us es : String} {cs : List Char} {units : List Nat}
  (hus : Json.SpellsChars us.toList cs) (hes : Json.SpellsUnits es.toList units)

include hes

/-- If a literal fails behind some of its code units, the list is refused behind their escapes. -/
theorem refusesBehind_units {p : String} {front rest : List Nat} {m : Json.Malformation}
    (hp : Json.AsksForString p.toList) (hunits : units = front ++ rest)
    (h : ∀ e, Json.SpellsUnits e front → ∀ text, Json.stringRest.run (us.toList ++ (e ++ text)) =
      .error ⟨.malformed m, Text.byteLength text⟩) :
    ∃ e e' : String, es = e ++ e' ∧ Json.SpellsUnits e.toList front ∧
      RefusesBehind (p ++ "\"" ++ us ++ e) m.text := by
  subst hunits
  obtain ⟨e, e', heq, he, -⟩ := hes.of_append
  have hsplit : es = String.ofList e ++ String.ofList e' := by
    rw [← String.ofList_append, ← heq, String.ofList_toList]
  rw [← String.toList_ofList (l := e)] at he
  refine ⟨_, _, hsplit, he, ?_⟩
  rw [String.append_assoc]
  refine refusesBehind_of_string hp fun text => ?_
  rw [String.toList_append, List.append_assoc]
  exact h _ he text

include hus

theorem run_records_string {p s : String} {k : String → Json.Reader (List Record)} {ds : List Char}
    (hreads : Json.ReadsString p.toList k) (hds : units = Text.utf16 ds) :
    Json.records.run (p ++ "\"" ++ us ++ es ++ "\"" ++ s).toList =
      (k (String.ofList (cs ++ ds))).run s.toList := by
  subst hds
  have hrest := hreads (us.toList ++ (es.toList ++ '"' :: s.toList))
  rw [Json.Reader.run_bind, Json.run_stringRest_utf16 hus hes] at hrest
  simpa using hrest

theorem refusesBehind_last {p : String} {ds : List Char} {high : Nat}
    (hp : Json.AsksForString p.toList) (hunits : units = Text.utf16 ds ++ [high])
    (hhigh : Text.HighHalf high) :
    RefusesBehind (p ++ "\"" ++ us ++ es ++ "\"") "unexpected end of hex escape" := by
  subst hunits
  rw [String.append_assoc, String.append_assoc]
  refine refusesBehind_of_string (m := .brokenPair) hp fun rest => ?_
  have hrun := Json.run_stringRest_last hus hes hhigh rest
  simpa using hrun

end

/-- In a name or key any number of escaped code units may stand behind other characters. The literal
that ends behind them is read exactly if they are UTF-16, and then they stand for the characters
that they encode. Otherwise they are UTF-16 up to some half of a surrogate pair that stands alone.
There the list is refused: behind this half, behind the unit that should have been the other one, or
behind the quote that stands in the place of that unit. The text further behind is not looked at. -/
theorem load_code_units {us es : String} {cs : List Char} {units : List Nat}
    (hus : Json.SpellsChars us.toList cs) (hes : Json.SpellsUnits es.toList units) :
    (∀ s : String, (∃ r, Json.stringRest.run (us ++ es ++ "\"" ++ s).toList = .ok r) ↔
      ∃ ds, units = Text.utf16 ds) ∧
    (∀ ds, units = Text.utf16 ds →
      (∀ s : String, Json.stringRest.run (us ++ es ++ "\"" ++ s).toList =
        .ok (String.ofList (cs ++ ds), s.toList)) ∧
      (∀ p : String, Json.AsksFor p.toList .name →
        ∃ front k, Json.HoldsField Record.name front k ∧ ∀ s : String,
          Json.records.run (p ++ "\"" ++ us ++ es ++ "\"" ++ s).toList =
            (k (String.ofList (cs ++ ds))).run s.toList) ∧
      ∀ (p : String) (fs : List Record.Field), Json.AsksForKey p.toList fs →
        ∃ k, Json.HoldsKey fs k ∧ ∀ s : String,
          Json.records.run (p ++ "\"" ++ us ++ es ++ "\"" ++ s).toList =
            (k (String.ofList (cs ++ ds))).run s.toList) ∧
    ((∃ ds, units = Text.utf16 ds) ∨
      ∃ ds rest, units = Text.utf16 ds ++ rest ∧ Text.Unpaired rest) ∧
    ∀ (p : String) (ds : List Char), Json.AsksForString p.toList →
      (∀ low rest, units = Text.utf16 ds ++ low :: rest → Text.LowHalf low →
        ∃ e e' : String, es = e ++ e' ∧ Json.SpellsUnits e.toList (Text.utf16 ds ++ [low]) ∧
          RefusesBehind (p ++ "\"" ++ us ++ e) "lone leading surrogate in hex escape") ∧
      (∀ high next rest, units = Text.utf16 ds ++ high :: next :: rest → Text.HighHalf high →
        ¬ Text.LowHalf next →
        ∃ e e' : String, es = e ++ e' ∧ Json.SpellsUnits e.toList (Text.utf16 ds ++ [high, next]) ∧
          RefusesBehind (p ++ "\"" ++ us ++ e) "lone leading surrogate in hex escape") ∧
      ∀ high, units = Text.utf16 ds ++ [high] → Text.HighHalf high →
        RefusesBehind (p ++ "\"" ++ us ++ es ++ "\"") "unexpected end of hex escape" := by
  have hlist : ∀ s : String,
      (us ++ es ++ "\"" ++ s).toList = us.toList ++ (es.toList ++ '"' :: s.toList) := by
    intro s
    simp
  refine ⟨fun s => ?_, fun ds hds => ⟨fun s => ?_, fun p hp => ?_, fun p fs hp => ?_⟩,
    Text.utf16_or_unpaired hes.lt, fun p ds hp => ⟨?_, ?_, ?_⟩⟩
  · rw [hlist]
    exact Json.stringRest_units_ok_iff hus hes s.toList
  · subst hds
    rw [hlist]
    exact Json.run_stringRest_utf16 hus hes s.toList
  · obtain ⟨front, k, hholds, hreads⟩ := hp.reads_name
    exact ⟨front, k, hholds, fun s => run_records_string hus hes hreads.readsString hds⟩
  · obtain ⟨k, hholds, hreads⟩ := hp.reads_key
    exact ⟨k, hholds, fun s => run_records_string hus hes hreads hds⟩
  · intro low rest hunits hlow
    have hfront : units = (Text.utf16 ds ++ [low]) ++ rest := by simp [hunits]
    exact refusesBehind_units (m := .loneSurrogate) hes hp hfront
      fun e he => Json.run_stringRest_low hus he hlow
  · intro high next rest hunits hhigh hnext
    have hfront : units = (Text.utf16 ds ++ [high, next]) ++ rest := by simp [hunits]
    exact refusesBehind_units (m := .loneSurrogate) hes hp hfront
      fun e he => Json.run_stringRest_high hus he hhigh hnext
  · exact fun high => refusesBehind_last hus hes hp

/-- A pair in digits of either case and the null character behind a letter; a first half with a
letter behind it in a name; and one that ends a key. -/
theorem load_escaped_halves :
    Json.stringRest.run ("a" ++ "\\uD83d\\ude00\\u0000" ++ "\"" ++ "!").toList =
        .ok (String.ofList ['a', '😀', '\x00'], ['!']) ∧
      (∃ e e' : String, "\\ud83d\\u0041\\ude00" = e ++ e' ∧
        Json.SpellsUnits e.toList [0xD83D, 0x41] ∧
        RefusesBehind ("[[" ++ "\"" ++ "" ++ e) "lone leading surrogate in hex escape") ∧
      RefusesBehind ("[\x7b" ++ "\"" ++ "" ++ "\\ud83d" ++ "\"")
        "unexpected end of hex escape" := by
  have hlist : Json.AsksForRecord ['['] := .list Json.blank_nil (.nil Json.blank_nil)
  have hname : Json.AsksForString "[[".toList := .name (.first hlist Json.blank_nil)
  have hkey : Json.AsksForString "[\x7b".toList :=
    .key (.object hlist (.nil Json.blank_nil) List.nodup_nil)
  have hhex : ∀ n, n < 0x10000 → Json.SpellsUnit (Json.Escape.hex n) n :=
    fun _ => Json.spellsUnit_hex
  have hempty : Json.SpellsChars "".toList [] := .nil
  refine ⟨?_, ?_, ?_⟩
  · have ha : Json.SpellsChars "a".toList ['a'] := Json.spellsChars_flatMap ['a']
    have hupper : Json.SpellsUnit ['D', '8', '3', 'd'] 0xD83D := .digits
      (Json.hexDigit_of_hexDigit? (n := 13) rfl) (Json.hexDigit_of_hexDigit? (n := 8) rfl)
      (Json.hexDigit_of_hexDigit? (n := 3) rfl) (Json.hexDigit_of_hexDigit? (n := 13) rfl)
    have hunits : Json.SpellsUnits "\\uD83d\\ude00\\u0000".toList [0xD83D, 0xDE00, 0] :=
      .cons hupper (.cons (hhex 0xDE00 (by decide)) (.cons (hhex 0 (by decide)) .nil))
    exact ((load_code_units ha hunits).2.1 ['😀', '\x00'] (by decide)).1 "!"
  · have hunits : Json.SpellsUnits "\\ud83d\\u0041\\ude00".toList [0xD83D, 0x41, 0xDE00] :=
      .cons (hhex 0xD83D (by decide))
        (.cons (hhex 0x41 (by decide)) (.cons (hhex 0xDE00 (by decide)) .nil))
    exact ((load_code_units hempty hunits).2.2.2 "[[" [] hname).2.1 0xD83D 0x41 [0xDE00] rfl
      (by decide) (by decide)
  · have hunits : Json.SpellsUnits "\\ud83d".toList [0xD83D] :=
      .cons (hhex 0xD83D (by decide)) .nil
    exact ((load_code_units hempty hunits).2.2.2 "[\x7b" [] hkey).2.2 0xD83D rfl (by decide)

end RecordText
