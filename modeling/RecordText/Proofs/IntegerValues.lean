import RecordText.Proofs.Continuations

/-!
# Integers in the place of a value

An integer is read exactly or not at all, however many digits it has. Up to 64 bits its digits make
up the significand, and beyond that the number is no longer an integer to the reader: it becomes a
double, which a record does not hold. So does a zero with a sign, and everything with a fraction or
an exponent.

* `number_beyond`: integers that are too small, or have more digits than the significand holds.
* `run_value_outOfRange`, `value_beyond`: integers that are no values.
* `run_value_leading_zero`, `value_marked`: what goes on behind the digits.
* `holds_integer`, `reports_outOfRange`, `reports_beyond`, `reports_leading_zero`,
  `reports_minus_zero`, `load_marked`: what becomes of a list.
* `load_integer_values`: all of this at once.
-/

namespace RecordText.Json

open Reader

/-! ## Long numbers -/

theorem append_fst_le {limit n : Nat} (cs : List Char) (hn : n ≤ limit) :
    (Number.append limit n cs).1 ≤ limit := by
  induction cs generalizing n with
  | nil => exact hn
  | cons c cs ih =>
    rw [Number.append]
    split
    · rename_i hle
      exact ih hle
    · exact hn

/-- Digits are left over exactly of what is beyond the limit. -/
theorem append_snd_ne_nil {limit n : Nat} {cs : List Char} (hn : n ≤ limit)
    (h : limit < Nat.ofDigitChars 10 cs n) : (Number.append limit n cs).2 ≠ [] := by
  intro hnil
  have hle := append_fst_le cs hn
  rw [append_nothing_left hnil] at hle
  omega

theorem run_wholePart_long {cs rest : List Char} {n : Nat} (h : SpellsNatural cs n)
    (hn : Number.significandLimit < n) (hr : NoDigit rest) :
    ∃ m left, left ≠ 0 ∧ wholePart.run (cs ++ rest) = .ok ((m, left), rest) := by
  cases h with
  | zero => exact absurd hn (Nat.not_lt_zero _)
  | @digits d ds hd h0 hds =>
    rw [ofDigitChars_cons_digit, Nat.zero_mul, Nat.zero_add] at hn
    have hdigit : Number.digit d ≤ Number.significandLimit := by
      have hrange : 48 ≤ d.toNat ∧ d.toNat ≤ 57 := Char.isDigit_iff_toNat.mp hd
      have hzero : ('0' : Char).toNat = 48 := rfl
      have hlimit : Number.significandLimit = 18446744073709551615 := rfl
      rw [Number.digit]
      omega
    rw [List.cons_append, run_wholePart_digit hd, takeWhile_digits hds hr,
      if_neg (mt (Number.digit_eq_zero hd).mp h0), List.drop_left]
    exact ⟨_, _, mt List.length_eq_zero_iff.mp (append_snd_ne_nil hdigit hn), rfl⟩

/-- A double, or none because the number is too large; nothing behind the number is read. -/
def ReadsDouble (r : Reader Number) (text rest : List Char) : Prop :=
  (∃ x, r.run text = .ok (.float x, rest)) ∨
    r.run text = .error ⟨.malformed .tooLarge, Text.byteLength rest⟩

theorem scaled_readsDouble (negative : Bool) (significand : Nat) (e : Int) (text : List Char) :
    ReadsDouble (scaled negative significand e) text text := by
  unfold scaled
  split
  · exact .inl ⟨_, rfl⟩
  · exact .inr rfl

theorem number_long {negative : Bool} {text cs rest : List Char} {n : Nat}
    (hs : (accept '-').run text = .ok (negative, cs ++ rest)) (h : SpellsNatural cs n)
    (hn : Number.significandLimit < n) (hr : EndsNumber rest) : ReadsDouble number text rest := by
  obtain ⟨m, left, hleft, hw⟩ := run_wholePart_long h hn hr.noDigit
  rw [ReadsDouble, run_number_whole hs hw hr, if_neg hleft]
  exact scaled_readsDouble negative m left rest

/-- A minus sign leaves less room: the digits may fit, and still the number is a double. -/
theorem number_short_negative {cs rest : List Char} {n : Nat} (h : SpellsNatural cs n)
    (hn : n ≤ Number.significandLimit) (h63 : Int64.minValue.toInt.natAbs < n)
    (hr : EndsNumber rest) :
    number.run ('-' :: (cs ++ rest)) = .ok (.float (-Float.ofNat n), rest) := by
  rw [run_number_digits true rfl h hn hr, Number.ofDigits, if_neg (by decide), if_neg]
  exact fun hle => Nat.not_le_of_lt h63 hle.2

theorem number_beyond {cs rest : List Char} {n : Int} (h : SpellsInteger cs n)
    (hn : n < Int64.minValue.toInt ∨ UInt64.size ≤ n) (hr : EndsNumber rest) :
    ReadsDouble number (cs ++ rest) rest := by
  have hlimit : Number.significandLimit + 1 = UInt64.size := rfl
  have hmin : Int64.minValue.toInt.natAbs = 9223372036854775808 := rfl
  have hmin' : Int64.minValue.toInt = -9223372036854775808 := rfl
  cases h with
  | @natural cs n h =>
    have hlong : Number.significandLimit < n := by omega
    exact number_long (h.run_accept_minus rest) h hlong hr
  | @negative cs n h h0 =>
    by_cases hle : n ≤ Number.significandLimit
    · have h63 : Int64.minValue.toInt.natAbs < n := by omega
      exact .inl ⟨_, number_short_negative h hle h63 hr⟩
    · exact number_long rfl h (Nat.lt_of_not_le hle) hr

/-! ## What goes on behind the digits -/

theorem utf8Size_of_isDigit {c : Char} (hc : c.isDigit) : c.utf8Size = 1 :=
  HexDigit.utf8Size (hexDigit_of_hexDigit? (if_pos hc))

/-- No digit may stand behind a leading zero. -/
theorem number_leading_zero {negative : Bool} {text rest : List Char} {d : Char}
    (hs : (accept '-').run text = .ok (negative, '0' :: d :: rest)) (hd : d.isDigit) :
    number.run text = .error ⟨.malformed .number, Text.byteLength rest⟩ := by
  have hw := run_wholePart_digit (d := '0') (by decide) (d :: rest)
  rw [if_pos (by decide), if_neg (by simp [hd]), Text.byteLength_cons, utf8Size_of_isDigit hd,
    Nat.add_sub_cancel_left] at hw
  rw [number, run_bind, hs]
  simp only [run_bind, hw]

/-- The digits in front of a text are told by the text. -/
theorem SpellsNatural.eq_of_append {cs cs' rest rest' : List Char} {n n' : Nat}
    (h : SpellsNatural cs n) (h' : SpellsNatural cs' n') (hr : NoDigit rest) (hr' : NoDigit rest')
    (heq : cs ++ rest = cs' ++ rest') : cs = cs' ∧ rest = rest' := by
  have hcs : cs = cs' := by
    rw [← takeWhile_digits h.isDigit hr, heq, takeWhile_digits h'.isDigit hr']
  subst hcs
  exact ⟨rfl, List.append_cancel_left heq⟩

/-- The whole part of a number: digits, with or without a sign. Unlike an integer it may be a zero
with a sign. -/
inductive SpellsWhole : List Char → Prop
  | natural {cs : List Char} {n : Nat} (h : SpellsNatural cs n) : SpellsWhole cs
  | negative {cs : List Char} {n : Nat} (h : SpellsNatural cs n) : SpellsWhole ('-' :: cs)

theorem SpellsWhole.head {cs : List Char} (h : SpellsWhole cs) :
    ∃ c behind, cs = c :: behind ∧ BeginsNumber c := by
  cases h with
  | natural h =>
    obtain ⟨d, ds, rfl, hd⟩ := h.head
    exact ⟨d, ds, rfl, .inr hd⟩
  | negative h => exact ⟨'-', _, rfl, .inl rfl⟩

/-- If an integer is read where a whole part stands, the number ends behind it. -/
theorem SpellsWhole.endsNumber {cs k rest rest' : List Char} {n : Int} (h : SpellsWhole cs)
    (hr : NoDigit rest) (hk : SpellsInteger k n) (hends : EndsNumber rest')
    (heq : cs ++ rest = k ++ rest') : EndsNumber rest := by
  have hdigits : ∀ {cs k m m'}, SpellsNatural cs m → SpellsNatural k m' →
      cs ++ rest = k ++ rest' → EndsNumber rest := by
    intro cs k m m' h hk heq
    rw [(h.eq_of_append hk hr hends.noDigit heq).2]
    exact hends
  cases h with
  | natural h =>
    cases hk with
    | natural hk => exact hdigits h hk heq
    | negative hk =>
      obtain ⟨d, ds, rfl, hd⟩ := h.head
      cases (List.cons.inj heq).1
      cases hd
  | negative h =>
    cases hk with
    | natural hk =>
      obtain ⟨d, ds, rfl, hd⟩ := hk.head
      cases (List.cons.inj heq).1
      cases hd
    | negative hk => exact hdigits h hk (List.cons.inj heq).2

/-! ## Values -/

theorem run_value_outOfRange {cs rest : List Char} {n : Int} (h : SpellsInteger cs n)
    (hlo : Int64.maxValue.toInt < n) (hhi : n < UInt64.size) (hr : EndsNumber rest) :
    value.run (cs ++ rest) = .error ⟨.mismatched (.outOfRange n), Text.byteLength rest⟩ := by
  have hlimit : Number.significandLimit = UInt64.size - 1 := rfl
  have hmin : Int64.minValue.toInt ≤ n := Int.le_trans (by decide) (Int.le_of_lt hlo)
  have hfits : ¬ (Int64.minValue.toInt ≤ n ∧ n ≤ Int64.maxValue.toInt) := by omega
  simp only [value, run_bind, run_found_integer h hmin (by omega) hr, if_neg hfits, run_fail]

theorem text_outOfRange (n : Int) : (Cause.mismatched (.outOfRange n)).text =
    "invalid value: integer `" ++ toString n ++ "`, expected i64" := by
  have htext : (Cause.mismatched (.outOfRange n)).text =
    "invalid value: " ++ ("integer `" ++ toString n ++ "`") ++ ", expected " ++ "i64" := rfl
  rw [htext, ← String.append_assoc, ← String.append_assoc, String.append_assoc,
    String.append_assoc]
  rfl

theorem text_float (x : Float) : (Cause.mismatched (.wrongType (.float x) .value)).text =
    "invalid type: floating point `" ++ Decimal.floatText x ++ "`, expected i64" := by
  have htext : (Cause.mismatched (.wrongType (.float x) .value)).text = "invalid type: " ++
    ("floating point `" ++ Decimal.floatText x ++ "`") ++ ", expected " ++ "i64" := rfl
  rw [htext, ← String.append_assoc, ← String.append_assoc, String.append_assoc,
    String.append_assoc]
  rfl

theorem run_value_float {c : Char} {text rest : List Char} {x : Float} (hc : BeginsNumber c)
    (h : number.run (c :: text) = .ok (.float x, rest)) : value.run (c :: text) =
      .error ⟨.mismatched (.wrongType (.float x) .value), Text.byteLength rest⟩ := by
  rw [value, run_bind, run_found_number hc h]
  rfl

theorem run_value_number_error {c : Char} {text : List Char} {fault : Fault}
    (hc : BeginsNumber c) (h : number.run (c :: text) = .error fault) :
    value.run (c :: text) = .error fault := by
  rw [value, run_bind, run_found_begins hc, run_bind, h]

theorem run_value_minus_zero {rest : List Char} (hr : EndsNumber rest) :
    value.run ('-' :: '0' :: rest) = .error
      ⟨.mismatched (.wrongType (.float (-Float.ofNat 0)) .value), Text.byteLength rest⟩ :=
  run_value_float (.inl rfl) (run_number_digits true rfl .zero (Nat.zero_le _) hr)

theorem run_value_leading_zero {z rest : List Char} {d : Char} (hz : z = ['0'] ∨ z = ['-', '0'])
    (hd : d.isDigit) :
    value.run (z ++ d :: rest) = .error ⟨.malformed .number, Text.byteLength rest⟩ := by
  rcases hz with rfl | rfl
  · exact run_value_number_error (.inr rfl) (number_leading_zero rfl hd)
  · exact run_value_number_error (.inl rfl) (number_leading_zero rfl hd)

/-- An integer beyond 64 bits is a double, which is no value, or too large even for that. -/
theorem value_beyond {cs rest : List Char} {n : Int} (h : SpellsInteger cs n)
    (hn : n < Int64.minValue.toInt ∨ UInt64.size ≤ n) (hr : EndsNumber rest) :
    value.run (cs ++ rest) = .error ⟨.malformed .tooLarge, Text.byteLength rest⟩ ∨
      ∃ x, value.run (cs ++ rest) =
        .error ⟨.mismatched (.wrongType (.float x) .value), Text.byteLength rest⟩ := by
  obtain ⟨c, behind, rfl, hc⟩ := h.head
  rcases number_beyond h hn hr with ⟨x, hx⟩ | herror
  · exact .inr ⟨x, run_value_float hc hx⟩
  · exact .inl (run_value_number_error hc herror)

/-- A whole part that goes on with a fraction or an exponent is no value, whatever these are. -/
theorem value_marked {cs : List Char} {c : Char} (h : SpellsWhole cs) (hc : c ∈ ['.', 'e', 'E'])
    (rest : List Char) : ∃ fault, value.run (cs ++ c :: rest) = .error fault := by
  obtain ⟨b, behind, hcs, hb⟩ := h.head
  cases hn : number.run (cs ++ c :: rest) with
  | error fault =>
    rw [hcs] at hn ⊢
    exact ⟨fault, run_value_number_error hb hn⟩
  | ok p =>
    obtain ⟨x, rest'⟩ := p
    cases x with
    | float x =>
      rw [hcs] at hn ⊢
      exact ⟨_, run_value_float hb hn⟩
    | integer n =>
      obtain ⟨k, hk, heq, hends⟩ := number_ok_integer hn
      have hr : NoDigit (c :: rest) := by
        rintro d hd
        cases hd
        simp only [List.mem_cons, List.not_mem_nil, or_false] at hc
        rcases hc with rfl | rfl | rfl <;> decide
      have hmark := h.endsNumber hr hk hends heq c rfl
      simp [hmark.2] at hc

/-- Where a value is read, an integer is read, and the list goes on behind it. -/
theorem ReadsBehind.run_integer {p cs rest : List Char} {k : Int64 → Reader (List Record)}
    {x : Int64} (h : ReadsBehind p value k) (hcs : SpellsInteger cs x.toInt)
    (hr : EndsNumber rest) : records.run (p ++ (cs ++ rest)) = (k x).run rest := by
  have hrun := run_value blank_nil hcs hr
  obtain ⟨c, behind, rfl, hc⟩ := hcs.head
  rw [List.nil_append, List.cons_append] at hrun
  rw [List.cons_append, h c _ hc.not_isWhitespace (hc.ne ']' (by decide)), run_bind, hrun]

/-- Where a value is asked for, the list fails with what is read of a number there. -/
theorem AsksFor.run_records_number {p cs rest : List Char} {fault : Fault}
    (hp : AsksFor p .value) (hcs : ∃ c behind, cs = c :: behind ∧ BeginsNumber c)
    (h : value.run (cs ++ rest) = .error fault) :
    records.run (p ++ cs ++ rest) = .error fault := by
  obtain ⟨c, behind, rfl, hc⟩ := hcs
  rw [List.append_assoc]
  exact hp.run_records_error hc.not_isWhitespace (hc.ne ']' (by decide)) h

end RecordText.Json

namespace RecordText

/-! ## Lists of records -/

theorem reports_number {p v s : String} {cause : Json.Cause} {unread offset : Nat}
    (hp : Json.AsksFor p.toList .value)
    (hv : ∃ c behind, v.toList = c :: behind ∧ Json.BeginsNumber c)
    (h : Json.value.run (v.toList ++ s.toList) = .error ⟨cause, unread⟩)
    (hoffset : offset + unread = Text.byteLength s.toList) :
    Reports (p ++ v ++ s) cause.kind cause.text (Text.byteLength (p ++ v).toList + offset) := by
  have hrun := hp.run_records_number hv h
  rw [← String.toList_append] at hrun
  exact reports_of_run_append hrun hoffset

/-- An integer is read whatever stands behind it, and every list that is read holds it. With some
texts behind it there is such a list. -/
theorem holds_integer {p v : String} {n : Int} {front : List Record}
    {k : Int64 → Json.Reader (List Record)} (hholds : Json.HoldsField Record.value front k)
    (hreads : Json.ReadsBehind p.toList Json.value k) (hv : Json.SpellsInteger v.toList n)
    (hlo : Int64.minValue.toInt ≤ n) (hhi : n ≤ Int64.maxValue.toInt) :
    ∃ x : Int64, x.toInt = n ∧
      (∀ s : String, Json.EndsNumber s.toList →
        Json.value.run (v ++ s).toList = .ok (x, s.toList) ∧
        Json.records.run (p ++ v ++ s).toList = (k x).run s.toList ∧
        ∀ rs, (load (p ++ v ++ s)).run.value = .ok rs →
          ∃ r behind, rs = front ++ r :: behind ∧ r.value = x) ∧
      ∃ s r, r.value = x ∧ (load (p ++ v ++ s)).run.value = .ok (front ++ [r]) := by
  have hx := Json.toInt_ofInt_of_mem ⟨hlo, hhi⟩
  rw [← hx] at hv
  have hrun : ∀ s : String, Json.EndsNumber s.toList →
      Json.records.run (p ++ v ++ s).toList = (k (Int64.ofInt n)).run s.toList := by
    intro s hs
    rw [String.append_assoc, String.toList_append, String.toList_append]
    exact hreads.run_integer hv hs
  refine ⟨Int64.ofInt n, hx, fun s hs => ⟨?_, hrun s hs, fun rs hload => ?_⟩, ?_⟩
  · rw [String.toList_append]
    exact Json.run_value Json.blank_nil hv hs
  · exact hholds.of_load (hrun s hs) hload
  · obtain ⟨close, hclose, hcompleted⟩ := hholds.completed
    obtain ⟨r, hr, hk⟩ := hcompleted (Int64.ofInt n)
    rw [← String.toList_ofList (l := close)] at hclose hk
    refine ⟨String.ofList close, r, hr, ?_⟩
    exact load_of_run ((hrun _ hclose).trans hk)

section

variable {p v s : String} {n : Int} (hp : Json.AsksFor p.toList .value)

include hp

theorem reports_outOfRange (hv : Json.SpellsInteger v.toList n) (hs : Json.EndsNumber s.toList)
    (hlo : Int64.maxValue.toInt < n) (hhi : n < UInt64.size) :
    Reports (p ++ v ++ s) .mismatched
      ("invalid value: integer `" ++ toString n ++ "`, expected i64")
      (Text.byteLength (p ++ v).toList) := by
  rw [← Json.text_outOfRange]
  exact reports_number hp hv.head (Json.run_value_outOfRange hv hlo hhi hs) (Nat.zero_add _)

theorem reports_beyond (hv : Json.SpellsInteger v.toList n) (hs : Json.EndsNumber s.toList)
    (hn : n < Int64.minValue.toInt ∨ UInt64.size ≤ n) :
    Reports (p ++ v ++ s) .malformed "number out of range" (Text.byteLength (p ++ v).toList) ∨
      ∃ x : Float, Reports (p ++ v ++ s) .mismatched
        ("invalid type: floating point `" ++ Decimal.floatText x ++ "`, expected i64")
        (Text.byteLength (p ++ v).toList) := by
  rcases Json.value_beyond hv hn hs with hlarge | ⟨x, hx⟩
  · exact .inl (reports_number hp hv.head hlarge (Nat.zero_add _))
  · refine .inr ⟨x, ?_⟩
    rw [← Json.text_float]
    exact reports_number hp hv.head hx (Nat.zero_add _)

theorem reports_leading_zero {z : String} (hz : z = "0" ∨ z = "-0")
    (hd : ∃ d ∈ s.toList.head?, d.isDigit) :
    Reports (p ++ z ++ s) .malformed "invalid number" (Text.byteLength (p ++ z).toList + 1) := by
  obtain ⟨d, hd, hdigit⟩ := hd
  obtain ⟨rest, hs⟩ := List.head?_eq_some_iff.mp hd
  have hzero : z.toList = ['0'] ∨ z.toList = ['-', '0'] := by
    rcases hz with rfl | rfl
    · exact .inl rfl
    · exact .inr rfl
  have hhead : ∃ c behind, z.toList = c :: behind ∧ Json.BeginsNumber c := by
    rcases hzero with hzero | hzero
    · exact ⟨'0', [], hzero, .inr rfl⟩
    · exact ⟨'-', ['0'], hzero, .inl rfl⟩
  have hrun : Json.value.run (z.toList ++ d :: rest) = _ :=
    Json.run_value_leading_zero hzero hdigit
  rw [← hs] at hrun
  refine reports_number hp hhead hrun ?_
  rw [hs, Text.byteLength_cons, Json.utf8Size_of_isDigit hdigit]

theorem reports_minus_zero (hs : Json.EndsNumber s.toList) :
    Reports (p ++ "-0" ++ s) .mismatched "invalid type: floating point `-0.0`, expected i64"
      (Text.byteLength (p ++ "-0").toList) := by
  have h0 : Decimal.floatText (-Float.ofNat 0) = "-0.0" := by decide +kernel
  have hreports := reports_number (v := "-0") hp ⟨'-', ['0'], rfl, .inl rfl⟩
    (Json.run_value_minus_zero hs) (Nat.zero_add _)
  rw [Json.text_float, h0] at hreports
  exact hreports

theorem load_marked (hv : Json.SpellsWhole v.toList)
    (hc : ∃ c ∈ s.toList.head?, c ∈ ['.', 'e', 'E']) :
    ∃ e, (load (p ++ v ++ s)).run.value = .error e := by
  obtain ⟨c, hc, hmark⟩ := hc
  obtain ⟨rest, hs⟩ := List.head?_eq_some_iff.mp hc
  obtain ⟨fault, hfault⟩ := Json.value_marked hv hmark rest
  rw [← hs] at hfault
  have hrun := hp.run_records_number hv.head hfault
  rw [← String.toList_append, ← String.toList_append] at hrun
  exact ⟨_, (refusedAt_of_run hrun).load_eq⟩

end

/-- An integer in the place of a value is read as itself and nothing behind it, if the value of a
record can hold it. Otherwise the list is refused directly behind it: with the integer, as long as
that has no more than 64 bits, and beyond that without any. A digit behind a leading zero is refused
itself. A zero with a sign is no value, and neither is anything with a fraction or an exponent. -/
theorem load_integer_values {p : String} (hp : Json.AsksFor p.toList .value) :
    (∃ (front : List Record) (k : Int64 → Json.Reader (List Record)),
      ∀ (v : String) (n : Int), Json.SpellsInteger v.toList n →
        Int64.minValue.toInt ≤ n → n ≤ Int64.maxValue.toInt →
        ∃ x : Int64, x.toInt = n ∧
          (∀ s : String, Json.EndsNumber s.toList →
            Json.value.run (v ++ s).toList = .ok (x, s.toList) ∧
            Json.records.run (p ++ v ++ s).toList = (k x).run s.toList ∧
            ∀ rs, (load (p ++ v ++ s)).run.value = .ok rs →
              ∃ r behind, rs = front ++ r :: behind ∧ r.value = x) ∧
          ∃ s r, r.value = x ∧ (load (p ++ v ++ s)).run.value = .ok (front ++ [r])) ∧
    (∀ (v s : String) (n : Int), Json.SpellsInteger v.toList n → Json.EndsNumber s.toList →
      (Int64.maxValue.toInt < n → n < UInt64.size →
        Reports (p ++ v ++ s) .mismatched
          ("invalid value: integer `" ++ toString n ++ "`, expected i64")
          (Text.byteLength (p ++ v).toList)) ∧
      (n < Int64.minValue.toInt ∨ UInt64.size ≤ n →
        Reports (p ++ v ++ s) .malformed "number out of range" (Text.byteLength (p ++ v).toList) ∨
          ∃ x : Float, Reports (p ++ v ++ s) .mismatched
            ("invalid type: floating point `" ++ Decimal.floatText x ++ "`, expected i64")
            (Text.byteLength (p ++ v).toList))) ∧
    (∀ z s : String, z = "0" ∨ z = "-0" → (∃ d ∈ s.toList.head?, d.isDigit) →
      Reports (p ++ z ++ s) .malformed "invalid number" (Text.byteLength (p ++ z).toList + 1)) ∧
    (∀ s : String, Json.EndsNumber s.toList →
      Reports (p ++ "-0" ++ s) .mismatched "invalid type: floating point `-0.0`, expected i64"
        (Text.byteLength (p ++ "-0").toList)) ∧
    ∀ v s : String, Json.SpellsWhole v.toList → (∃ c ∈ s.toList.head?, c ∈ ['.', 'e', 'E']) →
      ∃ e, (load (p ++ v ++ s)).run.value = .error e := by
  obtain ⟨front, k, hholds, hreads⟩ := hp.reads_value
  refine ⟨⟨front, k, fun v n hv hlo hhi => ?_⟩, fun v s n hv hs => ⟨?_, ?_⟩, fun z s => ?_,
    fun s => ?_, fun v s => ?_⟩
  · exact holds_integer hholds hreads hv hlo hhi
  · exact reports_outOfRange hp hv hs
  · exact reports_beyond hp hv hs
  · exact reports_leading_zero hp
  · exact reports_minus_zero hp
  · exact load_marked hp

/-- The least value of a record, the first integers on either side that are none, and zeros. -/
theorem load_integer_limits :
    (∃ x : Int64, x.toInt = -9223372036854775808 ∧
      Json.value.run ("-9223372036854775808" ++ "]]").toList = .ok (x, "]]".toList)) ∧
    Reports ("[[\"a\"," ++ "9223372036854775808" ++ "]]") .mismatched
      "invalid value: integer `9223372036854775808`, expected i64" 25 ∧
    (Reports ("[[\"a\"," ++ "-9223372036854775809" ++ "") .malformed "number out of range" 26 ∨
      ∃ x : Float, Reports ("[[\"a\"," ++ "-9223372036854775809" ++ "") .mismatched
        ("invalid type: floating point `" ++ Decimal.floatText x ++ "`, expected i64") 26) ∧
    Reports ("[[\"a\"," ++ "-0" ++ "7]]") .malformed "invalid number" 9 ∧
    Reports ("[[\"a\"," ++ "-0" ++ "]]") .mismatched
      "invalid type: floating point `-0.0`, expected i64" 8 ∧
    ∃ e, (load ("[[\"a\"," ++ "1" ++ "e2]]")).run.value = .error e := by
  have hp : Json.AsksFor "[[\"a\",".toList .value := .second
    (.list Json.blank_nil (.nil Json.blank_nil)) Json.blank_nil
    (Json.spellsString_writeString "a") Json.blank_nil Json.blank_nil
  have hbracket : Json.EndsNumber "]]".toList := Json.endsNumber_cons ']' (by decide) [']']
  have hspells : ∀ {v : String} {n : Int}, toString n = v → Json.SpellsInteger v.toList n := by
    rintro v n rfl
    exact Json.spellsInteger_toString n
  obtain ⟨⟨front, k, hexact⟩, hbeyond, hdigit, hzero, hmarked⟩ := load_integer_values hp
  refine ⟨?_, ?_, ?_, ?_, ?_, ?_⟩
  · obtain ⟨x, hx, hrun, -⟩ := hexact "-9223372036854775808" (-9223372036854775808)
      (hspells rfl) (by decide) (by decide)
    exact ⟨x, hx, (hrun "]]" hbracket).1⟩
  · exact (hbeyond "9223372036854775808" "]]" 9223372036854775808 (hspells rfl) hbracket).1
      (by decide) (by decide)
  · exact (hbeyond "-9223372036854775809" "" (-9223372036854775809) (hspells rfl)
      Json.endsNumber_nil).2 (.inl (by decide))
  · exact hdigit "-0" "7]]" (.inr rfl) ⟨'7', rfl, rfl⟩
  · exact hzero "]]" hbracket
  · exact hmarked "1" "e2]]" (.natural (.digits (by decide) (by decide) nofun))
      ⟨'e', rfl, by simp⟩

end RecordText
