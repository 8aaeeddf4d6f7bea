import RecordText.Json.Write
import RecordText.Proofs.StringLiterals

/-!
# What is written

Every text that is written for records is one of the grammar for the same records, in every layout.

* `spellsString_writeString`: any string has a literal, control characters included.
* `spellsInteger_toString`, `SpellsInteger.eq_toString`: the decimal of an integer is its only
  spelling.
* `spellsRecords_write`: any list of records, in any layout.
-/

namespace RecordText.Json

/-! ## Strings -/

theorem hexDigit_digitChar {n : Nat} (h : n < 16) : HexDigit (Nat.digitChar n) n :=
  ⟨h, .inl rfl⟩

theorem spellsUnit_hex {n : Nat} (h : n < 0x10000) : SpellsUnit (Escape.hex n) n := by
  have hu := SpellsUnit.digits
    (hexDigit_digitChar (n := n / 4096 % 16) (by omega))
    (hexDigit_digitChar (n := n / 256 % 16) (by omega))
    (hexDigit_digitChar (n := n / 16 % 16) (by omega))
    (hexDigit_digitChar (n := n % 16) (by omega))
  have hn : 4096 * (n / 4096 % 16) + 256 * (n / 256 % 16) + 16 * (n / 16 % 16) + n % 16 = n := by
    omega
  rwa [hn] at hu

theorem mem_shortEscapes_of_letter? {c l : Char} (h : Escape.letter? c = some l) :
    (l, c) ∈ shortEscapes :=
  ofLetter?_eq_some_iff.mp (Escape.ofLetter?_letter? h)

theorem spellsChar_writeChar (c : Char) : SpellsChar (writeChar c) c := by
  unfold writeChar
  split
  · rename_i l hl
    exact .letter (mem_shortEscapes_of_letter? hl)
  · rename_i hl
    split
    · rename_i hc
      have hlt : c.toNat < 32 := hc
      exact .unit (spellsUnit_hex (by omega))
    · rename_i hc
      refine .plain (Char.not_lt.mp hc) ?_ ?_
      · rintro rfl
        cases hl
      · rintro rfl
        cases hl

theorem spellsChars_flatMap (cs : List Char) : SpellsChars (cs.flatMap writeChar) cs := by
  induction cs with
  | nil => exact .nil
  | cons c cs ih =>
    rw [List.flatMap_cons]
    exact .cons (spellsChar_writeChar c) ih

theorem spellsString_writeString (s : String) : SpellsString (writeString s.toList) s :=
  .quoted (spellsChars_flatMap s.toList)

/-! ## Integers -/

/-- A further digit behind a number that is not zero. -/
theorem SpellsNatural.append {cs : List Char} {n : Nat} (h : SpellsNatural cs n) (h0 : n ≠ 0)
    {d : Nat} (hd : d < 10) : SpellsNatural (cs ++ [Nat.digitChar d]) (10 * n + d) := by
  cases h with
  | zero => exact absurd rfl h0
  | @digits c ds hc hc0 hds =>
    have hv : Nat.ofDigitChars 10 (c :: (ds ++ [Nat.digitChar d])) 0 =
        10 * Nat.ofDigitChars 10 (c :: ds) 0 + d := by
      rw [← List.cons_append, Nat.ofDigitChars_append,
        Nat.ofDigitChars_cons_digitChar_of_lt_ten hd, Nat.ofDigitChars_nil]
    rw [← hv, List.cons_append]
    refine .digits hc hc0 fun c' hc' => ?_
    rcases List.mem_append.mp hc' with hm | hm
    · exact hds c' hm
    · rw [List.mem_singleton.mp hm, Nat.isDigit_digitChar]
      exact decide_eq_true hd

theorem spellsNatural_digitChar {n : Nat} (h : n < 10) : SpellsNatural [Nat.digitChar n] n := by
  by_cases h0 : n = 0
  · subst h0
    exact .zero
  · have hd : (Nat.digitChar n).isDigit := by
      rw [Nat.isDigit_digitChar]
      exact decide_eq_true h
    have hs := SpellsNatural.digits hd (mt Nat.digitChar_eq_zero.mp h0)
      (fun c (hc : c ∈ []) => nomatch hc)
    rwa [Nat.ofDigitChars_cons_digitChar_of_lt_ten h, Nat.ofDigitChars_nil, Nat.mul_zero,
      Nat.zero_add] at hs

theorem spellsNatural_toDigits (n : Nat) : SpellsNatural (Nat.toDigits 10 n) n := by
  induction n using Nat.strongRecOn with
  | ind n ih =>
    by_cases hlt : n < 10
    · rw [Nat.toDigits_of_lt_base hlt]
      exact spellsNatural_digitChar hlt
    · rw [Nat.toDigits_of_base_le (by decide) (by omega)]
      have ha := (ih (n / 10) (by omega)).append (by omega) (Nat.mod_lt n (by decide : 0 < 10))
      rwa [Nat.div_add_mod] at ha

theorem spellsInteger_toString (n : Int) : SpellsInteger (toString n).toList n := by
  rw [Int.toString_eq_repr, Int.repr_eq_if]
  split
  · rename_i h
    have hs := SpellsInteger.natural (spellsNatural_toDigits n.toNat)
    rwa [Int.toNat_of_nonneg h, ← Nat.toList_repr] at hs
  · rename_i h
    have hs := SpellsInteger.negative (spellsNatural_toDigits (-n).toNat) (by omega)
    rw [Int.toNat_of_nonneg (by omega), Int.neg_neg, ← Nat.toList_repr] at hs
    rwa [String.toList_append]

theorem exists_digitChar {c : Char} (hc : c.isDigit) : ∃ d < 10, c = Nat.digitChar d := by
  have hrange : 48 ≤ c.toNat ∧ c.toNat ≤ 57 := Char.isDigit_iff_toNat.mp hc
  refine ⟨c.toNat - 48, by omega, Char.toNat_inj.mp ?_⟩
  rw [Nat.toNat_digitChar_of_lt_ten (by omega)]
  omega

/-- Digits behind a number stand behind the digits of that number. -/
theorem toDigits_ofDigitChars {n : Nat} {ds : List Char} (hn : n ≠ 0) (hds : ∀ c ∈ ds, c.isDigit) :
    Nat.toDigits 10 (Nat.ofDigitChars 10 ds n) = Nat.toDigits 10 n ++ ds := by
  induction ds generalizing n with
  | nil => rw [Nat.ofDigitChars_nil, List.append_nil]
  | cons c ds ih =>
    rw [List.forall_mem_cons] at hds
    obtain ⟨d, hd, rfl⟩ := exists_digitChar hds.1
    have hdiv : (10 * n + d) / 10 = n := by omega
    have hmod : (10 * n + d) % 10 = d := by omega
    rw [Nat.ofDigitChars_cons_digitChar_of_lt_ten hd, ih (by omega) hds.2,
      Nat.toDigits_of_base_le (by decide) (by omega), hdiv, hmod, List.append_assoc,
      List.singleton_append]

theorem SpellsNatural.eq_toDigits {cs : List Char} {n : Nat} (h : SpellsNatural cs n) :
    cs = Nat.toDigits 10 n := by
  cases h with
  | zero => rfl
  | @digits c ds hc h0 hds =>
    obtain ⟨d, hd, rfl⟩ := exists_digitChar hc
    have hd0 : d ≠ 0 := mt Nat.digitChar_eq_zero.mpr h0
    rw [Nat.ofDigitChars_cons_digitChar_of_lt_ten hd, Nat.mul_zero, Nat.zero_add,
      toDigits_ofDigitChars hd0 hds, Nat.toDigits_of_lt_base hd, List.singleton_append]

/-- Without leading zeros and without a sign on zero there is no second spelling. -/
theorem SpellsInteger.eq_toString {cs : List Char} {n : Int} (h : SpellsInteger cs n) :
    cs = (toString n).toList := by
  have hdecimal := spellsInteger_toString n
  generalize (toString n).toList = ds at hdecimal
  cases h with
  | @natural cs m h =>
    generalize hk : (m : Int) = k at hdecimal
    cases hdecimal with
    | natural h' => rw [h.eq_toDigits, h'.eq_toDigits, Int.ofNat_inj.mp hk]
    | negative h' h0 => omega
  | @negative cs m h h0 =>
    generalize hk : -(m : Int) = k at hdecimal
    cases hdecimal with
    | natural h' => omega
    | negative h' h0' => rw [h.eq_toDigits, h'.eq_toDigits, Int.ofNat_inj.mp (Int.neg_inj.mp hk)]

/-! ## Records -/

theorem Layout.blank_newline (l : Layout) (depth : Nat) : Blank (l.newline depth) :=
  blank_iff.mpr (List.all_eq_true.mp (l.newline_blank depth))

theorem Layout.blank_gap (l : Layout) : Blank l.gap :=
  blank_iff.mpr (List.all_eq_true.mp l.gap_blank)

theorem spellsRecord_writeRecord (l : Layout) (r : Record) :
    SpellsRecord (writeRecord l r) r := by
  have hn : SpellsMember r _ .name :=
    .name (spellsString_writeString Record.Field.name.key) blank_nil l.blank_gap
      (spellsString_writeString r.name)
  have hv : SpellsMember r _ .value :=
    .value (spellsString_writeString Record.Field.value.key) blank_nil l.blank_gap
      (spellsInteger_toString r.value.toInt)
  have hr := SpellsRecord.object (l.blank_newline 2) hn blank_nil (l.blank_newline 2) hv
    (l.blank_newline 1) nofun
  simpa [writeRecord, writeMember, Record.decimal] using hr

/-- The records behind the first one, each with its comma. -/
theorem spellsFurther_write (l : Layout) (rs : List Record) :
    SpellsFurther SpellsRecord
      (rs.flatMap fun r => ',' :: (l.newline 1 ++ writeRecord l r)) rs := by
  induction rs with
  | nil => exact .nil
  | cons r rs ih =>
    have hs := SpellsFurther.cons blank_nil (l.blank_newline 1) (spellsRecord_writeRecord l r) ih
    simpa using hs

theorem intercalate_comma (f : Record → List Char) (r : Record) (rs : List Record) :
    List.intercalate [','] ((r :: rs).map f) = f r ++ rs.flatMap fun s => ',' :: f s := by
  induction rs generalizing r with
  | nil => simp
  | cons s rs ih =>
    rw [List.map_cons, List.map_cons, List.intercalate_cons_cons, ← List.map_cons, ih]
    simp

theorem spellsRecords_write (l : Layout) (rs : List Record) :
    SpellsRecords (write l rs).toList rs := by
  have hs : SpellsEnclosed '[' ']' SpellsRecord (writeRecords l rs) rs := by
    cases rs with
    | nil => exact .empty blank_nil
    | cons r rs =>
      have hc : SpellsEnclosed '[' ']' SpellsRecord _ (r :: rs) := .cons (l.blank_newline 1)
        (spellsRecord_writeRecord l r) (spellsFurther_write l rs) (l.blank_newline 0)
      rw [writeRecords, intercalate_comma]
      simpa using hc
  rw [write, String.toList_ofList]
  have hb := SpellsRecords.list blank_nil hs blank_nil
  rwa [List.nil_append, List.append_nil] at hb

end RecordText.Json
