import RecordText.Json.StringLiteral
import RecordText.Proofs.Runs

/-!
# What is read of a string literal

The characters between the quotes are read one by one, each from the text that spells it. Both
directions are stated for every reader: from the grammar to the run (`run_...`), with any text
behind the construct, and from the run to the grammar (`..._ok`).

* `run_stringRest`, `stringRest_ok`: behind the opening quote exactly the string literals are read.
-/

namespace RecordText.Json

open Reader

/-! ## Code units -/

theorem toNat_digitChar_of_ge : ∀ n < 16, 10 ≤ n →
    (Nat.digitChar n).toNat = n + 87 ∧ (Nat.digitChar n).toUpper.toNat = n + 55 := by
  decide

theorem hexDigit?_of_hexDigit {c : Char} {n : Nat} (h : HexDigit c n) :
    Escape.hexDigit? c = some n := by
  have hall : ∀ n < 16, Escape.hexDigit? (Nat.digitChar n) = some n ∧
      Escape.hexDigit? (Nat.digitChar n).toUpper = some n := by decide
  obtain ⟨hn, rfl | rfl⟩ := h
  · exact (hall n hn).1
  · exact (hall n hn).2

theorem hexDigit_of_hexDigit? {c : Char} {n : Nat} (h : Escape.hexDigit? c = some n) :
    HexDigit c n := by
  unfold Escape.hexDigit? at h
  split at h
  · rename_i hd
    have hc : 48 ≤ c.toNat ∧ c.toNat ≤ 57 := Char.isDigit_iff_toNat.mp hd
    have hn : n = c.toNat - 48 := (Option.some.inj h).symm
    refine ⟨by omega, .inl (Char.toNat_inj.mp ?_)⟩
    rw [Nat.toNat_digitChar_of_lt_ten (by omega)]
    omega
  · split at h
    · rename_i hc
      have hc : 97 ≤ c.toNat ∧ c.toNat ≤ 102 := hc
      have hn : n = c.toNat - 97 + 10 := (Option.some.inj h).symm
      refine ⟨by omega, .inl (Char.toNat_inj.mp ?_)⟩
      rw [(toNat_digitChar_of_ge n (by omega) (by omega)).1]
      omega
    · split at h
      · rename_i hc
        have hc : 65 ≤ c.toNat ∧ c.toNat ≤ 70 := hc
        have hn : n = c.toNat - 65 + 10 := (Option.some.inj h).symm
        refine ⟨by omega, .inr (Char.toNat_inj.mp ?_)⟩
        rw [(toNat_digitChar_of_ge n (by omega) (by omega)).2]
        omega
      · cases h

theorem SpellsUnit.lt {u : List Char} {n : Nat} (h : SpellsUnit u n) : n < 0x10000 := by
  cases h with
  | digits ha hb hc hd =>
    have := ha.1
    have := hb.1
    have := hc.1
    have := hd.1
    omega

theorem codeUnit?_append {u : List Char} {n : Nat} (h : SpellsUnit u n) (rest : List Char) :
    Escape.codeUnit? (u ++ rest) = some n := by
  cases h with
  | digits ha hb hc hd =>
    simp only [Escape.codeUnit?, List.cons_append, hexDigit?_of_hexDigit ha,
      hexDigit?_of_hexDigit hb, hexDigit?_of_hexDigit hc, hexDigit?_of_hexDigit hd]
    simp
    omega

theorem codeUnit?_some {text : List Char} {n : Nat} (h : Escape.codeUnit? text = some n) :
    ∃ u, SpellsUnit u n ∧ text = u ++ text.drop 4 := by
  unfold Escape.codeUnit? at h
  split at h
  · rename_i a b c d rest
    simp only [Option.bind_eq_bind, Option.bind_eq_some_iff, Option.pure_def,
      Option.some.injEq] at h
    obtain ⟨i, hi, j, hj, k, hk, l, hl, rfl⟩ := h
    refine ⟨[a, b, c, d], ?_, rfl⟩
    have hu := SpellsUnit.digits (hexDigit_of_hexDigit? hi) (hexDigit_of_hexDigit? hj)
      (hexDigit_of_hexDigit? hk) (hexDigit_of_hexDigit? hl)
    rwa [show 4096 * i + 256 * j + 16 * k + l = ((i * 16 + j) * 16 + k) * 16 + l by omega] at hu
  · cases h

theorem run_codeUnit {u : List Char} {n : Nat} (h : SpellsUnit u n) (rest : List Char) :
    codeUnit.run (u ++ rest) = .ok (n, rest) := by
  simp only [codeUnit, run_bind, run_ahead, codeUnit?_append h]
  cases h with
  | digits => rfl

theorem codeUnit_ok {text rest : List Char} {n : Nat} (h : codeUnit.run text = .ok (n, rest)) :
    ∃ u, SpellsUnit u n ∧ text = u ++ rest := by
  simp only [codeUnit, run_bind, run_ahead] at h
  split at h
  · rename_i unit hu
    cases h
    exact codeUnit?_some hu
  · split at h <;> cases h

/-! ## Surrogates -/

theorem run_pairMark (c : Char) (rest : List Char) :
    (pairMark c).run (c :: rest) = .ok ((), rest) := by
  simp [pairMark]

theorem pairMark_ok {c : Char} {text rest : List Char}
    (h : (pairMark c).run text = .ok ((), rest)) : text = c :: rest := by
  cases text with
  | nil => simp [pairMark] at h
  | cons d text =>
    simp only [pairMark, run_bind, run_peek, List.head?_cons] at h
    split at h
    · rename_i hd
      simp only [run_skip, List.tail_cons] at h
      cases h
      rw [hd]
    · cases h

/-- The code points of characters, which leave out those of surrogates. -/
theorem toNat_lt_or (c : Char) : c.toNat < 0xD800 ∨ 0xDFFF < c.toNat ∧ c.toNat < 0x110000 :=
  c.valid

theorem toNat_ofNat {n : Nat} (h : n < 0xD800 ∨ 0xDFFF < n ∧ n < 0x110000) :
    (Char.ofNat n).toNat = n := by
  have hv : n.isValidChar := h
  rw [Char.ofNat, dif_pos hv]
  rfl

theorem run_escapedUnits_unit {u : List Char} {c : Char} (h : SpellsUnit u c.toNat)
    (rest : List Char) : escapedUnits.run (u ++ rest) = .ok (c, rest) := by
  have hc := toNat_lt_or c
  have hl : Escape.isLow c.toNat = false := by simp [Escape.isLow]; omega
  have hh : Escape.isHigh c.toNat = false := by simp [Escape.isHigh]; omega
  simp [escapedUnits, run_codeUnit h, hl, hh]

theorem run_escapedUnits_pair {u v : List Char} {high low : Nat} {c : Char}
    (hu : SpellsUnit u high) (hv : SpellsUnit v low) (hhigh : 0xD800 ≤ high ∧ high ≤ 0xDBFF)
    (hlow : 0xDC00 ≤ low ∧ low ≤ 0xDFFF)
    (hc : c.toNat = 0x10000 + (high - 0xD800) * 0x400 + (low - 0xDC00)) (rest : List Char) :
    escapedUnits.run (u ++ '\\' :: 'u' :: (v ++ rest)) = .ok (c, rest) := by
  have hl : Escape.isLow high = false := by simp [Escape.isLow]; omega
  have hh : Escape.isHigh high = true := by simp [Escape.isHigh]; omega
  have hl' : Escape.isLow low = true := by simp [Escape.isLow]; omega
  have hp : Escape.pair high low = c := by rw [Escape.pair, ← hc, Char.ofNat_toNat]
  simp [escapedUnits, run_codeUnit hu, run_codeUnit hv, run_pairMark, hl, hh, hl', hp]

theorem escapedUnits_ok {text rest : List Char} {c : Char}
    (h : escapedUnits.run text = .ok (c, rest)) :
    ∃ u, SpellsChar ('\\' :: 'u' :: u) c ∧ text = u ++ rest := by
  obtain ⟨unit, mid, hunit, h⟩ := run_bind_ok_iff.mp h
  obtain ⟨u, hu, htext⟩ := codeUnit_ok hunit
  have hlt := hu.lt
  split at h
  · cases h
  · rename_i hl
    split at h
    · rename_i hh
      obtain ⟨_, mid₁, hb, h⟩ := run_bind_ok_iff.mp h
      obtain ⟨_, mid₂, hm, h⟩ := run_bind_ok_iff.mp h
      obtain ⟨low, mid₃, hlow, h⟩ := run_bind_ok_iff.mp h
      obtain ⟨v, hv, htext'⟩ := codeUnit_ok hlow
      split at h
      · rename_i hl'
        simp only [run_pure, Except.ok.injEq, Prod.mk.injEq] at h
        obtain ⟨rfl, rfl⟩ := h
        simp only [Escape.isHigh, Escape.isLow, Bool.and_eq_true, decide_eq_true_eq] at hh hl'
        refine ⟨u ++ '\\' :: 'u' :: v, .pair hu hv hh hl' ?_, ?_⟩
        · rw [Escape.pair, toNat_ofNat (by omega)]
        · rw [htext, pairMark_ok hb, pairMark_ok hm, htext']
          simp
      · cases h
    · rename_i hh
      simp only [run_pure, Except.ok.injEq, Prod.mk.injEq] at h
      obtain ⟨rfl, rfl⟩ := h
      simp only [Escape.isHigh, Escape.isLow, Bool.and_eq_true, decide_eq_true_eq] at hh hl
      refine ⟨u, .unit ?_, htext⟩
      rwa [toNat_ofNat (by omega)]

/-! ## Characters -/

theorem ofLetter?_eq_some_iff {l c : Char} :
    Escape.ofLetter? l = some c ↔ (l, c) ∈ shortEscapes := by
  constructor
  · intro h
    unfold Escape.ofLetter? at h
    split at h <;> cases h <;> decide
  · intro h
    simp only [shortEscapes, List.mem_cons, Prod.mk.injEq, List.not_mem_nil, or_false] at h
    rcases h with ⟨rfl, rfl⟩ | ⟨rfl, rfl⟩ | ⟨rfl, rfl⟩ | ⟨rfl, rfl⟩ | ⟨rfl, rfl⟩ | ⟨rfl, rfl⟩ |
      ⟨rfl, rfl⟩ | ⟨rfl, rfl⟩ <;> rfl

theorem escaped_ok {text rest : List Char} {c : Char} (h : escaped.run text = .ok (c, rest)) :
    ∃ u, SpellsChar ('\\' :: u) c ∧ text = u ++ rest := by
  cases text with
  | nil => simp [escaped] at h
  | cons l text =>
    simp only [escaped, run_bind, run_peek, List.head?_cons] at h
    split at h
    · rename_i hl
      subst hl
      obtain ⟨u, hu, ht⟩ := escapedUnits_ok (by simpa using h)
      exact ⟨'u' :: u, hu, by simp [ht]⟩
    · split at h
      · rename_i d hd
        simp only [run_bind, run_skip, List.tail_cons, run_pure] at h
        cases h
        exact ⟨[l], .letter (ofLetter?_eq_some_iff.mp hd), rfl⟩
      · cases h

theorem run_stringChar_quote (rest : List Char) :
    stringChar.run ('"' :: rest) = .ok (none, rest) := by
  simp [stringChar]

theorem run_stringChar {u : List Char} {c : Char} (h : SpellsChar u c) (rest : List Char) :
    stringChar.run (u ++ rest) = .ok (some c, rest) := by
  cases h with
  | plain hc hq hb => simp [stringChar, hq, hb, Char.not_lt.mpr hc]
  | @letter l c h =>
    have hl := ofLetter?_eq_some_iff.mpr h
    have hu : l ≠ 'u' := by rintro rfl; cases hl
    simp [stringChar, escaped, hl, hu]
  | unit h => simp [stringChar, escaped, run_escapedUnits_unit h]
  | pair hu hv hhigh hlow hc =>
    simp [stringChar, escaped, run_escapedUnits_pair hu hv hhigh hlow hc]

theorem stringChar_ok_none {text rest : List Char}
    (h : stringChar.run text = .ok (none, rest)) : text = '"' :: rest := by
  cases text with
  | nil => simp [stringChar] at h
  | cons c text =>
    simp only [stringChar, run_bind, run_peek, List.head?_cons] at h
    split at h
    · rename_i hc
      cases h
      rw [hc]
      rfl
    · split at h
      · obtain ⟨_, _, _, h⟩ := run_bind_ok_iff.mp h
        obtain ⟨_, _, _, h⟩ := run_bind_ok_iff.mp h
        cases h
      · split at h <;> cases h

theorem stringChar_ok_some {text rest : List Char} {c : Char}
    (h : stringChar.run text = .ok (some c, rest)) : ∃ u, SpellsChar u c ∧ text = u ++ rest := by
  cases text with
  | nil => simp [stringChar] at h
  | cons d text =>
    simp only [stringChar, run_bind, run_peek, List.head?_cons] at h
    split at h
    · cases h
    · rename_i hq
      split at h
      · rename_i hb
        rw [run_skip_bind] at h
        obtain ⟨_, mid, he, h⟩ := run_bind_ok_iff.mp h
        cases h
        obtain ⟨u, hu, ht⟩ := escaped_ok he
        exact ⟨'\\' :: u, hu, by rw [hb, ht, List.cons_append]⟩
      · rename_i hb
        split at h
        · cases h
        · rename_i hc
          cases h
          exact ⟨[c], .plain (Char.not_lt.mp hc) hq hb, rfl⟩

/-! ## Strings -/

theorem run_stringRest {us : List Char} {s : String} (h : SpellsChars us s.toList)
    (rest : List Char) : stringRest.run (us ++ '"' :: rest) = .ok (s, rest) := by
  have hm : ∀ {us cs}, SpellsChars us cs →
      (many stringChar stringChar_advances).run (us ++ '"' :: rest) = .ok (cs, rest) := by
    intro us cs h
    induction h with
    | nil => exact run_many_none _ (run_stringChar_quote rest)
    | cons h hs ih =>
      rw [List.append_assoc]
      exact run_many_some _ (run_stringChar h _) ih
  simp [stringRest, hm h]

theorem stringRest_ok {text rest : List Char} {s : String}
    (h : stringRest.run text = .ok (s, rest)) :
    ∃ us, SpellsChars us s.toList ∧ text = us ++ '"' :: rest := by
  obtain ⟨cs, mid, hm, h⟩ := run_bind_ok_iff.mp h
  cases h
  rw [String.toList_ofList]
  refine many_ok (motive := fun text cs => ∃ us, SpellsChars us cs ∧ text = us ++ '"' :: rest)
    stringChar_advances ?_ ?_ hm
  · intro text hq
    exact ⟨[], .nil, stringChar_ok_none hq⟩
  · rintro text c mid cs hc ⟨us, hus, rfl⟩
    obtain ⟨u, hu, rfl⟩ := stringChar_ok_some hc
    exact ⟨u ++ us, .cons hu hus, by simp⟩

end RecordText.Json
