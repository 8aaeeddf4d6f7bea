import RecordText.Json.Number
import RecordText.Proofs.Runs

/-!
# What is read of an integer

A number ends where it cannot go on: in front of a character that is neither a digit nor the mark of
a fraction or an exponent. Up to there an integer of the grammar is read exactly as long as its
significand fits into 64 bits, and whatever is read as an integer is one of the grammar.

* `run_wholePart`, `wholePart_ok`: the digits in front of a point.
* `run_number_natural`, `run_number_negative`, `number_ok_integer`: whole numbers.
-/

namespace RecordText.Json

open Reader

/-! ## Digits -/

theorem Number.digit_eq_zero {c : Char} (hc : c.isDigit) : Number.digit c = 0 ↔ c = '0' := by
  have hd : 48 ≤ c.toNat ∧ c.toNat ≤ 57 := Char.isDigit_iff_toNat.mp hc
  have h0 : ('0' : Char).toNat = 48 := rfl
  simp only [Number.digit, ← Char.toNat_inj]
  omega

theorem ofDigitChars_cons_digit (c : Char) (cs : List Char) (n : Nat) :
    Nat.ofDigitChars 10 (c :: cs) n = Nat.ofDigitChars 10 cs (n * 10 + Number.digit c) := by
  rw [Nat.ofDigitChars_cons, Nat.mul_comm]
  rfl

theorem le_ofDigitChars (cs : List Char) (n : Nat) : n ≤ Nat.ofDigitChars 10 cs n := by
  induction cs generalizing n with
  | nil => simp
  | cons c cs ih =>
    rw [ofDigitChars_cons_digit]
    exact Nat.le_trans (by omega) (ih _)

theorem append_of_le {limit n : Nat} {cs : List Char} (h : Nat.ofDigitChars 10 cs n ≤ limit) :
    Number.append limit n cs = (Nat.ofDigitChars 10 cs n, []) := by
  induction cs generalizing n with
  | nil => simp [Number.append]
  | cons c cs ih =>
    rw [ofDigitChars_cons_digit] at h ⊢
    have hle := le_ofDigitChars cs (n * 10 + Number.digit c)
    rw [Number.append, if_pos (Nat.le_trans hle h), ih h]

theorem append_nothing_left {limit n : Nat} {cs : List Char}
    (h : (Number.append limit n cs).2 = []) :
    (Number.append limit n cs).1 = Nat.ofDigitChars 10 cs n := by
  induction cs generalizing n with
  | nil => simp [Number.append]
  | cons c cs ih =>
    rw [Number.append] at h ⊢
    split at h
    · rename_i hle
      rw [if_pos hle, ofDigitChars_cons_digit, ih h]
    · cases h

/-! ## Where a number ends -/

/-- The text does not go on with digits. -/
def NoDigit (rest : List Char) : Prop := ∀ c ∈ rest.head?, ¬ c.isDigit

/-- The text does not go on with any part of a number. -/
def EndsNumber (rest : List Char) : Prop :=
  ∀ c ∈ rest.head?, ¬ c.isDigit ∧ c ≠ '.' ∧ c ≠ 'e' ∧ c ≠ 'E'

theorem EndsNumber.noDigit {rest : List Char} (h : EndsNumber rest) : NoDigit rest :=
  fun c hc => (h c hc).1

theorem endsNumber_nil : EndsNumber [] := nofun

theorem endsNumber_cons (c : Char) (hc : ¬ c.isDigit ∧ c ≠ '.' ∧ c ≠ 'e' ∧ c ≠ 'E')
    (text : List Char) : EndsNumber (c :: text) := by
  intro d hd
  cases hd
  exact hc

/-- A number ends in front of blanks. -/
theorem endsNumber_append {w rest : List Char} (hw : Blank w) (hr : EndsNumber rest) :
    EndsNumber (w ++ rest) := by
  cases w with
  | nil => exact hr
  | cons c w =>
    have hc := hw c List.mem_cons_self
    simp only [List.mem_cons, List.not_mem_nil, or_false] at hc
    refine endsNumber_cons c ?_ (w ++ rest)
    rcases hc with rfl | rfl | rfl | rfl <;> decide

theorem takeWhile_digits {ds rest : List Char} (hds : ∀ c ∈ ds, c.isDigit) (hr : NoDigit rest) :
    (ds ++ rest).takeWhile Char.isDigit = ds := by
  rw [List.takeWhile_append_of_pos hds]
  cases rest with
  | nil => simp
  | cons c rest => rw [List.takeWhile_cons_of_neg (hr c rfl), List.append_nil]

theorem noDigit_dropWhile (text : List Char) : NoDigit (text.dropWhile Char.isDigit) := by
  intro c hc
  have hn := List.head?_dropWhile_not Char.isDigit text
  rw [Option.mem_def.mp hc] at hn
  simpa using hn

theorem noDigit_of_isEmpty {text : List Char} (h : (text.takeWhile Char.isDigit).isEmpty) :
    NoDigit text := by
  intro c hc hdigit
  cases text with
  | nil => cases hc
  | cons c' text =>
    cases hc
    simp [List.takeWhile_cons_of_pos hdigit] at h

theorem drop_takeWhile_digits (text : List Char) :
    text.drop (text.takeWhile Char.isDigit).length = text.dropWhile Char.isDigit := by
  conv => lhs; arg 2; rw [← List.takeWhile_append_dropWhile (p := Char.isDigit) (l := text)]
  exact List.drop_left

/-! ## The digits in front of the point -/

theorem run_wholePart_digit {d : Char} (hd : d.isDigit) (text : List Char) :
    wholePart.run (d :: text) =
      if Number.digit d = 0 then
        if (text.takeWhile Char.isDigit).isEmpty then .ok ((0, 0), text)
        else .error ⟨.malformed .number, Text.byteLength text - 1⟩
      else
        .ok (((Number.append Number.significandLimit (Number.digit d)
          (text.takeWhile Char.isDigit)).1, (Number.append Number.significandLimit
          (Number.digit d) (text.takeWhile Char.isDigit)).2.length),
          text.drop (text.takeWhile Char.isDigit).length) := by
  simp only [wholePart, firstDigit, run_bind, run_peek, List.head?_cons, if_pos hd, run_skip,
    List.tail_cons, run_pure, run_ahead]
  split
  · split <;> rfl
  · rfl

theorem run_wholePart {cs rest : List Char} {n : Nat} (h : SpellsNatural cs n)
    (hn : n ≤ Number.significandLimit) (hr : NoDigit rest) :
    wholePart.run (cs ++ rest) = .ok ((n, 0), rest) := by
  cases h with
  | zero =>
    have ht : ([] ++ rest).takeWhile Char.isDigit = [] := takeWhile_digits (by simp) hr
    rw [List.nil_append] at ht
    rw [List.cons_append, run_wholePart_digit (by decide), List.nil_append, ht]
    rfl
  | @digits d ds hd h0 hds =>
    rw [ofDigitChars_cons_digit, Nat.zero_mul, Nat.zero_add] at hn ⊢
    rw [List.cons_append, run_wholePart_digit hd, takeWhile_digits hds hr,
      if_neg (mt (Number.digit_eq_zero hd).mp h0), append_of_le hn, List.drop_left]
    rfl

theorem wholePart_ok {text rest : List Char} {m left : Nat}
    (h : wholePart.run text = .ok ((m, left), rest)) :
    ∃ cs n, SpellsNatural cs n ∧ text = cs ++ rest ∧ NoDigit rest ∧ (left = 0 → m = n) := by
  obtain ⟨_, _, hf, _⟩ := run_bind_ok_iff.mp h
  cases text with
  | nil => simp [firstDigit] at hf
  | cons d text =>
    by_cases hd : d.isDigit
    · rw [run_wholePart_digit hd] at h
      split at h
      · rename_i h0
        rw [Number.digit_eq_zero hd] at h0
        subst h0
        split at h
        · rename_i ht
          cases h
          exact ⟨['0'], 0, .zero, rfl, noDigit_of_isEmpty ht, fun _ => rfl⟩
        · cases h
      · rename_i h0
        rw [Number.digit_eq_zero hd] at h0
        cases h
        have hdrop := drop_takeWhile_digits text
        refine ⟨d :: text.takeWhile Char.isDigit, _,
          .digits hd h0 (List.all_eq_true.mp List.all_takeWhile), ?_, ?_, ?_⟩
        · rw [hdrop, List.cons_append, List.takeWhile_append_dropWhile]
        · rw [hdrop]
          exact noDigit_dropWhile text
        · intro hl
          rw [append_nothing_left (List.length_eq_zero_iff.mp hl), ofDigitChars_cons_digit,
            Nat.zero_mul, Nat.zero_add]
    · simp [firstDigit, hd] at hf

/-! ## Whole numbers -/

theorem run_accept (c : Char) (text : List Char) :
    (accept c).run text = if text.head? = some c then .ok (true, text.tail)
      else .ok (false, text) := by
  simp only [accept, run_bind, run_peek]
  split <;> simp

/-- Behind the digits of a whole number: they are its value if all of them fit. -/
theorem run_number_whole {negative : Bool} {text mid rest : List Char} {m left : Nat}
    (hs : (accept '-').run text = .ok (negative, mid))
    (hw : wholePart.run mid = .ok ((m, left), rest)) (hr : EndsNumber rest) :
    number.run text = if left = 0 then .ok (.ofDigits negative m, rest)
      else (scaled negative m left).run rest := by
  have hpoint : rest.head? ≠ some '.' := fun hc => (hr _ hc).2.1 rfl
  have he : rest.head? ≠ some 'e' := fun hc => (hr _ hc).2.2.1 rfl
  have hE : rest.head? ≠ some 'E' := fun hc => (hr _ hc).2.2.2 rfl
  simp only [number, run_bind, hs, hw, run_accept, if_neg hpoint, Bool.false_eq_true, if_false,
    run_pure, run_peek]
  by_cases hleft : left = 0
  · rw [if_pos hleft, hleft]
    rfl
  · rw [if_neg hleft, if_pos (by simp [hleft])]
    simp

theorem run_number_digits (negative : Bool) {text cs rest : List Char} {n : Nat}
    (hs : (accept '-').run text = .ok (negative, cs ++ rest)) (h : SpellsNatural cs n)
    (hn : n ≤ Number.significandLimit) (hr : EndsNumber rest) :
    number.run text = .ok (.ofDigits negative n, rest) :=
  run_number_whole hs (run_wholePart h hn hr.noDigit) hr

/-- Digits have no sign in front. -/
theorem SpellsNatural.run_accept_minus {cs : List Char} {n : Nat} (h : SpellsNatural cs n)
    (rest : List Char) : (accept '-').run (cs ++ rest) = .ok (false, cs ++ rest) := by
  obtain ⟨d, ds, rfl, hd⟩ := h.head
  rw [run_accept, if_neg]
  rintro hm
  cases hm
  cases hd

theorem run_number_natural {cs rest : List Char} {n : Nat} (h : SpellsNatural cs n)
    (hn : n ≤ Number.significandLimit) (hr : EndsNumber rest) :
    number.run (cs ++ rest) = .ok (.integer n, rest) :=
  run_number_digits false (h.run_accept_minus rest) h hn hr

theorem run_number_negative {cs rest : List Char} {n : Nat} (h : SpellsNatural cs n)
    (h0 : n ≠ 0) (hn : n ≤ Int64.minValue.toInt.natAbs) (hr : EndsNumber rest) :
    number.run ('-' :: (cs ++ rest)) = .ok (.integer (-n), rest) := by
  have hlimit : Int64.minValue.toInt.natAbs ≤ Number.significandLimit := by decide
  rw [run_number_digits true rfl h (Nat.le_trans hn hlimit) hr, Number.ofDigits,
    if_neg (by decide), if_pos ⟨h0, hn⟩]

theorem accept_ok {c : Char} {b : Bool} {text rest : List Char}
    (h : (accept c).run text = .ok (b, rest)) :
    (b = true ∧ text = c :: rest) ∨ (b = false ∧ text = rest ∧ rest.head? ≠ some c) := by
  rw [run_accept] at h
  split at h
  · rename_i hc
    cases h
    cases text with
    | nil => cases hc
    | cons d text =>
      cases hc
      exact .inl ⟨rfl, rfl⟩
  · rename_i hc
    cases h
    exact .inr ⟨rfl, rfl, hc⟩

theorem scaled_ne_integer {negative : Bool} {significand : Nat} {e : Int}
    {text rest : List Char} {n : Int} :
    (scaled negative significand e).run text ≠ .ok (.integer n, rest) := by
  intro h
  unfold scaled at h
  split at h <;> cases h

/-- With an exponent a number is no integer, whatever its value. -/
theorem exponent_ne_integer {negative : Bool} {significand : Nat} {shift : Int}
    {text rest : List Char} {n : Int} :
    Reader.run (do
      skip
      match ← exponent significand with
      | some n => scaled negative significand (shift + n)
      | none => return .float (Number.signed negative 0)) text ≠ .ok (.integer n, rest) := by
  intro h
  obtain ⟨_, _, _, h⟩ := run_bind_ok_iff.mp h
  obtain ⟨o, _, _, h⟩ := run_bind_ok_iff.mp h
  cases o with
  | some n => exact scaled_ne_integer h
  | none => cases h

/-- What the sign and the digits make of a whole number that is read as an integer. -/
theorem ofDigits_eq_integer {negative : Bool} {cs : List Char} {m : Nat} {n : Int}
    (hcs : SpellsNatural cs m) (h : Number.ofDigits negative m = .integer n) :
    SpellsInteger (if negative then '-' :: cs else cs) n := by
  unfold Number.ofDigits at h
  cases negative with
  | true =>
    rw [if_neg (by decide)] at h
    split at h
    · rename_i hm
      cases h
      exact .negative hcs hm.1
    · cases h
  | false =>
    cases h
    exact .natural hcs

theorem number_ok_integer {text rest : List Char} {n : Int}
    (h : number.run text = .ok (.integer n, rest)) :
    ∃ cs, SpellsInteger cs n ∧ text = cs ++ rest ∧ EndsNumber rest := by
  obtain ⟨negative, u, hs, h⟩ := run_bind_ok_iff.mp h
  obtain ⟨⟨m, left⟩, v, hw, h⟩ := run_bind_ok_iff.mp h
  obtain ⟨point, v', hp, h⟩ := run_bind_ok_iff.mp h
  obtain ⟨cs, k, hcs, hu, hd, hm⟩ := wholePart_ok hw
  rcases accept_ok hp with ⟨rfl, _⟩ | ⟨rfl, rfl, hpoint⟩
  · simp only [if_true] at h
    obtain ⟨p, _, _, h⟩ := run_bind_ok_iff.mp h
    simp only [run_bind, run_peek] at h
    split at h
    · exact absurd h exponent_ne_integer
    · exact absurd h exponent_ne_integer
    · simp only [Bool.true_or, if_true] at h
      exact absurd h scaled_ne_integer
  · simp only [Bool.false_eq_true, if_false, run_bind, run_pure, run_peek] at h
    split at h
    · exact absurd h exponent_ne_integer
    · exact absurd h exponent_ne_integer
    · rename_i he hE
      split at h
      · exact absurd h scaled_ne_integer
      · rename_i hleft
        simp only [Bool.false_or, decide_eq_true_eq, ne_eq, Decidable.not_not] at hleft
        simp only [run_pure, Except.ok.injEq, Prod.mk.injEq] at h
        obtain ⟨hx, rfl⟩ := h
        have hends : EndsNumber v := fun c hc => ⟨hd c hc, fun hp => hpoint (hp ▸ hc),
          fun hc' => he (hc' ▸ hc), fun hc' => hE (hc' ▸ hc)⟩
        rw [hm hleft] at hx
        refine ⟨_, ofDigits_eq_integer hcs hx, ?_, hends⟩
        rcases accept_ok hs with ⟨rfl, rfl⟩ | ⟨rfl, rfl, _⟩
        · rw [if_pos rfl, hu, List.cons_append]
        · rw [if_neg (by decide), hu]

end RecordText.Json
