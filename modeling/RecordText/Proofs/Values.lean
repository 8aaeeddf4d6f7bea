import RecordText.Json.Value
import RecordText.Proofs.Integers
import RecordText.Proofs.StringLiterals

/-!
# What is read where a value is asked for

A value is looked at before it is accepted or refused. Here is what is seen of it: of a scalar its
text, of an array or object only the bracket.

* `run_name`, `name_ok`: exactly the string literals are read as names.
* `run_value`, `value_ok`: exactly the integers of 64 bits are read as values. They have to end
  where a number ends.
-/

namespace RecordText.Json

open Reader

/-! ## What is found -/

theorem run_found_blank {w : List Char} (hw : Blank w) (text : List Char) :
    found.run (w ++ text) = found.run text :=
  run_blanks_bind hw text

theorem run_found_string {cs : List Char} {s : String} (h : SpellsString cs s)
    (rest : List Char) : found.run (cs ++ rest) = .ok (.string s, rest) := by
  cases h with
  | quoted h =>
    have hs := run_stringRest h rest
    simp [found, Char.isWhitespace, hs]

theorem run_found_null (rest : List Char) :
    found.run ('n' :: 'u' :: 'l' :: 'l' :: rest) = .ok (.null, rest) := by
  simp [found, Char.isWhitespace, word]

theorem run_found_true (rest : List Char) :
    found.run ('t' :: 'r' :: 'u' :: 'e' :: rest) = .ok (.boolean true, rest) := by
  simp [found, Char.isWhitespace, word]

theorem run_found_false (rest : List Char) :
    found.run ('f' :: 'a' :: 'l' :: 's' :: 'e' :: rest) = .ok (.boolean false, rest) := by
  simp [found, Char.isWhitespace, word]

theorem run_found_list (rest : List Char) :
    found.run ('[' :: rest) = .ok (.list, '[' :: rest) := by
  simp [found, Char.isWhitespace]

theorem run_found_object (rest : List Char) :
    found.run ('{' :: rest) = .ok (.object, '{' :: rest) := by
  simp [found, Char.isWhitespace]

/-- The characters that a number may begin with. -/
def BeginsNumber (c : Char) : Prop := c = '-' ∨ c.isDigit

theorem BeginsNumber.ne {c : Char} (hc : BeginsNumber c) :
    ∀ d ∈ [' ', '\t', '\n', '\r', 'n', 't', 'f', '"', '[', '{', ']'], c ≠ d := by
  have hall : ∀ d ∈ [' ', '\t', '\n', '\r', 'n', 't', 'f', '"', '[', '{', ']'],
      ¬ (d = '-' ∨ d.isDigit) := by
    simp [Char.isDigit]
  rintro d hd rfl
  exact hall c hd hc

theorem BeginsNumber.not_isWhitespace {c : Char} (hc : BeginsNumber c) : ¬ c.isWhitespace := by
  rw [isWhitespace_iff]
  intro hm
  exact hc.ne c (List.mem_append_left _ hm) rfl

/-- What a number is found as. -/
def Number.found : Number → Found
  | .integer n => .integer n
  | .float x => .float x

/-- A character that a number may begin with begins nothing else. -/
theorem run_found_begins {c : Char} (hc : BeginsNumber c) (text : List Char) :
    found.run (c :: text) = (number >>= fun x => pure x.found).run (c :: text) := by
  have hb : (decide (c = '-') || c.isDigit) = true := by simpa [BeginsNumber] using hc
  have hne := hc.ne
  simp only [List.forall_mem_cons] at hne
  obtain ⟨_, _, _, _, hn, ht, hf, hq, hl, ho, _⟩ := hne
  simp only [Json.found, run_bind, run_blanks, List.dropWhile_cons_of_neg hc.not_isWhitespace,
    run_peek, List.head?_cons, if_neg hn, if_neg ht, if_neg hf, if_neg hq, if_neg hl, if_neg ho,
    if_pos hb]
  cases number.run (c :: text) with
  | error fault => rfl
  | ok p =>
    obtain ⟨x, rest⟩ := p
    cases x <;> rfl

theorem run_found_number {c : Char} (hc : BeginsNumber c) {text rest : List Char}
    {x : Number} (h : number.run (c :: text) = .ok (x, rest)) :
    found.run (c :: text) = .ok (x.found, rest) := by
  rw [run_found_begins hc, run_bind, h]
  rfl

/-- An integer of 64 bits, with or without sign. -/
theorem run_found_integer {cs rest : List Char} {n : Int} (h : SpellsInteger cs n)
    (hlo : Int64.minValue.toInt ≤ n) (hhi : n ≤ Number.significandLimit)
    (hr : EndsNumber rest) : found.run (cs ++ rest) = .ok (.integer n, rest) := by
  cases h with
  | natural h =>
    obtain ⟨d, ds, rfl, hd⟩ := h.head
    exact run_found_number (.inr hd) (run_number_natural h (by omega) hr)
  | negative h h0 => exact run_found_number (.inl rfl) (run_number_negative h h0 (by omega) hr)

/-- What the text says that was passed over to find this, and the text behind it. Of what is
accepted nowhere nothing is said. -/
def Shows : Found → List Char → List Char → Prop
  | .string s, cs, _ => SpellsString cs s
  | .integer n, cs, rest => SpellsInteger cs n ∧ EndsNumber rest
  | .list, cs, rest => cs = [] ∧ ∃ behind, rest = '[' :: behind
  | .object, cs, rest => cs = [] ∧ ∃ behind, rest = '{' :: behind
  | _, _, _ => True

theorem word_ok {cs text rest : List Char} {f f' : Found}
    (h : Reader.run (do word cs; return f) text = .ok (f', rest)) :
    f' = f ∧ ∃ ks, text = ks ++ rest := by
  obtain ⟨_, _, hr, hp⟩ := run_bind_ok_iff.mp h
  obtain ⟨ks, hks⟩ := (word cs).rest_suffix hr
  cases hp
  exact ⟨rfl, ks, hks.symm⟩

theorem found_ok {text rest : List Char} {f : Found} (h : found.run text = .ok (f, rest)) :
    ∃ w cs, Blank w ∧ text = w ++ (cs ++ rest) ∧ Shows f cs rest := by
  obtain ⟨w, c, behind, hw, -, rfl, hf⟩ := blanks_peek_ok h (fun _ _ => nofun)
  refine ⟨w, ?_⟩
  simp only at hf
  split at hf
  · obtain ⟨rfl, ks, ht⟩ := word_ok hf
    exact ⟨ks, hw, by rw [ht], trivial⟩
  split at hf
  · obtain ⟨rfl, ks, ht⟩ := word_ok hf
    exact ⟨ks, hw, by rw [ht], trivial⟩
  split at hf
  · obtain ⟨rfl, ks, ht⟩ := word_ok hf
    exact ⟨ks, hw, by rw [ht], trivial⟩
  split at hf
  · rename_i hc
    rw [run_skip_bind] at hf
    obtain ⟨s, _, hr, hp⟩ := run_bind_ok_iff.mp hf
    obtain ⟨us, hus, ht⟩ := stringRest_ok hr
    cases hp
    refine ⟨'"' :: (us ++ ['"']), hw, ?_, .quoted hus⟩
    rw [hc, ht]
    simp
  split at hf
  · rename_i hc
    cases hf
    exact ⟨[], hw, rfl, rfl, behind, by rw [hc]⟩
  split at hf
  · rename_i hc
    cases hf
    exact ⟨[], hw, rfl, rfl, behind, by rw [hc]⟩
  split at hf
  · obtain ⟨x, _, hr, hp⟩ := run_bind_ok_iff.mp hf
    cases x with
    | integer n =>
      cases hp
      obtain ⟨cs, hcs, ht, hends⟩ := number_ok_integer hr
      exact ⟨cs, hw, by rw [ht], hcs, hends⟩
    | float y =>
      cases hp
      obtain ⟨cs, hcs⟩ := number.rest_suffix hr
      exact ⟨cs, hw, by rw [hcs], trivial⟩
  · cases hf

/-! ## Names and values -/

theorem SpellsInteger.head {cs : List Char} {n : Int} (h : SpellsInteger cs n) :
    ∃ c behind, cs = c :: behind ∧ BeginsNumber c := by
  cases h with
  | natural h =>
    obtain ⟨d, ds, rfl, hd⟩ := h.head
    exact ⟨d, ds, rfl, .inr hd⟩
  | negative => exact ⟨'-', _, rfl, .inl rfl⟩

theorem run_name_blank {w : List Char} (hw : Blank w) (text : List Char) :
    name.run (w ++ text) = name.run text := by
  simp only [name, run_bind, run_found_blank hw]

theorem run_value_blank {w : List Char} (hw : Blank w) (text : List Char) :
    value.run (w ++ text) = value.run text := by
  simp only [value, run_bind, run_found_blank hw]

theorem run_name {w cs : List Char} {s : String} (hw : Blank w) (h : SpellsString cs s)
    (rest : List Char) : name.run (w ++ (cs ++ rest)) = .ok (s, rest) := by
  simp only [name, run_bind, run_found_blank hw, run_found_string h, run_pure]

theorem name_ok {text rest : List Char} {s : String} (h : name.run text = .ok (s, rest)) :
    ∃ w cs, Blank w ∧ SpellsString cs s ∧ text = w ++ (cs ++ rest) := by
  obtain ⟨f, mid, hf, h⟩ := run_bind_ok_iff.mp h
  obtain ⟨w, cs, hw, ht, hshows⟩ := found_ok hf
  split at h
  · cases h
    exact ⟨w, cs, hw, hshows, ht⟩
  · cases h

theorem toInt_ofInt_of_mem {n : Int} (hn : Int64.minValue.toInt ≤ n ∧ n ≤ Int64.maxValue.toInt) :
    (Int64.ofInt n).toInt = n :=
  Int64.toInt_ofInt_of_le hn.1 (Int.lt_of_le_of_lt hn.2 (by decide))

theorem run_value {w cs rest : List Char} {v : Int64} (hw : Blank w)
    (h : SpellsInteger cs v.toInt) (hr : EndsNumber rest) :
    value.run (w ++ (cs ++ rest)) = .ok (v, rest) := by
  have hlimit : Int64.maxValue.toInt ≤ Number.significandLimit := by decide
  have hf := run_found_integer h v.minValue_le_toInt (Int.le_trans v.toInt_le hlimit) hr
  have hv : Int64.minValue.toInt ≤ v.toInt ∧ v.toInt ≤ Int64.maxValue.toInt :=
    ⟨v.minValue_le_toInt, v.toInt_le⟩
  simp only [value, run_bind, run_found_blank hw, hf, if_pos hv, run_pure, Int64.ofInt_toInt]

theorem value_ok {text rest : List Char} {v : Int64} (h : value.run text = .ok (v, rest)) :
    ∃ w cs, Blank w ∧ SpellsInteger cs v.toInt ∧ EndsNumber rest ∧ text = w ++ (cs ++ rest) := by
  obtain ⟨f, mid, hf, h⟩ := run_bind_ok_iff.mp h
  obtain ⟨w, cs, hw, ht, hshows⟩ := found_ok hf
  split at h
  · rename_i n
    split at h
    · rename_i hn
      cases h
      obtain ⟨hcs, hends⟩ := hshows
      exact ⟨w, cs, hw, by rwa [toInt_ofInt_of_mem hn], hends, ht⟩
    · cases h
  · cases h

end RecordText.Json
