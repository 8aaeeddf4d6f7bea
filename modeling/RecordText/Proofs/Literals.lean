import RecordText.Proofs.Grammar
import RecordText.Text.Utf8

/-!
# Inside and outside of string literals

A scan for quotes tells which characters of a text stand in string literals. A quote opens a
literal, and the next one that is not behind a backslash closes it. Nothing else is asked for, so
any text can be scanned, whether it is JSON or not.

* `Side`, `sides`: what the scan says of each character.
* `condense`: a text without the blanks outside of its literals.
* `Reblanked`, `reblanked_iff`: texts that differ only in which blanks stand outside of their
  literals, step by step with the scan and place by place.
-/

namespace RecordText.Json

/-- Where a character stands, as the scan sees it. -/
inductive Side
  | outside
  | inside
  /-- Inside of a literal, behind a backslash. -/
  | escaped
deriving DecidableEq

/-- Where the character behind this one stands. A backslash outside of literals says nothing. -/
def Side.next : Side → Char → Side
  | outside, c => if c = '"' then inside else outside
  | inside, c => if c = '"' then outside else if c = '\\' then escaped else inside
  | escaped, _ => inside

/-- The characters of a text, each with where it stands. -/
def sides : Side → List Char → List (Side × Char)
  | _, [] => []
  | s, c :: cs => (s, c) :: sides (s.next c) cs

/-- A blank outside of literals. -/
def Side.isFree : Side × Char → Bool
  | (outside, c) => c.isWhitespace
  | _ => false

/-- The text without the blanks outside of its literals. -/
def condense (cs : List Char) : List Char :=
  ((sides .outside cs).filter (! Side.isFree ·)).map Prod.snd

/-- Texts of the same length that differ only in that blanks stand for other blanks, outside of the
literals of the first. -/
inductive Reblanked : Side → List Char → List Char → Prop
  | nil (s : Side) : Reblanked s [] []
  | same {s : Side} {cs cs' : List Char} (c : Char) (h : Reblanked (s.next c) cs cs') :
      Reblanked s (c :: cs) (c :: cs')
  | blank {c c' : Char} {cs cs' : List Char} (hc : c.isWhitespace) (hc' : c'.isWhitespace)
      (h : Reblanked .outside cs cs') : Reblanked .outside (c :: cs) (c' :: cs')

/-! ## One character -/

theorem Side.next_outside {c : Char} (hc : c ≠ '"') : outside.next c = outside := if_neg hc

theorem Side.next_blank {c : Char} (hc : c.isWhitespace) : outside.next c = outside := by
  refine next_outside ?_
  rintro rfl
  cases hc

theorem Side.next_inside {c : Char} (hq : c ≠ '"') (hb : c ≠ '\\') : inside.next c = inside := by
  rw [next, if_neg hq, if_neg hb]

/-- A hexadecimal digit stands for itself in a literal. -/
theorem HexDigit.plain {c : Char} {n : Nat} (h : HexDigit c n) :
    ' ' ≤ c ∧ c ≠ '"' ∧ c ≠ '\\' := by
  obtain ⟨hn, rfl | rfl⟩ := h <;> revert n <;> decide

theorem SpellsUnit.plain {u : List Char} {n : Nat} (h : SpellsUnit u n) :
    ∀ c ∈ u, ' ' ≤ c ∧ c ≠ '"' ∧ c ≠ '\\' := by
  cases h with
  | digits ha hb hc hd =>
    simp only [List.forall_mem_cons]
    exact ⟨ha.plain, hb.plain, hc.plain, hd.plain, nofun⟩

theorem not_isDigit_of_isWhitespace {c : Char} (hc : c.isWhitespace) : ¬ c.isDigit := by
  rw [isWhitespace_iff] at hc
  simp only [List.mem_cons, List.not_mem_nil, or_false] at hc
  rcases hc with rfl | rfl | rfl | rfl <;> decide

theorem utf8Size_of_isWhitespace {c : Char} (hc : c.isWhitespace) : c.utf8Size = 1 := by
  rw [isWhitespace_iff] at hc
  simp only [List.mem_cons, List.not_mem_nil, or_false] at hc
  rcases hc with rfl | rfl | rfl | rfl <;> rfl

/-! ## Reblanked texts -/

/-- Place by place, either the characters are the same or one blank stands for the other. -/
theorem reblanked_iff {s : Side} {cs cs' : List Char} : Reblanked s cs cs' ↔
    cs.length = cs'.length ∧ ∀ p ∈ (sides s cs).zip cs',
      p.1.2 = p.2 ∨ Side.isFree p.1 ∧ p.2.isWhitespace := by
  constructor
  · intro h
    induction h with
    | nil => exact ⟨rfl, nofun⟩
    | same c _ ih => exact ⟨congrArg (· + 1) ih.1, List.forall_mem_cons.mpr ⟨.inl rfl, ih.2⟩⟩
    | blank hc hc' _ ih =>
      rw [sides, Side.next_blank hc]
      exact ⟨congrArg (· + 1) ih.1, List.forall_mem_cons.mpr ⟨.inr ⟨hc, hc'⟩, ih.2⟩⟩
  · rintro ⟨hlength, hplaces⟩
    induction cs generalizing s cs' with
    | nil =>
      rw [List.eq_nil_of_length_eq_zero hlength.symm]
      exact .nil s
    | cons c cs ih =>
      cases cs' with
      | nil => cases hlength
      | cons c' cs' =>
        obtain ⟨hc, hplaces⟩ := List.forall_mem_cons.mp hplaces
        have hrest := ih (Nat.succ.inj hlength) hplaces
        rcases hc with heq | ⟨hfree, hc'⟩
        · obtain rfl : c = c' := heq
          exact .same c hrest
        · cases s with
          | outside => exact .blank hfree hc' (Side.next_blank hfree ▸ hrest)
          | inside => cases hfree
          | escaped => cases hfree

instance decidableReblanked (s : Side) (cs cs' : List Char) : Decidable (Reblanked s cs cs') :=
  decidable_of_iff' _ reblanked_iff

namespace Reblanked

variable {s : Side} {cs cs' : List Char}

theorem refl (s : Side) (cs : List Char) : Reblanked s cs cs := by
  induction cs generalizing s with
  | nil => exact .nil s
  | cons c cs ih => exact .same c (ih _)

theorem symm (h : Reblanked s cs cs') : Reblanked s cs' cs := by
  induction h with
  | nil s => exact .nil s
  | same c _ ih => exact .same c ih
  | blank hc hc' _ ih => exact .blank hc' hc ih

theorem byteLength_eq (h : Reblanked s cs cs') : Text.byteLength cs = Text.byteLength cs' := by
  induction h with
  | nil => rfl
  | same c _ ih => rw [Text.byteLength_cons, Text.byteLength_cons, ih]
  | blank hc hc' _ ih =>
    rw [Text.byteLength_cons, Text.byteLength_cons, ih, utf8Size_of_isWhitespace hc,
      utf8Size_of_isWhitespace hc']

/-- Behind the blanks in front the two texts go on alike. -/
theorem dropWhile_blank (h : Reblanked .outside cs cs') :
    Reblanked .outside (cs.dropWhile Char.isWhitespace) (cs'.dropWhile Char.isWhitespace) := by
  induction cs generalizing cs' with
  | nil =>
    cases h
    exact .nil _
  | cons c cs ih =>
    cases h with
    | same _ h =>
      by_cases hc : c.isWhitespace
      · rw [List.dropWhile_cons_of_pos hc, List.dropWhile_cons_of_pos hc]
        exact ih (Side.next_blank hc ▸ h)
      · rw [List.dropWhile_cons_of_neg hc, List.dropWhile_cons_of_neg hc]
        exact .same c h
    | blank hc hc' h =>
      rw [List.dropWhile_cons_of_pos hc, List.dropWhile_cons_of_pos hc']
      exact ih h

/-- The two texts have the same digits in front. -/
theorem span_digits (h : Reblanked .outside cs cs') :
    cs.takeWhile Char.isDigit = cs'.takeWhile Char.isDigit ∧
      Reblanked .outside (cs.dropWhile Char.isDigit) (cs'.dropWhile Char.isDigit) := by
  induction cs generalizing cs' with
  | nil =>
    cases h
    exact ⟨rfl, .nil _⟩
  | cons c cs ih =>
    cases h with
    | same _ h =>
      by_cases hc : c.isDigit
      · have hquote : c ≠ '"' := by
          rintro rfl
          cases hc
        obtain ⟨ht, hd⟩ := ih (Side.next_outside hquote ▸ h)
        simp only [List.takeWhile_cons_of_pos hc, List.dropWhile_cons_of_pos hc, ht]
        exact ⟨trivial, hd⟩
      · simp only [List.takeWhile_cons_of_neg hc, List.dropWhile_cons_of_neg hc]
        exact ⟨trivial, .same c h⟩
    | blank hc hc' h =>
      simp only [List.takeWhile_cons_of_neg (not_isDigit_of_isWhitespace hc),
        List.takeWhile_cons_of_neg (not_isDigit_of_isWhitespace hc'),
        List.dropWhile_cons_of_neg (not_isDigit_of_isWhitespace hc),
        List.dropWhile_cons_of_neg (not_isDigit_of_isWhitespace hc')]
      exact ⟨trivial, .blank hc hc' h⟩

/-- Inside of a literal the texts are the same up to the next quote or backslash. -/
theorem append_inside {u rest : List Char} (hu : ∀ c ∈ u, c ≠ '"' ∧ c ≠ '\\')
    (h : Reblanked .inside (u ++ rest) cs') :
    ∃ rest', cs' = u ++ rest' ∧ Reblanked .inside rest rest' := by
  induction u generalizing cs' with
  | nil => exact ⟨cs', rfl, h⟩
  | cons c u ih =>
    obtain ⟨hc, hu⟩ := List.forall_mem_cons.mp hu
    cases h with
    | same _ h =>
      rw [Side.next_inside hc.1 hc.2] at h
      obtain ⟨rest', rfl, hrest⟩ := ih hu h
      exact ⟨rest', rfl, hrest⟩

end Reblanked

end RecordText.Json
