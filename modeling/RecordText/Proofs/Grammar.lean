import RecordText.Record

/-!
# The grammar of lists of records

Which texts hold records, and which records they hold, without a word on how a text is read. Every
relation here takes the whole text of a construct first and what it stands for second, and a text is
put together from the texts of its parts.

* `SpellsString`: a string literal. A character may be spelled in several ways, so that one string
  has many literals.
* `SpellsInteger`: an integer of any size in its only spelling, without leading zeros and without a
  sign on zero.
* `SpellsRecord`: a record as an array or as an object with its fields in either order. The keys are
  string literals like any other.
* `SpellsRecords`: a list of records, with blanks around it.
-/

namespace RecordText.Json

/-! ## Blanks -/

/-- Nothing but spaces, tabs, line feeds and carriage returns. -/
def Blank (cs : List Char) : Prop := ∀ c ∈ cs, c ∈ [' ', '\t', '\n', '\r']

theorem isWhitespace_iff {c : Char} : c.isWhitespace ↔ c ∈ [' ', '\t', '\n', '\r'] := by
  simp [Char.isWhitespace, or_assoc, or_comm, or_left_comm]

theorem blank_iff {cs : List Char} : Blank cs ↔ ∀ c ∈ cs, c.isWhitespace := by
  simp only [Blank, isWhitespace_iff]

@[simp] theorem blank_nil : Blank [] := by simp [Blank]

@[simp] theorem blank_cons {c : Char} {cs : List Char} :
    Blank (c :: cs) ↔ c.isWhitespace ∧ Blank cs := by
  simp only [blank_iff, List.forall_mem_cons]

@[simp] theorem blank_append {cs ds : List Char} : Blank (cs ++ ds) ↔ Blank cs ∧ Blank ds := by
  simp only [Blank, List.forall_mem_append]

/-! ## String literals -/

/-- A hexadecimal digit of either case. -/
def HexDigit (c : Char) (n : Nat) : Prop :=
  n < 16 ∧ (c = Nat.digitChar n ∨ c = (Nat.digitChar n).toUpper)

/-- A UTF-16 code unit in four hexadecimal digits. -/
inductive SpellsUnit : List Char → Nat → Prop
  | digits {a b c d : Char} {i j k l : Nat} (ha : HexDigit a i) (hb : HexDigit b j)
      (hc : HexDigit c k) (hd : HexDigit d l) :
      SpellsUnit [a, b, c, d] (4096 * i + 256 * j + 16 * k + l)

/-- The letters that may stand behind a backslash, each with the character it stands for. -/
def shortEscapes : List (Char × Char) :=
  [('"', '"'), ('\\', '\\'), ('/', '/'), ('b', '\x08'), ('f', '\x0c'), ('n', '\n'), ('r', '\r'),
    ('t', '\t')]

/-- One character of a string literal. -/
inductive SpellsChar : List Char → Char → Prop
  /-- The character itself. Control characters, quotes and backslashes have to be escaped. -/
  | plain {c : Char} (hc : ' ' ≤ c) (hq : c ≠ '"') (hb : c ≠ '\\') : SpellsChar [c] c
  | letter {l c : Char} (h : (l, c) ∈ shortEscapes) : SpellsChar ['\\', l] c
  /-- The code point as one unit. No character has the code point of a surrogate. -/
  | unit {u : List Char} {c : Char} (h : SpellsUnit u c.toNat) : SpellsChar ('\\' :: 'u' :: u) c
  /-- A surrogate pair. -/
  | pair {u v : List Char} {high low : Nat} {c : Char} (hu : SpellsUnit u high)
      (hv : SpellsUnit v low) (hhigh : 0xD800 ≤ high ∧ high ≤ 0xDBFF)
      (hlow : 0xDC00 ≤ low ∧ low ≤ 0xDFFF)
      (hc : c.toNat = 0x10000 + (high - 0xD800) * 0x400 + (low - 0xDC00)) :
      SpellsChar ('\\' :: 'u' :: (u ++ '\\' :: 'u' :: v)) c

/-- The characters between the quotes of a string literal. -/
inductive SpellsChars : List Char → List Char → Prop
  | nil : SpellsChars [] []
  | cons {u us cs : List Char} {c : Char} (h : SpellsChar u c) (hs : SpellsChars us cs) :
      SpellsChars (u ++ us) (c :: cs)

/-- A string literal. -/
inductive SpellsString : List Char → String → Prop
  | quoted {us : List Char} {s : String} (h : SpellsChars us s.toList) :
      SpellsString ('"' :: (us ++ ['"'])) s

theorem SpellsString.head {cs : List Char} {s : String} (h : SpellsString cs s) :
    ∃ behind, cs = '"' :: behind := by
  cases h with
  | quoted => exact ⟨_, rfl⟩

/-! ## Integers -/

/-- Decimal digits without a leading zero, save zero itself. -/
inductive SpellsNatural : List Char → Nat → Prop
  | zero : SpellsNatural ['0'] 0
  | digits {d : Char} {ds : List Char} (hd : d.isDigit) (h0 : d ≠ '0')
      (hds : ∀ c ∈ ds, c.isDigit) : SpellsNatural (d :: ds) (Nat.ofDigitChars 10 (d :: ds) 0)

theorem SpellsNatural.head {cs : List Char} {n : Nat} (h : SpellsNatural cs n) :
    ∃ d ds, cs = d :: ds ∧ d.isDigit := by
  cases h with
  | zero => exact ⟨'0', [], rfl, by decide⟩
  | digits hd => exact ⟨_, _, rfl, hd⟩

theorem SpellsNatural.isDigit {cs : List Char} {n : Nat} (h : SpellsNatural cs n) :
    ∀ c ∈ cs, c.isDigit := by
  cases h with
  | zero => exact List.forall_mem_singleton.mpr rfl
  | digits hd _ hds => exact List.forall_mem_cons.mpr ⟨hd, hds⟩

/-- An integer. Zero has no sign. -/
inductive SpellsInteger : List Char → Int → Prop
  | natural {cs : List Char} {n : Nat} (h : SpellsNatural cs n) : SpellsInteger cs n
  | negative {cs : List Char} {n : Nat} (h : SpellsNatural cs n) (h0 : n ≠ 0) :
      SpellsInteger ('-' :: cs) (-n)

/-! ## Constructs with parts -/

/-- More parts of the same kind, each behind a comma. -/
inductive SpellsFurther {α : Type} (P : List Char → α → Prop) : List Char → List α → Prop
  | nil : SpellsFurther P [] []
  | cons {w w' cs ds : List Char} {a : α} {as : List α} (hw : Blank w) (hw' : Blank w')
      (h : P cs a) (hs : SpellsFurther P ds as) :
      SpellsFurther P (w ++ ',' :: (w' ++ (cs ++ ds))) (a :: as)

/-- Any number of parts of the same kind between two brackets, with commas between them. -/
inductive SpellsEnclosed {α : Type} (opening closing : Char) (P : List Char → α → Prop) :
    List Char → List α → Prop
  | empty {w : List Char} (hw : Blank w) :
      SpellsEnclosed opening closing P (opening :: (w ++ [closing])) []
  | cons {w w' cs ds : List Char} {a : α} {as : List α} (hw : Blank w) (h : P cs a)
      (hs : SpellsFurther P ds as) (hw' : Blank w') :
      SpellsEnclosed opening closing P (opening :: (w ++ (cs ++ (ds ++ (w' ++ [closing])))))
        (a :: as)

theorem SpellsEnclosed.head {α : Type} {opening closing : Char} {P : List Char → α → Prop}
    {cs : List Char} {as : List α} (h : SpellsEnclosed opening closing P cs as) :
    ∃ behind, cs = opening :: behind := by
  cases h with
  | empty => exact ⟨_, rfl⟩
  | cons => exact ⟨_, rfl⟩

theorem SpellsEnclosed.last {α : Type} {opening closing : Char} {P : List Char → α → Prop}
    {cs : List Char} {as : List α} (h : SpellsEnclosed opening closing P cs as) :
    ∃ v, cs = v ++ [closing] := by
  cases h with
  | @empty w => exact ⟨opening :: w, rfl⟩
  | @cons w w' cs ds => exact ⟨opening :: (w ++ (cs ++ (ds ++ w'))), by simp⟩

/-! ## Records -/

/-- A field of a record as a member of an object. -/
inductive SpellsMember (r : Record) : List Char → Record.Field → Prop
  | name {k w w' v : List Char} (hk : SpellsString k "name") (hw : Blank w) (hw' : Blank w')
      (hv : SpellsString v r.name) : SpellsMember r (k ++ (w ++ ':' :: (w' ++ v))) .name
  | value {k w w' v : List Char} (hk : SpellsString k "value") (hw : Blank w) (hw' : Blank w')
      (hv : SpellsInteger v r.value.toInt) : SpellsMember r (k ++ (w ++ ':' :: (w' ++ v))) .value

/-- A record, as an array of name and value or as an object with one member for each field. -/
inductive SpellsRecord : List Char → Record → Prop
  | array {w₁ w₂ w₃ w₄ s n : List Char} {r : Record} (hw₁ : Blank w₁) (hs : SpellsString s r.name)
      (hw₂ : Blank w₂) (hw₃ : Blank w₃) (hn : SpellsInteger n r.value.toInt) (hw₄ : Blank w₄) :
      SpellsRecord ('[' :: (w₁ ++ (s ++ (w₂ ++ ',' :: (w₃ ++ (n ++ (w₄ ++ [']']))))))) r
  | object {w₁ w₂ w₃ w₄ m m' : List Char} {r : Record} {f f' : Record.Field} (hw₁ : Blank w₁)
      (hm : SpellsMember r m f) (hw₂ : Blank w₂) (hw₃ : Blank w₃) (hm' : SpellsMember r m' f')
      (hw₄ : Blank w₄) (hf : f ≠ f') :
      SpellsRecord ('{' :: (w₁ ++ (m ++ (w₂ ++ ',' :: (w₃ ++ (m' ++ (w₄ ++ ['}']))))))) r

theorem SpellsRecord.head {cs : List Char} {r : Record} (h : SpellsRecord cs r) :
    ∃ c behind, cs = c :: behind ∧ (c = '[' ∨ c = '{') := by
  cases h with
  | array => exact ⟨'[', _, rfl, .inl rfl⟩
  | object => exact ⟨'{', _, rfl, .inr rfl⟩

theorem SpellsRecord.last {cs : List Char} {r : Record} (h : SpellsRecord cs r) :
    ∃ v c, ¬ c.isWhitespace ∧ cs = v ++ [c] := by
  cases h with
  | @array w₁ w₂ w₃ w₄ s n =>
    refine ⟨'[' :: (w₁ ++ (s ++ (w₂ ++ ',' :: (w₃ ++ (n ++ w₄))))), ']', by decide, ?_⟩
    simp
  | @object w₁ w₂ w₃ w₄ m m' =>
    refine ⟨'{' :: (w₁ ++ (m ++ (w₂ ++ ',' :: (w₃ ++ (m' ++ w₄))))), '}', by decide, ?_⟩
    simp

/-- A list of records, with blanks around it. -/
inductive SpellsRecords : List Char → List Record → Prop
  | list {w w' cs : List Char} {rs : List Record} (hw : Blank w)
      (h : SpellsEnclosed '[' ']' SpellsRecord cs rs) (hw' : Blank w') :
      SpellsRecords (w ++ (cs ++ w')) rs

end RecordText.Json
