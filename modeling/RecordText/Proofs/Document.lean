import RecordText.Proofs.Grammar

/-!
# The grammar of JSON documents

Which texts are JSON, whether they hold records or not. Numbers are only those without fraction and
exponent that fit into 64 bits, with or without sign; escapes of surrogates stand in pairs, as in
every string literal here.

* `SpellsTree`: a value of any type, with values of any type in it.
* `IsDocument`: a value with blanks around it.
* `Overlong`: a list in which, behind any number of records, an array begins like a record and goes
  on.
-/

namespace RecordText.Json

/-- A JSON value. Zero with a sign stands for itself, because it is not read as an integer. -/
inductive Tree
  | null
  | boolean (b : Bool)
  | integer (n : Int)
  | minusZero
  | string (s : String)
  | array (elements : List Tree)
  | object (members : List (String × Tree))

/-- A member of an object. -/
inductive SpellsPair {α : Type} (P : List Char → α → Prop) : List Char → String × α → Prop
  | pair {k w w' cs : List Char} {key : String} {a : α} (hk : SpellsString k key) (hw : Blank w)
      (hw' : Blank w') (h : P cs a) : SpellsPair P (k ++ (w ++ ':' :: (w' ++ cs))) (key, a)

/-- A JSON value of any type. -/
inductive SpellsTree : List Char → Tree → Prop
  | null : SpellsTree ['n', 'u', 'l', 'l'] .null
  | true : SpellsTree ['t', 'r', 'u', 'e'] (.boolean true)
  | false : SpellsTree ['f', 'a', 'l', 's', 'e'] (.boolean false)
  | integer {cs : List Char} {n : Int} (h : SpellsInteger cs n)
      (hlo : Int64.minValue.toInt ≤ n) (hhi : n < UInt64.size) :
      SpellsTree cs (.integer n)
  | minusZero : SpellsTree ['-', '0'] .minusZero
  | string {cs : List Char} {s : String} (h : SpellsString cs s) : SpellsTree cs (.string s)
  | array {cs : List Char} {ts : List Tree} (h : SpellsEnclosed '[' ']' SpellsTree cs ts) :
      SpellsTree cs (.array ts)
  | object {cs : List Char} {ms : List (String × Tree)}
      (h : SpellsEnclosed '{' '}' (SpellsPair SpellsTree) cs ms) : SpellsTree cs (.object ms)

/-- A JSON document. -/
inductive IsDocument : List Char → Prop
  | blanks {w cs w' : List Char} {t : Tree} (hw : Blank w) (h : SpellsTree cs t)
      (hw' : Blank w') : IsDocument (w ++ (cs ++ w'))

/-! ## Arrays that are longer than records -/

/-- An array of at least three elements that begins with a string and an integer of 64 bits. -/
def Tree.BeginsLikeRecord (t : Tree) : Prop :=
  ∃ s n third more, t = .array (.string s :: .integer n :: third :: more) ∧
    Int64.minValue.toInt ≤ n ∧ n ≤ Int64.maxValue.toInt

/-- An element of a list together with its text. -/
structure Element where
  text : List Char
  tree : Tree

/-- An element with the text that is given. -/
def SpellsElement (cs : List Char) (e : Element) : Prop := e.text = cs ∧ SpellsTree cs e.tree

/-- Whether an element is a record. -/
def Element.Readable (e : Element) : Prop := ∃ r, SpellsRecord e.text r

/-- The first element that is no record begins like one. -/
def FirstBeginsLikeRecord (es : List Element) : Prop :=
  ∃ before x after, es = before ++ x :: after ∧ (∀ e ∈ before, e.Readable) ∧ ¬ x.Readable ∧
    x.tree.BeginsLikeRecord

/-- A list whose first element that is no record begins like one. -/
inductive Overlong : List Char → Prop
  | list {w cs w' : List Char} {es : List Element} (hw : Blank w)
      (h : SpellsEnclosed '[' ']' SpellsElement cs es) (hw' : Blank w')
      (hes : FirstBeginsLikeRecord es) : Overlong (w ++ (cs ++ w'))

/-! ## Elements with their texts -/

theorem SpellsFurther.elements {cs : List Char} {ts : List Tree}
    (h : SpellsFurther SpellsTree cs ts) : ∃ es, SpellsFurther SpellsElement cs es := by
  induction h with
  | nil => exact ⟨[], .nil⟩
  | @cons w w' cs ds t ts hw hw' h hs ih =>
    obtain ⟨es, hes⟩ := ih
    exact ⟨⟨cs, t⟩ :: es, .cons hw hw' ⟨rfl, h⟩ hes⟩

theorem SpellsEnclosed.elements {opening closing : Char} {cs : List Char} {ts : List Tree}
    (h : SpellsEnclosed opening closing SpellsTree cs ts) :
    ∃ es, SpellsEnclosed opening closing SpellsElement cs es := by
  cases h with
  | empty hw => exact ⟨[], .empty hw⟩
  | @cons w w' cs ds t ts hw h hs hw' =>
    obtain ⟨es, hes⟩ := hs.elements
    exact ⟨⟨cs, t⟩ :: es, .cons hw ⟨rfl, h⟩ hes hw'⟩

end RecordText.Json
