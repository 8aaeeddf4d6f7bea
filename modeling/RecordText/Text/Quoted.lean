import RecordText.Text.Printable

/-!
# Quoted text

A text between double quotes on one line, for programmers to read. Six characters are written as
a backslash and a letter; of the others those that can be seen stand as they are, and the rest is
written as its code point in braces.

Which characters can be seen is a parameter of `encode`; `quoted` takes it from `isPrintable`.
-/

namespace RecordText.Text.Quoted

/-- The letter that stands behind a backslash for this character. -/
def letter? : Char → Option Char
  | '\x00' => some '0'
  | '\t' => some 't'
  | '\n' => some 'n'
  | '\r' => some 'r'
  | '"' => some '"'
  | '\\' => some '\\'
  | _ => none

/-- A code point in lower-case hexadecimal digits without leading zeros. -/
def codePoint (c : Char) : List Char := Nat.toDigits 16 c.toNat

/-- How one character is written between the quotes. -/
def encodeChar (visible : Char → Bool) (c : Char) : List Char :=
  match letter? c with
  | some l => ['\\', l]
  | none => if visible c then [c] else ['\\', 'u', '{'] ++ codePoint c ++ ['}']

/-- A text in quotes. -/
def encode (visible : Char → Bool) (cs : List Char) : List Char :=
  '"' :: cs.flatMap (encodeChar visible) ++ ['"']

end Quoted

/-- A text in quotes, with every character that cannot be seen escaped. -/
def quoted (s : String) : String := String.ofList (Quoted.encode isPrintable s.toList)

end RecordText.Text
