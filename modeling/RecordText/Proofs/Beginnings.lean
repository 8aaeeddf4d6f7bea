import RecordText.Json.Cause
import RecordText.Proofs.Grammar

/-!
# The grammar of beginnings

Texts that have come to a certain place of a list of records. All that stands in front of the place
can be read; nothing is said of what stands behind it.

* `AsksForRecord`: the next element of the list is asked for.
* `EndsInKey`: a key of an object in the list stands last.
* `EndsInObject`, `EndsInArray`, `EndsInSurplus`: an object or array in the list stands last that
  may lack a field, or an array that goes on behind the fields of a record.
* `AsksFor`: a value is asked for, and of which type. These are all the places where one is.
-/

namespace RecordText.Json

/-- Any number of parts of the same kind, with a comma behind each. -/
inductive SpellsLeading {α : Type} (P : List Char → α → Prop) : List Char → List α → Prop
  | nil {w : List Char} (hw : Blank w) : SpellsLeading P w []
  | cons {w w' cs ds : List Char} {a : α} {as : List α} (hw : Blank w) (h : P cs a)
      (hw' : Blank w') (hs : SpellsLeading P ds as) :
      SpellsLeading P (w ++ (cs ++ (w' ++ ',' :: ds))) (a :: as)

/-- A list of records is open, and behind each record in it stands a comma. -/
inductive AsksForRecord : List Char → Prop
  | list {w cs : List Char} {rs : List Record} (hw : Blank w)
      (h : SpellsLeading SpellsRecord cs rs) : AsksForRecord (w ++ '[' :: cs)

/-- A member that holds a field, whatever its value. -/
def SpellsField (cs : List Char) (f : Record.Field) : Prop := ∃ r, SpellsMember r cs f

/-- An object in the place of a record is open, and holds these fields and one more key. None of the
fields is there twice. -/
inductive EndsInKey : List Char → List Record.Field → String → Prop
  | object {p cs k : List Char} {fs : List Record.Field} {key : String} (hp : AsksForRecord p)
      (h : SpellsLeading SpellsField cs fs) (hfs : fs.Nodup) (hk : SpellsString k key) :
      EndsInKey (p ++ '{' :: (cs ++ k)) fs key

/-- An object in the place of a record stands last and holds these fields. None of them is there
twice. -/
inductive EndsInObject : List Char → List Record.Field → Prop
  | closed {p cs : List Char} {fs : List Record.Field} (hp : AsksForRecord p)
      (h : SpellsEnclosed '{' '}' SpellsField cs fs) (hfs : fs.Nodup) : EndsInObject (p ++ cs) fs

/-- An array in the place of a record stands last and holds these strings. -/
inductive EndsInArray : List Char → List String → Prop
  | closed {p cs : List Char} {ns : List String} (hp : AsksForRecord p)
      (h : SpellsEnclosed '[' ']' SpellsString cs ns) : EndsInArray (p ++ cs) ns

/-- An array in the place of a record is open and holds a name, a value and one more comma. -/
inductive EndsInSurplus : List Char → Prop
  | comma {p w₁ w₂ w₃ w₄ k n : List Char} {s : String} {v : Int64} (hp : AsksForRecord p)
      (hw₁ : Blank w₁) (hk : SpellsString k s) (hw₂ : Blank w₂) (hw₃ : Blank w₃)
      (hn : SpellsInteger n v.toInt) (hw₄ : Blank w₄) :
      EndsInSurplus (p ++ '[' :: (w₁ ++ (k ++ (w₂ ++ ',' :: (w₃ ++ (n ++ (w₄ ++ [','])))))))

/-- What a field has to hold. -/
def Expected.ofField : Record.Field → Expected
  | .name => .name
  | .value => .value

/-- A value of this type is asked for. -/
inductive AsksFor : List Char → Expected → Prop
  | list {w : List Char} (hw : Blank w) : AsksFor w .records
  | element {p : List Char} (hp : AsksForRecord p) : AsksFor p .record
  /-- The first element of an array in the place of a record. -/
  | first {p w : List Char} (hp : AsksForRecord p) (hw : Blank w) : AsksFor (p ++ '[' :: w) .name
  /-- The second element of such an array. -/
  | second {p w₁ w₂ w₃ k : List Char} {s : String} (hp : AsksForRecord p) (hw₁ : Blank w₁)
      (hk : SpellsString k s) (hw₂ : Blank w₂) (hw₃ : Blank w₃) :
      AsksFor (p ++ '[' :: (w₁ ++ (k ++ (w₂ ++ ',' :: w₃)))) .value
  /-- The value of a member that is not there yet. -/
  | member {p w w' : List Char} {fs : List Record.Field} {f : Record.Field}
      (hp : EndsInKey p fs f.key) (hf : f ∉ fs) (hw : Blank w) (hw' : Blank w') :
      AsksFor (p ++ (w ++ ':' :: w')) (.ofField f)

end RecordText.Json
