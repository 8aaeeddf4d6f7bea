import RecordText.Log

/-!
# Labelled values

A value is shown behind a label, whatever its text; a value without text is shown as a
placeholder instead.
-/

namespace RecordText

/-- Stands for a value without text. -/
def placeholder : String := "empty"

/-- Stands in front of a value. -/
def valueLabel : String := "value: "

/-- How a value is shown. -/
def labelled (value : String) : String :=
  if value.isEmpty then placeholder else valueLabel ++ value

/-- Labels a value and reports its size in bytes. -/
def label (value : String) : Logged String := do
  Logged.report (.labelling value.utf8ByteSize)
  return labelled value

end RecordText
