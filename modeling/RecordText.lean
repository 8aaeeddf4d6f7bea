import RecordText.Label
import RecordText.Record.Inspect
import RecordText.Proofs.WellFormed
import RecordText.Proofs.Elements
import RecordText.Proofs.Layouts
import RecordText.Proofs.LoadingLog
import RecordText.Proofs.Fields
import RecordText.Proofs.WrongTypes
import RecordText.Proofs.Continuations
import RecordText.Proofs.IntegerValues
import RecordText.Proofs.CodeUnits
import RecordText.Proofs.Summaries
import RecordText.Proofs.Inspection
import RecordText.Proofs.ByteCounts
import RecordText.Proofs.FirstOccurrences
import RecordText.Proofs.HashBytes
