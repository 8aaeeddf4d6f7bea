import RecordText.Json.Fault
import RecordText.Proofs.Bytes

/-!
# Positions in texts that are put together

A byte offset is a line and a column, and both are told from the bytes in front of it alone. So text
put in front of another moves the positions in it: all of them by its line feeds, and those on the
first line by its last column as well.

* `count_lineFeed_utf8`: line feeds are counted in characters as in bytes.
* `ofOffset_append`: a text in front moves every position by as much as it says itself.
* `Fault.LiesIn`, `Fault.LiesIn.offset_append`: a fault lies in its text, so it is moved in the same
  way.
-/

namespace RecordText.Text

/-! ## Line feeds -/

theorem lineFeed_not_mem_utf8EncodeChar {c : Char} (hc : c ≠ '\n') :
    Position.lineFeed ∉ String.utf8EncodeChar c := by
  intro hm
  have hten : Position.lineFeed.toNat = 10 := rfl
  rcases toNat_of_mem_utf8EncodeChar hm with ⟨he, -⟩ | ⟨hle, -⟩
  · exact hc (Char.toNat_inj.mp (he.symm.trans hten))
  · omega

theorem count_lineFeed_utf8 (cs : List Char) :
    (utf8 cs).count Position.lineFeed = cs.count '\n' := by
  induction cs with
  | nil => rfl
  | cons c cs ih =>
    rw [utf8_cons, List.count_append, ih]
    by_cases hc : c = '\n'
    · subst hc
      rw [List.count_cons_self, Nat.add_comm]
      rfl
    · rw [List.count_cons_of_ne hc,
        List.count_eq_zero_of_not_mem (lineFeed_not_mem_utf8EncodeChar hc), Nat.zero_add]

/-! ## Positions -/

namespace Position

/-- Where this position is when the text `w` is put in front. -/
def movedBy (w : List Char) (p : Position) : Position where
  line := p.line + w.count '\n'
  column := if p.line = 1 then (ofOffset w (byteLength w)).column + p.column else p.column

theorem line_behind_append (as bs : List UInt8) :
    (behind (as ++ bs)).line = (behind bs).line + as.count lineFeed := by
  simp only [behind, List.count_append]
  omega

theorem line_behind_eq_one_iff {bs : List UInt8} :
    (behind bs).line = 1 ↔ ∀ b ∈ bs.reverse, b ≠ lineFeed := by
  simp only [behind, Nat.add_eq_left, List.count_eq_zero, List.mem_reverse]
  constructor
  · rintro h b hb rfl
    exact h hb
  · intro h hb
    exact h lineFeed hb rfl

theorem column_behind_append (as bs : List UInt8) :
    (behind (as ++ bs)).column =
      if (behind bs).line = 1 then (behind as).column + (behind bs).column
      else (behind bs).column := by
  split
  · rename_i hline
    have hbs : ∀ b ∈ bs.reverse, decide (b ≠ lineFeed) = true := by
      simpa using line_behind_eq_one_iff.mp hline
    have hself : (bs.reverse ++ []).takeWhile (· ≠ lineFeed) = bs.reverse ++ [] :=
      List.takeWhile_append_of_pos hbs
    rw [List.append_nil] at hself
    simp only [behind, List.reverse_append, List.takeWhile_append_of_pos hbs, hself,
      List.length_append]
    exact Nat.add_comm _ _
  · rename_i hline
    -- The last line feed of `bs` ends the line on which the column is counted.
    have hshort : (bs.reverse.takeWhile (· ≠ lineFeed)).length ≠ bs.reverse.length := by
      intro hlength
      have hall : (bs.reverse.takeWhile (· ≠ lineFeed)).all (· ≠ lineFeed) := List.all_takeWhile
      rw [(List.takeWhile_prefix (· ≠ lineFeed)).eq_of_length hlength] at hall
      exact hline (line_behind_eq_one_iff.mpr (by simpa using hall))
    simp only [behind, List.reverse_append, List.takeWhile_append, if_neg hshort]

theorem ofOffset_append (w text : List Char) (offset : Nat) :
    ofOffset (w ++ text) (byteLength w + offset) = (ofOffset text offset).movedBy w := by
  have htake : (utf8 (w ++ text)).take (byteLength w + offset) =
      utf8 w ++ (utf8 text).take offset := by
    rw [utf8_append, ← length_utf8, List.take_length_add_append]
  have hw : (utf8 w).take (byteLength w) = utf8 w := by
    rw [← length_utf8, List.take_length]
  have hline := line_behind_append (utf8 w) ((utf8 text).take offset)
  have hcolumn := column_behind_append (utf8 w) ((utf8 text).take offset)
  rw [count_lineFeed_utf8] at hline
  simp only [ofOffset, movedBy, htake, hw, ← hline, ← hcolumn]

end Position

end RecordText.Text

namespace RecordText.Json

/-- What is reported of a cause at a byte of a text. -/
def ReadError.atByte (text : String) (cause : Cause) (offset : Nat) : ReadError where
  cause := cause
  position := .ofOffset text.toList offset

/-! ## Faults -/

/-- A fault is not behind the end of its text, and at it if the text is unfinished. -/
structure Fault.LiesIn (fault : Fault) (text : List Char) : Prop where
  unread_le : fault.unread ≤ Text.byteLength text
  at_end : fault.cause.kind = .unfinished → fault.unread = 0

theorem Fault.LiesIn.mono {fault : Fault} {text rest : List Char} (h : fault.LiesIn rest)
    (hrest : rest <:+ text) : fault.LiesIn text := by
  refine ⟨Nat.le_trans h.unread_le ?_, h.at_end⟩
  obtain ⟨cs, rfl⟩ := hrest
  rw [Text.byteLength_append]
  exact Nat.le_add_left _ _

/-- A fault is as far from the end of the text as before when something is put in front. -/
theorem Fault.LiesIn.offset_append {fault : Fault} {text : List Char} (h : fault.LiesIn text)
    (w : List Char) : fault.offset (w ++ text) = Text.byteLength w + fault.offset text := by
  have hle := h.unread_le
  rw [offset, offset, Text.byteLength_append]
  omega

end RecordText.Json
