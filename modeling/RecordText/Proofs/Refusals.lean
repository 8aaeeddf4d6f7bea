import RecordText.Proofs.ReblankedRecords

/-!
# Where texts are refused

A refusal names a byte of the text: the end of a text that is unfinished, and none behind the end of
any other. Blanks in front of a text do not change why it is refused, and move the place by their
length.

* `read_behind_blanks`: a whole text with blanks in front of it.
* `load_behind_blanks`: what is said of the place, and how it moves.
-/

namespace RecordText.Json

open Reader

/-- Behind all blanks a text is read the same, or has the same fault. -/
theorem read_behind_blanks {α : Type} {r : Reader α} (hr : r.IgnoresBlanks)
    (hrun : ∀ w text, Blank w → r.run (w ++ text) = r.run text) (t : String) :
    (∃ a, ∀ w : String, Blank w.toList → read r (w ++ t) = .ok a) ∨
      ∃ fault : Fault, fault.LiesIn t.toList ∧ ∀ w : String, Blank w.toList →
        read r (w ++ t) = .error (fault.locate (w ++ t).toList) := by
  have hwhole : ∀ w : String, Blank w.toList →
      Reader.run (do let a ← r; ending; return a) (w ++ t).toList =
        Reader.run (do let a ← r; ending; return a) t.toList := by
    intro w hw
    rw [String.toList_append, run_bind, hrun _ _ hw, run_bind]
  -- What can be said of the faults of a text is said of the text and itself.
  rcases whole_ignoresBlanks hr _ _ (.refl .outside t.toList) with
    ⟨a, _, _, ha, -⟩ | ⟨fault, hf, -, hfault⟩
  · refine .inl ⟨a, fun w hw => ?_⟩
    simp only [read, hwhole w hw, ha]
  · refine .inr ⟨fault, hfault, fun w hw => ?_⟩
    simp only [read, hwhole w hw, hf]

end RecordText.Json

namespace RecordText

/-- The text is refused at this byte, which is its end if the text is unfinished. -/
structure RefusedAt (t : String) (cause : Json.Cause) (offset : Nat) : Prop where
  offset_le : offset ≤ Text.byteLength t.toList
  at_end : cause.kind = .unfinished → offset = Text.byteLength t.toList
  load_eq : (load t).run.value = .error ⟨.atByte t cause offset⟩

theorem refusedAt_of_fault {t : String} {fault : Json.Fault} (h : fault.LiesIn t.toList)
    (hread : Json.readRecords t = .error (fault.locate t.toList)) :
    RefusedAt t fault.cause (fault.offset t.toList) where
  offset_le := Nat.sub_le _ _
  at_end hkind := by rw [Json.Fault.offset, h.at_end hkind, Nat.sub_zero]
  load_eq := by
    rw [load_run_of_error hread]
    rfl

theorem refusedAt_of_run {t : String} {fault : Json.Fault}
    (h : Json.records.run t.toList = .error fault) :
    RefusedAt t fault.cause (fault.offset t.toList) := by
  obtain ⟨_, hread, rfl⟩ := Json.read_of_fails ⟨fault, h, rfl⟩
  exact refusedAt_of_fault (Json.records_ignoresBlanks.liesIn h) hread

/-- The text is refused at this byte, for a cause of this kind and with this description. -/
def Reports (t : String) (kind : Json.Kind) (description : String) (offset : Nat) : Prop :=
  ∃ cause, RefusedAt t cause offset ∧ cause.kind = kind ∧ cause.text = description

theorem reports_of_run {t : String} {cause : Json.Cause} {unread offset : Nat}
    (h : Json.records.run t.toList = .error ⟨cause, unread⟩)
    (hoffset : offset + unread = Text.byteLength t.toList) :
    Reports t cause.kind cause.text offset := by
  have hrefused := refusedAt_of_run h
  rw [Json.Fault.offset, ← hoffset, Nat.add_sub_cancel] at hrefused
  exact ⟨cause, hrefused, rfl, rfl⟩

/-- The offset into a text is the one behind its beginning `p`, and the length of that. -/
theorem reports_of_run_append {p s : String} {cause : Json.Cause} {unread offset : Nat}
    (h : Json.records.run (p.toList ++ s.toList) = .error ⟨cause, unread⟩)
    (hoffset : offset + unread = Text.byteLength s.toList) :
    Reports (p ++ s) cause.kind cause.text (Text.byteLength p.toList + offset) := by
  rw [← String.toList_append] at h
  refine reports_of_run h ?_
  rw [String.toList_append, Text.byteLength_append, Nat.add_assoc, hoffset]

theorem reports_behind {p s : String} {cause : Json.Cause}
    (h : Json.records.run (p.toList ++ s.toList) = .error ⟨cause, Text.byteLength s.toList⟩) :
    Reports (p ++ s) cause.kind cause.text (Text.byteLength p.toList) :=
  reports_of_run_append h (Nat.zero_add _)

/-- A text is loaded, behind all blanks as the same records. Or it is refused, behind blanks for the
same cause at the same byte of it: the line grows by the line feeds in the blanks, and on the first
line the column grows by their last column. -/
theorem load_behind_blanks (t : String) :
    (∃ rs, (load t).run.value = .ok rs ∧
        ∀ w : String, Json.Blank w.toList → (load (w ++ t)).run.value = .ok rs) ∨
      ∃ cause offset, RefusedAt t cause offset ∧
        (Json.ReadError.atByte t cause offset).message = cause.text ++
          " at line " ++ toString (1 + ((Text.utf8 t.toList).take offset).count 10) ++
          " column " ++ toString
            (((Text.utf8 t.toList).take offset).reverse.takeWhile (· ≠ 10)).length ∧
        ∀ w : String, Json.Blank w.toList →
          RefusedAt (w ++ t) cause (Text.byteLength w.toList + offset) ∧
          Text.Position.ofOffset (w ++ t).toList (Text.byteLength w.toList + offset) =
            (Text.Position.ofOffset t.toList offset).movedBy w.toList := by
  have hempty : "" ++ t = t := String.empty_append
  rcases Json.read_behind_blanks Json.records_ignoresBlanks
    (fun _ text hw => Json.run_records_blank hw text) t with ⟨rs, hr⟩ | ⟨fault, hfault, hr⟩
  · have ht := hr "" Json.blank_nil
    rw [hempty] at ht
    exact .inl ⟨rs, load_eq_ok_iff.mpr ht, fun w hw => load_eq_ok_iff.mpr (hr w hw)⟩
  · have ht := hr "" Json.blank_nil
    rw [hempty] at ht
    refine .inr ⟨_, _, refusedAt_of_fault hfault ht, rfl, fun w hw => ?_⟩
    rw [String.toList_append, Text.Position.ofOffset_append, ← hfault.offset_append,
      ← String.toList_append]
    refine ⟨refusedAt_of_fault (hfault.mono ?_) (hr w hw), rfl⟩
    rw [String.toList_append]
    exact List.suffix_append _ _

/-- The end of this text is moved to the second line, and there by one column. -/
theorem load_opening_behind_blanks :
    (load "[").run.value = .error ⟨⟨.unfinished .list, ⟨1, 1⟩⟩⟩ ∧
      (load ("\n " ++ "[")).run.value = .error ⟨⟨.unfinished .list, ⟨2, 2⟩⟩⟩ := by
  have hload : (load "[").run.value = .error ⟨⟨.unfinished .list, ⟨1, 1⟩⟩⟩ := rfl
  refine ⟨hload, ?_⟩
  rcases load_behind_blanks "[" with ⟨rs, h, -⟩ | ⟨cause, offset, h, -, hblank⟩
  · rw [hload] at h
    cases h
  · have heq := Except.error.inj (hload.symm.trans h.load_eq)
    have hcause : Json.Cause.unfinished .list = cause :=
      congrArg (fun e : LoadError => e.cause.cause) heq
    subst hcause
    rw [(hblank "\n " (by simp [Char.isWhitespace])).1.load_eq, h.at_end rfl]
    rfl

end RecordText
