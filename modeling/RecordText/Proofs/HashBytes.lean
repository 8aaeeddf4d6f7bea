import RecordText.Proofs.Bytes
import RecordText.Proofs.FirstOccurrences
import RecordText.Record.Hash

/-!
# Records from what a hasher takes in of them

No text contains the byte that ends a name, and a value always takes eight bytes. So a record can be
told from its bytes whatever a hasher takes in behind them, and going by these bytes keeps the same
first occurrences as going by the records.

* `lowBytes_inj`: numbers in a fixed number of bytes.
* `endOfText_not_mem_utf8`: texts.
* `hashBytes_append_inj`, `hashBytes_inj`: records, with other bytes behind them and alone.
* `firstPositions_hashBytes`: first occurrences in a list.
-/

namespace RecordText

/-! ## Numbers -/

theorem length_lowBytes (k n : Nat) : (lowBytes k n).length = k := by
  induction k generalizing n with
  | zero => rfl
  | succ k ih => rw [lowBytes, List.length_cons, ih]

theorem lowBytes_inj {k m n : Nat} (hm : m < 256 ^ k) (hn : n < 256 ^ k) :
    lowBytes k m = lowBytes k n ↔ m = n := by
  induction k generalizing m n with
  | zero => exact iff_of_true rfl (by omega)
  | succ k ih =>
    rw [Nat.pow_succ] at hm hn
    have hlow : UInt8.ofNat m = UInt8.ofNat n ↔ m % 256 = n % 256 := by
      rw [← UInt8.toNat_inj, UInt8.toNat_ofNat', UInt8.toNat_ofNat']
    rw [lowBytes, lowBytes, List.cons.injEq, hlow, ih (by omega) (by omega)]
    omega

/-! ## Texts -/

theorem endOfText_not_mem_utf8 (cs : List Char) : endOfText ∉ Text.utf8 cs := by
  intro hm
  obtain ⟨c, -, hb⟩ := List.mem_flatMap.mp hm
  have htop : endOfText.toNat = 255 := rfl
  have hbytes := Text.toNat_of_mem_utf8EncodeChar hb
  omega

/-! ## Records -/

namespace Record

/-- The bytes of the name are those in front of the first byte that ends a text. -/
theorem takeWhile_hashBytes (r : Record) (xs : List UInt8) :
    (r.hashBytes ++ xs).takeWhile (· ≠ endOfText) = Text.utf8 r.name.toList := by
  have hname : ∀ b ∈ Text.utf8 r.name.toList, decide (b ≠ endOfText) := by
    intro b hb
    refine decide_eq_true ?_
    rintro rfl
    exact endOfText_not_mem_utf8 _ hb
  rw [hashBytes, List.append_assoc, List.cons_append, List.takeWhile_append_of_pos hname,
    List.takeWhile_cons_of_neg (by simp), List.append_nil]

/-- A record can be told from its bytes, whatever a hasher takes in behind them. -/
theorem hashBytes_append_inj {a b : Record} {xs ys : List UInt8} :
    a.hashBytes ++ xs = b.hashBytes ++ ys ↔ a = b ∧ xs = ys := by
  constructor
  · intro h
    have hutf8 : Text.utf8 a.name.toList = Text.utf8 b.name.toList := by
      rw [← takeWhile_hashBytes a xs, h, takeWhile_hashBytes]
    have hname : a.name = b.name := String.toList_inj.mp (Text.utf8_inj.mp hutf8)
    rw [hashBytes, hashBytes, hutf8, List.append_assoc, List.append_assoc] at h
    have hbehind := (List.cons.inj (List.append_cancel_left h)).2
    have hlength : (lowBytes 8 a.value.toBitVec.toNat).length =
        (lowBytes 8 b.value.toBitVec.toNat).length := by
      rw [length_lowBytes, length_lowBytes]
    obtain ⟨hbytes, hrest⟩ := List.append_inj hbehind hlength
    have hvalue : a.value = b.value := by
      have hnat := (lowBytes_inj a.value.toBitVec.isLt b.value.toBitVec.isLt).mp hbytes
      exact Int64.toBitVec_inj.mp (BitVec.toNat_inj.mp hnat)
    exact ⟨congrArg₂ Record.mk hname hvalue, hrest⟩
  · rintro ⟨rfl, rfl⟩
    rfl

example : hashBytes ⟨"a", 258⟩ = [97, 255, 2, 1, 0, 0, 0, 0, 0, 0] := rfl

/-- Records hash alike under every hasher only if they are the same. -/
theorem hashBytes_inj {a b : Record} : a.hashBytes = b.hashBytes ↔ a = b := by
  have h : a.hashBytes ++ [] = b.hashBytes ++ [] ↔ a = b ∧ [] = [] := hashBytes_append_inj
  simpa using h

/-- Whether a record has been seen can be told by its bytes. -/
theorem firstPositions_hashBytes (rs : List Record) :
    firstPositions (rs.map hashBytes) = firstPositions rs :=
  firstPositions_map hashBytes_inj rs

end Record

end RecordText
