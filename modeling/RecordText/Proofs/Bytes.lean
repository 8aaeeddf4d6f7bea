import Mathlib.Data.String.Basic
import RecordText.Text.Utf8

/-!
# The bytes of a text

A character of one byte is this byte, and all bytes of longer characters lie above those, but never
at the very top. So a byte that stands for a character of its own is found in the bytes of a text
where this character stands, and a byte at the top is found in no text at all.

* `byteLength_append`, `byteLength_toList`: byte lengths add up, and they are those of strings.
* `length_utf8`: `byteLength` is the number of bytes of `utf8`.
* `utf8_inj`: the bytes tell the text.
* `toNat_of_mem_utf8EncodeChar`: the bytes of a character.
-/

namespace RecordText.Text

/-! ## Byte lengths -/

theorem byteLength_eq_utf8Len (cs : List Char) : byteLength cs = String.utf8Len cs := by
  induction cs with
  | nil => rfl
  | cons c cs ih => rw [byteLength_cons, String.utf8Len_cons, ih, Nat.add_comm]

@[simp] theorem byteLength_append (cs ds : List Char) :
    byteLength (cs ++ ds) = byteLength cs + byteLength ds := by
  simp only [byteLength_eq_utf8Len, String.utf8Len_append]

theorem byteLength_toList (s : String) : byteLength s.toList = s.utf8ByteSize := by
  rw [byteLength_eq_utf8Len, String.utf8Len_toList]

/-! ## The bytes themselves -/

theorem utf8_append (cs ds : List Char) : utf8 (cs ++ ds) = utf8 cs ++ utf8 ds :=
  List.flatMap_append

theorem utf8_cons (c : Char) (cs : List Char) :
    utf8 (c :: cs) = String.utf8EncodeChar c ++ utf8 cs :=
  List.flatMap_cons

theorem length_utf8 (cs : List Char) : (utf8 cs).length = byteLength cs := by
  induction cs with
  | nil => rfl
  | cons c cs ih =>
    rw [utf8_cons, List.length_append, String.length_utf8EncodeChar, ih, byteLength_cons]

theorem utf8_inj {cs ds : List Char} : utf8 cs = utf8 ds ↔ cs = ds := by
  constructor
  · intro h
    have hbytes : cs.utf8Encode = ds.utf8Encode := congrArg List.toByteArray h
    rw [← String.toByteArray_ofList, ← String.toByteArray_ofList, String.toByteArray_inj] at hbytes
    exact String.ofList_inj.mp hbytes
  · rintro rfl
    rfl

/-! ## The bytes of a character -/

/-- A byte of a character is the character itself or one of those that longer characters have. -/
theorem toNat_of_mem_utf8EncodeChar {c : Char} {b : UInt8} (h : b ∈ String.utf8EncodeChar c) :
    b.toNat = c.toNat ∧ c.toNat < 128 ∨ 128 ≤ b.toNat ∧ b.toNat < 248 := by
  have hlt : c.val.toNat < 1114112 := by
    rcases c.valid with h | h <;> omega
  unfold String.utf8EncodeChar at h
  simp only at h
  -- By the number of bytes. Only the first byte of the longest characters depends on `hlt`.
  split at h
  · rename_i hc
    rw [List.mem_singleton.mp h, UInt8.toNat_ofNat']
    exact .inl ⟨Nat.mod_eq_of_lt (by omega), Nat.lt_succ_of_le hc⟩
  · right
    split at h
    · simp only [List.mem_cons, List.not_mem_nil, or_false] at h
      rcases h with rfl | rfl <;> rw [UInt8.toNat_ofNat'] <;> omega
    · split at h
      · simp only [List.mem_cons, List.not_mem_nil, or_false] at h
        rcases h with rfl | rfl | rfl <;> rw [UInt8.toNat_ofNat'] <;> omega
      · simp only [List.mem_cons, List.not_mem_nil, or_false] at h
        rcases h with rfl | rfl | rfl | rfl <;> rw [UInt8.toNat_ofNat'] <;> omega

end RecordText.Text
