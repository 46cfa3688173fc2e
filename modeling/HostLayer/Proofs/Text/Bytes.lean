import HostLayer.Text.Cut
import HostLayer.Text.Decode

/-!
# Texts and Their Bytes

What the bytes of a text say about its characters.

Text is written with one to four bytes a character. No byte of a longer character is
one of the bytes that stand for themselves, so that a slash or a NUL is found
among the bytes just if it is found among the characters. Reading the bytes gives
the text back, without any mark, and so no two texts have the same bytes.

## Theorems

* `Text.length_utf8`: The size of a text is the number of its bytes.
* `Text.byte_mem_utf8_iff`: Bytes that stand for themselves.
* `Text.decode_utf8`: The bytes of a text are read as that text.
* `Text.utf8_injective`, `Text.bytes_injective`: A text is told by its bytes.
-/

namespace HostLayer

namespace Text

theorem utf8_cons (c : Char) (cs : List Char) :
    utf8 (c :: cs) = String.utf8EncodeChar c ++ utf8 cs := List.flatMap_cons

theorem utf8_append (cs ds : List Char) : utf8 (cs ++ ds) = utf8 cs ++ utf8 ds :=
  List.flatMap_append

/-- The size of a text is the number of its bytes. -/
theorem length_utf8 (cs : List Char) : (utf8 cs).length = size cs := by
  induction cs with
  | nil => rfl
  | cons c cs ih => rw [utf8_cons, List.length_append, String.length_utf8EncodeChar, ih, size]

theorem size_append (cs ds : List Char) : size (cs ++ ds) = size cs + size ds := by
  rw [← length_utf8, ← length_utf8, ← length_utf8, utf8_append, List.length_append]

/-- It is also what strings keep. -/
theorem size_toList (s : String) : size s.toList = s.utf8ByteSize := by
  rw [← length_utf8, ← String.size_toByteArray, ← String.utf8Encode_toList]
  exact (List.size_toByteArray ..).symm

section Ascii

-- The bytes of a character with several of them have their highest bit.
theorem high_of_or {b m : UInt8} (h : 0x80 ≤ m) : 0x80 ≤ b ||| m := by
  rw [UInt8.le_iff_toNat_le, UInt8.toNat_or] at *
  exact Nat.le_trans h Nat.right_le_or

/-- A character has one byte, or all its bytes are high ones. -/
theorem encode_ascii_or_high (c : Char) :
    (c.val ≤ 127 ∧ String.utf8EncodeChar c = [c.val.toUInt8]) ∨
      (127 < c.val ∧ ∀ b ∈ String.utf8EncodeChar c, 0x80 ≤ b) := by
  rcases c.utf8Size_eq with h | h | h | h
  · exact Or.inl ⟨Char.utf8Size_eq_one_iff.mp h, String.utf8EncodeChar_eq_singleton h⟩
  · refine Or.inr ⟨(Char.utf8Size_eq_two_iff.mp h).1, ?_⟩
    rw [String.utf8EncodeChar_eq_cons_cons h]
    simp only [List.forall_mem_cons, List.not_mem_nil, false_implies, implies_true, and_true]
    exact ⟨high_of_or (by decide), high_of_or (by decide)⟩
  · refine Or.inr ⟨?_, ?_⟩
    · exact UInt32.lt_trans (by decide) (Char.utf8Size_eq_three_iff.mp h).1
    · rw [String.utf8EncodeChar_eq_cons_cons_cons h]
      simp only [List.forall_mem_cons, List.not_mem_nil, false_implies, implies_true, and_true]
      exact ⟨high_of_or (by decide), high_of_or (by decide), high_of_or (by decide)⟩
  · refine Or.inr ⟨?_, ?_⟩
    · exact UInt32.lt_trans (by decide) (Char.utf8Size_eq_four_iff.mp h)
    · rw [String.utf8EncodeChar_eq_cons_cons_cons_cons h]
      simp only [List.forall_mem_cons, List.not_mem_nil, false_implies, implies_true, and_true]
      exact ⟨high_of_or (by decide), high_of_or (by decide), high_of_or (by decide),
        high_of_or (by decide)⟩

-- The byte of a character that has one byte.
theorem toNat_byte {c : Char} (h : c.val ≤ 127) : c.val.toUInt8.toNat = c.val.toNat := by
  have hle := UInt32.le_iff_toNat_le.mp h
  rw [UInt32.toNat_toUInt8]
  exact Nat.mod_eq_of_lt (Nat.lt_of_le_of_lt hle (by decide))

/-- A character that has one byte is in a text just if the byte is among the bytes of
    the text. -/
theorem byte_mem_utf8_iff {c : Char} (h : c.val ≤ 127) (cs : List Char) :
    c.val.toUInt8 ∈ utf8 cs ↔ c ∈ cs := by
  have hbyte := toNat_byte h
  have hsmall := UInt32.le_iff_toNat_le.mp h
  constructor
  · intro hmem
    rcases List.mem_flatMap.mp hmem with ⟨d, hd, hin⟩
    rcases encode_ascii_or_high d with ⟨hone, henc⟩ | ⟨_, hhigh⟩
    · rw [henc, List.mem_singleton] at hin
      have heq : c.val.toNat = d.val.toNat := by rw [← hbyte, hin, toNat_byte hone]
      rwa [Char.ext (UInt32.toNat_inj.mp heq)]
    · -- The bytes of a longer character are above all that stand for themselves.
      have hge := UInt8.le_iff_toNat_le.mp (hhigh _ hin)
      rw [hbyte] at hge
      exact absurd (Nat.le_trans hge hsmall) (by decide)
  · intro hmem
    refine List.mem_flatMap.mpr ⟨c, hmem, ?_⟩
    rcases encode_ascii_or_high c with ⟨_, henc⟩ | ⟨hhigh, _⟩
    · rw [henc]
      exact List.mem_singleton_self _
    · exact absurd h (UInt32.not_le.mpr hhigh)

end Ascii

section Reading

/-- The bytes of a text are read as that text, and no mark is put in. -/
theorem decode_utf8 (cs : List Char) : decode (utf8 cs) = cs := by
  induction cs with
  | nil =>
      rw [decode]
      rfl
  | cons c cs ih =>
      have hne : (utf8 (c :: cs)).isEmpty = false := by
        rw [List.isEmpty_eq_false_iff, ← List.length_pos_iff, length_utf8, size]
        exact Nat.add_pos_left c.utf8Size_pos _
      have hfirst : (utf8 (c :: cs)).toByteArray.utf8DecodeChar? 0 = some c := by
        rw [utf8_cons, List.toByteArray_append]
        exact ByteArray.utf8DecodeChar?_utf8EncodeChar_append
      have hrest : (utf8 (c :: cs)).drop c.utf8Size = utf8 cs := by
        rw [utf8_cons, ← String.length_utf8EncodeChar c, List.drop_left]
      rw [decode, hne, hfirst]
      simp only [Bool.false_eq_true, if_false, hrest, ih]

/-- A text is told by its bytes. -/
theorem utf8_injective : Function.Injective utf8 :=
  Function.LeftInverse.injective decode_utf8

theorem bytes_injective : Function.Injective bytes :=
  fun _ _ h => String.toList_injective (utf8_injective h)

end Reading

end Text

end HostLayer
