/-!
# Decoded Text

Bytes read as text.

Bytes that come from outside need not be text. Where they are not, a mark takes
their place: one for the longest run of bytes that could have been the start of a
character, or for a single byte that starts none.

## Main definitions

* `Text.replacement`: The mark.
* `Text.width`, `Text.follows`: What a first byte says about the next ones.
* `Text.broken`: How many bytes one mark stands for.
* `Text.decode`: The text that bytes are read as.

## Theorems

* `Text.broken_pos`: A mark stands for something.
-/

namespace HostLayer

namespace Text

/-- The mark for bytes that are no text. -/
def replacement : Char := '\uFFFD'

/-- The bytes of a character with a first byte, one for a byte that starts none. -/
def width (lead : UInt8) : Nat :=
  if 0xC2 ≤ lead ∧ lead ≤ 0xDF then 2
  else if 0xE0 ≤ lead ∧ lead ≤ 0xEF then 3
  else if 0xF0 ≤ lead ∧ lead ≤ 0xF4 then 4
  else 1

/-- A byte goes on with a character. -/
def continues (b : UInt8) : Bool :=
  0x80 ≤ b && b ≤ 0xBF

/-- A byte can be the second one of a character. The bounds keep away long forms,
    halves of pairs and what lies above all characters. -/
def follows (lead b : UInt8) : Bool :=
  let lowest := if lead = 0xE0 then 0xA0 else if lead = 0xF0 then 0x90 else 0x80
  let highest := if lead = 0xED then 0x9F else if lead = 0xF4 then 0x8F else 0xBF
  lowest ≤ b && b ≤ highest

/-- The number of bytes that one mark stands for, where no character starts. -/
def broken : List UInt8 → Nat
  | lead :: next :: more =>
      if 1 < width lead && follows lead next then
        2 + ((more.take (width lead - 2)).takeWhile continues).length
      else 1
  | _ => 1

theorem broken_pos (bs : List UInt8) : 0 < broken bs := by
  unfold broken
  split
  · split <;> omega
  · exact Nat.one_pos

/-- The text that bytes are read as. -/
def decode (bs : List UInt8) : List Char :=
  if bs.isEmpty then []
  else match bs.toByteArray.utf8DecodeChar? 0 with
  | some c => c :: decode (bs.drop c.utf8Size)
  | none => replacement :: decode (bs.drop (broken bs))
termination_by bs.length
decreasing_by
  all_goals
    have hpos : 0 < bs.length := List.length_pos_iff.mpr (fun h => by simp [h] at *)
    simp only [List.length_drop]
  · have hc := c.utf8Size_pos
    omega
  · have hb := broken_pos bs
    omega

end Text

end HostLayer
