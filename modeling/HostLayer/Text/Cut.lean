/-!
# Cut Text

Text limited to a number of bytes.

Text is written with one to four bytes a character. A cut keeps whole
characters only: it is the longest start of the text that fits, which can be a
few bytes shorter than the limit.

## Main definitions

* `Text.utf8`: The bytes of a text.
* `Text.fit`: The longest start of a text within a number of bytes.
* `Text.cut`: The same for strings.
* `Text.size`: The number of bytes of a text.

## Theorems

* `Text.size_fit_le`: A cut text fits.
* `Text.fit_isStart`: A cut text is a start of the text.
* `Text.fit_fit`: Cutting to more and then to less is cutting to less.
-/

namespace HostLayer

namespace Text

/-- The bytes of a text. -/
def utf8 (cs : List Char) : List UInt8 :=
  cs.flatMap String.utf8EncodeChar

/-- The number of bytes of a text. -/
def size : List Char → Nat
  | [] => 0
  | c :: cs => c.utf8Size + size cs

/-- The longest start of a text that has at most `limit` bytes. -/
def fit (limit : Nat) : List Char → List Char
  | [] => []
  | c :: cs => if c.utf8Size ≤ limit then c :: fit (limit - c.utf8Size) cs else []

/-- The longest start of a string that has at most `limit` bytes. -/
def cut (limit : Nat) (s : String) : String :=
  String.ofList (fit limit s.toList)

/-- The bytes of a string. -/
def bytes (s : String) : List UInt8 :=
  utf8 s.toList

theorem size_fit_le (limit : Nat) (cs : List Char) : size (fit limit cs) ≤ limit := by
  induction cs generalizing limit with
  | nil => simp [fit, size]
  | cons c cs ih =>
      simp only [fit]
      split
      next h =>
        have := ih (limit - c.utf8Size)
        simp only [size]
        omega
      next => simp [size]

theorem fit_isStart (limit : Nat) (cs : List Char) : fit limit cs <+: cs := by
  induction cs generalizing limit with
  | nil => simp [fit]
  | cons c cs ih =>
      simp only [fit]
      split
      · exact List.cons_prefix_cons.2 ⟨rfl, ih _⟩
      · exact List.nil_prefix

theorem fit_fit {small large : Nat} (h : small ≤ large) (cs : List Char) :
    fit small (fit large cs) = fit small cs := by
  induction cs generalizing small large with
  | nil => simp [fit]
  | cons c cs ih =>
      by_cases hs : c.utf8Size ≤ small
      · have hl : c.utf8Size ≤ large := Nat.le_trans hs h
        simp [fit, hs, hl, ih (Nat.sub_le_sub_right h _)]
      · by_cases hl : c.utf8Size ≤ large
        · simp [fit, hs, hl]
        · simp [fit, hs, hl]

end Text

end HostLayer
