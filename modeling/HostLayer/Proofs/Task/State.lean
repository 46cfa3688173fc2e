import HostLayer.Proofs.Text.Boundary
import HostLayer.Task.State
import Mathlib.Data.List.TakeWhile

/-!
# Lines about Threads

What the line of a thread tells, whatever the thread is called.

The name stands in the middle of the line and can hold anything, also a closing
parenthesis, a blank and a letter after it. Since nothing behind the name contains a
closing parenthesis, the last one of the line is the one that closes the name,
and the state is the first character behind it that is seen.

The other way to find that place is by byte offsets. The search goes through the bytes
of the line and the slice begins one byte behind the one it finds. A slice has to
begin where a character begins or the text ends, and it does: a closing parenthesis
has one byte, and no other character has that byte among its own.

## Main definitions

* `Text.lastIndex?`: Where a byte stands for the last time.
* `Text.sliceFrom?`: The text from an offset on, unless that is inside a character.
* `TaskState.ofBytes?`: The state that a line tells, found by offsets.
* `TaskState.IsMark`: A character that can stand for a state.
* `TaskState.Silent`: A line that tells no state.

## Theorems

* `TaskState.behindLast_eq_some_iff`: What stands behind the last parenthesis.
* `Text.sliceFrom?_size`: A slice at the end of a start of the text.
* `TaskState.ofBytes?_eq`: Both ways agree, and no slice fails.
* `TaskState.ofLine_eq_error_iff`: Which lines tell nothing.
* `TaskState.state_told`: The name does not matter.
-/

namespace HostLayer

namespace Text

/-- The offset at which a byte stands for the last time. -/
def lastIndex? (b : UInt8) : List UInt8 → Option Nat
  | [] => none
  | x :: xs =>
      match lastIndex? b xs with
      | some i => some (i + 1)
      | none => if x = b then some 0 else none

/-- The text from an offset on. There is none if the offset is inside a character or
    beyond the end. -/
def sliceFrom? (s : String) (i : Nat) : Option (List Char) :=
  if isBoundary s i then some (decode ((bytes s).drop i)) else none

theorem lastIndex?_eq_none {b : UInt8} {xs : List UInt8} (h : b ∉ xs) : lastIndex? b xs = none := by
  induction xs with
  | nil => rfl
  | cons x xs ih =>
      rw [List.mem_cons, not_or] at h
      rw [lastIndex?, ih h.2]
      exact if_neg (Ne.symm h.1)

theorem lastIndex?_append {b : UInt8} (before : List UInt8) {rest : List UInt8} (h : b ∉ rest) :
    lastIndex? b (before ++ b :: rest) = some before.length := by
  induction before with
  | nil =>
      rw [List.nil_append, lastIndex?, lastIndex?_eq_none h]
      exact if_pos rfl
  | cons x before ih => rw [List.cons_append, lastIndex?, ih, List.length_cons]

/-- A slice that begins where a start of the text ends is the rest of the text. -/
theorem sliceFrom?_size {s : String} {before rest : List Char} (h : s.toList = before ++ rest) :
    sliceFrom? s (size before) = some rest := by
  have hboundary : isBoundary s (size before) = true :=
    isBoundary_iff.mpr ⟨before, h ▸ List.prefix_append before rest, rfl⟩
  rw [sliceFrom?, if_pos hboundary, bytes, h, utf8_append, ← length_utf8, List.drop_left,
    decode_utf8]

end Text

namespace TaskState

variable {cs rest : List Char}

section LastParenthesis

theorem behindLast_eq_none_iff : behindLast cs = none ↔ ')' ∉ cs := by
  refine ⟨fun h hmem => ?_, behindLast_eq_none⟩
  induction cs with
  | nil => exact absurd hmem List.not_mem_nil
  | cons c cs ih =>
      rw [behindLast] at h
      cases hlast : behindLast cs with
      | some rest =>
          rw [hlast] at h
          exact absurd h (by simp only [reduceCtorEq, not_false_eq_true])
      | none =>
          rw [hlast] at h
          rcases List.mem_cons.mp hmem with heq | hin
          · rw [if_pos heq.symm] at h
            exact absurd h (by simp only [reduceCtorEq, not_false_eq_true])
          · exact ih hlast hin

/-- What is found stands behind a closing parenthesis and does not contain one. -/
theorem behindLast_eq_some_iff :
    behindLast cs = some rest ↔ ∃ before, cs = before ++ ')' :: rest ∧ ')' ∉ rest := by
  constructor
  · intro h
    induction cs with
    | nil => exact absurd h (by simp only [behindLast, reduceCtorEq, not_false_eq_true])
    | cons c cs ih =>
        rw [behindLast] at h
        cases hlast : behindLast cs with
        | some found =>
            rw [hlast] at h
            rcases ih (hlast.trans h) with ⟨before, hcs, hrest⟩
            exact ⟨c :: before, by rw [hcs, List.cons_append], hrest⟩
        | none =>
            rw [hlast] at h
            simp only [Option.ite_none_right_eq_some, Option.some.injEq] at h
            rcases h with ⟨rfl, rfl⟩
            exact ⟨[], rfl, behindLast_eq_none_iff.mp hlast⟩
  · rintro ⟨before, rfl, hrest⟩
    exact behindLast_append before hrest

end LastParenthesis

/-- The state that the text behind the name tells. -/
def ofRest (rest : List Char) : Answer TaskState :=
  match rest.dropWhile isBlank with
  | [] => .error .operationFailed
  | c :: _ => .ok (ofLetter c)

/-- The state that a line tells, found by byte offsets. There is no answer if a slice of the
    line cannot be made. -/
def ofBytes? (line : String) : Option (Answer TaskState) :=
  match Text.lastIndex? ')'.val.toUInt8 (Text.bytes line) with
  | none => some (.error .operationFailed)
  | some i => (Text.sliceFrom? line (i + 1)).map ofRest

/-- The slice can always be made, and it is what stands behind the last parenthesis. -/
theorem ofBytes?_eq (line : String) : ofBytes? line = some (ofLine line.toList) := by
  have hbyte := Text.byte_mem_utf8_iff (c := ')') (by decide)
  cases hlast : behindLast line.toList with
  | none =>
      have hnone : ')'.val.toUInt8 ∉ Text.bytes line :=
        fun hmem => behindLast_eq_none_iff.mp hlast ((hbyte line.toList).mp hmem)
      rw [ofBytes?, Text.lastIndex?_eq_none hnone, ofLine, hlast]
  | some rest =>
      rcases behindLast_eq_some_iff.mp hlast with ⟨before, hline, hrest⟩
      have hbytes : Text.bytes line = Text.utf8 before ++ ')'.val.toUInt8 :: Text.utf8 rest := by
        rw [Text.bytes, hline, Text.utf8_append, Text.utf8_cons]
        rfl
      have hfound := Text.lastIndex?_append (Text.utf8 before) (mt (hbyte rest).mp hrest)
      -- One byte further is the end of the text up to the parenthesis.
      have hsize : Text.size (before ++ [')']) = Text.size before + 1 :=
        Text.size_append before [')']
      have hslice : Text.sliceFrom? line (Text.size before + 1) = some rest := by
        rw [← hsize]
        exact Text.sliceFrom?_size (by rw [hline, List.append_assoc, List.singleton_append])
      rw [ofBytes?, hbytes, hfound, Text.length_utf8]
      simp only [hslice, Option.map_some]
      rw [ofLine, hlast]
      rfl

/-- A character that can stand for a state: it is seen, and it is not the one that closes
    names. -/
def IsMark (c : Char) : Prop :=
  isBlank c = false ∧ c ≠ ')'

instance (c : Char) : Decidable (IsMark c) :=
  inferInstanceAs (Decidable (_ ∧ _))

/-- A line without a closing parenthesis, or with nothing but blanks behind the last one. -/
def Silent (cs : List Char) : Prop :=
  ')' ∉ cs ∨ ∃ before rest, cs = before ++ ')' :: rest ∧ ')' ∉ rest ∧ ∀ c ∈ rest, isBlank c = true

/-- Letters can stand for states. -/
theorem isMark_of_isAlpha {c : Char} (h : c.isAlpha = true) : IsMark c := by
  change (decide ('A'.val ≤ c.val ∧ c.val ≤ 'Z'.val) ||
    (decide ('a'.val ≤ c.val) && decide (c.val ≤ 'z'.val))) = true at h
  simp only [Bool.or_eq_true, Bool.and_eq_true, decide_eq_true_eq, UInt32.le_iff_toNat_le] at h
  have hrange : 65 ≤ c.toNat ∧ c.toNat ≤ 122 := by
    rcases h with hupper | hlower
    · exact ⟨hupper.1, Nat.le_trans hupper.2 (by decide)⟩
    · exact ⟨Nat.le_trans (by decide) hlower.1, hlower.2⟩
  constructor
  · simp only [isBlank, Bool.or_eq_false_iff, Bool.and_eq_false_iff, decide_eq_false_iff_not,
      beq_eq_false_iff_ne]
    omega
  · rintro rfl
    exact absurd hrange.1 (by decide)

theorem ofRest_eq_error_iff {e : Error} :
    ofRest rest = .error e ↔ e = .operationFailed ∧ ∀ c ∈ rest, isBlank c = true := by
  rw [← List.dropWhile_eq_nil_iff, ofRest]
  cases rest.dropWhile isBlank with
  | nil => simp only [Except.error.injEq, and_true, eq_comm]
  | cons c cs => simp only [reduceCtorEq, and_false]

/-- Silent lines tell nothing, all others tell a state. -/
theorem ofLine_eq_error_iff {e : Error} :
    ofLine cs = .error e ↔ e = .operationFailed ∧ Silent cs := by
  cases hlast : behindLast cs with
  | none =>
      have hnone := behindLast_eq_none_iff.mp hlast
      rw [ofLine, hlast]
      simp only [Except.error.injEq]
      exact ⟨fun h => ⟨h.symm, Or.inl hnone⟩, fun h => h.1.symm⟩
  | some rest =>
      rcases behindLast_eq_some_iff.mp hlast with ⟨before, hcs, hrest⟩
      have hofLine : ofLine cs = ofRest rest := by
        rw [ofLine, hlast]
        rfl
      rw [hofLine, ofRest_eq_error_iff]
      refine and_congr_right fun _ => ⟨fun h => Or.inr ⟨before, rest, hcs, hrest, h⟩, ?_⟩
      rintro (hnone | ⟨before', rest', hcs', hrest', hblank⟩)
      · exact absurd (hcs ▸ List.mem_append_right before List.mem_cons_self) hnone
      · have hsame : behindLast cs = some rest' :=
          behindLast_eq_some_iff.mpr ⟨before', hcs', hrest'⟩
        rw [hlast, Option.some.injEq] at hsame
        exact hsame ▸ hblank

/-- Whatever stands before a parenthesis that is the last one, the mark behind it tells the
    state. -/
theorem ofLine_mark (before : List Char) {letter : Char} {tail : List Char}
    (hletter : IsMark letter) (htail : ')' ∉ tail) :
    ofLine (before ++ [')', ' ', letter] ++ tail) = .ok (ofLetter letter) := by
  have hrest : ')' ∉ ' ' :: letter :: tail := by
    simp only [List.mem_cons, not_or]
    exact ⟨by decide, Ne.symm hletter.2, htail⟩
  have hlast : behindLast (before ++ [')', ' ', letter] ++ tail) = some (' ' :: letter :: tail) :=
    behindLast_eq_some_iff.mpr ⟨before, List.append_assoc _ _ _, hrest⟩
  have hseen : (' ' :: letter :: tail).dropWhile isBlank = letter :: tail := by
    rw [List.dropWhile_cons_of_pos (by decide), List.dropWhile_cons_of_neg]
    rw [hletter.1]
    exact Bool.false_ne_true
  rw [ofLine, hlast]
  simp only [hseen]

/-- The name of a thread does not change what its line tells. For every number and every name
    the mark behind the name is the state, which any letter can be, and so it is behind any
    other text that takes their place. Any line at all is answered, without a slice that
    fails, and it is answered with a failure just if it is silent. -/
theorem state_told {letter : Char} {tail : List Char} (hletter : IsMark letter) (htail : ')' ∉ tail)
    (number : Nat) (name before : List Char) (text : String) :
    ask true false number (line number name letter tail) = (.ok (ofLetter letter), []) ∧
      ofLine (before ++ [')', ' ', letter] ++ tail) = .ok (ofLetter letter) ∧
      (∀ c : Char, c.isAlpha = true → IsMark c) ∧
      ofBytes? text = some (ofLine text.toList) ∧
      ∀ e, ofLine text.toList = .error e ↔ e = .operationFailed ∧ Silent text.toList := by
  refine ⟨?_, ofLine_mark before hletter htail, fun _ => isMark_of_isAlpha, ofBytes?_eq text,
    fun _ => ofLine_eq_error_iff⟩
  have hline := ofLine_mark ((toString number).toList ++ [' ', '('] ++ name) hletter htail
  rw [ask, line]
  simp only [Bool.not_true, Bool.false_eq_true, if_false]
  rw [hline]

/-- A name that imitates the end of a name and a state, with a character of several bytes
    before each. -/
theorem state_told_imitated :
    IsMark 'S' ∧ ')' ∉ " 1 (2 3".toList ∧
      ask true false 7 (line 7 "é) R ') Zß".toList 'S' " 1 (2 3".toList) = (.ok .blocked, []) ∧
      ofBytes? "7 (é) R ') Zß) S 1" = some (.ok .blocked) ∧ ofBytes? "7 (é) \u2003" =
        some (.error .operationFailed) := by
  have hmark : IsMark 'S' := by decide
  have htail : ')' ∉ " 1 (2 3".toList := by decide
  have htold := state_told hmark htail 7 "é) R ') Zß".toList
  refine ⟨hmark, htail, (htold [] "").1, ?_, ?_⟩
  · rw [(htold [] "7 (é) R ') Zß) S 1").2.2.2.1]
    decide
  · rw [(htold [] "7 (é) \u2003").2.2.2.1]
    decide

end TaskState

end HostLayer
