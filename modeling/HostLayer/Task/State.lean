import HostLayer.Diagnostic
import HostLayer.Error

/-!
# Task States

What the host says about whether a task runs.

The host describes a thread in one line: its number, its name in parentheses, a
letter for its state, and more. The name can hold anything, parentheses and
letters too, so the letter is looked for behind the last closing parenthesis of
the line; what follows the name never contains one.

## Main definitions

* `TaskState`: The states.
* `TaskState.ofLetter`: The state for a letter.
* `TaskState.ofLine`: The state that a line tells.
* `TaskState.line`: A line.
* `TaskState.ask`: The state of a thread.

## Theorems

* `TaskState.behindLast_append`: What stands behind the last parenthesis.
-/

namespace HostLayer

/-- Whether a task runs. -/
inductive TaskState
  /-- There is no such thread. -/
  | unknown
  /-- The thread runs. -/
  | active
  /-- The thread is stopped. -/
  | inactive
  /-- The thread waits. -/
  | blocked
  deriving DecidableEq, Repr

namespace TaskState

/-- All states. -/
def all : List TaskState := [unknown, active, inactive, blocked]

/-- The number of a state. -/
def number : TaskState → Nat
  | unknown => 0
  | active => 1
  | inactive => 2
  | blocked => 3

/-- The name of a state. -/
def name : TaskState → String
  | unknown => "UnknownId"
  | active => "Active"
  | inactive => "Inactive"
  | blocked => "Blocked"

/-- The state for a letter. -/
def ofLetter (c : Char) : TaskState :=
  if c = 'R' then active
  else if c = 'S' ∨ c = 'D' ∨ c = 'W' then blocked
  else inactive

/-- The characters that separate words. -/
def isBlank (c : Char) : Bool :=
  let n := c.toNat
  (9 ≤ n && n ≤ 13) || n == 0x20 || n == 0x85 || n == 0xA0 || n == 0x1680
    || (0x2000 ≤ n && n ≤ 0x200A) || n == 0x2028 || n == 0x2029 || n == 0x202F || n == 0x205F
    || n == 0x3000

/-- What stands behind the last closing parenthesis. -/
def behindLast : List Char → Option (List Char)
  | [] => none
  | c :: cs =>
      match behindLast cs with
      | some rest => some rest
      | none => if c = ')' then some cs else none

/-- The state that a line tells. -/
def ofLine (line : List Char) : Answer TaskState :=
  match behindLast line with
  | none => .error .operationFailed
  | some rest =>
      match rest.dropWhile isBlank with
      | [] => .error .operationFailed
      | c :: _ => .ok (ofLetter c)

/-- The line of a thread with a number and a name. -/
def line (number : Nat) (name : List Char) (letter : Char) (tail : List Char) : List Char :=
  (toString number).toList ++ [' ', '('] ++ name ++ [')', ' ', letter] ++ tail

/-- The state of the thread with a number, which the host tells in a line, unless
    no descriptor is left to read it or the thread is gone. -/
def ask (descriptorLeft gone : Bool) (number : Nat) (line : List Char) :
    Answer TaskState × List Note :=
  if !descriptorLeft then
    (.error .operationFailed,
      [.warn ("reading /proc/self/task/" ++ toString number
        ++ "/stat failed: Too many open files (os error 24)")])
  else if gone then (.ok unknown, [])
  else (ofLine line, [])

theorem behindLast_eq_none {cs : List Char} (h : ')' ∉ cs) : behindLast cs = none := by
  induction cs with
  | nil => rfl
  | cons c cs ih =>
      have hc : c ≠ ')' := fun e => h (by simp [e])
      have hcs : ')' ∉ cs := fun e => h (by simp [e])
      simp [behindLast, ih hcs, hc]

theorem behindLast_append (before : List Char) {rest : List Char} (h : ')' ∉ rest) :
    behindLast (before ++ ')' :: rest) = some rest := by
  induction before with
  | nil => simp [behindLast, behindLast_eq_none h]
  | cons c cs ih => simp [behindLast, ih]

end TaskState

end HostLayer
