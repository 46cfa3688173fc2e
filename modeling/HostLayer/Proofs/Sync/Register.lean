import HostLayer.Host.Mutex
import Mathlib.Tactic.SplitIfs

/-!
# A Register of Holds

Who holds a mutex, from what has been seen of it and nothing else.

The register has a page for every thread with the number of its holds. A thread that
takes the mutex gets one more and a thread that gives one up has one less. The register
also notes what is known of the death of an owner: nothing, that somebody died with the
mutex, that somebody has taken it since and knows, or that this one has given it up
without a repair, after which it is lost.

Anything can be written into a register. An entry fits it (`Register.Fits`) if it is what
can happen to a mutex that has one owner at most: it is taken by its owner or by
anybody if there is none, and who takes it from a dead owner is told so. Nothing else is
asked of a list of entries, and it is enough for what is said here of whole histories.

Every induction here goes along a list of entries from any register on, so that
histories can be cut where something happens in them (`Register.fitting_append`).

## Main definitions

* `Entry`: What is entered.
* `Register`, `Register.note`, `Register.after`: The register, and how it is kept.
* `Register.Fits`, `Register.Fitting`: The entries that fit.

## Theorems

* `Register.held_counted`: Holds are what has been taken and not been given up.
* `Register.orphaned_stays`, `Register.orphaned_origin`: Where a death is told.
* `Register.first_told`, `Register.told_first`: The first to take the mutex after a
  death is told, and nobody else is.
* `Register.lost_stays`: What is lost stays lost.
-/

namespace HostLayer

/-- What is entered. -/
inductive Entry
  /-- The thread has taken the mutex. -/
  | took (t : ThreadId)
  /-- The thread has taken it, and has been told that its owner died. -/
  | adopted (t : ThreadId)
  /-- The thread has looked at a mutex that is lost, without waiting for it. -/
  | tried (t : ThreadId)
  /-- The thread has given up one hold. -/
  | gaveUp (t : ThreadId)
  /-- What the mutex protects has been repaired. -/
  | repaired
  /-- The thread has ended. -/
  | died (t : ThreadId)
  deriving DecidableEq, Repr

namespace Entry

/-- The thread that takes the mutex, if it is taken. -/
def taker? : Entry → Option ThreadId
  | took t => some t
  | adopted t => some t
  | _ => none

/-- The thread takes the mutex. -/
def takes (t : ThreadId) (x : Entry) : Bool := x.taker? == some t

/-- The thread gives up a hold. -/
def gives (t : ThreadId) (x : Entry) : Bool := x == gaveUp t

end Entry

/-- The holds of all threads, and what is known of the death of an owner. -/
structure Register where
  held : ThreadId → Nat
  health : Host.Health

namespace Register

open Entry Host

/-- Nobody has done anything yet. -/
def blank : Register := ⟨fun _ => 0, .sound⟩

/-- Another number of holds for one thread. -/
def setHeld (b : Register) (t : ThreadId) (n : Nat) : Register :=
  { b with held := fun u => if u = t then n else b.held u }

section Note

variable (robust : Bool)

/-- The register with one entry more. A mutex that is robust outlives its owner. -/
def note (b : Register) : Entry → Register
  | took t => b.setHeld t (b.held t + 1)
  | adopted t => { b.setHeld t (b.held t + 1) with health := .unrepaired }
  | tried _ => b
  | gaveUp t =>
      { b.setHeld t (b.held t - 1) with
        health := if b.health = .unrepaired ∧ b.held t ≤ 1 then .lost else b.health }
  | repaired => { b with health := .sound }
  | died t =>
      if robust = true ∧ 0 < b.held t ∧ b.health ≠ .lost then
        { b.setHeld t 0 with health := .orphaned }
      else b

/-- The register with all entries of a list. -/
def after (b : Register) (xs : List Entry) : Register := xs.foldl (note robust) b

/-- The entry can be one of a mutex with one owner at most. -/
def Fits (b : Register) : Entry → Prop
  | took t => b.health ≠ .orphaned ∧ ∀ u, u ≠ t → b.held u = 0
  | adopted _ => b.health = .orphaned ∧ ∀ u, b.held u = 0
  | tried _ => b.health = .lost
  | gaveUp t => 0 < b.held t ∧ b.health ≠ .lost
  | repaired => b.health = .unrepaired
  | died _ => True

/-- All entries of a list fit, one after the other. -/
def Fitting (b : Register) : List Entry → Prop
  | [] => True
  | x :: xs => b.Fits x ∧ Fitting (b.note robust x) xs

end Note

variable {robust : Bool} {b : Register} {xs ys : List Entry} {x : Entry} {t u : ThreadId}

@[simp] theorem setHeld_held (n : Nat) :
    (b.setHeld t n).held u = if u = t then n else b.held u := rfl

theorem after_append : b.after robust (xs ++ ys) = (b.after robust xs).after robust ys :=
  List.foldl_append

theorem after_snoc : b.after robust (xs ++ [x]) = (b.after robust xs).note robust x :=
  after_append

theorem fitting_append :
    b.Fitting robust (xs ++ ys) ↔
      b.Fitting robust xs ∧ (b.after robust xs).Fitting robust ys := by
  induction xs generalizing b with
  | nil => exact (and_iff_right trivial).symm
  | cons x rest ih =>
      simp only [List.cons_append, Fitting, after, List.foldl_cons]
      rw [ih, and_assoc]
      rfl

-- An entry in the middle of a history fits what has been before.
theorem fits_of_fitting (h : b.Fitting robust (xs ++ x :: ys)) : (b.after robust xs).Fits x :=
  (fitting_append.mp h).2.1

-- What one entry does to the holds of a thread.
theorem note_counted (hx : b.Fits x) (ht : robust = true → x ≠ died t) :
    b.held t + (if takes t x then 1 else 0)
      = (if gives t x then 1 else 0) + (b.note robust x).held t := by
  cases x with
  | took u =>
      by_cases hu : t = u
      · simp [note, takes, gives, taker?, hu]
      · simp [note, takes, gives, taker?, hu, Ne.symm hu]
  | adopted u =>
      by_cases hu : t = u
      · simp [note, takes, gives, taker?, hu]
      · simp [note, takes, gives, taker?, hu, Ne.symm hu]
  | tried u => simp [note, takes, gives, taker?]
  | gaveUp u =>
      by_cases hu : t = u
      · have hpos : 0 < b.held t := hu ▸ hx.1
        simp [note, takes, gives, taker?, ← hu]
        omega
      · simp [note, takes, gives, taker?, hu, Ne.symm hu]
  | repaired => simp [note, takes, gives, taker?]
  | died u =>
      by_cases hdies : robust = true ∧ 0 < b.held u ∧ b.health ≠ .lost
      · have hu : t ≠ u := fun hu => ht hdies.1 (hu ▸ rfl)
        simp [note, hdies, takes, gives, taker?, hu]
      · simp [note, hdies, takes, gives, taker?]

/-- A thread that has not died has as many holds as it has taken and not given up. So
    has one that has died, if the mutex is not robust. -/
theorem held_counted (h : b.Fitting robust xs) (ht : robust = true → died t ∉ xs) :
    b.held t + xs.countP (takes t) = xs.countP (gives t) + (b.after robust xs).held t := by
  induction xs generalizing b with
  | nil => exact Nat.add_comm _ _
  | cons x rest ih =>
      have hone := note_counted h.1 fun hr hx => ht hr (hx ▸ List.mem_cons_self)
      have hrest := ih h.2 fun hr hmem => ht hr (List.mem_cons_of_mem x hmem)
      rw [List.countP_cons, List.countP_cons, after, List.foldl_cons]
      rw [after] at hrest
      omega

-- After a death the register remembers it until the mutex is taken.
theorem orphaned_note (hx : b.Fits x) (htaken : x.taker? = none) (h : b.health = .orphaned) :
    (b.note robust x).health = .orphaned := by
  cases x with
  | took u => exact absurd htaken (Option.some_ne_none u)
  | adopted u => exact absurd htaken (Option.some_ne_none u)
  | tried u => exact h
  | gaveUp u => simp [note, h]
  | repaired =>
      rw [Fits, h] at hx
      exact absurd hx (by decide)
  | died u =>
      simp only [note]
      split_ifs
      · rfl
      · exact h

theorem orphaned_stays (hxs : b.Fitting robust xs) (htaken : ∀ x ∈ xs, x.taker? = none)
    (h : b.health = .orphaned) : (b.after robust xs).health = .orphaned := by
  induction xs generalizing b with
  | nil => exact h
  | cons x rest ih =>
      exact ih hxs.2 (fun y hy => htaken y (List.mem_cons_of_mem x hy))
        (orphaned_note hxs.1 (htaken x List.mem_cons_self) h)

/-- The register says that an owner has died if it said so before and the mutex has not
    been taken, or if an owner has died since and the mutex has not been taken then. -/
theorem orphaned_origin (hxs : b.Fitting robust xs)
    (h : (b.after robust xs).health = .orphaned) :
    (b.health = .orphaned ∧ ∀ x ∈ xs, x.taker? = none) ∨
      ∃ before t mid, xs = before ++ died t :: mid ∧ robust = true ∧
        0 < (b.after robust before).held t ∧ (b.after robust before).health ≠ .lost ∧
        ∀ x ∈ mid, x.taker? = none := by
  induction xs generalizing b with
  | nil => exact Or.inl ⟨h, fun x hx => absurd hx List.not_mem_nil⟩
  | cons x rest ih =>
      rcases ih hxs.2 h with ⟨hnow, hrest⟩ | ⟨before, t, mid, rfl, hwas⟩
      · have hfits := hxs.1
        cases x with
        | took u => exact absurd hnow hfits.1
        | adopted u => exact absurd hnow (by simp [note])
        | tried u => exact Or.inl ⟨hnow, List.forall_mem_cons.mpr ⟨rfl, hrest⟩⟩
        | gaveUp u =>
            have hb : b.health = .orphaned := by
              simp only [note] at hnow
              split_ifs at hnow
              exact hnow
            exact Or.inl ⟨hb, List.forall_mem_cons.mpr ⟨rfl, hrest⟩⟩
        | repaired => exact absurd hnow (by simp [note])
        | died u =>
            by_cases hdies : robust = true ∧ 0 < b.held u ∧ b.health ≠ .lost
            · exact Or.inr ⟨[], u, rest, rfl, hdies.1, hdies.2.1, hdies.2.2, hrest⟩
            · rw [note, if_neg hdies] at hnow
              exact Or.inl ⟨hnow, List.forall_mem_cons.mpr ⟨rfl, hrest⟩⟩
      · exact Or.inr ⟨x :: before, t, mid, rfl, hwas⟩

/-- Somebody dies with the mutex, and the first to take it afterwards is told so. -/
theorem first_told {before mid later : List Entry}
    (h : b.Fitting robust (before ++ died t :: mid ++ x :: later)) (hrobust : robust = true)
    (hheld : 0 < (b.after robust before).held t) (hlost : (b.after robust before).health ≠ .lost)
    (hmid : ∀ y ∈ mid, y.taker? = none) (hx : x.taker? = some u) : x = adopted u := by
  rw [List.append_assoc] at h
  have hrest := (fitting_append.mp h).2.2
  have hdead : ((b.after robust before).note robust (died t)).health = .orphaned := by
    rw [note, if_pos ⟨hrobust, hheld, hlost⟩]
  have hthen := orphaned_stays (fitting_append.mp hrest).1 hmid hdead
  have hfits := fits_of_fitting hrest
  cases x with
  | took v => exact absurd hthen hfits.1
  | adopted v => exact congrArg adopted (Option.some.inj hx)
  | _ => exact absurd hx.symm (Option.some_ne_none u)

/-- Somebody is told of a death. Then somebody has died with the mutex, and nobody has
    taken it since. -/
theorem told_first {before later : List Entry} (hb : b.health = .sound)
    (h : b.Fitting robust (before ++ adopted u :: later)) :
    ∃ first t mid, before = first ++ died t :: mid ∧ robust = true ∧
      0 < (b.after robust first).held t ∧ ∀ x ∈ mid, x.taker? = none := by
  rcases orphaned_origin (fitting_append.mp h).1 (fits_of_fitting h).1 with
    ⟨hwas, -⟩ | ⟨first, t, mid, heq, hrobust, hheld, -, hmid⟩
  · rw [hb] at hwas
    exact absurd hwas (by decide)
  · exact ⟨first, t, mid, heq, hrobust, hheld, hmid⟩

-- Whoever is told has one hold, and nobody else has any.
theorem adopted_held {before later : List Entry}
    (h : b.Fitting robust (before ++ adopted u :: later)) (v : ThreadId) :
    (b.after robust (before ++ [adopted u])).held v = if v = u then 1 else 0 := by
  have hnone := (fits_of_fitting h).2
  rw [after_snoc]
  simp only [note, setHeld_held, hnone, Nat.zero_add]

/-- What is lost stays lost. -/
theorem lost_stays (hxs : b.Fitting robust xs) (h : b.health = .lost) :
    (b.after robust xs).health = .lost := by
  induction xs generalizing b with
  | nil => exact h
  | cons x rest ih =>
      refine ih hxs.2 ?_
      have hfits := hxs.1
      cases x with
      | took u => exact h
      | adopted u =>
          rw [Fits, h] at hfits
          exact absurd hfits.1 (by decide)
      | tried u => exact h
      | gaveUp u => exact absurd h hfits.2
      | repaired =>
          rw [Fits, h] at hfits
          exact absurd hfits (by decide)
      | died u => rw [note, if_neg fun hdies => hdies.2.2 h, h]

/-- Whoever gives up the last hold of a mutex that has not been repaired loses it for all
    others. -/
theorem lost_of_gaveUp {before later : List Entry}
    (h : b.Fitting robust (before ++ gaveUp t :: later))
    (hhealth : (b.after robust before).health = .unrepaired)
    (hheld : (b.after robust before).held t = 1) :
    (b.after robust (before ++ gaveUp t :: later)).health = .lost := by
  have hgone : ((b.after robust before).note robust (gaveUp t)).health = .lost := by
    rw [note, if_pos ⟨hhealth, Nat.le_of_eq hheld⟩]
  have hstays := lost_stays (fitting_append.mp h).2.2 hgone
  rw [after_append]
  exact hstays

end Register

end HostLayer
