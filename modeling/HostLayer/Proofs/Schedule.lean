/-!
# Schedules

Runs of systems in which somebody else decides who moves.

A system has states, acts and a step function that says what an act does to a
state and what can be seen of it; an act that cannot be done in a state does
nothing at all. A schedule is any list of acts. Whatever is said of all
schedules is said of all interleavings, since nothing is assumed about which
act comes next.

All ways of reasoning about a schedule are inductions along it, and all are made
here once. An invariant is kept by a run if it is kept by a step
(`play_keeps`), and together with it a run shows what its steps show
(`play_shows`). A run is matched by a second system if every step is
(`play_simulates`); what the second system does meanwhile is a relation on what
is seen, because it need not move in step with the first. A kind of act that
uses something up happens only so often (`play_countP_le`).

## Main definitions

* `Schedule.play`: A run along a list of acts.

## Theorems

* `Schedule.play_cons_iff`: A run begins with its first act.
* `Schedule.play_append`: A run after a run is a run.
* `Schedule.play_keeps`: What every step keeps, a run keeps.
* `Schedule.play_simulates`: What matches every step matches a run.
* `Schedule.play_shows`: What is kept, and what is seen of it.
* `Schedule.play_countP_le`: How often acts happen that use something up.
-/

namespace HostLayer

namespace Schedule

variable {σ α ε : Type}

/-- The acts of a list, one after the other, with everything that is seen of
    them. There is no run if one of them cannot be done. -/
def play (step : σ → α → Option (σ × List ε)) : σ → List α → Option (σ × List ε)
  | s, [] => some (s, [])
  | s, a :: as =>
      match step s a with
      | none => none
      | some (s', es) =>
          match play step s' as with
          | none => none
          | some (t, fs) => some (t, es ++ fs)

theorem play_cons_iff (step : σ → α → Option (σ × List ε)) (s t : σ) (a : α) (as : List α)
    (es : List ε) :
    play step s (a :: as) = some (t, es) ↔
      ∃ s' first rest, step s a = some (s', first) ∧ play step s' as = some (t, rest) ∧
        es = first ++ rest := by
  simp only [play]
  constructor
  · intro h
    rcases hs : step s a with _ | ⟨s', first⟩
    · rw [hs] at h
      exact absurd h (by simp only [reduceCtorEq, not_false_eq_true])
    · rw [hs] at h
      simp only [] at h
      rcases hp : play step s' as with _ | ⟨t', rest⟩
      · rw [hp] at h
        exact absurd h (by simp only [reduceCtorEq, not_false_eq_true])
      · rw [hp] at h
        simp only [Option.some.injEq, Prod.mk.injEq] at h
        exact ⟨s', first, rest, rfl, by rw [hp, h.1], h.2.symm⟩
  · rintro ⟨s', first, rest, hs, hp, rfl⟩
    simp only [hs, hp]

-- A step before a run makes a longer one.
theorem play_cons {step : σ → α → Option (σ × List ε)} {s s' t : σ} {a : α} {as : List α}
    {es fs : List ε} (h : step s a = some (s', es)) (hrest : play step s' as = some (t, fs)) :
    play step s (a :: as) = some (t, es ++ fs) :=
  (play_cons_iff step s t a as _).mpr ⟨s', es, fs, h, hrest, rfl⟩

theorem play_one {step : σ → α → Option (σ × List ε)} {s t : σ} {a : α} {es : List ε}
    (h : step s a = some (t, es)) : play step s [a] = some (t, es) := by
  simp only [play, h, List.append_nil]

/-- A run after a run is a run. -/
theorem play_append (step : σ → α → Option (σ × List ε)) (as bs : List α) :
    ∀ (s t u : σ) (es fs : List ε), play step s as = some (t, es) → play step t bs = some (u, fs) →
      play step s (as ++ bs) = some (u, es ++ fs) := by
  induction as with
  | nil =>
      intro s t u es fs h1 h2
      simp only [play, Option.some.injEq, Prod.mk.injEq] at h1
      rw [← h1.1] at h2
      rw [List.nil_append, h2, ← h1.2, List.nil_append]
  | cons a rest ih =>
      intro s t u es fs h1 h2
      rcases (play_cons_iff step s t a rest es).mp h1 with ⟨s', first, later, hs, hp, rfl⟩
      rw [List.cons_append, play_cons_iff]
      exact ⟨s', first, later ++ fs, hs, ih s' t u later fs hp h2, List.append_assoc _ _ _⟩

/-- What every step keeps, a run keeps. The acts and what is seen of them may
    be restricted, in which case only such steps have to keep it. -/
theorem play_keeps (step : σ → α → Option (σ × List ε)) (P : α → Prop) (Q : ε → Prop)
    (I : σ → Prop)
    (hstep : ∀ s a s' es, I s → P a → (∀ e ∈ es, Q e) → step s a = some (s', es) → I s') :
    ∀ (as : List α) (s t : σ) (es : List ε), I s → (∀ a ∈ as, P a) → (∀ e ∈ es, Q e) →
      play step s as = some (t, es) → I t := by
  intro as
  induction as with
  | nil =>
      intro s t es hs _ _ h
      simp only [play, Option.some.injEq, Prod.mk.injEq] at h
      rw [← h.1]
      exact hs
  | cons a rest ih =>
      intro s t es hs hP hQ h
      rcases (play_cons_iff step s t a rest es).mp h with ⟨s', first, later, hfirst, hp, rfl⟩
      have hs' := hstep s a s' first hs (hP a List.mem_cons_self)
        (fun e he => hQ e (List.mem_append_left later he)) hfirst
      exact ih s' t later hs' (fun b hb => hP b (List.mem_cons_of_mem a hb))
        (fun e he => hQ e (List.mem_append_right first he)) hp

/-- What matches every step matches a run. The second system makes no move of
    its own where nothing is seen, unless the relation `moves` lets it. -/
theorem play_simulates {τ : Type} (step : σ → α → Option (σ × List ε)) (P : α → Prop)
    (R : σ → τ → Prop) (moves : τ → List ε → τ → Prop) (hnil : ∀ t, moves t [] t)
    (happ : ∀ t u v es fs, moves t es u → moves u fs v → moves t (es ++ fs) v)
    (hstep : ∀ s t a s' es, R s t → P a → step s a = some (s', es) →
      ∃ t', moves t es t' ∧ R s' t') :
    ∀ (as : List α) (s s' : σ) (t : τ) (es : List ε), R s t → (∀ a ∈ as, P a) →
      play step s as = some (s', es) → ∃ t', moves t es t' ∧ R s' t' := by
  intro as
  induction as with
  | nil =>
      intro s s' t es hR _ h
      simp only [play, Option.some.injEq, Prod.mk.injEq] at h
      rw [← h.1, ← h.2]
      exact ⟨t, hnil t, hR⟩
  | cons a rest ih =>
      intro s s' t es hR hP h
      rcases (play_cons_iff step s s' a rest es).mp h with ⟨s₁, first, later, hfirst, hp, rfl⟩
      rcases hstep s t a s₁ first hR (hP a List.mem_cons_self) hfirst with ⟨t₁, hm₁, hR₁⟩
      rcases ih s₁ s' t₁ later hR₁ (fun b hb => hP b (List.mem_cons_of_mem a hb)) hp with
        ⟨t₂, hm₂, hR₂⟩
      exact ⟨t₂, happ t t₁ t₂ first later hm₁ hm₂, hR₂⟩

/-- What every step keeps, a run keeps, and if every step then shows only what is
    as it should be, so does the run. -/
theorem play_shows (step : σ → α → Option (σ × List ε)) (P : α → Prop) (I : σ → Prop)
    (Q : ε → Prop)
    (hstep : ∀ s a s' es, I s → P a → step s a = some (s', es) → I s' ∧ ∀ e ∈ es, Q e)
    (as : List α) (s t : σ) (es : List ε) (hs : I s) (hP : ∀ a ∈ as, P a)
    (h : play step s as = some (t, es)) : I t ∧ ∀ e ∈ es, Q e := by
  rcases play_simulates step P (fun s (_ : Unit) => I s) (fun _ es _ => ∀ e ∈ es, Q e)
    (fun _ e he => absurd he List.not_mem_nil)
    (fun _ _ _ es fs h1 h2 e he => (List.mem_append.mp he).elim (h1 e) (h2 e))
    (fun s _ a s' es hI hPa hfirst => by
      have hnext := hstep s a s' es hI hPa hfirst
      exact ⟨(), hnext.2, hnext.1⟩)
    as s t () es hs hP h with ⟨_, hseen, hend⟩
  exact ⟨hend, hseen⟩

/-- Acts of which each takes something away that no act brings back happen at
    most as often as there is something to take. -/
theorem play_countP_le (step : σ → α → Option (σ × List ε)) (P : α → Prop) (counted : α → Bool)
    (left : σ → Nat) (I : σ → Prop) (hstep : ∀ s a s' es, I s → P a → step s a = some (s', es) →
      I s' ∧ left s' + (if counted a then 1 else 0) ≤ left s) :
    ∀ (as : List α) (s t : σ) (es : List ε), I s → (∀ a ∈ as, P a) →
      play step s as = some (t, es) → left t + as.countP counted ≤ left s := by
  intro as
  induction as with
  | nil =>
      intro s t es _ _ h
      simp only [play, Option.some.injEq, Prod.mk.injEq] at h
      exact Nat.le_of_eq (by rw [h.1, List.countP_nil, Nat.add_zero])
  | cons a rest ih =>
      intro s t es hs hP h
      rcases (play_cons_iff step s t a rest es).mp h with ⟨s', first, later, hfirst, hp, rfl⟩
      rcases hstep s a s' first hs (hP a List.mem_cons_self) hfirst with ⟨hs', hle⟩
      have hrest := ih s' t later hs' (fun b hb => hP b (List.mem_cons_of_mem a hb)) hp
      rw [List.countP_cons]
      omega

end Schedule

end HostLayer
