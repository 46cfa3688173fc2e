import HostLayer.Proofs.Trace.Alone
import HostLayer.Proofs.Trace.Spread

/-!
# Analyzing Recorders

For which recorders every recording can be analyzed.

The stamps of a full buffer are any words, and so are the steps between them:
a step is taken around the end of the word, so every list of words is the list
of the steps of some stamps (`Stats.differences_stampsFrom`). Whether all
recordings of a recorder can be analyzed therefore depends on the number of its
slots alone. It is the same number of samples as for lists, and one more for the
steps, of which there is one less than stamps.

## Main definitions

* `Stats.differences`: The steps between stamps, as words.
* `Stats.stampsFrom`: Stamps with given steps.

## Theorems

* `Stats.differences_stampsFrom`: The steps of those stamps.
* `Recorder.analyze_iff`, `Recorder.analyzeSteps_iff`: For how many slots a
  recorder can always be analyzed.
* `Recorder.analysis_exact`: What fits, and what does not, for all samples, all
  recorders and all recordings.
-/

namespace HostLayer

namespace Stats

/-- The steps from each stamp to the next, around the end of the word. -/
def differences (times : List UInt64) : List UInt64 :=
  (times.zip (times.drop 1)).map fun p => p.2 - p.1

/-- The stamps from `start` on whose steps are `ws`. -/
def stampsFrom (start : UInt64) : List UInt64 → List UInt64
  | [] => [start]
  | w :: ws => start :: stampsFrom (start + w) ws

theorem steps_eq_words (times : List UInt64) : steps times = words (differences times) := by
  unfold steps words differences
  rw [List.map_map]
  rfl

theorem length_differences (times : List UInt64) :
    (differences times).length = times.length - 1 := by
  simp only [differences, List.length_map, List.length_zip, List.length_drop]
  omega

theorem length_stampsFrom (start : UInt64) (ws : List UInt64) :
    (stampsFrom start ws).length = ws.length + 1 := by
  induction ws generalizing start with
  | nil => rfl
  | cons w ws ih => rw [stampsFrom, List.length_cons, List.length_cons, ih]

theorem differences_cons (t u : UInt64) (rest : List UInt64) :
    differences (t :: u :: rest) = (u - t) :: differences (u :: rest) := rfl

/-- Any words are the steps of some stamps. -/
theorem differences_stampsFrom (start : UInt64) (ws : List UInt64) :
    differences (stampsFrom start ws) = ws := by
  induction ws generalizing start with
  | nil => rfl
  | cons w ws ih =>
      have hhead : ∃ rest, stampsFrom (start + w) ws = (start + w) :: rest := by
        cases ws with
        | nil => exact ⟨[], rfl⟩
        | cons v ws => exact ⟨_, rfl⟩
      rcases hhead with ⟨rest, hrest⟩
      rw [stampsFrom, hrest, differences_cons, ← hrest, ih, UInt64.add_comm, UInt64.add_sub_cancel]

end Stats

namespace Recorder

open Stats

theorem length_filled (r : Recorder) : r.filled.length = r.count := by
  rw [filled, List.length_map, List.length_range]

theorem analyzeSteps_eq_words (r : Recorder) :
    r.analyzeSteps = ofSamples? (words (differences r.filled)) := by
  unfold analyzeSteps ofTimes?
  rw [steps_eq_words]

-- The stamps of a full buffer are all that is analyzed.
theorem Recorded.filled_first {r : Recorder} {stamps : List UInt64}
    (h : Recorded stamps.length stamps r) : r.filled = stamps := by
  rw [h.filled_block 0 (Nat.div_self h.positive), Nat.zero_mul, List.drop_zero,
    List.take_of_length_le (Nat.le_refl _)]

/-- Whatever has happened to a recorder, a few slots can be analyzed. -/
theorem analyze_of_count_le (r : Recorder) :
    (r.count ≤ 4 → r.analyze.isSome) ∧ (r.count ≤ 5 → r.analyzeSteps.isSome) := by
  refine ⟨fun h => ?_, fun h => ?_⟩
  · exact isSome_of_length_le r.filled (by rw [length_filled]; exact h)
  · rw [analyzeSteps_eq_words]
    exact isSome_of_length_le _ (by rw [length_differences, length_filled]; omega)

variable {count : Nat} {r : Recorder}

-- A recording that fills the first buffer.
theorem filled_recordAll (source : ClockSource) (h : create source count = .ok r) (c : Caller)
    (clock : Clock) (stamps : List UInt64) (hlen : stamps.length = count) :
    (r.recordAll c clock stamps).filled = stamps :=
  Recorded.filled_first (hlen ▸ recordAll_recorded source count r h c clock stamps)

-- A buffer keeps its length.
theorem count_recordAll (source : ClockSource) (h : create source count = .ok r) (c : Caller)
    (clock : Clock) (stamps : List UInt64) : (r.recordAll c clock stamps).count = count :=
  (recordAll_recorded source count r h c clock stamps).count_eq

/-- All recordings can be analyzed as samples just if a buffer has four slots at
    most. -/
theorem analyze_iff (source : ClockSource) (h : create source count = .ok r) (c : Caller)
    (clock : Clock) :
    (∀ stamps, (r.recordAll c clock stamps).analyze.isSome) ↔ count ≤ 4 := by
  constructor
  · refine fun hall => (length_isSome_iff count).mp (fun ws hws => ?_)
    have hsome := hall ws
    unfold analyze at hsome
    rw [filled_recordAll source h c clock ws hws] at hsome
    exact hsome
  · exact fun hle stamps => (analyze_of_count_le _).1
      (by rw [count_recordAll source h c clock]; exact hle)

/-- All recordings can be analyzed by their steps just if a buffer has five slots
    at most. -/
theorem analyzeSteps_iff (source : ClockSource) (h : create source count = .ok r) (c : Caller)
    (clock : Clock) :
    (∀ stamps, (r.recordAll c clock stamps).analyzeSteps.isSome) ↔ count ≤ 5 := by
  have htwo := (Recording.create_recorder source count r h).1
  constructor
  · intro hall
    suffices count - 1 ≤ 4 by omega
    refine (length_isSome_iff (count - 1)).mp (fun ws hws => ?_)
    have hsome := hall (stampsFrom 0 ws)
    rw [analyzeSteps_eq_words,
      filled_recordAll source h c clock _ (by rw [length_stampsFrom, hws]; omega),
      differences_stampsFrom] at hsome
    exact hsome
  · exact fun hle stamps => (analyze_of_count_le _).2
      (by rw [count_recordAll source h c clock]; exact hle)

/-- What fits, and what does not. Of every list of words only the sum of the
    squared deviations can leave its word, and with little spread it does not. All
    lists of a length have statistics just if there are four samples at most.
    Therefore recorders with few slots can be analyzed whatever has happened to
    them, and of the others some recordings cannot. -/
theorem analysis_exact (source : ClockSource) (count : Nat) (hcount : CountInRange count) :
    (∀ ws : List UInt64, ws.length < word64 → Contained (words ws) ∧
      ∀ lo hi, Within lo hi (words ws) →
        ws.length * ((hi - lo) * (hi - lo) + 4) < 4 * sumLimit → (ofSamples? (words ws)).isSome) ∧
    (∀ n, (∀ ws : List UInt64, ws.length = n → (ofSamples? (words ws)).isSome) ↔ n ≤ 4) ∧
    (∀ r : Recorder, r.analyze = ofSamples? (words r.filled) ∧
      r.analyzeSteps = ofSamples? (words (differences r.filled)) ∧
      (r.count ≤ 4 → r.analyze.isSome) ∧ (r.count ≤ 5 → r.analyzeSteps.isSome)) ∧
    ∃ r, create source count = .ok r ∧ ∀ c clock,
      ((∀ stamps, (r.recordAll c clock stamps).analyze.isSome) ↔ count ≤ 4) ∧
      ((∀ stamps, (r.recordAll c clock stamps).analyzeSteps.isSome) ↔ count ≤ 5) := by
  refine ⟨fun ws hlen => ⟨contained ws hlen, isSome_of_within ws hlen⟩, length_isSome_iff,
    fun r => ⟨rfl, analyzeSteps_eq_words r, analyze_of_count_le r⟩, ?_⟩
  rcases create_ok source count hcount with ⟨r, hr⟩
  exact ⟨r, hr, fun c clock =>
    ⟨analyze_iff source hr c clock, analyzeSteps_iff source hr c clock⟩⟩

/-- Five samples that fit, and the steps of five stamps that rise; four samples
    at the ends of the word, and a fifth one too many. -/
theorem analysis_exact_five : CountInRange 5 ∧
    (ofSamples? (words [7, 7, 8, 9, 9])).isSome ∧
    (ofSamples? (words [0, 0, 0xFFFFFFFFFFFFFFFF, 0xFFFFFFFFFFFFFFFF])).isSome ∧
    ∃ r, create .monotonic 5 = .ok r ∧ ∀ c clock,
      (r.recordAll c clock [1, 0, 1, 0, 1]).analyzeSteps.isSome ∧
      ¬∀ stamps, (r.recordAll c clock stamps).analyze.isSome := by
  have hcount : CountInRange 5 := by decide
  rcases analysis_exact .monotonic 5 hcount with ⟨hall, hlength, _, r, hr, hiff⟩
  refine ⟨hcount, ?_, (hlength 4).mpr (by decide) _ rfl, r, hr, fun c clock => ⟨?_, ?_⟩⟩
  · exact (hall [7, 7, 8, 9, 9] (by decide)).2 7 9 (by decide) (by decide)
  · exact (hiff c clock).2.mpr (by decide) _
  · exact fun h => absurd ((hiff c clock).1.mp h) (by decide)

/-- Five samples without statistics, and six stamps that go to and fro and have
    none either. -/
theorem statistics_overflow :
    ofSamples? (words [0, 0, 0xFFFFFFFFFFFFFFFF, 0xFFFFFFFFFFFFFFFF, 0xFFFFFFFFFFFFFFFF]) = none ∧
    ∃ r, create .monotonic 6 = .ok r ∧ ∀ c clock,
      (r.recordAll c clock [5, 4, 5, 4, 5, 6]).analyzeSteps = none := by
  refine ⟨by decide, ?_⟩
  rcases create_ok .monotonic 6 (by decide) with ⟨r, hr⟩
  refine ⟨r, hr, fun c clock => ?_⟩
  unfold analyzeSteps
  rw [filled_recordAll .monotonic hr c clock _ rfl]
  decide

end Recorder

end HostLayer
