import HostLayer.Proofs.Ring.Traffic

/-!
# Texts as a Queue

The texts in a ring, followed through a run that is already under way.

A ledger follows a ring from the day it is made and knows for every message who
wrote it. Where a run is looked at from somewhere in its middle there are only
the texts that the slots hold, whatever has become of their writers, and they
are a queue all the same. `queued` is what such a queue makes of one thing seen:
what is stored comes last, in place of the oldest text if there is no more room,
and who looks finds the oldest text, or nothing if there is none. It refuses to
follow if something else has been seen.

The texts of a ring follow everything that parties do to it (`play_queued`),
from whatever memory they start.

## Main definitions

* `Ring.queued`: What a queue of texts makes of one thing seen.

## Theorems

* `Ring.callStep_queued`: A step of a call.
* `Ring.callStep_indices`: Indices in range stay in range.
* `Ring.play_queued`: Every run of parties.
-/

namespace HostLayer

namespace Ring

/-- What a queue of texts makes of one thing seen, if that is what a bounded
    queue that drops its oldest text shows. -/
def queued (g : Geometry) (q : List (List UInt8)) : Sight → Option (List (List UInt8))
  | .stored msg => some (makeRoom (g.slots - 1) q ++ [kept g msg])
  | .looked room found => if found = q.head?.map (List.take room) then some q.tail else none
  | .unwoken => some q

/-- The texts follow every step of a call. -/
theorem callStep_queued (g : Geometry) (hg : g.InRange) (source : ClockSource) (clock : Clock)
    (m m' : Memory) (c : Call) (c' : Option Call) (es : List Sight)
    (h : callStep g source clock m c = some (m', c', es)) :
    es.foldlM (queued g) (pending g m) = some (pending g m') := by
  have hone : ∀ e q, queued g (pending g m) e = some q →
      List.foldlM (queued g) (pending g m) [e] = some q := by
    intro e q he
    simp only [List.foldlM_cons, List.foldlM_nil, he]
    rfl
  rcases callStep_cases g source clock m m' c c' es h with
    ⟨msg, _, rfl, _, rfl⟩ | ⟨_, _, _, rfl, _, rfl⟩ | ⟨_, _, rfl, _, rfl⟩ |
      ⟨_, _, _, n, _, _, rfl, _, rfl⟩ | ⟨_, _, _, _, rfl, _, rfl⟩ | ⟨room, _, _, rfl, _, rfl⟩
  · refine hone _ _ ?_
    rw [pending_insert g hg]
    rfl
  · rw [(pending_setTokens g m _).2]
    rfl
  · exact hone .unwoken _ rfl
  · rw [(pending_setTokens g m ⟨n⟩).2]
    rfl
  · rfl
  · rcases pending_remove g hg m with ⟨htail, hhead, _⟩
    refine hone _ _ ?_
    rw [htail, hhead]
    exact if_pos rfl

/-- No step of a call brings an index out of range. -/
theorem callStep_indices (g : Geometry) (hg : g.InRange) (source : ClockSource) (clock : Clock)
    (m m' : Memory) (c : Call) (c' : Option Call) (es : List Sight)
    (h : callStep g source clock m c = some (m', c', es)) (hi : ∃ i, indices? g m = some i) :
    ∃ i, indices? g m' = some i := by
  rcases callStep_cases g source clock m m' c c' es h with
    ⟨msg, _, rfl, _⟩ | ⟨_, _, _, rfl, _⟩ | ⟨_, _, rfl, _⟩ | ⟨_, _, _, n, _, _, rfl, _⟩ |
      ⟨_, _, _, _, rfl, _⟩ | ⟨_, _, _, rfl, _⟩
  · exact indices?_insert g hg m msg
  · rw [(pending_setTokens g m _).1]
    exact hi
  · exact hi
  · rw [(pending_setTokens g m ⟨n⟩).1]
    exact hi
  · exact hi
  · exact indices?_remove g hg m

/-- The texts follow every run of parties, and the indices stay in range. -/
theorem play_queued (g : Geometry) (hg : g.InRange) (acts : List Act) (s s' : Traffic)
    (es : List Sight) (hagreed : s.Agreed g) (hi : ∃ i, indices? g s.memory = some i)
    (hacts : ∀ a ∈ acts, a.OfParties) (h : Schedule.play Traffic.step s acts = some (s', es)) :
    es.foldlM (queued g) (pending g s.memory) = some (pending g s'.memory) ∧
      ∃ i, indices? g s'.memory = some i := by
  have hrun := Schedule.play_simulates Traffic.step Act.OfParties
    (fun s q => s.Agreed g ∧ (∃ i, indices? g s.memory = some i) ∧ pending g s.memory = q)
    (fun q es q' => es.foldlM (queued g) q = some q') (fun q => rfl)
    (fun t u v es fs h1 h2 => by rw [List.foldlM_append, h1]; exact h2)
    (fun s q a s' es hR hP hstep => by
      rcases hR with ⟨hagreed, hi, rfl⟩
      have hagreed' := Traffic.step_agreed g s s' a es hagreed hstep
      rcases Traffic.step_cases s s' a es hstep with
        ⟨_, _, _, _, rfl, rfl⟩ | ⟨_, _, _, _, rfl, _, _, rfl⟩ |
          ⟨i, source, clock, g', c, m', c', _, hp, hc, rfl⟩ | ⟨_, _, rfl, _⟩
      · exact ⟨_, rfl, hagreed', hi, rfl⟩
      · exact ⟨_, rfl, hagreed', hi, rfl⟩
      · have hgeo : g' = g := hagreed.geometry_eq _ (List.mem_of_getElem? hp)
        rw [hgeo] at hc
        exact ⟨_, callStep_queued g hg source clock _ m' c c' es hc, hagreed',
          callStep_indices g hg source clock _ m' c c' es hc hi, rfl⟩
      · exact absurd hP (fun hf => hf))
    acts s s' (pending g s.memory) es ⟨hagreed, hi, rfl⟩ hacts h
  rcases hrun with ⟨q, hfold, _, hi', rfl⟩
  exact ⟨hfold, hi'⟩

end Ring

end HostLayer
