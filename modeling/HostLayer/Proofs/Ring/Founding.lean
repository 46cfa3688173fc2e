import HostLayer.Proofs.Ring.Queue
import HostLayer.Proofs.Ring.Relics

/-!
# Founding Rings

Any number of parties that open or make a ring under one name, moving one at a
time in any order, and those who already have it open.

A party that makes a ring looks at the object and, later, lays out a header over
it. Where a ring has been there from the beginning nobody gets that far:
everybody finds it, all handles have its geometry, and its messages are a queue
for ever (`settled_sound`). This includes the time after a party has made a ring
alone (`create_ringAt`).

Where there is no ring yet, nothing keeps a second party from looking before the
first one has stored its mark, and then it lays out its own header over a ring
that is in use. `unsettled_unsound` follows two parties on that way, from every
object that is no ring and from every free name. So founding is sound exactly
where there is nothing to be founded (`founding_sound_iff`).

## Main definitions

* `Founder`, `Founding`: A party, and the shelf with all of them.
* `Founding.Act`, `Founding.Seen`, `Founding.step`: What can happen, what is
  seen of it, and the shelf and the parties after it.
* `Founding.Happened`: What an act does.
* `RingAt`: There is a ring under a name.
* `Founding.Sound`: What founding a ring together has to keep.
* `Founding.Settled`: Everybody uses the ring that is there, or will find it.

## Theorems

* `Ring.adopt?_callStep`: A ring stays one, whatever call is made.
* `Founding.settled_step`, `Founding.settled_sound`: With a ring there.
* `Founding.play_walk`: A way of one party while the others wait.
* `Founding.play_finish`: From a look in vain to a ring.
* `Founding.unsettled_unsound`: Without a ring.
* `Founding.founding_sound_iff`: Where founding is sound.
-/

namespace HostLayer

/-- There is a ring under the name. -/
def RingAt (s : ObjectShelf) (host : String) (i : Nat) (g : Ring.Geometry) : Prop :=
  s.names host = some i ∧ Ring.adopt? (s.sizeOf i) (s.memory i) = some g

/-- A party at a name. -/
inductive Founder
  /-- It opens or makes a ring. -/
  | making (r : RingHandle.Request) (p : RingHandle.Place)
  /-- It has a ring open, and may be making a call. -/
  | holding (h : RingHandle) (call : Option Ring.Call)
  /-- It has got no ring. -/
  | refused (e : Error)

/-- The shelf, and the parties at a name. -/
structure Founding where
  shelf : ObjectShelf
  founders : List Founder

namespace Founding

/-- What can happen. -/
inductive Act
  /-- One more party starts to open or make a ring. -/
  | create (r : RingHandle.Request)
  /-- A party starts to write a message. -/
  | write (i : Nat) (msg : List UInt8)
  /-- A party starts to read a message into a buffer of `room` bytes. -/
  | read (i room : Nat) (deadline : Option Timer)
  /-- A party makes one step, at a time that `clock` shows. -/
  | move (i : Nat) (source : ClockSource) (clock : Clock)

/-- What is seen of a step. -/
inductive Seen
  /-- A party has got a handle. -/
  | returned (h : RingHandle)
  /-- A party has made one of the stores of its header, in the object `i`. -/
  | header (i : Nat)
  /-- A call has done something to the ring in the object `i`. -/
  | used (i : Nat) (e : Ring.Sight)
  deriving DecidableEq

/-- What has been done to the ring in the object `i`. -/
def Seen.sight? (i : Nat) : Seen → Option Ring.Sight
  | used j e => if j = i then some e else none
  | _ => none

/-- What is seen of a step of a party that opens or makes a ring. -/
def laid : RingHandle.Place → List Seen
  | .laying h (_ :: _) => [.header h.object]
  | _ => []

/-- The parties with another role for one of them. -/
def setFounder (s : Founding) (k : Nat) (f : Founder) : Founding :=
  { s with founders := s.founders.set k f }

/-- A party that has a ring open and makes no call starts one. -/
def start (s : Founding) (k : Nat) (c : Ring.Call) : Option (Founding × List Seen) :=
  match s.founders[k]? with
  | some (.holding h none) => some (s.setFounder k (.holding h (some c)), [])
  | _ => none

/-- What an act does to the parties at the name `host`. -/
def step (host : String) (s : Founding) : Act → Option (Founding × List Seen)
  | .create r =>
      if r.host = host ∧ r.geometry.Valid then
        some ({ s with founders := s.founders ++ [.making r RingHandle.start] }, [])
      else none
  | .write k msg => s.start k (.write msg .storing)
  | .read k room deadline => s.start k (.read room deadline .start)
  | .move k source clock =>
      match s.founders[k]? with
      | some (.making r p) =>
          match RingHandle.createStep r s.shelf p with
          | .goto t q _ => some ({ s with shelf := t }.setFounder k (.making r q), laid p)
          | .done t (.ok h) _ =>
              some ({ s with shelf := t }.setFounder k (.holding h none), [.returned h])
          | .done t (.error e) _ => some ({ s with shelf := t }.setFounder k (.refused e), [])
          | .waits => none
      | some (.holding h (some c)) =>
          (Ring.callStep h.geometry source clock (s.shelf.memory h.object) c).map fun r =>
            ({ s with shelf := s.shelf.put h.object r.1 }.setFounder k (.holding h r.2.1),
              r.2.2.map (.used h.object))
      | _ => none

/-- What has to hold of every run. -/
structure Sound (host : String) (s₀ : Founding) : Prop where
  /-- All handles have one geometry. -/
  agree : ∀ acts s es, Schedule.play (step host) s₀ acts = some (s, es) →
    ∀ h h', .returned h ∈ es → .returned h' ∈ es → h.geometry = h'.geometry
  /-- Who has got a handle has a ring, from then on. -/
  there : ∀ acts s es, Schedule.play (step host) s₀ acts = some (s, es) →
    ∀ h, .returned h ∈ es → RingAt s.shelf host h.object h.geometry
  /-- What once is a ring stays one, no header is laid out over it, and its
      messages are a queue. -/
  kept : ∀ acts s es acts' s' es' i g, Schedule.play (step host) s₀ acts = some (s, es) →
    Schedule.play (step host) s acts' = some (s', es') → RingAt s.shelf host i g →
    RingAt s'.shelf host i g ∧ .header i ∉ es' ∧
      (es'.filterMap (Seen.sight? i)).foldlM (Ring.queued g) (Ring.pending g (s.shelf.memory i))
        = some (Ring.pending g (s'.shelf.memory i))

end Founding

namespace Ring

/-- A ring stays one, of the same size, whatever step of a call is made. -/
theorem adopt?_callStep (g : Geometry) (source : ClockSource) (clock : Clock) (m m' : Memory)
    (c : Call) (c' : Option Call) (es : List Sight) (h : adopt? m.size m = some g)
    (hc : callStep g source clock m c = some (m', c', es)) :
    m'.size = m.size ∧ adopt? m'.size m' = some g := by
  rcases (adopt?_eq_some_iff m.size m g).mp h with ⟨hmark, hstated, hvalid, hsize, hi⟩
  have hbeyond := callStep_beyond g m.size ⟨hvalid, hsize⟩ source clock m m' c c' es hc
  have hagreed := Traffic.Agreed.congr (s := ⟨m, []⟩)
    ⟨hmark, hstated, fun q hq => absurd hq List.not_mem_nil⟩ m' []
    (callStep_agreeOn g source clock m m' c c' es hc) (fun q hq => absurd hq List.not_mem_nil)
  refine ⟨hbeyond.1, ?_⟩
  rw [hbeyond.1]
  exact (adopt?_eq_some_iff m.size m' g).mpr ⟨hagreed.marked, hagreed.stated_eq, hvalid, hsize,
    callStep_indices g hvalid.1 source clock m m' c c' es hc hi⟩

end Ring

namespace Founding

/-- What an act does at the name `host`. -/
inductive Happened (host : String) (s : Founding) : Founding → List Seen → Prop
  | join (r : RingHandle.Request) (hr : r.host = host) :
      Happened host s { s with founders := s.founders ++ [.making r RingHandle.start] } []
  | call (k : Nat) (h : RingHandle) (c : Ring.Call) (hk : s.founders[k]? = some (.holding h none)) :
      Happened host s (s.setFounder k (.holding h (some c))) []
  | move (k : Nat) (r : RingHandle.Request) (p : RingHandle.Place) (t : ObjectShelf)
      (q : RingHandle.Place) (hk : s.founders[k]? = some (.making r p))
      (hm : RingHandle.Moved r s.shelf p t q) :
      Happened host s ({ s with shelf := t }.setFounder k (.making r q)) (laid p)
  | gain (k : Nat) (r : RingHandle.Request) (p : RingHandle.Place) (h : RingHandle)
      (hk : s.founders[k]? = some (.making r p)) (he : RingHandle.Ended r s.shelf p h) :
      Happened host s (s.setFounder k (.holding h none)) [.returned h]
  /-- A party gives up. It may have removed the name that it has made. -/
  | resign (k : Nat) (r : RingHandle.Request) (p : RingHandle.Place) (t : ObjectShelf) (e : Error)
      (hk : s.founders[k]? = some (.making r p))
      (ht : t = s.shelf ∨ ∃ why, p = .opening (.removing why) ∨ p = .enlarging (.removing why)) :
      Happened host s ({ s with shelf := t }.setFounder k (.refused e)) []
  | use (k : Nat) (h : RingHandle) (c : Ring.Call) (source : ClockSource) (clock : Clock)
      (m' : Memory) (c' : Option Ring.Call) (fs : List Ring.Sight)
      (hk : s.founders[k]? = some (.holding h (some c)))
      (hc : Ring.callStep h.geometry source clock (s.shelf.memory h.object) c
        = some (m', c', fs)) :
      Happened host s ({ s with shelf := s.shelf.put h.object m' }.setFounder k (.holding h c'))
        (fs.map (.used h.object))

-- The start of a call.
theorem start_happened (host : String) (s s' : Founding) (k : Nat) (c : Ring.Call)
    (es : List Seen) (h : s.start k c = some (s', es)) : Happened host s s' es := by
  unfold start at h
  split at h
  next x hk =>
    simp only [Option.some.injEq, Prod.mk.injEq] at h
    rcases h with ⟨rfl, rfl⟩
    exact .call k x c hk
  next => exact absurd h (by simp only [reduceCtorEq, not_false_eq_true])

/-- A step does what acts do. -/
theorem step_happened (host : String) (s s' : Founding) (a : Act) (es : List Seen)
    (h : step host s a = some (s', es)) : Happened host s s' es := by
  cases a with
  | create r =>
      simp only [step] at h
      split_ifs at h with hr
      simp only [Option.some.injEq, Prod.mk.injEq] at h
      rcases h with ⟨rfl, rfl⟩
      exact .join r hr.1
  | write k msg => exact start_happened host s s' k _ es h
  | read k room deadline => exact start_happened host s s' k _ es h
  | move k source clock =>
      simp only [step] at h
      split at h
      next r p hk =>
        rcases RingHandle.createStep_cases r s.shelf p with
          ⟨t, q, notes, hgoto, hmoved⟩ | ⟨x, notes, hdone, hended⟩ | ⟨t, e, notes, hdone, ht⟩
        · simp only [hgoto, Option.some.injEq, Prod.mk.injEq] at h
          rcases h with ⟨rfl, rfl⟩
          exact .move k r p t q hk hmoved
        · simp only [hdone, Option.some.injEq, Prod.mk.injEq] at h
          rcases h with ⟨rfl, rfl⟩
          exact .gain k r p x hk hended
        · simp only [hdone, Option.some.injEq, Prod.mk.injEq] at h
          rcases h with ⟨rfl, rfl⟩
          exact .resign k r p t e hk ht
      next x c hk =>
        simp only [Option.map_eq_some_iff, Prod.mk.injEq] at h
        rcases h with ⟨⟨m', c', fs⟩, hc, rfl, rfl⟩
        exact .use k x c source clock m' c' fs hk hc
      next => exact absurd h (by simp only [reduceCtorEq, not_false_eq_true])

end Founding

/-- The party uses the ring in the object `i`, which has `size` bytes, or it is
    going to find it. -/
def Founder.Settled (host : String) (i : Nat) (g : Ring.Geometry) (size : Nat) : Founder → Prop
  | making r p => r.host = host ∧ (p = .opening (.creating false) ∨ p = .opening .opening ∨
      p = .opening (.measuring i) ∨ ∃ h, p = .adopting h ∧ h.object = i ∧ h.size = size)
  | holding h _ => h.object = i ∧ h.geometry = g
  | refused _ => True

namespace Founding

/-- There is a ring, and everybody uses it or is going to find it. -/
structure Settled (host : String) (i : Nat) (g : Ring.Geometry) (s : Founding) : Prop where
  ring : RingAt s.shelf host i g
  founders : ∀ f ∈ s.founders, f.Settled host i g (s.shelf.sizeOf i)

/-- What is seen of parties that use the ring in the object `i`: handles of its
    geometry, no header, and what a queue shows. -/
def Shows (i : Nat) (g : Ring.Geometry) (q : List (List UInt8)) (es : List Seen)
    (q' : List (List UInt8)) : Prop :=
  (∀ h, .returned h ∈ es → h.object = i ∧ h.geometry = g) ∧ (∀ j, .header j ∉ es) ∧
    (es.filterMap (Seen.sight? i)).foldlM (Ring.queued g) q = some q'

theorem shows_nil (i : Nat) (g : Ring.Geometry) (q : List (List UInt8)) : Shows i g q [] q :=
  ⟨fun _ h => absurd h List.not_mem_nil, fun _ => List.not_mem_nil, rfl⟩

theorem Shows.append {i : Nat} {g : Ring.Geometry} {q q' q'' : List (List UInt8)}
    {es fs : List Seen} (h : Shows i g q es q') (h' : Shows i g q' fs q'') :
    Shows i g q (es ++ fs) q'' := by
  refine ⟨fun x hx => ?_, fun j hj => ?_, ?_⟩
  · rcases List.mem_append.mp hx with hx | hx
    · exact h.1 x hx
    · exact h'.1 x hx
  · rcases List.mem_append.mp hj with hj | hj
    · exact h.2.1 j hj
    · exact h'.2.1 j hj
  · rw [List.filterMap_append, List.foldlM_append, h.2.2]
    exact h'.2.2

-- With a new role for one of the parties the others keep theirs.
theorem Settled.set {host : String} {i : Nat} {g : Ring.Geometry} {s : Founding}
    (h : Settled host i g s) (t : ObjectShelf) (k : Nat) (f : Founder)
    (ht : RingAt t host i g) (hsize : t.sizeOf i = s.shelf.sizeOf i)
    (hf : f.Settled host i g (s.shelf.sizeOf i)) :
    Settled host i g ({ s with shelf := t }.setFounder k f) := by
  refine ⟨ht, fun f' hf' => ?_⟩
  change f'.Settled host i g (t.sizeOf i)
  rw [hsize]
  rcases List.mem_or_eq_of_mem_set hf' with hf' | rfl
  · exact h.founders f' hf'
  · exact hf

/-- Where a party that is going to find the ring goes next: it does not get past
    its look. -/
theorem settled_moved {host : String} {i : Nat} {g : Ring.Geometry} {r : RingHandle.Request}
    {s t : ObjectShelf} {p q : RingHandle.Place} (hring : RingAt s host i g)
    (hp : (Founder.making r p).Settled host i g (s.sizeOf i)) (h : RingHandle.Moved r s p t q) :
    t = s ∧ (Founder.making r q).Settled host i g (s.sizeOf i) ∧ laid p = [] := by
  rcases hp with ⟨rfl, rfl | rfl | rfl | ⟨h', rfl, rfl, hsize⟩⟩
  · cases h with
    | call _ _ q h =>
        cases h with
        | make only hd hfree => exact absurd (hfree.symm.trans hring.1) (by
            simp only [reduceCtorEq, not_false_eq_true])
        | pass j hd hj => exact ⟨rfl, ⟨rfl, Or.inr (Or.inl rfl)⟩, rfl⟩
  · cases h with
    | call _ _ q h =>
        cases h with
        | find j hd hj hdir hallow =>
            rw [if_neg (by rw [(RingHandle.opening_attr r).2]; decide)]
            have hji : j = i := Option.some.inj (hj.symm.trans hring.1)
            rw [hji]
            exact ⟨rfl, ⟨rfl, Or.inr (Or.inr (Or.inl rfl))⟩, rfl⟩
  · cases h with
    | call _ _ q h => cases h
    | opened _ => exact ⟨rfl, ⟨rfl, Or.inr (Or.inr (Or.inr ⟨_, rfl, rfl, rfl⟩))⟩, rfl⟩
  · cases h with
    | pass _ hno =>
        have hring' := hring.2
        rw [← hsize] at hring'
        rcases hno with hno | ⟨_, hno⟩
        · exact absurd hno (RingHandle.header_le_of_adopt hring')
        · exact absurd (hno.symm.trans hring') (by simp only [reduceCtorEq, not_false_eq_true])

-- A handle that is returned is one of the ring that is there.
theorem settled_ended {host : String} {i : Nat} {g : Ring.Geometry} {r : RingHandle.Request}
    {s : ObjectShelf} {p : RingHandle.Place} {h : RingHandle} (hring : RingAt s host i g)
    (hp : (Founder.making r p).Settled host i g (s.sizeOf i)) (hended : RingHandle.Ended r s p h) :
    h.object = i ∧ h.geometry = g := by
  rcases hp with ⟨_, rfl | rfl | rfl | ⟨h', rfl, rfl, hsize⟩⟩
  · cases hended
  · cases hended
  · cases hended
  · cases hended with
    | found _ g' hm hle hg' =>
        rw [hsize, hring.2] at hg'
        exact ⟨rfl, (Option.some.inj hg').symm⟩

-- All that a call does to the ring in an object is seen of it.
theorem filterMap_used (i : Nat) (fs : List Ring.Sight) :
    (fs.map (Seen.used i)).filterMap (Seen.sight? i) = fs := by
  rw [List.filterMap_map]
  have hsome : Seen.sight? i ∘ Seen.used i = some := by
    funext e
    simp only [Function.comp_apply, Seen.sight?, if_true]
  rw [hsome, List.filterMap_some]

-- A party that is going to find the ring has no name to remove.
theorem settled_not_removing {host : String} {i size : Nat} {g : Ring.Geometry}
    {r : RingHandle.Request} {p : RingHandle.Place}
    (h : (Founder.making r p).Settled host i g size) :
    ¬∃ why, p = .opening (.removing why) ∨ p = .enlarging (.removing why) := by
  rintro ⟨why, rfl | rfl⟩
  · rcases h.2 with hp | hp | hp | ⟨x, hp, _⟩ <;>
      exact absurd hp (by simp only [RingHandle.Place.opening.injEq, reduceCtorEq,
        not_false_eq_true])
  · rcases h.2 with hp | hp | hp | ⟨x, hp, _⟩ <;>
      exact absurd hp (by simp only [reduceCtorEq, not_false_eq_true])

-- A step of a call on the ring that is there.
theorem settled_used {host : String} {s : Founding} {h : RingHandle} {c : Ring.Call}
    {source : ClockSource} {clock : Clock} {m' : Memory} {c' : Option Ring.Call}
    {fs : List Ring.Sight} (hs : Settled host h.object h.geometry s) (k : Nat)
    (hc : Ring.callStep h.geometry source clock (s.shelf.memory h.object) c = some (m', c', fs)) :
    Settled host h.object h.geometry
        ({ s with shelf := s.shelf.put h.object m' }.setFounder k (.holding h c')) ∧
      Shows h.object h.geometry (Ring.pending h.geometry (s.shelf.memory h.object))
        (fs.map (.used h.object)) (Ring.pending h.geometry m') := by
  have hkeep := Ring.adopt?_callStep h.geometry source clock _ m' c c' fs hs.ring.2 hc
  have hmem : (s.shelf.put h.object m').memory h.object = m' :=
    ObjectShelf.put_memory_self s.shelf h.object m'
  have hring : RingAt (s.shelf.put h.object m') host h.object h.geometry := by
    refine ⟨hs.ring.1, ?_⟩
    rw [ObjectShelf.sizeOf, hmem]
    exact hkeep.2
  have hsize : (s.shelf.put h.object m').sizeOf h.object = s.shelf.sizeOf h.object := by
    rw [ObjectShelf.sizeOf, hmem]
    exact hkeep.1
  refine ⟨hs.set _ k _ hring hsize ⟨rfl, rfl⟩, fun x hx => ?_, fun j hj => ?_, ?_⟩
  · rcases List.mem_map.mp hx with ⟨e, _, he⟩
    exact absurd he (by simp only [reduceCtorEq, not_false_eq_true])
  · rcases List.mem_map.mp hj with ⟨e, _, he⟩
    exact absurd he (by simp only [reduceCtorEq, not_false_eq_true])
  · rw [filterMap_used]
    exact Ring.callStep_queued h.geometry (Ring.adopt?_valid hs.ring.2).1.1 source clock _ m' c c'
      fs hc

/-- Whoever does something where there is a ring uses it as a queue, or goes on
    looking for it. -/
theorem settled_step (host : String) (i : Nat) (g : Ring.Geometry) (s s' : Founding) (a : Act)
    (es : List Seen) (h : Settled host i g s) (hs : step host s a = some (s', es)) :
    Settled host i g s' ∧ Shows i g (Ring.pending g (s.shelf.memory i)) es
      (Ring.pending g (s'.shelf.memory i)) := by
  have hrole : ∀ {k : Nat} {f : Founder}, s.founders[k]? = some f →
      f.Settled host i g (s.shelf.sizeOf i) :=
    fun hk => h.founders _ (List.mem_of_getElem? hk)
  cases step_happened host s s' a es hs with
  | join r hr =>
      refine ⟨⟨h.ring, fun f hf => ?_⟩, shows_nil i g _⟩
      rcases List.mem_append.mp hf with hf | hf
      · exact h.founders f hf
      · rw [List.mem_singleton.mp hf, RingHandle.start_eq]
        exact ⟨hr, Or.inl rfl⟩
  | call k x c hk =>
      have hx : x.object = i ∧ x.geometry = g := hrole hk
      exact ⟨h.set s.shelf k (.holding x (some c)) h.ring rfl hx, shows_nil i g _⟩
  | move k r p t q hk hm =>
      rcases settled_moved h.ring (hrole hk) hm with ⟨rfl, hq, hlaid⟩
      rw [hlaid]
      exact ⟨h.set s.shelf k _ h.ring rfl hq, shows_nil i g _⟩
  | gain k r p x hk he =>
      have hx := settled_ended h.ring (hrole hk) he
      refine ⟨h.set s.shelf k _ h.ring rfl hx, fun y hy => ?_, fun j hj => ?_, rfl⟩
      · rw [Seen.returned.inj (List.mem_singleton.mp hy)]
        exact hx
      · exact absurd (List.mem_singleton.mp hj) (by simp only [reduceCtorEq, not_false_eq_true])
  | resign k r p t e hk ht =>
      rw [ht.resolve_right (settled_not_removing (hrole hk))]
      exact ⟨h.set s.shelf k _ h.ring rfl trivial, shows_nil i g _⟩
  | use k x c source clock m' c' fs hk hc =>
      rcases hrole hk with ⟨rfl, rfl⟩
      rcases settled_used h k hc with ⟨hsettled, hshows⟩
      refine ⟨hsettled, ?_⟩
      change Shows _ _ _ _ (Ring.pending x.geometry ((s.shelf.put x.object m').memory x.object))
      rw [ObjectShelf.put_memory_self]
      exact hshows

/-- The same along every run. -/
theorem settled_run (host : String) (i : Nat) (g : Ring.Geometry) (s s' : Founding)
    (acts : List Act) (es : List Seen) (h : Settled host i g s)
    (hrun : Schedule.play (step host) s acts = some (s', es)) :
    Settled host i g s' ∧ Shows i g (Ring.pending g (s.shelf.memory i)) es
      (Ring.pending g (s'.shelf.memory i)) := by
  rcases Schedule.play_simulates (step host) (fun _ => True)
    (fun s q => Settled host i g s ∧ Ring.pending g (s.shelf.memory i) = q) (Shows i g)
    (shows_nil i g) (fun _ _ _ _ _ h1 h2 => h1.append h2)
    (fun s q a s' es hR _ hs => by
      rcases hR with ⟨hI, rfl⟩
      have hstep := settled_step host i g s s' a es hI hs
      exact ⟨_, hstep.2, hstep.1, rfl⟩)
    acts s s' _ es ⟨h, rfl⟩ (fun _ _ => trivial) hrun with ⟨_, hshows, hend, rfl⟩
  exact ⟨hend, hshows⟩

/-- Where everybody uses the ring that is there or is going to find it, nothing
    goes wrong. -/
theorem settled_sound (host : String) (i : Nat) (g : Ring.Geometry) (s₀ : Founding)
    (h : Settled host i g s₀) : Sound host s₀ := by
  refine ⟨fun acts s es hrun x x' hx hx' => ?_, fun acts s es hrun x hx => ?_,
    fun acts s es acts' s' es' j g' hrun hrun' hring => ?_⟩
  · have hshows := (settled_run host i g s₀ s acts es h hrun).2.1
    rw [(hshows x hx).2, (hshows x' hx').2]
  · rcases settled_run host i g s₀ s acts es h hrun with ⟨hs, hshows⟩
    rw [(hshows.1 x hx).1, (hshows.1 x hx).2]
    exact hs.ring
  · have hs := (settled_run host i g s₀ s acts es h hrun).1
    have hj : j = i := Option.some.inj (hring.1.symm.trans hs.ring.1)
    rw [hj] at hring ⊢
    have hg : g' = g := Option.some.inj (hring.2.symm.trans hs.ring.2)
    rw [hg]
    rcases settled_run host i g s s' acts' es' hs hrun' with ⟨hs', hshows⟩
    exact ⟨hs'.ring, hshows.2.1 i, hshows.2.2⟩

-- A step of one party that opens or makes a ring is a move.
theorem step_goto (host : String) (F : Founding) (k : Nat) (r : RingHandle.Request)
    (p q : RingHandle.Place) (t : ObjectShelf) (notes : List Note)
    (hk : F.founders[k]? = some (.making r p))
    (h : RingHandle.createStep r F.shelf p = .goto t q notes) :
    step host F (.move k .monotonic ⟨0, 0⟩)
      = some (⟨t, F.founders.set k (.making r q)⟩, laid p) := by
  simp only [step, hk, h]
  rfl

/-- A way of one party, while all others wait. -/
theorem play_walk (host : String) (r : RingHandle.Request) (k n : Nat) (s t : ObjectShelf)
    (p q : RingHandle.Place) (h : Walk (RingHandle.createStep r) n s p t q) :
    ∀ F : Founding, F.shelf = s → F.founders[k]? = some (.making r p) →
      ∃ es, Schedule.play (step host) F (List.replicate n (.move k .monotonic ⟨0, 0⟩))
        = some (⟨t, F.founders.set k (.making r q)⟩, es) := by
  induction h with
  | here s p =>
      rintro F rfl hk
      refine ⟨[], ?_⟩
      have hsame : F.founders.set k (.making r p) = F.founders := by
        refine List.ext_getElem? (fun j => ?_)
        rw [List.getElem?_set]
        by_cases hj : k = j
        · rw [if_pos hj, ← hj, hk, if_pos (List.getElem?_eq_some_iff.mp hk).1]
        · rw [if_neg hj]
      rw [hsame]
      rfl
  | cons n s s' t p p' q notes first _ ih =>
      rintro F rfl hk
      have hmove := step_goto host F k r p p' s' notes hk first
      have hlt := (List.getElem?_eq_some_iff.mp hk).1
      rcases ih ⟨s', F.founders.set k (.making r p')⟩ rfl (List.getElem?_set_self hlt) with
        ⟨es, hrest⟩
      rw [List.set_set] at hrest
      refine ⟨laid p ++ es, ?_⟩
      rw [List.replicate_succ, Schedule.play_cons_iff]
      exact ⟨_, _, _, hmove, hrest, rfl⟩

/-- From a look in vain a party gets to a ring of its own geometry, whatever the
    others have done in the meantime. -/
theorem play_finish (host : String) (F : Founding) (k : Nat) (r : RingHandle.Request)
    (h : ShmHandle) (hk : F.founders[k]? = some (.making r (RingHandle.afterLook r h)))
    (hd : r.descriptorLeft = true) (hu : F.shelf.Usable r.host h.object)
    (hdir : ObjectShelf.isDirectory h.object = false) (hw : h.writable = true)
    (hfits : h.size < ObjectShelf.mapLimit) (hg : r.geometry.size < ObjectShelf.mapLimit) :
    ∃ acts m x es, Schedule.play (step host) F acts
        = some (⟨F.shelf.put h.object m, F.founders.set k (.holding x none)⟩, es) ∧
      .returned x ∈ es ∧ x.geometry = r.geometry := by
  rcases RingHandle.walk_enlarged hd hu hdir hw hfits hg with ⟨n, m, h', _, ho, _, _, hwalk⟩
  have hlaid := RingHandle.walk_laid (r := r) h' (Ring.headerStores r.geometry)
    (F.shelf.put h.object m)
  rw [ho, ObjectShelf.put_memory_self, ObjectShelf.put_put] at hlaid
  rcases play_walk host r k _ _ _ _ _ (hwalk.append hlaid) F rfl hk with ⟨es, hrun⟩
  have hlt := (List.getElem?_eq_some_iff.mp hk).1
  refine ⟨_, m.storeAll (Ring.headerStores r.geometry), ⟨h'.object, h'.size, r.geometry⟩, _,
    Schedule.play_append (step host) _ [.move k .monotonic ⟨0, 0⟩] F _ _ es
      [.returned ⟨h'.object, h'.size, r.geometry⟩] hrun ?_,
    List.mem_append_right _ (List.mem_singleton_self _), rfl⟩
  simp only [Schedule.play, step, List.getElem?_set_self hlt, RingHandle.createStep, setFounder,
    List.set_set]
  rfl

/-- Rings can be made under the name: it is free, or its object can be used. -/
def Open (s : ObjectShelf) (host : String) : Prop :=
  (s.names host = none ∧ ObjectShelf.isDirectory s.next = false) ∨ ∃ i, s.Reachable host i

/-- Where a ring can be made and there is none, a party looks in vain, in the
    object that is there or in a new one. -/
theorem walk_look (r : RingHandle.Request) (s : ObjectShelf) (hd : r.descriptorLeft = true)
    (hg : r.geometry.size < ObjectShelf.mapLimit) (hopen : Open s r.host)
    (hno : ∀ i g, ¬RingAt s r.host i g) :
    ∃ t i, Walk (RingHandle.createStep r) 3 s RingHandle.start t
        (.adopting ⟨i, r.host, t.sizeOf i, true⟩) ∧
      t.Reachable r.host i ∧ Ring.adopt? (t.sizeOf i) (t.memory i) = none ∧
      (t = s ∨ s.names r.host = none ∧ i = s.next ∧ t = RingHandle.founded r s) := by
  rcases hopen with ⟨hfree, hdir⟩ | ⟨i, hreach⟩
  · have hmem : (RingHandle.founded r s).memory s.next = (Memory.zeros 0).resize r.geometry.size :=
      ObjectShelf.put_memory_self _ _ _
    have hsize : (RingHandle.founded r s).sizeOf s.next = r.geometry.size :=
      congrArg Memory.size hmem
    have hwalk := RingHandle.walk_made hd hfree (Nat.lt_trans hg (by decide))
    refine ⟨RingHandle.founded r s, s.next, ?_, ⟨RingHandle.founded_usable r s, hdir, ?_⟩, ?_,
      Or.inr ⟨hfree, rfl, rfl⟩⟩
    · rw [hsize]
      exact hwalk
    · rw [hsize]
      exact hg
    · rw [hsize, hmem]
      exact RingHandle.adopt?_new _
  · refine ⟨s, i, RingHandle.walk_found hd hreach.usable hreach.is_memory, hreach, ?_, Or.inl rfl⟩
    rw [Option.eq_none_iff_forall_ne_some]
    exact fun g hg => hno i g ⟨hreach.usable.named, hg⟩

/-- Where a ring can be made and there is none, two parties can both look in vain
    and then lay out one header over the other: each gets the geometry that it
    has asked for. -/
theorem unsettled_run (s : ObjectShelf) (r r' : RingHandle.Request) (hhost : r'.host = r.host)
    (hopen : Open s r.host) (hno : ∀ i g, ¬RingAt s r.host i g)
    (hd : r.descriptorLeft = true) (hd' : r'.descriptorLeft = true)
    (hg : r.geometry.Valid) (hg' : r'.geometry.Valid)
    (hfits : r.geometry.size < ObjectShelf.mapLimit)
    (hfits' : r'.geometry.size < ObjectShelf.mapLimit) :
    ∃ acts t es x x', Schedule.play (step r.host) ⟨s, []⟩ acts = some (t, es) ∧
      .returned x ∈ es ∧ .returned x' ∈ es ∧ x.geometry = r.geometry ∧
      x'.geometry = r'.geometry := by
  rcases walk_look r s hd hfits hopen hno with ⟨t, i, hlook, hreach, hnone, _⟩
  have hreach' : t.Reachable r'.host i := hhost ▸ hreach
  have hlook' := RingHandle.walk_found hd' hreach'.usable hreach'.is_memory
  have hbegin : Schedule.play (step r.host) ⟨s, []⟩ [.create r, .create r']
      = some (⟨s, [.making r RingHandle.start, .making r' RingHandle.start]⟩, []) := by
    simp only [Schedule.play, step, hhost, hg, hg', and_self, if_true]
    rfl
  -- Both look before either of them makes a store.
  rcases play_walk r.host r 0 _ _ _ _ _
    (hlook.append (RingHandle.moved_pass hreach hnone).walk)
    ⟨s, [.making r RingHandle.start, .making r' RingHandle.start]⟩ rfl rfl with ⟨es₁, hrun₁⟩
  rcases play_walk r.host r' 1 _ _ _ _ _
    (hlook'.append (RingHandle.moved_pass hreach' hnone).walk)
    ⟨t, [.making r (RingHandle.afterLook r ⟨i, r.host, t.sizeOf i, true⟩),
      .making r' RingHandle.start]⟩ rfl rfl with ⟨es₂, hrun₂⟩
  -- Then each of them lays out its header, one after the other.
  rcases play_finish r.host
    ⟨t, [.making r (RingHandle.afterLook r ⟨i, r.host, t.sizeOf i, true⟩),
      .making r' (RingHandle.afterLook r' ⟨i, r'.host, t.sizeOf i, true⟩)]⟩
    0 r ⟨i, r.host, t.sizeOf i, true⟩ rfl hd hreach.usable hreach.is_memory rfl hreach.fits hfits
    with ⟨acts₃, m, x, es₃, hrun₃, hx, hxg⟩
  rcases play_finish r.host
    ⟨t.put i m, [.holding x none,
      .making r' (RingHandle.afterLook r' ⟨i, r'.host, t.sizeOf i, true⟩)]⟩
    1 r' ⟨i, r'.host, t.sizeOf i, true⟩ rfl hd' (hreach'.usable.put i m) hreach'.is_memory rfl
    hreach'.fits hfits' with ⟨acts₄, m', x', es₄, hrun₄, hx', hxg'⟩
  exact ⟨_, _, _, x, x', Schedule.play_append _ _ _ _ _ _ _ _ (Schedule.play_append _ _ _ _ _ _ _ _
    (Schedule.play_append _ _ _ _ _ _ _ _ (Schedule.play_append _ _ _ _ _ _ _ _ hbegin hrun₁)
      hrun₂) hrun₃) hrun₄, List.mem_append_left _ (List.mem_append_right _ hx),
    List.mem_append_right _ hx', hxg, hxg'⟩

theorem unsettled_unsound (host : String) (s : ObjectShelf) (hopen : Open s host)
    (hno : ∀ i g, ¬RingAt s host i g) : ¬Sound host ⟨s, []⟩ := by
  intro hsound
  rcases unsettled_run s ⟨host, host, ⟨2, 2⟩, true⟩ ⟨host, host, ⟨4, 1⟩, true⟩ rfl hopen hno rfl rfl
    (show Ring.Geometry.Valid ⟨2, 2⟩ by decide) (show Ring.Geometry.Valid ⟨4, 1⟩ by decide)
    (show Ring.Geometry.size ⟨2, 2⟩ < ObjectShelf.mapLimit by decide)
    (show Ring.Geometry.size ⟨4, 1⟩ < ObjectShelf.mapLimit by decide) with
    ⟨acts, t, es, x, x', hrun, hx, hx', hxg, hxg'⟩
  have heq := hsound.agree acts t es hrun x x' hx hx'
  rw [hxg, hxg'] at heq
  exact absurd heq (show ¬(⟨2, 2⟩ : Ring.Geometry) = ⟨4, 1⟩ by decide)

/-- A party that gets a ring alone leaves one under the name. -/
theorem create_ringAt (s s' : ObjectShelf) (descriptorLeft : Bool) (name host : String)
    (g : Ring.Geometry) (h : RingHandle) (notes : List Note)
    (hname : ObjectName.check (ObjectName.withSlash name) = .ok host)
    (hmade : RingHandle.create s descriptorLeft name g = (s', .ok h, notes)) :
    RingAt s' host h.object h.geometry := by
  rcases RingHandle.create_ended s s' descriptorLeft name g h notes hmade with
    ⟨host', q, hname', hg, hq, hended⟩
  have hhost : host' = host := Except.ok.inj (hname'.symm.trans hname)
  rw [hhost] at hq
  cases hended with
  | found h' g' hm hsize hadopt =>
      refine ⟨hq.usable.named, ?_⟩
      rw [← hq.size_eq]
      exact hadopt
  | laid h' =>
      rcases hq with ⟨hopened, hle, _, before, m, hsplit, hmem⟩
      rw [List.append_nil] at hsplit
      refine ⟨hopened.usable.named, ?_⟩
      rw [← hopened.size_eq, hmem, ← hsplit]
      exact Ring.adopt?_header m g _ hg hle

/-- Founding a ring together is sound exactly where the ring is there already, as
    it is once a party has made it alone. -/
theorem founding_sound_iff (host : String) (s : ObjectShelf) (hopen : Open s host) :
    (Sound host ⟨s, []⟩ ↔ ∃ i g, RingAt s host i g) ∧
    ∀ name descriptorLeft g s' h notes,
      ObjectName.check (ObjectName.withSlash name) = .ok host →
      RingHandle.create s descriptorLeft name g = (s', .ok h, notes) → Sound host ⟨s', []⟩ := by
  have hsettled : ∀ t i g, RingAt t host i g → Sound host ⟨t, []⟩ := fun t i g hring =>
    settled_sound host i g ⟨t, []⟩ ⟨hring, fun f hf => absurd hf List.not_mem_nil⟩
  refine ⟨⟨fun hsound => ?_, fun ⟨i, g, hring⟩ => hsettled s i g hring⟩,
    fun name d g s' h notes hname hmade =>
      hsettled s' _ _ (create_ringAt s s' d name host g h notes hname hmade)⟩
  by_cases hring : ∃ i g, RingAt s host i g
  · exact hring
  · exact absurd hsound (unsettled_unsound host s hopen
      (fun i g h => hring ⟨i, g, h⟩))

/-- After a ring has been made on an empty shelf, whoever comes uses it. -/
theorem founding_sound_after_first :
    Sound "/ring" ⟨(RingHandle.create ObjectShelf.empty true "ring" ⟨2, 2⟩).1, []⟩ :=
  (founding_sound_iff "/ring" ObjectShelf.empty (Or.inl ⟨rfl, rfl⟩)).2 "ring" true ⟨2, 2⟩ _
    ⟨1, 116, ⟨2, 2⟩⟩ (RingHandle.create ObjectShelf.empty true "ring" ⟨2, 2⟩).2.2 rfl rfl

/-- Two parties find an empty shelf. The first one makes a ring and writes a
    message, and then the second one lays out its header over both. -/
theorem two_founders :
    (Schedule.play (step "/ring") ⟨ObjectShelf.empty, []⟩
      ([.create ⟨"ring", "/ring", ⟨2, 2⟩, true⟩, .create ⟨"ring", "/ring", ⟨4, 1⟩, true⟩] ++
        List.replicate 4 (.move 0 .monotonic ⟨0, 0⟩) ++
        List.replicate 4 (.move 1 .monotonic ⟨0, 0⟩) ++
        List.replicate 13 (.move 0 .monotonic ⟨0, 0⟩) ++
        [.write 0 [65], .move 0 .monotonic ⟨0, 0⟩, .move 0 .monotonic ⟨0, 0⟩] ++
        List.replicate 13 (.move 1 .monotonic ⟨0, 0⟩))).map
      (fun r => (r.2, Ring.pending ⟨4, 1⟩ (r.1.shelf.memory 1)))
      = some (List.replicate 11 (.header 1) ++
          [.returned ⟨1, 116, ⟨2, 2⟩⟩, .used 1 (.stored [65])] ++
          List.replicate 11 (.header 1) ++ [.returned ⟨1, 116, ⟨4, 1⟩⟩], []) ∧
    ¬Sound "/ring" ⟨ObjectShelf.empty, []⟩ := by
  have hfree : ObjectShelf.empty.names "/ring" = none := rfl
  refine ⟨by decide +kernel, unsettled_unsound "/ring" ObjectShelf.empty
    (Or.inl ⟨hfree, rfl⟩) (fun i g h => ?_)⟩
  exact absurd (hfree.symm.trans h.1) (by simp only [reduceCtorEq, not_false_eq_true])

end Founding

end HostLayer
