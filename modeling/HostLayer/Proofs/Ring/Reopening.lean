import HostLayer.Proofs.Ring.Abandoned
import HostLayer.Proofs.Ring.Founding

/-!
# Reopening Rings

What a party that is alone gets under a name, whatever stands there.

There may be nothing, an object that is too short for a header, or one with any
bytes in it. If its header makes sense the party gets that ring with everything
in it, and the geometry that it has asked for does not matter. Otherwise it gets
the ring that it wants, and the object has become larger if it was too small. A
party that attaches gets what is there or nothing, and leaves no trace.

Both find what somebody else has left who made a ring here before. Calls keep
the object as large as it was and its header as it was laid out (`Settled`), so
however long the ring has been in use, opening it again gives the same handle
(`settled_reopens`), and the messages in it are those that the calls have left.

## Main definitions

* `RingHandle.Reopens`: Whoever comes next gets the same handle.
* `RingHandle.Faithful`: What creating and attaching do under a name.

## Theorems

* `RingHandle.attach_missing`, `RingHandle.attach_keeps`: Attaching in vain, and
  what attaching leaves behind.
* `RingHandle.attach_iff`: What can be attached to.
* `RingHandle.create_made`: What is made where there is no ring.
* `RingHandle.create_reachable`: A ring that has been got can be got again.
* `Founding.settled_reachable`, `Founding.settled_reopens`: The same after it has
  been used.
* `RingHandle.create_attach_faithful`: Creating and attaching under any name.
-/

namespace HostLayer

namespace RingHandle

section Attaching

variable (s : ObjectShelf) (descriptorLeft : Bool) (name host : String)

-- Opening to attach asks and measures, and does nothing else.
theorem attachStep_cases (t : ObjectShelf) (p : ShmHandle.Place)
    (hp : p = .opening ∨ ∃ i, p = .measuring i) :
    (∃ i notes, ShmHandle.openStep ⟨host, attachAttr, 0, descriptorLeft⟩ t p
      = .goto t (.measuring i) notes) ∨
    ∃ a notes, ShmHandle.openStep ⟨host, attachAttr, 0, descriptorLeft⟩ t p = .done t a notes := by
  rcases ShmHandle.openStep_cases ⟨host, attachAttr, 0, descriptorLeft⟩ t p with
    ⟨u, q, notes, hgoto, hmoved⟩ | ⟨i, _, hdone⟩ | ⟨u, e, notes, hdone, hu⟩
  · rcases hp with rfl | ⟨i, rfl⟩
    · cases hmoved with
      | find i hd hi hdir hallow =>
          rw [if_neg (show ¬attachAttr.trunc = true by decide)] at hgoto
          exact Or.inl ⟨i, notes, hgoto⟩
    · cases hmoved
  · exact Or.inr ⟨_, _, hdone⟩
  · have hsame : u = t := by
      refine hu.resolve_right ?_
      rintro ⟨why, rfl, _⟩
      exact absurd hp (by simp only [reduceCtorEq, exists_false, or_self, not_false_eq_true])
    rw [hsame] at hdone
    exact Or.inr ⟨_, _, hdone⟩

-- So does the whole run.
theorem open_attach_keeps : (ShmHandle.open s descriptorLeft name attachAttr 0).1 = s := by
  unfold ShmHandle.open
  rcases hname : ObjectName.check (ObjectName.withSlash name) with e | host
  · rfl
  have hrun := runSteps_keeps (ShmHandle.openStep ⟨host, attachAttr, 0, descriptorLeft⟩)
    (fun t p => t = s ∧ (p = .opening ∨ ∃ i, p = .measuring i))
    (fun t p t' p' notes hI hstep => by
      rcases attachStep_cases descriptorLeft host t p hI.2 with
        ⟨i, more, hgoto⟩ | ⟨a, more, hdone⟩
      · rw [hstep, Step.goto.injEq] at hgoto
        rw [hgoto.1, hgoto.2.1]
        exact ⟨hI.1, Or.inr ⟨i, rfl⟩⟩
      · exact absurd (hstep.symm.trans hdone) (by simp only [reduceCtorEq, not_false_eq_true]))
    ShmHandle.openCalls s (ShmHandle.start attachAttr) []
    ⟨rfl, Or.inl (show ShmHandle.start attachAttr = .opening by decide)⟩
  have hstate : (runSteps (ShmHandle.openStep ⟨host, attachAttr, 0, descriptorLeft⟩)
      ShmHandle.openCalls s (ShmHandle.start attachAttr) []).state = s := by
    rcases hout : (runSteps (ShmHandle.openStep ⟨host, attachAttr, 0, descriptorLeft⟩)
      ShmHandle.openCalls s (ShmHandle.start attachAttr) []).outcome with q | a
    · exact (hrun.1 q hout).1
    · rcases hrun.2 a hout with ⟨t, q, more, ⟨rfl, hq⟩, hlast⟩
      rcases attachStep_cases descriptorLeft host t q hq with ⟨i, notes, hgoto⟩ | ⟨b, notes, hdone⟩
      · exact absurd (hlast.symm.trans hgoto) (by simp only [reduceCtorEq, not_false_eq_true])
      · exact (Step.done.inj (hlast.symm.trans hdone)).1
  simp only []
  split
  next => exact hstate
  next => exact hstate
  next => exact hstate

/-- Attaching leaves everything as it was, whatever comes of it. -/
theorem attach_keeps : (attach s descriptorLeft name).1 = s := by
  have hkeep := open_attach_keeps s descriptorLeft name
  unfold attach
  rcases hopen : ShmHandle.open s descriptorLeft name attachAttr 0 with ⟨t, e | h, notes⟩
  · rw [hopen] at hkeep
    exact hkeep
  · rw [hopen] at hkeep
    simp only []
    split_ifs
    · exact hkeep
    · split
      next => exact hkeep
      next =>
        split
        next => exact hkeep
        next => exact hkeep

variable {s name host}

/-- There is nothing to attach to. -/
theorem attach_missing (hname : ObjectName.check (ObjectName.withSlash name) = .ok host)
    (hfree : s.names host = none) :
    ∃ notes, attach s true name = (s, .error .notFound, notes) := by
  rcases hcause : Errno.translate ShmHandle.openCause "shm_open" .noEntry with ⟨cause, notes⟩
  have hnotFound : cause = .notFound := by
    have h : (Errno.translate ShmHandle.openCause "shm_open" .noEntry).1 = .notFound := by decide
    rw [hcause] at h
    exact h
  have hstep : ShmHandle.openStep ⟨host, attachAttr, 0, true⟩ s .opening
      = .done s (.error .notFound) notes := by
    simp only [ShmHandle.openStep, ObjectShelf.openExisting, hfree, Bool.not_true,
      Bool.false_eq_true, if_false, ShmHandle.openStep.refuse, hcause, hnotFound]
  have hrun : runSteps (ShmHandle.openStep ⟨host, attachAttr, 0, true⟩) ShmHandle.openCalls s
      .opening [] = ⟨s, .inr (.error .notFound), [] ++ notes⟩ :=
    runSteps_done _ 3 _ _ _ _ _ _ hstep
  refine ⟨[] ++ notes, ?_⟩
  unfold attach ShmHandle.open
  rw [hname]
  simp only [show ShmHandle.start attachAttr = .opening by decide, hrun]

-- What can stand under a name that can be used.
theorem open_cases (hopen : Founding.Open s host) :
    s.names host = none ∨ ∃ i, s.Reachable host i ∧
      (Ring.adopt? (s.sizeOf i) (s.memory i) = none ∨ ∃ g, RingAt s host i g) := by
  rcases hopen with ⟨hfree, _⟩ | ⟨i, hreach⟩
  · exact Or.inl hfree
  · refine Or.inr ⟨i, hreach, ?_⟩
    rcases hg : Ring.adopt? (s.sizeOf i) (s.memory i) with _ | g
    · exact Or.inl rfl
    · exact Or.inr ⟨g, hreach.usable.named, hg⟩

-- A ring can be reached if its name can be used.
theorem ring_reachable {i : Nat} {g : Ring.Geometry} (hopen : Founding.Open s host)
    (hring : RingAt s host i g) : s.Reachable host i := by
  rcases hopen with ⟨hfree, _⟩ | ⟨j, hreach⟩
  · exact absurd (hfree.symm.trans hring.1) (by simp only [reduceCtorEq, not_false_eq_true])
  · rw [Option.some.inj (hring.1.symm.trans hreach.usable.named)]
    exact hreach

/-- A handle comes from attaching exactly if it is one of the ring that is
    there. -/
theorem attach_iff (hname : ObjectName.check (ObjectName.withSlash name) = .ok host)
    (hopen : Founding.Open s host) (h : RingHandle) :
    (∃ notes, attach s true name = (s, .ok h, notes)) ↔
      RingAt s host h.object h.geometry ∧ h.length = s.sizeOf h.object := by
  constructor
  · rintro ⟨notes, hgot⟩
    rcases open_cases hopen with hfree | ⟨i, hreach, hnone | ⟨g, hring⟩⟩
    · rcases attach_missing hname hfree with ⟨more, hno⟩
      exact absurd (hno.symm.trans hgot) refused_ne
    · rcases attach_refused hname hreach hnone with ⟨more, hno⟩
      exact absurd (hno.symm.trans hgot) refused_ne
    · rcases attach_found hname hreach hring.2 with ⟨more, hfound⟩
      have heq := hfound.symm.trans hgot
      simp only [Prod.mk.injEq, Except.ok.injEq, true_and] at heq
      rw [← heq.1]
      exact ⟨hring, rfl⟩
  · rintro ⟨hring, hlength⟩
    rcases attach_found hname (ring_reachable hopen hring) hring.2 with ⟨notes, hfound⟩
    rw [← hlength] at hfound
    exact ⟨notes, hfound⟩

/-- What is made where there is no ring. -/
theorem create_made (hname : ObjectName.check (ObjectName.withSlash name) = .ok host)
    (hopen : Founding.Open s host) (hno : ∀ i g, ¬RingAt s host i g) (g : Ring.Geometry)
    (hg : g.Valid) (hfits : g.size < ObjectShelf.mapLimit) :
    ∃ t i m notes, create s true name g = (t.put i m, .ok ⟨i, m.size, g⟩, notes) ∧
      g.size ≤ m.size ∧ Ring.Complete m.size g m ∧
      (t = s ∧ s.names host = some i ∨
        t = s.made host ShmAttr.createRw.mode ∧ s.names host = none ∧ i = s.next) := by
  rcases Founding.walk_look ⟨name, host, g, true⟩ s rfl hfits hopen hno with
    ⟨t, i, hlook, hreach, hnone, hfrom⟩
  rcases create_laid hname ⟨rfl, hg, hfits, hreach, hnone⟩ hlook with ⟨m, notes, hmade, hm⟩
  have hle := (Ring.adopt?_valid hm.adopted).2
  rcases hfrom with rfl | ⟨hfree, rfl, rfl⟩
  · exact ⟨t, i, m, notes, hmade, hle, hm, Or.inl ⟨rfl, hreach.usable.named⟩⟩
  · rw [founded, ObjectShelf.put_put] at hmade
    exact ⟨_, _, m, notes, hmade, hle, hm, Or.inr ⟨rfl, hfree, rfl⟩⟩

end Attaching

/-- A ring that somebody has got alone can be got again. -/
theorem create_reachable (s s' : ObjectShelf) (descriptorLeft : Bool) (name host : String)
    (g : Ring.Geometry) (h : RingHandle) (notes : List Note)
    (hname : ObjectName.check (ObjectName.withSlash name) = .ok host)
    (hmade : create s descriptorLeft name g = (s', .ok h, notes)) :
    s'.Reachable host h.object ∧ h.length = s'.sizeOf h.object := by
  rcases create_ended s s' descriptorLeft name g h notes hmade with
    ⟨host', q, hname', _, hq, hended⟩
  have hhost : host' = host := Except.ok.inj (hname'.symm.trans hname)
  rw [hhost] at hq
  have hopened : ∀ x : ShmHandle, Opened ⟨name, host, g, descriptorLeft⟩ s' x → x.Mappable →
      s'.Reachable host x.object ∧ x.size = s'.sizeOf x.object := fun x hx hm =>
    ⟨⟨hx.usable, hm.is_memory, by rw [← hx.size_eq]; exact hm.fits⟩, hx.size_eq⟩
  cases hended with
  | found x g' hm hsize hadopt => exact hopened x hq hm
  | laid x => exact hopened x hq.1 hq.2.2.1

/-- Whoever opens the ring under a name, and whoever wants one there, gets this
    handle and leaves everything as it was. -/
structure Reopens (name : String) (h : RingHandle) (s : ObjectShelf) : Prop where
  attaching : ∃ notes, attach s true name = (s, .ok h, notes)
  creating : ∀ g : Ring.Geometry, g.Valid → ∃ notes, create s true name g = (s, .ok h, notes)

end RingHandle

namespace Founding

-- A step leaves the object that everybody uses open to everybody, and as large
-- as it was.
theorem settled_object {host : String} {i : Nat} {g : Ring.Geometry} {s s' : Founding} {a : Act}
    {es : List Seen} (h : Settled host i g s) (hs : step host s a = some (s', es)) :
    s'.shelf.mode = s.shelf.mode ∧ s'.shelf.sizeOf i = s.shelf.sizeOf i := by
  have hrole : ∀ {k : Nat} {f : Founder}, s.founders[k]? = some f →
      f.Settled host i g (s.shelf.sizeOf i) :=
    fun hk => h.founders _ (List.mem_of_getElem? hk)
  cases step_happened host s s' a es hs with
  | join r hr => exact ⟨rfl, rfl⟩
  | call k x c hk => exact ⟨rfl, rfl⟩
  | move k r p t q hk hm =>
      rcases settled_moved h.ring (hrole hk) hm with ⟨rfl, _⟩
      exact ⟨rfl, rfl⟩
  | gain k r p x hk he => exact ⟨rfl, rfl⟩
  | resign k r p t e hk ht =>
      rw [ht.resolve_right (settled_not_removing (hrole hk))]
      exact ⟨rfl, rfl⟩
  | use k x c source clock m' c' fs hk hc =>
      rcases hrole hk with ⟨rfl, rfl⟩
      refine ⟨rfl, ?_⟩
      change (s.shelf.put x.object m').sizeOf x.object = s.shelf.sizeOf x.object
      rw [ObjectShelf.sizeOf, ObjectShelf.put_memory_self]
      exact (Ring.adopt?_callStep x.geometry source clock _ m' c c' fs h.ring.2 hc).1

/-- An object that can be reached stays so, and as large as it was, along every
    run of parties that use the ring in it. -/
theorem settled_reachable (host : String) (i : Nat) (g : Ring.Geometry) (s s' : Founding)
    (acts : List Act) (es : List Seen) (h : Settled host i g s)
    (hreach : s.shelf.Reachable host i)
    (hrun : Schedule.play (step host) s acts = some (s', es)) :
    s'.shelf.Reachable host i ∧ s'.shelf.sizeOf i = s.shelf.sizeOf i := by
  have hend := Schedule.play_keeps (step host) (fun _ => True) (fun _ => True)
    (fun t => Settled host i g t ∧ t.shelf.mode = s.shelf.mode ∧
      t.shelf.sizeOf i = s.shelf.sizeOf i)
    (fun t a t' es hI _ _ hs => by
      have hnext := settled_object hI.1 hs
      exact ⟨(settled_step host i g t t' a es hI.1 hs).1, hnext.1.trans hI.2.1,
        hnext.2.trans hI.2.2⟩)
    acts s s' es ⟨h, rfl, rfl⟩ (fun _ _ => trivial) (fun _ _ => trivial) hrun
  rcases hend with ⟨hsettled, hmode, hsize⟩
  refine ⟨⟨⟨hsettled.ring.1, ?_⟩, hreach.is_memory, ?_⟩, hsize⟩
  · rw [hmode]
    exact hreach.usable.allowed
  · rw [hsize]
    exact hreach.fits

/-- Where everybody uses the ring that is there, or is going to find it, the next
    party gets it as well, with what the others have left in it. -/
theorem settled_reopens (name host : String)
    (hname : ObjectName.check (ObjectName.withSlash name) = .ok host) (h : RingHandle)
    (s s' : Founding) (acts : List Act) (es : List Seen)
    (hsettled : Settled host h.object h.geometry s) (hreach : s.shelf.Reachable host h.object)
    (hlength : h.length = s.shelf.sizeOf h.object)
    (hrun : Schedule.play (step host) s acts = some (s', es)) :
    RingHandle.Reopens name h s'.shelf := by
  rcases settled_reachable host h.object h.geometry s s' acts es hsettled hreach hrun with
    ⟨hreach', hsize⟩
  have hring := (settled_run host h.object h.geometry s s' acts es hsettled hrun).1.ring
  have hhandle : (⟨h.object, s'.shelf.sizeOf h.object, h.geometry⟩ : RingHandle) = h := by
    rw [hsize, ← hlength]
  refine ⟨?_, fun g hg => ?_⟩
  · rcases RingHandle.attach_found hname hreach' hring.2 with ⟨notes, hfound⟩
    rw [hhandle] at hfound
    exact ⟨notes, hfound⟩
  · rcases RingHandle.create_found hname hreach' hring.2 g hg with ⟨notes, hfound⟩
    rw [hhandle] at hfound
    exact ⟨notes, hfound⟩

end Founding

namespace RingHandle

/-- What a party that is alone gets under a name. -/
structure Faithful (name host : String) (s : ObjectShelf) : Prop where
  /-- A geometry that no ring can have is refused before anything is done. -/
  out_of_range : ∀ descriptorLeft (g : Ring.Geometry),
    g.slots < 2 ∨ word32 ≤ g.slots ∨ g.slotSize = 0 ∨ word64 ≤ g.size →
    create s descriptorLeft name g = (s, .error .invalidParam, [])
  /-- Who wants a ring where one is gets that one, with everything in it. -/
  adopted : ∀ i g, RingAt s host i g → ∀ g' : Ring.Geometry, g'.Valid →
    ∃ notes, create s true name g' = (s, .ok ⟨i, s.sizeOf i, g⟩, notes)
  /-- Where there is none, an empty one is made of the object that is there, or of
      a new one. -/
  made : (∀ i g, ¬RingAt s host i g) → ∀ g : Ring.Geometry, g.Valid →
    g.size < ObjectShelf.mapLimit →
    ∃ t i m notes, create s true name g = (t.put i m, .ok ⟨i, m.size, g⟩, notes) ∧
      g.size ≤ m.size ∧ Ring.Complete m.size g m ∧
      (t = s ∧ s.names host = some i ∨
        t = s.made host ShmAttr.createRw.mode ∧ s.names host = none ∧ i = s.next)
  /-- Who attaches gets the ring that is there, and no other. -/
  attached : ∀ h : RingHandle, (∃ notes, attach s true name = (s, .ok h, notes)) ↔
    RingAt s host h.object h.geometry ∧ h.length = s.sizeOf h.object
  /-- Where there is no object, and where the object is no ring, attaching is
      refused. -/
  refused : (s.names host = none → ∃ notes, attach s true name = (s, .error .notFound, notes)) ∧
    ∀ i, s.names host = some i → (∀ g, ¬RingAt s host i g) →
      ∃ notes, attach s true name = (s, .error .invalidParam, notes)
  /-- Attaching leaves everything as it was, even if the host refuses it. -/
  untouched : ∀ descriptorLeft, (attach s descriptorLeft name).1 = s
  /-- Who has got a ring can use it with any number of others, and whoever comes
      then gets the same ring and the messages that are pending. -/
  again : ∀ descriptorLeft g s' h notes, create s descriptorLeft name g = (s', .ok h, notes) →
    ∀ parties acts t es, Schedule.play (Founding.step host)
      ⟨s', List.replicate parties (.holding h none)⟩ acts = some (t, es) →
    (es.filterMap (Founding.Seen.sight? h.object)).foldlM (Ring.queued h.geometry)
        (Ring.pending h.geometry (s'.memory h.object))
      = some (Ring.pending h.geometry (t.shelf.memory h.object)) ∧
    Reopens name h t.shelf

/-- Whatever stands under a name that can be used, creating and attaching do right
    by it. -/
theorem create_attach_faithful (name host : String) (s : ObjectShelf)
    (hname : ObjectName.check (ObjectName.withSlash name) = .ok host)
    (hopen : Founding.Open s host) : Faithful name host s := by
  refine ⟨fun d g hbad => ?_, fun i g hring g' hg' => ?_, fun hno g hg hfits => ?_,
    attach_iff hname hopen, ⟨attach_missing hname, fun i hi hno => ?_⟩,
    fun d => attach_keeps s d name, fun d g s' h notes hmade parties acts t es hrun => ?_⟩
  · have hinvalid : ¬g.Valid := by
      rintro ⟨⟨hslots, hfew, hsize⟩, htotal⟩
      omega
    unfold create
    rw [if_pos hinvalid]
  · exact create_found hname (ring_reachable hopen hring) hring.2 g' hg'
  · exact create_made hname hopen hno g hg hfits
  · rcases open_cases hopen with hfree | ⟨j, hreach, hnone | ⟨g, hring⟩⟩
    · exact absurd (hfree.symm.trans hi) (by simp only [reduceCtorEq, not_false_eq_true])
    · exact attach_refused hname hreach hnone
    · rw [Option.some.inj (hi.symm.trans hring.1)] at hno
      exact absurd hring (hno g)
  · rcases create_reachable s s' d name host g h notes hname hmade with ⟨hreach, hlength⟩
    have hring := Founding.create_ringAt s s' d name host g h notes hname hmade
    have hsettled : Founding.Settled host h.object h.geometry
        ⟨s', List.replicate parties (.holding h none)⟩ := by
      refine ⟨hring, fun f hf => ?_⟩
      rw [(List.mem_replicate.mp hf).2]
      exact ⟨rfl, rfl⟩
    exact ⟨(Founding.settled_run host h.object h.geometry _ t acts es hsettled hrun).2.2.2,
      Founding.settled_reopens name host hname h _ t acts es hsettled hreach hlength hrun⟩

/-- An object of three bytes is no ring, and one can be made of it. -/
theorem create_attach_faithful_short : Faithful "ring" "/ring"
    ((ObjectShelf.empty.made "/ring" ShmAttr.createRw.mode).put 1 (Memory.zeros 3)) := by
  have hreach : ((ObjectShelf.empty.made "/ring" ShmAttr.createRw.mode).put 1
      (Memory.zeros 3)).Reachable "/ring" 1 := by
    refine ⟨(ObjectShelf.usable_made _ _ _ (by decide)).put _ _, rfl, ?_⟩
    rw [ObjectShelf.sizeOf, ObjectShelf.put_memory_self]
    decide
  exact create_attach_faithful "ring" "/ring" _ rfl (Or.inr ⟨1, hreach⟩)

end RingHandle

end HostLayer
