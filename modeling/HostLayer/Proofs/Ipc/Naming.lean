import HostLayer.Ipc.Queue
import HostLayer.Ipc.SharedMemory
import HostLayer.Proofs.Text.Bytes
import Mathlib.Data.List.TakeWhile

/-!
# The Grammar of Object Names

Which names get to the host, and as what.

A name is looked at before the host is asked for anything, and what is looked at are
characters: the slash in front, the slashes and NULs behind it. The host sees
bytes, up to the first NUL of them. The grammar here is told in bytes. A
character of several bytes has none that is a slash or a NUL, so both
ways of looking at a name agree, and the limit counts bytes in any case.

Opening and removing look at a name in the same way. A name that is refused gives the
same answer whatever the host holds, and the host is left as it was. Of a name that is
accepted, the host sees every byte. So two names are the same for it just if they
are equal, for objects after the slash that may be left out has been put in front.

## Main definitions

* `ObjectName.Spelled`: The grammar.
* `ObjectName.Kind`, `ObjectName.Kind.full`: Queues and objects, and their names with
  the slash.
* `ObjectName.seen`: What the host sees of a name.
* `QueueShelf.openAsked`, `QueueShelf.unlinkAsked`, `ShmHandle.openAsked`,
  `ShmHandle.unlinkAsked`: The calls from where the host is asked.
* `ObjectName.Gate`: How a call looks at its name.

## Theorems

* `ObjectName.valid_iff`: The names that are accepted are those of the grammar.
* `ObjectName.bytes_withSlash`: The slash is put in front where there is none.
* `ObjectName.seen_eq_iff`: The host tells accepted names apart.
* `ObjectName.naming_exact`: All of it, for queues and objects.
-/

namespace HostLayer

namespace ObjectName

/-- A slash, and 1 to 255 bytes behind it that are neither slashes nor NULs. -/
def Spelled (bs : List UInt8) : Prop :=
  ∃ body, bs = 0x2F :: body ∧ 1 ≤ body.length ∧ body.length ≤ 255 ∧ 0x2F ∉ body ∧ 0 ∉ body

/-- What has a name. -/
inductive Kind
  | queue
  | object
  deriving DecidableEq, Repr

/-- The name with which the host is asked. -/
def Kind.full : Kind → String → String
  | queue, name => name
  | object, name => withSlash name

/-- What the host sees of a string: its bytes up to the first NUL. -/
def seen (host : String) : List UInt8 :=
  (Text.bytes host).takeWhile fun b => b != 0

section Grammar

theorem bytes_slash_cons (body : List Char) :
    Text.utf8 ('/' :: body) = 0x2F :: Text.utf8 body := by
  rw [Text.utf8_cons, String.utf8EncodeChar_eq_singleton (by decide)]
  rfl

/-- Only a slash starts with the byte of a slash. -/
theorem eq_slash_cons {cs : List Char} {bs : List UInt8} (h : Text.utf8 cs = 0x2F :: bs) :
    ∃ body, cs = '/' :: body ∧ Text.utf8 body = bs := by
  rcases cs with _ | ⟨c, body⟩
  · exact absurd h (by simp [Text.utf8])
  have hmem : (0x2F : UInt8) ∈ Text.utf8 [c] := by
    rw [Text.utf8_cons] at h ⊢
    rcases henc : String.utf8EncodeChar c with _ | ⟨b, rest⟩
    · have hlen := String.length_utf8EncodeChar c
      rw [henc] at hlen
      exact absurd hlen (Nat.ne_of_lt c.utf8Size_pos)
    · rw [henc, List.cons_append] at h
      rw [(List.cons.inj h).1]
      exact List.mem_cons_self
  have hc : c = '/' :=
    (List.mem_singleton.mp ((Text.byte_mem_utf8_iff (c := '/') (by decide) [c]).mp hmem)).symm
  rw [hc, bytes_slash_cons] at h
  exact ⟨body, by rw [hc], (List.cons.inj h).2⟩

theorem bodyValid_iff (body : List Char) : BodyValid body ↔
    1 ≤ (Text.utf8 body).length ∧ (Text.utf8 body).length ≤ 255 ∧
      0x2F ∉ Text.utf8 body ∧ 0 ∉ Text.utf8 body := by
  have hslash := Text.byte_mem_utf8_iff (c := '/') (by decide) body
  have hnul := Text.byte_mem_utf8_iff (c := '\x00') (by decide) body
  have hne : body ≠ [] ↔ 1 ≤ Text.size body := by
    rcases body with _ | ⟨c, body⟩
    · exact ⟨fun h => absurd rfl h, fun h => absurd h (by decide)⟩
    · exact ⟨fun _ => Nat.add_pos_left c.utf8Size_pos _, fun _ => List.cons_ne_nil _ _⟩
  rw [BodyValid, Text.length_utf8, hne]
  exact and_congr_right fun _ => and_congr_right fun _ =>
    and_congr (not_congr hslash.symm) (not_congr hnul.symm)

/-- A name is valid just if its bytes follow the grammar. -/
theorem valid_iff (name : String) : Valid name.toList ↔ Spelled (Text.bytes name) := by
  unfold Text.bytes
  constructor
  · intro h
    rcases hname : name.toList with _ | ⟨c, body⟩
    · rw [hname] at h
      exact absurd h id
    · rw [hname] at h
      unfold Valid at h
      split at h
      next body' heq =>
        rcases List.cons.inj heq with ⟨rfl, rfl⟩
        exact ⟨Text.utf8 body, bytes_slash_cons body, (bodyValid_iff body).mp h⟩
      next => exact absurd h id
  · rintro ⟨bs, hbs, hbody⟩
    rcases eq_slash_cons hbs with ⟨body, hname, rfl⟩
    rw [hname]
    exact (bodyValid_iff body).mpr hbody

/-- A slash is put in front where there is none. -/
theorem bytes_withSlash (name : String) : Text.bytes (withSlash name) =
    if (Text.bytes name).head? = some 0x2F then Text.bytes name else 0x2F :: Text.bytes name := by
  unfold withSlash
  split
  next body hname =>
    rw [if_pos]
    rw [Text.bytes, hname, bytes_slash_cons]
    rfl
  next hname =>
    rw [if_neg]
    · rw [Text.bytes, String.toList_append]
      exact bytes_slash_cons name.toList
    · intro h
      rcases hbytes : Text.bytes name with _ | ⟨b, bs⟩
      · rw [hbytes] at h
        exact absurd h (by simp)
      · rw [hbytes, List.head?_cons, Option.some.injEq] at h
        rw [h] at hbytes
        rcases eq_slash_cons hbytes with ⟨body, heq, _⟩
        exact hname body heq

end Grammar

theorem check_eq_ok_iff_spelled {name host : String} :
    check name = .ok host ↔ Spelled (Text.bytes name) ∧ host = name := by
  rw [check_eq_ok_iff, valid_iff]

theorem check_eq_error_iff_not_spelled {name : String} {e : Error} :
    check name = .error e ↔ ¬Spelled (Text.bytes name) ∧ e = .invalidParam := by
  rw [check_eq_error_iff, valid_iff]

/-- The host sees all of an accepted name. -/
theorem seen_of_spelled {host : String} (h : Spelled (Text.bytes host)) :
    seen host = Text.bytes host := by
  rcases h with ⟨body, hbytes, _, _, _, hnul⟩
  rw [seen]
  refine List.takeWhile_eq_self_iff.mpr (fun b hb => bne_iff_ne.mpr (fun hzero => ?_))
  rw [hbytes, hzero] at hb
  rcases List.mem_cons.mp hb with heq | hmem
  · exact absurd heq (by decide)
  · exact hnul hmem

/-- So it tells accepted names apart. -/
theorem seen_eq_iff {host host' : String} (h : Spelled (Text.bytes host))
    (h' : Spelled (Text.bytes host')) : seen host = seen host' ↔ host = host' := by
  rw [seen_of_spelled h, seen_of_spelled h']
  exact Text.bytes_injective.eq_iff

end ObjectName

/-- What becomes of opening a queue from where the host is asked for `host`. -/
def QueueShelf.openAsked (s : QueueShelf) (descriptorLeft : Bool) (host : String)
    (attr : QueueAttr) : QueueShelf × Answer QueueHandle × List Note :=
  match s.hostOpen descriptorLeft host attr with
  | .error e =>
      let (cause, notes) := Errno.translate openCause "mq_open" e
      (s, .error cause, notes)
  | .ok (s', i) =>
      let size := ((s'.queues i).map (·.maxMessageSize)).getD 0
      (s', .ok ⟨i, host, directions attr, size⟩,
        [.debug ("mq " ++ host ++ " open, message size " ++ toString size)])

/-- What becomes of removing the name of a queue from there. -/
def QueueShelf.unlinkAsked (s : QueueShelf) (host : String) :
    QueueShelf × Answer Unit × List Note :=
  let refuse (e : Errno) :=
    let (cause, notes) := Errno.translate unlinkCause "mq_unlink" e
    (s, Except.error cause, notes)
  if reserved host then refuse .accessDenied
  else match s.names host with
    | none => refuse .noEntry
    | some _ => ({ s with names := fun n => if n = host then none else s.names n }, .ok (), [])

/-- What becomes of opening an object from there. -/
def ShmHandle.openAsked (s : ObjectShelf) (descriptorLeft : Bool) (host : String) (attr : ShmAttr)
    (size : Nat) : ObjectShelf × Answer ShmHandle × List Note :=
  let p := runSteps (openStep ⟨host, attr, size, descriptorLeft⟩) openCalls s (start attr) []
  match p.outcome with
  | .inr (.ok h) => (p.state, .ok h, p.notes ++ [h.openNote])
  | .inr (.error e) => (p.state, .error e, p.notes)
  | .inl _ => (p.state, .error .operationFailed, p.notes)

/-- What becomes of removing the name of an object from there. -/
def ShmHandle.unlinkAsked (s : ObjectShelf) (host : String) :
    ObjectShelf × Answer Unit × List Note :=
  match s.remove host with
  | .ok s' => (s', .ok (), [])
  | .error e =>
      let (cause, notes) := Errno.translate unlinkCause "shm_unlink" e
      (s, .error cause, notes)

namespace ObjectName

/-- A call looks at its name before it asks the host. `asked` is the rest of the call. -/
structure Gate {σ α : Type} (kind : Kind) (call asked : σ → String → σ × Answer α × List Note) :
    Prop where
  /-- With a name of the grammar the host is asked for the full name. -/
  accepted : ∀ s name, Spelled (Text.bytes (kind.full name)) →
    call s name = asked s (kind.full name)
  /-- With any other name the answer is there without the host. -/
  refused : ∀ s name, ¬Spelled (Text.bytes (kind.full name)) →
    call s name = (s, .error .invalidParam, [])

/-- Calls that begin with the check are gates. -/
theorem gate_of_check {σ α : Type} {kind : Kind}
    {call asked : σ → String → σ × Answer α × List Note}
    (h : ∀ s name, call s name = match check (kind.full name) with
      | .error e => (s, .error e, [])
      | .ok _ => asked s (kind.full name)) : Gate kind call asked where
  accepted s name hspelled := by
    rw [h, check_eq_ok_iff_spelled.mpr ⟨hspelled, rfl⟩]
  refused s name hspelled := by
    rw [h, check_eq_error_iff_not_spelled.mpr ⟨hspelled, rfl⟩]

section Calls

theorem gate_queue_open (left : Bool) (attr : QueueAttr) :
    Gate .queue (fun s name => QueueShelf.open s left name attr)
      (fun s host => s.openAsked left host attr) := by
  refine gate_of_check (fun s name => ?_)
  unfold QueueShelf.open Kind.full
  rcases hcheck : check name with e | host
  · rfl
  · rw [(check_eq_ok_iff.mp hcheck).2]
    rfl

theorem gate_queue_unlink : Gate .queue QueueShelf.unlink QueueShelf.unlinkAsked := by
  refine gate_of_check (fun s name => ?_)
  unfold QueueShelf.unlink Kind.full
  rcases hcheck : check name with e | host
  · rfl
  · rw [(check_eq_ok_iff.mp hcheck).2]
    rfl

theorem gate_object_open (left : Bool) (attr : ShmAttr) (size : Nat) :
    Gate .object (fun s name => ShmHandle.open s left name attr size)
      (fun s host => ShmHandle.openAsked s left host attr size) := by
  refine gate_of_check (fun s name => ?_)
  unfold ShmHandle.open Kind.full
  rcases hcheck : check (withSlash name) with e | host
  · rfl
  · rw [(check_eq_ok_iff.mp hcheck).2]
    rfl

theorem gate_object_unlink : Gate .object ShmHandle.unlink ShmHandle.unlinkAsked := by
  refine gate_of_check (fun s name => ?_)
  unfold ShmHandle.unlink Kind.full
  rcases hcheck : check (withSlash name) with e | host
  · rfl
  · rw [(check_eq_ok_iff.mp hcheck).2]
    rfl

end Calls

/-- Names are accepted by one grammar, which opening and removing share, and by which
    other names are refused before the host is asked. Accepted names are the same for the
    host just if they are equal with the slash in front. -/
theorem naming_exact :
    (∀ (kind : Kind) name host, check (kind.full name) = .ok host ↔
      Spelled (Text.bytes (kind.full name)) ∧ host = kind.full name) ∧
    (∀ (kind : Kind) name e, check (kind.full name) = .error e ↔
      ¬Spelled (Text.bytes (kind.full name)) ∧ e = .invalidParam) ∧
    (∀ name, Kind.queue.full name = name ∧ Text.bytes (Kind.object.full name)
      = if (Text.bytes name).head? = some 0x2F then Text.bytes name else 0x2F :: Text.bytes name) ∧
    (∀ left attr, Gate .queue (fun s name => QueueShelf.open s left name attr)
      (fun s host => s.openAsked left host attr)) ∧
    Gate .queue QueueShelf.unlink QueueShelf.unlinkAsked ∧
    (∀ left attr size, Gate .object (fun s name => ShmHandle.open s left name attr size)
      (fun s host => ShmHandle.openAsked s left host attr size)) ∧
    Gate .object ShmHandle.unlink ShmHandle.unlinkAsked ∧
    ∀ (kind : Kind) name name', Spelled (Text.bytes (kind.full name)) →
      Spelled (Text.bytes (kind.full name')) →
        (seen (kind.full name) = seen (kind.full name') ↔ kind.full name = kind.full name') :=
  ⟨fun _ _ _ => check_eq_ok_iff_spelled, fun _ _ _ => check_eq_error_iff_not_spelled,
    fun name => ⟨rfl, bytes_withSlash name⟩, gate_queue_open, gate_queue_unlink, gate_object_open,
    gate_object_unlink, fun _ _ _ => seen_eq_iff⟩

/-- A name with a character of two bytes is an object's with or without the slash, and the
    same one, but a queue's only with it. -/
theorem naming_exact_optional_slash :
    Spelled (Text.bytes (Kind.object.full "é")) ∧
      seen (Kind.object.full "é") = seen (Kind.object.full "/é") ∧
      check (Kind.queue.full "é") = .error .invalidParam ∧
      Spelled (Text.bytes (Kind.queue.full "/é")) := by
  rcases naming_exact with ⟨haccepted, hrefused, _, _, _, _, _, hseen⟩
  have hwithout := ((haccepted .object "é" "/é").mp (by decide)).1
  have hwith := ((haccepted .object "/é" "/é").mp (by decide)).1
  refine ⟨hwithout, (hseen .object "é" "/é" hwithout hwith).mpr (by decide), ?_,
    ((haccepted .queue "/é" "/é").mp (by decide)).1⟩
  -- No byte of the character is a slash.
  refine (hrefused .queue "é" .invalidParam).mpr ⟨fun ⟨body, hbytes, _⟩ => ?_, rfl⟩
  have hfirst : (Text.bytes (Kind.queue.full "é")).head? = some 0x2F := by
    rw [hbytes, List.head?_cons]
  exact absurd hfirst (by decide)

end ObjectName

end HostLayer
