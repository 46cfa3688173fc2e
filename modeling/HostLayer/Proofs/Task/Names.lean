import HostLayer.Proofs.Task.Control
import HostLayer.Proofs.Text.Boundary

/-!
# Names of Tasks

What is left of a name on its way to the host and back.

A name is cut twice, to 63 bytes for the attributes of a task and to 15 bytes for the
host. The second cut takes the same characters whether the first one has been made
or not. What the host keeps is looked at for a NUL, and only that: a NUL behind
the second cut never gets to the host, also one that the attributes still hold.

The way back goes through bytes. The host fills a buffer, and the reader takes the
bytes before the first zero. The bytes of a name without a NUL contain no zero,
and they are the bytes of a text, so that the name comes back as it was.

## Main definitions

* `TaskAttr.Kept`: What attributes and host keep of a name.

## Theorems

* `TaskAttr.kept_cut`: They keep the longest starts.
* `Control.readName_nameBuffer`: A name without a NUL comes back from a buffer.
* `Control.setName_refused`, `Control.setName_granted`: Which names are refused.
* `Control.name_setName`: What has been granted is read back.
* `Control.names_exact`: All of it, for every text.
-/

namespace HostLayer

namespace TaskAttr

/-- What attributes and host keep of a name: `stored` are the first 63 bytes and
    `host` the first 15, as far as characters are whole. The searches for the cuts
    find them, each in the text that it is given. -/
structure Kept (name stored host : String) : Prop where
  stored_longest : Text.LongestStart 63 name stored
  stored_found : Text.boundaryFrom name (min name.utf8ByteSize 63) = some stored.utf8ByteSize
  /-- What has been cut stays as it is. -/
  stored_again : ∀ a : TaskAttr, (a.setName name).setName stored = a.setName name
  host_longest : Text.LongestStart 15 name host
  host_found : Text.boundaryFrom stored (min stored.utf8ByteSize 15) = some host.utf8ByteSize

theorem kept_cut (name : String) :
    Kept name (Text.cut nameLimit name) (Text.cut Host.nameLimit name) where
  stored_longest := Text.cut_longestStart nameLimit name
  stored_found := (Text.cut_longestStart nameLimit name).boundaryFrom_eq
  stored_again a := by
    simp only [setName]
    rw [Text.cut_cut (Nat.le_refl _)]
  host_longest := Text.cut_longestStart Host.nameLimit name
  host_found := by
    have hcut := Text.cut_longestStart Host.nameLimit (Text.cut nameLimit name)
    rw [Text.cut_cut (by decide)] at hcut
    exact hcut.boundaryFrom_eq

/-- The host takes the part that it keeps, unless there is a NUL in it. -/
theorem hostName_eq (name : String) : hostName name =
    if '\x00' ∈ (Text.cut Host.nameLimit name).toList then .error .invalidParam
    else .ok (Text.cut Host.nameLimit name) := rfl

end TaskAttr

namespace Host

namespace Threads

variable {s : Threads} {r : Rights} {caller t : ThreadId}

/-- Whether a name can be reached does not depend on the name. -/
theorem reachName_put (s : Threads) (r : Rights) (caller t : ThreadId) (name : String) :
    (s.put t { s.thread t with name := name }).reachName r caller t = s.reachName r caller t := by
  unfold reachName
  rw [put_self]

theorem name_of_reachName (h : s.reachName r caller t = .ok ()) :
    s.name r caller t = .ok (s.thread t).name := by
  unfold name
  rw [h]
  rfl

theorem setName_of_reachName (name : String) (h : s.reachName r caller t = .ok ()) :
    s.setName r caller t name = .ok (s.put t { s.thread t with name := name }) := by
  unfold setName
  rw [h]
  rfl

theorem reachName_of_setName {s' : Threads} {name : String}
    (h : s.setName r caller t name = .ok s') : s.reachName r caller t = .ok () := by
  unfold setName at h
  rcases hreach : s.reachName r caller t with e | _
  · rw [hreach] at h
    exact absurd h (by simp only [bind, Except.bind, reduceCtorEq, not_false_eq_true])
  · rfl

end Threads

end Host

namespace Control

/-- A name without a NUL comes back from a buffer as it was. -/
theorem readName_nameBuffer {n : String} (h : '\x00' ∉ n.toList) : readName (nameBuffer n) = n := by
  have hzero : ∀ b ∈ Text.bytes n, (b != 0) = true := fun b hb => by
    refine bne_iff_ne.mpr (fun heq => h ?_)
    rw [heq] at hb
    exact (Text.byte_mem_utf8_iff (by decide) n.toList).mp hb
  have htaken : (nameBuffer n).takeWhile (fun b => b != 0) = Text.bytes n := by
    rw [nameBuffer, List.takeWhile_append_of_pos hzero, List.takeWhile_replicate]
    exact List.append_nil _
  rw [readName, htaken, Text.bytes, Text.decode_utf8, String.ofList_toList]

section Reading

variable {t : Target} {s : Host.Threads}

theorem name_of_reachName (h : s.reachName t.rights t.caller t.target = .ok ()) :
    name t s = (.ok (readName (nameBuffer (s.thread t.target).name)), []) := by
  unfold name
  rw [Host.Threads.name_of_reachName h]
  rfl

/-- Whoever gets to read a name reads the one that the host keeps. -/
theorem name_eq_ok {n : String} (h : (name t s).1 = .ok n) :
    n = readName (nameBuffer (s.thread t.target).name) := by
  unfold name Host.Threads.name at h
  rcases hreach : s.reachName t.rights t.caller t.target with e | _
  · rw [hreach] at h
    exact absurd h (by simp only [bind, Except.bind, Errno.answer, Except.map, reduceCtorEq,
      not_false_eq_true])
  · rw [hreach] at h
    exact (Except.ok.inj h).symm

/-- A NUL in the part that the host would keep is found before the host is asked. -/
theorem setName_refused {n : String} (h : '\x00' ∈ (Text.cut Host.nameLimit n).toList) :
    setName t s n = (s, .error .invalidParam, []) := by
  unfold setName
  rw [TaskAttr.hostName_eq, if_pos h]

/-- Without one, the name is granted wherever it can be reached. -/
theorem setName_granted {n : String} (h : '\x00' ∉ (Text.cut Host.nameLimit n).toList)
    (hreach : s.reachName t.rights t.caller t.target = .ok ()) :
    (setName t s n).2.1 = .ok () := by
  unfold setName
  rw [TaskAttr.hostName_eq, if_neg h]
  simp only
  rw [Host.Threads.setName_of_reachName _ hreach]
  rfl

theorem setName_ok_cases {n : String} (h : (setName t s n).2.1 = .ok ()) :
    '\x00' ∉ (Text.cut Host.nameLimit n).toList ∧
      s.reachName t.rights t.caller t.target = .ok () := by
  by_cases hnul : '\x00' ∈ (Text.cut Host.nameLimit n).toList
  · rw [setName_refused hnul] at h
    exact absurd h (by simp only [reduceCtorEq, not_false_eq_true])
  · refine ⟨hnul, ?_⟩
    unfold setName at h
    rw [TaskAttr.hostName_eq, if_neg hnul] at h
    rcases change_ok h with ⟨s', hset, _⟩
    exact Host.Threads.reachName_of_setName hset

/-- What has been granted is read back by the one who asked for it. -/
theorem name_setName {n : String} (h : (setName t s n).2.1 = .ok ()) :
    name t (setName t s n).1 = (.ok (Text.cut Host.nameLimit n), []) := by
  rcases setName_ok_cases h with ⟨hnul, hreach⟩
  rw [setName_ok h, name_of_reachName (by rw [Host.Threads.reachName_put]; exact hreach),
    Host.Threads.put_self, readName_nameBuffer hnul]

end Reading

/-- What becomes of a name. The attributes keep its longest start of 63 bytes and the
    host that of 15 bytes, which is the same from the attributes as from the name
    itself. It is refused for a NUL in those 15 bytes, without a call, and for nothing
    else that is in it. Granted, it is read back as those 15 bytes by everyone who can
    read it. -/
theorem names_exact (n : String) (a : TaskAttr) (t : Target) (s : Host.Threads) :
    ∃ stored host, a.setName n = { a with name := stored } ∧ TaskAttr.Kept n stored host ∧
      TaskAttr.hostName stored
        = (if '\x00' ∈ host.toList then .error .invalidParam else .ok host) ∧
      ('\x00' ∈ host.toList → setName t s stored = (s, .error .invalidParam, [])) ∧
      ('\x00' ∉ host.toList → s.reachName t.rights t.caller t.target = .ok () →
        (setName t s stored).2.1 = .ok ()) ∧
      ((setName t s stored).2.1 = .ok () → name t (setName t s stored).1 = (.ok host, []) ∧
        ∀ q m, q.target = t.target → (name q (setName t s stored).1).1 = .ok m → m = host) := by
  have hcut := Text.cut_cut (show Host.nameLimit ≤ TaskAttr.nameLimit by decide) n
  refine ⟨Text.cut TaskAttr.nameLimit n, Text.cut Host.nameLimit n, rfl, TaskAttr.kept_cut n, ?_⟩
  rw [← hcut]
  refine ⟨TaskAttr.hostName_eq _, setName_refused, setName_granted, fun h => ⟨name_setName h, ?_⟩⟩
  intro q m hq hm
  rw [name_eq_ok hm, hq, setName_ok h, Host.Threads.put_self,
    readName_nameBuffer (setName_ok_cases h).1]

/-- A name with a character across either cut and a NUL between the cuts is granted to
    another thread and read back. -/
theorem names_exact_across :
    let n := "abcdefghijklmn€\x00x€€€€€€€€€€€€€€€"
    let s : Host.Threads := ⟨fun _ => ⟨"main", .other, 0, CpuSet.ofList [0], false⟩⟩
    let t : Target := ⟨1, 2, ⟨false, true, true, CpuSet.ofList [0]⟩⟩
    (TaskAttr.none.setName n).name = "abcdefghijklmn€\x00x€€€€€€€€€€€€€€" ∧
      (setName t s (TaskAttr.none.setName n).name).2.1 = .ok () ∧
      name t (setName t s (TaskAttr.none.setName n).name).1 = (.ok "abcdefghijklmn", []) := by
  intro n s t
  rcases names_exact n TaskAttr.none t s with ⟨stored, host, hset, hkept, _, _, hgranted, hback⟩
  have hhost : host = "abcdefghijklmn" :=
    (hkept.host_longest.unique (Text.cut_longestStart 15 n)).trans (by decide)
  have hstored : stored = "abcdefghijklmn€\x00x€€€€€€€€€€€€€€" :=
    (hkept.stored_longest.unique (Text.cut_longestStart 63 n)).trans (by decide)
  have hok := hgranted (by rw [hhost]; decide) rfl
  rw [hset]
  exact ⟨hstored, hok, hhost ▸ (hback hok).1⟩

end Control

end HostLayer
