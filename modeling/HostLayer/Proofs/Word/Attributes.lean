import HostLayer.Proofs.Word.BitField
import HostLayer.Word.ShmAttr
import HostLayer.Word.SyncAttr
import Mathlib.Logic.Function.Basic

/-!
# Laws of Attribute Words

Attribute words are records that are kept in a number.

A kind of word is told by its fields: which values they have, how the values are
encoded, where the fields stand, and how a word is read and written. What is
said of words is said of all kinds at once. Writing a field is updating the record
that is read, the bits that belong to no written field stay as they are, reserved
ones too, and any number can be taken as a word and is given back.

For one kind of word only that has to be looked at which its fields decide one by
one: that reading and writing a field is reading and writing its bits, and that the
encoding of each value fits.

## Main definitions

* `WordKind`: A kind of attribute word.
* `WordKind.written`: A word after some fields have been written.
* `WordKind.Lawful`: What can be relied on.
* `WordKind.Coded`: What has to be looked at.
* `SyncAttr.words`, `ShmAttr.words`: The attribute words as kinds of words.

## Theorems

* `WordKind.Coded.lawful`: What follows for all kinds of words.
* `SyncAttr.valid_iff`: Which words have a meaning.
* `attribute_words_lawful`: The laws of both kinds.
-/

namespace HostLayer

/-- A kind of attribute word. -/
structure WordKind where
  Word : Type
  raw : Word → UInt32
  ofRaw : UInt32 → Word
  Field : Type
  decideField : DecidableEq Field
  Value : Field → Type
  encode : (f : Field) → Value f → UInt32
  /-- The fields and the gaps between them, from bit zero upwards. -/
  declared : Declaration Field
  /-- Where a field stands. -/
  place : Field → BitField
  read : Word → (f : Field) → Value f
  write : Word → (f : Field) → Value f → Word

namespace WordKind

instance (k : WordKind) : DecidableEq k.Field := k.decideField

/-- A value for a field. -/
abbrev Change (k : WordKind) := (f : k.Field) × k.Value f

/-- A word after some fields have been written, one after the other. -/
def written (k : WordKind) (a : k.Word) (changes : List k.Change) : k.Word :=
  changes.foldl (fun a c => k.write a c.1 c.2) a

/-- What can be relied on for a kind of word. -/
structure Lawful (k : WordKind) : Prop where
  /-- The declaration fills a word. -/
  size_eq : k.declared.size = 32
  /-- Each field stands where its declaration puts it. -/
  placed : ∀ f, (some f, k.place f) ∈ k.declared.allot 0
  /-- The value of a field is the number that its bits make. -/
  encoded : ∀ a f, (k.encode f (k.read a f)).toNat
    = (k.raw a).toNat / 2 ^ (k.place f).low.toNat % 2 ^ (k.place f).width.toNat
  raw_ofRaw : ∀ w, k.raw (k.ofRaw w) = w
  ofRaw_raw : ∀ a, k.ofRaw (k.raw a) = a
  /-- Each field reads as the last value that has been written to it, and as before if
      there is none. -/
  read_written : ∀ a changes, k.read (k.written a changes)
    = changes.foldl (fun r c => Function.update r c.1 c.2) (k.read a)
  /-- All bits that belong to no written field are as they were. -/
  kept : ∀ a changes i, (∀ c ∈ changes, ¬(k.place c.1).Covers i) →
    (k.raw (k.written a changes)).toNat.testBit i = (k.raw a).toNat.testBit i
  /-- Different fields can be written in either order. -/
  commute : ∀ a f g x y, f ≠ g → k.write (k.write a f x) g y = k.write (k.write a g y) f x
  /-- Of several values for a field the last one counts. -/
  overwrite : ∀ a f x y, k.write (k.write a f x) f y = k.write a f y
  /-- Writing what has been read changes nothing. -/
  restore : ∀ a f, k.write a f (k.read a f) = a

/-- What has to be looked at for a kind of word. -/
structure Coded (k : WordKind) : Prop where
  widths : ∀ e ∈ k.declared, 0 < e.2 ∧ e.2 < 32
  size_eq : k.declared.size = 32
  placed : ∀ f, (some f, k.place f) ∈ k.declared.allot 0
  raw_ofRaw : ∀ w, k.raw (k.ofRaw w) = w
  ofRaw_raw : ∀ a, k.ofRaw (k.raw a) = a
  encode_lt : ∀ f v, (k.encode f v).toNat < 2 ^ (k.place f).width.toNat
  encode_injective : ∀ f, Function.Injective (k.encode f)
  read_eq : ∀ a f, k.encode f (k.read a f) = (k.place f).get (k.raw a)
  write_eq : ∀ a f v, k.raw (k.write a f v) = (k.place f).put (k.raw a) (k.encode f v)

namespace Coded

variable {k : WordKind} (h : k.Coded)

include h

theorem room : Declaration.Room 0 k.declared :=
  ⟨h.widths, by rw [h.size_eq]⟩

theorem fits (f : k.Field) : (k.place f).Fits :=
  (Declaration.fits_of_mem_allot k.declared 0 h.room _ (h.placed f)).1

theorem apart {f g : k.Field} (hne : f ≠ g) : (k.place f).Apart (k.place g) :=
  Declaration.apart_of_ne h.room (h.placed f) (h.placed g) hne

theorem raw_injective : Function.Injective k.raw :=
  Function.LeftInverse.injective h.ofRaw_raw

/-- Writing a field updates the record of all fields. -/
theorem read_write (a : k.Word) (f : k.Field) (v : k.Value f) :
    k.read (k.write a f v) = Function.update (k.read a) f v := by
  funext g
  refine h.encode_injective g ?_
  rw [h.read_eq, h.write_eq]
  by_cases hne : g = f
  · subst hne
    rw [Function.update_self, BitField.get_put_self (h.fits g) _ (h.encode_lt g v)]
  · rw [Function.update_of_ne hne, h.read_eq,
      BitField.get_put_apart (h.fits f) (h.fits g) (h.apart (Ne.symm hne))]

theorem testBit_write (a : k.Word) (f : k.Field) (v : k.Value f) {i : Nat}
    (hi : ¬(k.place f).Covers i) :
    (k.raw (k.write a f v)).toNat.testBit i = (k.raw a).toNat.testBit i := by
  rw [h.write_eq, BitField.testBit_put (h.fits f), if_neg hi]

theorem read_written (changes : List k.Change) (a : k.Word) : k.read (k.written a changes)
    = changes.foldl (fun r c => Function.update r c.1 c.2) (k.read a) := by
  induction changes generalizing a with
  | nil => rfl
  | cons c changes ih =>
      rw [List.foldl_cons, ← h.read_write]
      exact ih (k.write a c.1 c.2)

theorem testBit_written (changes : List k.Change) (a : k.Word) {i : Nat}
    (hi : ∀ c ∈ changes, ¬(k.place c.1).Covers i) :
    (k.raw (k.written a changes)).toNat.testBit i = (k.raw a).toNat.testBit i := by
  induction changes generalizing a with
  | nil => rfl
  | cons c changes ih =>
      rcases List.forall_mem_cons.mp hi with ⟨hc, hrest⟩
      rw [← h.testBit_write a c.1 c.2 hc]
      exact ih (k.write a c.1 c.2) hrest

theorem write_comm (a : k.Word) {f g : k.Field} (x : k.Value f) (y : k.Value g) (hne : f ≠ g) :
    k.write (k.write a f x) g y = k.write (k.write a g y) f x := by
  refine h.raw_injective ?_
  rw [h.write_eq, h.write_eq, h.write_eq, h.write_eq]
  exact BitField.put_comm (h.fits f) (h.fits g) (h.apart hne) _ _ _

theorem write_write (a : k.Word) (f : k.Field) (x y : k.Value f) :
    k.write (k.write a f x) f y = k.write a f y := by
  refine h.raw_injective ?_
  rw [h.write_eq, h.write_eq, h.write_eq, BitField.put_put (h.fits f)]

theorem write_read (a : k.Word) (f : k.Field) : k.write a f (k.read a f) = a := by
  refine h.raw_injective ?_
  rw [h.write_eq, h.read_eq, BitField.put_get (h.fits f)]

/-- Words that read and write the bits of their fields obey all laws. -/
theorem lawful : k.Lawful where
  size_eq := h.size_eq
  placed := h.placed
  encoded a f := by rw [h.read_eq, BitField.toNat_get (h.fits f)]
  raw_ofRaw := h.raw_ofRaw
  ofRaw_raw := h.ofRaw_raw
  read_written a changes := h.read_written changes a
  kept a changes _ hi := h.testBit_written changes a hi
  commute a _ _ x y hne := h.write_comm a x y hne
  overwrite := h.write_write
  restore := h.write_read

end Coded

end WordKind

section Encodings

/-- The encoding of a mark. -/
def markBit (b : Bool) : UInt32 := if b then 1 else 0

theorem markBit_lt (b : Bool) : (markBit b).toNat < 2 := by
  cases b <;> decide

theorem markBit_injective : Function.Injective markBit := by
  intro a b h
  cases a <;> cases b <;> first | rfl | exact absurd h (by decide)

/-- A mark reads as the one bit of its field. -/
theorem markBit_flag {f : BitField} (hfits : f.Fits) (hone : f.width.toNat = 1) (w : UInt32) :
    markBit (f.flag w) = f.get w := by
  have hlt := f.get_lt hfits w
  rw [hone] at hlt
  rw [BitField.flag, markBit]
  by_cases hzero : f.get w = 0
  · rw [hzero]
    rfl
  · have hne : (f.get w).toNat ≠ 0 := fun heq => hzero (UInt32.toNat_inj.mp heq)
    have hget : f.get w = 1 := UInt32.toNat_inj.mp (by
      rw [UInt32.toNat_one]
      omega)
    rw [hget]
    rfl

/-- A half word fits into a field of sixteen bits, and is told by what it is encoded as. -/
theorem toUInt32_lt (c : UInt16) : c.toUInt32.toNat < 2 ^ 16 := by
  rw [UInt16.toNat_toUInt32]
  exact c.toNat_lt

theorem toUInt32_injective : Function.Injective UInt16.toUInt32 := by
  intro a b h
  refine UInt16.toNat_inj.mp ?_
  rw [← UInt16.toNat_toUInt32, h, UInt16.toNat_toUInt32]

/-- A field of sixteen bits reads as a half word. -/
theorem toUInt32_get {f : BitField} (hfits : f.Fits) (hhalf : f.width.toNat = 16) (w : UInt32) :
    (f.get w).toUInt16.toUInt32 = f.get w := by
  have hlt := f.get_lt hfits w
  rw [hhalf] at hlt
  refine UInt32.toNat_inj.mp ?_
  rw [UInt16.toNat_toUInt32, UInt32.toNat_toUInt16, Nat.mod_eq_of_lt hlt]

-- The values of a field of two bits.
theorem word_cases {v : UInt32} (h : v.toNat < 4) : v = 0 ∨ v = 1 ∨ v = 2 ∨ v = 3 := by
  simp only [← UInt32.toNat_inj, UInt32.toNat_ofNat]
  omega

theorem MutexKind.toBits_lt (k : MutexKind) : k.toBits.toNat < 4 := by
  cases k <;> decide

theorem MutexKind.toBits_injective : Function.Injective toBits := by
  intro a b h
  cases a <;> cases b <;> first | rfl | exact absurd h (by decide)

/-- All four encodings of a kind come back. -/
theorem MutexKind.toBits_ofBits {v : UInt32} (h : v.toNat < 4) : (ofBits v).toBits = v := by
  rcases word_cases h with rfl | rfl | rfl | rfl <;> rfl

theorem MutexProtocol.toBits_lt (p : MutexProtocol) : p.toBits.toNat < 4 := by
  cases p <;> decide

theorem MutexProtocol.toBits_injective : Function.Injective toBits := by
  intro a b h
  cases a <;> cases b <;> first | rfl | exact absurd h (by decide)

/-- All four encodings of a protocol come back. -/
theorem MutexProtocol.toBits_ofBits {v : UInt32} (h : v.toNat < 4) : (ofBits v).toBits = v := by
  rcases word_cases h with rfl | rfl | rfl | rfl <;> rfl

end Encodings

namespace SyncAttr

/-- The fields of the word. -/
inductive Field
  | kind
  | robust
  | processShared
  | protocol
  | ceiling
  deriving DecidableEq, Repr

/-- The values of a field. -/
def Field.Value : Field → Type
  | kind => MutexKind
  | robust => Bool
  | processShared => Bool
  | protocol => MutexProtocol
  | ceiling => UInt16

/-- The number that a value is kept as. -/
def Field.encode : (f : Field) → f.Value → UInt32
  | kind, k => MutexKind.toBits k
  | robust, b => markBit b
  | processShared, b => markBit b
  | protocol, p => MutexProtocol.toBits p
  | ceiling, c => UInt16.toUInt32 c

/-- Where a field stands. -/
def Field.place : Field → BitField
  | kind => kindField
  | robust => robustField
  | processShared => sharedField
  | protocol => protocolField
  | ceiling => ceilingField

/-- The fields in the order of their declaration, each with its width. -/
def declared : Declaration Field :=
  [(some .kind, 2), (none, 2), (some .robust, 1), (some .processShared, 1), (none, 2),
    (some .protocol, 2), (none, 6), (some .ceiling, 16)]

/-- What a field of the word reads as. -/
def read (a : SyncAttr) : (f : Field) → f.Value
  | .kind => a.kind
  | .robust => a.robust
  | .processShared => a.processShared
  | .protocol => a.protocol
  | .ceiling => a.ceiling.toUInt16

/-- The word with another value in a field. -/
def write (a : SyncAttr) : (f : Field) → f.Value → SyncAttr
  | .kind, k => a.withKind k
  | .robust, b => a.withRobust b
  | .processShared, b => a.withProcessShared b
  | .protocol, p => a.withProtocol p
  | .ceiling, c => a.withCeiling (UInt16.toUInt32 c)

/-- The words for synchronization objects. -/
def words : WordKind where
  Word := SyncAttr
  raw := raw
  ofRaw := mk
  Field := Field
  decideField := inferInstance
  Value := Field.Value
  encode := Field.encode
  declared := declared
  place := Field.place
  read := read
  write := write

theorem Field.fits (f : Field) : f.place.Fits := by
  cases f <;> exact ⟨by decide, by decide, by decide⟩

theorem coded : words.Coded where
  widths := by decide
  size_eq := rfl
  placed f := by cases f <;> decide
  raw_ofRaw _ := rfl
  ofRaw_raw _ := rfl
  encode_lt f v := by
    cases f with
    | kind => exact MutexKind.toBits_lt v
    | robust => exact markBit_lt v
    | processShared => exact markBit_lt v
    | protocol => exact MutexProtocol.toBits_lt v
    | ceiling => exact toUInt32_lt v
  encode_injective f := by
    cases f with
    | kind => exact MutexKind.toBits_injective
    | robust => exact markBit_injective
    | processShared => exact markBit_injective
    | protocol => exact MutexProtocol.toBits_injective
    | ceiling => exact toUInt32_injective
  read_eq a f := by
    cases f with
    | kind => exact MutexKind.toBits_ofBits (BitField.get_lt (Field.fits .kind) a.raw)
    | robust => exact markBit_flag (Field.fits .robust) rfl a.raw
    | processShared => exact markBit_flag (Field.fits .processShared) rfl a.raw
    | protocol => exact MutexProtocol.toBits_ofBits (BitField.get_lt (Field.fits .protocol) a.raw)
    | ceiling => exact toUInt32_get (Field.fits .ceiling) rfl a.raw
  write_eq a f v := by cases f <;> rfl

/-- A word has a meaning just if neither of its fields of two bits holds a three. -/
theorem valid_iff (a : SyncAttr) :
    a.valid = true ↔ a.raw.toNat % 4 ≠ 3 ∧ a.raw.toNat / 2 ^ 8 % 4 ≠ 3 := by
  have hkind : a.kind.toBits.toNat = a.raw.toNat % 4 := by
    rw [← Nat.div_one a.raw.toNat]
    exact coded.lawful.encoded a .kind
  have hprotocol : a.protocol.toBits.toNat = a.raw.toNat / 2 ^ 8 % 4 :=
    coded.lawful.encoded a .protocol
  rw [valid, Bool.and_eq_true, bne_iff_ne, bne_iff_ne, ← hkind, ← hprotocol]
  cases a.kind <;> cases a.protocol <;> decide

end SyncAttr

namespace ShmAttr

/-- The fields of the word. -/
inductive Field
  | rdonly
  | rdwr
  | creat
  | excl
  | trunc
  | map
  | mode
  deriving DecidableEq, Repr

/-- The values of a field, which is a mark except for the permissions. -/
def Field.Value : Field → Type
  | mode => UInt16
  | _ => Bool

/-- The number that a value is kept as. -/
def Field.encode : (f : Field) → f.Value → UInt32
  | mode, m => UInt16.toUInt32 m
  | rdonly, b => markBit b
  | rdwr, b => markBit b
  | creat, b => markBit b
  | excl, b => markBit b
  | trunc, b => markBit b
  | map, b => markBit b

/-- Where a field stands. -/
def Field.place : Field → BitField
  | rdonly => rdonlyField
  | rdwr => rdwrField
  | creat => creatField
  | excl => exclField
  | trunc => truncField
  | map => mapField
  | mode => modeField

/-- The fields in the order of their declaration, each with its width. -/
def declared : Declaration Field :=
  [(some .rdonly, 1), (some .rdwr, 1), (some .creat, 1), (some .excl, 1), (some .trunc, 1),
    (some .map, 1), (Option.none, 10), (some .mode, 16)]

/-- What a field of the word reads as. -/
def read (a : ShmAttr) : (f : Field) → f.Value
  | .rdonly => a.rdonly
  | .rdwr => a.rdwr
  | .creat => a.creat
  | .excl => a.excl
  | .trunc => a.trunc
  | .map => a.map
  | .mode => a.mode.toUInt16

/-- The word with another value in a field. -/
def write (a : ShmAttr) : (f : Field) → f.Value → ShmAttr
  | .rdonly, b => a.withRdonly b
  | .rdwr, b => a.withRdwr b
  | .creat, b => a.withCreat b
  | .excl, b => a.withExcl b
  | .trunc, b => a.withTrunc b
  | .map, b => a.withMap b
  | .mode, m => a.withMode (UInt16.toUInt32 m)

/-- The words for opening shared memory. -/
def words : WordKind where
  Word := ShmAttr
  raw := raw
  ofRaw := mk
  Field := Field
  decideField := inferInstance
  Value := Field.Value
  encode := Field.encode
  declared := declared
  place := Field.place
  read := read
  write := write

theorem Field.fits (f : Field) : f.place.Fits := by
  cases f <;> exact ⟨by decide, by decide, by decide⟩

theorem coded : words.Coded where
  widths := by decide
  size_eq := rfl
  placed f := by cases f <;> decide
  raw_ofRaw _ := rfl
  ofRaw_raw _ := rfl
  encode_lt f v := by
    cases f with
    | mode => exact toUInt32_lt v
    | _ => exact markBit_lt v
  encode_injective f := by
    cases f with
    | mode => exact toUInt32_injective
    | _ => exact markBit_injective
  read_eq a f := by
    cases f with
    | mode => exact toUInt32_get (Field.fits .mode) rfl a.raw
    | rdonly => exact markBit_flag (Field.fits .rdonly) rfl a.raw
    | rdwr => exact markBit_flag (Field.fits .rdwr) rfl a.raw
    | creat => exact markBit_flag (Field.fits .creat) rfl a.raw
    | excl => exact markBit_flag (Field.fits .excl) rfl a.raw
    | trunc => exact markBit_flag (Field.fits .trunc) rfl a.raw
    | map => exact markBit_flag (Field.fits .map) rfl a.raw
  write_eq a f v := by cases f <;> rfl

end ShmAttr

/-- Both kinds of attribute words obey all laws of fields, with the fields at the places that
    programs count on, and a word for synchronization has a meaning just if neither of its
    fields of two bits holds a three. -/
theorem attribute_words_lawful : SyncAttr.words.Lawful ∧ ShmAttr.words.Lawful ∧
    (∀ a : SyncAttr, a.valid = true ↔ a.raw.toNat % 4 ≠ 3 ∧ a.raw.toNat / 2 ^ 8 % 4 ≠ 3) ∧
    (∀ f, SyncAttr.words.place f = match f with
      | .kind => ⟨0, 2⟩
      | .robust => ⟨4, 1⟩
      | .processShared => ⟨5, 1⟩
      | .protocol => ⟨8, 2⟩
      | .ceiling => ⟨16, 16⟩) ∧
    (∀ f, ShmAttr.words.place f = match f with
      | .rdonly => ⟨0, 1⟩
      | .rdwr => ⟨1, 1⟩
      | .creat => ⟨2, 1⟩
      | .excl => ⟨3, 1⟩
      | .trunc => ⟨4, 1⟩
      | .map => ⟨5, 1⟩
      | .mode => ⟨16, 16⟩) := by
  refine ⟨SyncAttr.coded.lawful, ShmAttr.coded.lawful, SyncAttr.valid_iff, fun f => ?_, fun f => ?_⟩
  · cases f <;> rfl
  · cases f <;> rfl

/-- A word full of ones keeps its reserved bits, whatever is written to its fields. -/
example : (SyncAttr.words.written ⟨0xFFFFFFFF⟩ [⟨.ceiling, (0x1234 : UInt16)⟩, ⟨.kind, .normal⟩,
    ⟨.protocol, .invalid⟩]).raw = 0x1234FFFC := by
  decide

end HostLayer
