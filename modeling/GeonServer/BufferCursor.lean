import Mathlib.Algebra.Group.Nat.Defs
import GeonServer.SendBuffer
/-!
# BufferCursor — `BufferReader` and `BufferWriter`

ServerCore/BufferReader.h and ServerCore/BufferWriter.h: a position that runs over a buffer of `_size` bytes, and
`FreeSize`, the difference of the two in 32 bits.  `Peek`, `Read`, `Write` and `Reserve` look at `FreeSize` first,
`operator>>` and `operator<<` look at nothing.  As long as these two stay inside, the position does, `FreeSize` is what
is left and nothing behind the buffer is touched (`cursors_bounded_iff`); once they do not, `FreeSize` wraps and the
others pass their check.

`buffer` is the memory from `_buffer` on, what lies behind the `_size` bytes included.
-/
namespace Geon

structure BufferReader where
  buffer : Nat → BYTE
  size : BitVec 32
  pos : BitVec 32

structure BufferWriter where
  buffer : Nat → BYTE
  size : BitVec 32
  pos : BitVec 32

/-- The width of `size_t` in the two builds of the solution. -/
inductive Platform
  | Win32
  | x64
  deriving DecidableEq, Repr

def Platform.bits : Platform → Nat
  | .Win32 => 32
  | .x64 => 64

/-- `len` bytes from `pos` on. -/
def loadAt (m : Nat → BYTE) (pos len : Nat) : List BYTE := (List.range len).map (fun k => m (pos + k))

/-! ## The code -/

namespace BufferReader

def readSize (r : BufferReader) : BitVec 32 := r.pos

def freeSize (r : BufferReader) : BitVec 32 := r.size - r.pos

/-- `Peek`: what it stores in `dest`, `none` for `false`. -/
def peek (r : BufferReader) (len : Nat) : Option (List BYTE) :=
  if r.freeSize.toNat < len then none else some (loadAt r.buffer r.pos.toNat len)

def read (r : BufferReader) (len : Nat) : BufferReader × Option (List BYTE) :=
  match r.peek len with
  | none => (r, none)
  | some bytes => ({ r with pos := r.pos + BitVec.ofNat 32 len }, some bytes)

/-- `operator>>`. -/
def get (r : BufferReader) (sizeofT : Nat) : BufferReader × List BYTE :=
  ({ r with pos := r.pos + BitVec.ofNat 32 sizeofT }, loadAt r.buffer r.pos.toNat sizeofT)

end BufferReader

namespace BufferWriter

def writeSize (w : BufferWriter) : BitVec 32 := w.pos

def freeSize (w : BufferWriter) : BitVec 32 := w.size - w.pos

def write (w : BufferWriter) (src : List BYTE) : BufferWriter × Bool :=
  if w.freeSize.toNat < src.length then (w, false)
  else ({ w with buffer := storeAt w.buffer w.pos.toNat src, pos := w.pos + BitVec.ofNat 32 src.length }, true)

/-- `Reserve<T>`: the offset it returns, `none` for a null pointer. -/
def reserve (platform : Platform) (w : BufferWriter) (sizeofT : Nat) (count : BitVec 16) : BufferWriter × Option Nat :=
  let len := sizeofT * count.toNat % 2 ^ platform.bits
  if w.freeSize.toNat < len then (w, none) else ({ w with pos := w.pos + BitVec.ofNat 32 len }, some w.pos.toNat)

/-- `operator<<`. -/
def put (w : BufferWriter) (src : List BYTE) : BufferWriter :=
  { w with buffer := storeAt w.buffer w.pos.toNat src, pos := w.pos + BitVec.ofNat 32 src.length }

end BufferWriter

/-! ## Calls one after another -/

inductive ReaderOp
  | peek (len : Nat)
  | read (len : Nat)
  | get (sizeofT : Nat)

inductive WriterOp
  | write (src : List BYTE)
  | reserve (sizeofT : Nat) (count : BitVec 16)
  | put (src : List BYTE)

/-- What is left of a buffer, as a natural number. -/
def left (size pos : BitVec 32) : Nat := size.toNat - pos.toNat

/-- The position is inside, and what `FreeSize` returns is what is left. -/
def InBounds (size pos freeSize : BitVec 32) : Prop := pos.toNat ≤ size.toNat ∧ freeSize.toNat = left size pos

namespace BufferReader

def step (r : BufferReader) : ReaderOp → BufferReader
  | .peek _ => r
  | .read len => (r.read len).1
  | .get sizeofT => (r.get sizeofT).1

/-- The number of bytes the call reads from the position on. -/
def touches (r : BufferReader) : ReaderOp → Nat
  | .peek len | .read len => if (r.peek len).isSome = true then len else 0
  | .get sizeofT => sizeofT

/-- All along these calls the position is in bounds and no byte outside is touched. -/
def Bounded : BufferReader → List ReaderOp → Prop
  | r, [] => InBounds r.size r.pos r.freeSize
  | r, op :: ops =>
    InBounds r.size r.pos r.freeSize ∧ r.pos.toNat + r.touches op ≤ r.size.toNat ∧ (r.step op).Bounded ops

/-- `operator>>` asks for no more than is left. -/
def Fits (r : BufferReader) : ReaderOp → Prop
  | .peek _ | .read _ => True
  | .get sizeofT => sizeofT ≤ left r.size r.pos

def AllFit : BufferReader → List ReaderOp → Prop
  | _, [] => True
  | r, op :: ops => r.Fits op ∧ (r.step op).AllFit ops

end BufferReader

namespace BufferWriter

variable (platform : Platform)

def step (w : BufferWriter) : WriterOp → BufferWriter
  | .write src => (w.write src).1
  | .reserve sizeofT count => (w.reserve platform sizeofT count).1
  | .put src => w.put src

/-- The number of bytes the call writes, or gives out to be written, from the position on. -/
def touches (w : BufferWriter) : WriterOp → Nat
  | .write src => if (w.write src).2 = true then src.length else 0
  | .reserve sizeofT count => if (w.reserve platform sizeofT count).2.isSome = true then sizeofT * count.toNat else 0
  | .put src => src.length

/-- All along these calls the position is in bounds and no byte outside is touched. -/
def Bounded : BufferWriter → List WriterOp → Prop
  | w, [] => InBounds w.size w.pos w.freeSize
  | w, op :: ops =>
    InBounds w.size w.pos w.freeSize ∧ w.pos.toNat + w.touches platform op ≤ w.size.toNat ∧
      (w.step platform op).Bounded ops

/-- `operator<<` stores no more than is left, and where the size that `Reserve` computes passes its check it did not
wrap. -/
def Fits (w : BufferWriter) : WriterOp → Prop
  | .write _ => True
  | .reserve sizeofT count =>
    w.freeSize.toNat < sizeofT * count.toNat % 2 ^ platform.bits ∨ sizeofT * count.toNat < 2 ^ platform.bits
  | .put src => src.length ≤ left w.size w.pos

def AllFit : BufferWriter → List WriterOp → Prop
  | _, [] => True
  | w, op :: ops => w.Fits platform op ∧ (w.step platform op).AllFit ops

end BufferWriter

/-! ## The position -/

section Position

variable {size pos : BitVec 32} {len : Nat}

theorem toNat_freeSize (h : pos.toNat ≤ size.toNat) : (size - pos).toNat = left size pos := by
  unfold left
  rw [BitVec.toNat_sub]
  omega

theorem inBounds (h : pos.toNat ≤ size.toNat) : InBounds size pos (size - pos) := ⟨h, toNat_freeSize h⟩

theorem toNat_advance (h : pos.toNat ≤ size.toNat) (hlen : len ≤ left size pos) :
    (pos + BitVec.ofNat 32 len).toNat = pos.toNat + len := by
  unfold left at hlen
  rw [BitVec.toNat_add, BitVec.toNat_ofNat]
  omega

theorem advance_le (h : pos.toNat ≤ size.toNat) (hlen : len ≤ left size pos) :
    (pos + BitVec.ofNat 32 len).toNat ≤ size.toNat := by
  rw [toNat_advance h hlen]
  unfold left at hlen
  omega

/-- A call and the ones after it. -/
theorem bounded_cons (h : pos.toNat ≤ size.toNat) {touched : Nat} {fits rest allFit : Prop}
    (hfits : fits ↔ pos.toNat + touched ≤ size.toNat) (hrest : fits → (rest ↔ allFit)) :
    (InBounds size pos (size - pos) ∧ pos.toNat + touched ≤ size.toNat ∧ rest) ↔ fits ∧ allFit := by
  rw [and_iff_right (inBounds h), ← hfits, and_congr_right_iff]
  exact hrest

theorem left_lt (size pos : BitVec 32) : left size pos < 2 ^ 32 := by
  unfold left
  omega

end Position

namespace BufferReader

variable {r : BufferReader} {op : ReaderOp}

theorem peek_eq (h : r.pos.toNat ≤ r.size.toNat) (len : Nat) :
    r.peek len = if len ≤ left r.size r.pos then some (loadAt r.buffer r.pos.toNat len) else none := by
  unfold peek freeSize
  rw [toNat_freeSize h]
  split
  · rw [if_neg (by omega)]
  · rw [if_pos (by omega)]

theorem read_eq (h : r.pos.toNat ≤ r.size.toNat) (len : Nat) : r.read len =
    if len ≤ left r.size r.pos then
      ({ r with pos := r.pos + BitVec.ofNat 32 len }, some (loadAt r.buffer r.pos.toNat len))
    else (r, none) := by
  unfold read
  rw [peek_eq h]
  by_cases hlen : len ≤ left r.size r.pos
  · rw [if_pos hlen, if_pos hlen]
  · rw [if_neg hlen, if_neg hlen]

theorem size_step (r : BufferReader) (op : ReaderOp) : (r.step op).size = r.size := by
  cases op with
  | peek len => rfl
  | read len =>
    simp only [step, read]
    split <;> rfl
  | get sizeofT => rfl

theorem fits_iff (h : r.pos.toNat ≤ r.size.toNat) : r.Fits op ↔ r.pos.toNat + r.touches op ≤ r.size.toNat := by
  have hchecked : ∀ len, r.pos.toNat + (if (r.peek len).isSome = true then len else 0) ≤ r.size.toNat := by
    intro len
    rw [peek_eq h]
    unfold left
    by_cases hlen : len ≤ r.size.toNat - r.pos.toNat
    · rw [if_pos hlen, Option.isSome_some, if_pos rfl]
      omega
    · rw [if_neg hlen, Option.isSome_none, if_neg Bool.false_ne_true]
      omega
  cases op with
  | peek len => exact iff_of_true trivial (hchecked len)
  | read len => exact iff_of_true trivial (hchecked len)
  | get sizeofT =>
    unfold Fits touches left
    dsimp only
    omega

/-- **The step lemma**: a call that fits leaves the position inside. -/
theorem pos_step (h : r.pos.toNat ≤ r.size.toNat) (hfits : r.Fits op) :
    (r.step op).pos.toNat ≤ (r.step op).size.toNat := by
  rw [size_step]
  cases op with
  | peek len => exact h
  | read len =>
    simp only [step, read_eq h]
    split
    · exact advance_le h ‹_›
    · exact h
  | get sizeofT => exact advance_le h hfits

theorem bounded_iff : ∀ (ops : List ReaderOp) (r : BufferReader), r.pos.toNat ≤ r.size.toNat →
    (r.Bounded ops ↔ r.AllFit ops)
  | [], _, h => iff_of_true (inBounds h) trivial
  | op :: ops, r, h => bounded_cons h (fits_iff h) (fun hfits => bounded_iff ops (r.step op) (pos_step h hfits))

end BufferReader

namespace BufferWriter

variable {platform : Platform} {w : BufferWriter} {op : WriterOp}

theorem write_eq (h : w.pos.toNat ≤ w.size.toNat) (src : List BYTE) :
    w.write src = if src.length ≤ left w.size w.pos then (w.put src, true) else (w, false) := by
  unfold write freeSize put
  rw [toNat_freeSize h]
  split
  · rw [if_neg (by omega)]
  · rw [if_pos (by omega)]

theorem reserve_eq (h : w.pos.toNat ≤ w.size.toNat) (sizeofT : Nat) (count : BitVec 16) :
    w.reserve platform sizeofT count =
      if sizeofT * count.toNat % 2 ^ platform.bits ≤ left w.size w.pos then
        ({ w with pos := w.pos + BitVec.ofNat 32 (sizeofT * count.toNat % 2 ^ platform.bits) }, some w.pos.toNat)
      else (w, none) := by
  unfold reserve freeSize
  rw [toNat_freeSize h]
  dsimp only
  split
  · rw [if_neg (by omega)]
  · rw [if_pos (by omega)]

theorem left_lt_bits (platform : Platform) (w : BufferWriter) : left w.size w.pos < 2 ^ platform.bits := by
  have hlt := left_lt w.size w.pos
  cases platform with
  | Win32 => exact hlt
  | x64 => exact hlt.trans (by decide)

theorem size_step (platform : Platform) (w : BufferWriter) (op : WriterOp) : (w.step platform op).size = w.size := by
  cases op with
  | write src =>
    simp only [step, write]
    split <;> rfl
  | reserve sizeofT count =>
    simp only [step, reserve]
    split <;> rfl
  | put src => rfl

theorem fits_iff (h : w.pos.toNat ≤ w.size.toNat) :
    w.Fits platform op ↔ w.pos.toNat + w.touches platform op ≤ w.size.toNat := by
  cases op with
  | write src =>
    refine iff_of_true trivial ?_
    unfold touches
    dsimp only
    rw [write_eq h]
    unfold left
    by_cases hlen : src.length ≤ w.size.toNat - w.pos.toNat
    · rw [if_pos hlen, if_pos rfl]
      omega
    · rw [if_neg hlen, if_neg Bool.false_ne_true]
      omega
  | reserve sizeofT count =>
    have hbits := left_lt_bits platform w
    unfold Fits touches freeSize
    dsimp only
    rw [reserve_eq h, toNat_freeSize h]
    by_cases hlen : sizeofT * count.toNat % 2 ^ platform.bits ≤ left w.size w.pos
    · rw [if_pos hlen, Option.isSome_some, if_pos rfl, or_iff_right (Nat.not_lt.2 hlen)]
      constructor
      · intro hlt
        rw [Nat.mod_eq_of_lt hlt] at hlen
        unfold left at hlen
        omega
      · intro hle
        unfold left at hbits
        omega
    · rw [if_neg hlen, Option.isSome_none, if_neg Bool.false_ne_true]
      exact iff_of_true (.inl (Nat.lt_of_not_le hlen)) (by omega)
  | put src =>
    unfold Fits touches left
    dsimp only
    omega

/-- **The step lemma**: a call that fits leaves the position inside. -/
theorem pos_step (h : w.pos.toNat ≤ w.size.toNat) (hfits : w.Fits platform op) :
    (w.step platform op).pos.toNat ≤ (w.step platform op).size.toNat := by
  rw [size_step]
  cases op with
  | write src =>
    simp only [step, write_eq h]
    split
    · exact advance_le h ‹_›
    · exact h
  | reserve sizeofT count =>
    simp only [step, reserve_eq h]
    split
    · exact advance_le h ‹_›
    · exact h
  | put src => exact advance_le h hfits

theorem bounded_iff : ∀ (ops : List WriterOp) (w : BufferWriter), w.pos.toNat ≤ w.size.toNat →
    (w.Bounded platform ops ↔ w.AllFit platform ops)
  | [], _, h => iff_of_true (inBounds h) trivial
  | op :: ops, w, h =>
    bounded_cons h (fits_iff h) (fun hfits => bounded_iff ops (w.step platform op) (pos_step h hfits))

end BufferWriter

/-- **When the calls stay inside the buffer**: those of a reader and those of a writer do if and only if no `operator>>`
and no `operator<<` is for more than is left, and no size computed in `Reserve` wraps. -/
theorem cursors_bounded_iff (platform : Platform) (r : BufferReader) (w : BufferWriter)
    (hr : r.pos.toNat ≤ r.size.toNat) (hw : w.pos.toNat ≤ w.size.toNat) (reads : List ReaderOp)
    (writes : List WriterOp) :
    (r.Bounded reads ↔ r.AllFit reads) ∧ (w.Bounded platform writes ↔ w.AllFit platform writes) :=
  ⟨BufferReader.bounded_iff reads r hr, BufferWriter.bounded_iff writes w hw⟩

/-- Eight bytes, of which four are read, and five at once are written. -/
theorem cursors_bounded_iff_eight :
    (⟨fun _ => 0, 8, 0⟩ : BufferReader).Bounded [.peek 9, .get 4] ∧
      ¬ (⟨fun _ => 0, 8, 4⟩ : BufferWriter).Bounded .x64 [.put [1, 2, 3, 4, 5]] := by
  obtain ⟨hr, hw⟩ := cursors_bounded_iff .x64 ⟨fun _ => 0, 8, 0⟩ ⟨fun _ => 0, 8, 4⟩ (by decide) (by decide)
    [.peek 9, .get 4] [.put [1, 2, 3, 4, 5]]
  have hget : 4 ≤ left 8 0 := by decide
  have hput : ¬ 5 ≤ left 8 4 := by decide
  exact ⟨hr.2 ⟨trivial, hget, trivial⟩, fun h => hput (hw.1 h).1⟩

/-- **A reader of one byte**: `operator>>` takes four, and a `Read` of four behind them is not refused. -/
theorem one_byte_overrun : ¬ (⟨fun _ => 0, 1, 0⟩ : BufferReader).Bounded [.get 4, .read 4] ∧
    (((⟨fun _ => 0, 1, 0⟩ : BufferReader).step (.get 4)).read 4).2 = some [0, 0, 0, 0] := by
  refine ⟨fun h => ?_, by decide⟩
  have hin : (4 : Nat) ≤ 1 := h.2.1
  exact absurd hin (by decide)

end Geon
