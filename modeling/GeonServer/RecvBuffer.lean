import Mathlib.Tactic.Common
/-!
# RecvBuffer — the receive buffer as a byte queue

`RecvBuffer` is the buffer of ServerCore/RecvBuffer.cpp: one block of `BUFFER_COUNT` times the receive size, a read
and a write cursor.  Its purpose is a queue of bytes: `data` is the bytes between the cursors, `OnWrite` appends to
it (`data_onWrite`), `OnRead` drops from its front (`data_onRead`) and `Clean` leaves it alone (`data_clean`).
-/
namespace Geon

abbrev BYTE := UInt8

def BUFFER_COUNT : Int := 10

/-- `RecvBuffer`.  The `int32` members stay within `0` and `_capacity` (`RecvBuffer.Wf`), far below 2³¹. -/
structure RecvBuffer where
  capacity : Int
  bufferSize : Int
  readPos : Int
  writePos : Int
  buffer : Nat → BYTE

/-- `memcpy` within one block.  Overlapping ranges leave the destination unspecified: `junk`. -/
def memcpy (junk m : Nat → BYTE) (dst src n : Nat) : Nat → BYTE := fun i =>
  if dst ≤ i ∧ i < dst + n then
    if dst + n ≤ src ∨ src + n ≤ dst then m (src + (i - dst)) else junk i
  else m i

namespace RecvBuffer

def new (bufferSize : Int) : RecvBuffer :=
  { capacity := bufferSize * BUFFER_COUNT, bufferSize := bufferSize, readPos := 0, writePos := 0,
    buffer := fun _ => 0 }

def dataSize (b : RecvBuffer) : Int := b.writePos - b.readPos

def freeSize (b : RecvBuffer) : Int := b.capacity - b.writePos

def clean (junk : Nat → BYTE) (b : RecvBuffer) : RecvBuffer :=
  let dataSize := b.dataSize
  if dataSize = 0 then { b with readPos := 0, writePos := 0 }
  else if b.freeSize < b.bufferSize then
    { b with buffer := memcpy junk b.buffer 0 b.readPos.toNat dataSize.toNat, readPos := 0, writePos := dataSize }
  else b

/-- `RecvBuffer::OnRead`: whether it accepted, and the buffer after it. -/
def onRead (b : RecvBuffer) (numOfBytes : Int) : Bool × RecvBuffer :=
  if numOfBytes > b.dataSize then (false, b) else (true, { b with readPos := b.readPos + numOfBytes })

/-- `RecvBuffer::OnWrite`: whether it accepted, and the buffer after it. -/
def onWrite (b : RecvBuffer) (numOfBytes : Int) : Bool × RecvBuffer :=
  if numOfBytes > b.freeSize then (false, b) else (true, { b with writePos := b.writePos + numOfBytes })

/-- The operating system stores received bytes at the address a receive was posted with. -/
def store (b : RecvBuffer) (pos : Int) (bytes : List BYTE) : RecvBuffer :=
  { b with buffer := fun i =>
      if h : pos.toNat ≤ i ∧ i - pos.toNat < bytes.length then bytes.get ⟨i - pos.toNat, h.2⟩ else b.buffer i }

/-- The bytes at `ReadPos()`, `DataSize()` of them. -/
def data (b : RecvBuffer) : List BYTE :=
  (List.range b.dataSize.toNat).map (fun i => b.buffer (b.readPos.toNat + i))

/-- The cursors are in order and inside the block. -/
structure Wf (b : RecvBuffer) : Prop where
  readPos_nonneg : 0 ≤ b.readPos
  readPos_le : b.readPos ≤ b.writePos
  writePos_le : b.writePos ≤ b.capacity

theorem wf_new (n : Int) (h : 0 ≤ n) : (new n).Wf := by
  refine ⟨Int.le_refl _, Int.le_refl _, ?_⟩
  simp only [new, BUFFER_COUNT]
  omega

theorem data_new (n : Int) : (new n).data = [] := rfl

theorem length_data (b : RecvBuffer) : b.data.length = b.dataSize.toNat := by simp [data]

theorem Wf.length_data {b : RecvBuffer} (h : b.Wf) : (b.data.length : Int) = b.dataSize := by
  have := h.readPos_le
  rw [RecvBuffer.length_data]
  simp only [dataSize]
  omega

@[simp] theorem capacity_store (b : RecvBuffer) (pos : Int) (bytes : List BYTE) :
    (b.store pos bytes).capacity = b.capacity := rfl
@[simp] theorem bufferSize_store (b : RecvBuffer) (pos : Int) (bytes : List BYTE) :
    (b.store pos bytes).bufferSize = b.bufferSize := rfl
@[simp] theorem readPos_store (b : RecvBuffer) (pos : Int) (bytes : List BYTE) :
    (b.store pos bytes).readPos = b.readPos := rfl
@[simp] theorem writePos_store (b : RecvBuffer) (pos : Int) (bytes : List BYTE) :
    (b.store pos bytes).writePos = b.writePos := rfl
@[simp] theorem freeSize_store (b : RecvBuffer) (pos : Int) (bytes : List BYTE) :
    (b.store pos bytes).freeSize = b.freeSize := rfl

theorem Wf.store {b : RecvBuffer} (h : b.Wf) (pos : Int) (bytes : List BYTE) : (b.store pos bytes).Wf :=
  ⟨h.readPos_nonneg, h.readPos_le, h.writePos_le⟩

/-! ## What each operation does to the cursors -/

theorem onWrite_of_le (b : RecvBuffer) (n : Int) (h : n ≤ b.freeSize) :
    b.onWrite n = (true, { b with writePos := b.writePos + n }) := by
  unfold onWrite
  rw [if_neg (by omega)]

theorem onRead_of_le (b : RecvBuffer) (n : Int) (h : n ≤ b.dataSize) :
    b.onRead n = (true, { b with readPos := b.readPos + n }) := by
  unfold onRead
  rw [if_neg (by omega)]

@[simp] theorem capacity_clean (junk : Nat → BYTE) (b : RecvBuffer) : (b.clean junk).capacity = b.capacity := by
  unfold clean; dsimp only; split
  · rfl
  · split <;> rfl

@[simp] theorem bufferSize_clean (junk : Nat → BYTE) (b : RecvBuffer) :
    (b.clean junk).bufferSize = b.bufferSize := by
  unfold clean; dsimp only; split
  · rfl
  · split <;> rfl

theorem dataSize_clean (junk : Nat → BYTE) (b : RecvBuffer) : (b.clean junk).dataSize = b.dataSize := by
  unfold clean; dsimp only; split
  · rename_i h; rw [h]; rfl
  · split
    · simp only [dataSize]; omega
    · rfl

theorem Wf.clean {b : RecvBuffer} (h : b.Wf) (junk : Nat → BYTE) : (b.clean junk).Wf := by
  have h1 := h.readPos_nonneg
  have h2 := h.readPos_le
  have h3 := h.writePos_le
  unfold RecvBuffer.clean; dsimp only; split
  · exact ⟨Int.le_refl _, Int.le_refl _, by simp only; omega⟩
  · split
    · refine ⟨Int.le_refl _, ?_, ?_⟩ <;> simp only [dataSize] <;> omega
    · exact h

/-- **What `Clean` leaves free**: the whole block but the leftover, unless one more receive still fits. -/
theorem freeSize_clean (junk : Nat → BYTE) (b : RecvBuffer) :
    b.bufferSize ≤ (b.clean junk).freeSize ∨ (b.clean junk).freeSize = b.capacity - b.dataSize := by
  unfold clean; dsimp only; split
  · rename_i h
    right; rw [h]; rfl
  · split
    · right; rfl
    · left; omega

/-! ## The queue -/

/-- **`OnWrite` appends** what was stored at the write cursor. -/
theorem data_onWrite (b : RecvBuffer) (h : b.Wf) (bytes : List BYTE) (hfree : bytes.length ≤ b.freeSize) :
    ((b.store b.writePos bytes).onWrite bytes.length).2.data = b.data ++ bytes := by
  have h1 := h.readPos_nonneg
  have h2 := h.readPos_le
  rw [onWrite_of_le _ _ (by simpa using hfree)]
  apply List.ext_getElem
  · simp only [length_data, dataSize, List.length_append, writePos_store, readPos_store]
    omega
  · intro i hi hi'
    simp only [length_data, dataSize, List.length_append, writePos_store, readPos_store] at hi hi'
    simp only [data, List.getElem_map, List.getElem_range, List.getElem_append, List.length_map, List.length_range,
      store, dataSize]
    by_cases hlt : i < (b.writePos - b.readPos).toNat
    · rw [dif_pos hlt, dif_neg (by omega)]
    · rw [dif_neg hlt, dif_pos (by omega)]
      simp only [List.get_eq_getElem]
      congr 1
      omega

/-- **`OnRead` drops** what was consumed from the front. -/
theorem data_onRead (b : RecvBuffer) (h : b.Wf) (n : Int) (h0 : 0 ≤ n) (hn : n ≤ b.dataSize) :
    (b.onRead n).2.data = b.data.drop n.toNat := by
  have h1 := h.readPos_nonneg
  rw [onRead_of_le b n hn]
  apply List.ext_getElem
  · simp only [length_data, List.length_drop, dataSize]
    omega
  · intro i hi hi'
    simp only [data, List.getElem_map, List.getElem_range, List.getElem_drop]
    congr 1
    omega

/-- **`Clean` keeps the content**, when the leftover it moves starts at or after its own length. -/
theorem data_clean (junk : Nat → BYTE) (b : RecvBuffer)
    (hov : b.freeSize < b.bufferSize → b.dataSize ≤ b.readPos) : (b.clean junk).data = b.data := by
  have hds := dataSize_clean junk b
  apply List.ext_getElem
  · rw [length_data, length_data, hds]
  · intro i hi hi'
    rw [length_data] at hi'
    unfold clean at *
    simp only [data, List.getElem_map, List.getElem_range] at *
    split
    · rename_i h; rw [h] at hi'; simp at hi'
    · split
      · rename_i hf
        have := hov hf
        simp only [memcpy]
        rw [if_pos (by omega), if_pos (by omega)]
        congr 1
        omega
      · rfl

end RecvBuffer
end Geon
