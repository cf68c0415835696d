import GeonServer.BufferCursor
import GeonServer.PacketRun
/-!
# BufferFields — what a writer stores, a reader reads

A writer's calls lay fields one behind the other, and what is stored later through the pointer of a `Reserve` stays
inside its field (`Laid`).  So a reader that starts where the writer started reads the values field by field, whatever
was written by which call and is read by which (`buffer_round_trip`).
-/
namespace Geon

open Lts

/-! ## A writer's calls -/

/-- A field: where it is, what is stored there, whether it comes from `Reserve`, and `WriteSize()` after its call. -/
structure Field where
  start : Nat
  value : List BYTE
  reserved : Bool
  writeSize : BitVec 32
  deriving DecidableEq, Repr

structure WriterRun where
  writer : BufferWriter
  fields : List Field

inductive WriterAct
  | call (op : WriterOp)
  /-- Bytes are stored through the pointer that the `Reserve` of field `i` has returned. -/
  | fill (i offset : Nat) (bytes : List BYTE)

variable (platform : Platform)

/-- What a call puts into its field, and whether that is still to be filled; `none` if the call is refused. -/
def WriterOp.stores (w : BufferWriter) : WriterOp → Option (List BYTE × Bool)
  | .write src => if (w.write src).2 = true then some (src, false) else none
  | .reserve sizeofT count =>
    (w.reserve platform sizeofT count).2.map (fun start => (loadAt w.buffer start (sizeofT * count.toNat), true))
  | .put src => some (src, false)

def overwrite (value : List BYTE) (offset : Nat) (bytes : List BYTE) : List BYTE :=
  value.take offset ++ bytes ++ value.drop (offset + bytes.length)

def WriterRun.call (s : WriterRun) (op : WriterOp) : WriterRun :=
  { writer := s.writer.step platform op
    fields := s.fields ++ (op.stores platform s.writer).toList.map (fun stored =>
      ⟨s.writer.pos.toNat, stored.1, stored.2, (s.writer.step platform op).writeSize⟩) }

/-- A call that fits in the buffer, or a store into a reserved field. -/
def writerStep (s : WriterRun) : WriterAct → Option WriterRun
  | .call op =>
    if s.writer.pos.toNat + s.writer.touches platform op ≤ s.writer.size.toNat then some (s.call platform op) else none
  | .fill i offset bytes =>
    match s.fields[i]? with
    | none => none
    | some f =>
      if f.reserved = true ∧ offset + bytes.length ≤ f.value.length then
        some {
          writer := { s.writer with buffer := storeAt s.writer.buffer (f.start + offset) bytes }
          fields := s.fields.set i { f with value := overwrite f.value offset bytes } }
      else none

/-! ## A reader's calls -/

/-- A field is read by `Read` or by `operator>>`, after a number of `Peek`s. -/
structure ReadBy where
  checked : Bool
  peeks : Nat
  deriving DecidableEq, Repr

namespace BufferReader

/-- What the calls for a field of `len` bytes show. -/
def readField (r : BufferReader) (len : Nat) (how : ReadBy) : BufferReader × List (Option (List BYTE)) :=
  let peeked := List.replicate how.peeks (r.peek len)
  if how.checked = true then ((r.read len).1, peeked ++ [(r.read len).2])
  else ((r.get len).1, peeked ++ [some (r.get len).2])

/-- What the calls for these fields show, with `ReadSize()` after each. -/
def readFields : BufferReader → List (Nat × ReadBy) → List (List (Option (List BYTE)) × BitVec 32)
  | _, [] => []
  | r, (len, how) :: rest =>
    ((r.readField len how).2, (r.readField len how).1.readSize) :: (r.readField len how).1.readFields rest

end BufferReader

/-! ## Loads and stores -/

theorem length_loadAt (m : Nat → BYTE) (pos len : Nat) : (loadAt m pos len).length = len := by
  rw [loadAt, List.length_map, List.length_range]

theorem loadAt_congr {m m' : Nat → BYTE} {pos len : Nat} (h : ∀ i, pos ≤ i → i < pos + len → m' i = m i) :
    loadAt m' pos len = loadAt m pos len := by
  refine List.map_congr_left (fun k hk => h _ (Nat.le_add_right pos k) ?_)
  have hlt := List.mem_range.1 hk
  omega

theorem loadAt_storeAt (m : Nat → BYTE) (pos : Nat) (bytes : List BYTE) :
    loadAt (storeAt m pos bytes) pos bytes.length = bytes := map_storeAt m pos bytes

theorem loadAt_add (m : Nat → BYTE) (pos a b : Nat) :
    loadAt m pos (a + b) = loadAt m pos a ++ loadAt m (pos + a) b := by
  unfold loadAt
  rw [List.range_add, List.map_append, List.map_map]
  refine congrArg (List.append _) (List.map_congr_left (fun k _ => ?_))
  rw [Function.comp_apply, Nat.add_assoc]

/-- A store inside a piece of memory overwrites a part of it. -/
theorem loadAt_storeAt_inside (m : Nat → BYTE) (pos offset : Nat) (bytes : List BYTE) {len : Nat}
    (h : offset + bytes.length ≤ len) :
    loadAt (storeAt m (pos + offset) bytes) pos len = overwrite (loadAt m pos len) offset bytes := by
  obtain ⟨rest, rfl⟩ := Nat.exists_eq_add_of_le h
  have hfront : loadAt (storeAt m (pos + offset) bytes) pos offset = loadAt m pos offset :=
    loadAt_congr (fun i _ hi => storeAt_of_not_mem (.inl hi))
  have hback : loadAt (storeAt m (pos + offset) bytes) (pos + (offset + bytes.length)) rest =
      loadAt m (pos + (offset + bytes.length)) rest :=
    loadAt_congr (fun i hi _ => storeAt_of_not_mem (.inr (by omega)))
  have htake : (loadAt m pos (offset + bytes.length)).take offset = loadAt m pos offset := by
    rw [loadAt_add, List.take_left' (length_loadAt ..)]
  rw [loadAt_add _ _ (offset + bytes.length), loadAt_add _ _ (offset + bytes.length), hback, overwrite,
    List.drop_left' (length_loadAt ..), List.take_append_of_le_length (by rw [length_loadAt]; omega), htake,
    loadAt_add, hfront, loadAt_storeAt]

/-! ## Fields one behind the other -/

/-- The fields lie one behind the other from `p` to `q`, each with its value. -/
def Laid (m : Nat → BYTE) : Nat → List Field → Nat → Prop
  | p, [], q => p = q
  | p, f :: fs, q => f.start = p ∧ loadAt m p f.value.length = f.value ∧
      f.writeSize.toNat = p + f.value.length ∧ Laid m (p + f.value.length) fs q

section Laid

variable {m m' : Nat → BYTE} {p q : Nat} {f : Field} {fs : List Field}

theorem Laid.le : ∀ {fs : List Field} {p : Nat}, Laid m p fs q → p ≤ q
  | [], _, h => Nat.le_of_eq h
  | _ :: _, _, ⟨_, _, _, h⟩ => Nat.le_trans (Nat.le_add_right ..) h.le

theorem Laid.congr : ∀ {fs : List Field} {p : Nat}, Laid m p fs q → (∀ i, p ≤ i → i < q → m' i = m i) → Laid m' p fs q
  | [], _, h, _ => h
  | f :: fs, p, ⟨hstart, hload, hsize, h⟩, hm => by
    have hle := h.le
    refine ⟨hstart, ?_, hsize, h.congr (fun i hi => hm i (by omega))⟩
    rw [loadAt_congr (fun i hi hlt => hm i hi (by omega)), hload]

theorem Laid.append : ∀ {fs : List Field} {p : Nat}, Laid m p fs q → f.start = q →
    loadAt m q f.value.length = f.value → f.writeSize.toNat = q + f.value.length →
    Laid m p (fs ++ [f]) (q + f.value.length)
  | [], _, h, hstart, hload, hsize => by
    cases h
    exact ⟨hstart, hload, hsize, rfl⟩
  | _ :: _, _, ⟨hstart', hload', hsize', h⟩, hstart, hload, hsize =>
    ⟨hstart', hload', hsize', h.append hstart hload hsize⟩

theorem Laid.start_le : ∀ {fs : List Field} {p i : Nat}, Laid m p fs q → fs[i]? = some f → p ≤ f.start
  | [], _, _, _, h => by cases h
  | g :: fs, p, 0, ⟨hstart, _⟩, h => by
    cases h
    exact Nat.le_of_eq hstart.symm
  | g :: fs, p, i + 1, ⟨_, _, _, hrest⟩, h => Nat.le_trans (Nat.le_add_right ..) (hrest.start_le h)

/-- **A store through the pointer of a `Reserve`** changes that field and no other. -/
theorem Laid.fill {offset : Nat} {bytes : List BYTE} (hin : offset + bytes.length ≤ f.value.length) :
    ∀ {fs : List Field} {p i : Nat}, Laid m p fs q → fs[i]? = some f →
      Laid (storeAt m (f.start + offset) bytes) p (fs.set i { f with value := overwrite f.value offset bytes }) q
  | [], _, _, _, h => by cases h
  | g :: fs, p, 0, ⟨hstart, hload, hsize, hrest⟩, h => by
    cases h
    have hlen : (overwrite f.value offset bytes).length = f.value.length := by
      simp only [overwrite, List.length_append, List.length_take, List.length_drop]
      omega
    subst hstart
    rw [List.set_cons_zero]
    refine ⟨rfl, ?_, ?_, ?_⟩
    · rw [hlen, loadAt_storeAt_inside m _ offset bytes hin, hload]
    · rw [hlen, hsize]
    · rw [hlen]
      exact hrest.congr (fun i hi _ => storeAt_of_not_mem (.inr (by omega)))
  | g :: fs, p, i + 1, ⟨hstart, hload, hsize, hrest⟩, h => by
    have hle := hrest.start_le h
    rw [List.set_cons_succ]
    refine ⟨hstart, ?_, hsize, hrest.fill hin h⟩
    rw [loadAt_congr (fun i _ hi => storeAt_of_not_mem (.inl (by omega))), hload]

end Laid

/-! ## Writing -/

variable {platform : Platform} {w₀ : BufferWriter} {s s' : WriterRun}

/-- The fields lie between where the writer started and where it is. -/
structure WriterInv (w₀ : BufferWriter) (s : WriterRun) : Prop where
  inside : s.writer.pos.toNat ≤ s.writer.size.toNat
  laid : Laid s.writer.buffer w₀.pos.toNat s.fields s.writer.pos.toNat

/-- **What a call that fits does**: it is refused and changes nothing, or it lays one field at the position. -/
theorem step_stores {w : BufferWriter} {op : WriterOp} (h : w.pos.toNat ≤ w.size.toNat)
    (hin : w.pos.toNat + w.touches platform op ≤ w.size.toNat) :
    (op.stores platform w = none ∧ w.step platform op = w) ∨
    ∃ value reserved, op.stores platform w = some (value, reserved) ∧
      (w.step platform op).pos.toNat = w.pos.toNat + value.length ∧
      loadAt (w.step platform op).buffer w.pos.toNat value.length = value ∧
      ∀ i, i < w.pos.toNat → (w.step platform op).buffer i = w.buffer i := by
  have hput : ∀ src : List BYTE, src.length ≤ left w.size w.pos → (w.put src).pos.toNat = w.pos.toNat + src.length ∧
      loadAt (w.put src).buffer w.pos.toNat src.length = src ∧
      ∀ i, i < w.pos.toNat → (w.put src).buffer i = w.buffer i := fun src hlen =>
    ⟨toNat_advance h hlen, loadAt_storeAt .., fun i hi => storeAt_of_not_mem (.inl hi)⟩
  cases op with
  | write src =>
    simp only [WriterOp.stores, BufferWriter.step, BufferWriter.write_eq h]
    by_cases hlen : src.length ≤ left w.size w.pos
    · simp only [if_pos hlen, if_true]
      exact .inr ⟨src, false, rfl, hput src hlen⟩
    · simp only [if_neg hlen]
      exact .inl ⟨rfl, trivial⟩
  | reserve sizeofT count =>
    have hfits : w.freeSize.toNat < sizeofT * count.toNat % 2 ^ platform.bits ∨
        sizeofT * count.toNat < 2 ^ platform.bits := (@BufferWriter.fits_iff platform w (.reserve sizeofT count) h).2 hin
    rw [BufferWriter.freeSize, toNat_freeSize h] at hfits
    simp only [WriterOp.stores, BufferWriter.step, BufferWriter.reserve_eq h]
    by_cases hlen : sizeofT * count.toNat % 2 ^ platform.bits ≤ left w.size w.pos
    · have hlt := hfits.resolve_left (Nat.not_lt.2 hlen)
      simp only [if_pos hlen]
      rw [Nat.mod_eq_of_lt hlt] at hlen ⊢
      refine .inr ⟨_, true, rfl, ?_, ?_, fun _ _ => trivial⟩
      · rw [length_loadAt, toNat_advance h hlen]
      · rw [length_loadAt]
    · simp only [if_neg hlen]
      exact .inl ⟨rfl, trivial⟩
  | put src =>
    have hlen : src.length ≤ left w.size w.pos := (@BufferWriter.fits_iff platform w (.put src) h).2 hin
    exact .inr ⟨src, false, rfl, hput src hlen⟩

/-- **The step lemma.** -/
theorem WriterInv.step (hI : WriterInv w₀ s) {a : WriterAct} (he : writerStep platform s a = some s') :
    WriterInv w₀ s' := by
  cases a with
  | call op =>
    obtain ⟨hin, he⟩ := Option.ite_none_right_eq_some.1 he
    cases he
    have hpos := BufferWriter.pos_step hI.inside ((BufferWriter.fits_iff hI.inside).2 hin)
    rcases step_stores hI.inside hin with ⟨hnone, hsame⟩ | ⟨value, reserved, hsome, hadvance, hload, hkeep⟩
    · have hcall : s.call platform op = s := by
        simp only [WriterRun.call, hnone, hsame, Option.toList_none, List.map_nil, List.append_nil]
      rw [hcall]
      exact hI
    · refine ⟨hpos, ?_⟩
      simp only [WriterRun.call, hsome, Option.toList_some, List.map_cons, List.map_nil]
      rw [hadvance]
      exact (hI.laid.congr (fun i _ hi => hkeep i hi)).append rfl hload hadvance
  | fill i offset bytes =>
    simp only [writerStep] at he
    split at he
    · cases he
    · obtain ⟨⟨-, hin⟩, he⟩ := Option.ite_none_right_eq_some.1 he
      cases he
      exact ⟨hI.inside, hI.laid.fill hin ‹_›⟩

theorem writerInv_of_reach (hw : w₀.pos.toNat ≤ w₀.size.toNat) (h : Reach (writerStep platform) Any ⟨w₀, []⟩ s) :
    WriterInv w₀ s :=
  h.inv ⟨hw, rfl⟩ (fun _ _ _ _ hI he _ => hI.step he)

/-! ## Reading -/

/-- **A field is read**: every call for it shows its value, and the position comes behind it. -/
theorem readField_eq {r : BufferReader} {value : List BYTE} (how : ReadBy) (h : r.pos.toNat ≤ r.size.toNat)
    (hlen : value.length ≤ left r.size r.pos) (hload : loadAt r.buffer r.pos.toNat value.length = value) :
    r.readField value.length how =
      ({ r with pos := r.pos + BitVec.ofNat 32 value.length }, List.replicate (how.peeks + 1) (some value)) := by
  unfold BufferReader.readField BufferReader.get
  rw [BufferReader.read_eq h, BufferReader.peek_eq h, if_pos hlen, if_pos hlen, hload, List.replicate_succ']
  split <;> rfl

theorem readFields_eq : ∀ {fields : List Field} (hows : List ReadBy) {r : BufferReader} {q : Nat},
    Laid r.buffer r.pos.toNat fields q → q ≤ r.size.toNat →
    r.readFields (List.zipWith (fun f how => (f.value.length, how)) fields hows) =
      List.zipWith (fun f how => (List.replicate (how.peeks + 1) (some f.value), f.writeSize)) fields hows
  | [], _, _, _, _, _ => rfl
  | _ :: _, [], _, _, _, _ => rfl
  | f :: fields, how :: hows, r, q, ⟨_, hload, hsize, hrest⟩, hq => by
    have hle := hrest.le
    have hlen : f.value.length ≤ left r.size r.pos := by
      unfold left
      omega
    have hpos : r.pos.toNat ≤ r.size.toNat := by omega
    have hadvance := toNat_advance hpos hlen
    have hread := readField_eq how hpos hlen hload
    rw [List.zipWith_cons_cons, List.zipWith_cons_cons, BufferReader.readFields, hread]
    have hreadSize : r.pos + BitVec.ofNat 32 f.value.length = f.writeSize := by
      rw [← BitVec.toNat_inj, hadvance, hsize]
    rw [← hadvance] at hrest
    have htail := readFields_eq hows (r := { r with pos := r.pos + BitVec.ofNat 32 f.value.length }) hrest hq
    rw [htail]
    unfold BufferReader.readSize
    rw [hreadSize]

/-- A `Write` or `Reserve` that fits is not refused, and the pointer is to the field it lays. -/
def Accepts (platform : Platform) (w : BufferWriter) : Prop :=
  (∀ src : List BYTE, w.pos.toNat + src.length ≤ w.size.toNat → (w.write src).2 = true) ∧
  ∀ (sizeofT : Nat) (count : BitVec 16), w.pos.toNat + sizeofT * count.toNat ≤ w.size.toNat →
    (w.reserve platform sizeofT count).2 = some w.pos.toNat

theorem accepts_of_le (platform : Platform) {w : BufferWriter} (h : w.pos.toNat ≤ w.size.toNat) :
    Accepts platform w := by
  refine ⟨fun src hfit => ?_, fun sizeofT count hfit => ?_⟩
  · have hlen : src.length ≤ left w.size w.pos := Nat.le_sub_of_add_le' hfit
    rw [BufferWriter.write_eq h, if_pos hlen]
  · have hlen : sizeofT * count.toNat ≤ left w.size w.pos := Nat.le_sub_of_add_le' hfit
    rw [BufferWriter.reserve_eq h, if_pos ((Nat.mod_le _ _).trans hlen)]

/-- A call that is refused leaves the buffer and the position as they are. -/
def RefusalsKeep (platform : Platform) : Prop :=
  (∀ (w : BufferWriter) (src : List BYTE), (w.write src).2 = false → (w.write src).1 = w) ∧
  (∀ (w : BufferWriter) (sizeofT : Nat) (count : BitVec 16), (w.reserve platform sizeofT count).2 = none →
    (w.reserve platform sizeofT count).1 = w) ∧
  (∀ (r : BufferReader) (len : Nat), (r.read len).2 = none → (r.read len).1 = r) ∧
  ∀ (r : BufferReader) (len : Nat), r.peek len = none → r.step (.peek len) = r

theorem refusalsKeep (platform : Platform) : RefusalsKeep platform := by
  refine ⟨fun w src h => ?_, fun w sizeofT count h => ?_, fun r len h => ?_, fun _ _ _ => rfl⟩
  · unfold BufferWriter.write at h ⊢
    split
    · rfl
    · rw [if_neg ‹_›] at h
      cases h
  · unfold BufferWriter.reserve at h ⊢
    dsimp only at h ⊢
    split
    · rfl
    · rw [if_neg ‹_›] at h
      cases h
  · unfold BufferReader.read at h ⊢
    cases hpeek : r.peek len with
    | none => rfl
    | some bytes =>
      rw [hpeek] at h
      cases h

/-- **The round trip**: whatever calls have written the fields that fit, and however the reserved ones were filled, a
reader over the same bytes reads the values finally stored, each by `Read` or `operator>>` and after any number of
`Peek`s that show it, and its `ReadSize` is the `WriteSize` of that field's call.  A `Write` or `Reserve` that fits is
not refused, and what is refused changes nothing. -/
theorem buffer_round_trip (hw : w₀.pos.toNat ≤ w₀.size.toNat) (h : Reach (writerStep platform) Any ⟨w₀, []⟩ s)
    (hows : List ReadBy) :
    (⟨s.writer.buffer, s.writer.size, w₀.pos⟩ : BufferReader).readFields
        (List.zipWith (fun f how => (f.value.length, how)) s.fields hows) =
      List.zipWith (fun f how => (List.replicate (how.peeks + 1) (some f.value), f.writeSize)) s.fields hows ∧
    Accepts platform s.writer ∧ RefusalsKeep platform := by
  have hI := writerInv_of_reach hw h
  exact ⟨readFields_eq hows hI.laid hI.inside, accepts_of_le platform hI.inside, refusalsKeep platform⟩

/-- Two bytes are reserved, three are written, a `Write` of four more is refused, and the reserved ones are filled. -/
def header : List WriterAct :=
  [.call (.reserve 2 1), .call (.write [1, 2]), .call (.put [3]), .call (.write [0, 0, 0, 0]), .fill 0 1 [8], .fill 0 0 [7]]

theorem buffer_round_trip_header : ∃ s,
    run (writerStep .x64) Any ⟨⟨fun _ => 0, 8, 0⟩, []⟩ header = some s ∧
    (⟨s.writer.buffer, s.writer.size, 0⟩ : BufferReader).readFields
        (List.zipWith (fun f how => (f.value.length, how)) s.fields [⟨true, 0⟩, ⟨false, 2⟩, ⟨true, 1⟩]) =
      [([some [7, 8]], 2), ([some [1, 2], some [1, 2], some [1, 2]], 4), ([some [3], some [3]], 5)] := by
  obtain ⟨s, hrun, hr⟩ := reach_of_run (writerStep .x64) Any ⟨⟨fun _ => 0, 8, 0⟩, []⟩ header (by decide)
  have hfields : (run (writerStep .x64) Any ⟨⟨fun _ => 0, 8, 0⟩, []⟩ header).map WriterRun.fields =
      some [⟨0, [7, 8], true, 2⟩, ⟨2, [1, 2], false, 4⟩, ⟨4, [3], false, 5⟩] := by decide
  rw [hrun, Option.map_some, Option.some.injEq] at hfields
  refine ⟨s, hrun, (buffer_round_trip (by decide) hr [⟨true, 0⟩, ⟨false, 2⟩, ⟨true, 1⟩]).1.trans ?_⟩
  rw [hfields]
  rfl

end Geon
