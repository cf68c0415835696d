import GeonServer.DBConnection
/-!
# DBBind — a query and its bindings

`DBBind` of ServerCore/DBBind.h over the binding functions of ServerCore/DBConnection.cpp.  Each call that comes back
sets the bit of its index in a 64 bit flag, and `Validate` compares the two flags with `FullBits`, which is computed in
the 32 bits of an `int` and sign-extended by the comparison.  So `Validate` means what it should up to 31 parameters and
columns (`validates_exactly_iff`).

What a binding call returns is thrown away, but a call that the driver refuses does not come back (`HandleError`), and no
bit is set for it (`validate_accepted`).
-/
namespace Geon

open DBConnection

/-! ## The binding functions of `DBConnection` -/

/-- A pointer to an object outside a string, by its type. -/
inductive Scalar
  | bool
  | float
  | double
  | int8
  | int16
  | int32
  | int64
  | TIMESTAMP_STRUCT
  deriving DecidableEq, Repr

def Scalar.size : Scalar → Int
  | .bool | .int8 => 1
  | .int16 => 2
  | .float | .int32 => 4
  | .double | .int64 => 8
  | .TIMESTAMP_STRUCT => 16

/-- What `SQLBindParameter` and `SQLBindCol` are told of a binding; the columns have no `sqlType`. -/
structure SqlBinding where
  cType : Int
  sqlType : Int
  len : Int
  deriving DecidableEq, Repr

def WVARCHAR_MAX : Int := 4000
def BINARY_MAX : Int := 8000
def SQL_BINARY : Int := -2
def SQL_LONGVARBINARY : Int := -4
def SQL_BIGINT : Int := -5
def SQL_TINYINT : Int := -6
def SQL_WCHAR : Int := -8
def SQL_WVARCHAR : Int := -9
def SQL_WLONGVARCHAR : Int := -10
def SQL_INTEGER : Int := 4
def SQL_SMALLINT : Int := 5
def SQL_REAL : Int := 7
def SQL_DOUBLE : Int := 8
def SQL_TYPE_TIMESTAMP : Int := 93
def SQL_C_SBIGINT : Int := -25

/-- `SQL_C_TINYINT` and so on: all but `SQL_C_SBIGINT` have the number of the SQL type. -/
def Scalar.cType : Scalar → Int
  | .bool | .int8 => SQL_TINYINT
  | .float => SQL_REAL
  | .double => SQL_DOUBLE
  | .int16 => SQL_SMALLINT
  | .int32 => SQL_INTEGER
  | .int64 => SQL_C_SBIGINT
  | .TIMESTAMP_STRUCT => SQL_TYPE_TIMESTAMP

def Scalar.sqlType : Scalar → Int
  | .bool | .int8 => SQL_TINYINT
  | .float => SQL_REAL
  | .double => SQL_DOUBLE
  | .int16 => SQL_SMALLINT
  | .int32 => SQL_INTEGER
  | .int64 => SQL_BIGINT
  | .TIMESTAMP_STRUCT => SQL_TYPE_TIMESTAMP

namespace DBConnection

/-- `BindParam` of a `bool*`, `float*` and so on. -/
def bindParamScalar (T : Scalar) : SqlBinding :=
  ⟨T.cType, T.sqlType, match T with
    | .float | .double => 0
    | T => T.size⟩

/-- `BindParam` of a string of `wcslen` characters. -/
def bindParamString (wcslen : Nat) : SqlBinding :=
  let size : Int := (wcslen + 1) * 2
  ⟨SQL_WCHAR, if size > WVARCHAR_MAX then SQL_WLONGVARCHAR else SQL_WVARCHAR, size⟩

/-- `BindParam` of a `BYTE*`, which may be null. -/
def bindParamBinary (null : Bool) (size : Int) : SqlBinding :=
  let size := if null = true then 1 else size
  ⟨SQL_BINARY, if size > BINARY_MAX then SQL_LONGVARBINARY else SQL_BINARY, size⟩

/-- `BindCol` of a `bool*`, `float*` and so on. -/
def bindColScalar (T : Scalar) : SqlBinding := ⟨T.cType, 0, T.size⟩

/-- `BindCol` of a `WCHAR*`. -/
def bindColString (size : Int) : SqlBinding := ⟨SQL_WCHAR, 0, size⟩

/-- `BindCol` of a `BYTE*`. -/
def bindColBinary (size : Int) : SqlBinding := ⟨SQL_BINARY, 0, size⟩

end DBConnection

/-! ## `FullBits` -/

/-- `1 << n` in an `int`; there is none from 32 on, where the shift is undefined and no constant expression. -/
def shl (n : Nat) : Option (BitVec 32) := if n < 32 then some (1#32 <<< n) else none

/-- `FullBits<C>::value`, `none` where the template has no value. -/
def FullBits : Nat → Option (BitVec 32)
  | 0 => some 0
  | 1 => some 1
  | C + 2 => (shl (C + 1)).bind (fun bit => (FullBits (C + 1)).map (fun rest => bit ||| rest))

/-! ## `DBBind` -/

/-- What `BindParam` is called with; the other two are the byte arrays, by reference and by pointer. -/
inductive ParamArg
  | value (T : Scalar)
  | string (wcslen : Nat)
  | array (sizeofT N : Nat)
  | pointer (null : Bool) (sizeofT : Nat) (N : Int)
  deriving DecidableEq, Repr

/-- What `BindCol` is called with. -/
inductive ColArg
  | value (T : Scalar)
  | wcharArray (N : Nat)
  | wcharPointer (len : Int)
  | array (sizeofT N : Nat)
  deriving DecidableEq, Repr

/-- The function of `DBConnection` that `BindParam` calls. -/
def ParamArg.binding : ParamArg → SqlBinding
  | .value T => bindParamScalar T
  | .string wcslen => bindParamString wcslen
  | .array sizeofT N => bindParamBinary false (sizeofT * N)
  | .pointer null sizeofT N => bindParamBinary null (sizeofT * N)

/-- The function of `DBConnection` that `BindCol` calls. -/
def ColArg.binding : ColArg → SqlBinding
  | .value T => bindColScalar T
  | .wcharArray N => bindColString (N - 1)
  | .wcharPointer len => bindColString (len - 1)
  | .array sizeofT N => bindColBinary (sizeofT * N)

/-- What the driver answers to a binding call, and to `SQLGetDiagRecW` after it. -/
structure BindAnswer where
  ret : SQLRETURN
  getDiagRec : Int → SQLRETURN × Option String

/-- A call of `BindParam` or of `BindCol`. -/
inductive BindCall
  | param (idx : Int) (value : ParamArg) (answer : BindAnswer)
  | col (idx : Int) (value : ColArg) (answer : BindAnswer)

/-- A call of `SQLBindParameter` or of `SQLBindCol`, with its answer. -/
structure Bound where
  isParam : Bool
  index : BitVec 16
  binding : SqlBinding
  ret : SQLRETURN
  deriving DecidableEq, Repr

/-- The flags of a `DBBind<ParamCount, ColumnCount>`, and the driver's calls so far. -/
structure DBBind (ParamCount ColumnCount : Nat) where
  paramFlag : BitVec 64
  columnFlag : BitVec 64
  bound : List Bound

namespace DBBind

variable {ParamCount ColumnCount : Nat}

def new : DBBind ParamCount ColumnCount := ⟨0, 0, []⟩

/-- `_paramIndex[idx]` is an element of its array, which has one element for no parameters, and `1LL << idx` is
defined. -/
def Indexes (count : Nat) (idx : Int) : Prop := 0 ≤ idx ∧ idx < max count 1 ∧ idx < 64

instance (count : Nat) (idx : Int) : Decidable (Indexes count idx) := inferInstanceAs (Decidable (_ ∧ _ ∧ _))

/-- One call; `none` when it does not come back, the fuel being that of the loop of `HandleError`, and when it is
undefined. -/
def bind (fuel : Nat) (d : DBBind ParamCount ColumnCount) : BindCall → Option (DBBind ParamCount ColumnCount)
  | .param idx value answer =>
    if Indexes ParamCount idx then
      -- the result is not looked at
      (bindParam answer.getDiagRec fuel answer.ret).map (fun _ => { d with
        paramFlag := d.paramFlag ||| (1#64 <<< idx.toNat)
        bound := d.bound ++ [⟨true, BitVec.ofInt 16 (idx + 1), value.binding, answer.ret⟩] })
    else none
  | .col idx value answer =>
    if Indexes ColumnCount idx then
      (bindCol answer.getDiagRec fuel answer.ret).map (fun _ => { d with
        columnFlag := d.columnFlag ||| (1#64 <<< idx.toNat)
        bound := d.bound ++ [⟨false, BitVec.ofInt 16 (idx + 1), value.binding, answer.ret⟩] })
    else none

/-- `Validate`, `none` where it does not compile. -/
def validate (d : DBBind ParamCount ColumnCount) : Option Bool :=
  (FullBits ParamCount).bind (fun params => (FullBits ColumnCount).map (fun columns =>
    d.paramFlag == params.signExtend 64 && d.columnFlag == columns.signExtend 64))

/-- `Execute`: `ASSERT_CRASH` ends the process, or the query is sent and answered. -/
def execute (fuel : Nat) (d : DBBind ParamCount ColumnCount) (answer : BindAnswer) :
    Option (Except String (Option (Bool × List String))) :=
  d.validate.map (fun valid =>
    if valid = true then .ok (DBConnection.execute answer.getDiagRec fuel answer.ret) else .error "ASSERT_CRASH")

end DBBind

/-! ## The bits of the masks -/

theorem shl_bits {n : Nat} (h : n < 32) : ∃ bit, shl n = some bit ∧ ∀ i, i < 32 → bit.getLsbD i = decide (i = n) := by
  refine ⟨_, if_pos h, fun i hi => ?_⟩
  rw [BitVec.getLsbD_shiftLeft, BitVec.getLsbD_one, Bool.eq_iff_iff]
  simp only [Bool.and_eq_true, Bool.not_eq_true', decide_eq_true_eq, decide_eq_false_iff_not]
  omega

theorem fullBits_bits : ∀ {C : Nat}, C ≤ 32 →
    ∃ mask, FullBits C = some mask ∧ ∀ i, i < 32 → mask.getLsbD i = decide (i < C)
  | 0, _ => ⟨0, rfl, fun i _ => by simp⟩
  | 1, _ => ⟨1, rfl, fun i _ => by simp [BitVec.getLsbD_one]⟩
  | C + 2, h => by
    obtain ⟨bit, hbit, hbits⟩ := shl_bits (n := C + 1) (by omega)
    obtain ⟨rest, hrest, hrests⟩ := fullBits_bits (C := C + 1) (by omega)
    refine ⟨bit ||| rest, ?_, fun i hi => ?_⟩
    · rw [FullBits, hbit, Option.bind_some, hrest, Option.map_some]
    · rw [BitVec.getLsbD_or, hbits i hi, hrests i hi, Bool.eq_iff_iff]
      simp only [Bool.or_eq_true, decide_eq_true_eq]
      omega

theorem fullBits_none : ∀ {C : Nat}, 32 < C → FullBits C = none
  | C + 2, h => by
    by_cases hC : C + 1 < 32
    · omega
    · rw [FullBits, shl, if_neg hC, Option.bind_none]

/-- What the comparison of a flag with its mask says. -/
theorem flag_eq_iff {C : Nat} {mask : BitVec 32} {flag : BitVec 64} (hC : C ≤ 32) (hmask : FullBits C = some mask) :
    flag = mask.signExtend 64 ↔ ∀ i, i < 64 → flag.getLsbD i = decide (i < C ∨ C = 32) := by
  obtain ⟨mask', hmask', hbits⟩ := fullBits_bits hC
  obtain rfl : mask = mask' := Option.some.inj (hmask.symm.trans hmask')
  have hsign : ∀ i, i < 64 → (mask.signExtend 64).getLsbD i = decide (i < C ∨ C = 32) := by
    intro i hi
    rw [BitVec.getLsbD_signExtend, decide_eq_true hi, Bool.true_and, BitVec.msb_eq_getLsbD_last, hbits 31 (by decide)]
    by_cases hi32 : i < 32
    · rw [if_pos hi32, hbits i hi32, Bool.eq_iff_iff]
      simp only [decide_eq_true_eq]
      omega
    · rw [if_neg hi32, Bool.eq_iff_iff]
      simp only [decide_eq_true_eq]
      omega
  constructor
  · rintro rfl i hi
    exact hsign i hi
  · intro h
    exact BitVec.eq_of_getLsbD_eq (fun i hi => (h i hi).trans (hsign i hi).symm)

/-! ## The bits of the flags -/

namespace BindCall

/-- The index of a call of `BindParam`, or of `BindCol`. -/
def index? (isParam : Bool) : BindCall → Option Int
  | .param idx _ _ => if isParam = true then some idx else none
  | .col idx _ _ => if isParam = true then none else some idx

def answer : BindCall → BindAnswer
  | .param _ _ answer | .col _ _ answer => answer

end BindCall

/-- Some call binds parameter or column `i`. -/
def Binds (isParam : Bool) (calls : List BindCall) (i : Nat) : Prop := ∃ call ∈ calls, call.index? isParam = some (i : Int)

namespace DBBind

variable {ParamCount ColumnCount : Nat} {d d' : DBBind ParamCount ColumnCount} {fuel : Nat} {call : BindCall}

def flag (isParam : Bool) (d : DBBind ParamCount ColumnCount) : BitVec 64 :=
  if isParam = true then d.paramFlag else d.columnFlag

theorem getLsbD_setBit (f : BitVec 64) {idx : Int} (h : 0 ≤ idx) {i : Nat} (hi : i < 64) :
    (f ||| (1#64 <<< idx.toNat)).getLsbD i = true ↔ f.getLsbD i = true ∨ idx = (i : Int) := by
  obtain ⟨n, rfl⟩ := Int.eq_ofNat_of_zero_le h
  rw [BitVec.getLsbD_or, BitVec.getLsbD_shiftLeft, BitVec.getLsbD_one, Int.toNat_natCast, Int.natCast_inj,
    Bool.or_eq_true]
  simp only [Bool.and_eq_true, Bool.not_eq_true', decide_eq_true_eq, decide_eq_false_iff_not]
  refine or_congr_right ?_
  omega

theorem succeeded_of_checked {getDiagRec : Int → SQLRETURN × Option String} {ret : SQLRETURN} {r : Bool × List String}
    (h : checked getDiagRec fuel ret = some r) : Succeeded ret := by
  by_contra hret
  rw [checked_none hret] at h
  cases h

/-- **A call that comes back** has been accepted by the driver, sets its bit and is recorded. -/
theorem bind_eq (h : bind fuel d call = some d') : Succeeded call.answer.ret ∧
    (∀ isParam i, i < 64 → ((d'.flag isParam).getLsbD i = true ↔
      (d.flag isParam).getLsbD i = true ∨ call.index? isParam = some (i : Int))) ∧
    ∃ isParam idx binding, call.index? isParam = some idx ∧ call.index? (!isParam) = none ∧
      d'.bound = d.bound ++ [⟨isParam, BitVec.ofInt 16 (idx + 1), binding, call.answer.ret⟩] := by
  cases call with
  | param idx value answer =>
    obtain ⟨hin, h⟩ := Option.ite_none_right_eq_some.1 h
    obtain ⟨r, hr, rfl⟩ := Option.map_eq_some_iff.1 h
    refine ⟨succeeded_of_checked hr, fun isParam i hi => ?_, true, idx, _, rfl, rfl, rfl⟩
    cases isParam with
    | true => simpa [flag, BindCall.index?] using getLsbD_setBit d.paramFlag hin.1 hi
    | false => simp [flag, BindCall.index?]
  | col idx value answer =>
    obtain ⟨hin, h⟩ := Option.ite_none_right_eq_some.1 h
    obtain ⟨r, hr, rfl⟩ := Option.map_eq_some_iff.1 h
    refine ⟨succeeded_of_checked hr, fun isParam i hi => ?_, false, idx, _, rfl, rfl, rfl⟩
    cases isParam with
    | true => simp [flag, BindCall.index?]
    | false => simpa [flag, BindCall.index?] using getLsbD_setBit d.columnFlag hin.1 hi

/-- **The bits that are set** are those of the calls. -/
theorem flag_bits (isParam : Bool) {i : Nat} (hi : i < 64) : ∀ (calls : List BindCall)
    {d d' : DBBind ParamCount ColumnCount}, calls.foldlM (bind fuel) d = some d' →
    ((d'.flag isParam).getLsbD i = true ↔ (d.flag isParam).getLsbD i = true ∨ Binds isParam calls i)
  | [], d, d', h => by
    cases h
    simp [Binds]
  | call :: calls, d, d', h => by
    rw [List.foldlM_cons] at h
    obtain ⟨d₁, h₁, h⟩ := Option.bind_eq_some_iff.1 h
    rw [flag_bits isParam hi calls h, (bind_eq h₁).2.1 isParam i hi, or_assoc]
    simp [Binds]

theorem flag_new (isParam : Bool) (i : Nat) :
    ((new : DBBind ParamCount ColumnCount).flag isParam).getLsbD i = false := by
  cases isParam <;> simp [flag, new]

theorem validate_eq_true : d.validate = some true ↔ ParamCount ≤ 32 ∧ ColumnCount ≤ 32 ∧
    (∀ i, i < 64 → d.paramFlag.getLsbD i = decide (i < ParamCount ∨ ParamCount = 32)) ∧
    ∀ i, i < 64 → d.columnFlag.getLsbD i = decide (i < ColumnCount ∨ ColumnCount = 32) := by
  unfold validate
  rcases Nat.lt_or_ge 32 ParamCount with hp | hp
  · rw [fullBits_none hp, Option.bind_none]
    exact iff_of_false (by simp) (fun h => absurd h.1 (by omega))
  · rcases Nat.lt_or_ge 32 ColumnCount with hc | hc
    · simp only [fullBits_none hc, Option.map_none, Option.bind_fun_none]
      exact iff_of_false (by simp) (fun h => absurd h.2.1 (by omega))
    · obtain ⟨params, hparams, -⟩ := fullBits_bits hp
      obtain ⟨columns, hcolumns, -⟩ := fullBits_bits hc
      rw [hparams, hcolumns, Option.bind_some, Option.map_some, Option.some.injEq, Bool.and_eq_true, beq_iff_eq,
        beq_iff_eq, flag_eq_iff hp hparams, flag_eq_iff hc hcolumns, and_iff_right hp, and_iff_right hc]

/-! ## `Validate` -/

/-- The calls are for parameters and columns of the query. -/
def InRange (ParamCount ColumnCount : Nat) (calls : List BindCall) : Prop :=
  (∀ i, Binds true calls i → i < ParamCount) ∧ ∀ i, Binds false calls i → i < ColumnCount

/-- After calls that come back `Validate` says whether everything has been bound. -/
def ValidatesExactly (ParamCount ColumnCount : Nat) : Prop :=
  ∀ (fuel : Nat) (calls : List BindCall) (d : DBBind ParamCount ColumnCount), InRange ParamCount ColumnCount calls →
    calls.foldlM (bind fuel) new = some d →
    (d.validate = some true ↔
      (∀ i, i < ParamCount → Binds true calls i) ∧ ∀ i, i < ColumnCount → Binds false calls i)

/-- A flag against a mask of at most 31 bits. -/
theorem bits_eq_iff {flag : BitVec 64} {binds : Nat → Prop} {C : Nat} (hC : C ≤ 31)
    (hbits : ∀ i, i < 64 → (flag.getLsbD i = true ↔ binds i)) (hin : ∀ i, binds i → i < C) :
    (∀ i, i < 64 → flag.getLsbD i = decide (i < C ∨ C = 32)) ↔ ∀ i, i < C → binds i := by
  constructor
  · intro h i hi
    refine (hbits i (by omega)).1 ?_
    rw [h i (by omega)]
    exact decide_eq_true (.inl hi)
  · intro h i hi
    rw [Bool.eq_iff_iff, hbits i hi, decide_eq_true_eq]
    constructor
    · exact fun hb => .inl (hin i hb)
    · intro hor
      exact h i (by omega)

theorem validatesExactly_of_le (hp : ParamCount ≤ 31) (hc : ColumnCount ≤ 31) :
    ValidatesExactly ParamCount ColumnCount := by
  intro fuel calls d hin hrun
  have hbits : ∀ isParam i, i < 64 → ((d.flag isParam).getLsbD i = true ↔ Binds isParam calls i) := by
    intro isParam i hi
    rw [flag_bits isParam hi calls hrun, flag_new]
    simp
  have hparams : ∀ i, i < 64 → (d.paramFlag.getLsbD i = true ↔ Binds true calls i) := hbits true
  have hcolumns : ∀ i, i < 64 → (d.columnFlag.getLsbD i = true ↔ Binds false calls i) := hbits false
  rw [validate_eq_true, bits_eq_iff hp hparams hin.1, bits_eq_iff hc hcolumns hin.2]
  exact ⟨fun h => h.2.2, fun h => ⟨by omega, by omega, h⟩⟩

/-! ## From 32 parameters or columns on -/

def accepted : BindAnswer := ⟨SQL_SUCCESS, fun _ => (SQL_NO_DATA, none)⟩

/-- Everything is bound once, and the driver accepts it all. -/
def bindAll (ParamCount ColumnCount : Nat) : List BindCall :=
  (List.range ParamCount).map (fun i => .param (i : Int) (.value .int32) accepted) ++
    (List.range ColumnCount).map (fun i => .col (i : Int) (.value .int32) accepted)

theorem binds_append {isParam : Bool} {calls calls' : List BindCall} {i : Nat} :
    Binds isParam (calls ++ calls') i ↔ Binds isParam calls i ∨ Binds isParam calls' i := by
  simp only [Binds, List.mem_append, or_and_right, exists_or]

/-- One call for each index below `n`. -/
theorem binds_range {isParam : Bool} {f : Nat → BindCall} (hf : ∀ j, (f j).index? isParam = some (j : Int)) (n i : Nat) :
    Binds isParam ((List.range n).map f) i ↔ i < n := by
  constructor
  · rintro ⟨call, hcall, hindex⟩
    obtain ⟨j, hj, rfl⟩ := List.mem_map.1 hcall
    have hji : (j : Int) = (i : Int) := Option.some.inj ((hf j).symm.trans hindex)
    exact Int.ofNat.inj hji ▸ List.mem_range.1 hj
  · intro hi
    exact ⟨f i, List.mem_map.2 ⟨i, List.mem_range.2 hi, rfl⟩, hf i⟩

theorem not_binds_map {isParam : Bool} {f : Nat → BindCall} (hf : ∀ j, (f j).index? isParam = none) (js : List Nat)
    (i : Nat) : ¬Binds isParam (js.map f) i := by
  rintro ⟨call, hcall, hindex⟩
  obtain ⟨j, -, rfl⟩ := List.mem_map.1 hcall
  rw [hf j] at hindex
  cases hindex

theorem binds_bindAll (isParam : Bool) (i : Nat) : Binds isParam (bindAll ParamCount ColumnCount) i ↔
    i < if isParam = true then ParamCount else ColumnCount := by
  rw [bindAll, binds_append]
  cases isParam with
  | true => rw [binds_range (fun _ => rfl), or_iff_left (not_binds_map (fun _ => rfl) _ _), if_pos rfl]
  | false =>
    rw [or_iff_right (not_binds_map (fun _ => rfl) _ _), binds_range (fun _ => rfl), if_neg Bool.false_ne_true]

theorem bindAll_returns : ∀ (calls : List BindCall) (d : DBBind ParamCount ColumnCount),
    (∀ call ∈ calls, ∀ d : DBBind ParamCount ColumnCount, ∃ d', bind fuel d call = some d') →
    ∃ d', calls.foldlM (bind fuel) d = some d'
  | [], d, _ => ⟨d, rfl⟩
  | call :: calls, d, h => by
    obtain ⟨d₁, h₁⟩ := h call List.mem_cons_self d
    obtain ⟨d', h'⟩ := bindAll_returns calls d₁ (fun call' hcall' => h call' (List.mem_cons_of_mem call hcall'))
    refine ⟨d', ?_⟩
    rw [List.foldlM_cons, h₁]
    exact h'

theorem bindAll_run (hp : ParamCount ≤ 64) (hc : ColumnCount ≤ 64) :
    ∃ d : DBBind ParamCount ColumnCount, (bindAll ParamCount ColumnCount).foldlM (bind fuel) new = some d := by
  refine bindAll_returns _ _ (fun call hcall d => ?_)
  rcases List.mem_append.1 hcall with hcall | hcall
  · obtain ⟨i, hi, rfl⟩ := List.mem_map.1 hcall
    have hlt := List.mem_range.1 hi
    exact ⟨_, if_pos ⟨by omega, by omega, by omega⟩⟩
  · obtain ⟨i, hi, rfl⟩ := List.mem_map.1 hcall
    have hlt := List.mem_range.1 hi
    exact ⟨_, if_pos ⟨by omega, by omega, by omega⟩⟩

/-- **When `Validate` is exact**: for counts of up to 64, if and only if both are at most 31. -/
theorem validates_exactly_iff (hp : ParamCount ≤ 64) (hc : ColumnCount ≤ 64) :
    ValidatesExactly ParamCount ColumnCount ↔ ParamCount ≤ 31 ∧ ColumnCount ≤ 31 := by
  refine ⟨fun h => ?_, fun h => validatesExactly_of_le h.1 h.2⟩
  obtain ⟨d, hd⟩ : ∃ d : DBBind ParamCount ColumnCount, (bindAll ParamCount ColumnCount).foldlM (bind 0) new = some d :=
    bindAll_run hp hc
  have hin : InRange ParamCount ColumnCount (bindAll ParamCount ColumnCount) :=
    ⟨fun i hi => (binds_bindAll true i).1 hi, fun i hi => (binds_bindAll false i).1 hi⟩
  have hvalid := (h 0 _ d hin hd).2
    ⟨fun i hi => (binds_bindAll true i).2 hi, fun i hi => (binds_bindAll false i).2 hi⟩
  obtain ⟨hp32, hc32, hparams, hcolumns⟩ := validate_eq_true.1 hvalid
  -- a mask of 32 bits has become one of 64, and bit 63 is nobody's
  have hno : ∀ isParam, (d.flag isParam).getLsbD 63 ≠ true := by
    intro isParam hbit
    rw [flag_bits isParam (by decide) _ hd, flag_new, binds_bindAll] at hbit
    cases isParam <;> simp at hbit <;> omega
  constructor
  · by_contra hlt
    exact hno true ((hparams 63 (by decide)).trans (decide_eq_true (.inr (by omega))))
  · by_contra hlt
    exact hno false ((hcolumns 63 (by decide)).trans (decide_eq_true (.inr (by omega))))

/-- The query of the server with three parameters. -/
theorem validates_exactly_iff_three : ValidatesExactly 3 0 :=
  (validates_exactly_iff (by decide) (by decide)).2 (by decide)

/-- **With 32 parameters `Validate` is false** when all of them are bound. -/
theorem thirty_two_params : ∃ d : DBBind 32 0, (bindAll 32 0).foldlM (bind 0) new = some d ∧
    d.validate = some false ∧ ∀ i, i < 32 → Binds true (bindAll 32 0) i :=
  ⟨_, rfl, by decide, fun i hi => (binds_bindAll true i).2 hi⟩

/-! ## What the driver has accepted -/

/-- What the driver answered to the last binding of a parameter or column. -/
def lastAnswer (bound : List Bound) (isParam : Bool) (index : BitVec 16) : Option SQLRETURN :=
  ((bound.filter (fun b => b.isParam == isParam && b.index == index)).getLast?).map Bound.ret

/-- Every parameter and every column has a binding, and the driver accepted its last one. -/
def AllAccepted (d : DBBind ParamCount ColumnCount) : Prop :=
  (∀ i, i < ParamCount → ∃ ret, lastAnswer d.bound true (BitVec.ofNat 16 (i + 1)) = some ret ∧ Succeeded ret) ∧
    ∀ i, i < ColumnCount → ∃ ret, lastAnswer d.bound false (BitVec.ofNat 16 (i + 1)) = some ret ∧ Succeeded ret

/-- Bits are set for what is recorded, and only accepted bindings are. -/
structure Recorded (d : DBBind ParamCount ColumnCount) : Prop where
  succeeded : ∀ b ∈ d.bound, Succeeded b.ret
  recorded : ∀ isParam i, i < 64 → (d.flag isParam).getLsbD i = true →
    ∃ b ∈ d.bound, b.isParam = isParam ∧ b.index = BitVec.ofNat 16 (i + 1)

theorem recorded_new : Recorded (new : DBBind ParamCount ColumnCount) :=
  ⟨(fun b hb => by cases hb), fun isParam i _ h => absurd h (by rw [flag_new]; exact Bool.false_ne_true)⟩

/-- **The step lemma.** -/
theorem Recorded.bind (hR : Recorded d) (h : bind fuel d call = some d') : Recorded d' := by
  obtain ⟨hret, hbits, isParam, idx, binding, hidx, hother, hbound⟩ := bind_eq h
  refine ⟨fun b hb => ?_, fun k i hi hbit => ?_⟩
  · rw [hbound] at hb
    rcases List.mem_append.1 hb with hb | hb
    · exact hR.succeeded b hb
    · rw [List.mem_singleton.1 hb]
      exact hret
  · rw [hbound]
    rcases (hbits k i hi).1 hbit with hold | hnew
    · obtain ⟨b, hb, hkind⟩ := hR.recorded k i hi hold
      exact ⟨b, List.mem_append.2 (.inl hb), hkind⟩
    · have hk : k = isParam := by
        by_contra hne
        rw [Bool.eq_not_of_ne hne, hother] at hnew
        cases hnew
      rw [hk, hidx, Option.some.injEq] at hnew
      refine ⟨_, List.mem_append.2 (.inr (List.mem_singleton_self _)), hk.symm, ?_⟩
      rw [hnew]
      exact BitVec.ofInt_natCast 16 (i + 1)

theorem recorded_run : ∀ (calls : List BindCall) {d d' : DBBind ParamCount ColumnCount}, Recorded d →
    calls.foldlM (DBBind.bind fuel) d = some d' → Recorded d'
  | [], _, _, hR, h => by
    cases h
    exact hR
  | call :: calls, d, d', hR, h => by
    rw [List.foldlM_cons] at h
    obtain ⟨d₁, h₁, h⟩ := Option.bind_eq_some_iff.1 h
    exact recorded_run calls (hR.bind h₁) h

theorem Recorded.lastAnswer (hR : Recorded d) {isParam : Bool} {i : Nat} (hi : i < 64)
    (hbit : (d.flag isParam).getLsbD i = true) :
    ∃ ret, lastAnswer d.bound isParam (BitVec.ofNat 16 (i + 1)) = some ret ∧ Succeeded ret := by
  obtain ⟨b, hb, hkind, hindex⟩ := hR.recorded isParam i hi hbit
  have hmem : b ∈ d.bound.filter (fun b => b.isParam == isParam && b.index == BitVec.ofNat 16 (i + 1)) :=
    List.mem_filter.2 ⟨hb, by simp [hkind, hindex]⟩
  have hlast := List.getLast?_eq_some_getLast (List.ne_nil_of_mem hmem)
  have hin := List.mem_of_getLast? hlast
  refine ⟨_, ?_, hR.succeeded _ (List.mem_filter.1 hin).1⟩
  rw [DBBind.lastAnswer, hlast, Option.map_some]

/-- **A query is sent only with bindings that the driver has accepted**: `Validate` is true, and `Execute` sends the
query, only if the last binding of every parameter and column was. -/
theorem validate_accepted {calls : List BindCall} (h : calls.foldlM (DBBind.bind fuel) new = some d) :
    (d.validate = some true → AllAccepted d) ∧
    ∀ answer result, d.execute fuel answer = some (.ok result) → AllAccepted d := by
  have hR := recorded_run calls recorded_new h
  have hvalid : d.validate = some true → AllAccepted d := by
    intro hvalidate
    obtain ⟨hp, hc, hparams, hcolumns⟩ := validate_eq_true.1 hvalidate
    refine ⟨fun i hi => hR.lastAnswer (by omega) ?_, fun i hi => hR.lastAnswer (by omega) ?_⟩
    · exact (hparams i (by omega)).trans (decide_eq_true (.inl hi))
    · exact (hcolumns i (by omega)).trans (decide_eq_true (.inl hi))
  refine ⟨hvalid, fun answer result hsent => ?_⟩
  obtain ⟨valid, hvalidate, hresult⟩ := Option.map_eq_some_iff.1 hsent
  cases valid with
  | true => exact hvalid hvalidate
  | false => cases hresult

def boundTwice : List BindCall :=
  [.param 0 (.value .int32) accepted, .param 0 (.string 3) ⟨SQL_SUCCESS_WITH_INFO, accepted.getDiagRec⟩]

theorem validate_accepted_twice : ∃ d : DBBind 1 0,
    boundTwice.foldlM (DBBind.bind 0) new = some d ∧ d.validate = some true ∧ AllAccepted d :=
  ⟨_, rfl, by decide, (@validate_accepted 1 0 _ 0 boundTwice rfl).1 (by decide)⟩

end DBBind

end Geon
