import Mathlib.Tactic.Common
/-!
# DBConnection — the error path of the database calls

`DBConnection` of ServerCore/DBConnection.cpp: a call that fails goes to `HandleError`, which is to print the diagnostic
records of the statement one by one.  What `SQLGetDiagRecW` answers is not stored anywhere: the `errorRet` that the loop
looks at is still `SQL_SUCCESS` after it, so the loop has no end (`handleError_none`).

The driver is code outside the repository: it answers with an `SQLRETURN`, and with diagnostic records (`DiagRecs`).
-/
namespace Geon
namespace DBConnection

abbrev SQLRETURN : Type := Int

def SQL_SUCCESS : SQLRETURN := 0
def SQL_SUCCESS_WITH_INFO : SQLRETURN := 1
def SQL_NO_DATA : SQLRETURN := 100
def SQL_ERROR : SQLRETURN := -1

def Succeeded (ret : SQLRETURN) : Prop := ret = SQL_SUCCESS ∨ ret = SQL_SUCCESS_WITH_INFO

instance (ret : SQLRETURN) : Decidable (Succeeded ret) := inferInstanceAs (Decidable (_ ∨ _))

/-- A driver with these diagnostic records on the statement: what `SQLGetDiagRecW` returns for a record number, and what
it stores in `errMsg` if it does. -/
structure DiagRecs (records : List String) where
  getDiagRec : Int → SQLRETURN × Option String
  found : ∀ (i : Nat) (errMsg : String), records[i]? = some errMsg →
    Succeeded (getDiagRec (i + 1)).1 ∧ (getDiagRec (i + 1)).2 = some errMsg
  behind : ∀ i : Nat, records.length ≤ i → getDiagRec (i + 1) = (SQL_NO_DATA, none)

/-! ## The code -/

/-- The loop of `HandleError`: the lines it prints, `none` when the fuel runs out. -/
def handleErrorLoop (getDiagRec : Int → SQLRETURN × Option String) :
    Nat → BitVec 16 → String → SQLRETURN → Option (List String)
  | 0, _, _, _ => none
  | fuel + 1, index, errMsg, errorRet =>
    -- the result of the call is dropped
    let errMsg := (getDiagRec index.toInt).2.getD errMsg
    if errorRet = SQL_NO_DATA then some []
    else if errorRet ≠ SQL_SUCCESS ∧ errorRet ≠ SQL_SUCCESS_WITH_INFO then some []
    else (handleErrorLoop getDiagRec fuel (index + 1) errMsg errorRet).map (fun lines => errMsg :: lines)

def handleError (getDiagRec : Int → SQLRETURN × Option String) (fuel : Nat) (ret : SQLRETURN) : Option (List String) :=
  if ret = SQL_SUCCESS then some []
  else handleErrorLoop getDiagRec fuel 1 "" 0

/-- What is left of a call that the driver has answered: `true` if it succeeded, and `false` after `HandleError`. -/
def checked (getDiagRec : Int → SQLRETURN × Option String) (fuel : Nat) (ret : SQLRETURN) : Option (Bool × List String) :=
  if Succeeded ret then some (true, [])
  else (handleError getDiagRec fuel ret).map (fun lines => (false, lines))

/-- `Execute`, `ret` being what `SQLExecDirectW` has returned. -/
def execute := checked

/-- `BindParam`, `ret` being what `SQLBindParameter` has returned. -/
def bindParam := checked

/-- `BindCol`, `ret` being what `SQLBindCol` has returned. -/
def bindCol := checked

/-- `Fetch`, `ret` being what `SQLFetch` has returned. -/
def fetch (getDiagRec : Int → SQLRETURN × Option String) (fuel : Nat) (ret : SQLRETURN) : Option (Bool × List String) :=
  if Succeeded ret then some (true, [])
  else if ret = SQL_NO_DATA then some (false, [])
  else if ret = SQL_ERROR then (handleError getDiagRec fuel ret).map (fun lines => (false, lines))
  else some (true, [])

/-! ## The error path -/

/-- `HandleError` comes to its end, with each record printed once and in order. -/
def Handles {records : List String} (d : DiagRecs records) (ret : SQLRETURN) : Prop :=
  ∃ fuel, handleError d.getDiagRec fuel ret = some records

def ReturnsFalse (call : Nat → Option (Bool × List String)) : Prop := ∃ fuel lines, call fuel = some (false, lines)

variable {records : List String} {getDiagRec : Int → SQLRETURN × Option String} {ret : SQLRETURN}

theorem handleErrorLoop_none (getDiagRec : Int → SQLRETURN × Option String) : ∀ (fuel : Nat) (index : BitVec 16)
    (errMsg : String), handleErrorLoop getDiagRec fuel index errMsg SQL_SUCCESS = none
  | 0, _, _ => rfl
  | fuel + 1, index, errMsg => by
    unfold handleErrorLoop
    rw [if_neg (by decide), if_neg (by decide), handleErrorLoop_none getDiagRec fuel]
    rfl

/-- **`HandleError` never returns** from a code that is not `SQL_SUCCESS`. -/
theorem handleError_none (getDiagRec : Int → SQLRETURN × Option String) (hret : ret ≠ SQL_SUCCESS) (fuel : Nat) :
    handleError getDiagRec fuel ret = none := by
  unfold handleError
  rw [if_neg hret]
  exact handleErrorLoop_none getDiagRec fuel 1 ""

theorem checked_none (hret : ¬ Succeeded ret) (fuel : Nat) : checked getDiagRec fuel ret = none := by
  unfold checked
  rw [if_neg hret, handleError_none getDiagRec (fun h => hret (.inl h)), Option.map_none]

theorem fetch_eq (hret : ¬ Succeeded ret) (hdata : ret ≠ SQL_NO_DATA) (fuel : Nat) :
    fetch getDiagRec fuel ret = if ret = SQL_ERROR then none else some (true, []) := by
  unfold fetch
  rw [if_neg hret, if_neg hdata, handleError_none getDiagRec (fun h => hret (.inl h)), Option.map_none]

/-- **No error is ever handled**: whatever records there are and whatever code a call has failed with, `HandleError` does
not come to its end, and the call that has failed does not return `false`: it does not return, but for a `Fetch` that
fails with another code than `SQL_ERROR`, which returns `true`. -/
theorem errors_never_handled (d : DiagRecs records) (ret : SQLRETURN) (hret : ¬ Succeeded ret) :
    ¬ Handles d ret ∧ (∀ fuel, handleError d.getDiagRec fuel ret = none) ∧
    ¬ ReturnsFalse (fun fuel => execute d.getDiagRec fuel ret) ∧
    ¬ ReturnsFalse (fun fuel => bindParam d.getDiagRec fuel ret) ∧
    ¬ ReturnsFalse (fun fuel => bindCol d.getDiagRec fuel ret) ∧
    (ret ≠ SQL_NO_DATA → ¬ ReturnsFalse (fun fuel => fetch d.getDiagRec fuel ret)) := by
  have hnone := fun fuel => handleError_none d.getDiagRec (fun h => hret (.inl h)) fuel
  have hchecked : ¬ ReturnsFalse (fun fuel => checked d.getDiagRec fuel ret) := by
    rintro ⟨fuel, lines, hcall⟩
    dsimp only at hcall
    rw [checked_none hret] at hcall
    cases hcall
  refine ⟨?_, hnone, hchecked, hchecked, hchecked, ?_⟩
  · rintro ⟨fuel, hhandled⟩
    rw [hnone] at hhandled
    cases hhandled
  · rintro hdata ⟨fuel, lines, hcall⟩
    dsimp only at hcall
    rw [fetch_eq hret hdata] at hcall
    split at hcall <;> cases hcall

def oneRecord : DiagRecs ["Invalid object name"] where
  getDiagRec index := if index = 1 then (SQL_SUCCESS, some "Invalid object name") else (SQL_NO_DATA, none)
  found i errMsg h := by
    cases i with
    | zero => exact ⟨.inl rfl, h⟩
    | succ i => cases h
  behind i h := by
    have hi : ((i : Int) + 1) ≠ 1 := by
      simp only [List.length_cons, List.length_nil] at h
      omega
    exact if_neg hi

theorem errors_never_handled_one :
    ¬ Handles oneRecord SQL_ERROR ∧ ¬ ReturnsFalse (fun fuel => execute oneRecord.getDiagRec fuel SQL_ERROR) := by
  obtain ⟨hhandled, -, hexecute, -⟩ := errors_never_handled oneRecord SQL_ERROR (by decide)
  exact ⟨hhandled, hexecute⟩

/-- **One record is enough for `HandleError` to run for ever.** -/
theorem one_record_never_handled : ¬ ∀ (records : List String) (d : DiagRecs records) (ret : SQLRETURN),
    ¬ Succeeded ret → Handles d ret := by
  intro h
  obtain ⟨fuel, hhandled⟩ := h _ oneRecord SQL_ERROR (by decide)
  have hloop := handleErrorLoop_none oneRecord.getDiagRec fuel 1 ""
  have hcall : handleError oneRecord.getDiagRec fuel SQL_ERROR = none := hloop
  rw [hcall] at hhandled
  cases hhandled

end DBConnection
end Geon
