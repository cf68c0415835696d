import GeonServer.DBBind
/-!
# FetchString — a string column in an array of characters

`BindCol` of ServerCore/DBBind.h for a `WCHAR[N]`, or a `WCHAR*` with a length, hands `N - 1` on, and
ServerCore/DBConnection.cpp hands that to `SQLBindCol`, which takes it for a number of bytes; the strings that
`BindParam` takes are counted twice.  So nothing is written behind the array, but a string is whole only if its bytes
fit in one less than the characters of the array (`yields_iff`).

The driver is code outside the repository: `Driver` says of it what ODBC does.
-/
namespace Geon

open DBConnection

abbrev WCHAR : Type := BitVec 16

/-- What `SQLFetch` stores for a string column, from the start of the buffer that has been bound. -/
structure Driver where
  stores : SqlBinding → List WCHAR → List WCHAR
  whole : ∀ (b : SqlBinding) (s : List WCHAR), b.cType = SQL_WCHAR → 2 * ((s.length : Int) + 1) ≤ b.len →
    stores b s = s ++ [0]
  inside : ∀ (b : SqlBinding) (s : List WCHAR), 2 * (stores b s).length ≤ b.len.toNat

/-! ## The binding of a column -/

/-- The argument of a call that binds column `i`. -/
def BindCall.colArg? (i : Nat) : BindCall → Option ColArg
  | .param _ _ _ => none
  | .col idx value _ => if idx = (i : Int) then some value else none

/-- What column `i` has been bound to last. -/
def boundAs (calls : List BindCall) (i : Nat) : Option ColArg := (calls.filterMap (BindCall.colArg? i)).getLast?

namespace DBBind

variable {ParamCount ColumnCount : Nat} {d d' : DBBind ParamCount ColumnCount} {fuel i N : Nat} {call : BindCall}
  {calls : List BindCall} {arg : ColArg} {s : List WCHAR}

def isCol (i : Nat) (b : Bound) : Bool := !b.isParam && b.index == BitVec.ofNat 16 (i + 1)

/-- The driver's binding of column `i`. -/
def colBinding (d : DBBind ParamCount ColumnCount) (i : Nat) : Option SqlBinding :=
  ((d.bound.filter (isCol i)).getLast?).map Bound.binding

/-- The memory from the start of the buffer of column `i` on, after a `Fetch` of the string `s`. -/
def fetched (driver : Driver) (d : DBBind ParamCount ColumnCount) (i : Nat) (memory s : List WCHAR) : List WCHAR :=
  match d.colBinding i with
  | none => memory
  | some b => driver.stores b s ++ memory.drop (driver.stores b s).length

theorem colBinding_append {b : Bound} (hbound : d'.bound = d.bound ++ [b]) :
    d'.colBinding i = if isCol i b = true then some b.binding else d.colBinding i := by
  unfold colBinding
  rw [hbound, List.filter_append]
  by_cases hb : isCol i b = true
  · rw [if_pos hb, List.filter_cons_of_pos hb, List.filter_nil, List.getLast?_concat, Option.map_some]
  · rw [if_neg hb, List.filter_cons_of_neg hb, List.filter_nil, List.append_nil]

theorem index_eq_iff {idx : Int} (h0 : 0 ≤ idx) (h64 : idx < 64) (hi : i < 64) :
    BitVec.ofInt 16 (idx + 1) = BitVec.ofNat 16 (i + 1) ↔ idx = (i : Int) := by
  obtain ⟨n, rfl⟩ := Int.eq_ofNat_of_zero_le h0
  have hcast : BitVec.ofInt 16 ((n : Int) + 1) = BitVec.ofNat 16 (n + 1) := BitVec.ofInt_natCast 16 (n + 1)
  rw [hcast, ← BitVec.toNat_inj, BitVec.toNat_ofNat, BitVec.toNat_ofNat, Int.natCast_inj]
  omega

/-- **The step lemma**: the last call for a column says how it is bound. -/
theorem colBinding_bind (hi : i < 64) (h : bind fuel d call = some d') :
    d'.colBinding i = ((call.colArg? i).map ColArg.binding).or (d.colBinding i) := by
  cases call with
  | param idx value answer =>
    obtain ⟨hin, h⟩ := Option.ite_none_right_eq_some.1 h
    obtain ⟨r, hr, rfl⟩ := Option.map_eq_some_iff.1 h
    have hbound : isCol i ⟨true, BitVec.ofInt 16 (idx + 1), value.binding, answer.ret⟩ ≠ true := by simp [isCol]
    exact (colBinding_append rfl).trans (if_neg hbound)
  | col idx value answer =>
    obtain ⟨hin, h⟩ := Option.ite_none_right_eq_some.1 h
    obtain ⟨r, hr, rfl⟩ := Option.map_eq_some_iff.1 h
    rw [colBinding_append rfl]
    have hiff := index_eq_iff hin.1 hin.2.2 hi
    by_cases hidx : idx = (i : Int)
    · have hcol : isCol i ⟨false, BitVec.ofInt 16 (idx + 1), value.binding, answer.ret⟩ = true := by
        simpa [isCol] using hiff.2 hidx
      rw [if_pos hcol, BindCall.colArg?, if_pos hidx, Option.map_some, Option.some_or]
    · have hcol : ¬ isCol i ⟨false, BitVec.ofInt 16 (idx + 1), value.binding, answer.ret⟩ = true := by
        simpa [isCol] using fun heq => hidx (hiff.1 heq)
      rw [if_neg hcol, BindCall.colArg?, if_neg hidx, Option.map_none, Option.none_or]

theorem colBinding_run (hi : i < 64) : ∀ (calls : List BindCall) {d d' : DBBind ParamCount ColumnCount},
    calls.foldlM (bind fuel) d = some d' → d'.colBinding i = ((boundAs calls i).map ColArg.binding).or (d.colBinding i)
  | [], d, d', h => by
    cases h
    rfl
  | call :: calls, d, d', h => by
    rw [List.foldlM_cons] at h
    obtain ⟨d₁, h₁, h⟩ := Option.bind_eq_some_iff.1 h
    rw [colBinding_run hi calls h, colBinding_bind hi h₁]
    unfold boundAs
    cases hcall : call.colArg? i with
    | none => rw [List.filterMap_cons_none hcall, Option.map_none, Option.none_or]
    | some arg =>
      rw [List.filterMap_cons_some hcall, List.getLast?_cons, Option.map_some, Option.some_or, Option.map_some]
      cases (calls.filterMap (BindCall.colArg? i)).getLast? <;> rfl

/-- A column that has been bound has a flag. -/
theorem lt_of_boundAs : ∀ (calls : List BindCall) {d d' : DBBind ParamCount ColumnCount},
    calls.foldlM (bind fuel) d = some d' → boundAs calls i = some arg → i < 64
  | [], d, d', _, hcol => by cases hcol
  | call :: calls, d, d', h, hcol => by
    rw [List.foldlM_cons] at h
    obtain ⟨d₁, h₁, h⟩ := Option.bind_eq_some_iff.1 h
    cases hcall : call.colArg? i with
    | none =>
      unfold boundAs at hcol
      rw [List.filterMap_cons_none hcall] at hcol
      exact lt_of_boundAs calls h hcol
    | some arg' =>
      cases call with
      | param idx value answer => cases hcall
      | col idx value answer =>
        obtain ⟨hidx, -⟩ := Option.ite_none_right_eq_some.1 hcall
        obtain ⟨hin, -⟩ := Option.ite_none_right_eq_some.1 h₁
        have h64 := hin.2.2
        omega

/-! ## What a fetch yields -/

/-- A string of at most `N - 1` characters comes whole and with its terminator into an array of `N`, and of a longer one
nothing is stored behind it. -/
def Yields (driver : Driver) (d : DBBind ParamCount ColumnCount) (i N : Nat) (s : List WCHAR) : Prop :=
  ∀ array : List WCHAR, array.length = N →
    (s.length ≤ N - 1 → (d.fetched driver i array s).take (s.length + 1) = s ++ [0]) ∧
    (d.fetched driver i array s).length = N

/-- **When a string comes whole**: if and only if its bytes and those of the terminator are at most `N - 1`; and never is
anything written behind the array. -/
theorem yields_iff (driver : Driver) (h : calls.foldlM (bind fuel) (new : DBBind ParamCount ColumnCount) = some d)
    (hcol : boundAs calls i = some arg) (harg : arg = .wcharArray N ∨ arg = .wcharPointer N) (hN : 1 ≤ N) :
    d.Yields driver i N s ↔ N - 1 < s.length ∨ 2 * (s.length + 1) ≤ N - 1 := by
  have hbinding : arg.binding = ⟨SQL_WCHAR, 0, (N : Int) - 1⟩ := by
    rcases harg with rfl | rfl <;> rfl
  have hcolBinding : d.colBinding i = some ⟨SQL_WCHAR, 0, (N : Int) - 1⟩ := by
    rw [colBinding_run (lt_of_boundAs calls h hcol) calls h, hcol, Option.map_some, hbinding, Option.some_or]
  have hlen : 2 * (driver.stores ⟨SQL_WCHAR, 0, (N : Int) - 1⟩ s).length ≤ N - 1 := by
    have hin := driver.inside ⟨SQL_WCHAR, 0, (N : Int) - 1⟩ s
    dsimp only at hin
    omega
  have hfetched : ∀ memory, d.fetched driver i memory s = driver.stores ⟨SQL_WCHAR, 0, (N : Int) - 1⟩ s ++
      memory.drop (driver.stores ⟨SQL_WCHAR, 0, (N : Int) - 1⟩ s).length := by
    intro memory
    rw [fetched, hcolBinding]
  constructor
  · intro hyields
    by_contra hnot
    obtain ⟨hle, hshort⟩ := not_or.1 hnot
    -- where the terminator should be, the array has what it had
    have htake := (hyields (List.replicate N 1) List.length_replicate).1 (by omega)
    have hlast := congrArg (fun l => l[s.length]?) htake
    rw [List.getElem?_take_of_lt (Nat.lt_succ_self _), hfetched, List.getElem?_append_right (by omega),
      List.getElem?_drop, List.getElem?_replicate, if_pos (by omega), List.getElem?_concat_length] at hlast
    exact absurd hlast (by decide)
  · intro hwhen array harray
    refine ⟨fun hle => ?_, ?_⟩
    · have hfit : 2 * (s.length + 1) ≤ N - 1 := hwhen.resolve_left (by omega)
      rw [hfetched, driver.whole _ s rfl (by dsimp only; omega)]
      exact List.take_left' (by simp)
    · rw [hfetched, List.length_append, List.length_drop, harray]
      omega

/-- A driver that stores the front of a string, with the terminator behind it. -/
def odbc : Driver where
  stores b s := if 2 ≤ b.len then s.take (b.len.toNat / 2 - 1) ++ [0] else []
  whole b s _ hlen := by
    rw [if_pos (by omega), List.take_of_length_le (by omega)]
  inside b s := by
    split
    · rw [List.length_append, List.length_take, List.length_singleton]
      omega
    · exact Nat.zero_le _

def oneColumn (arg : ColArg) : List BindCall := [.col 0 arg accepted]

theorem yields_iff_seven : ∃ d : DBBind 0 1, (oneColumn (.wcharArray 7)).foldlM (bind 0) new = some d ∧
    d.Yields odbc 0 7 [97, 98] :=
  ⟨_, rfl, (@yields_iff 0 1 _ 0 0 7 (oneColumn (.wcharArray 7)) (.wcharArray 7) [97, 98] odbc rfl rfl (.inl rfl)
    (by decide)).2 (by decide)⟩

/-- **Two characters do not come into an array of three.** -/
theorem two_of_three : ∃ d : DBBind 0 1, (oneColumn (.wcharArray 3)).foldlM (bind 0) new = some d ∧
    d.fetched odbc 0 [0, 0, 0] [97, 98] = [0, 0, 0] ∧ ¬ d.Yields odbc 0 3 [97, 98] := by
  refine ⟨_, rfl, by decide, fun h => ?_⟩
  have htake := (h [0, 0, 0] rfl).1 (by decide)
  revert htake
  decide

end DBBind

end Geon
