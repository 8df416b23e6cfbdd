import NesDbg.Lua

/-! Running test scripts (`ScriptMgr::Init`, `ScriptMgr::ExecuteScript`) and the test script output
(`ScriptMgr::TestScriptDlgAppendOutput`).

The scripts of a batch run one after another on the one Lua VM that `ScriptMgr::Init` opened. The VM's
value stack is a list, its top first. A script's own behaviour is its `Outcome`: an engine error with its
error value, or the values it returned. `luaL_dofile` leaves the error value or the returned values on
the stack, and `ExecuteScript` reads its verdict from the top with `lua_tonumber(L, -1)` and pops
nothing. After an error it appends the value's text with `TestScriptDlgAppendOutput(_T("%s\r\n"), ...)`.

`TestScriptDlgAppendOutput(pFmtText, ...)` formats its arguments with `_vstprintf_s` into a buffer of
1024 characters and appends the text to the output. A call the program does not come back from is
`none`: text that does not fit the buffer ends in the invalid parameter handler of `_vstprintf_s`, and
an error value that `lua_tostring` gives no text for ends in `strlen(NULL)` in `CreateTcharString`.
`Outcome.returns` says which outcomes `ExecuteScript` returns from (`isSome_executeScript`). -/

namespace NesDbg

/-- `ScriptResult`: `0..2` are its enumerators; `static_cast<ScriptResult>` of a `UINT` holds any value. -/
structure ScriptResult where
  val : Nat
deriving DecidableEq, Repr

namespace ScriptResult
def pass : ScriptResult := ⟨0⟩
def fail : ScriptResult := ⟨1⟩
def error : ScriptResult := ⟨2⟩
end ScriptResult

/-- What a script does when `luaL_dofile` runs it: it fails to load or raises an error with some value,
    or it returns some values, in order. -/
inductive Outcome
  | error (v : LuaValue)
  | ok (rets : List LuaValue)

/-- The Lua VM as the scripts see it: its value stack, top first, and the lines appended to the test
    script output. -/
structure Vm where
  stack : List LuaValue
  output : List String

/-- The VM after `ScriptMgr::Init`: `luaopen_base` leaves the global table and the coroutine library
    table on the stack, `luaopen_math` the math library table, `luaL_register` the `nesdbg` table. -/
def initVm : Vm := ⟨[.table [], .table [], .table [], .table []], []⟩

/-! ### Formatted output -/

/-- The text `_vstprintf_s` makes of a format and its string arguments: the format's characters, with
    `%%` written as `%` and `%s` as the next argument. `none` for any other directive and for a `%s`
    past the last argument, where the call writes no defined text; the callers' own formats hold neither. -/
def formatText : List Char → List String → Option (List Char)
  | [], _ => some []
  | c :: cs, args =>
    if c = '%' then
      match cs, args with
      | '%' :: rest, args => (formatText rest args).map ('%' :: ·)
      | 's' :: rest, a :: args => (formatText rest args).map (a.toList ++ ·)
      | _, _ => none
    else (formatText cs args).map (c :: ·)

/-- `TmpBufSize`. -/
def tmpBufSize : Nat := 1024

/-- `_vstprintf_s(buffer, sizeOfBuffer, format, argList)`: the text, when it and its NUL fit in the buffer;
    `none` when they do not, where the invalid parameter handler ends the call. -/
def vstprintfS (sizeOfBuffer : Nat) (format : String) (args : List String) : Option String :=
  match formatText format.toList args with
  | some text => if text.length < sizeOfBuffer then some ⟨text⟩ else none
  | none => none

/-- `TestScriptDlgAppendOutput(pFmtText, ...)`: the formatted text appended to the output; `none` when
    the call fails. -/
def testScriptDlgAppendOutput (vm : Vm) (pFmtText : String) (args : List String) : Option Vm :=
  (vstprintfS tmpBufSize pFmtText args).map fun text => { vm with output := vm.output ++ [text] }

/-- `CreateTcharString(pIn)`: the characters before the NUL that ends `pIn` for `strlen`. -/
def createTcharString (pIn : String) : String := ⟨pIn.toList.takeWhile (· ≠ '\x00')⟩

/-- A format without `%` is its own text. -/
theorem formatText_plain {s : List Char} (h : '%' ∉ s) (args : List String) : formatText s args = some s := by
  induction s with
  | nil => rfl
  | cons c cs ih =>
    have hc : c ≠ '%' := fun e => h (e ▸ List.mem_cons_self _ _)
    unfold formatText
    rw [if_neg hc, ih (fun hm => h (List.mem_cons_of_mem _ hm))]
    rfl

/-! ### `ExecuteScript` -/

/-- `luaL_dofile`: whether it succeeded, and the stack after it, with the error value or every returned
    value pushed in order. -/
def dofile (stack : List LuaValue) : Outcome → Bool × List LuaValue
  | .error v => (false, v :: stack)
  | .ok rets => (true, rets.reverse ++ stack)

/-- `lua_tonumber(L, -1)`: the number at the top of the stack, `0` for an empty stack. -/
def toNumberTop (stack : List LuaValue) : Int := (stack.head?.map LuaValue.toNumber).getD 0

/-- `lua_tostring(L, -1)`: `NULL` for a value with no text and for an empty stack. -/
def toStringTop (stack : List LuaValue) : Option String := stack.head?.bind LuaValue.toStr?

/-- `ScriptMgr::ExecuteScript` of a script with outcome `o`: its result and the VM after it; `none` when
    the program does not come back from the call. -/
def executeScript (vm : Vm) (o : Outcome) : Option (ScriptResult × Vm) :=
  let (luaRet, stack) := dofile vm.stack o
  if luaRet then some (⟨toUInt (toNumberTop stack)⟩, { vm with stack })
  else
    (toStringTop stack).bind fun pErrString =>
      (testScriptDlgAppendOutput { vm with stack } "%s\r\n" [createTcharString pErrString]).map (.error, ·)

/-- Whether `ExecuteScript` returns from a script with this outcome, whatever the VM: always from one
    that completed, and from an error when the error value has a text and `"%s\r\n"` of it fits in
    `TmpBufSize` characters with its NUL. -/
def Outcome.returns : Outcome → Bool
  | .ok _ => true
  | .error v => (v.toStr?.bind fun m => vstprintfS tmpBufSize "%s\r\n" [createTcharString m]).isSome

theorem isSome_executeScript (vm : Vm) (o : Outcome) : (executeScript vm o).isSome = o.returns := by
  cases o with
  | ok rets => rfl
  | error v =>
    simp only [executeScript, dofile, toStringTop, List.head?_cons, Option.some_bind, Outcome.returns,
      testScriptDlgAppendOutput]
    cases v.toStr? <;> simp

/-- The scripts of a batch run in turn, as the loop of `TestScriptDlgRun` calls `ExecuteScript`: their
    results, and the VM after the last; `none` when the program does not come back from one. -/
def runScripts : Vm → List Outcome → Option (List ScriptResult × Vm)
  | vm, [] => some ([], vm)
  | vm, o :: os => do
    let (result, vm) ← executeScript vm o
    let (results, vm) ← runScripts vm os
    return (result :: results, vm)

/-- A batch of outcomes that `ExecuteScript` returns from runs to its end. -/
theorem isSome_runScripts (vm : Vm) {os : List Outcome} (h : ∀ o ∈ os, o.returns = true) :
    (runScripts vm os).isSome := by
  induction os generalizing vm with
  | nil => rfl
  | cons o os ih =>
    obtain ⟨r, hr⟩ := Option.isSome_iff_exists.mp
      ((isSome_executeScript vm o).trans (h o (List.mem_cons_self _ _)))
    obtain ⟨rs, hrs⟩ := Option.isSome_iff_exists.mp (ih r.2 fun o' h' => h o' (List.mem_cons_of_mem _ h'))
    simp [runScripts, hr, hrs]

/-! ### What a verdict is read from -/

/-- After an error `ExecuteScript` returns only when the error value has a text whose line fits in the
    buffer; it returns `ERROR`, with the value left on the stack and the line appended to the output. -/
theorem executeScript_error {vm : Vm} {v : LuaValue} {r : ScriptResult × Vm}
    (h : executeScript vm (.error v) = some r) :
    ∃ m text, v.toStr? = some m ∧ vstprintfS tmpBufSize "%s\r\n" [createTcharString m] = some text ∧
      r = (.error, ⟨v :: vm.stack, vm.output ++ [text]⟩) := by
  simp only [executeScript, dofile, toStringTop, List.head?_cons, Option.some_bind, testScriptDlgAppendOutput,
    Bool.false_eq_true, ite_false, Option.bind_eq_some, Option.map_eq_some'] at h
  obtain ⟨m, hm, _, ⟨text, ht, rfl⟩, rfl⟩ := h
  exact ⟨m, text, hm, ht, rfl⟩

/-- An engine error is `ERROR` when `ExecuteScript` returns; a script that returns values is judged by
    the last of them, and a script that returns none by the value at the top of the stack it found. -/
theorem executeScript_result (vm : Vm) (o : Outcome) :
    (executeScript vm o).map Prod.fst = match o with
      | .error _ => if o.returns then some .error else none
      | .ok rets => some ⟨toUInt (toNumberTop (rets.reverse ++ vm.stack))⟩ := by
  cases o with
  | ok rets => rfl
  | error v =>
    rw [← isSome_executeScript vm]
    cases h : executeScript vm (.error v) with
    | none => rfl
    | some r =>
      obtain ⟨_, _, -, -, rfl⟩ := executeScript_error h
      rfl

/-- `ExecuteScript` leaves what the script left on the stack: one value more for an error, one for each
    returned value. -/
theorem length_stack_executeScript {vm : Vm} {o : Outcome} {r : ScriptResult × Vm}
    (h : executeScript vm o = some r) :
    r.2.stack.length = vm.stack.length + match o with
      | .error _ => 1
      | .ok rets => rets.length := by
  cases o with
  | ok rets =>
    cases h
    simp [Nat.add_comm]
  | error v =>
    obtain ⟨_, _, -, -, rfl⟩ := executeScript_error h
    simp [Nat.add_comm]

/-- A script that returns nothing gets `FAIL` after a script that returned `1` and `PASS` after one that
    returned `0`: its verdict is the earlier script's. -/
theorem executeScript_reads_leftover :
    ((runScripts initVm [.ok [.number 1]]).bind fun r => executeScript r.2 (.ok [])).map Prod.fst =
        some .fail ∧
      ((runScripts initVm [.ok [.number 0]]).bind fun r => executeScript r.2 (.ok [])).map Prod.fst =
        some .pass :=
  ⟨rfl, rfl⟩

end NesDbg
