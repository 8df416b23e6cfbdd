import NesDbg.Script
import Mathlib.Data.List.Basic

/-! The test script dialog (`scriptmgrdlg.cpp`) and `ScriptMgr::LuaPrint`.

`TestScriptDlgRun` runs the selected scripts in turn through `ExecuteScript` and keeps the tally of their
results in `passCnt`, `failCnt` and `errorCnt`. A `Report` is what its loop shows the dialog: each call
of `TestScriptDlgSetProgress` and `TestScriptDlgSetResults`, and each read of `scriptResultStrTbl`. The
text of the lines it appends around each script is left out; the results are what the scripts' outcomes
give through `ExecuteScript` (`runScripts`). `runLoop_eq` says that the loop shows `loopReports` of those
results, and `testScriptDlgRun_tally` what the tally and the progress are after each script.

`LuaPrint` passes the script's text itself as the format of `TestScriptDlgAppendOutput`. -/

namespace NesDbg

/-! ### The run loop -/

/-- `scriptResultStrTbl`, indexed by `ScriptResult`. -/
def scriptResultStrTbl : List String := ["PASS", "FAIL", "ERROR"]

/-- `passCnt`, `failCnt` and `errorCnt`. -/
structure Tally where
  passCnt : Nat
  failCnt : Nat
  errorCnt : Nat
deriving DecidableEq, Repr

namespace Tally

/-- The `if`/`else if`/`else` after each script: every result other than `PASS` and `FAIL` falls through
    to `errorCnt++`. -/
def count (t : Tally) (result : ScriptResult) : Tally :=
  if result = .pass then { t with passCnt := t.passCnt + 1 }
  else if result = .fail then { t with failCnt := t.failCnt + 1 }
  else { t with errorCnt := t.errorCnt + 1 }

def total (t : Tally) : Nat := t.passCnt + t.failCnt + t.errorCnt

end Tally

/-- What the loop shows the dialog. -/
inductive Report
  | messageBox (text : String)
  | setProgress (testsDone testCnt : Nat)
  | setResults (passCnt failCnt errorCnt : Nat)
  | resultStr (index : Nat)
deriving DecidableEq, Repr

namespace Report

def progress? : Report → Option (Nat × Nat)
  | setProgress testsDone testCnt => some (testsDone, testCnt)
  | _ => none

def results? : Report → Option Tally
  | setResults p f e => some ⟨p, f, e⟩
  | _ => none

end Report

/-- The loop `for (i = 0; i < scriptCnt; i++)` from script `i` on: its reports, then the tally and the
    VM after the last script; `none` when the program does not come back from a script. -/
def runLoop (scriptCnt : Nat) : Nat → Tally → Vm → List Outcome → Option (List Report × Tally × Vm)
  | _, t, vm, [] => some ([], t, vm)
  | i, t, vm, o :: os => do
    let (result, vm) ← executeScript vm o
    let t := t.count result
    let (reports, last, vm) ← runLoop scriptCnt (i + 1) t vm os
    return (.setProgress i scriptCnt :: .resultStr result.val :: .setResults t.passCnt t.failCnt t.errorCnt ::
      reports, last, vm)

/-- `TestScriptDlgRun` on a selection of scripts, `os` their outcomes in the order of the list box. -/
def testScriptDlgRun (vm : Vm) (os : List Outcome) : Option (List Report × Vm) :=
  let scriptCnt := os.length
  if scriptCnt = 0 then some ([.messageBox "No tests selected."], vm)
  else
    (runLoop scriptCnt 0 ⟨0, 0, 0⟩ vm os).map fun (reports, _, vm) =>
      (.setResults 0 0 0 :: reports ++ [.setProgress scriptCnt scriptCnt], vm)

/-- The tally of some results as the dialog means it: the `PASS` results, the `FAIL` results, and all
    others. -/
def tallyOf (rs : List ScriptResult) : Tally :=
  ⟨rs.count .pass, rs.count .fail, rs.countP fun r => r ≠ .pass ∧ r ≠ .fail⟩

theorem count_tallyOf (rs : List ScriptResult) (r : ScriptResult) :
    (tallyOf rs).count r = tallyOf (rs ++ [r]) := by
  unfold Tally.count tallyOf
  split_ifs with hp hf
  · subst hp
    simp [List.count_append, List.countP_append, List.count_cons, show ScriptResult.pass ≠ .fail by decide]
  · subst hf
    simp [List.count_append, List.countP_append, List.count_cons, hp]
  · simp [List.count_append, List.countP_append, List.count_cons, Ne.symm hp, Ne.symm hf, hp, hf]

/-- Every result is counted once. -/
theorem total_tallyOf (rs : List ScriptResult) : (tallyOf rs).total = rs.length := by
  induction rs using List.reverseRecOn with
  | nil => rfl
  | append_singleton rs r ih =>
    rw [← count_tallyOf, List.length_append, List.length_singleton, ← ih]
    unfold Tally.count Tally.total
    split_ifs <;> simp only <;> omega

theorem runScripts_cons (vm : Vm) (o : Outcome) (os : List Outcome) :
    runScripts vm (o :: os) =
      (executeScript vm o).bind fun r => (runScripts r.2 os).map fun rs => (r.1 :: rs.1, rs.2) := by
  show (executeScript vm o >>= _) = _
  cases executeScript vm o with
  | none => rfl
  | some r =>
    show (runScripts r.2 os >>= _) = Option.map _ (runScripts r.2 os)
    cases runScripts r.2 os <;> rfl

theorem length_runScripts {vm : Vm} {os : List Outcome} {r : List ScriptResult × Vm}
    (h : runScripts vm os = some r) : r.1.length = os.length := by
  induction os generalizing vm r with
  | nil => cases h; rfl
  | cons o os ih =>
    simp only [runScripts_cons, Option.bind_eq_some, Option.map_eq_some'] at h
    obtain ⟨_, -, rs, hrs, rfl⟩ := h
    simp [ih hrs]

/-! ### What a run of the loop shows -/

/-- What the loop shows for the results `rs` of the scripts from `i` on, after the results `pre`: the
    progress before each script, its entry of `scriptResultStrTbl` and the tally after it. -/
def loopReports (N : Nat) : Nat → List ScriptResult → List ScriptResult → List Report
  | _, _, [] => []
  | i, pre, r :: rs =>
    let t := tallyOf (pre ++ [r])
    .setProgress i N :: .resultStr r.val :: .setResults t.passCnt t.failCnt t.errorCnt ::
      loopReports N (i + 1) (pre ++ [r]) rs

/-- The loop shows `loopReports` of the results `ExecuteScript` returns and ends with their tally. -/
theorem runLoop_eq (N i : Nat) (pre : List ScriptResult) (vm : Vm) (os : List Outcome) :
    runLoop N i (tallyOf pre) vm os =
      (runScripts vm os).map fun r => (loopReports N i pre r.1, tallyOf (pre ++ r.1), r.2) := by
  induction os generalizing i pre vm with
  | nil => simp [runLoop, runScripts, loopReports]
  | cons o os ih =>
    rw [runScripts_cons]
    show (executeScript vm o >>= _) = _
    cases executeScript vm o with
    | none => rfl
    | some r =>
      show (runLoop N (i + 1) ((tallyOf pre).count r.1) r.2 os >>= _) =
        Option.map _ (Option.map _ (runScripts r.2 os))
      rw [count_tallyOf, ih]
      cases runScripts r.2 os with
      | none => rfl
      | some rs => simp [loopReports]

theorem loopReports_progress (N i : Nat) (pre rs : List ScriptResult) :
    (loopReports N i pre rs).filterMap Report.progress? = (List.range' i rs.length).map (·, N) := by
  induction rs generalizing i pre with
  | nil => rfl
  | cons r rs ih => simp [loopReports, Report.progress?, ih, List.range'_succ]

/-- After each script the loop shows the tally of the results so far. -/
theorem loopReports_results (N i : Nat) (pre rs : List ScriptResult) :
    (loopReports N i pre rs).filterMap Report.results? =
      (List.range rs.length).map fun k => tallyOf (pre ++ rs.take (k + 1)) := by
  induction rs generalizing i pre with
  | nil => rfl
  | cons r rs ih =>
    simp only [loopReports, List.filterMap_cons, Report.results?, ih, List.length_cons, List.range_succ_eq_map,
      List.map_cons, List.map_map, Function.comp_def, List.take_succ_cons, List.take_zero, List.append_assoc,
      List.singleton_append]

theorem testScriptDlgRun_eq (vm : Vm) {os : List Outcome} (h : os ≠ []) :
    testScriptDlgRun vm os = (runScripts vm os).map fun r =>
      (.setResults 0 0 0 :: loopReports os.length 0 [] r.1 ++ [.setProgress os.length os.length], r.2) := by
  have hN : os.length ≠ 0 := fun h0 => h (List.length_eq_zero.mp h0)
  simp only [testScriptDlgRun, hN, if_false, show (⟨0, 0, 0⟩ : Tally) = tallyOf [] from rfl, runLoop_eq,
    Option.map_map]
  rfl

/-- For every batch of at least one script, each of whose outcomes `ExecuteScript` returns from, the loop
    reports the progress `0, 1, ..., N - 1` and then `N`, each of `N`; after `i` scripts it shows the tally
    of the first `i` results, which counts each of them once, and the counters it ends with add up to
    `N`. -/
theorem testScriptDlgRun_tally (vm : Vm) (os : List Outcome) (h : os ≠ []) (hret : ∀ o ∈ os, o.returns = true) :
    ∃ reports rs last,
      (testScriptDlgRun vm os).map Prod.fst = some reports ∧ (runScripts vm os).map Prod.fst = some rs ∧
      (runLoop os.length 0 ⟨0, 0, 0⟩ vm os).map (·.2.1) = some last ∧
      reports.filterMap Report.progress? = (List.range (os.length + 1)).map (·, os.length) ∧
      (∀ p ∈ reports.filterMap Report.progress?, 1 ≤ p.2 ∧ p.1 ≤ p.2) ∧
      ((reports.filterMap Report.progress?).map Prod.fst).Pairwise (· ≤ ·) ∧
      reports.filterMap Report.results? = (List.range (os.length + 1)).map (fun i => tallyOf (rs.take i)) ∧
      (∀ i ≤ os.length, (tallyOf (rs.take i)).total = i) ∧
      last.total = os.length := by
  obtain ⟨⟨rs, vm'⟩, hrun⟩ := Option.isSome_iff_exists.mp (isSome_runScripts vm hret)
  have hN : 0 < os.length := List.length_pos.mpr h
  have hrs : rs.length = os.length := length_runScripts hrun
  have hprog : (Report.setResults 0 0 0 :: loopReports os.length 0 [] rs ++
      [Report.setProgress os.length os.length]).filterMap Report.progress? =
        (List.range (os.length + 1)).map (·, os.length) := by
    rw [List.filterMap_append, List.filterMap_cons, loopReports_progress, hrs, List.range_succ,
      List.range_eq_range', List.map_append]
    rfl
  refine ⟨_, rs, tallyOf rs, by rw [testScriptDlgRun_eq vm h, hrun]; rfl, by rw [hrun]; rfl,
    by rw [show (⟨0, 0, 0⟩ : Tally) = tallyOf [] from rfl, runLoop_eq, hrun]; rfl, hprog, ?_, ?_, ?_,
    fun i hi => ?_, ?_⟩
  · rw [hprog]
    simp only [List.mem_map, List.mem_range]
    rintro _ ⟨k, hk, rfl⟩
    omega
  · rw [hprog, List.map_map, show (Prod.fst ∘ fun k : Nat => (k, os.length)) = id from rfl, List.map_id]
    exact List.pairwise_le_range _
  · rw [List.filterMap_append, List.filterMap_cons, loopReports_results, List.range_succ_eq_map, hrs]
    simp [Report.results?]
    rfl
  · rw [total_tallyOf, List.length_take, hrs]
    omega
  · rw [total_tallyOf, hrs]

theorem testScriptDlgRun_tally_two :
    [Outcome.ok [.number 0], .error (.string "boom")] ≠ [] ∧
      (∀ o ∈ [Outcome.ok [.number 0], .error (.string "boom")], o.returns = true) ∧
      (testScriptDlgRun initVm [.ok [.number 0], .error (.string "boom")]).map (·.1.filterMap Report.progress?) =
        some [(0, 2), (1, 2), (2, 2)] := by
  have hr : ∀ o ∈ [Outcome.ok [.number 0], .error (.string "boom")], o.returns = true := by decide
  obtain ⟨reports, -, -, hrep, -, -, hprog, -⟩ :=
    testScriptDlgRun_tally initVm [.ok [.number 0], .error (.string "boom")] (List.cons_ne_nil _ _) hr
  refine ⟨List.cons_ne_nil _ _, hr, ?_⟩
  show Option.map (List.filterMap Report.progress? ∘ Prod.fst) _ = _
  rw [← Option.map_map, hrep, Option.map_some', hprog]
  rfl

/-- A script that returns 3 gets the result 3: the loop reads `scriptResultStrTbl[3]`, past the table's
    three entries, and counts the script as an error. -/
theorem testScriptDlgRun_result_three :
    (executeScript initVm (.ok [.number 3])).map Prod.fst = some ⟨3⟩ ∧ scriptResultStrTbl.length = 3 ∧
      (testScriptDlgRun initVm [.ok [.number 3]]).map Prod.fst =
        some [.setResults 0 0 0, .setProgress 0 1, .resultStr 3, .setResults 0 0 1, .setProgress 1 1] :=
  ⟨rfl, rfl, by decide⟩

/-! ### `LuaPrint` -/

/-- `LuaPrint` for `print(input)`: no value returned to the script, and the VM after the call; `none`
    when the call fails. -/
def luaPrint (vm : Vm) (args : List LuaValue) : Option (List LuaValue × Vm) :=
  if !argIsString args 1 then some ([], vm)
  else (testScriptDlgAppendOutput vm (createTcharString (argToStr args 1)) []).map fun vm => ([], vm)

/-- Text with no `%` and no NUL that fits in the buffer with its NUL is appended exactly; longer text
    fails. -/
theorem luaPrint_plain (vm : Vm) (s : String) (hp : '%' ∉ s.toList) (hz : '\x00' ∉ s.toList) :
    luaPrint vm [.string s] =
      if s.length < tmpBufSize then some ([], { vm with output := vm.output ++ [s] }) else none := by
  have hw : s.toList.takeWhile (fun c => decide (c ≠ '\x00')) = s.toList :=
    List.takeWhile_eq_self_iff.mpr fun c hc => decide_eq_true fun e => hz (e ▸ hc)
  have ht : createTcharString s = s := by
    show String.mk _ = String.mk s.toList
    rw [hw]
  show (testScriptDlgAppendOutput vm (createTcharString s) []).map (fun vm => ([], vm)) = _
  rw [ht, testScriptDlgAppendOutput, vstprintfS, formatText_plain hp]
  dsimp only
  by_cases hl : s.length < tmpBufSize
  · rw [if_pos hl, if_pos (show s.toList.length < tmpBufSize from hl)]
    rfl
  · rw [if_neg hl, if_neg (show ¬s.toList.length < tmpBufSize from hl)]
    rfl

/-- `print("100%%")` appends `100%`, `print("a\x00b")` appends `a`, and `print` of 1024 characters
    fails. -/
theorem luaPrint_mangles :
    (luaPrint initVm [.string "100%%"]).map (·.2.output) = some ["100%"] ∧
      (luaPrint initVm [.string "a\x00b"]).map (·.2.output) = some ["a"] ∧
      luaPrint initVm [.string ⟨List.replicate 1024 'a'⟩] = none := by
  refine ⟨rfl, rfl, ?_⟩
  have hm : ∀ c, c ≠ 'a' → c ∉ List.replicate 1024 'a' := fun c hc hm => hc (List.eq_of_mem_replicate hm)
  rw [luaPrint_plain initVm ⟨List.replicate 1024 'a'⟩ (hm '%' (by decide)) (hm _ (by decide)), if_neg]
  show ¬(List.replicate 1024 'a').length < 1024
  rw [List.length_replicate]
  exact Nat.lt_irrefl _

end NesDbg
