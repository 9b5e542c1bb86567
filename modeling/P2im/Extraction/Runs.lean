import P2im.Shared.Python

set_option autoImplicit false

/-!
# The emulator runs of a stage

`qemu_run` runs the emulator up to `retry_num` times and returns the first exit status the stage
expects. When none is, it prints the message `error_rv` holds for the last status and exits; but
`error_rv` has messages for stage 2 only, and only for 0x24, so for every other status the lookup
raises `KeyError` first. `stage2` runs each input of the explored SR read and keeps the status of
its run in `term_cond0`. In its second invocation it first takes from the disassembly the return
addresses of the callers of the function that reads the SR: for each call of `sr_func` it looks
for the function the call lies in.
-/

namespace P2im

/-- How the script stops: an exception of `PyError`, or `UnboundLocalError` when it reads a variable
no pass of a loop assigned. -/
inductive RunStop where
  | raised (e : PyError)
  | unboundLocal
deriving DecidableEq, Repr

/-- The stages `qemu_run` is called for: `stage1`, `stage1(redo=True)` (stage 1.1) and `stage2`. -/
inductive RunStage where
  | s1 | s11 | s2
deriving DecidableEq, Repr

/-- `rv[stage]`: the exit statuses the stage expects. -/
def RunStage.rv : RunStage → List Int
  | .s1 => [0x20, 0x19, 0x30]
  | .s2 => [0x21, 0x23]
  | .s11 => [0x20, 0x30]

/-- `error_rv[stage]`: only stage 2 has messages. -/
def RunStage.errorRv : RunStage → Except PyError (List (Int × String))
  | .s2 => .ok [(0x24, "Cannot find SR Model which is supposed to exist")]
  | .s1 => .error (.keyError "1")
  | .s11 => .error (.keyError "1.1")

/-- The `while` loop of `qemu_run` from run `runNum`, with `left` runs to go; `runs k` is the exit
status of the `k`-th run. It returns the first status the stage expects, or else what the loop
leaves in `ret_val`, none when it made no run. -/
def retryLoop (expected : List Int) (runs : Nat → Int) (retVal : Option Int) (runNum : Nat) :
    Nat → Int ⊕ Option Int
  | 0 => .inr retVal
  | left + 1 =>
    if runs runNum ∈ expected then .inl (runs runNum)
    else retryLoop expected runs (some (runs runNum)) (runNum + 1) left

/-- `qemu_run(cmd, retry_num, stage)`, the runs of `cmd` given by their exit statuses. -/
def qemuRun (runs : Nat → Int) (retryNum : Int) (stage : RunStage) : Except RunStop Int :=
  match retryLoop stage.rv runs none 0 retryNum.toNat with
  | .inl retVal => .ok retVal
  | .inr last => do
    let messages ← stage.errorRv.mapError .raised
    let retVal ← match last with
      | some v => pure v
      | none => throw .unboundLocal
    let _ ← (Python.key (String.ofList (Printf.decimal retVal)) (messages.lookup retVal)).mapError .raised
    throw (.raised .systemExit)

/-- The loop of `stage2` over the inputs, `term_cond0[fname] = qemu_run(cmd, cfg.retry_num, stage)`;
`runs fname k` is the exit status of the `k`-th run on the input `fname`. -/
def stage2Runs (runs : List Char → Nat → Int) (retryNum : Int) (fnameL : List (List Char)) :
    Except RunStop (List (List Char × Int)) :=
  fnameL.foldlM (fun termCond0 fname => do
    let retVal ← qemuRun (runs fname) retryNum .s2
    pure (Python.setItem fname retVal termCond0)) []

/-- `for i in range(0, len(func_l)): if int(func_l[i][0], 16) > int(cs1, 16): break`, from index
`i`: the index it breaks at, none when it runs out. -/
def breakIndex (cs1 : Nat) (i : Nat) : List (Nat × String) → Option Nat
  | [] => none
  | f :: rest => if f.1 > cs1 then some i else breakIndex cs1 (i + 1) rest

/-- `func_name = func_l[i-1][1]` after that loop: `i` is where it broke, or the last index when it
ran out; it is unbound when `func_l` is empty. -/
def callerOf (funcL : List (Nat × String)) (cs1 : Nat) : Except RunStop String :=
  if funcL = [] then .error .unboundLocal
  else
    let i := (breakIndex cs1 0 funcL).getD (funcL.length - 1)
    (Python.index (funcL.map Prod.snd) ((i : Int) - 1)).mapError .raised

/-- `sr_func_ret_addr` of the second invocation of `stage2`: the addresses after the calls to each
function a call of `sr_func` lies in. `func_l` holds the functions of the disassembly by start
address, and `callsites name` the addresses after the calls to `name`, in order. -/
def srFuncRetAddr (funcL : List (Nat × String)) (callsites : String → List Nat) (srFunc : String) :
    Except RunStop (List Nat) :=
  (callsites srFunc).foldlM (fun callsites2 cs1 => do
    let funcName ← callerOf funcL cs1
    pure (callsites2 ++ callsites funcName)) []

/-! ## The retries -/

theorem retryLoop_eq (expected : List Int) (runs : Nat → Int) (retVal : Option Int) (runNum left : Nat) :
    retryLoop expected runs retVal runNum left =
      match (List.range' runNum left).find? (fun k => runs k ∈ expected) with
      | some k => .inl (runs k)
      | none => .inr (if left = 0 then retVal else some (runs (runNum + left - 1))) := by
  induction left generalizing retVal runNum with
  | zero => rfl
  | succ left ih =>
    rw [List.range'_succ, List.find?_cons]
    by_cases hit : runs runNum ∈ expected
    · simp [retryLoop, hit]
    · rw [retryLoop, if_neg hit, ih]
      simp only [hit, decide_false]
      -- the status left behind is that of the run before the next, when there is no next
      cases (List.range' (runNum + 1) left).find? (fun k => runs k ∈ expected) with
      | some k => rfl
      | none =>
        rcases Nat.eq_zero_or_pos left with rfl | more
        · simp
        · simp only [Nat.add_one_ne_zero, if_false, Nat.pos_iff_ne_zero.mp more]
          congr 3
          omega

theorem qemuRun_ok (runs : Nat → Int) (retryNum : Int) (stage : RunStage)
    (some_expected : ∃ k < retryNum.toNat, runs k ∈ stage.rv) :
    ∃ k < retryNum.toNat, qemuRun runs retryNum stage = .ok (runs k) ∧ runs k ∈ stage.rv ∧
      ∀ j < k, runs j ∉ stage.rv := by
  obtain ⟨n, below, hit⟩ := some_expected
  have found : ((List.range' 0 retryNum.toNat).find? fun k => runs k ∈ stage.rv).isSome := by
    rw [List.find?_isSome]
    exact ⟨n, List.mem_range'.mpr ⟨n, below, by omega⟩, by simpa using hit⟩
  obtain ⟨k, first⟩ := Option.isSome_iff_exists.mp found
  obtain ⟨hitK, inRange, before⟩ := List.find?_range'_eq_some.mp first
  obtain ⟨-, inside⟩ := List.mem_range'_1.mp inRange
  refine ⟨k, by omega, ?_, by simpa using hitK, fun j earlier => by simpa using before j (by omega) earlier⟩
  rw [qemuRun, retryLoop_eq, first]

/-- `qemu_run` returns the status of the first run, among the first `retry_num`, that the stage
expects. Otherwise it stops the script: with `SystemExit` only in stage 2 after a last run that
exited with 0x24; with `KeyError` for every other last status of stage 2, and for every status of
stage 1, which `error_rv` has no entry for; and with `UnboundLocalError` in stage 2 when
`retry_num` allowed no run. -/
theorem qemu_run_first_expected_status (runs : Nat → Int) (retryNum : Int) (stage : RunStage) :
    qemuRun runs retryNum stage =
      match (List.range retryNum.toNat).find? (fun k => runs k ∈ stage.rv) with
      | some k => .ok (runs k)
      | none =>
        if stage = .s1 then .error (.raised (.keyError "1"))
        else if stage = .s11 then .error (.raised (.keyError "1.1"))
        else if retryNum ≤ 0 then .error .unboundLocal
        else if runs (retryNum.toNat - 1) = 0x24 then .error (.raised .systemExit)
        else .error (.raised (.keyError (String.ofList (Printf.decimal (runs (retryNum.toNat - 1)))))) := by
  rw [qemuRun, retryLoop_eq, List.range_eq_range']
  cases (List.range' 0 retryNum.toNat).find? (fun k => runs k ∈ stage.rv) with
  | some k => rfl
  | none =>
    cases stage with
    | s1 => rfl
    | s11 => rfl
    | s2 =>
      by_cases noRun : retryNum ≤ 0
      · have zero : retryNum.toNat = 0 := by omega
        simp [zero, noRun, RunStage.errorRv]
        rfl
      · have some : retryNum.toNat ≠ 0 := by omega
        by_cases exit : runs (retryNum.toNat - 1) = 0x24
        · simp [some, noRun, exit, RunStage.errorRv, Python.key]
          rfl
        · have other : (runs (retryNum.toNat - 1) == 0x24) = false := beq_false_of_ne exit
          simp [some, noRun, exit, RunStage.errorRv, Python.key, List.lookup, other]

theorem qemu_run_watchdog_then_return :
    qemuRun (fun k => if k = 0 then 0x24 else 0x21) 3 .s2 = .ok 0x21 ∧
      qemuRun (fun _ => 0x24) 3 .s2 = .error (.raised .systemExit) ∧
      qemuRun (fun _ => 0x24) 3 .s1 = .error (.raised (.keyError "1")) := by
  rw [qemu_run_first_expected_status, qemu_run_first_expected_status, qemu_run_first_expected_status]
  exact ⟨rfl, rfl, rfl⟩

/-! ## The runs of `stage2` -/

/-- When each input has a run, among the first `retry_num`, that returned or hung, the loop of
`stage2` completes, and `term_cond0` holds for each input the status of the first such run: 0x21
or 0x23, the statuses the inference of `stage2_5` reads. -/
theorem stage2_keeps_first_returned_or_hung (runs : List Char → Nat → Int) (retryNum : Int)
    (fnameL : List (List Char))
    (expected : ∀ f ∈ fnameL, ∃ k < retryNum.toNat, runs f k = 0x21 ∨ runs f k = 0x23) :
    ∃ termCond0, stage2Runs runs retryNum fnameL = .ok termCond0 ∧
      ∀ f ∈ fnameL, ∃ k < retryNum.toNat, termCond0.lookup f = some (runs f k) ∧
        (runs f k = 0x21 ∨ runs f k = 0x23) ∧ ∀ j < k, runs f j ≠ 0x21 ∧ runs f j ≠ 0x23 := by
  -- the run of each input returns the status of its first expected run
  have first : ∀ f ∈ fnameL, ∃ k < retryNum.toNat, qemuRun (runs f) retryNum .s2 = .ok (runs f k) ∧
      runs f k ∈ RunStage.s2.rv ∧ ∀ j < k, runs f j ∉ RunStage.s2.rv := fun f mem => by
    obtain ⟨k, below, status⟩ := expected f mem
    exact qemuRun_ok (runs f) retryNum .s2 ⟨k, below, by simpa [RunStage.rv] using status⟩
  choose! firstRun bound ran hit before using first
  refine ⟨fnameL.foldl (fun d f => Python.setItem f (runs f (firstRun f)) d) [], ?_, fun f mem => ?_⟩
  · exact Python.foldlM_bind_eq fnameL [] ran
  · refine ⟨firstRun f, bound f mem, Python.lookup_foldl_setItem _ [] mem, ?_, fun j earlier => ?_⟩
    · simpa [RunStage.rv] using hit f mem
    · simpa [RunStage.rv] using before f mem j earlier

def retriedReturn (_ : List Char) (k : Nat) : Int := if k = 0 then 0x24 else 0x21

theorem second_run_returns :
    (∀ f ∈ ["bit:05".toList], ∃ k < (2 : Int).toNat, retriedReturn f k = 0x21 ∨ retriedReturn f k = 0x23) ∧
      ∃ termCond0, stage2Runs retriedReturn 2 ["bit:05".toList] = .ok termCond0 ∧
        ∀ f ∈ ["bit:05".toList], ∃ k < (2 : Int).toNat, termCond0.lookup f = some (retriedReturn f k) ∧
          (retriedReturn f k = 0x21 ∨ retriedReturn f k = 0x23) ∧
          ∀ j < k, retriedReturn f j ≠ 0x21 ∧ retriedReturn f j ≠ 0x23 := by
  have expected : ∀ f ∈ ["bit:05".toList], ∃ k < (2 : Int).toNat,
      retriedReturn f k = 0x21 ∨ retriedReturn f k = 0x23 :=
    fun _ _ => ⟨1, by decide, by simp [retriedReturn]⟩
  exact ⟨expected, stage2_keeps_first_returned_or_hung retriedReturn 2 _ expected⟩

/-! ## The function a call lies in -/

theorem breakIndex_append (cs1 i : Nat) {xs : List (Nat × String)} (below : ∀ h ∈ xs, h.1 ≤ cs1)
    (ys : List (Nat × String)) : breakIndex cs1 i (xs ++ ys) = breakIndex cs1 (i + xs.length) ys := by
  induction xs generalizing i with
  | nil => rfl
  | cons h rest ih =>
    have low : ¬ h.1 > cs1 := Nat.not_lt.mpr (below h List.mem_cons_self)
    rw [List.cons_append, breakIndex, if_neg low, ih _ fun g mem => below g (List.mem_cons_of_mem h mem),
      List.length_cons, Nat.add_assoc, Nat.add_comm 1]

theorem index_names_of_lt (funcL : List (Nat × String)) {i : Nat} (inside : i < funcL.length) :
    Python.index (funcL.map Prod.snd) (((i + 1 : Nat) : Int) - 1) = .ok funcL[i].2 := by
  have position : (((i + 1 : Nat) : Int) - 1) = ((i : Nat) : Int) := by omega
  rw [position, Python.index_of_lt (by simpa using inside), List.getElem_map]

/-- In a disassembly whose functions are in address order, `stage2` takes a call site to lie in
the function whose range holds it; but a site in the last function it takes to lie in the function
before, and a site below the first function in the last one. -/
theorem caller_of_call_site (funcL : List (Nat × String)) (sorted : (funcL.map Prod.fst).Pairwise (· < ·))
    (cs1 : Nat) :
    (∀ pre f g post, funcL = pre ++ f :: g :: post → f.1 ≤ cs1 → cs1 < g.1 →
      callerOf funcL cs1 = .ok f.2) ∧
    (∀ pre f g, funcL = pre ++ [f, g] → g.1 ≤ cs1 → callerOf funcL cs1 = .ok f.2) ∧
    (∀ f rest, funcL = f :: rest → cs1 < f.1 →
      callerOf funcL cs1 = .ok ((f :: rest).getLast (List.cons_ne_nil f rest)).2) := by
  -- the functions before a function start below it
  have before : ∀ pre f rest, funcL = pre ++ f :: rest → ∀ h ∈ pre, h.1 < f.1 := by
    rintro pre f rest rfl h mem
    simp only [List.map_append, List.map_cons, List.pairwise_append] at sorted
    exact sorted.2.2 h.1 (List.mem_map_of_mem mem) f.1 List.mem_cons_self
  refine ⟨fun pre f g post split low high => ?_, fun pre f g split high => ?_,
    fun f rest split high => ?_⟩
  · -- the search breaks at `g`, the function after `f`
    have below : ∀ h ∈ pre ++ [f], h.1 ≤ cs1 := by
      intro h mem
      rcases List.mem_append.mp mem with early | last
      · exact Nat.le_of_lt (Nat.lt_of_lt_of_le (before pre f (g :: post) split h early) low)
      · rw [List.mem_singleton.mp last]
        exact low
    have found : breakIndex cs1 0 funcL = some (pre.length + 1) := by
      rw [split, show pre ++ f :: g :: post = (pre ++ [f]) ++ g :: post by simp,
        breakIndex_append cs1 0 below]
      simp [breakIndex, high]
    have named : Python.index (funcL.map Prod.snd) (((pre.length + 1 : Nat) : Int) - 1) = .ok f.2 := by
      subst split
      rw [index_names_of_lt _ (by simp)]
      simp
    rw [callerOf, if_neg (by simp [split]), found, Option.getD_some]
    simp only [named]
    rfl
  · -- the search runs out, and the last index is that of `g`
    have below : ∀ h ∈ pre ++ [f, g], h.1 ≤ cs1 := by
      intro h mem
      have gFirst : f.1 < g.1 := by
        simpa using before (pre ++ [f]) g [] (by simp [split]) f (by simp)
      rcases List.mem_append.mp mem with early | last
      · exact Nat.le_of_lt (Nat.lt_of_lt_of_le (Nat.lt_trans (before pre f [g] split h early) gFirst) high)
      · rcases List.mem_pair.mp last with rfl | rfl
        · exact Nat.le_of_lt (Nat.lt_of_lt_of_le gFirst high)
        · exact high
    have ranOut : breakIndex cs1 0 funcL = none := by
      rw [split, ← List.append_nil (pre ++ [f, g]), breakIndex_append cs1 0 below]
      rfl
    have lastIndex : funcL.length - 1 = pre.length + 1 := by simp [split]
    have named : Python.index (funcL.map Prod.snd) (((pre.length + 1 : Nat) : Int) - 1) = .ok f.2 := by
      subst split
      rw [index_names_of_lt _ (by simp)]
      simp
    rw [callerOf, if_neg (by simp [split]), ranOut, Option.getD_none, lastIndex]
    simp only [named]
    rfl
  · -- the search breaks at once, and `func_l[-1]` is the last function
    have found : breakIndex cs1 0 funcL = some 0 := by simp [split, breakIndex, high]
    have last : (funcL.map Prod.snd).getLast? = some ((f :: rest).getLast (List.cons_ne_nil f rest)).2 := by
      rw [List.getLast?_map, split, List.getLast?_eq_some_getLast (List.cons_ne_nil f rest)]
      rfl
    rw [callerOf, if_neg (by simp [split]), found, Option.getD_some]
    simp only [Nat.cast_zero, zero_sub, Python.index_neg_one, last]
    rfl

theorem last_function_call_taken_before :
    ([(0x100, "main"), (0x200, "uart_getc"), (0x300, "HAL_UART_Receive")].map Prod.fst :
        List Nat).Pairwise (· < ·) ∧
      callerOf [(0x100, "main"), (0x200, "uart_getc"), (0x300, "HAL_UART_Receive")] 0x304 =
        .ok "uart_getc" :=
  ⟨by decide, (caller_of_call_site _ (by decide) 0x304).2.1 [(0x100, "main")] (0x200, "uart_getc")
    (0x300, "HAL_UART_Receive") rfl (by decide)⟩

end P2im
