import P2im.Peripheral.Mmio
import P2im.Shared.CConv

set_option autoImplicit false

/-!
# Model extraction on demand

A fuzzing worker that reaches a register it has no model for exits with `PM_UNCAT_REG` or
`PM_UNMOD_SRRS`. `run_target` then has the model extracted and runs the same input again.

With the emulator's fork server the two processes talk over two pipes. AFL writes an order; the
server forks a worker and writes its pid, then the status it ended with. After a worker that
stopped for a model the server runs `me.py`, reloads the model and writes `PM_ME_EXIT`, and AFL
orders the same run again. Without the fork server AFL runs `me.py` itself, at most
`MAX_ME_INVOC_PER_CASE` times for one input, and reports the next such stop as
`MAX_ME_INVOC_PER_CASE_VIOLATION`, which it then reads as a wait status.

The system calls are taken to succeed: a read waits until its pipe holds a word, and the exits
of either process on a failed call are left out. The one exit kept is the server's when
`pm_reload_model` cannot load the file `me.py` wrote: AFL then reads the closed status pipe and
fails. Whether a file loads is left open, so a reload may go either way. AFL is taken not to be
stopping (`stop_soon` is 0), so a failed read is fatal.
-/

namespace P2im

/-- `MAX_ME_INVOC_PER_CASE` of AFL's `peri-mod.h`. -/
def maxMeInvocPerCase : Nat := 6

def maxMeInvocPerCaseViolation : Nat := 0x42

/-- `PM_ME_EXIT`, the word the fork server writes once `me.py` exits. -/
def pmMeExit : Nat := 0x50

def aup (status : Nat) : Bool :=
  CConv.wifexited status &&
    (CConv.wexitstatus status == pmUncatReg.toNat || CConv.wexitstatus status == pmUnmodSrrs.toNat)

inductive Fault where
  | none | hang | crash | error
deriving DecidableEq, Repr

/-- The options of the fuzzer that `run_target` reads. -/
structure AflConfig where
  /-- `dumb_mode == 1 || no_forkserver` -/
  noForkserver : Bool
  stopSoon : Bool
  usesAsan : Bool
  qemuMode : Nat

/-- What `run_target` returns, with the value it gives `kill_signal` (none when it leaves it) and
`doneWork_param`, which it clears on entry. -/
structure Verdict where
  fault : Fault
  killSignal : Option Nat
  doneWorkParam : Nat
deriving DecidableEq, Repr

def msanError : Nat := 86

def execFailSig : Nat := 0xfee1dead

/-- The end of `run_target`: from the status of the last worker, whether the timer killed one, and
the first word of the trace bitmap. -/
def classifyStatus (cfg : AflConfig) (status : Nat) (timedOut : Bool) (tb4 : Nat) : Verdict :=
  if timedOut then ⟨.hang, none, 0⟩
  else if CConv.wifsignaled status && !cfg.stopSoon then
    ⟨.crash, some (CConv.wtermsig status), CConv.wtermsig status + 256⟩
  else if cfg.usesAsan && CConv.wexitstatus status == msanError then ⟨.crash, some 0, 0⟩
  -- system-mode QEMU (`-QQ`): every nonzero exit is a crash
  else if 1 < cfg.qemuMode && CConv.wexitstatus status != 0 then
    ⟨.crash, none, CConv.wexitstatus status⟩
  else if cfg.noForkserver && tb4 == execFailSig then ⟨.error, none, 0⟩
  else ⟨.none, none, 0⟩

/-- `MAX_ME_INVOC_PER_CASE_VIOLATION` is no exit status: its low bits read as signal 66, so the
violation is reported as a crash by that signal unless a worker timed out or AFL is stopping. -/
theorem classifyStatus_violation (cfg : AflConfig) (tb4 : Nat) (stopping : cfg.stopSoon = false) :
    classifyStatus cfg maxMeInvocPerCaseViolation false tb4 = ⟨.crash, some 66, 322⟩ := by
  have signaled : CConv.wifsignaled 66 = true := by decide
  simp [classifyStatus, maxMeInvocPerCaseViolation, signaled, stopping, CConv.wtermsig]

/-! ## Without the fork server -/

structure Attempt where
  status : Nat
  timedOut : Bool
  tb4 : Nat

/-- The loop of `run_target` without the fork server, from the `k`-th run with `left` runs of
`me.py` still allowed; it gives the verdict and the runs of `me.py` made. `child_timed_out` is
cleared once per call, so the timeout of any run counts. -/
def dumbRuns (cfg : AflConfig) (attempts : Nat → Attempt) (k : Nat) (timedOut : Bool)
    (left : Nat) : Verdict × Nat :=
  let a := attempts k
  let timedOut := timedOut || a.timedOut
  if aup a.status then
    match left with
    | 0 => (classifyStatus cfg maxMeInvocPerCaseViolation timedOut a.tb4, k)
    | left + 1 => dumbRuns cfg attempts (k + 1) timedOut left
  else (classifyStatus cfg a.status timedOut a.tb4, k)

def runTargetDumb (cfg : AflConfig) (attempts : Nat → Attempt) : Verdict × Nat :=
  dumbRuns cfg attempts 0 false maxMeInvocPerCase

def timedOutBy (attempts : Nat → Attempt) (j : Nat) : Bool :=
  (List.range (j + 1)).any fun k => (attempts k).timedOut

theorem dumbRuns_eq (cfg : AflConfig) (attempts : Nat → Attempt) (k left : Nat) :
    dumbRuns cfg attempts k ((List.range k).any fun i => (attempts i).timedOut) left =
      match (List.range' k (left + 1)).find? (fun i => !aup (attempts i).status) with
      | some j => (classifyStatus cfg (attempts j).status (timedOutBy attempts j) (attempts j).tb4, j)
      | none => (classifyStatus cfg maxMeInvocPerCaseViolation (timedOutBy attempts (k + left))
          (attempts (k + left)).tb4, k + left) := by
  -- the flag carried into the `k`-th run is whether one of the runs before it timed out
  have carried (k : Nat) : (((List.range k).any fun i => (attempts i).timedOut) ||
      (attempts k).timedOut) = timedOutBy attempts k := by
    simp [timedOutBy, List.range_succ, List.any_append]
  induction left generalizing k with
  | zero =>
    -- the last run allowed: a stop for a model is the violation
    by_cases stopped : aup (attempts k).status <;> simp [dumbRuns, stopped, carried]
  | succ left ih =>
    rw [List.range'_succ, List.find?_cons]
    by_cases stopped : aup (attempts k).status
    · simp only [dumbRuns, stopped, if_true, carried, Bool.not_true]
      rw [show k + (left + 1) = k + 1 + left by omega, ← ih (k + 1)]
      simp [timedOutBy, List.range_succ]
    · simp [dumbRuns, stopped, carried]

/-- Without the fork server, `run_target` runs `me.py` once for each worker that stops for a
model, at most `MAX_ME_INVOC_PER_CASE` times, and classifies the status of the first worker that
stops otherwise; when the seventh worker stops for a model too, it classifies
`MAX_ME_INVOC_PER_CASE_VIOLATION` in its place. A timeout of any of the workers makes a hang. -/
theorem run_target_dumb_first_other_stop (cfg : AflConfig) (attempts : Nat → Attempt) :
    runTargetDumb cfg attempts =
      match (List.range (maxMeInvocPerCase + 1)).find? (fun k => !aup (attempts k).status) with
      | some j => (classifyStatus cfg (attempts j).status (timedOutBy attempts j) (attempts j).tb4, j)
      | none => (classifyStatus cfg maxMeInvocPerCaseViolation (timedOutBy attempts maxMeInvocPerCase)
          (attempts maxMeInvocPerCase).tb4, maxMeInvocPerCase) := by
  have start := dumbRuns_eq cfg attempts 0 maxMeInvocPerCase
  rw [runTargetDumb, List.range_eq_range']
  simpa using start

theorem seven_model_stops_crash :
    runTargetDumb ⟨true, false, false, 1⟩ (fun _ => ⟨CConv.exitedStatus 0x40, false, 0⟩) =
      (⟨.crash, some 66, 322⟩, 6) := by
  have noOther : (List.range (maxMeInvocPerCase + 1)).find?
      (fun _ => !aup (CConv.exitedStatus 0x40)) = none := by decide
  have inTime : timedOutBy (fun _ => ⟨CConv.exitedStatus 0x40, false, 0⟩) maxMeInvocPerCase = false := by
    decide
  rw [run_target_dumb_first_other_stop]
  simp only [noOther, inTime, classifyStatus_violation ⟨true, false, false, 1⟩ 0 rfl]
  rfl

/-! ## With the fork server -/

inductive AflPhase where
  /-- at `RERUN_AFTER_ME`, about to write its order -/
  | ready
  | awaitPid
  | awaitStatus
  /-- the worker stopped for a model; AFL reads the word the server writes after `me.py` -/
  | awaitMe
  /-- past the pipes, with the status it classifies -/
  | returned (status : Nat)
  /-- `FATAL` on a pid that is not positive, or `RPFATAL` on a read that finds the pipe closed -/
  | fatal
deriving DecidableEq, Repr

def AflPhase.reading : AflPhase → Bool
  | .awaitPid | .awaitStatus | .awaitMe => true
  | _ => false

inductive FsPhase where
  | awaitOrder
  /-- the `k`-th worker runs; its pid is written -/
  | childRunning (k : Nat)
  /-- the worker stopped for a model, its status is written, and `me.py` runs -/
  | extracting
  /-- `exit(0x76)` in `pm_reload_model` -/
  | exited
deriving DecidableEq, Repr

def FsPhase.running : FsPhase → Bool
  | .childRunning _ => true
  | _ => false

structure ForkState where
  afl : AflPhase
  fs : FsPhase
  ctl : List Nat
  st : List Nat
  forked : Nat
  meRuns : Nat

structure Workers where
  pid : Nat → Nat
  pid_pos : ∀ k, 0 < pid k
  status : Nat → Nat

def ForkState.init : ForkState := ⟨.ready, .awaitOrder, [], [], 0, 0⟩

/-- One step of either process; a read waits for a word in its pipe. `order` is the word AFL
writes, its `prev_timed_out`. -/
inductive ForkStep (w : Workers) (order : Nat) : ForkState → ForkState → Prop where
  | aflOrder (s : ForkState) (ready : s.afl = .ready) :
      ForkStep w order s { s with afl := .awaitPid, ctl := s.ctl ++ [order] }
  | aflPid (s : ForkState) (word : Nat) (rest : List Nat) (waiting : s.afl = .awaitPid)
      (pipe : s.st = word :: rest) :
      ForkStep w order s { s with afl := if word = 0 then .fatal else .awaitStatus, st := rest }
  | aflStatus (s : ForkState) (word : Nat) (rest : List Nat) (waiting : s.afl = .awaitStatus)
      (pipe : s.st = word :: rest) :
      ForkStep w order s { s with afl := if aup word then .awaitMe else .returned word, st := rest }
  | aflMe (s : ForkState) (word : Nat) (rest : List Nat) (waiting : s.afl = .awaitMe)
      (pipe : s.st = word :: rest) :
      -- any other word is classified as the worker's status
      ForkStep w order s
        { s with afl := if word = pmMeExit then .ready else .returned word, st := rest }
  | fsFork (s : ForkState) (word : Nat) (rest : List Nat) (waiting : s.fs = .awaitOrder)
      (pipe : s.ctl = word :: rest) :
      ForkStep w order s
        { s with
          fs := .childRunning s.forked
          ctl := rest
          st := s.st ++ [w.pid s.forked]
          forked := s.forked + 1 }
  | fsWait (s : ForkState) (k : Nat) (running : s.fs = .childRunning k) :
      ForkStep w order s
        { s with
          fs := if aup (w.status k) then .extracting else .awaitOrder
          st := s.st ++ [w.status k] }
  | fsMe (s : ForkState) (extracting : s.fs = .extracting) :
      ForkStep w order s
        { s with fs := .awaitOrder, st := s.st ++ [pmMeExit], meRuns := s.meRuns + 1 }
  | fsMeRejected (s : ForkState) (extracting : s.fs = .extracting) :
      ForkStep w order s { s with fs := .exited, meRuns := s.meRuns + 1 }
  | aflClosed (s : ForkState) (waiting : s.afl.reading) (empty : s.st = []) (gone : s.fs = .exited) :
      ForkStep w order s { s with afl := .fatal }

inductive ForkReachable (w : Workers) (order : Nat) : ForkState → Prop where
  | init : ForkReachable w order ForkState.init
  | step {s s' : ForkState} : ForkReachable w order s → ForkStep w order s s' →
      ForkReachable w order s'

/-! ## The processes in step

Each worker's run is one round: the server writes the worker's pid, its status and, after a stop
for a model, `PM_ME_EXIT`, and AFL reads them in that order. In every reachable state the status
pipe holds the words of the round the server wrote and AFL has not read yet. -/

def roundWords (w : Workers) (k : Nat) : List Nat :=
  [w.pid k, w.status k] ++ if aup (w.status k) then [pmMeExit] else []

def fsAt (w : Workers) (k : Nat) : Nat → FsPhase
  | 1 => .childRunning k
  | 2 => if aup (w.status k) then .extracting else .awaitOrder
  | _ => .awaitOrder

def aflAt (w : Workers) (k : Nat) : Nat → AflPhase
  | 0 => .awaitPid
  | 1 => .awaitStatus
  | _ => if aup (w.status k) then .awaitMe else .returned (w.status k)

inductive Sync (w : Workers) (order : Nat) : ForkState → Prop where
  | idle (n : Nat) (stopped : ∀ k < n, aup (w.status k)) :
      Sync w order ⟨.ready, .awaitOrder, [], [], n, n⟩
  | ordered (n : Nat) (stopped : ∀ k < n, aup (w.status k)) :
      Sync w order ⟨.awaitPid, .awaitOrder, [order], [], n, n⟩
  | round (k written read : Nat) (stopped : ∀ j < k, aup (w.status j)) (forked : 1 ≤ written)
      (behind : read ≤ written) (wrote : written ≤ (roundWords w k).length) (reading : read ≤ 2) :
      Sync w order ⟨aflAt w k read, fsAt w k written, [], CConv.pipe (roundWords w k) written read,
        k + 1, if written = 3 then k + 1 else k⟩
  | rejected (k read : Nat) (stopped : ∀ j < k, aup (w.status j)) (stop : aup (w.status k))
      (reading : read ≤ 2) :
      Sync w order ⟨aflAt w k read, .exited, [], CConv.pipe (roundWords w k) 2 read, k + 1, k + 1⟩
  | failed (k : Nat) (stopped : ∀ j ≤ k, aup (w.status j)) :
      Sync w order ⟨.fatal, .exited, [], [], k + 1, k + 1⟩

section Rounds

variable {w : Workers} {order : Nat}

theorem length_roundWords (w : Workers) (k : Nat) :
    (roundWords w k).length = if aup (w.status k) then 3 else 2 := by
  unfold roundWords
  split <;> rfl

theorem two_le_length_roundWords (w : Workers) (k : Nat) : 2 ≤ (roundWords w k).length := by
  rw [length_roundWords]
  split <;> omega

theorem length_roundWords_le (w : Workers) (k : Nat) : (roundWords w k).length ≤ 3 := by
  rw [length_roundWords]
  split <;> omega

theorem aflAt_eq (w : Workers) (k read : Nat) :
    aflAt w k read =
      if read = 0 then .awaitPid
      else if read = 1 then .awaitStatus
      else if aup (w.status k) then .awaitMe else .returned (w.status k) := by
  rcases read with _ | _ | read <;> simp [aflAt]

theorem fsAt_eq (w : Workers) (k written : Nat) :
    fsAt w k written =
      if written = 1 then .childRunning k
      else if written = 2 ∧ aup (w.status k) then .extracting else .awaitOrder := by
  rcases written with _ | _ | _ | written <;> simp [fsAt]

theorem aflAt_ne_ready (w : Workers) (k read : Nat) : aflAt w k read ≠ .ready := by
  rw [aflAt_eq]
  split_ifs <;> nofun

theorem aflAt_ne_fatal (w : Workers) (k read : Nat) : aflAt w k read ≠ .fatal := by
  rw [aflAt_eq]
  split_ifs <;> nofun

theorem aflAt_eq_awaitPid {k read : Nat} (phase : aflAt w k read = .awaitPid) : read = 0 := by
  rw [aflAt_eq] at phase
  split_ifs at phase with first
  exact first

theorem aflAt_eq_awaitStatus {k read : Nat} (phase : aflAt w k read = .awaitStatus) : read = 1 := by
  rw [aflAt_eq] at phase
  split_ifs at phase with first second
  exact second

theorem aflAt_eq_awaitMe {k read : Nat} (phase : aflAt w k read = .awaitMe) :
    2 ≤ read ∧ aup (w.status k) = true := by
  rw [aflAt_eq] at phase
  split_ifs at phase with first second stop
  exact ⟨by omega, stop⟩

theorem aflAt_eq_returned {k read v : Nat} (phase : aflAt w k read = .returned v) :
    2 ≤ read ∧ aup (w.status k) = false ∧ v = w.status k := by
  rw [aflAt_eq] at phase
  split_ifs at phase with first second stop
  exact ⟨by omega, by simpa using stop, (AflPhase.returned.inj phase).symm⟩

theorem fsAt_eq_childRunning {k written j : Nat} (phase : fsAt w k written = .childRunning j) :
    written = 1 ∧ j = k := by
  rw [fsAt_eq] at phase
  split_ifs at phase with first
  exact ⟨first, (FsPhase.childRunning.inj phase).symm⟩

theorem fsAt_eq_extracting {k written : Nat} (phase : fsAt w k written = .extracting) :
    written = 2 ∧ aup (w.status k) = true := by
  rw [fsAt_eq] at phase
  split_ifs at phase with first due
  exact due

theorem fsAt_ne_exited (w : Workers) (k written : Nat) : fsAt w k written ≠ .exited := by
  rw [fsAt_eq]
  split_ifs <;> nofun

theorem running_fsAt (w : Workers) (k written : Nat) :
    (fsAt w k written).running = (written == 1) := by
  rw [fsAt_eq]
  split_ifs with first <;> simp [FsPhase.running, first]

theorem le_of_stopped {n m : Nat} (stopped : ∀ k < n, aup (w.status k)) (stops : aup (w.status m) = false) :
    n ≤ m :=
  Nat.le_of_not_lt fun later => by simpa [stops] using stopped m later

theorem Sync.idle_of {s : ForkState} {n : Nat} (stopped : ∀ k < n, aup (w.status k))
    (afl : s.afl = .ready) (fs : s.fs = .awaitOrder) (ctl : s.ctl = []) (st : s.st = [])
    (count : s.forked = n) (me : s.meRuns = n) : Sync w order s := by
  obtain ⟨_, _, _, _, _, _⟩ := s
  simp only at afl fs ctl st count me
  subst afl fs ctl st count me
  exact .idle _ stopped

theorem Sync.round_of {s : ForkState} {k written read : Nat} (stopped : ∀ j < k, aup (w.status j))
    (forked : 1 ≤ written) (behind : read ≤ written) (wrote : written ≤ (roundWords w k).length)
    (reading : read ≤ 2) (afl : s.afl = aflAt w k read) (fs : s.fs = fsAt w k written)
    (ctl : s.ctl = []) (st : s.st = CConv.pipe (roundWords w k) written read)
    (count : s.forked = k + 1) (me : s.meRuns = if written = 3 then k + 1 else k) :
    Sync w order s := by
  obtain ⟨_, _, _, _, _, _⟩ := s
  simp only at afl fs ctl st count me
  subst afl fs ctl st count me
  exact .round k written read stopped forked behind wrote reading

theorem Sync.rejected_of {s : ForkState} {k read : Nat} (stopped : ∀ j < k, aup (w.status j))
    (stop : aup (w.status k)) (reading : read ≤ 2) (afl : s.afl = aflAt w k read)
    (fs : s.fs = .exited) (ctl : s.ctl = []) (st : s.st = CConv.pipe (roundWords w k) 2 read)
    (count : s.forked = k + 1) (me : s.meRuns = k + 1) : Sync w order s := by
  obtain ⟨_, _, _, _, _, _⟩ := s
  simp only at afl fs ctl st count me
  subst afl fs ctl st count me
  exact .rejected k read stopped stop reading

theorem pid_read {k written word : Nat} {rest : List Nat} (wrote : written ≤ (roundWords w k).length)
    (pipe : CConv.pipe (roundWords w k) written 0 = word :: rest) :
    0 < written ∧ word ≠ 0 ∧ rest = CConv.pipe (roundWords w k) written 1 := by
  obtain ⟨ahead, isPid, rest⟩ := CConv.pipe_read wrote pipe
  refine ⟨ahead, ?_, rest⟩
  rw [isPid]
  exact (w.pid_pos k).ne'

theorem status_read {k written word : Nat} {rest : List Nat} (wrote : written ≤ (roundWords w k).length)
    (pipe : CConv.pipe (roundWords w k) written 1 = word :: rest) :
    1 < written ∧ word = w.status k ∧ rest = CConv.pipe (roundWords w k) written 2 := by
  obtain ⟨ahead, isStatus, rest⟩ := CConv.pipe_read wrote pipe
  exact ⟨ahead, isStatus, rest⟩

/-! ### One step of each kind keeps the processes in step -/

variable {s : ForkState}

theorem Sync.aflOrder (sync : Sync w order s) (ready : s.afl = .ready) :
    Sync w order { s with afl := .awaitPid, ctl := s.ctl ++ [order] } := by
  cases sync with
  | idle n stopped => exact .ordered n stopped
  | ordered n stopped => cases ready
  | round k written read => exact absurd ready (aflAt_ne_ready w k read)
  | rejected k read => exact absurd ready (aflAt_ne_ready w k read)
  | failed k => cases ready

theorem Sync.aflPid {word : Nat} {rest : List Nat} (sync : Sync w order s)
    (waiting : s.afl = .awaitPid) (pipe : s.st = word :: rest) :
    Sync w order { s with afl := if word = 0 then .fatal else .awaitStatus, st := rest } := by
  cases sync with
  | idle n stopped => cases waiting
  | ordered n stopped => cases pipe
  | round k written read stopped forked behind wrote reading =>
    obtain rfl := aflAt_eq_awaitPid waiting
    obtain ⟨ahead, pid, rest⟩ := pid_read wrote pipe
    exact Sync.round_of stopped forked ahead wrote (by omega) (by simp [pid, aflAt]) rfl rfl rest
      rfl rfl
  | rejected k read stopped stop reading =>
    obtain rfl := aflAt_eq_awaitPid waiting
    obtain ⟨-, pid, rest⟩ := pid_read (two_le_length_roundWords w k) pipe
    exact Sync.rejected_of stopped stop (by omega) (by simp [pid, aflAt]) rfl rfl rest rfl rfl
  | failed k => cases waiting

theorem Sync.aflStatus {word : Nat} {rest : List Nat} (sync : Sync w order s)
    (waiting : s.afl = .awaitStatus) (pipe : s.st = word :: rest) :
    Sync w order { s with afl := if aup word then .awaitMe else .returned word, st := rest } := by
  cases sync with
  | idle n stopped => cases waiting
  | ordered n stopped => cases waiting
  | round k written read stopped forked behind wrote reading =>
    obtain rfl := aflAt_eq_awaitStatus waiting
    obtain ⟨ahead, rfl, rest⟩ := status_read wrote pipe
    exact Sync.round_of stopped forked ahead wrote (by omega) (by simp [aflAt]) rfl rfl rest rfl rfl
  | rejected k read stopped stop reading =>
    obtain rfl := aflAt_eq_awaitStatus waiting
    obtain ⟨-, rfl, rest⟩ := status_read (two_le_length_roundWords w k) pipe
    exact Sync.rejected_of stopped stop (by omega) (by simp [aflAt]) rfl rfl rest rfl rfl
  | failed k => cases waiting

theorem Sync.aflMe {word : Nat} {rest : List Nat} (sync : Sync w order s)
    (waiting : s.afl = .awaitMe) (pipe : s.st = word :: rest) :
    Sync w order { s with afl := if word = pmMeExit then .ready else .returned word, st := rest } := by
  cases sync with
  | idle n stopped => cases waiting
  | ordered n stopped => cases waiting
  | round k written read stopped forked behind wrote reading =>
    obtain ⟨late, stop⟩ := aflAt_eq_awaitMe waiting
    obtain rfl : read = 2 := by omega
    have three : (roundWords w k).length = 3 := by simp [length_roundWords, stop]
    obtain ⟨ahead, isExit, rest⟩ := CConv.pipe_read wrote pipe
    have exit : word = pmMeExit := by simpa [roundWords, stop] using isExit
    obtain rfl : written = 3 := by omega
    -- AFL read the whole round: the server waits for the order of the next one
    exact Sync.idle_of (Nat.forall_lt_succ_right.mpr ⟨stopped, stop⟩) (by simp [exit]) rfl rfl
      (by simpa using rest) rfl rfl
  | rejected k read stopped stop reading =>
    -- the server wrote no `PM_ME_EXIT`: the pipe is empty once AFL waits for it
    obtain rfl : read = 2 := by have := (aflAt_eq_awaitMe waiting).1; omega
    simp at pipe
  | failed k => cases waiting

theorem Sync.fsFork {word : Nat} {rest : List Nat} (sync : Sync w order s)
    (waiting : s.fs = .awaitOrder) (pipe : s.ctl = word :: rest) :
    Sync w order
      { s with
        fs := .childRunning s.forked
        ctl := rest
        st := s.st ++ [w.pid s.forked]
        forked := s.forked + 1 } := by
  cases sync with
  | idle n stopped => cases pipe
  | ordered n stopped =>
    obtain ⟨-, rfl⟩ := List.cons.inj pipe
    exact Sync.round_of stopped le_rfl (Nat.zero_le 1)
      (le_trans (by decide) (two_le_length_roundWords w n)) (by decide) rfl rfl rfl
      (by simp [CConv.pipe, roundWords]) rfl (by simp)
  | round k written read => cases pipe
  | rejected k read => cases waiting
  | failed k => cases waiting

theorem Sync.fsWait {k : Nat} (sync : Sync w order s) (running : s.fs = .childRunning k) :
    Sync w order
      { s with
        fs := if aup (w.status k) then .extracting else .awaitOrder
        st := s.st ++ [w.status k] } := by
  cases sync with
  | idle n stopped => cases running
  | ordered n stopped => cases running
  | round j written read stopped forked behind wrote reading =>
    obtain ⟨rfl, same⟩ := fsAt_eq_childRunning running
    subst same
    have write : CConv.pipe (roundWords w k) 2 read =
        CConv.pipe (roundWords w k) 1 read ++ [w.status k] :=
      CConv.pipe_write behind (lt_of_lt_of_le (by decide) (two_le_length_roundWords w k))
    exact Sync.round_of stopped (by decide) (by omega) (two_le_length_roundWords w k) reading rfl
      (by simp [fsAt]) rfl write.symm rfl (by simp)
  | rejected j read => cases running
  | failed j => cases running

theorem Sync.fsMe (sync : Sync w order s) (extracting : s.fs = .extracting) :
    Sync w order { s with fs := .awaitOrder, st := s.st ++ [pmMeExit], meRuns := s.meRuns + 1 } := by
  cases sync with
  | idle n stopped => cases extracting
  | ordered n stopped => cases extracting
  | round k written read stopped forked behind wrote reading =>
    obtain ⟨rfl, stop⟩ := fsAt_eq_extracting extracting
    have three : (roundWords w k).length = 3 := by simp [length_roundWords, stop]
    have last : (roundWords w k)[2] = pmMeExit := by simp [roundWords, stop]
    have write := @CConv.pipe_write _ (roundWords w k) 2 read behind (by omega)
    rw [last] at write
    exact Sync.round_of stopped (by decide) (by omega) (by omega) reading rfl (by simp [fsAt]) rfl
      write.symm rfl (by simp)
  | rejected k read => cases extracting
  | failed k => cases extracting

theorem Sync.fsMeRejected (sync : Sync w order s) (extracting : s.fs = .extracting) :
    Sync w order { s with fs := .exited, meRuns := s.meRuns + 1 } := by
  cases sync with
  | idle n stopped => cases extracting
  | ordered n stopped => cases extracting
  | round k written read stopped forked behind wrote reading =>
    obtain ⟨rfl, stop⟩ := fsAt_eq_extracting extracting
    exact Sync.rejected_of stopped stop reading rfl rfl rfl rfl rfl (by simp)
  | rejected k read => cases extracting
  | failed k => cases extracting

theorem Sync.aflClosed (sync : Sync w order s) (waiting : s.afl.reading) (empty : s.st = [])
    (gone : s.fs = .exited) : Sync w order { s with afl := .fatal } := by
  cases sync with
  | idle n stopped => cases gone
  | ordered n stopped => cases gone
  | round k written read => exact absurd gone (fsAt_ne_exited w k written)
  | rejected k read stopped stop reading =>
    -- AFL read the pid and the status before the closed pipe
    have drained := congrArg List.length empty
    simp only [CConv.length_pipe, List.length_nil] at drained
    have two := two_le_length_roundWords w k
    obtain rfl : read = 2 := by omega
    show Sync w order ⟨.fatal, .exited, [], CConv.pipe (roundWords w k) 2 2, k + 1, k + 1⟩
    rw [CConv.pipe_self]
    exact .failed k fun j le => (Nat.lt_or_eq_of_le le).elim (stopped j) fun same => same ▸ stop
  | failed k => cases waiting

theorem Sync.step {s' : ForkState} (sync : Sync w order s) (step : ForkStep w order s s') :
    Sync w order s' := by
  cases step with
  | aflOrder ready => exact sync.aflOrder ready
  | aflPid _ _ waiting pipe => exact sync.aflPid waiting pipe
  | aflStatus _ _ waiting pipe => exact sync.aflStatus waiting pipe
  | aflMe _ _ waiting pipe => exact sync.aflMe waiting pipe
  | fsFork _ _ waiting pipe => exact sync.fsFork waiting pipe
  | fsWait k running => exact sync.fsWait running
  | fsMe extracting => exact sync.fsMe extracting
  | fsMeRejected extracting => exact sync.fsMeRejected extracting
  | aflClosed waiting empty gone => exact sync.aflClosed waiting empty gone

theorem sync_of_reachable (reach : ForkReachable w order s) : Sync w order s := by
  induction reach with
  | init => exact .idle 0 fun _ below => absurd below (Nat.not_lt_zero _)
  | step _ step sync => exact sync.step step

/-! ### What the invariant says -/

theorem Sync.returned {v : Nat} (sync : Sync w order s) (ret : s.afl = .returned v) :
    ∃ k, v = w.status k ∧ aup v = false ∧ (∀ j < k, aup (w.status j)) ∧ s.meRuns = k ∧
      s.forked = k + 1 ∧ s.fs = .awaitOrder ∧ s.ctl = [] ∧ s.st = [] := by
  cases sync with
  | idle n stopped => cases ret
  | ordered n stopped => cases ret
  | round k written read stopped forked behind wrote reading =>
    obtain ⟨late, other, rfl⟩ := aflAt_eq_returned ret
    have two : (roundWords w k).length = 2 := by simp [length_roundWords, other]
    obtain rfl : read = 2 := by omega
    obtain rfl : written = 2 := by omega
    exact ⟨k, rfl, other, stopped, by simp, rfl, by simp [fsAt, other], rfl, CConv.pipe_self _ _⟩
  | rejected k read stopped stop =>
    obtain ⟨-, other, -⟩ := aflAt_eq_returned ret
    simp [stop] at other
  | failed k => cases ret

theorem Sync.fatal_exited (sync : Sync w order s) (fatal : s.afl = .fatal) : s.fs = .exited := by
  cases sync with
  | idle n stopped => cases fatal
  | ordered n stopped => cases fatal
  | round k written read => exact absurd fatal (aflAt_ne_fatal w k read)
  | rejected k read => exact absurd fatal (aflAt_ne_fatal w k read)
  | failed k => rfl

theorem Sync.no_step_of_returned {v : Nat} (sync : Sync w order s) (ret : s.afl = .returned v) :
    ¬∃ s', ForkStep w order s s' := by
  obtain ⟨k, -, -, -, -, -, fs, ctl, st⟩ := sync.returned ret
  rintro ⟨s', step⟩
  cases step <;> simp_all

theorem Sync.no_step_of_fatal (sync : Sync w order s) (fatal : s.afl = .fatal) :
    ¬∃ s', ForkStep w order s s' := by
  have gone := sync.fatal_exited fatal
  rintro ⟨s', step⟩
  cases step <;> simp_all [AflPhase.reading]

theorem Sync.progress (sync : Sync w order s) :
    (∃ v, s.afl = .returned v) ∨ s.afl = .fatal ∨ ∃ s', ForkStep w order s s' := by
  cases sync with
  | idle n stopped => exact .inr (.inr ⟨_, .aflOrder _ rfl⟩)
  | ordered n stopped => exact .inr (.inr ⟨_, .fsFork _ order [] rfl rfl⟩)
  | round k written read stopped forked behind wrote reading =>
    -- the server moves while a worker runs or `me.py` is due
    by_cases one : written = 1
    · subst one
      exact .inr (.inr ⟨_, .fsWait _ k rfl⟩)
    by_cases due : written = 2 ∧ aup (w.status k) = true
    · obtain ⟨rfl, stop⟩ := due
      exact .inr (.inr ⟨_, .fsMe _ (by simp [fsAt, stop])⟩)
    by_cases done : read = 2 ∧ aup (w.status k) = false
    · obtain ⟨rfl, other⟩ := done
      exact .inl ⟨w.status k, by simp [aflAt, other]⟩
    -- the server waits, so AFL has not read the whole of what it wrote
    have most := wrote.trans (length_roundWords_le w k)
    have ahead : read < written := by
      have size := length_roundWords w k
      cases stop : aup (w.status k) <;> simp [stop] at due done size <;> omega
    have word := CConv.pipe_cons ahead wrote
    rcases (by omega : read = 0 ∨ read = 1 ∨ read = 2) with rfl | rfl | rfl
    · exact .inr (.inr ⟨_, .aflPid _ _ _ rfl word⟩)
    · exact .inr (.inr ⟨_, .aflStatus _ _ _ rfl word⟩)
    · have stop : aup (w.status k) = true := by simpa using done
      exact .inr (.inr ⟨_, .aflMe _ _ _ (by simp [aflAt, stop]) word⟩)
  | rejected k read stopped stop reading =>
    -- AFL reads the pid and the status left in the pipe, then finds it closed
    have two := two_le_length_roundWords w k
    rcases (by omega : read = 0 ∨ read = 1 ∨ read = 2) with rfl | rfl | rfl
    · exact .inr (.inr ⟨_, .aflPid _ _ _ rfl (CConv.pipe_cons (by decide) two)⟩)
    · exact .inr (.inr ⟨_, .aflStatus _ _ _ rfl (CConv.pipe_cons (by decide) two)⟩)
    · exact .inr (.inr ⟨_, .aflClosed _ (by simp [aflAt, stop, AflPhase.reading])
        (CConv.pipe_self _ _) rfl⟩)
  | failed k => exact .inr (.inl rfl)

/-! ### Every run ends once a worker does not stop for a model -/

def ForkState.moved (s : ForkState) : Int :=
  let written : Int := 2 * s.forked - (if s.fs.running then 1 else 0) + s.meRuns
  (s.forked + s.ctl.length) + s.forked + written + (written - s.st.length) +
    (if s.afl = .fatal then 1 else 0)

theorem moved_lt {s' : ForkState} (step : ForkStep w order s s') : s.moved < s'.moved := by
  cases step with
  | aflOrder ready => simp [ForkState.moved, ready]
  | aflPid word _ waiting pipe =>
    -- a pid of 0 also makes AFL fail
    by_cases zero : word = 0
    · simp [ForkState.moved, waiting, pipe, zero]
      omega
    · simp [ForkState.moved, waiting, pipe, zero]
  | aflStatus word _ waiting pipe =>
    by_cases stop : aup word <;> simp [ForkState.moved, waiting, pipe, stop]
  | aflMe word _ waiting pipe =>
    by_cases exit : word = pmMeExit <;> simp [ForkState.moved, waiting, pipe, exit]
  | fsFork _ _ waiting pipe =>
    simp [ForkState.moved, waiting, pipe, FsPhase.running]
    omega
  | fsWait k running =>
    by_cases stop : aup (w.status k) <;> simp [ForkState.moved, running, stop, FsPhase.running] <;>
      omega
  | fsMe extracting =>
    simp [ForkState.moved, extracting, FsPhase.running]
    omega
  | fsMeRejected extracting =>
    simp [ForkState.moved, extracting, FsPhase.running]
    omega
  | aflClosed waiting empty gone =>
    have reading : s.afl ≠ .fatal := fun fatal => by simp [fatal, AflPhase.reading] at waiting
    simp [ForkState.moved, reading]

theorem Sync.moved_le {m : Nat} (sync : Sync w order s) (stops : aup (w.status m) = false) :
    s.moved ≤ 8 * m + 7 := by
  cases sync with
  | idle n stopped =>
    have before := le_of_stopped stopped stops
    simp [ForkState.moved, FsPhase.running]
    omega
  | ordered n stopped =>
    have before := le_of_stopped stopped stops
    simp [ForkState.moved, FsPhase.running]
    omega
  | round k written read stopped forked behind wrote reading =>
    have before := le_of_stopped stopped stops
    have most := wrote.trans (length_roundWords_le w k)
    have working := aflAt_ne_fatal w k read
    simp only [ForkState.moved, running_fsAt, CConv.length_pipe, Nat.min_eq_left wrote, working]
    split_ifs <;> simp_all <;> omega
  | rejected k read stopped stop reading =>
    have before := le_of_stopped (Nat.forall_lt_succ_right.mpr ⟨stopped, stop⟩) stops
    have two := two_le_length_roundWords w k
    have working := aflAt_ne_fatal w k read
    simp only [ForkState.moved, FsPhase.running, CConv.length_pipe, Nat.min_eq_left two, working]
    simp
    omega
  | failed k stopped =>
    have before := le_of_stopped (fun j lt => stopped j (Nat.le_of_lt_succ lt)) stops
    simp [ForkState.moved, FsPhase.running]
    omega

end Rounds

/-! ## What a call of `run_target` does with the fork server -/

section Calls

variable (w : Workers) (order : Nat)

theorem reachable_status {n : Nat}
    (reach : ForkReachable w order ⟨.ready, .awaitOrder, [], [], n, n⟩) :
    ForkReachable w order ⟨.awaitStatus, fsAt w n 2, [], [w.status n], n + 1, n⟩ := by
  -- AFL's order, the fork, the read of the pid and the wait for the worker
  have ordered := reach.step (.aflOrder _ rfl)
  have forked := ordered.step (.fsFork _ order [] rfl rfl)
  have pidRead := forked.step (.aflPid _ (w.pid n) [] rfl rfl)
  have waited := pidRead.step (.fsWait _ n rfl)
  simpa [(w.pid_pos n).ne', fsAt] using waited

theorem reachable_next_round {n : Nat}
    (reach : ForkReachable w order ⟨.ready, .awaitOrder, [], [], n, n⟩) (stop : aup (w.status n)) :
    ForkReachable w order ⟨.ready, .awaitOrder, [], [], n + 1, n + 1⟩ := by
  have statusRead := (reachable_status w order reach).step (.aflStatus _ (w.status n) [] rfl rfl)
  have extracted := statusRead.step (.fsMe _ (by simp [fsAt, stop]))
  have exited := extracted.step (.aflMe _ pmMeExit [] (by simp [stop]) rfl)
  simpa [fsAt, stop] using exited

theorem reachable_return {n : Nat}
    (reach : ForkReachable w order ⟨.ready, .awaitOrder, [], [], n, n⟩)
    (other : aup (w.status n) = false) :
    ForkReachable w order ⟨.returned (w.status n), .awaitOrder, [], [], n + 1, n⟩ := by
  have statusRead := (reachable_status w order reach).step (.aflStatus _ (w.status n) [] rfl rfl)
  simpa [fsAt, other] using statusRead

def exitingWorkers (code : Nat) : Workers :=
  ⟨fun k => k + 1, fun k => Nat.succ_pos k, fun _ => CConv.exitedStatus code⟩

theorem reachable_failed {n : Nat}
    (reach : ForkReachable w order ⟨.ready, .awaitOrder, [], [], n, n⟩) (stop : aup (w.status n)) :
    ForkReachable w order ⟨.fatal, .exited, [], [], n + 1, n + 1⟩ := by
  -- the reload is rejected while AFL waits for the status, which it reads before the closed pipe
  have rejected := (reachable_status w order reach).step (.fsMeRejected _ (by simp [fsAt, stop]))
  have statusRead := rejected.step (.aflStatus _ (w.status n) [] rfl rfl)
  have closed := statusRead.step (.aflClosed _ (by simp [stop, AflPhase.reading]) rfl rfl)
  simpa using closed

/-- AFL fails only after the server exited on a rejected reload, and the processes stop exactly
when AFL has returned or failed; so in a run whose reloads succeed AFL never fails, and the
processes stop only once it returned. -/
theorem fork_server_stops_only_returned_or_failed (s : ForkState) (reach : ForkReachable w order s) :
    (s.afl = .fatal → s.fs = .exited) ∧
      ((¬∃ s', ForkStep w order s s') ↔ (∃ v, s.afl = .returned v) ∨ s.afl = .fatal) := by
  have sync := sync_of_reachable reach
  refine ⟨sync.fatal_exited, fun stuck => ?_, ?_⟩
  · rcases sync.progress with returned | fatal | moves
    · exact .inl returned
    · exact .inr fatal
    · exact absurd moves stuck
  · rintro (⟨v, ret⟩ | fatal)
    · exact sync.no_step_of_returned ret
    · exact sync.no_step_of_fatal fatal

theorem rejected_reload_fails :
    ForkReachable (exitingWorkers 0x40) 0 ⟨.fatal, .exited, [], [], 1, 1⟩ ∧
      ((AflPhase.fatal = .fatal → FsPhase.exited = .exited) ∧
        ((¬∃ s', ForkStep (exitingWorkers 0x40) 0 ⟨.fatal, .exited, [], [], 1, 1⟩ s') ↔
          (∃ v, AflPhase.fatal = .returned v) ∨ AflPhase.fatal = .fatal)) := by
  have reach : ForkReachable (exitingWorkers 0x40) 0 ⟨.fatal, .exited, [], [], 1, 1⟩ :=
    reachable_failed _ _ .init (show aup (CConv.exitedStatus 0x40) = true by decide)
  exact ⟨reach, fork_server_stops_only_returned_or_failed _ _ _ reach⟩

/-- AFL returns with the status of the first worker that did not stop for a model: every worker
before it stopped for one and was followed by one run of `me.py`, and when AFL returns the
server waits for an order with both pipes empty. -/
theorem fork_server_returns_first_other_status (s : ForkState) (v : Nat)
    (reach : ForkReachable w order s) (ret : s.afl = .returned v) :
    ∃ k, v = w.status k ∧ aup v = false ∧ (∀ j < k, aup (w.status j)) ∧ s.meRuns = k ∧
      s.forked = k + 1 ∧ s.fs = .awaitOrder ∧ s.ctl = [] ∧ s.st = [] :=
  (sync_of_reachable reach).returned ret

theorem first_exit_returned :
    ForkReachable (exitingWorkers 0) 0
        ⟨.returned ((exitingWorkers 0).status 0), .awaitOrder, [], [], 1, 0⟩ ∧
      ∃ k, (exitingWorkers 0).status 0 = (exitingWorkers 0).status k ∧
        aup ((exitingWorkers 0).status 0) = false ∧
        (∀ j < k, aup ((exitingWorkers 0).status j)) ∧ 0 = k ∧ 1 = k + 1 ∧
        FsPhase.awaitOrder = .awaitOrder ∧ ([] : List Nat) = [] ∧ ([] : List Nat) = [] := by
  have reach : ForkReachable (exitingWorkers 0) 0
      ⟨.returned ((exitingWorkers 0).status 0), .awaitOrder, [], [], 1, 0⟩ :=
    reachable_return _ _ .init rfl
  exact ⟨reach, fork_server_returns_first_other_status _ _ _ _ reach rfl⟩

/-- Once a worker does not stop for a model, every run of the two processes ends: no run from the
start of the call takes a step without end. -/
theorem fork_server_run_ends (m : Nat) (stops : aup (w.status m) = false) :
    WellFounded fun s' s => ForkReachable w order s ∧ ForkStep w order s s' := by
  -- every step moves a word, and the words a reachable state has moved are bounded
  refine Subrelation.wf ?_ (measure fun s : ForkState => (8 * m + 7 - s.moved).toNat).wf
  rintro s' s ⟨reach, step⟩
  have more := moved_lt step
  have within := (sync_of_reachable (reach.step step)).moved_le stops
  show (8 * m + 7 - s'.moved).toNat < (8 * m + 7 - s.moved).toNat
  omega

theorem exit_zero_run_ends :
    aup ((exitingWorkers 0).status 0) = false ∧
      WellFounded fun s' s => ForkReachable (exitingWorkers 0) 0 s ∧ ForkStep (exitingWorkers 0) 0 s s' :=
  ⟨rfl, fork_server_run_ends _ _ 0 rfl⟩

/-- With the fork server nothing bounds the runs of `me.py` for one input: when every worker stops
for a model, the processes reach the start of a round after any number of them, and AFL never
returns. -/
theorem fork_server_extracts_without_end (allStop : ∀ k, aup (w.status k)) :
    (∀ n, ForkReachable w order ⟨.ready, .awaitOrder, [], [], n, n⟩) ∧
      ∀ s, ForkReachable w order s → ∀ v, s.afl ≠ .returned v := by
  constructor
  · intro n
    induction n with
    | zero => exact .init
    | succ n ih => exact reachable_next_round w order ih (allStop n)
  · intro s reach v ret
    obtain ⟨k, rfl, other, -⟩ := (sync_of_reachable reach).returned ret
    simp [allStop] at other

theorem uncat_reg_extracts_without_end :
    (∀ k, aup ((exitingWorkers 0x40).status k)) ∧
      (∀ n, ForkReachable (exitingWorkers 0x40) 0 ⟨.ready, .awaitOrder, [], [], n, n⟩) ∧
        ∀ s, ForkReachable (exitingWorkers 0x40) 0 s → ∀ v, s.afl ≠ .returned v := by
  have stop : ∀ k, aup ((exitingWorkers 0x40).status k) := fun _ =>
    show aup (CConv.exitedStatus 0x40) = true by decide
  exact ⟨stop, fork_server_extracts_without_end _ _ stop⟩

end Calls

end P2im
