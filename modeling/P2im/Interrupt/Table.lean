import P2im.Shared.Cyclic
import P2im.Shared.Halt

set_option autoImplicit false

/-!
# The modelled-interrupt table

`hw/arm/pm_interrupt.c`: the exception numbers the firmware enabled, and the round robin
that fires one of them at a time.
-/

namespace P2im.Interrupt

def pmMaxIntEnNum : Nat := 16

structure PmInt where
  intNum : Int
  enabled : Bool
deriving DecidableEq, Repr

/-- `arr` holds `arr[0 .. arr_size)`. -/
structure PmInterrupt where
  arr : List PmInt
  curInt : Int
deriving DecidableEq, Repr

def PmInterrupt.init : PmInterrupt := ⟨[], 0⟩

def matchesExcp (excpNum : Int) (x : PmInt) : Bool := x.intNum == excpNum

def pmEnableInterrupt (t : PmInterrupt) (excpNum : Int) : Except Halt PmInterrupt :=
  match t.arr.findIdx? (matchesExcp excpNum) with
  | some i => .ok { t with arr := t.arr.modify i fun x => { x with enabled := true } }
  | none =>
    -- not found: insert, unless the table is full
    if pmMaxIntEnNum ≤ t.arr.length then .error (.exit 0x77)
    else .ok { t with arr := t.arr ++ [⟨excpNum, true⟩] }

def pmDisableInterrupt (t : PmInterrupt) (excpNum : Int) : PmInterrupt :=
  match t.arr.findIdx? (matchesExcp excpNum) with
  | some i => { t with arr := t.arr.modify i fun x => { x with enabled := false } }
  | none => t

/-- The loop of `pm_fire_interrupt` from iteration `i` with `k` iterations left: the index and
exception number it fires, if any, and `int_round`. -/
def fireLoop (arr : List PmInt) (curInt : Int) (i : Nat) (intRound : Int) :
    Nat → Except Halt (Option (Nat × Int) × Int)
  | 0 => .ok (none, intRound)
  | k + 1 =>
    let idx := (curInt + i).tmod arr.length
    let intRound := if idx = arr.length - 1 then intRound + 1 else intRound
    match arr[idx.toNat]? with
    | some x =>
      if 0 ≤ idx then
        if x.enabled then .ok (some (idx.toNat, x.intNum), intRound)
        else fireLoop arr curInt (i + 1) intRound k
      else .error .undefined
    | none => .error .undefined

/-- Returns the table, `int_round`, and the exception number set pending, if any. -/
def pmFireInterrupt (t : PmInterrupt) (intRound : Int) :
    Except Halt (PmInterrupt × Int × Option Int) := do
  let (found, intRound) ← fireLoop t.arr t.curInt 0 intRound t.arr.length
  match found with
  | some (idx, excpNum) =>
    pure ({ t with curInt := ((idx : Int) + 1).tmod t.arr.length }, intRound, some excpNum)
  | none => pure (t, intRound + 1, none)

def enabledAt (arr : List PmInt) (j : Nat) : Bool := (arr[j]?.map PmInt.enabled).getD false

def intNumAt (arr : List PmInt) (j : Nat) : Int := (arr[j]?.map PmInt.intNum).getD 0

theorem enabledAt_of_lt {arr : List PmInt} {j : Nat} (bound : j < arr.length) :
    enabledAt arr j = arr[j].enabled := by
  simp [enabledAt, List.getElem?_eq_getElem bound]

theorem intNumAt_of_lt {arr : List PmInt} {j : Nat} (bound : j < arr.length) :
    intNumAt arr j = arr[j].intNum := by
  simp [intNumAt, List.getElem?_eq_getElem bound]

theorem map_intNum_modify (arr : List PmInt) (i : Nat) (b : Bool) :
    (arr.modify i fun x => { x with enabled := b }).map PmInt.intNum = arr.map PmInt.intNum := by
  apply List.ext_getElem (by simp)
  intro j _ _
  simp only [List.getElem_map, List.getElem_modify]
  split <;> rfl

theorem tmod_natCast (c i n : Nat) : ((c : Int) + i).tmod n = (((c + i) % n : Nat) : Int) := by
  rw [Int.ofNat_tmod]; push_cast; rfl

theorem fireLoop_eq (arr : List PmInt) (c i k : Nat) (intRound : Int) (pos : 0 < arr.length) :
    ∃ intRound', fireLoop arr c i intRound k =
      .ok ((Cyclic.firstFrom (enabledAt arr) arr.length c i k).map
        (fun j => (j, intNumAt arr j)), intRound') := by
  induction k generalizing i intRound with
  | zero => exact ⟨intRound, rfl⟩
  | succ k ih =>
    have bound : (c + i) % arr.length < arr.length := Nat.mod_lt _ pos
    simp only [fireLoop, tmod_natCast, Int.toNat_natCast, List.getElem?_eq_getElem bound,
      Int.natCast_nonneg, if_true, Cyclic.firstFrom, enabledAt_of_lt bound]
    split
    next => exact ⟨_, by rw [Option.map_some, intNumAt_of_lt bound]⟩
    next => exact ih _ _

theorem pmFireInterrupt_of_some {t : PmInterrupt} {c g : Nat} {intRound : Int}
    (pos : 0 < t.arr.length) (cursor : t.curInt = c)
    (found : Cyclic.firstFrom (enabledAt t.arr) t.arr.length c 0 t.arr.length = some g) :
    ∃ intRound', pmFireInterrupt t intRound =
      .ok ({ t with curInt := ((g + 1) % t.arr.length : Nat) }, intRound', some (intNumAt t.arr g)) := by
  obtain ⟨intRound', loop⟩ := fireLoop_eq t.arr c 0 t.arr.length intRound pos
  rw [found] at loop
  refine ⟨intRound', ?_⟩
  simp only [pmFireInterrupt, cursor, loop, Except.ok_bind, Option.map_some]
  rw [← Int.natCast_one, ← Int.natCast_add, Int.ofNat_tmod]
  rfl

theorem pmFireInterrupt_of_none {t : PmInterrupt} {c : Nat} {intRound : Int}
    (pos : 0 < t.arr.length) (cursor : t.curInt = c)
    (missing : Cyclic.firstFrom (enabledAt t.arr) t.arr.length c 0 t.arr.length = none) :
    ∃ intRound', pmFireInterrupt t intRound = .ok (t, intRound', none) := by
  obtain ⟨intRound', loop⟩ := fireLoop_eq t.arr c 0 t.arr.length intRound pos
  rw [missing] at loop
  exact ⟨intRound' + 1, by simp [pmFireInterrupt, cursor, loop]⟩

theorem pmFireInterrupt_empty {t : PmInterrupt} {intRound : Int} (empty : t.arr = []) :
    pmFireInterrupt t intRound = .ok (t, intRound + 1, none) := by
  simp [pmFireInterrupt, empty, fireLoop]

theorem pmEnableInterrupt_cases {t t' : PmInterrupt} {excpNum : Int}
    (ok : pmEnableInterrupt t excpNum = .ok t') :
    t'.curInt = t.curInt ∧
      ((excpNum ∈ t.arr.map PmInt.intNum ∧ t'.arr.map PmInt.intNum = t.arr.map PmInt.intNum) ∨
        (excpNum ∉ t.arr.map PmInt.intNum ∧ t.arr.length < pmMaxIntEnNum ∧
          t'.arr = t.arr ++ [⟨excpNum, true⟩])) := by
  unfold pmEnableInterrupt at ok
  split at ok
  next i found =>
    cases ok
    obtain ⟨bound, hit, -⟩ := List.findIdx?_eq_some_iff_getElem.mp found
    refine ⟨rfl, .inl ⟨List.mem_map.mpr ⟨t.arr[i], List.getElem_mem bound, ?_⟩,
      map_intNum_modify _ _ _⟩⟩
    simpa [matchesExcp] using hit
  next missing =>
    split at ok
    next => cases ok
    next room =>
      cases ok
      refine ⟨rfl, .inr ⟨fun mem => ?_, by omega, rfl⟩⟩
      obtain ⟨x, member, same⟩ := List.mem_map.mp mem
      have := List.findIdx?_eq_none_iff.mp missing x member
      simp [matchesExcp, same] at this

theorem pmDisableInterrupt_intNums (t : PmInterrupt) (excpNum : Int) :
    (pmDisableInterrupt t excpNum).arr.map PmInt.intNum = t.arr.map PmInt.intNum ∧
      (pmDisableInterrupt t excpNum).curInt = t.curInt := by
  unfold pmDisableInterrupt
  split
  · exact ⟨map_intNum_modify _ _ _, rfl⟩
  · exact ⟨rfl, rfl⟩

inductive IntCall where
  | enable (excpNum : Int)
  | disable (excpNum : Int)
  | fire
deriving DecidableEq, Repr

structure IntState where
  table : PmInterrupt
  intRound : Int
deriving DecidableEq, Repr

def IntState.init : IntState := ⟨PmInterrupt.init, 0⟩

def intStep (s : IntState) : IntCall → Except Halt (IntState × Option Int)
  | .enable excpNum => do
    let table ← pmEnableInterrupt s.table excpNum
    pure ({ s with table }, none)
  | .disable excpNum => pure ({ s with table := pmDisableInterrupt s.table excpNum }, none)
  | .fire => do
    let (table, intRound, fired) ← pmFireInterrupt s.table s.intRound
    pure (⟨table, intRound⟩, fired)

def intRun (s : IntState) : List IntCall → Except Halt (IntState × List (Option Int))
  | [] => .ok (s, [])
  | call :: calls => do
    let (s, fired) ← intStep s call
    let (s, rest) ← intRun s calls
    pure (s, fired :: rest)

inductive Reachable : IntState → Prop where
  | init : Reachable IntState.init
  | step {s s' : IntState} {call : IntCall} {fired : Option Int} :
      Reachable s → intStep s call = .ok (s', fired) → Reachable s'

end P2im.Interrupt
