import P2im.Shared.Json
import P2im.Shared.Python

set_option autoImplicit false

/-!
# Register records of the model file

`me.py` reads a model file with `json.load` and edits its dictionaries. A register's dictionary
has the members `pm_dump_model` writes, `"type"`, then `"read"` and `"write"` for every category
but UC, `"sr_locked"` for an SR or a CR_SR and `"cr_value"` for a CR or a CR_SR, or those the
script writes itself; a missing member is `none`, and reading it raises `KeyError`. Categories
are the integers of `pm_reg_type_t`: 0 UC, 1 CR, 2 SR, 3 DR, 4 CR_SR.

This module models `stage2_2`, which gives each register the category the exploration runs of
an SR read site found for it, and the adjustment of the main loop that makes an SR whose bits
no run checked a DR.
-/

namespace P2im

structure RegDict where
  type : Int
  read : Option Int
  write : Option Int
  srLocked : Option Int
  crValue : Option String
deriving DecidableEq, Repr

/-- `{"type": 0}`, which extends `old` to the length of a run's registers. -/
def RegDict.uc : RegDict := ⟨0, none, none, none, none⟩

/-- The dictionary `json.load` makes of a register object, when it has this shape. -/
def RegDict.ofJson? (j : Json) : Option RegDict := do
  let type ← j.intMember? "type"
  let read ← j.optIntMember? "read"
  let write ← j.optIntMember? "write"
  let srLocked ← j.optIntMember? "sr_locked"
  let crValue ← match j.member? "cr_value" with
    | none => some none
    | some (.str s) => some (some s)
    | some _ => none
  pure ⟨type, read, write, srLocked, crValue⟩

/-- `reg.pop("cr_value", None)`. -/
def RegDict.popCrValue (d : RegDict) : RegDict := { d with crValue := none }

/-- `rc_diff[i]["new"]` with the record of one more run that differs from `old[i]`: it joins the
records unless an equal one is there already. The file names kept with each are left out. -/
def addNew (news : List RegDict) (new : RegDict) : List RegDict :=
  if new ∈ news then news else news ++ [new]

/-- The comparison of one run's registers with `old`, from some register on: `old` and `rc_diff`
from that register, and the run's records from it. Both records lose `"cr_value"`, and `old`
grows with `{"type": 0}` to the run's length. -/
def diffRegs : List RegDict → List (List RegDict) → List RegDict → List RegDict × List (List RegDict)
  | old, diffs, [] => (old, diffs)
  | old, diffs, new :: rest =>
    let o := (old.headD RegDict.uc).popCrValue
    let n := new.popCrValue
    let d := diffs.headD []
    let after := diffRegs old.tail diffs.tail rest
    (o :: after.1, (if o = n then d else addNew d n) :: after.2)

def diffRuns (old : List RegDict) (diffs : List (List RegDict)) :
    List (List RegDict) → List RegDict × List (List RegDict)
  | [] => (old, diffs)
  | new :: runs =>
    let diffed := diffRegs old diffs new
    diffRuns diffed.1 diffed.2 runs

/-- A changed register's lock from one more new record: the last non-zero one, read only for an
SR or a CR_SR, where the test `new_type in [2, 4] and i["sr_locked"]` gets to the member. -/
def newLock (newType lock : Int) (i : RegDict) : Except PyError Int :=
  if newType = 2 ∨ newType = 4 then do
    let l ← Python.key "sr_locked" i.srLocked
    pure (if l ≠ 0 then l else lock)
  else pure lock

def mergeStep (newType : Int) (acc : Int × Int × Int) (i : RegDict) :
    Except PyError (Int × Int × Int) := do
  let read ← Python.key "read" i.read
  let write ← Python.key "write" i.write
  let lock ← newLock newType acc.2.2 i
  pure (if read ≠ 0 then read else acc.1, if write ≠ 0 then write else acc.2.1, lock)

/-- `old[k]` after `stage2_2`, for a register whose new records are `news`: the one category they
agree on, or `old[k]` unchanged when they give several. -/
def mergeReg (old : RegDict) (news : List RegDict) : Except PyError RegDict :=
  match (news.map RegDict.type).eraseDups with
  | [newType] => do
    let merged ← news.foldlM (mergeStep newType) (0, 0, 0)
    pure ⟨newType, some merged.1, some merged.2.1,
      if newType = 2 ∨ newType = 4 then some merged.2.2 else none, none⟩
  | [] => .error (.keyError "pop from an empty set")
  | _ :: _ :: _ => pure old

def updateReg (old : RegDict) (news : List RegDict) : Except PyError RegDict :=
  if news = [] then pure old else mergeReg old news

/-- `for k in rc_diff`, on the registers in order; when several records raise, the script stops
at the first either way. -/
def updateRegs : List RegDict → List (List RegDict) → Except PyError (List RegDict)
  | old, [] => pure old
  | [], _ :: _ => pure []
  | o :: old, news :: diffs => do
    let o ← updateReg o news
    let rest ← updateRegs old diffs
    pure (o :: rest)

/-- `stage2_2` on the registers of the explored peripheral: `old` as in the model the runs loaded,
`runs` the registers each run dumped, in the order of the input files. -/
def stage22Regs (old : List RegDict) (runs : List (List RegDict)) : Except PyError (List RegDict) :=
  let diffed := diffRuns old [] runs
  updateRegs diffed.1 diffed.2

/-- The adjustment when no input made the driver check a bit of the SR `sr_idx[0]`: an unlocked
SR becomes a DR, and a locked one stays (`none`). -/
def adjustSrToDr (regs : List RegDict) (srIdx : Int) : Except PyError (Option (List RegDict)) := do
  let reg ← Python.index regs srIdx
  let locked ← Python.key "sr_locked" reg.srLocked
  if locked = 0 then some <$> Python.setIndex regs srIdx { reg with type := 3 } else pure none

end P2im
