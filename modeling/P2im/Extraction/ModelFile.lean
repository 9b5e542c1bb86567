import P2im.Extraction.Prereq
import P2im.Extraction.Regs

set_option autoImplicit false

/-!
# Model files as the main loop hands them on

Each stage of `me.py` loads the file the stage before dumped, changes its dictionaries and dumps
it under a new name. Of `"model"` the main loop reads, for each peripheral, the register records
and `"events"`, the `CR_val` → srr-site dictionaries that stage 2.5 fills. The records are
compared as dictionaries, so they are kept as `RegDict`s; the events stay documents. The other
members of a file (`"reg_size"`, `"DR_bytes_num"`, the interrupts) pass through every stage
unchanged and are left out.

Stage 1.5 reads the SR read site the stage-1 run dumped, stage 2.2 merges the categories of the
exploration runs into the file they loaded, and stage 2.5 writes the site into the events; the
last is `dumpEvents` on the file's text.
-/

namespace P2im

structure PeriFile where
  regs : List RegDict
  events : Json
deriving Repr

/-- `model["model"]`: the peripherals by base address, in the file's order. -/
abbrev ModelFile := List (String × PeriFile)

/-- `"sr_read"` of a stage-1 dump: the SRs the block that ended the run read. -/
structure SrRead where
  srNum : Int
  periBaseAddr : Int
  srIdx : List Int
  crSrRIdx : Int
  bblE : Int
  bblCnt : Int
  srFunc : String
deriving Repr

/-- Python's `hex`. -/
def pyHex (n : Int) : String :=
  String.ofList (if n < 0 then "-0x".toList ++ Printf.hex n.natAbs else "0x".toList ++ Printf.hex n.toNat)

/-- The `CR_val` of stage 1.5: `"%d:%s," % (i, regs[i]["cr_value"])` for each CR and CR_SR, then
the last `','` trimmed. -/
def crValText (regs : List RegDict) : Except PyError (List Char) := do
  let text ← regs.zipIdx.foldlM (fun text (d, i) =>
    if d.type = 1 ∨ d.type = 4 then do
      let v ← Python.key "cr_value" d.crValue
      pure (text ++ Printf.decimal i ++ ':' :: v.toList ++ [','])
    else pure text) []
  pure text.dropLast

/-- `stage1_5`: the SR read site of the file stage 1.4 wrote. The call of `objdump` for the return
addresses of `sr_func` and `sr_bits`, which only stage 1.9 and stage 2 read, are left out. -/
def stage15 (m : ModelFile) (srR : SrRead) : Except PyError SrrInfo := do
  if srR.srNum ∉ [1, 2, 3, 4] then .error .systemExit
  let periBa := pyHex srR.periBaseAddr
  let peri ← Python.key periBa (m.lookup periBa)
  let crVal ← crValText peri.regs
  pure ⟨srR.srNum, periBa, srR.srIdx, srR.crSrRIdx, String.ofList crVal, pyHex srR.bblE,
    srR.srFunc, srR.bblCnt⟩

/-- `stage2_2`: the records of the explored peripheral in `m`, the file the exploration runs
loaded, merged with those each run dumped. -/
def stage22 (m : ModelFile) (periBa : String) (runs : List ModelFile) : Except PyError ModelFile := do
  let peri ← Python.key periBa (m.lookup periBa)
  let news ← runs.mapM fun r => PeriFile.regs <$> Python.key periBa (r.lookup periBa)
  let regs ← stage22Regs peri.regs news
  pure (Python.setItem periBa { peri with regs } m)

/-- The event dump of `stage2_5` on the events of the site's peripheral. -/
def dumpSite (info : SrrInfo) (setBits : Nat) (prereq : Prereq Json) (eval : Bool) (evts : Json) :
    Except PyError Json := do
  let evts ← addMissing info.crVal evts
  let conf ← getItem info.crVal evts
  let conf ← addMissing info.srrBblE conf
  let site ← getItem info.srrBblE conf
  let site ← fillSrrSite info setBits prereq eval site
  let conf ← putItem info.srrBblE site conf
  putItem info.crVal conf evts

def stage25 (m : ModelFile) (info : SrrInfo) (setBits : Nat) (prereq : Prereq Json) (eval : Bool) :
    Except PyError ModelFile := do
  let peri ← Python.key info.periBa (m.lookup info.periBa)
  let events ← dumpSite info setBits prereq eval peri.events
  pure (Python.setItem info.periBa { peri with events } m)

section Dictionaries

variable {α : Type}

theorem lookup_setItem_self (key : String) (a : α) (m : List (String × α)) :
    (Python.setItem key a m).lookup key = some a := by
  induction m with
  | nil => simp [Python.setItem]
  | cons kv rest ih =>
    by_cases same : kv.1 = key
    · simp [Python.setItem, same]
    · have other : (key == kv.1) = false := beq_false_of_ne (Ne.symm same)
      simp [Python.setItem, same, List.lookup, other, ih]

theorem mem_setItem {key : String} {a : α} {m : List (String × α)} {kv : String × α}
    (mem : kv ∈ Python.setItem key a m) : kv = (key, a) ∨ kv ∈ m := by
  induction m with
  | nil => simpa [Python.setItem] using mem
  | cons kv' rest ih =>
    unfold Python.setItem at mem
    split at mem
    · next same =>
      rcases List.mem_cons.mp mem with rfl | later
      · exact .inl (by rw [same])
      · exact .inr (List.mem_cons_of_mem _ later)
    · rcases List.mem_cons.mp mem with rfl | later
      · exact .inr List.mem_cons_self
      · exact (ih later).imp_right (List.mem_cons_of_mem _)

end Dictionaries

end P2im
