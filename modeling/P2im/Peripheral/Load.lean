import P2im.Peripheral.Basic
import P2im.Shared.Json
import P2im.Shared.CConv

set_option autoImplicit false

/-!
# Loading a model file

`pm_load_model` of `hw/arm/peri-mod.c`: the peripherals, their registers and SR-read events
from the `"model"` object of a model file, with the SR read site of an SR_R_EXPLORE run and the
replay length of a run started by the fuzzer, over any `lib : Jansson`. The text is read by the
JSON library first; a text it cannot read is given here as no document. Every `json_unpack_ex`
stores its values in order,
stopping at the first member that fails; the loader checks its status everywhere but after the
unpack of an event.
-/

namespace P2im

variable (lib : Jansson)

/-- How `pm_load_model` ends without a model: it returns `-1` or `-2`, or it does something
whose behaviour is undefined. -/
inductive LoadFail where
  | code (ret : Int)
  | undefined
deriving DecidableEq, Repr

/-- `goto error` after an unpack that failed: `pm_load_model` returns `-1`. -/
def gotoError {α : Type} : Option α → Except LoadFail α
  | some a => .ok a
  | none => .error (.code (-1))

def failWhen (cond : Prop) [Decidable cond] (fail : LoadFail) : Except LoadFail Unit :=
  if cond then .error fail else pure ()

theorem not_of_failWhen_ok {cond : Prop} [Decidable cond] {fail : LoadFail} {u : Unit}
    (ok : failWhen cond fail = .ok u) : ¬cond := by
  unfold failWhen at ok
  split at ok
  · cases ok
  · assumption

theorem objectForeach_of_failWhen_ok {lib : Jansson} (doc : lib.Documented) {j : Json} {fail : LoadFail}
    {u : Unit} (ok : failWhen (j.isObject = false) fail = .ok u) : lib.objectForeach j = j.members :=
  doc.objectForeach_of_isObject (by simpa using not_of_failWhen_ok ok)

/-- A pointer read before anything was assigned to it. -/
def assigned {α : Type} : Option α → Except LoadFail α
  | some a => .ok a
  | none => .error .undefined

/-- `"{s:i}"` of `"sr_locked"`, which is loaded only for the categories that lock: every other
register keeps the 0 of `memset`. -/
def loadSrLocked (type : PmRegType) (jreg : Json) : Except LoadFail Int :=
  if type = .sr ∨ type = .crSr then CConv.toInt <$> gotoError (lib.intMember? "sr_locked" jreg)
  else pure 0

/-- A register from `"{s:i, s?:i, s?:i}"` of `"type"`, `"read"` and `"write"`, on the register
`memset` zeroed. -/
def loadReg (jreg : Json) : Except LoadFail PmMMIORegister := do
  let type ← gotoError (lib.intMember? "type" jreg)
  let read ← gotoError (lib.optIntMember? "read" jreg)
  let write ← gotoError (lib.optIntMember? "write" jreg)
  let srLocked ← loadSrLocked lib (PmRegType.ofInt (CConv.toInt type)) jreg
  pure { PmMMIORegister.zero with
    type := PmRegType.ofInt (CConv.toInt type)
    read := (read.map CConv.toInt).getD 0
    write := (write.map CConv.toInt).getD 0
    srLocked }

/-- The registers of `"regs"` from index `j`; `regs[j]` past the array is undefined. -/
def loadRegs (j : Nat) : List Json → Except LoadFail (List PmMMIORegister)
  | [] => pure []
  | jreg :: rest => do
    failWhen (pmMaxRegNum ≤ j) .undefined
    let reg ← loadReg lib jreg
    let regs ← loadRegs (j + 1) rest
    pure (reg :: regs)

def regsOf (loaded : List PmMMIORegister) (r : Fin pmMaxRegNum) : PmMMIORegister :=
  loaded.getD r.val .zero

/-- `e->satisfy[k][j][b] = v`, undefined outside the array. -/
def PmEvent.storeSatisfy (e : PmEvent) (k j b : Nat) (v : Int) : Except LoadFail PmEvent :=
  if k < pmMaxSatisfyNum ∧ j < pmMaxBitCombSz ∧ b < pmSetBits then
    pure { e with satisfy := fun k' j' b' =>
      if k'.val = k ∧ j'.val = j ∧ b'.val = b then v else e.satisfy k' j' b' }
  else .error .undefined

/-- The bit indices of entry `2 * l1` of bit combination `k`: `"[i]"` or `"[i,i]"` by
`set_bits`, which must be 1 or 2. -/
def loadBits (e : PmEvent) (k l1 : Nat) (jb : Json) : Except LoadFail PmEvent :=
  if e.setBits = 1 then do
    let b ← gotoError (lib.intAt? 0 jb)
    e.storeSatisfy k l1 1 (CConv.toInt b)
  else if e.setBits = 2 then do
    let b1 ← gotoError (lib.intAt? 0 jb)
    let b2 ← gotoError (lib.intAt? 1 jb)
    let e ← e.storeSatisfy k l1 1 (CConv.toInt b1)
    e.storeSatisfy k l1 2 (CConv.toInt b2)
  else .error (.code (-2))

/-- Entry `l` of bit combination `k`: bit indices when `l` is even, the set/clear flag when it is
odd. The source stores the flag through `l1`, which is declared in the loop body and assigned
only for even `l`: an odd entry reads it uninitialised. -/
def loadEntry (e : PmEvent) (k l : Nat) (jb : Json) : Except LoadFail PmEvent :=
  if l % 2 = 0 then loadBits lib e k (l / 2) jb else .error .undefined

def loadBitComb (e : PmEvent) (k l : Nat) : List Json → Except LoadFail PmEvent
  | [] => pure e
  | jb :: rest => do
    -- e->sr_num * 2 is an int product
    failWhen (CConv.fitsInt (e.srNum * 2) = false) .undefined
    failWhen (e.srNum * 2 ≤ l ∨ pmMaxBitCombSz * 2 ≤ l) (.code (-2))
    let e ← loadEntry lib e k l jb
    loadBitComb e k (l + 1) rest

/-- The bit combinations of `"satisfy"` from combination `k`; `satisfy_num` is their number. -/
def loadSatisfy (e : PmEvent) (k : Nat) : List Json → Except LoadFail PmEvent
  | [] => pure { e with satisfyNum := k }
  | jbc :: rest => do
    failWhen (pmMaxSatisfyNum ≤ k) (.code (-2))
    failWhen (jbc.isArray = false) (.code (-1))
    let e ← loadBitComb lib e k 0 jbc.items
    loadSatisfy e (k + 1) rest

/-- `"{s:i, s:i, s?:i, s:o}"` of `"sr_num"`, `"set_bits"`, `"CR_SR_r_idx"` and `"satisfy"`,
whose status is never checked: the members are stored in order up to the first that fails, and
`jsatisfy` keeps what it held when `"satisfy"` is not reached. -/
def unpackEvent (jval : Json) (e : PmEvent) (jsatisfy : Option Json) : PmEvent × Option Json :=
  match lib.intMember? "sr_num" jval with
  | none => (e, jsatisfy)
  | some srNum =>
    let e := { e with srNum := CConv.toInt srNum }
    match lib.intMember? "set_bits" jval with
    | none => (e, jsatisfy)
    | some setBits =>
      let e := { e with setBits := CConv.toInt setBits }
      match lib.optIntMember? "CR_SR_r_idx" jval with
      | none => (e, jsatisfy)
      | some rIdx =>
        let e := { e with rIdx := (rIdx.map CConv.toInt).getD e.rIdx }
        match jval.member? "satisfy" with
        | none => (e, jsatisfy)
        | some satisfy => (e, some satisfy)

/-- What the event loops of one peripheral carry: `events[0 .. evt_num)`, the local `jsatisfy`
(`none` while it was never assigned) and `errno`. -/
structure EventsLoad where
  events : List PmEvent
  jsatisfy : Option Json
  errno : Int

def loadEvent (crVal : String) (st : EventsLoad) (key : String) (jval : Json) :
    Except LoadFail EventsLoad := do
  failWhen (pmMaxEvtNum ≤ st.events.length) (.code (-2))
  let errno := CConv.errnoAfter key.toList st.errno
  let bblE := UInt32.ofInt (CConv.strtol key.toList).1
  -- bbl_e is a target_ulong: it never equals LONG_MAX or LONG_MIN
  failWhen (errno = CConv.erange ∧
      ((bblE.toNat : Int) = CConv.longMax ∨ (bblE.toNat : Int) = CConv.longMin) ∨
      errno ≠ 0 ∧ bblE = 0) (.code (-2))
  let unpacked := unpackEvent lib jval { PmEvent.zero with crVal := crVal.toList, bblE } st.jsatisfy
  let jsatisfy ← assigned unpacked.2
  failWhen (jsatisfy.isArray = false) (.code (-1))
  let e ← loadSatisfy lib unpacked.1 0 jsatisfy.items
  pure ⟨st.events ++ [e], some jsatisfy, errno⟩

def loadEvents (crVal : String) (st : EventsLoad) : List (String × Json) → Except LoadFail EventsLoad
  | [] => pure st
  | (key, jval) :: rest => do
    let st ← loadEvent lib crVal st key jval
    loadEvents crVal st rest

def loadCrVals (st : EventsLoad) : List (String × Json) → Except LoadFail EventsLoad
  | [] => pure st
  | (crVal, jval0) :: rest => do
    failWhen (jval0.isObject = false) (.code (-1))
    -- strlen counts the bytes of the name
    failWhen (pmMaxCrValByte - 1 < crVal.utf8ByteSize) (.code (-2))
    let st ← loadEvents lib crVal st (lib.objectForeach jval0)
    loadCrVals st rest

/-- One member of `"model"`: the peripheral at `base_addr`, and `errno` after it. -/
def loadPeri (errno : Int) (baseAddr : String) (jperi : Json) : Except LoadFail (PmPeripheral × Int) := do
  let drBytesNum ← gotoError (lib.intMember? "DR_bytes_num" jperi)
  let regSize ← gotoError (lib.intMember? "reg_size" jperi)
  let jregs ← gotoError (jperi.member? "regs")
  let jevents ← gotoError (jperi.member? "events")
  failWhen (jregs.isArray = false) (.code (-1))
  let regs ← loadRegs lib 0 jregs.items
  failWhen (jevents.isObject = false) (.code (-1))
  let st ← loadCrVals lib ⟨[], none, CConv.errnoAfter baseAddr.toList errno⟩ (lib.objectForeach jevents)
  pure (⟨UInt32.ofInt (CConv.strtol baseAddr.toList).1, regsOf regs, (jregs.items.length : Int) - 1, CConv.toInt drBytesNum,
    UInt32.ofInt regSize, st.events⟩, st.errno)

/-- The peripherals of `"model"`; each new one goes to the head of the list. -/
def loadPeris (plist : List PmPeripheral) (errno : Int) :
    List (String × Json) → Except LoadFail (List PmPeripheral)
  | [] => pure plist
  | (baseAddr, jperi) :: rest => do
    let loaded ← loadPeri lib errno baseAddr jperi
    loadPeris (loaded.1 :: plist) loaded.2 rest

structure LoadGlobals where
  srrSite : UInt32
  crSrRIdxInBbl : Int
  targetBblCnt : UInt32
  srFuncRetAddr : List UInt32
  replayBblCnt : UInt32

/-- `"{s:i, s:i, s:i, s:o}"` of the SR read site an SR_R_EXPLORE run explores, and the return
addresses of the function that reads the SR. -/
def loadSrRead (g : LoadGlobals) (jsrr : Json) : Except LoadFail LoadGlobals := do
  let srrSite ← gotoError (lib.intMember? "bbl_e" jsrr)
  let crSrRIdx ← gotoError (lib.intMember? "CR_SR_r_idx" jsrr)
  let bblCnt ← gotoError (lib.intMember? "bbl_cnt" jsrr)
  let jarr ← gotoError (jsrr.member? "sr_func_ret_addr")
  let addrs ← gotoError (jarr.items.mapM lib.unpackInt)
  pure { g with
    srrSite := UInt32.ofInt srrSite
    crSrRIdxInBbl := CConv.toInt crSrRIdx
    targetBblCnt := UInt32.ofInt bblCnt
    srFuncRetAddr := addrs.map UInt32.ofInt }

/-- `"{s:{s:i}}"` of the number of blocks a model-extraction run started from the fuzzer
replays; an SR_R_EXPLORE run stops replaying before the block of its SR read. -/
def loadReplay (pmStage : PmStage) (aflFile : Bool) (g : LoadGlobals) (root : Json) :
    Except LoadFail LoadGlobals :=
  if aflFile ∧ (pmStage = .srRId ∨ pmStage = .srRExplore) then do
    let jaup ← gotoError (root.member? "access_to_unmodeled_peri")
    let replay ← gotoError (lib.intMember? "replay_bbl_cnt" jaup)
    if pmStage = .srRExplore ∧ g.targetBblCnt ≤ UInt32.ofInt replay then
      pure { g with replayBblCnt := g.targetBblCnt - 1 }
    else pure { g with replayBblCnt := UInt32.ofInt replay }
  else pure g

/-- `"{s:o, s:o}"` also takes `"sr_read"` in an SR_R_EXPLORE run. -/
def loadJsrr (pmStage : PmStage) (root : Json) : Except LoadFail (Option Json) :=
  if pmStage = .srRExplore then some <$> gotoError (root.member? "sr_read") else pure none

/-- `pm_load_model`: the peripheral list and the globals, from the document the JSON library read
(`none` when it could not read one) and `errno` as the process left it. -/
def pmLoadModel (pmStage : PmStage) (aflFile : Bool) (errno : Int) (g : LoadGlobals)
    (root : Option Json) : Except LoadFail (List PmPeripheral × LoadGlobals) := do
  let root ← gotoError root
  let jperis ← gotoError (root.member? "model")
  let jsrr ← loadJsrr pmStage root
  failWhen (jperis.isObject = false) (.code (-1))
  let plist ← loadPeris lib [] errno (lib.objectForeach jperis)
  let g ← (jsrr.map (loadSrRead lib g)).getD (pure g)
  let g ← loadReplay lib pmStage aflFile g root
  pure (plist, g)

end P2im
