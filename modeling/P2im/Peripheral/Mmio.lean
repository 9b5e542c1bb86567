import P2im.Peripheral.SrModel

set_option autoImplicit false

/-!
# Register accesses

`unassigned_mem_read` and `unassigned_mem_write` of `memory.c`: every firmware access to the
peripheral range finds (or creates) the peripheral, categorises the register while a model is
being extracted, and serves the access by the register's category and the stage. The logging
to the trace, register-access and standard-output files is left out.
-/

namespace P2im

/-- The fuzzer's input file as `open`, `stat` and `read` see it. -/
inductive AflFile where
  | missing
  | unreadable (size : Nat)
  | bytes (data : List UInt8)

structure SrRMap where
  bytes : List UInt8
  ptr : Nat

/-- What stays fixed during one emulator process: its command line and what `pm_load_model`
set up once. -/
structure RunConfig where
  pmStage : PmStage
  aflFile : Option AflFile
  aflStartfsInvoked : Bool
  replayBblCnt : UInt32
  targetBblCnt : UInt32
  srrSite : UInt32
  srRFile : Option (List UInt8)

/-- `pm_me_ena`: register categorisation runs in the two model-extraction stages. -/
def RunConfig.pmMeEna (cfg : RunConfig) : Bool := cfg.pmStage == .srRId || cfg.pmStage == .srRExplore

/-- The globals the access handlers read and write, the static locals of
`unassigned_mem_read` included. -/
structure Emu where
  peris : List PmPeripheral
  paddr : UInt32
  pa : PmRegPa
  pregType : PmRegType
  pbblE : UInt32
  curBblSRRNum : Int
  stageTermRegIdx : Fin maxSrNum → Int
  stageTermPeriBa : UInt32
  consecSameRegR : Int
  srCatByFixup : Int
  handleHybridSRWay : Int
  crSrRIdxInBbl : Int
  bblCnt : UInt32
  curBblS : UInt32
  curBblE : UInt32
  explStarted : Int
  pmRandI : Int
  pmRandSz : Int
  pmRand : Fin pmRandArrSize → UInt8
  srRMap : Option SrRMap
  srRTime : Int
  prevRetVal : UInt32

def Emu.init (peris : List PmPeripheral) : Emu :=
  ⟨peris, 0, .regNever, .uc, 0, 0, fun _ => 0, 0, 0, 0, 0, 0, 0, 0, 0, 0, 0, 0, fun _ => 0,
    none, 0, 0⟩

/-- How an access ends the process: `exit`, from the state it had then (after dumping the model
when `dumped`), or undefined behaviour, after which nothing is known. -/
inductive Stop where
  | exit (status : Int) (dumped : Bool) (state : Emu)
  | undefined

def Stop.state? : Stop → Option Emu
  | .exit _ _ s => some s
  | .undefined => none

def Stop.ofHalt (s : Emu) : Halt → Stop
  | .exit status => .exit status false s
  | .undefined => .undefined

def liftHalt {α : Type} (s : Emu) (x : Except Halt α) : Except Stop α :=
  x.mapError (Stop.ofHalt s)

instance : Inhabited PmPeripheral := ⟨⟨0, fun _ => .zero, 0, 0, 0, []⟩⟩

def periOf (peris : List PmPeripheral) (i : Nat) : PmPeripheral := peris.getD i default

theorem periOf_modify (peris : List PmPeripheral) (i j : Nat) (f : PmPeripheral → PmPeripheral) :
    periOf (peris.modify i f) j =
      if i = j ∧ j < peris.length then f (periOf peris j) else periOf peris j := by
  unfold periOf
  by_cases same : i = j
  · subst same
    by_cases inside : i < peris.length <;> simp [List.getD_eq_getElem?_getD, inside]
  · simp [List.getD_eq_getElem?_getD, same]

@[simp] theorem periOf_modify_self (peris : List PmPeripheral) (i : Nat)
    (f : PmPeripheral → PmPeripheral) (inside : i < peris.length) :
    periOf (peris.modify i f) i = f (periOf peris i) := by
  simp [periOf_modify, inside]

@[simp] theorem periOf_modify_of_ne (peris : List PmPeripheral) (i j : Nat)
    (f : PmPeripheral → PmPeripheral) (other : i ≠ j) :
    periOf (peris.modify i f) j = periOf peris j := by
  simp [periOf_modify, other]

@[simp] theorem PmPeripheral.regs_setReg (peri : PmPeripheral) (r : Fin pmMaxRegNum)
    (reg : PmMMIORegister) : (peri.setReg r reg).regs = Function.update peri.regs r reg := rfl

@[simp] theorem PmPeripheral.baseAddr_setReg (peri : PmPeripheral) (r : Fin pmMaxRegNum)
    (reg : PmMMIORegister) : (peri.setReg r reg).baseAddr = peri.baseAddr := rfl

@[simp] theorem PmPeripheral.maxRegIdx_setReg (peri : PmPeripheral) (r : Fin pmMaxRegNum)
    (reg : PmMMIORegister) : (peri.setReg r reg).maxRegIdx = peri.maxRegIdx := rfl

@[simp] theorem PmPeripheral.drBytesNum_setReg (peri : PmPeripheral) (r : Fin pmMaxRegNum)
    (reg : PmMMIORegister) : (peri.setReg r reg).drBytesNum = peri.drBytesNum := rfl

@[simp] theorem PmPeripheral.events_setReg (peri : PmPeripheral) (r : Fin pmMaxRegNum)
    (reg : PmMMIORegister) : (peri.setReg r reg).events = peri.events := rfl

/-- `peris[i].regs[r] = f (peris[i].regs[r])`. -/
def modifyRegs (peris : List PmPeripheral) (i : Nat) (r : Fin pmMaxRegNum)
    (f : PmMMIORegister → PmMMIORegister) : List PmPeripheral :=
  peris.modify i fun peri => peri.setReg r (f (peri.regs r))

@[simp] theorem length_modifyRegs (peris : List PmPeripheral) (i : Nat) (r : Fin pmMaxRegNum)
    (f : PmMMIORegister → PmMMIORegister) : (modifyRegs peris i r f).length = peris.length := by
  simp [modifyRegs]

theorem regs_modifyRegs (peris : List PmPeripheral) (i j : Nat) (r r' : Fin pmMaxRegNum)
    (f : PmMMIORegister → PmMMIORegister) :
    (periOf (modifyRegs peris i r f) j).regs r' =
      if i = j ∧ j < peris.length ∧ r = r' then f ((periOf peris j).regs r')
      else (periOf peris j).regs r' := by
  rw [modifyRegs, periOf_modify]
  by_cases same : i = j ∧ j < peris.length
  · by_cases reg : r = r'
    · subst reg
      simp [same]
    · simp [same, reg, Function.update_of_ne (Ne.symm reg)]
  · rw [if_neg same, if_neg (fun h => same ⟨h.1, h.2.1⟩)]

@[simp] theorem regs_modifyRegs_self (peris : List PmPeripheral) (i : Nat) (r : Fin pmMaxRegNum)
    (f : PmMMIORegister → PmMMIORegister) (inside : i < peris.length) :
    (periOf (modifyRegs peris i r f) i).regs r = f ((periOf peris i).regs r) := by
  simp [regs_modifyRegs, inside]

theorem periOf_modifyRegs (peris : List PmPeripheral) (i j : Nat) (r : Fin pmMaxRegNum)
    (f : PmMMIORegister → PmMMIORegister) :
    periOf (modifyRegs peris i r f) j =
      { periOf peris j with regs := (periOf (modifyRegs peris i r f) j).regs } := by
  rw [modifyRegs, periOf_modify]
  split <;> rfl

@[simp] theorem baseAddr_modifyRegs (peris : List PmPeripheral) (i j : Nat) (r : Fin pmMaxRegNum)
    (f : PmMMIORegister → PmMMIORegister) :
    (periOf (modifyRegs peris i r f) j).baseAddr = (periOf peris j).baseAddr := by
  rw [periOf_modifyRegs]

@[simp] theorem maxRegIdx_modifyRegs (peris : List PmPeripheral) (i j : Nat) (r : Fin pmMaxRegNum)
    (f : PmMMIORegister → PmMMIORegister) :
    (periOf (modifyRegs peris i r f) j).maxRegIdx = (periOf peris j).maxRegIdx := by
  rw [periOf_modifyRegs]

@[simp] theorem drBytesNum_modifyRegs (peris : List PmPeripheral) (i j : Nat) (r : Fin pmMaxRegNum)
    (f : PmMMIORegister → PmMMIORegister) :
    (periOf (modifyRegs peris i r f) j).drBytesNum = (periOf peris j).drBytesNum := by
  rw [periOf_modifyRegs]

@[simp] theorem events_modifyRegs (peris : List PmPeripheral) (i j : Nat) (r : Fin pmMaxRegNum)
    (f : PmMMIORegister → PmMMIORegister) :
    (periOf (modifyRegs peris i r f) j).events = (periOf peris j).events := by
  rw [periOf_modifyRegs]

def Emu.periAt (s : Emu) (i : Nat) : PmPeripheral := periOf s.peris i

def Emu.modifyPeri (s : Emu) (i : Nat) (f : PmPeripheral → PmPeripheral) : Emu :=
  { s with peris := s.peris.modify i f }

def Emu.regAt (s : Emu) (i : Nat) (r : Fin pmMaxRegNum) : PmMMIORegister := (s.periAt i).regs r

def Emu.modifyReg (s : Emu) (i : Nat) (r : Fin pmMaxRegNum) (f : PmMMIORegister → PmMMIORegister) :
    Emu :=
  { s with peris := modifyRegs s.peris i r f }

-- Proofs see the list operations, so that they pass through the record updates of the other
-- globals.
@[simp] theorem Emu.periAt_eq (s : Emu) (i : Nat) : s.periAt i = periOf s.peris i := rfl

@[simp] theorem Emu.regAt_eq (s : Emu) (i : Nat) (r : Fin pmMaxRegNum) :
    s.regAt i r = (periOf s.peris i).regs r := rfl

@[simp] theorem Emu.modifyPeri_eq (s : Emu) (i : Nat) (f : PmPeripheral → PmPeripheral) :
    s.modifyPeri i f = { s with peris := s.peris.modify i f } := rfl

@[simp] theorem Emu.modifyReg_eq (s : Emu) (i : Nat) (r : Fin pmMaxRegNum)
    (f : PmMMIORegister → PmMMIORegister) :
    s.modifyReg i r f = { s with peris := modifyRegs s.peris i r f } := rfl

/-- An `int` compared with an `unsigned`: C converts it to the unsigned value of its bits. -/
def toUnsigned (x : Int) : Nat := (x % 4294967296).toNat

/-- The register an access reaches: the peripheral's position in the list, the register index
`(addr32 % PM_PERI_ADDR_RANGE) / reg_size` and the byte offset inside it. -/
structure Target where
  addr32 : UInt32
  periIdx : Nat
  regIdx : Fin pmMaxRegNum
  off : Nat

/-- The common start of both handlers: find or create the peripheral, split the address by its
register size, and raise `max_reg_idx`. -/
def locate (s : Emu) (addr size : Nat) : Except Stop (Emu × Target) := do
  let addr32 := addr.toUInt32
  let (peris, periIdx) := lookupPeri s.peris addr32 size.toUInt32
  let s := { s with peris }
  let regSize := (s.periAt periIdx).regSize.toNat
  if regSize = 0 then .error .undefined
  let regIdx := addr32.toNat % pmPeriAddrRange / regSize
  let off := addr32.toNat % pmPeriAddrRange % regSize
  let s := if toUnsigned (s.periAt periIdx).maxRegIdx < regIdx then
      s.modifyPeri periIdx fun peri => { peri with maxRegIdx := regIdx }
    else s
  if h : regIdx < pmMaxRegNum then .ok (s, ⟨addr32, periIdx, ⟨regIdx, h⟩, off⟩)
  else .error .undefined

/-- The fix-up of a register the firmware reads more than `CONSEC_NON_SR_R_THRESHOLD` times in
a row: it waits for a bit of it to change. -/
def pollFixup (s : Emu) (t : Target) : Except Stop Emu :=
  match (s.regAt t.periIdx t.regIdx).type with
  | .cr =>
    let s := s.modifyReg t.periIdx t.regIdx fun reg => { reg with type := .crSr, srLocked := 1 }
    pure { s with handleHybridSRWay := 1 }
  | .sr => .error (.exit 0x78 false s)
  | .dr =>
    let s := s.modifyReg t.periIdx t.regIdx fun reg => { reg with type := .sr, srLocked := 1 }
    pure { s with srCatByFixup := 1, consecSameRegR := 0 }
  | .crSr => pure { s with handleHybridSRWay := 1 }
  | _ => pure s

def readCatStep (cfg : RunConfig) (s : Emu) (t : Target) (repeated : Bool) : Except Stop Emu :=
  if (s.regAt t.periIdx t.regIdx).type == .uc then
    -- a first read makes an SR, except during exploration, where it makes a DR
    let type := if cfg.pmStage == .srRExplore && s.explStarted != 0 then PmRegType.dr else .sr
    pure (s.modifyReg t.periIdx t.regIdx fun reg => { reg with type })
  else if repeated then
    let s := { s with consecSameRegR := s.consecSameRegR + 1 }
    if consecNonSrRThreshold < s.consecSameRegR then pollFixup s t else pure s
  else pure s

/-- The register categorisation of a read (`reg_cat` in `unassigned_mem_read`). -/
def regCatRead (cfg : RunConfig) (s : Emu) (t : Target) : Except Stop Emu := do
  let s := s.modifyReg t.periIdx t.regIdx fun reg => { reg with read := 1 }
  let repeated := s.paddr == t.addr32 && s.pa == .regR
  let s ← readCatStep cfg s t repeated
  let s := if repeated then s else { s with consecSameRegR := 0 }
  pure { s with
    paddr := t.addr32, pa := .regR, pregType := (s.regAt t.periIdx t.regIdx).type
    pbblE := s.curBblE }

def writeType (stage : PmStage) (afterRead : Bool) (reg : PmMMIORegister) : PmRegType :=
  if reg.type == .uc then .dr
  -- read-modify-write turns an unlocked register into a CR, outside exploration
  else if afterRead && stage != .srRExplore &&
      !((reg.type == .sr || reg.type == .crSr) && reg.srLocked != 0) then .cr
  else reg.type

/-- The register categorisation of a write (`reg_cat` in `unassigned_mem_write`). -/
def regCatWrite (cfg : RunConfig) (s : Emu) (t : Target) : Emu :=
  let reg := s.regAt t.periIdx t.regIdx
  let afterRead := s.paddr == t.addr32 && s.pa == .regR
  -- an SR of stage SR_R_ID that turns into a CR no longer counts among the block's SR reads
  let s := if cfg.pmStage == .srRId && reg.type == .sr &&
      writeType cfg.pmStage afterRead reg == .cr && 0 < s.curBblSRRNum then
      { s with curBblSRRNum := s.curBblSRRNum - 1 }
    else s
  let s := s.modifyReg t.periIdx t.regIdx fun reg =>
    { reg with write := 1, type := writeType cfg.pmStage afterRead reg }
  { s with
    paddr := t.addr32, pa := .regW, pregType := (s.regAt t.periIdx t.regIdx).type
    pbblE := s.curBblE }

def bumpRIdx (bblCnt : UInt32) (reg : PmMMIORegister) : PmMMIORegister :=
  if bblCnt == reg.lastRBblCnt then { reg with rIdxInBbl := reg.rIdxInBbl + 1 }
  else { reg with rIdxInBbl := 1, lastRBblCnt := bblCnt }

def valBRead (s : Emu) (t : Target) (size : Nat) : Except Stop UInt32 :=
  liftHalt s (readValB (s.regAt t.periIdx t.regIdx) t.off size)

def modelRead (s : Emu) (t : Target) (ei : Nat) : Except Stop (Emu × UInt32) := do
  let peri := s.periAt t.periIdx
  match peri.events[ei]? with
  | some e =>
    let (e, retVal) ← liftHalt s (pmSRRead e)
    pure (s.modifyPeri t.periIdx fun peri => { peri with events := peri.events.set ei e }, retVal)
  | none => .error .undefined

/-- `peri->regs[i].cr_val |= val_b` for the registers `i ..` of the peripheral, `k` left. -/
def recordCrVals (s : Emu) (periIdx i : Nat) : Nat → Except Stop Emu
  | 0 => .ok s
  | k + 1 =>
    if h : i < pmMaxRegNum then
      let s := s.modifyReg periIdx ⟨i, h⟩ fun reg => { reg with crVal := reg.crVal ||| reg.valBWord }
      recordCrVals s periIdx (i + 1) k
    else .error .undefined

def recordSrRead (s : Emu) (t : Target) : Except Stop Emu :=
  let reg := s.regAt t.periIdx t.regIdx
  if (maxSrNum : Int) ≤ s.curBblSRRNum then .error (.exit 0x79 false s)
  else if h : 0 ≤ s.curBblSRRNum ∧ s.curBblSRRNum < maxSrNum then do
    let slot : Fin maxSrNum := ⟨s.curBblSRRNum.toNat, by omega⟩
    let s := { s with
      stageTermRegIdx := Function.update s.stageTermRegIdx slot t.regIdx.val
      curBblSRRNum := s.curBblSRRNum + 1
      stageTermPeriBa := (s.periAt t.periIdx).baseAddr }
    let s ← recordCrVals s t.periIdx 0 ((s.periAt t.periIdx).maxRegIdx + 1).toNat
    pure (if reg.type == .crSr then { s with crSrRIdxInBbl := reg.rIdxInBbl } else s)
  else .error .undefined

/-- `for (i = 0; i < 4; i ++)` over the mapped SR input file, from iteration `i`, `k` left. -/
def srRFileLoop (cfg : RunConfig) (s : Emu) (map : SrRMap) (retVal : UInt32) :
    Nat → Except Stop (Emu × SrRMap × UInt32)
  | 0 => .ok (s, map, retVal)
  | k + 1 =>
    match map.bytes[map.ptr]? with
    | some byte => srRFileLoop cfg s ⟨map.bytes, map.ptr + 1⟩ ((retVal <<< 8) + byte.toUInt32) k
    | none =>
      -- out of input: stop after too many unexpected reads, else repeat the last value at the
      -- read site and return 0 elsewhere
      if srRThreshHold < s.srRTime then .error (.exit 0x23 true s)
      else
        let retVal := if s.curBblE == cfg.srrSite then s.prevRetVal else 0
        .ok ({ s with srRTime := s.srRTime + 1 }, map, retVal)

def openSrRFile (cfg : RunConfig) (s : Emu) : Except Stop SrRMap :=
  match s.srRMap, cfg.srRFile with
  | some map, _ => .ok map
  | none, some bytes => .ok ⟨bytes, 0⟩
  | none, none => .error (.exit (-1) false s)

/-- An SR read of stage SR_R_EXPLORE at or after the block of the explored read: the next
four bytes of the SR input file, big-endian. -/
def srRFileRead (cfg : RunConfig) (s : Emu) : Except Stop (Emu × UInt32) := do
  let map ← openSrRFile cfg s
  let (s, map, retVal) ← srRFileLoop cfg s map 0 4
  pure ({ s with srRMap := some map, prevRetVal := retVal }, retVal)

/-- The SR and CR_SR case of `unassigned_mem_read`, by stage; with the `doneWork` argument. -/
def srRead (cfg : RunConfig) (s : Emu) (t : Target) (size : Nat) :
    Except Stop (Emu × UInt32 × Int) := do
  let reg := s.regAt t.periIdx t.regIdx
  let hybrid := reg.type == .crSr
  match cfg.pmStage with
  | .srRId =>
    match ← liftHalt s (pmSRFindModel s.curBblE (s.periAt t.periIdx) reg) with
    | some ei =>
      let (s, retVal) ← modelRead s t ei
      pure (s, retVal, 0)
    | none =>
      if hybrid && s.handleHybridSRWay == 0 then
        -- a CR_SR read outside polling is served as a CR read
        pure (s, ← valBRead s t size, 0)
      else
        let s := if hybrid then { s with bblCnt := s.bblCnt - 1 } else s
        pure (← recordSrRead s t, 0, 0)
  | .srRExplore =>
    if !(cfg.targetBblCnt - 1 ≤ s.bblCnt) then
      match ← liftHalt s (pmSRFindModel s.curBblE (s.periAt t.periIdx) reg) with
      | some ei =>
        let (s, retVal) ← modelRead s t ei
        pure (s, retVal, 0)
      | none =>
        if hybrid && s.handleHybridSRWay == 0 then pure (s, ← valBRead s t size, 0)
        else .error (.exit 0x24 false s)
    else if hybrid && !(s.bblCnt == cfg.targetBblCnt - 1 || reg.rIdxInBbl == s.crSrRIdxInBbl) then
      -- in the explored block only the read that started the exploration is an SR read
      pure (s, ← valBRead s t size, 0)
    else
      let (s, retVal) ← srRFileRead cfg s
      pure (s, retVal, 0)
  | .fuzzing =>
    match ← liftHalt s (pmSRFindModel s.curBblE (s.periAt t.periIdx) reg) with
    | some ei =>
      let (s, retVal) ← modelRead s t ei
      pure (s, retVal, 0)
    | none =>
      if hybrid && s.handleHybridSRWay == 0 then pure (s, ← valBRead s t size, 0)
      else
        let s := if hybrid then { s with bblCnt := s.bblCnt - 1 } else s
        let s := { s with
          stageTermPeriBa := (s.periAt t.periIdx).baseAddr
          stageTermRegIdx := Function.update s.stageTermRegIdx ⟨0, by decide⟩ t.regIdx.val
          crSrRIdxInBbl := if hybrid then reg.rIdxInBbl else s.crSrRIdxInBbl }
        pure (s, 0, pmUnmodSrrs)
  | .invalid => pure (s, 0, 0)

/-- Copies the fuzzer's input into `pm_rand` on the first DR read of a worker; with the
`doneWork` argument its failures set. -/
def loadPmRand (cfg : RunConfig) (s : Emu) : Except Stop (Emu × Int) :=
  if s.pmRandSz != 0 then .ok (s, 0)
  else
    match cfg.aflFile with
    | some (.bytes data) =>
      let size := min data.length pmRandArrSize
      let pmRand : Fin pmRandArrSize → UInt8 := fun j => (data[j.val]?).getD (s.pmRand j)
      .ok ({ s with pmRandSz := size, pmRand }, if data.length < pmRandMinSize then 0x70 else 0)
    | some (.unreadable size) =>
      -- `open` fails, `stat` succeeds, and the `read` from the bad descriptor fails too
      .ok ({ s with pmRandSz := min size pmRandArrSize }, 0x70)
    | some .missing | none =>
      -- `stat` fails as well and leaves the size it is read for uninitialised
      .error .undefined

/-- `for (i = 0; i < peri->DR_bytes_num; i ++)`: the bytes of one DR read, big-endian, from
iteration `i` with `k` left. -/
def pmRandLoop (s : Emu) (retVal : UInt32) (doneWorkP : Int) :
    Nat → Except Stop (Emu × UInt32 × Int)
  | 0 => .ok (s, retVal, doneWorkP)
  | k + 1 =>
    if h : 0 ≤ s.pmRandI ∧ s.pmRandI < pmRandArrSize then
      let retVal := (retVal <<< 8) + (s.pmRand ⟨s.pmRandI.toNat, by omega⟩).toUInt32
      let s := { s with pmRandI := s.pmRandI + 1 }
      -- the cursor is checked after the byte is read
      let doneWorkP := if s.pmRandSz < s.pmRandI then 0x71 else doneWorkP
      pmRandLoop s retVal doneWorkP k
    else .error .undefined

def pmRandRead (cfg : RunConfig) (s : Emu) (t : Target) : Except Stop (Emu × UInt32 × Int) := do
  let (s, doneWorkP) ← loadPmRand cfg s
  pmRandLoop s 0 doneWorkP (s.periAt t.periIdx).drBytesNum.toNat

/-- The FUZZING case of a DR read: 0 in the fork server, the input in a worker. -/
def workerDrRead (cfg : RunConfig) (s : Emu) (t : Target) : Except Stop (Emu × UInt32 × Int) :=
  if !cfg.aflStartfsInvoked then pure (s, 0, 0) else pmRandRead cfg s t

/-- The DR case of `unassigned_mem_read`. -/
def drRead (cfg : RunConfig) (s : Emu) (t : Target) : Except Stop (Emu × UInt32 × Int) :=
  match cfg.pmStage with
  | .srRId | .srRExplore =>
    -- model extraction reads the fuzzer's input only while it replays it, and falls through
    -- to the FUZZING case then
    if !(cfg.aflFile.isSome && s.bblCnt < cfg.replayBblCnt) then pure (s, 0, 0)
    else workerDrRead cfg s t
  | .fuzzing => workerDrRead cfg s t
  | .invalid => pure (s, 0, 0)

/-- `doneWork`: a FUZZING worker exits, reporting an access to an unmodelled peripheral with a
dump first; the other stages return from it. -/
def doneWork (cfg : RunConfig) (s : Emu) (val : Int) : Except Stop Emu :=
  if cfg.pmStage == .fuzzing then
    .error (.exit (if val = 0x71 then 0 else val) (val == pmUncatReg || val == pmUnmodSrrs) s)
  else .ok s

/-- `reg_cat` runs while a model is being extracted. -/
def catRead (cfg : RunConfig) (s : Emu) (t : Target) : Except Stop Emu :=
  if cfg.pmMeEna then regCatRead cfg s t else pure s

/-- The `switch (reg->type)` of `unassigned_mem_read`: the value read, with the `doneWork`
argument. -/
def serveRead (cfg : RunConfig) (s : Emu) (t : Target) (size : Nat) :
    Except Stop (Emu × UInt32 × Int) :=
  match (s.regAt t.periIdx t.regIdx).type with
  | .uc =>
    pure ({ s with
      stageTermPeriBa := (s.periAt t.periIdx).baseAddr
      stageTermRegIdx := Function.update s.stageTermRegIdx ⟨0, by decide⟩ t.regIdx.val }, 0,
      pmUncatReg)
  | .cr => do
    let s := s.modifyReg t.periIdx t.regIdx (bumpRIdx s.bblCnt)
    let retVal ← valBRead s t size
    pure (s, retVal, 0)
  | .crSr => srRead cfg (s.modifyReg t.periIdx t.regIdx (bumpRIdx s.bblCnt)) t size
  | .sr => srRead cfg s t size
  | .dr => drRead cfg s t
  | .other _ _ => pure (s, 0, 0x75)

/-- `if (doneWork_p) doneWork(doneWork_p)` at the end of a read. -/
def finishRead (cfg : RunConfig) (s : Emu) (retVal : UInt32) (doneWorkP : Int) :
    Except Stop (Emu × UInt32) :=
  if doneWorkP != 0 then do
    let s ← doneWork cfg s doneWorkP
    pure (s, retVal)
  else pure (s, retVal)

def unassignedMemRead (cfg : RunConfig) (s : Emu) (addr size : Nat) : Except Stop (Emu × UInt32) :=
  if 0x40000000 ≤ addr ∧ addr < 0x60000000 then do
    let (s, t) ← locate s addr size
    let s ← catRead cfg s t
    let (s, retVal, doneWorkP) ← serveRead cfg s t size
    finishRead cfg s retVal doneWorkP
  else .ok (s, 0)

def catWrite (cfg : RunConfig) (s : Emu) (t : Target) : Emu :=
  if cfg.pmMeEna then regCatWrite cfg s t else s

/-- The `switch (reg->type)` of `unassigned_mem_write`. -/
def serveWrite (cfg : RunConfig) (s : Emu) (t : Target) (wriVal : UInt32) (size : Nat) :
    Except Stop Emu :=
  match (s.regAt t.periIdx t.regIdx).type with
  | .uc =>
    doneWork cfg { s with
      stageTermPeriBa := (s.periAt t.periIdx).baseAddr
      stageTermRegIdx := Function.update s.stageTermRegIdx ⟨0, by decide⟩ t.regIdx.val } pmUncatReg
  | .cr | .crSr => do
    let reg ← liftHalt s (writeValB (s.regAt t.periIdx t.regIdx) t.off wriVal size)
    pure (s.modifyReg t.periIdx t.regIdx fun _ => reg)
  | .sr | .dr => pure s
  | .other _ _ => doneWork cfg s 0x75

def unassignedMemWrite (cfg : RunConfig) (s : Emu) (addr val size : Nat) : Except Stop Emu :=
  if 0x40000000 ≤ addr ∧ addr < 0x60000000 then do
    let (s, t) ← locate s addr size
    serveWrite cfg (catWrite cfg s t) t val.toUInt32 size
  else .ok s

end P2im
