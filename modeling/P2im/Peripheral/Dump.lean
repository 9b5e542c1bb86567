import P2im.Peripheral.Basic
import P2im.Shared.Json
import P2im.Shared.Printf
import P2im.Shared.CConv

set_option autoImplicit false

/-!
# Dumping the model

The part of `pm_dump_model` of `hw/arm/peri-mod.c` that writes the peripherals: each becomes a
member of `"model"` named by its base address, with its registers as the run left them and the
events copied from the model file the run loaded, which the emulator never changes. The other
members of the file (the interrupts, the SR read site, the access to an unmodelled peripheral)
are left out.
-/

namespace P2im

/-- `"0x%x"` of an address, as `snprintf` writes a base address or a CR value. -/
def hexKey (v : UInt32) : String := String.ofList ("0x".toList ++ Printf.hex v.toNat)

/-- A register: its category alone for a UC register, then `"read"` and `"write"`, the lock of an
SR or a CR_SR and the value of a CR or a CR_SR. -/
def dumpReg (reg : PmMMIORegister) : Json :=
  if reg.type = .uc then .obj [("type", .int reg.type.toInt)]
  else .obj (([("type", .int reg.type.toInt), ("read", .int reg.read), ("write", .int reg.write)] :
      List (String × Json)) ++
    (if reg.type = .sr ∨ reg.type = .crSr then ([("sr_locked", .int reg.srLocked)] : List (String × Json))
      else []) ++
    (if reg.type = .cr ∨ reg.type = .crSr then ([("cr_value", .str (hexKey reg.crVal))] : List (String × Json))
      else []))

/-- `regs[0 .. max_reg_idx]`; past the array the read is undefined. -/
def dumpRegs (peri : PmPeripheral) : Except Halt (List Json) :=
  (List.range (peri.maxRegIdx + 1).toNat).mapM fun i => dumpReg <$> peri.regAt i

/-- The events of the peripheral at `ba` in the loaded model file, or none. -/
def copiedEvents (modelIf : Option Json) (ba : String) : List (String × Json) :=
  match modelIf.bind (Json.member? ba) with
  -- an input peripheral always has "events": the loader checked it
  | some copied => ((copied.member? "events").map Json.members).getD []
  | none => []

def dumpPeri (modelIf : Option Json) (peri : PmPeripheral) : Except Halt (String × Json) := do
  let regs ← dumpRegs peri
  pure (hexKey peri.baseAddr, .obj [("DR_bytes_num", .int peri.drBytesNum),
    ("reg_size", .int (CConv.toInt peri.regSize.toNat)), ("regs", .arr regs),
    ("events", .obj (copiedEvents modelIf (hexKey peri.baseAddr)))])

/-- The members of `"model"` for the peripheral list walked from its head; a later peripheral at
the same base address takes the place of an earlier one. `modelIf` is the `"model"` object of
the file the run loaded, if it loaded one. -/
def dumpPeris (modelIf : Option Json) : List PmPeripheral → List (String × Json) →
    Except Halt (List (String × Json))
  | [], jperis => pure jperis
  | peri :: rest, jperis => do
    let (ba, jperi) ← dumpPeri modelIf peri
    dumpPeris modelIf rest (Json.setMember ba jperi jperis)

end P2im
