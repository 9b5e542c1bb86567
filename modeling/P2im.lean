import P2im.Shared.Cyclic
import P2im.Shared.Halt
import P2im.Shared.Printf
import P2im.Interrupt.Table
import P2im.Interrupt.RoundRobin
import P2im.Peripheral.Basic
import P2im.Peripheral.SrModel
import P2im.Peripheral.Mmio
import P2im.Peripheral.Access
import P2im.Shared.Outcome
import P2im.Peripheral.Category
import P2im.Shared.CConv
import P2im.Peripheral.Load
import P2im.Peripheral.Run
import P2im.Peripheral.Locks
import P2im.Peripheral.Dump
import P2im.Shared.Python
import P2im.Extraction.Regs
import P2im.Extraction.RegLocks
import P2im.Extraction.LockDiscipline
import P2im.Peripheral.LoadSafety
import P2im.Shared.Choices
import P2im.Extraction.SrInputs
import P2im.Extraction.Prereq
import P2im.Extraction.ModelFile
import P2im.Extraction.Adjust
import P2im.Extraction.MainLoop
import P2im.Extraction.LoopInvariant
import P2im.Interrupt.Rounds
import P2im.Peripheral.SrRecord
import P2im.Peripheral.RoundTrip
import P2im.Extraction.Repair
import P2im.Extraction.CheckedBits
import P2im.Coverage.FuncCov
import P2im.Extraction.HangOnly
import P2im.Extraction.Classify
import P2im.Peripheral.Reload
import P2im.Coverage.InstCov
import P2im.Coverage.InstCovFile
import P2im.Extraction.Runs
import P2im.Fuzzing.OnDemand
import P2im.Fuzzing.Seeds
