import Mathlib.Logic.Relation
import P2im.Extraction.Adjust
import P2im.Peripheral.Dump

set_option autoImplicit false

/-!
# The main loop of model instantiation

Each pass of the `while True` loop of `me.py` is a depth. Stage 1 runs the emulator in stage
SR_R_ID from the file the last depth saved, once more from its own dump when it ended with
`0x19`; stage 1.4 adjusts the events to the category changes it saw; stage 1.5 reads the SR read
site that ended the run; stages 2 to 2.4 explore the site, up to three times while no input
made the driver check a bit; stage 2.5 writes the site into the events, unless the SR became a
DR first. The emulator runs are opaque to the script: what it relies on is what they can do to
the file, each register moving by the categorisation of `unassigned_mem_read` and
`unassigned_mem_write`, and the events copied.

What a depth should keep, in every file it saves: each key of a peripheral's `"events"` lists
the indices of its CRs and CR_SRs (the only key `pm_SR_find_model` can match), and each srr
site's `sr_idx` names SRs or CR_SRs.
-/

namespace P2im

/-! ## What a depth should keep -/

def RegDict.isCr (d : RegDict) : Bool := d.type == 1 || d.type == 4

def RegDict.isSr (d : RegDict) : Bool := d.type == 2 || d.type == 4

theorem RegDict.isCr_iff (d : RegDict) : d.isCr = true ↔ d.type = 1 ∨ d.type = 4 := by
  simp [RegDict.isCr]

theorem RegDict.isSr_iff (d : RegDict) : d.isSr = true ↔ d.type = 2 ∨ d.type = 4 := by
  simp [RegDict.isSr]

def crIndices (regs : List RegDict) : List Int :=
  (regs.zipIdx.filter fun di => di.1.isCr).map fun di => (di.2 : Int)

/-- The register indices a key of `"events"` lists: the integer before the `':'` of each of its
comma-separated `i:v` pairs; none for the empty key. -/
def keyIndices (key : String) : Option (List Int) :=
  if key = "" then some []
  else (key.toList.splitOn ',').mapM fun pair =>
    match pair.splitOn ':' with
    | [i, _] => (Python.int i).toOption
    | _ => none

def srIdxEntries (site : Json) : List Json := ((site.member? "sr_idx").map Json.items).getD []

/-- An entry of `sr_idx` names an SR or a CR_SR of `regs`. -/
def namesSr (regs : List RegDict) : Json → Bool
  | .int i => 0 ≤ i && (regs[i.toNat]?.map RegDict.isSr).getD false
  | _ => false

structure PeriConsistent (p : PeriFile) : Prop where
  keys : ∀ conf ∈ p.events.members, keyIndices conf.1 = some (crIndices p.regs)
  sites : ∀ conf ∈ p.events.members, ∀ site ∈ conf.2.members, ∀ x ∈ srIdxEntries site.2,
    namesSr p.regs x = true

def ModelConsistent (m : ModelFile) : Prop := ∀ bp ∈ m, PeriConsistent bp.2

instance (p : PeriFile) : Decidable (PeriConsistent p) :=
  decidable_of_iff ((∀ conf ∈ p.events.members, keyIndices conf.1 = some (crIndices p.regs)) ∧
      ∀ conf ∈ p.events.members, ∀ site ∈ conf.2.members, ∀ x ∈ srIdxEntries site.2,
        namesSr p.regs x = true)
    ⟨fun ⟨keys, sites⟩ => ⟨keys, sites⟩, fun ⟨keys, sites⟩ => ⟨keys, sites⟩⟩

instance (m : ModelFile) : Decidable (ModelConsistent m) :=
  inferInstanceAs (Decidable (∀ bp ∈ m, PeriConsistent bp.2))

def NamesReg (events : Json) (r : Int) : Prop :=
  ∃ conf ∈ events.members, ∃ site ∈ conf.2.members, Json.int r ∈ srIdxEntries site.2

/-! ## What an emulator run can do to the file -/

/-- A category change one access makes (`explore` for an SR_R_EXPLORE run): a first read makes
an SR, or a DR once exploration started; a first write a DR; polling a DR makes an SR and
polling a CR a CR_SR; outside exploration, a write after a read makes a CR. Locks are left out:
a locked SR or CR_SR does not become a CR, which only makes fewer runs. -/
inductive CatMove (explore : Bool) : Int → Int → Prop
  | read : CatMove explore 0 2
  | readExplored : explore = true → CatMove explore 0 3
  | write : CatMove explore 0 3
  | pollDr : CatMove explore 3 2
  | pollCr : CatMove explore 1 4
  | readModifyWrite {t : Int} : explore = false → t = 2 ∨ t = 3 ∨ t = 4 → CatMove explore t 1

/-- The records a run dumps for a peripheral it loaded with records `old` (none for one it
created): each register reached its category by moves from the loaded one, UC past the loaded
records, and a CR or CR_SR carries its value as `"0x%x"` prints it. -/
def RegsMoved (explore : Bool) (old new : List RegDict) : Prop :=
  old.length ≤ new.length ∧ ∀ (i : Nat) (d : RegDict), new[i]? = some d →
    Relation.ReflTransGen (CatMove explore) (old.getD i RegDict.uc).type d.type ∧
    (d.isCr → ∃ v : UInt32, d.crValue = some (hexKey v))

def loadedPeri (input : Option ModelFile) (ba : String) : Option PeriFile := input.bind (·.lookup ba)

/-- What a run dumps against what it loaded: every loaded peripheral, each with its events copied
and its records moved, and the peripherals it created with no events. -/
structure RunDump (explore : Bool) (input : Option ModelFile) (output : ModelFile) : Prop where
  distinct : (output.map Prod.fst).Nodup
  kept : ∀ ba p, loadedPeri input ba = some p → (output.lookup ba).isSome
  events : ∀ ba p', output.lookup ba = some p' →
    p'.events = ((loadedPeri input ba).map PeriFile.events).getD (.obj [])
  regs : ∀ ba p', output.lookup ba = some p' →
    RegsMoved explore (((loadedPeri input ba).map PeriFile.regs).getD []) p'.regs

/-- The SR read site a stage-1 run dumps: the SRs and CR_SRs the block read, at `peri_base_addr`
the peripheral of the last; a register the block wrote after reading it became a CR. -/
structure SrReadOf (input : Option ModelFile) (output : ModelFile) (srR : SrRead) : Prop where
  count : srR.srNum = srR.srIdx.length
  peri : (output.lookup (pyHex srR.periBaseAddr)).isSome
  read : ∀ i ∈ srR.srIdx, ∃ ba p d, output.lookup ba = some p ∧ 0 ≤ i ∧ p.regs[i.toNat]? = some d ∧
    (d.isSr ∨ d.type = 1 ∧
      (((loadedPeri input ba).map PeriFile.regs).getD [] |>.getD i.toNat RegDict.uc).isCr = false)

/-! ## A depth -/

/-- Stage 1: `ret` is the first run's code, `base` the file the last run loaded (`model_if_s1`),
`m1` what it dumped and `srR` its SR read site. -/
inductive Stage1 (mIn : Option ModelFile) : Int → Option ModelFile → ModelFile → SrRead → Prop
  | once {ret : Int} {m1 : ModelFile} {srR : SrRead} : ret ≠ 0x19 → RunDump false mIn m1 →
      SrReadOf mIn m1 srR → Stage1 mIn ret mIn m1 srR
  /-- `stage1(redo=True)` loads the first run's dump. -/
  | redo {first m1 : ModelFile} {srR : SrRead} : RunDump false mIn first →
      RunDump false (some first) m1 → SrReadOf (some first) m1 srR → Stage1 mIn 0x19 (some first) m1 srR

def Invocation (m : ModelFile) (periBa : String) (merged : ModelFile) : Prop :=
  ∃ runs : List ModelFile, (∀ r ∈ runs, RunDump true (some m) r) ∧ stage22 m periBa runs = .ok merged

inductive Invocations (m15 : ModelFile) (periBa : String) : Nat → ModelFile → Prop
  | first {m22 : ModelFile} : Invocation m15 periBa m22 → Invocations m15 periBa 1 m22
  | next {n : Nat} {m22 m22' : ModelFile} : n < 3 → Invocations m15 periBa n m22 →
      Invocation m22 periBa m22' → Invocations m15 periBa (n + 1) m22'

structure Explored (mIn : Option ModelFile) where
  ret : Int
  base : Option ModelFile
  m1 : ModelFile
  srR : SrRead
  m14 : ModelFile
  info : SrrInfo
  invocations : Nat
  m22 : ModelFile
  stage1 : Stage1 mIn ret base m1 srR
  adjusted : stage14 base m1 = .ok (m14, false)
  more : ret ≠ 0x30
  site : stage15 m14 srR = .ok info
  explored : Invocations m14 info.periBa invocations m22

structure ModelledDepth (mIn : Option ModelFile) (m' : ModelFile) extends Explored mIn where
  traceSig : CheckedSig
  names : Prereq (List Char)
  prereq : Prereq Json
  eval : Bool
  converted : convertPrereq (if invocations = 3 then 2 else 1) traceSig names = .ok prereq
  dumped : stage25 m22 info (if invocations = 3 then 2 else 1) prereq eval = .ok m'

structure SrToDrDepth (mIn : Option ModelFile) (m' : ModelFile) extends Explored mIn where
  three : invocations = 3
  toDr : srToDr m22 info = .ok (some m')

/-- The file a depth saves last, from the file the depth before saved (none before depth 1 with
no `--model-if`). -/
inductive DepthStep (mIn : Option ModelFile) : ModelFile → Prop
  /-- Stage 1.4 saw a new CR: the loop starts the next depth. -/
  | restart {ret : Int} {base : Option ModelFile} {m1 m14 : ModelFile} {srR : SrRead} :
      Stage1 mIn ret base m1 srR → stage14 base m1 = .ok (m14, true) → DepthStep mIn m14
  /-- The run saw no new SR read site for a while: the script ends. -/
  | finish {base : Option ModelFile} {m1 m14 : ModelFile} {srR : SrRead} :
      Stage1 mIn 0x30 base m1 srR → stage14 base m1 = .ok (m14, false) → DepthStep mIn m14
  | modelled {m' : ModelFile} : ModelledDepth mIn m' → DepthStep mIn m'
  | srToDr {m' : ModelFile} : SrToDrDepth mIn m' → DepthStep mIn m'

inductive Reachable : Option ModelFile → Prop
  | start : Reachable none
  | depth {mIn : Option ModelFile} {m' : ModelFile} : Reachable mIn → DepthStep mIn m' →
      Reachable (some m')

/-! ## The adjustment of an SR to a DR keeps the sites that read it -/

theorem mem_of_lookup {α : Type} {m : List (String × α)} {key : String} {a : α}
    (found : m.lookup key = some a) : (key, a) ∈ m := by
  induction m with
  | nil => cases found
  | cons kv rest ih =>
    by_cases same : key = kv.1
    · subst same
      simp only [List.lookup, beq_self_eq_true, Option.some.injEq] at found
      subst found
      exact List.mem_cons_self
    · have other : (key == kv.1) = false := beq_false_of_ne same
      simp only [List.lookup, other] at found
      exact List.mem_cons_of_mem _ (ih found)

theorem namesSr_of_mem {regs : List RegDict} {r : Int} (named : namesSr regs (.int r) = true) :
    ∃ d, 0 ≤ r ∧ regs[r.toNat]? = some d ∧ d.isSr = true := by
  simp only [namesSr, Bool.and_eq_true, decide_eq_true_eq] at named
  obtain ⟨nonneg, sr⟩ := named
  cases at_r : regs[r.toNat]? with
  | none => simp [at_r] at sr
  | some d => exact ⟨d, nonneg, rfl, by simpa [at_r] using sr⟩

theorem position_nonneg {α : Type} {xs : List α} {i : Int} {j : Nat} (nonneg : 0 ≤ i)
    (found : Python.position xs i = some j) : j = i.toNat := by
  unfold Python.position at found
  rw [if_neg (by omega)] at found
  split at found
  · cases found; rfl
  · cases found

/-- When some srr site reads the SR the adjustment makes a DR, the file it saves has a site
whose `sr_idx` names a DR. -/
theorem sr_to_dr_depth_breaks_sr_idx {mIn : Option ModelFile} {m' : ModelFile}
    (depth : SrToDrDepth mIn m') {peri : PeriFile}
    (found : depth.m22.lookup depth.info.periBa = some peri) {srIdx : Int}
    (first : depth.info.srIdx[0]? = some srIdx) (named : NamesReg peri.events srIdx) :
    ¬ ModelConsistent m' := by
  obtain ⟨peri', srIdx', j, reg, found', first', position, at_j, saved⟩ := srToDr_some depth.toDr
  rw [found] at found'
  cases found'
  rw [first] at first'
  cases first'
  intro consistent
  have saved_peri := mem_of_lookup (lookup_setItem_self depth.info.periBa
    { peri with regs := peri.regs.set j { reg with type := 3 } } depth.m22)
  rw [← saved] at saved_peri
  obtain ⟨conf, hasConf, site, hasSite, entry⟩ := named
  -- the site is still there, and its entry names a register that is now a DR
  have sr := (consistent _ saved_peri).sites conf hasConf site hasSite _ entry
  obtain ⟨d, nonneg, at_r, isSr⟩ := namesSr_of_mem sr
  obtain rfl := position_nonneg nonneg position
  have length : srIdx.toNat < peri.regs.length := (List.getElem?_eq_some_iff.mp at_j).1
  simp only [List.getElem?_set_self length, Option.some.injEq] at at_r
  subst at_r
  simp [RegDict.isSr] at isSr

/-! ## Runs of a fixed file -/

theorem lookup_singleton {α : Type} {ba ba' : String} {a a' : α} (found : [(ba, a)].lookup ba' = some a') :
    ba' = ba ∧ a' = a := by
  by_cases same : ba' = ba
  · subst same
    simp only [List.lookup, beq_self_eq_true, Option.some.injEq] at found
    exact ⟨rfl, found.symm⟩
  · have other : (ba' == ba) = false := beq_false_of_ne same
    simp [List.lookup, other] at found

theorem runDump_single {explore : Bool} {input : Option ModelFile} {ba : String} {p' : PeriFile}
    (only : ∀ ba' p, loadedPeri input ba' = some p → ba' = ba)
    (events : p'.events = ((loadedPeri input ba).map PeriFile.events).getD (.obj []))
    (regs : RegsMoved explore (((loadedPeri input ba).map PeriFile.regs).getD []) p'.regs) :
    RunDump explore input [(ba, p')] where
  distinct := by simp
  kept ba' p loaded := by
    rw [only ba' p loaded]
    simp [List.lookup]
  events ba' p'' found := by
    obtain ⟨rfl, rfl⟩ := lookup_singleton found
    exact events
  regs ba' p'' found := by
    obtain ⟨rfl, rfl⟩ := lookup_singleton found
    exact regs

theorem regsMoved_same {explore : Bool} {old new : List RegDict}
    (types : new.map RegDict.type = old.map RegDict.type)
    (hex : ∀ d ∈ new, d.isCr → ∃ v : UInt32, d.crValue = some (hexKey v)) : RegsMoved explore old new := by
  have length : new.length = old.length := by simpa using congrArg List.length types
  refine ⟨length.ge, fun i d at_i => ⟨?_, hex d (List.mem_of_getElem? at_i)⟩⟩
  have below : i < old.length := length ▸ (List.getElem?_eq_some_iff.mp at_i).1
  have same : (new.map RegDict.type)[i]? = (old.map RegDict.type)[i]? := by rw [types]
  simp only [List.getElem?_map, at_i, List.getElem?_eq_getElem below, Option.map_some,
    Option.some.injEq] at same
  rw [List.getD_eq_getElem?_getD, List.getElem?_eq_getElem below, Option.getD_some, ← same]

/-! ## A status register read at two sites

At depth 1 the stage-1 run writes register 1 of the peripheral at `0x40000000`, reads it and
writes it again, which makes it a CR of value 5, then reads register 0, a first read that makes
an unlocked SR, in the block ending at `0x8000`. The exploration finds bit 5 checked, and stage
2.5 writes the site. At depth 2 the run reads register 0 again in the block ending at `0x9000`,
which drops the value: three invocations of stage 2 find no bit checked, and the SR becomes a
DR, while the site of `0x8000` still names it. -/

def firstSr : RegDict := ⟨2, some 1, some 0, some 0, none⟩

def firstCr : RegDict := ⟨1, some 1, some 1, none, some (hexKey 5)⟩

def firstDump : ModelFile := [("0x40000000", ⟨[firstSr, firstCr], .obj []⟩)]

def firstRead : SrRead := ⟨1, 0x40000000, [0], 0, 0x8000, 1, "main"⟩

def firstEvents : Json :=
  .obj [("1:0x5", .obj [("0x8000", .obj [("sr_num", .int 1), ("sr_idx", .arr [.int 0]),
    ("set_bits", .int 1), ("satisfy", .arr [.arr [.arr [.int 5], .int 1]]),
    ("never_satisfy", .arr []), ("other", .arr [])])])]

def firstSaved : ModelFile := [("0x40000000", ⟨[firstSr, firstCr.popCrValue], firstEvents⟩)]

def secondDump : ModelFile := [("0x40000000", ⟨[firstSr, firstCr], firstEvents⟩)]

def secondRead : SrRead := ⟨1, 0x40000000, [0], 0, 0x9000, 2, "main"⟩

def secondSaved : ModelFile :=
  [("0x40000000", ⟨[{ firstSr with type := 3 }, firstCr.popCrValue], firstEvents⟩)]

theorem firstDump_hex : ∀ d ∈ [firstSr, firstCr], d.isCr → ∃ v : UInt32, d.crValue = some (hexKey v) := by
  intro d mem cr
  simp only [List.mem_cons, List.not_mem_nil, or_false] at mem
  rcases mem with rfl | rfl
  · simp [firstSr, RegDict.isCr] at cr
  · exact ⟨5, rfl⟩

theorem firstDump_run : RunDump false none firstDump := by
  refine runDump_single (fun _ _ loaded => by cases loaded) rfl ⟨by simp [loadedPeri], fun i d at_i => ?_⟩
  refine ⟨?_, firstDump_hex d (List.mem_of_getElem? at_i)⟩
  match i, at_i with
  | 0, at_i =>
    cases at_i
    exact .single .read
  | 1, at_i =>
    cases at_i
    -- a first write makes a DR, and the write after the read a CR
    exact .tail (.single .write) (.readModifyWrite rfl (by decide))

theorem firstDump_read : SrReadOf none firstDump firstRead where
  count := rfl
  peri := by decide
  read i mem := by
    simp only [firstRead, List.mem_cons, List.not_mem_nil, or_false] at mem
    subst mem
    exact ⟨"0x40000000", _, firstSr, rfl, le_refl 0, rfl, .inl rfl⟩

theorem firstDump_explore : RunDump true (some firstDump) firstDump :=
  runDump_single (fun _ _ loaded => (lookup_singleton loaded).1) rfl (regsMoved_same rfl firstDump_hex)

theorem secondDump_run (input : ModelFile) (saved : input = firstSaved) :
    ∀ explore, RunDump explore (some input) secondDump := by
  subst saved
  exact fun _ =>
    runDump_single (fun _ _ loaded => (lookup_singleton loaded).1) rfl (regsMoved_same rfl firstDump_hex)

def depthOne : ModelledDepth none firstSaved where
  ret := 0x20
  base := none
  m1 := firstDump
  srR := firstRead
  m14 := firstDump
  info := ⟨1, "0x40000000", [0], 0, "1:0x5", "0x8000", "main", 1⟩
  invocations := 1
  m22 := [("0x40000000", ⟨[firstSr, firstCr.popCrValue], .obj []⟩)]
  stage1 := .once (by decide) firstDump_run firstDump_read
  adjusted := rfl
  more := by decide
  site := rfl
  explored := .first ⟨[firstDump], fun r mem => by
    simp only [List.mem_cons, List.not_mem_nil, or_false] at mem
    exact mem ▸ firstDump_explore, rfl⟩
  traceSig := .node [] none
  names := ⟨["bit:05".toList], [], []⟩
  prereq := ⟨[.arr [.arr [.int 5], .int 1]], [], []⟩
  eval := false
  converted := rfl
  dumped := rfl

theorem secondDump_invocation (m : ModelFile) (from_ : m = secondDump ∨ m = firstSaved) :
    Invocation m "0x40000000" firstSaved := by
  refine ⟨[secondDump], fun r mem => ?_, ?_⟩
  · simp only [List.mem_cons, List.not_mem_nil, or_false] at mem
    subst mem
    rcases from_ with rfl | rfl
    · exact runDump_single (fun _ _ loaded => (lookup_singleton loaded).1) rfl
        (regsMoved_same rfl firstDump_hex)
    · exact secondDump_run _ rfl true
  · rcases from_ with rfl | rfl <;> rfl

def depthTwo : SrToDrDepth (some firstSaved) secondSaved where
  ret := 0x20
  base := some firstSaved
  m1 := secondDump
  srR := secondRead
  m14 := secondDump
  info := ⟨1, "0x40000000", [0], 0, "1:0x5", "0x9000", "main", 2⟩
  invocations := 3
  m22 := firstSaved
  stage1 := .once (by decide) (secondDump_run _ rfl false) ⟨rfl, by decide, fun i mem => by
    simp only [secondRead, List.mem_cons, List.not_mem_nil, or_false] at mem
    subst mem
    exact ⟨"0x40000000", _, firstSr, rfl, le_refl 0, rfl, .inl rfl⟩⟩
  adjusted := rfl
  more := by decide
  site := rfl
  explored := .next (by decide) (.next (by decide) (.first (secondDump_invocation _ (.inl rfl)))
    (secondDump_invocation _ (.inr rfl))) (secondDump_invocation _ (.inr rfl))
  three := rfl
  toDr := rfl

theorem uart_second_site_breaks_sr_idx :
    Reachable (some firstSaved) ∧ ModelConsistent firstSaved ∧
      DepthStep (some firstSaved) secondSaved ∧ ¬ ModelConsistent secondSaved :=
  ⟨.depth .start (.modelled depthOne), by decide, .srToDr depthTwo,
    sr_to_dr_depth_breaks_sr_idx depthTwo rfl rfl
      ⟨_, List.mem_cons_self, _, List.mem_cons_self, List.mem_cons_self⟩⟩

end P2im
