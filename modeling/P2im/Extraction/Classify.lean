import P2im.Extraction.HangOnly
import P2im.Extraction.ModelFile

set_option autoImplicit false

/-!
# What `stage2_5` infers of the checked bits

`stage2_5` sorts the names of the checked bit combinations into `"satisfy"`, `"never_satisfy"`
and `"other"` by how their exploration runs ended, which `stage2` recorded in `term_cond0`: 0x21
when the run returned from the function that reads the SR, 0x23 when it hung.

* Some runs hung and some returned: the first run that returned moved forward, and its name goes
  under `satisfy`.
* All runs hung: when they hung at two sites, one of them the site explored, the first run that
  hung at the other one moved forward (case 1); when they all hung at one site, the run that
  covered the most new blocks decides for the last name (case 2); otherwise nothing is inferred.
* All runs returned: a run that read a DR of the peripheral before it read an SR again names a
  bit that receives, one that wrote a DR a bit that transmits; both go under `satisfy`.

Every name the inference placed nowhere goes under `"other"`.
-/

namespace P2im

/-- A match of the pattern over a `reg_acc` file: the address of the register, its category and
the direction of the access, the value, and the block the access is in. -/
structure RegAcc where
  addr : String
  type : String
  dir : String
  val : String
  bblS : String
  bblE : String
deriving DecidableEq, Repr

/-- What `stage2_5` reads of the exploration runs, by input name: the exit status `stage2`
recorded, the register accesses of the run and the blocks of its trace. -/
structure Feedback where
  termCond0 : List (List Char × Int)
  regAcc : List Char → List RegAcc
  traceBbls : List Char → List (String × String)

/-- The loop over `checked_bcs` that gathers their feedback: `fname_l2`, the names of the
combinations in order, and `term_cond`, the names grouped by the exit status of their run. The
source appends each name in the loop that reads its status; a missing status ends the script, so
listing the names first changes nothing. -/
def preprocessFeedbacks (termCond0 : List (List Char × Int)) (checkedBcs : List (List (List Int))) :
    Except PyError (List (List Char) × List (Int × List (List Char))) := do
  let fnameL2 := checkedBcs.map checkedBcFname
  let termCond ← fnameL2.foldlM (fun termCond fname => do
    let retVal ← Python.key (String.ofList fname) (termCond0.lookup fname)
    pure (Python.appendItem retVal fname termCond)) []
  pure (fnameL2, termCond)

/-- `hang + func_ret`: the first name whose run returned goes under `satisfy`. The number of bits
the driver found checked is only printed, but reading it raises when the root has none. -/
def hangFuncRet (traceSig : CheckedSig) (termCond : List (Int × List (List Char)))
    (prereq : Prereq (List Char)) : Except PyError (Prereq (List Char)) := do
  let _ ← traceSig.checked
  let returned ← Python.key "33" (termCond.lookup 0x21)
  let first ← Python.index returned 0
  pure { prereq with satisfy := prereq.satisfy ++ [first] }

/-- `term_srr_site`: the names grouped by the block end of the last register access of their
run. -/
def termSrrSite (regAcc : List Char → List RegAcc) (fnameL2 : List (List Char)) :
    Except PyError (List (String × List (List Char))) :=
  fnameL2.foldlM (fun sites fname => do
    let last ← Python.index (regAcc fname) (-1)
    pure (Python.appendItem last.bblE fname sites)) []

/-- `hang only`: case 1, case 2, or nothing inferred. -/
def hangOnly (info : SrrInfo) (traceSig : CheckedSig) (bblCov : List ((String × String) × Nat))
    (fb : Feedback) (fnameL2 : List (List Char)) (prereq : Prereq (List Char)) :
    Except PyError (Prereq (List Char)) := do
  let _ ← traceSig.checked
  let sites ← termSrrSite fb.regAcc fnameL2
  if sites.length = 2 ∧ info.srrBblE ∈ sites.map Prod.fst then do
    -- case 1: `del term_srr_site[srr_bbl_e]` leaves the site the other runs moved forward to
    let moved ← Python.index ((sites.filter fun site => site.1 ≠ info.srrBblE).map Prod.snd) 0
    let first ← Python.index moved 0
    pure { prereq with satisfy := prereq.satisfy ++ [first] }
  else if sites.length = 1 then do
    -- case 2: an SR write in the run that covered the most new blocks marks an error bit
    let (neverSatisfy, fname) ← hangCase2 bblCov fb.traceBbls
      (fun f => (fb.regAcc f).map fun ra => (ra.type, ra.dir)) fnameL2
    if neverSatisfy then pure { prereq with neverSatisfy := prereq.neverSatisfy ++ [fname] }
    else pure { prereq with satisfy := prereq.satisfy ++ [fname] }
  else pure prereq

/-- The body of the loop of `func_ret only` over the accesses of a run, after its `break`: whether
it counts the access, one to a register of the site's peripheral that the run saw as a DR and
that the model file still has as one. -/
def drAccess (regs : List RegDict) (periBa : String) (periAddrRange srBits : Int) (ra : RegAcc) :
    Except PyError Bool := do
  let regOffset := (← Python.intBase16 ra.addr.toList) - (← Python.intBase16 periBa.toList)
  -- `continue`: a register of another peripheral
  if regOffset < 0 ∨ periAddrRange ≤ regOffset then pure false
  else do
    let regIdx ← Python.truncDiv (regOffset * 8) srBits
    -- `and` reads the model's register only for an access the run saw as a DR
    if ra.type = "3" then (fun reg : RegDict => decide (reg.type = 3)) <$> Python.index regs regIdx
    else pure false

/-- The loop of `func_ret only` over the accesses of a run: the DR reads and the DR writes it
counts, until the run's first SR read. -/
def drCounts (regs : List RegDict) (periBa : String) (periAddrRange srBits : Int) :
    Nat × Nat → List RegAcc → Except PyError (Nat × Nat)
  | counts, [] => pure counts
  | counts, ra :: rest =>
    -- a new SR read ends the life of the value the bits were read from: `break`
    if ra.type = "2" ∧ ra.dir = "r" then pure counts
    else do
      let counted ← drAccess regs periBa periAddrRange srBits ra
      let counts := if counted then
          if ra.dir = "r" then (counts.1 + 1, counts.2) else (counts.1, counts.2 + 1)
        else counts
      drCounts regs periBa periAddrRange srBits counts rest

/-- `func_ret only`: the names whose run read a DR go under `satisfy`, then those whose run wrote
one; `bit_func["error"]` is never filled. -/
def funcRetOnly (m : ModelFile) (info : SrrInfo) (periAddrRange srBits : Int) (fb : Feedback)
    (fnameL2 : List (List Char)) (prereq : Prereq (List Char)) : Except PyError (Prereq (List Char)) := do
  let peri ← Python.key info.periBa (m.lookup info.periBa)
  let bitFunc ← fnameL2.foldlM (fun (bitFunc : List (List Char) × List (List Char)) fname => do
    let counts ← drCounts peri.regs info.periBa periAddrRange srBits (0, 0) (fb.regAcc fname)
    pure (if 0 < counts.1 then bitFunc.1 ++ [fname] else bitFunc.1,
      if 0 < counts.2 then bitFunc.2 ++ [fname] else bitFunc.2)) ([], [])
  pure { prereq with satisfy := prereq.satisfy ++ bitFunc.1 ++ bitFunc.2 }

/-- `# infer bit functionality per term_cond`: the three cases, each tested on the statuses the
runs ended with. -/
def inferBitFunc (m : ModelFile) (info : SrrInfo) (periAddrRange srBits : Int) (traceSig : CheckedSig)
    (bblCov : List ((String × String) × Nat)) (fb : Feedback) (fnameL2 : List (List Char))
    (termCond : List (Int × List (List Char))) : Except PyError (Prereq (List Char)) := do
  let keys := termCond.map Prod.fst
  let prereq : Prereq (List Char) := ⟨[], [], []⟩
  let prereq ← if Python.setEq keys [0x23, 0x21] then hangFuncRet traceSig termCond prereq
    else pure prereq
  let prereq ← if Python.setEq keys [0x23] then hangOnly info traceSig bblCov fb fnameL2 prereq
    else pure prereq
  if Python.setEq keys [0x21] then funcRetOnly m info periAddrRange srBits fb fnameL2 prereq
  else pure prereq

/-- `# fill in other array`: the names under neither `satisfy` nor `never_satisfy`, in order. -/
def fillOther (fnameL2 : List (List Char)) (prereq : Prereq (List Char)) : Prereq (List Char) :=
  { prereq with
    other := prereq.other ++ fnameL2.filter fun f => f ∉ prereq.satisfy ∧ f ∉ prereq.neverSatisfy }

def inferPrereq (m : ModelFile) (info : SrrInfo) (periAddrRange srBits : Int) (traceSig : CheckedSig)
    (bblCov : List ((String × String) × Nat)) (fb : Feedback) (checkedBcs : List (List (List Int))) :
    Except PyError (Prereq (List Char)) := do
  let (fnameL2, termCond) ← preprocessFeedbacks fb.termCond0 checkedBcs
  let prereq ← inferBitFunc m info periAddrRange srBits traceSig bblCov fb fnameL2 termCond
  pure (fillOther fnameL2 prereq)

/-- `stage2_5` as a whole: the inference, the conversion of the names to bit combinations, and the
dump of the site into the model file. -/
def stage25Full (m : ModelFile) (info : SrrInfo) (setBits : Nat) (periAddrRange srBits : Int)
    (traceSig : CheckedSig) (bblCov : List ((String × String) × Nat)) (fb : Feedback)
    (checkedBcs : List (List (List Int))) (eval : Bool) : Except PyError ModelFile := do
  let names ← inferPrereq m info periAddrRange srBits traceSig bblCov fb checkedBcs
  let prereq ← convertPrereq setBits traceSig names
  stage25 m info setBits prereq eval

/-! ## The feedback of the runs -/

theorem key_eq_ok {α : Type} {name : String} {o : Option α} {a : α} :
    Python.key name o = .ok a ↔ o = some a := by
  cases o <;> simp [Python.key]

def termCondOf (termCond0 : List (List Char × Int)) (fnameL2 : List (List Char)) :
    List (Int × List (List Char)) :=
  fnameL2.foldl (fun termCond f => Python.appendItem ((termCond0.lookup f).getD 0) f termCond) []

theorem preprocessFeedbacks_eq {termCond0 : List (List Char × Int)} {checkedBcs : List (List (List Int))}
    {fnameL2 : List (List Char)} {termCond : List (Int × List (List Char))}
    (ran : preprocessFeedbacks termCond0 checkedBcs = .ok (fnameL2, termCond)) :
    fnameL2 = checkedBcs.map checkedBcFname ∧ (∀ f ∈ fnameL2, ∃ v, termCond0.lookup f = some v) ∧
      termCond = termCondOf termCond0 fnameL2 := by
  obtain ⟨termCond', grouped, ran⟩ := Except.bind_eq_ok.mp ran
  cases ran
  have found : ∀ f ∈ checkedBcs.map checkedBcFname, ∃ v, termCond0.lookup f = some v := by
    intro f mem
    obtain ⟨v, read⟩ := Python.foldlM_bind_ok grouped f mem
    exact ⟨v, key_eq_ok.mp read⟩
  -- every status is there, so the loop groups the names by them
  have read : ∀ f ∈ checkedBcs.map checkedBcFname,
      Python.key (String.ofList f) (termCond0.lookup f) = .ok ((termCond0.lookup f).getD 0) := by
    intro f mem
    obtain ⟨v, some⟩ := found f mem
    simp [some, Python.key]
  rw [Python.foldlM_bind_eq _ _ read] at grouped
  exact ⟨rfl, found, (Except.ok.inj grouped).symm⟩

/-! ## Which case runs -/

theorem inferBitFunc_eq (m : ModelFile) (info : SrrInfo) (periAddrRange srBits : Int)
    (traceSig : CheckedSig) (bblCov : List ((String × String) × Nat)) (fb : Feedback)
    (fnameL2 : List (List Char)) (termCond : List (Int × List (List Char))) :
    inferBitFunc m info periAddrRange srBits traceSig bblCov fb fnameL2 termCond =
      if Python.setEq (termCond.map Prod.fst) [0x23, 0x21] then hangFuncRet traceSig termCond ⟨[], [], []⟩
      else if Python.setEq (termCond.map Prod.fst) [0x23] then
        hangOnly info traceSig bblCov fb fnameL2 ⟨[], [], []⟩
      else if Python.setEq (termCond.map Prod.fst) [0x21] then
        funcRetOnly m info periAddrRange srBits fb fnameL2 ⟨[], [], []⟩
      else pure ⟨[], [], []⟩ := by
  unfold inferBitFunc
  -- the keys equal at most one of the three sets
  by_cases both : Python.setEq (termCond.map Prod.fst) [0x23, 0x21] = true
  · have hang : Python.setEq (termCond.map Prod.fst) [0x23] = false :=
      Python.setEq_exclusive (show ¬((0x21 : Int) ∈ [0x23, 0x21] ↔ (0x21 : Int) ∈ [0x23]) by decide) both
    have ret : Python.setEq (termCond.map Prod.fst) [0x21] = false :=
      Python.setEq_exclusive (show ¬((0x23 : Int) ∈ [0x23, 0x21] ↔ (0x23 : Int) ∈ [0x21]) by decide) both
    simp only [both, hang, ret, if_true, Bool.false_eq_true, if_false, pure_bind]
    exact bind_pure _
  · by_cases hang : Python.setEq (termCond.map Prod.fst) [0x23] = true
    · have ret : Python.setEq (termCond.map Prod.fst) [0x21] = false :=
        Python.setEq_exclusive (show ¬((0x23 : Int) ∈ [0x23] ↔ (0x23 : Int) ∈ [0x21]) by decide) hang
      simp only [both, hang, ret, if_true, Bool.false_eq_true, if_false, pure_bind]
      exact bind_pure _
    · simp [both, hang]

theorem inferPrereq_ok {m : ModelFile} {info : SrrInfo} {periAddrRange srBits : Int}
    {traceSig : CheckedSig} {bblCov : List ((String × String) × Nat)} {fb : Feedback}
    {checkedBcs : List (List (List Int))} {p : Prereq (List Char)}
    (ran : inferPrereq m info periAddrRange srBits traceSig bblCov fb checkedBcs = .ok p) :
    (∀ f ∈ checkedBcs.map checkedBcFname, ∃ v, fb.termCond0.lookup f = some v) ∧
      ∃ prereq, inferBitFunc m info periAddrRange srBits traceSig bblCov fb (checkedBcs.map checkedBcFname)
          (termCondOf fb.termCond0 (checkedBcs.map checkedBcFname)) = .ok prereq ∧
        p = fillOther (checkedBcs.map checkedBcFname) prereq := by
  obtain ⟨⟨fnameL2, termCond⟩, gathered, ran⟩ := Except.bind_eq_ok.mp ran
  obtain ⟨rfl, found, rfl⟩ := preprocessFeedbacks_eq gathered
  obtain ⟨prereq, inferred, ran⟩ := Except.bind_eq_ok.mp ran
  exact ⟨found, prereq, inferred, (Except.ok.inj ran).symm⟩

theorem mem_keys_termCondOf {termCond0 : List (List Char × Int)} {fnameL2 : List (List Char)} {k : Int} :
    k ∈ (termCondOf termCond0 fnameL2).map Prod.fst ↔ ∃ f ∈ fnameL2, (termCond0.lookup f).getD 0 = k :=
  (Python.keys_group _ fnameL2).2 k

/-! ## What each case places -/

structure Placed (fnameL2 : List (List Char)) (prereq : Prereq (List Char)) : Prop where
  satisfy : ∀ f ∈ prereq.satisfy, f ∈ fnameL2
  neverSatisfy : ∀ f ∈ prereq.neverSatisfy, f ∈ fnameL2
  oneList : prereq.satisfy = [] ∨ prereq.neverSatisfy = []
  other : prereq.other = []

theorem placed_empty (fnameL2 : List (List Char)) : Placed fnameL2 ⟨[], [], []⟩ :=
  ⟨by simp, by simp, .inl rfl, rfl⟩

theorem placed_satisfy {fnameL2 names : List (List Char)} (sub : ∀ f ∈ names, f ∈ fnameL2) :
    Placed fnameL2 ⟨names, [], []⟩ :=
  ⟨sub, by simp, .inr rfl, rfl⟩

theorem hangFuncRet_eq {traceSig : CheckedSig} {termCond0 : List (List Char × Int)}
    {fnameL2 : List (List Char)} {p : Prereq (List Char)}
    (ran : hangFuncRet traceSig (termCondOf termCond0 fnameL2) ⟨[], [], []⟩ = .ok p) :
    p = ⟨(fnameL2.find? fun f => (termCond0.lookup f).getD 0 = 0x21).toList, [], []⟩ := by
  obtain ⟨-, -, ran⟩ := Except.bind_eq_ok.mp ran
  obtain ⟨returned, found, ran⟩ := Except.bind_eq_ok.mp ran
  obtain ⟨first, picked, ran⟩ := Except.bind_eq_ok.mp ran
  cases ran
  rw [termCondOf, Python.lookup_group] at found
  split_ifs at found
  · obtain rfl := Option.some.inj (key_eq_ok.mp found)
    rw [Python.index_zero, List.head?_filter] at picked
    split at picked
    · next picks =>
      cases picked
      simp [picks]
    · cases picked
  · cases found

def lastSite (regAcc : List Char → List RegAcc) (fname : List Char) : String :=
  ((regAcc fname).getLast?.map RegAcc.bblE).getD ""

theorem termSrrSite_eq {regAcc : List Char → List RegAcc} {fnameL2 : List (List Char)}
    {sites : List (String × List (List Char))} (ran : termSrrSite regAcc fnameL2 = .ok sites) :
    (∀ f ∈ fnameL2, regAcc f ≠ []) ∧
      sites = fnameL2.foldl (fun d f => Python.appendItem (lastSite regAcc f) f d) [] := by
  have nonempty : ∀ f ∈ fnameL2, regAcc f ≠ [] := by
    intro f mem empty
    obtain ⟨ra, read⟩ := Python.foldlM_bind_ok ran f mem
    simp [Python.index_neg_one, empty] at read
  -- each run has a last access, whose block end is the key
  have read : ∀ f ∈ fnameL2, Python.index (regAcc f) (-1) =
      .ok ((regAcc f).getLast?.getD ⟨"", "", "", "", "", ""⟩) := by
    intro f mem
    obtain ⟨ra, last⟩ := Option.isSome_iff_exists.mp (List.getLast?_isSome.mpr (nonempty f mem))
    rw [Python.index_neg_one, last]
    rfl
  have keys : ∀ f, ((regAcc f).getLast?.getD ⟨"", "", "", "", "", ""⟩).bblE = lastSite regAcc f := by
    intro f
    unfold lastSite
    cases (regAcc f).getLast? <;> rfl
  rw [termSrrSite, Python.foldlM_bind_eq _ _ read] at ran
  simp only [keys] at ran
  exact ⟨nonempty, (Except.ok.inj ran).symm⟩

theorem hangOnly_placed {info : SrrInfo} {traceSig : CheckedSig} {bblCov : List ((String × String) × Nat)}
    {fb : Feedback} {fnameL2 : List (List Char)} {p : Prereq (List Char)}
    (ran : hangOnly info traceSig bblCov fb fnameL2 ⟨[], [], []⟩ = .ok p) : Placed fnameL2 p := by
  obtain ⟨-, -, ran⟩ := Except.bind_eq_ok.mp ran
  obtain ⟨sites, grouped, ran⟩ := Except.bind_eq_ok.mp ran
  obtain ⟨-, rfl⟩ := termSrrSite_eq grouped
  split_ifs at ran
  · -- case 1: the first name of a site's group
    obtain ⟨moved, movedAt, ran⟩ := Except.bind_eq_ok.mp ran
    obtain ⟨first, firstAt, ran⟩ := Except.bind_eq_ok.mp ran
    cases ran
    obtain ⟨j, -, at_j⟩ := Python.index_eq movedAt
    obtain ⟨site, kept, rfl⟩ := List.mem_map.mp (List.mem_of_getElem? at_j)
    obtain ⟨i, -, at_i⟩ := Python.index_eq firstAt
    have inGroup := List.mem_of_getElem? at_i
    rw [Python.values_group _ (List.mem_filter.mp kept).1] at inGroup
    exact placed_satisfy fun f mem => by
      rw [List.mem_singleton.mp mem]
      exact (List.mem_filter.mp inGroup).1
  · -- case 2: the last name
    obtain ⟨⟨neverSatisfy, fname⟩, added, ran⟩ := Except.bind_eq_ok.mp ran
    have last := List.mem_of_getLast? (hangCase2_adds_last added).1
    cases neverSatisfy
    · cases ran
      exact placed_satisfy (by simpa using last)
    · cases ran
      exact ⟨by simp, by simpa using last, .inl rfl, rfl⟩
  · cases ran
    exact placed_empty fnameL2

/-! ## The DR accesses of a run -/

def beforeSrRead (ras : List RegAcc) : List RegAcc :=
  ras.takeWhile fun ra => !decide (ra.type = "2" ∧ ra.dir = "r")

def drAccesses (regs : List RegDict) (periBa : String) (periAddrRange srBits : Int) (read : Bool)
    (ras : List RegAcc) : List RegAcc :=
  (beforeSrRead ras).filter fun ra =>
    (ra.dir == "r") == read && (drAccess regs periBa periAddrRange srBits ra).toOption == some true

section Counts

variable {regs : List RegDict} {periBa : String} {periAddrRange srBits : Int}

theorem drCounts_eq {ras : List RegAcc} {counts result : Nat × Nat}
    (ran : drCounts regs periBa periAddrRange srBits counts ras = .ok result) :
    result = (counts.1 + (drAccesses regs periBa periAddrRange srBits true ras).length,
      counts.2 + (drAccesses regs periBa periAddrRange srBits false ras).length) := by
  induction ras generalizing counts with
  | nil => cases ran; simp [drAccesses, beforeSrRead]
  | cons ra rest ih =>
    unfold drCounts at ran
    by_cases stop : ra.type = "2" ∧ ra.dir = "r"
    · rw [if_pos stop] at ran
      cases ran
      simp [drAccesses, beforeSrRead, stop]
    · rw [if_neg stop] at ran
      obtain ⟨counted, access, ran⟩ := Except.bind_eq_ok.mp ran
      rw [ih ran]
      have goesOn : (!decide (ra.type = "2" ∧ ra.dir = "r")) = true := by
        rw [Bool.not_eq_true', decide_eq_false_iff_not]
        exact stop
      have kept : beforeSrRead (ra :: rest) = ra :: beforeSrRead rest :=
        List.takeWhile_cons_of_pos goesOn
      have asOption : (drAccess regs periBa periAddrRange srBits ra).toOption = some counted := by
        rw [access]; rfl
      by_cases reads : ra.dir = "r" <;> cases counted <;>
        simp [drAccesses, kept, asOption, reads] <;> omega

theorem bitFunc_eq {regAcc : List Char → List RegAcc} {fnameL2 : List (List Char)}
    {acc r : List (List Char) × List (List Char)}
    (ran : fnameL2.foldlM (fun (bitFunc : List (List Char) × List (List Char)) fname => do
        let counts ← drCounts regs periBa periAddrRange srBits (0, 0) (regAcc fname)
        pure (if 0 < counts.1 then bitFunc.1 ++ [fname] else bitFunc.1,
          if 0 < counts.2 then bitFunc.2 ++ [fname] else bitFunc.2)) acc = .ok r) :
    r = (acc.1 ++ fnameL2.filter fun f => 0 < (drAccesses regs periBa periAddrRange srBits true (regAcc f)).length,
      acc.2 ++ fnameL2.filter fun f => 0 < (drAccesses regs periBa periAddrRange srBits false (regAcc f)).length) := by
  induction fnameL2 generalizing acc with
  | nil => cases ran; simp
  | cons f rest ih =>
    rw [List.foldlM_cons] at ran
    obtain ⟨acc', pass, ran⟩ := Except.bind_eq_ok.mp ran
    obtain ⟨counts, counted, pass⟩ := Except.bind_eq_ok.mp pass
    cases pass
    obtain rfl := drCounts_eq counted
    rw [ih ran]
    by_cases reads : 0 < (drAccesses regs periBa periAddrRange srBits true (regAcc f)).length <;>
      by_cases writes : 0 < (drAccesses regs periBa periAddrRange srBits false (regAcc f)).length <;>
      simp [reads, writes]

end Counts

theorem funcRetOnly_eq {m : ModelFile} {info : SrrInfo} {periAddrRange srBits : Int} {fb : Feedback}
    {fnameL2 : List (List Char)} {p : Prereq (List Char)}
    (ran : funcRetOnly m info periAddrRange srBits fb fnameL2 ⟨[], [], []⟩ = .ok p) :
    ∃ peri, m.lookup info.periBa = some peri ∧
      p = ⟨fnameL2.filter (fun f =>
          0 < (drAccesses peri.regs info.periBa periAddrRange srBits true (fb.regAcc f)).length) ++
        fnameL2.filter (fun f =>
          0 < (drAccesses peri.regs info.periBa periAddrRange srBits false (fb.regAcc f)).length), [], []⟩ := by
  obtain ⟨peri, found, ran⟩ := Except.bind_eq_ok.mp ran
  obtain ⟨bitFunc, looped, ran⟩ := Except.bind_eq_ok.mp ran
  cases ran
  obtain rfl := bitFunc_eq looped
  exact ⟨peri, key_eq_ok.mp found, by simp⟩

/-! ## The names `stage2_5` sorts -/

/-- `stage2_5` places only names of checked combinations, never some under `satisfy` and some
under `never_satisfy`, and every other checked name under `other`. -/
theorem infer_prereq_places_each_name_once (m : ModelFile) (info : SrrInfo) (periAddrRange srBits : Int)
    (traceSig : CheckedSig) (bblCov : List ((String × String) × Nat)) (fb : Feedback)
    (checkedBcs : List (List (List Int))) (p : Prereq (List Char))
    (ran : inferPrereq m info periAddrRange srBits traceSig bblCov fb checkedBcs = .ok p) :
    (∀ f ∈ p.satisfy ++ p.neverSatisfy, f ∈ checkedBcs.map checkedBcFname) ∧
      (p.satisfy = [] ∨ p.neverSatisfy = []) ∧
      p.other = (checkedBcs.map checkedBcFname).filter fun f => f ∉ p.satisfy ∧ f ∉ p.neverSatisfy := by
  obtain ⟨-, prereq, inferred, rfl⟩ := inferPrereq_ok ran
  -- whichever case runs places names of the checked combinations in one list
  have placed : Placed (checkedBcs.map checkedBcFname) prereq := by
    rw [inferBitFunc_eq] at inferred
    split_ifs at inferred
    · rw [hangFuncRet_eq inferred]
      exact placed_satisfy fun f mem => List.mem_of_find?_eq_some (Option.mem_toList.mp mem)
    · exact hangOnly_placed inferred
    · obtain ⟨peri, -, rfl⟩ := funcRetOnly_eq inferred
      exact placed_satisfy fun f mem => by
        rcases List.mem_append.mp mem with reads | writes
        · exact (List.mem_filter.mp reads).1
        · exact (List.mem_filter.mp writes).1
    · cases inferred
      exact placed_empty _
  obtain ⟨satisfy, neverSatisfy, oneList, other⟩ := placed
  refine ⟨fun f mem => ?_, oneList, by simp [fillOther, other]⟩
  rcases List.mem_append.mp mem with placedS | placedN
  · exact satisfy f placedS
  · exact neverSatisfy f placedN

theorem setEq_keys_termCondOf {termCond0 : List (List Char × Int)} {fnameL2 : List (List Char)}
    {ks : List Int} (statuses : ∀ k, (∃ f ∈ fnameL2, (termCond0.lookup f).getD 0 = k) ↔ k ∈ ks) :
    Python.setEq ((termCondOf termCond0 fnameL2).map Prod.fst) ks = true :=
  Python.setEq_iff.mpr fun k => by rw [mem_keys_termCondOf]; exact statuses k

/-- When some runs hung and the others returned, `satisfy` holds the first name whose run
returned, and every other name goes under `other`. -/
theorem hang_func_ret_satisfies_first_return (m : ModelFile) (info : SrrInfo) (periAddrRange srBits : Int)
    (traceSig : CheckedSig) (bblCov : List ((String × String) × Nat)) (fb : Feedback)
    (checkedBcs : List (List (List Int))) (p : Prereq (List Char))
    (ran : inferPrereq m info periAddrRange srBits traceSig bblCov fb checkedBcs = .ok p)
    (statuses : ∀ f ∈ checkedBcs.map checkedBcFname,
      fb.termCond0.lookup f = some 0x21 ∨ fb.termCond0.lookup f = some 0x23)
    (returned : ∃ f ∈ checkedBcs.map checkedBcFname, fb.termCond0.lookup f = some 0x21)
    (hung : ∃ f ∈ checkedBcs.map checkedBcFname, fb.termCond0.lookup f = some 0x23) :
    p = fillOther (checkedBcs.map checkedBcFname)
      ⟨((checkedBcs.map checkedBcFname).find? fun f => fb.termCond0.lookup f = some 0x21).toList, [], []⟩ := by
  obtain ⟨-, prereq, inferred, rfl⟩ := inferPrereq_ok ran
  have keys : Python.setEq ((termCondOf fb.termCond0 (checkedBcs.map checkedBcFname)).map Prod.fst)
      [0x23, 0x21] = true := by
    refine setEq_keys_termCondOf fun k => ⟨?_, fun mem => ?_⟩
    · rintro ⟨f, mem, rfl⟩
      rcases statuses f mem with status | status <;> simp [status]
    · rcases List.mem_pair.mp mem with rfl | rfl
      · obtain ⟨f, mem, hang⟩ := hung
        exact ⟨f, mem, by simp [hang]⟩
      · obtain ⟨f, mem, ret⟩ := returned
        exact ⟨f, mem, by simp [ret]⟩
  rw [inferBitFunc_eq, if_pos keys] at inferred
  rw [hangFuncRet_eq inferred]
  -- the inference reads each status as the one the run ended with
  have sameTest : ((checkedBcs.map checkedBcFname).find? fun f => (fb.termCond0.lookup f).getD 0 = 0x21) =
      (checkedBcs.map checkedBcFname).find? fun f => fb.termCond0.lookup f = some 0x21 :=
    List.find?_congr fun f mem => by rcases statuses f mem with status | status <;> simp [status]
  rw [sameTest]

theorem inferBitFunc_hung {m : ModelFile} {info : SrrInfo} {periAddrRange srBits : Int}
    {traceSig : CheckedSig} {bblCov : List ((String × String) × Nat)} {fb : Feedback}
    {fnameL2 : List (List Char)} (hung : ∀ f ∈ fnameL2, fb.termCond0.lookup f = some 0x23)
    (nonempty : fnameL2 ≠ []) :
    inferBitFunc m info periAddrRange srBits traceSig bblCov fb fnameL2 (termCondOf fb.termCond0 fnameL2) =
      hangOnly info traceSig bblCov fb fnameL2 ⟨[], [], []⟩ := by
  have keys : Python.setEq ((termCondOf fb.termCond0 fnameL2).map Prod.fst) [0x23] = true := by
    refine setEq_keys_termCondOf fun k => ⟨?_, fun mem => ?_⟩
    · rintro ⟨f, mem, rfl⟩
      simp [hung f mem]
    · obtain ⟨f, named⟩ := List.exists_mem_of_ne_nil _ nonempty
      exact ⟨f, named, by simp [hung f named, List.mem_singleton.mp mem]⟩
  have notBoth : Python.setEq ((termCondOf fb.termCond0 fnameL2).map Prod.fst) [0x23, 0x21] = false :=
    Python.setEq_exclusive (show ¬((0x21 : Int) ∈ [0x23] ↔ (0x21 : Int) ∈ [0x23, 0x21]) by decide) keys
  rw [inferBitFunc_eq, if_neg (by simp [notBoth]), if_pos keys]

theorem inferBitFunc_returned {m : ModelFile} {info : SrrInfo} {periAddrRange srBits : Int}
    {traceSig : CheckedSig} {bblCov : List ((String × String) × Nat)} {fb : Feedback}
    {fnameL2 : List (List Char)} (returned : ∀ f ∈ fnameL2, fb.termCond0.lookup f = some 0x21)
    (nonempty : fnameL2 ≠ []) :
    inferBitFunc m info periAddrRange srBits traceSig bblCov fb fnameL2 (termCondOf fb.termCond0 fnameL2) =
      funcRetOnly m info periAddrRange srBits fb fnameL2 ⟨[], [], []⟩ := by
  have keys : Python.setEq ((termCondOf fb.termCond0 fnameL2).map Prod.fst) [0x21] = true := by
    refine setEq_keys_termCondOf fun k => ⟨?_, fun mem => ?_⟩
    · rintro ⟨f, mem, rfl⟩
      simp [returned f mem]
    · obtain ⟨f, named⟩ := List.exists_mem_of_ne_nil _ nonempty
      exact ⟨f, named, by simp [returned f named, List.mem_singleton.mp mem]⟩
  have notBoth : Python.setEq ((termCondOf fb.termCond0 fnameL2).map Prod.fst) [0x23, 0x21] = false :=
    Python.setEq_exclusive (show ¬((0x23 : Int) ∈ [0x21] ↔ (0x23 : Int) ∈ [0x23, 0x21]) by decide) keys
  have notHang : Python.setEq ((termCondOf fb.termCond0 fnameL2).map Prod.fst) [0x23] = false :=
    Python.setEq_exclusive (show ¬((0x23 : Int) ∈ [0x21] ↔ (0x23 : Int) ∈ [0x23]) by decide) keys
  rw [inferBitFunc_eq, if_neg (by simp [notBoth]), if_neg (by simp [notHang]), if_pos keys]

/-- When every run hung, some at the explored site and the others at one other site, `satisfy`
holds the first name whose run moved on to the other site. -/
theorem hang_only_satisfies_first_moved (m : ModelFile) (info : SrrInfo) (periAddrRange srBits : Int)
    (traceSig : CheckedSig) (bblCov : List ((String × String) × Nat)) (fb : Feedback)
    (checkedBcs : List (List (List Int))) (p : Prereq (List Char))
    (ran : inferPrereq m info periAddrRange srBits traceSig bblCov fb checkedBcs = .ok p)
    (hung : ∀ f ∈ checkedBcs.map checkedBcFname, fb.termCond0.lookup f = some 0x23)
    (other : String) (differ : other ≠ info.srrBblE)
    (twoSites : ∀ f ∈ checkedBcs.map checkedBcFname,
      lastSite fb.regAcc f = info.srrBblE ∨ lastSite fb.regAcc f = other)
    (stayed : ∃ f ∈ checkedBcs.map checkedBcFname, lastSite fb.regAcc f = info.srrBblE)
    (moved : ∃ f ∈ checkedBcs.map checkedBcFname, lastSite fb.regAcc f = other) :
    p = fillOther (checkedBcs.map checkedBcFname)
      ⟨((checkedBcs.map checkedBcFname).find? fun f => lastSite fb.regAcc f ≠ info.srrBblE).toList, [], []⟩ := by
  obtain ⟨-, prereq, inferred, rfl⟩ := inferPrereq_ok ran
  obtain ⟨f, named, explored⟩ := stayed
  rw [inferBitFunc_hung hung (List.ne_nil_of_mem named)] at inferred
  obtain ⟨-, -, inferred⟩ := Except.bind_eq_ok.mp inferred
  obtain ⟨sites, grouped, inferred⟩ := Except.bind_eq_ok.mp inferred
  obtain ⟨-, rfl⟩ := termSrrSite_eq grouped
  -- `term_srr_site` has the two sites as its keys, once each
  have sites : ∀ k, (∃ g ∈ checkedBcs.map checkedBcFname, lastSite fb.regAcc g = k) ↔
      k ∈ [info.srrBblE, other] := by
    intro k
    constructor
    · rintro ⟨g, mem, rfl⟩
      rcases twoSites g mem with site | site <;> simp [site]
    · intro mem
      rcases List.mem_pair.mp mem with rfl | rfl
      · exact ⟨f, named, explored⟩
      · exact moved
  have siteKeys : ∀ k, k ∈ (((checkedBcs.map checkedBcFname).foldl
      (fun d f => Python.appendItem (lastSite fb.regAcc f) f d) []).map Prod.fst) ↔ k ∈ [info.srrBblE, other] :=
    fun k => ((Python.keys_group (lastSite fb.regAcc) _).2 k).trans (sites k)
  have two := Python.length_group (lastSite fb.regAcc) (by simpa using Ne.symm differ) sites
  rw [if_pos ⟨two, (siteKeys _).mpr (by simp)⟩] at inferred
  obtain ⟨movedNames, movedAt, inferred⟩ := Except.bind_eq_ok.mp inferred
  obtain ⟨first, firstAt, inferred⟩ := Except.bind_eq_ok.mp inferred
  cases inferred
  -- once the explored site is deleted, the first group is that of the other site
  have keysIn : ∀ kv ∈ (checkedBcs.map checkedBcFname).foldl
      (fun d f => Python.appendItem (lastSite fb.regAcc f) f d) [], kv.1 = info.srrBblE ∨ kv.1 = other :=
    fun kv mem => by simpa using (siteKeys kv.1).mp (List.mem_map_of_mem mem)
  rw [Python.index_zero, Python.head?_values_filter_ne (Ne.symm differ) keysIn, Python.lookup_group,
    if_pos moved] at movedAt
  cases movedAt
  rw [Python.index_zero, List.head?_filter] at firstAt
  have sameTest : ((checkedBcs.map checkedBcFname).find? fun g => lastSite fb.regAcc g = other) =
      (checkedBcs.map checkedBcFname).find? fun g => lastSite fb.regAcc g ≠ info.srrBblE :=
    List.find?_congr fun g mem => by
      rcases twoSites g mem with site | site <;> simp [site, differ, Ne.symm differ]
  rw [sameTest] at firstAt
  split at firstAt
  · next found =>
    cases firstAt
    rw [found]
    rfl
  · cases firstAt

/-- When every run hung at one site, the inference places the last name, under `never_satisfy`
exactly when the run of `most_new_bbl_f` wrote an SR: the name is that of the last input, not
that of the input whose run decided. -/
theorem hang_only_one_site_places_last_name (m : ModelFile) (info : SrrInfo) (periAddrRange srBits : Int)
    (traceSig : CheckedSig) (bblCov : List ((String × String) × Nat)) (fb : Feedback)
    (checkedBcs : List (List (List Int))) (p : Prereq (List Char))
    (ran : inferPrereq m info periAddrRange srBits traceSig bblCov fb checkedBcs = .ok p)
    (hung : ∀ f ∈ checkedBcs.map checkedBcFname, fb.termCond0.lookup f = some 0x23)
    (site : String) (oneSite : ∀ f ∈ checkedBcs.map checkedBcFname, lastSite fb.regAcc f = site)
    (nonempty : checkedBcs ≠ []) :
    ∃ mostNew, mostNewBblF bblCov fb.traceBbls (checkedBcs.map checkedBcFname) = .ok mostNew ∧
      p = fillOther (checkedBcs.map checkedBcFname)
        (if ("2", "w") ∈ (fb.regAcc mostNew).map (fun ra => (ra.type, ra.dir)) then
          ⟨[], (checkedBcs.map checkedBcFname).getLast?.toList, []⟩
        else ⟨(checkedBcs.map checkedBcFname).getLast?.toList, [], []⟩) := by
  obtain ⟨-, prereq, inferred, rfl⟩ := inferPrereq_ok ran
  have named : checkedBcs.map checkedBcFname ≠ [] := by simpa using nonempty
  rw [inferBitFunc_hung hung named] at inferred
  obtain ⟨-, -, inferred⟩ := Except.bind_eq_ok.mp inferred
  obtain ⟨sites, grouped, inferred⟩ := Except.bind_eq_ok.mp inferred
  obtain ⟨-, rfl⟩ := termSrrSite_eq grouped
  -- `term_srr_site` has one key
  have sites : ∀ k, (∃ g ∈ checkedBcs.map checkedBcFname, lastSite fb.regAcc g = k) ↔ k ∈ [site] := by
    intro k
    rw [List.mem_singleton]
    constructor
    · rintro ⟨g, mem, rfl⟩
      exact oneSite g mem
    · rintro rfl
      obtain ⟨g, mem⟩ := List.exists_mem_of_ne_nil _ named
      exact ⟨g, mem, oneSite g mem⟩
  have one : ((checkedBcs.map checkedBcFname).foldl
      (fun d f => Python.appendItem (lastSite fb.regAcc f) f d) []).length = 1 :=
    Python.length_group (lastSite fb.regAcc) (List.nodup_singleton site) sites
  rw [if_neg (by omega), if_pos one] at inferred
  obtain ⟨⟨neverSatisfy, fname⟩, added, inferred⟩ := Except.bind_eq_ok.mp inferred
  obtain ⟨last, mostNew, chosen, rfl⟩ := hangCase2_adds_last added
  refine ⟨mostNew, chosen, ?_⟩
  rw [last]
  by_cases wrote : ("2", "w") ∈ (fb.regAcc mostNew).map (fun ra => (ra.type, ra.dir))
  · simp only [wrote, decide_true] at inferred
    cases inferred
    simp [wrote]
  · simp only [wrote, decide_false] at inferred
    cases inferred
    simp [wrote]

/-- When every run returned, `satisfy` holds the names whose run read a DR of the site's
peripheral before it read an SR again, then those whose run wrote one: a name whose run did both
comes twice. -/
theorem func_ret_only_satisfies_dr_accesses (m : ModelFile) (info : SrrInfo) (periAddrRange srBits : Int)
    (traceSig : CheckedSig) (bblCov : List ((String × String) × Nat)) (fb : Feedback)
    (checkedBcs : List (List (List Int))) (p : Prereq (List Char))
    (ran : inferPrereq m info periAddrRange srBits traceSig bblCov fb checkedBcs = .ok p)
    (returned : ∀ f ∈ checkedBcs.map checkedBcFname, fb.termCond0.lookup f = some 0x21)
    (nonempty : checkedBcs ≠ []) :
    ∃ peri, m.lookup info.periBa = some peri ∧
      p = fillOther (checkedBcs.map checkedBcFname)
        ⟨(checkedBcs.map checkedBcFname).filter (fun f =>
            0 < (drAccesses peri.regs info.periBa periAddrRange srBits true (fb.regAcc f)).length) ++
          (checkedBcs.map checkedBcFname).filter (fun f =>
            0 < (drAccesses peri.regs info.periBa periAddrRange srBits false (fb.regAcc f)).length), [], []⟩ := by
  obtain ⟨-, prereq, inferred, rfl⟩ := inferPrereq_ok ran
  rw [inferBitFunc_returned returned (by simpa using nonempty)] at inferred
  obtain ⟨peri, found, rfl⟩ := funcRetOnly_eq inferred
  exact ⟨peri, found, rfl⟩

def uartSite : SrrInfo := ⟨1, "0x40000000", [0], 0, "", "0x8000", "main", 1⟩

def bit5Returns : Feedback :=
  ⟨[("bit:-1".toList, 0x23), ("bit:00".toList, 0x23), ("bit:05".toList, 0x21)], fun _ => [], fun _ => []⟩

theorem bit5_return_satisfies :
    inferPrereq [] uartSite 0x400 32 (.node [] (some [[0], [5]])) [] bit5Returns [[[-1]], [[0]], [[5]]] =
      .ok ⟨["bit:05".toList], [], ["bit:-1".toList, "bit:00".toList]⟩ ∧
    ((∀ f ∈ [[[-1]], [[0]], [[5]]].map checkedBcFname,
      bit5Returns.termCond0.lookup f = some 0x21 ∨ bit5Returns.termCond0.lookup f = some 0x23) ∧
      (∃ f ∈ [[[-1]], [[0]], [[5]]].map checkedBcFname, bit5Returns.termCond0.lookup f = some 0x21) ∧
      ∃ f ∈ [[[-1]], [[0]], [[5]]].map checkedBcFname, bit5Returns.termCond0.lookup f = some 0x23) ∧
    (⟨["bit:05".toList], [], ["bit:-1".toList, "bit:00".toList]⟩ : Prereq (List Char)) =
      fillOther ([[[-1]], [[0]], [[5]]].map checkedBcFname)
        ⟨(([[[-1]], [[0]], [[5]]].map checkedBcFname).find? fun f =>
          bit5Returns.termCond0.lookup f = some 0x21).toList, [], []⟩ :=
  ⟨rfl, ⟨by decide, by decide, by decide⟩,
    hang_func_ret_satisfies_first_return [] uartSite 0x400 32 (.node [] (some [[0], [5]])) [] bit5Returns
      [[[-1]], [[0]], [[5]]] _ rfl (by decide) (by decide) (by decide)⟩

theorem bit5_return_placed_once :
    inferPrereq [] uartSite 0x400 32 (.node [] (some [[0], [5]])) [] bit5Returns [[[-1]], [[0]], [[5]]] =
      .ok ⟨["bit:05".toList], [], ["bit:-1".toList, "bit:00".toList]⟩ ∧
    (∀ f ∈ ["bit:05".toList] ++ [], f ∈ [[[-1]], [[0]], [[5]]].map checkedBcFname) ∧
      (["bit:05".toList] = [] ∨ ([] : List (List Char)) = []) ∧
      ["bit:-1".toList, "bit:00".toList] = ([[[-1]], [[0]], [[5]]].map checkedBcFname).filter
        fun f => f ∉ ["bit:05".toList] ∧ f ∉ ([] : List (List Char)) :=
  ⟨rfl, infer_prereq_places_each_name_once [] uartSite 0x400 32 (.node [] (some [[0], [5]])) [] bit5Returns
    [[[-1]], [[0]], [[5]]] _ rfl⟩

def bit5Moves : Feedback :=
  ⟨[("bit:-1".toList, 0x23), ("bit:00".toList, 0x23), ("bit:05".toList, 0x23)],
    fun f => if f = "bit:05".toList then [⟨"0x40000000", "2", "r", "0", "0x80f0", "0x8100"⟩]
      else [⟨"0x40000000", "2", "r", "0", "0x7ff0", "0x8000"⟩],
    fun _ => []⟩

theorem bit5_moved_satisfies :
    inferPrereq [] uartSite 0x400 32 (.node [] (some [[0], [5]])) [] bit5Moves [[[-1]], [[0]], [[5]]] =
      .ok ⟨["bit:05".toList], [], ["bit:-1".toList, "bit:00".toList]⟩ ∧
    ((∀ f ∈ [[[-1]], [[0]], [[5]]].map checkedBcFname, bit5Moves.termCond0.lookup f = some 0x23) ∧
      "0x8100" ≠ uartSite.srrBblE ∧
      (∀ f ∈ [[[-1]], [[0]], [[5]]].map checkedBcFname,
        lastSite bit5Moves.regAcc f = uartSite.srrBblE ∨ lastSite bit5Moves.regAcc f = "0x8100") ∧
      (∃ f ∈ [[[-1]], [[0]], [[5]]].map checkedBcFname, lastSite bit5Moves.regAcc f = uartSite.srrBblE) ∧
      ∃ f ∈ [[[-1]], [[0]], [[5]]].map checkedBcFname, lastSite bit5Moves.regAcc f = "0x8100") ∧
    (⟨["bit:05".toList], [], ["bit:-1".toList, "bit:00".toList]⟩ : Prereq (List Char)) =
      fillOther ([[[-1]], [[0]], [[5]]].map checkedBcFname)
        ⟨(([[[-1]], [[0]], [[5]]].map checkedBcFname).find? fun f =>
          lastSite bit5Moves.regAcc f ≠ uartSite.srrBblE).toList, [], []⟩ :=
  ⟨rfl, ⟨by decide, by decide, by decide, by decide, by decide⟩,
    hang_only_satisfies_first_moved [] uartSite 0x400 32 (.node [] (some [[0], [5]])) [] bit5Moves
      [[[-1]], [[0]], [[5]]] _ rfl (by decide) "0x8100" (by decide) (by decide) (by decide) (by decide)⟩

def baselineWrites : Feedback :=
  ⟨[("bit:-1".toList, 0x23), ("bit:00".toList, 0x23)],
    fun f => if f = "bit:-1".toList then [⟨"0x40000000", "2", "w", "0", "0x7ff0", "0x8000"⟩]
      else [⟨"0x40000000", "2", "r", "0", "0x7ff0", "0x8000"⟩],
    fun f => if f = "bit:-1".toList then [("0x200", "0x204")] else [("0x100", "0x104")]⟩

theorem baseline_write_marks_last_name :
    inferPrereq [] uartSite 0x400 32 (.node [] (some [[0]])) [] baselineWrites [[[-1]], [[0]]] =
      .ok ⟨[], ["bit:00".toList], ["bit:-1".toList]⟩ ∧
    ((∀ f ∈ [[[-1]], [[0]]].map checkedBcFname, baselineWrites.termCond0.lookup f = some 0x23) ∧
      (∀ f ∈ [[[-1]], [[0]]].map checkedBcFname, lastSite baselineWrites.regAcc f = "0x8000") ∧
      [[[-1]], [[0]]] ≠ []) ∧
    ∃ mostNew, mostNewBblF [] baselineWrites.traceBbls ([[[-1]], [[0]]].map checkedBcFname) = .ok mostNew ∧
      (⟨[], ["bit:00".toList], ["bit:-1".toList]⟩ : Prereq (List Char)) =
        fillOther ([[[-1]], [[0]]].map checkedBcFname)
          (if ("2", "w") ∈ (baselineWrites.regAcc mostNew).map (fun ra => (ra.type, ra.dir)) then
            ⟨[], ([[[-1]], [[0]]].map checkedBcFname).getLast?.toList, []⟩
          else ⟨([[[-1]], [[0]]].map checkedBcFname).getLast?.toList, [], []⟩) :=
  ⟨rfl, ⟨by decide, by decide, by decide⟩,
    hang_only_one_site_places_last_name [] uartSite 0x400 32 (.node [] (some [[0]])) [] baselineWrites
      [[[-1]], [[0]]] _ rfl (by decide) "0x8000" (by decide) (by decide)⟩

def uartModel : ModelFile :=
  [("0x40000000", ⟨[⟨2, some 1, some 0, some 0, none⟩, ⟨3, some 1, some 1, none, none⟩], .obj []⟩)]

def bit5ReadsWrites : Feedback :=
  ⟨[("bit:-1".toList, 0x21), ("bit:05".toList, 0x21)],
    fun f => if f = "bit:05".toList then
        [⟨"0x40000004", "3", "r", "61", "0x8100", "0x8104"⟩, ⟨"0x40000004", "3", "w", "62", "0x8110", "0x8114"⟩]
      else [⟨"0x40000000", "2", "r", "0", "0x7ff0", "0x8000"⟩, ⟨"0x40000004", "3", "r", "61", "0x8100", "0x8104"⟩],
    fun _ => []⟩

theorem dr_read_and_write_satisfy_twice :
    inferPrereq uartModel uartSite 0x400 32 (.node [] (some [[5]])) [] bit5ReadsWrites [[[-1]], [[5]]] =
      .ok ⟨["bit:05".toList, "bit:05".toList], [], ["bit:-1".toList]⟩ ∧
    ((∀ f ∈ [[[-1]], [[5]]].map checkedBcFname, bit5ReadsWrites.termCond0.lookup f = some 0x21) ∧
      [[[-1]], [[5]]] ≠ []) ∧
    ∃ peri, uartModel.lookup uartSite.periBa = some peri ∧
      (⟨["bit:05".toList, "bit:05".toList], [], ["bit:-1".toList]⟩ : Prereq (List Char)) =
        fillOther ([[[-1]], [[5]]].map checkedBcFname)
          ⟨([[[-1]], [[5]]].map checkedBcFname).filter (fun f =>
              0 < (drAccesses peri.regs uartSite.periBa 0x400 32 true (bit5ReadsWrites.regAcc f)).length) ++
            ([[[-1]], [[5]]].map checkedBcFname).filter (fun f =>
              0 < (drAccesses peri.regs uartSite.periBa 0x400 32 false (bit5ReadsWrites.regAcc f)).length),
            [], []⟩ :=
  ⟨rfl, ⟨by decide, by decide⟩,
    func_ret_only_satisfies_dr_accesses uartModel uartSite 0x400 32 (.node [] (some [[5]])) [] bit5ReadsWrites
      [[[-1]], [[5]]] _ rfl (by decide) (by decide)⟩

end P2im
