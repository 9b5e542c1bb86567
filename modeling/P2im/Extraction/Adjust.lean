import P2im.Extraction.ModelFile

set_option autoImplicit false

/-!
# Adjusting the events to category changes

`stage1_4` compares the register records of the file the stage-1 run loaded (`model_if_s1`)
with those it dumped. `adjusted_reg_cat` sorts the registers whose category changed: a CR that
is no longer one (`cr_del`), an SR that is no longer one (`sr_del`), a new CR or CR_SR
(`cr_ins`) and a new SR (`sr_ins`). A new CR empties the peripheral's events and the main loop
starts the next depth; a deleted CR or SR goes through `handle_sr_cr_del`, which writes each
`CR_val` again without the deleted CRs and drops the srr sites that read a deleted SR, or more
than one SR.

The main loop calls `handle_sr_cr_del` once more, when it makes an SR that no input made the
driver check a DR, and drops what it returns.
-/

namespace P2im

/-- Python's `v == n` of a loaded value and an integer: `True` is 1, `False` 0, a float compares
by value, and no text or container equals a number. -/
def pyEqInt : Json → Int → Bool
  | .int m, n => m == n
  | .bool b, n => (if b then 1 else 0) == n
  | .real m e, n => if 0 ≤ e then m * 10 ^ e.toNat == n else m == n * 10 ^ (-e).toNat
  | _, _ => false

/-- `v in ns` for a list of integers. -/
def pyIn (v : Json) (ns : List Int) : Bool := ns.any (pyEqInt v)

/-- `rc_adjusted`: the registers of each kind of change. -/
structure Rca where
  crDel : List Int
  crIns : List Int
  srDel : List Int
  srIns : List Int
deriving DecidableEq, Repr

/-- One item of `rc_diff`: register `k` went from category `ot` to `nt`. -/
def adjustItem (rca : Rca) (k ot nt : Int) : Rca :=
  if ot ≠ nt then
    { crDel := if ot = 1 ∧ nt ≠ 4 then rca.crDel ++ [k] else rca.crDel
      -- `nt == 1 or nt == 4 and ot != 1`: `and` binds tighter
      crIns := if nt = 1 ∨ (nt = 4 ∧ ot ≠ 1) then rca.crIns ++ [k] else rca.crIns
      srDel := if ot = 2 then rca.srDel ++ [k] else rca.srDel
      srIns := if nt = 2 ∧ ot ≠ 0 then rca.srIns ++ [k] else rca.srIns }
  else rca

/-- `adjusted_reg_cat`: the sorted changes, and whether there is any. -/
def adjustedRegCat (rcDiff : List (Int × RegDict × RegDict)) : Rca × Bool :=
  let rca := rcDiff.foldl (fun rca change => adjustItem rca change.1 change.2.1.type change.2.2.type)
    ⟨[], [], [], []⟩
  (rca, [rca.crDel, rca.crIns, rca.srDel, rca.srIns].any (· ≠ []))

/-- `rc_diff` of `stage1_4`: the registers whose record, without `"cr_value"`, differs between the
file the run loaded and the one it dumped, with both records; past its end `old` reads
`{"type": 0}`. -/
def regChanges (old new : List RegDict) : List (Int × RegDict × RegDict) :=
  new.zipIdx.filterMap fun (n, i) =>
    let o := (old.getD i RegDict.uc).popCrValue
    if o = n.popCrValue then none else some (i, o, n.popCrValue)

/-- `d.items()`: only a dictionary has items. -/
def dictItems : Json → Except PyError (List (String × Json))
  | .obj members => .ok members
  | _ => .error .typeError

/-- `v1["sr_idx"][0]`, of the list stage 2.5 writes there. -/
def firstItem : Json → Except PyError Json
  | .arr items => Python.index items 0
  | _ => .error .typeError

/-- One `cr` of a `CR_val`: `bit, value = cr.split(':')`, kept with `int(bit)` unless `bit` is in
`cr_del`. -/
def keptCr (crDel : List Int) (upd : List (Int × List Char)) (cr : List Char) :
    Except PyError (List (Int × List Char)) :=
  match cr.splitOn ':' with
  | [bit, value] =>
    -- `bit` is text, and `cr_del` holds the integer keys of `rc_diff`
    if pyIn (.str (String.ofList bit)) crDel then pure upd
    else do
      let n ← Python.int bit
      pure (upd ++ [(n, value)])
  | _ => .error .valueError

/-- The `CR_val` of a configuration without the CRs of `cr_del`, written again. -/
def crValUpd (crDel : List Int) (periCfg : List Char) : Except PyError (List Char) :=
  if periCfg = [] then pure periCfg
  else do
    let upd ← (periCfg.splitOn ',').foldlM (keptCr crDel) []
    pure (upd.flatMap fun cr => Printf.decimal cr.1 ++ ':' :: cr.2 ++ [',']).dropLast

/-- One srr site of a configuration: kept when it reads one SR, not one of `sr_del`. -/
def keptSite (srDel : List Int) (vUpd : List (String × Json)) (site : String × Json) :
    Except PyError (List (String × Json)) := do
  let srNum ← getItem "sr_num" site.2
  if pyEqInt srNum 1 then do
    let first ← getItem "sr_idx" site.2 >>= firstItem
    pure (if pyIn first srDel then vUpd else Python.setItem site.1 site.2 vUpd)
  else pure vUpd

/-- `handle_sr_cr_del`: new events, with each configuration under its updated `CR_val`. -/
def handleSrCrDel (prereq : Json) (rca : Rca) : Except PyError Json := do
  let items ← dictItems prereq
  let upd ← items.foldlM (fun upd (periCfg, v) => do
      let crVal ← crValUpd rca.crDel periCfg.toList
      let sites ← dictItems v
      let vUpd ← sites.foldlM (keptSite rca.srDel) []
      pure (Python.setItem (String.ofList crVal) (Json.obj vUpd) upd)) []
  pure (.obj upd)

/-- The loop body of `stage1_4` for the peripheral `ba` of `model_if_s1`, with records `old`: the
file stage 1.4 writes so far, and whether a new CR was seen. -/
def adjustPeri (old : List RegDict) (acc : ModelFile × Bool) (ba : String) :
    Except PyError (ModelFile × Bool) := do
  let peri ← Python.key ba (acc.1.lookup ba)
  let (rca, adjusted) := adjustedRegCat (regChanges old peri.regs)
  if adjusted then
    if rca.crIns ≠ [] then
      -- the depth starts again with no events for the peripheral
      pure (Python.setItem ba { peri with events := .obj [] } acc.1, true)
    else if rca.crDel ≠ [] ∨ rca.srDel ≠ [] then do
      let events ← handleSrCrDel peri.events rca
      pure (Python.setItem ba { peri with events } acc.1, acc.2)
    else pure acc
  else pure acc

/-- `stage1_4`: the file stage 1 dumped, adjusted against `model_if_s1`, and whether a new CR was
seen. -/
def stage14 (mo : Option ModelFile) (mn : ModelFile) : Except PyError (ModelFile × Bool) :=
  match mo with
  -- depth 1 under an empty --model-if
  | none => pure (mn, false)
  | some mo => mo.foldlM (fun acc bp => adjustPeri bp.2.regs acc bp.1) (mn, false)

/-- The main loop's adjustment when no input made the driver check a bit of the SR `sr_idx[0]`,
on the file stage 2.2 wrote last: an unlocked SR becomes a DR (`some`), a locked one stays. -/
def srToDr (m : ModelFile) (info : SrrInfo) : Except PyError (Option ModelFile) := do
  let peri ← Python.key info.periBa (m.lookup info.periBa)
  let srIdx ← Python.index info.srIdx 0
  match ← adjustSrToDr peri.regs srIdx with
  | some regs =>
    -- the events `handle_sr_cr_del` returns are dropped
    let _ ← handleSrCrDel peri.events ⟨[], [], [srIdx], []⟩
    pure (some (Python.setItem info.periBa { peri with regs } m))
  | none => pure none

theorem pyIn_str (s : String) (ns : List Int) : pyIn (.str s) ns = false := by
  simp [pyIn, pyEqInt]

theorem adjustSrToDr_some {regs regs' : List RegDict} {srIdx : Int}
    (adjusted : adjustSrToDr regs srIdx = .ok (some regs')) :
    ∃ j reg, Python.position regs srIdx = some j ∧ regs[j]? = some reg ∧
      regs' = regs.set j { reg with type := 3 } := by
  unfold adjustSrToDr at adjusted
  obtain ⟨reg, read, adjusted⟩ := Except.bind_eq_ok.mp adjusted
  obtain ⟨j, position, at_j⟩ := Python.index_eq read
  obtain ⟨locked, -, adjusted⟩ := Except.bind_eq_ok.mp adjusted
  split at adjusted
  · unfold Python.setIndex at adjusted
    rw [position] at adjusted
    cases adjusted
    exact ⟨j, reg, position, at_j, rfl⟩
  · cases adjusted

theorem srToDr_some {m m' : ModelFile} {info : SrrInfo} (adjusted : srToDr m info = .ok (some m')) :
    ∃ peri srIdx j reg, m.lookup info.periBa = some peri ∧ info.srIdx[0]? = some srIdx ∧
      Python.position peri.regs srIdx = some j ∧ peri.regs[j]? = some reg ∧
      m' = Python.setItem info.periBa
        { peri with regs := peri.regs.set j { reg with type := 3 } } m := by
  unfold srToDr at adjusted
  obtain ⟨peri, found, adjusted⟩ := Except.bind_eq_ok.mp adjusted
  obtain ⟨srIdx, first, adjusted⟩ := Except.bind_eq_ok.mp adjusted
  obtain ⟨j0, position0, first⟩ := Python.index_eq first
  have zero : j0 = 0 := by
    unfold Python.position at position0
    split_ifs at position0 <;> simp_all
  obtain ⟨result, changed, adjusted⟩ := Except.bind_eq_ok.mp adjusted
  cases result with
  | none => cases adjusted
  | some regs =>
    obtain ⟨j, reg, position, at_j, rfl⟩ := adjustSrToDr_some changed
    obtain ⟨_, -, adjusted⟩ := Except.bind_eq_ok.mp adjusted
    cases adjusted
    cases found' : m.lookup info.periBa with
    | none => rw [found'] at found; cases found
    | some peri' =>
      rw [found'] at found
      cases found
      exact ⟨peri, srIdx, j, reg, rfl, zero ▸ first, position, at_j, rfl⟩

end P2im
