import P2im.Extraction.SrInputs
import P2im.Peripheral.LoadAccepts

set_option autoImplicit false

/-!
# The SR read sites `stage2_5` writes

`stage2_5` ends by converting the names of the inputs it sorted into `"satisfy"`,
`"never_satisfy"` and `"other"` into bit combinations, and by writing them, with the SR read
site's `sr_num`, `sr_idx`, `set_bits` and `CR_SR_r_idx`, under the site's `bbl_e` in the
`"events"` of its `CR_val`. A bit combination lists, for each SR, its bits and then whether they
are to be set (1) or clear (0). The `-1` bits of the baseline become the one bit the driver
checked after the bits of the previous SRs, or stay `-1` with a clear flag when it checked none.
-/

namespace P2im

/-- `trace_sig` as the conversion reads it, once `driver_checked_bits` added the bits it found
checked to the dictionary of each SR: the dictionaries under the keys of the bits of the SR,
and `"checked_bits"`. -/
inductive CheckedSig where
  | node (subs : List (List Char × CheckedSig)) (checkedBits : Option (List (List Int)))

/-- `cb_dic[key]`. -/
def CheckedSig.sub (key : List Char) : CheckedSig → Except PyError CheckedSig
  | .node subs _ => Python.key (String.ofList key) (subs.lookup key)

/-- `cb_dic["checked_bits"]`. -/
def CheckedSig.checked : CheckedSig → Except PyError (List (List Int))
  | .node _ checkedBits => Python.key "checked_bits" checkedBits

/-- `tup[j*2]`, the bits of SR `j`, with `tup` kept as pairs of bits and flag. -/
def tupBits (tup : List (List Int × Int)) (j : Nat) : Except PyError (List Int) :=
  match tup[j]? with
  | some entry => .ok entry.1
  | none => .error .indexError

def cbDicAt (traceSig : CheckedSig) (tup : List (List Int × Int)) (i : Nat) :
    Except PyError CheckedSig :=
  (List.range i).foldlM (fun cbDic j => do
    let bits ← tupBits tup j
    cbDic.sub (bitsKey bits)) traceSig

/-- The conversion of the bits `bc` of one name, from SR `i` on, after the pairs `tup` of the SRs
before it; the name is kept when `convert_ok` stays true. In `"other"` a name that cannot be
converted ends its conversion at once. -/
def convertBc (setBits : Nat) (traceSig : CheckedSig) (other : Bool) :
    (i : Nat) → (tup : List (List Int × Int)) → (convertOk : Bool) → (bc : List (List Int)) →
      Except PyError (Option (List (List Int × Int)))
  | _, tup, convertOk, [] => pure (if convertOk then some tup else none)
  | i, tup, convertOk, b :: rest =>
    if b = List.replicate setBits (-1) then do
      let cbDic ← cbDicAt traceSig tup i
      let checked ← cbDic.checked
      match checked with
      | [single] => convertBc setBits traceSig other (i + 1) (tup ++ [(single, 0)]) convertOk rest
      | [] =>
        -- no bit checked: the baseline stays, to be kept clear
        convertBc setBits traceSig other (i + 1) (tup ++ [(List.replicate setBits (-1), 0)])
          convertOk rest
      | _ :: _ :: _ =>
        if other then pure none else convertBc setBits traceSig other (i + 1) tup false rest
    else convertBc setBits traceSig other (i + 1) (tup ++ [(b, 1)]) convertOk rest

/-- `[list(map(int, b.strip("bit:").split('+'))) for b in fname.split(',')]`. -/
def fnameBits (fname : List Char) : Except PyError (List (List Int)) :=
  (fname.splitOn ',').mapM fun b => parseBits (Python.strip "bit:".toList b)

/-- A converted name as `json.dump` writes it: `[bits, flag, bits, flag, ...]`. -/
def tupJson (tup : List (List Int × Int)) : Json :=
  .arr (tup.flatMap fun entry => [.arr (entry.1.map .int), .int entry.2])

def convertNames (setBits : Nat) (traceSig : CheckedSig) (other : Bool)
    (names : List (List Char)) : Except PyError (List Json) :=
  names.foldlM (fun v1 fname => do
    let bc ← fnameBits fname
    let tup ← convertBc setBits traceSig other 0 [] true bc
    pure (v1 ++ (tup.map tupJson).toList)) []

/-- `prereq`: its three lists, in the order of its keys. -/
structure Prereq (α : Type) where
  satisfy : List α
  neverSatisfy : List α
  other : List α

def Prereq.items {α : Type} (p : Prereq α) : List (String × List α) :=
  [("satisfy", p.satisfy), ("never_satisfy", p.neverSatisfy), ("other", p.other)]

def convertPrereq (setBits : Nat) (traceSig : CheckedSig) (names : Prereq (List Char)) :
    Except PyError (Prereq Json) := do
  let satisfy ← convertNames setBits traceSig false names.satisfy
  let neverSatisfy ← convertNames setBits traceSig false names.neverSatisfy
  let other ← convertNames setBits traceSig true names.other
  pure ⟨satisfy, neverSatisfy, other⟩

/-- What `stage2_5` writes of the SR read site it explored, `srr_info`, with the names of the
site in the model file. -/
structure SrrInfo where
  srNum : Int
  periBa : String
  srIdx : List Int
  crSrRIdx : Int
  crVal : String
  srrBblE : String
  srrFunc : String
  srrBblCnt : Int

/-- `d[key]` of a loaded document. -/
def getItem (key : String) (d : Json) : Except PyError Json := Python.key key (d.member? key)

/-- `d[key] = v`: only a dictionary takes a key. -/
def putItem (key : String) (v : Json) : Json → Except PyError Json
  | .obj members => .ok (.obj (Json.setMember key v members))
  | _ => .error .typeError

/-- `if key not in d: d[key] = {}`. -/
def addMissing (key : String) (d : Json) : Except PyError Json :=
  if (d.member? key).isSome then pure d else putItem key (.obj []) d

/-- `if key in d: d[key] += v` on a list, `else: d[key] = v`. -/
def extendItem (key : String) (v : List Json) (d : Json) : Except PyError Json :=
  match d.member? key with
  | some (.arr items) => putItem key (.arr (items ++ v)) d
  | some _ => .error .typeError
  | none => putItem key (.arr v) d

/-- `if srr_info.CR_SR_r_idx:` a CR_SR read by the site is recorded. -/
def putRIdx (info : SrrInfo) (site : Json) : Except PyError Json :=
  if info.crSrRIdx ≠ 0 then putItem "CR_SR_r_idx" (.int info.crSrRIdx) site else pure site

/-- `if args.eval:` the site also records its function and block count. -/
def putEval (eval : Bool) (info : SrrInfo) (site : Json) : Except PyError Json :=
  if eval then putItem "srr_func" (.str info.srrFunc) site >>= putItem "bbl_cnt" (.int info.srrBblCnt)
  else pure site

def fillSrrSite (info : SrrInfo) (setBits : Nat) (prereq : Prereq Json) (eval : Bool)
    (site : Json) : Except PyError Json := do
  let site ← putItem "sr_num" (.int info.srNum) site
  let site ← putItem "sr_idx" (.arr (info.srIdx.map .int)) site
  let site ← putItem "set_bits" (.int setBits) site
  let site ← putRIdx info site
  let site ← prereq.items.foldlM (fun site kv => extendItem kv.1 kv.2 site) site
  putEval eval info site

/-- The event dump of `stage2_5`: the site `srr_info` names, made if missing, with its members
written, in the model the script then dumps. -/
def dumpEvents (model : Json) (info : SrrInfo) (setBits : Nat) (prereq : Prereq Json)
    (eval : Bool) : Except PyError Json := do
  let models ← getItem "model" model
  let peri ← getItem info.periBa models
  let evts ← getItem "events" peri
  let evts ← addMissing info.crVal evts
  let conf ← getItem info.crVal evts
  let conf ← addMissing info.srrBblE conf
  let site ← getItem info.srrBblE conf
  let site ← fillSrrSite info setBits prereq eval site
  -- the script changes the dictionaries in place: each goes back into its parent
  let conf ← putItem info.srrBblE site conf
  let evts ← putItem info.crVal conf evts
  let peri ← putItem "events" evts peri
  let models ← putItem info.periBa peri models
  putItem "model" models model

def stage25Events (model : Json) (info : SrrInfo) (setBits : Nat) (traceSig : CheckedSig)
    (names : Prereq (List Char)) (eval : Bool) : Except PyError Json := do
  let prereq ← convertPrereq setBits traceSig names
  dumpEvents model info setBits prereq eval

def siteAt (model : Json) (info : SrrInfo) : Option Json := do
  let models ← model.member? "model"
  let peri ← models.member? info.periBa
  let evts ← peri.member? "events"
  let conf ← evts.member? info.crVal
  conf.member? info.srrBblE

/-! ## What the dump writes -/

theorem putItem_ok {key : String} {v d d' : Json} (written : putItem key v d = .ok d') :
    ∃ members, d = .obj members ∧ d' = .obj (Json.setMember key v members) := by
  cases d with
  | obj members =>
    cases written
    exact ⟨members, rfl, rfl⟩
  | _ => cases written

theorem member?_putItem {key : String} {v d d' : Json} (written : putItem key v d = .ok d')
    (k : String) : d'.member? k = if key = k then some v else d.member? k := by
  obtain ⟨members, rfl, rfl⟩ := putItem_ok written
  split
  · next same =>
    subst same
    exact Json.lookup_setMember_self _ _ _
  · next other => exact Json.lookup_setMember_of_ne _ _ other

theorem mem_putItem {key : String} {v d d' : Json} (written : putItem key v d = .ok d') :
    (key, v) ∈ d'.members := by
  obtain ⟨members, rfl, rfl⟩ := putItem_ok written
  exact Json.mem_setMember _ _ _

theorem putItem_keeps {key k : String} {v d d' : Json} (written : putItem key v d = .ok d')
    (other : key ≠ k) : d'.member? k = d.member? k := by
  rw [member?_putItem written, if_neg other]

theorem addMissing_member {key : String} {d d' : Json} (added : addMissing key d = .ok d') :
    d'.member? key = some ((d.member? key).getD (.obj [])) := by
  unfold addMissing at added
  split at added
  · next found =>
    cases added
    obtain ⟨v, hv⟩ := Option.isSome_iff_exists.mp found
    simp [hv]
  · next missing =>
    rw [member?_putItem added, if_pos rfl]
    simp_all

theorem extendItem_keeps {key k : String} {v : List Json} {d d' : Json}
    (written : extendItem key v d = .ok d') (other : key ≠ k) : d'.member? k = d.member? k := by
  unfold extendItem at written
  split at written
  · exact putItem_keeps written other
  · cases written
  · exact putItem_keeps written other

theorem extendItem_extends {key : String} {v : List Json} {d d' : Json}
    (written : extendItem key v d = .ok d') :
    ∃ items, d'.member? key = some (.arr items) ∧ ∀ j ∈ v, j ∈ items := by
  unfold extendItem at written
  split at written
  · next items _ =>
    exact ⟨items ++ v, by rw [member?_putItem written, if_pos rfl],
      fun j mem => List.mem_append_right _ mem⟩
  · cases written
  · exact ⟨v, by rw [member?_putItem written, if_pos rfl], fun j mem => mem⟩

theorem putRIdx_keeps {info : SrrInfo} {d d' : Json} (written : putRIdx info d = .ok d')
    {k : String} (other : "CR_SR_r_idx" ≠ k) : d'.member? k = d.member? k := by
  unfold putRIdx at written
  split at written
  · exact putItem_keeps written other
  · cases written
    rfl

theorem putEval_keeps {eval : Bool} {info : SrrInfo} {d d' : Json}
    (written : putEval eval info d = .ok d') {k : String} (func : "srr_func" ≠ k)
    (cnt : "bbl_cnt" ≠ k) : d'.member? k = d.member? k := by
  unfold putEval at written
  split at written
  · obtain ⟨d1, first, second⟩ := Except.bind_eq_ok.mp written
    rw [putItem_keeps second cnt, putItem_keeps first func]
  · cases written
    rfl

theorem optIntMember?_of_member? {d d' : Json} {k : String} (same : d'.member? k = d.member? k) :
    d'.optIntMember? k = d.optIntMember? k := by
  simp [Json.optIntMember?, same]

theorem fillSrrSite_typed {info : SrrInfo} {setBits : Nat} {prereq : Prereq Json} {eval : Bool}
    {site site' : Json} (filled : fillSrrSite info setBits prereq eval site = .ok site')
    (oldRIdx : site.optIntMember? "CR_SR_r_idx" ≠ none) :
    SiteTyped site' ∧
      ∃ items, site'.member? "satisfy" = some (.arr items) ∧ ∀ tup ∈ prereq.satisfy, tup ∈ items := by
  rw [fillSrrSite] at filled
  obtain ⟨s1, w1, filled⟩ := Except.bind_eq_ok.mp filled
  obtain ⟨s2, w2, filled⟩ := Except.bind_eq_ok.mp filled
  obtain ⟨s3, w3, filled⟩ := Except.bind_eq_ok.mp filled
  obtain ⟨s4, w4, filled⟩ := Except.bind_eq_ok.mp filled
  obtain ⟨s5, w5, w6⟩ := Except.bind_eq_ok.mp filled
  simp only [Prereq.items, List.foldlM_cons, List.foldlM_nil] at w5
  obtain ⟨e1, x1, w5⟩ := Except.bind_eq_ok.mp w5
  obtain ⟨e2, x2, w5⟩ := Except.bind_eq_ok.mp w5
  obtain ⟨e3, x3, w5⟩ := Except.bind_eq_ok.mp w5
  cases w5
  -- the members after `"set_bits"` leave those written before them
  have late : ∀ k, "CR_SR_r_idx" ≠ k → "satisfy" ≠ k → "never_satisfy" ≠ k → "other" ≠ k →
      "srr_func" ≠ k → "bbl_cnt" ≠ k → site'.member? k = s3.member? k := by
    intro k rIdx sat never other func cnt
    rw [putEval_keeps w6 func cnt, extendItem_keeps x3 other, extendItem_keeps x2 never,
      extendItem_keeps x1 sat, putRIdx_keeps w4 rIdx]
  have srNum : site'.member? "sr_num" = some (.int info.srNum) := by
    rw [late _ (by decide) (by decide) (by decide) (by decide) (by decide) (by decide),
      putItem_keeps w3 (by decide), putItem_keeps w2 (by decide), member?_putItem w1, if_pos rfl]
  have setBitsMember : site'.member? "set_bits" = some (.int setBits) := by
    rw [late _ (by decide) (by decide) (by decide) (by decide) (by decide) (by decide),
      member?_putItem w3, if_pos rfl]
  have rIdx : site'.optIntMember? "CR_SR_r_idx" ≠ none := by
    have after : site'.member? "CR_SR_r_idx" = s4.member? "CR_SR_r_idx" := by
      rw [putEval_keeps w6 (by decide) (by decide), extendItem_keeps x3 (by decide),
        extendItem_keeps x2 (by decide), extendItem_keeps x1 (by decide)]
    rw [optIntMember?_of_member? after]
    unfold putRIdx at w4
    split at w4
    · simp [Json.optIntMember?, member?_putItem w4, Json.int?]
    · cases w4
      rw [optIntMember?_of_member? (putItem_keeps w3 (by decide)),
        optIntMember?_of_member? (putItem_keeps w2 (by decide)),
        optIntMember?_of_member? (putItem_keeps w1 (by decide))]
      exact oldRIdx
  obtain ⟨items, sat, holds⟩ := extendItem_extends x1
  refine ⟨⟨⟨_, Json.intMember?_eq_some.mpr srNum⟩, ⟨_, Json.intMember?_eq_some.mpr setBitsMember⟩,
    rIdx⟩, items, ?_, holds⟩
  rw [putEval_keeps w6 (by decide) (by decide), extendItem_keeps x3 (by decide),
    extendItem_keeps x2 (by decide), sat]

theorem getItem_ok {key : String} {d v : Json} (got : getItem key d = .ok v) :
    d.member? key = some v := by
  unfold getItem Python.key at got
  split at got
  · cases got
    assumption
  · cases got

theorem dumpEvents_site {model model' : Json} {info : SrrInfo} {setBits : Nat}
    {prereq : Prereq Json} {eval : Bool}
    (written : dumpEvents model info setBits prereq eval = .ok model') :
    ∃ site', fillSrrSite info setBits prereq eval ((siteAt model info).getD (.obj [])) =
      .ok site' ∧ SrrSiteOf model' site' := by
  rw [dumpEvents] at written
  obtain ⟨models, gotModels, written⟩ := Except.bind_eq_ok.mp written
  obtain ⟨peri, gotPeri, written⟩ := Except.bind_eq_ok.mp written
  obtain ⟨evts, gotEvts, written⟩ := Except.bind_eq_ok.mp written
  obtain ⟨evts1, addedConf, written⟩ := Except.bind_eq_ok.mp written
  obtain ⟨conf, gotConf, written⟩ := Except.bind_eq_ok.mp written
  obtain ⟨conf1, addedSite, written⟩ := Except.bind_eq_ok.mp written
  obtain ⟨site, gotSite, written⟩ := Except.bind_eq_ok.mp written
  obtain ⟨site', filled, written⟩ := Except.bind_eq_ok.mp written
  obtain ⟨conf', putSite, written⟩ := Except.bind_eq_ok.mp written
  obtain ⟨evts', putConf, written⟩ := Except.bind_eq_ok.mp written
  obtain ⟨peri', putEvts, written⟩ := Except.bind_eq_ok.mp written
  obtain ⟨models', putPeri, putModels⟩ := Except.bind_eq_ok.mp written
  -- the site read is the model's, or the empty one just made
  have confIs : conf = (evts.member? info.crVal).getD (.obj []) := by
    have got := getItem_ok gotConf
    rw [addMissing_member addedConf] at got
    exact (Option.some.inj got).symm
  have siteIs : site = (conf.member? info.srrBblE).getD (.obj []) := by
    have got := getItem_ok gotSite
    rw [addMissing_member addedSite] at got
    exact (Option.some.inj got).symm
  have old : site = (siteAt model info).getD (.obj []) := by
    rw [siteIs, confIs]
    simp only [siteAt, getItem_ok gotModels, getItem_ok gotPeri, getItem_ok gotEvts,
      Option.bind_eq_bind, Option.bind_some]
    cases evts.member? info.crVal <;> rfl
  refine ⟨site', old ▸ filled, models', peri', evts', conf', ?_, ⟨_, mem_putItem putPeri⟩, ?_,
    ⟨_, mem_putItem putConf⟩, _, mem_putItem putSite⟩
  · rw [member?_putItem putModels, if_pos rfl]
  · rw [member?_putItem putEvts, if_pos rfl]

/-! ## The converted names -/

theorem convertBc_some {setBits : Nat} {traceSig : CheckedSig} {other : Bool} {i : Nat}
    {tup : List (List Int × Int)} {convertOk : Bool} {bc : List (List Int)}
    {tup' : List (List Int × Int)}
    (conv : convertBc setBits traceSig other i tup convertOk bc = .ok (some tup')) :
    convertOk = true ∧ tup'.length = tup.length + bc.length := by
  induction bc generalizing i tup convertOk with
  | nil =>
    cases convertOk <;> simp [convertBc] at conv
    exact ⟨rfl, by simp [conv]⟩
  | cons b rest ih =>
    rw [convertBc] at conv
    split at conv
    · obtain ⟨_, -, conv⟩ := Except.bind_eq_ok.mp conv
      obtain ⟨_, -, conv⟩ := Except.bind_eq_ok.mp conv
      split at conv
      · obtain ⟨kept, length⟩ := ih conv
        exact ⟨kept, by simp only [length, List.length_append, List.length_cons, List.length_nil]; omega⟩
      · obtain ⟨kept, length⟩ := ih conv
        exact ⟨kept, by simp only [length, List.length_append, List.length_cons, List.length_nil]; omega⟩
      · -- a name whose baseline cannot be converted is not kept
        split at conv
        · cases conv
        · exact absurd (ih conv).1 (by simp)
    · obtain ⟨kept, length⟩ := ih conv
      exact ⟨kept, by simp only [length, List.length_append, List.length_cons, List.length_nil]; omega⟩

theorem fnameBits_ne_nil {fname : List Char} {bc : List (List Int)}
    (bits : fnameBits fname = .ok bc) : bc ≠ [] := by
  have := Python.length_of_mapM_ok bits
  intro empty
  rw [empty] at this
  exact List.splitOn_ne_nil ',' fname (List.length_eq_zero_iff.mp this.symm)

theorem tupJson_items_length (tup : List (List Int × Int)) :
    (tupJson tup).items.length = 2 * tup.length := by
  induction tup with
  | nil => rfl
  | cons entry rest ih =>
    simp only [tupJson, Json.items, List.flatMap_cons, List.length_append, List.length_cons,
      List.length_nil] at ih ⊢
    omega

theorem convertNames_long {setBits : Nat} {traceSig : CheckedSig} {other : Bool}
    {names : List (List Char)} {v : List Json}
    (conv : convertNames setBits traceSig other names = .ok v) : ∀ j ∈ v, 2 ≤ j.items.length := by
  refine Python.foldlM_invariant (fun v => ∀ j ∈ v, 2 ≤ j.items.length) ?_ (by simp) conv
  intro v1 fname v2 _ long step
  obtain ⟨bc, bits, step⟩ := Except.bind_eq_ok.mp step
  obtain ⟨tup, converted, step⟩ := Except.bind_eq_ok.mp step
  cases step
  intro j mem
  rcases List.mem_append.mp mem with kept | new
  · exact long j kept
  · cases tup with
    | none => cases new
    | some t =>
      have length := (convertBc_some converted).2
      have nonempty := List.length_pos_of_ne_nil (fnameBits_ne_nil bits)
      obtain rfl := List.mem_singleton.mp new
      rw [tupJson_items_length]
      simp only [List.length_nil] at length
      omega

theorem convertPrereq_satisfy {setBits : Nat} {traceSig : CheckedSig} {names : Prereq (List Char)}
    {prereq : Prereq Json} (conv : convertPrereq setBits traceSig names = .ok prereq) :
    convertNames setBits traceSig false names.satisfy = .ok prereq.satisfy := by
  rw [convertPrereq] at conv
  obtain ⟨satisfy, converted, conv⟩ := Except.bind_eq_ok.mp conv
  obtain ⟨_, -, conv⟩ := Except.bind_eq_ok.mp conv
  obtain ⟨_, -, conv⟩ := Except.bind_eq_ok.mp conv
  cases conv
  exact converted

/-! ## The site read back -/

/-- A model file in which `stage2_5` wrote a bit combination to `"satisfy"` is never loaded:
`pm_load_model` returns an error, or reaches the flag after the first SR's bits and reads `l1`
uninitialised. -/
theorem stage25_events_never_loaded (model model' : Json) (info : SrrInfo) (setBits : Nat)
    (traceSig : CheckedSig) (names : Prereq (List Char)) (eval : Bool) (prereq : Prereq Json)
    (converted : convertPrereq setBits traceSig names = .ok prereq)
    (written : dumpEvents model info setBits prereq eval = .ok model')
    (satisfied : prereq.satisfy ≠ [])
    (oldRIdx : ∀ old ∈ siteAt model info, old.optIntMember? "CR_SR_r_idx" ≠ none)
    (lib : Jansson) (doc : lib.Documented) (pmStage : PmStage) (aflFile : Bool) (errno : Int)
    (g : LoadGlobals) :
    ∀ loaded, pmLoadModel lib pmStage aflFile errno g (some model') ≠ .ok loaded := by
  intro loaded ok
  obtain ⟨site', filled, site⟩ := dumpEvents_site written
  -- a new site has no CR_SR_r_idx; an old one has the integer a previous dump wrote
  have typedOld : ((siteAt model info).getD (.obj [])).optIntMember? "CR_SR_r_idx" ≠ none := by
    cases found : siteAt model info with
    | none => simp [Json.optIntMember?]
    | some old => exact oldRIdx old found
  obtain ⟨typed, items, sat, holds⟩ := fillSrrSite_typed filled typedOld
  obtain ⟨tup, mem⟩ := List.exists_mem_of_ne_nil _ satisfied
  have long := convertNames_long (convertPrereq_satisfy converted) tup mem
  have short := pmLoadModel_satisfy_short doc ok site typed sat tup (holds tup mem)
  omega

theorem stage25_events_bit5_never_loaded :
    let model : Json := .obj [("model", .obj [("0x40000000", .obj [("DR_bytes_num", .int 4),
      ("reg_size", .int 4), ("regs", .arr []), ("events", .obj [])])])]
    let info : SrrInfo := ⟨1, "0x40000000", [0], 0, "", "0x8000", "main", 1⟩
    ∃ prereq model',
      convertPrereq 1 (.node [] none) ⟨["bit:05".toList], [], []⟩ = .ok prereq ∧
      dumpEvents model info 1 prereq false = .ok model' ∧ prereq.satisfy ≠ [] ∧
      (∀ old ∈ siteAt model info, old.optIntMember? "CR_SR_r_idx" ≠ none) ∧
      ∀ loaded, pmLoadModel Jansson.manual .fuzzing false 0 ⟨0, 0, 0, [], 0⟩ (some model') ≠ .ok loaded := by
  intro model info
  have noSite : ∀ old ∈ siteAt model info, old.optIntMember? "CR_SR_r_idx" ≠ none := by
    intro old mem
    cases mem
  refine ⟨_, _, rfl, rfl, List.cons_ne_nil _ _, noSite, ?_⟩
  exact stage25_events_never_loaded model _ info 1 (.node [] none) ⟨["bit:05".toList], [], []⟩
    false _ rfl rfl (List.cons_ne_nil _ _) noSite Jansson.manual Jansson.manual_documented .fuzzing false
    0 ⟨0, 0, 0, [], 0⟩

end P2im
