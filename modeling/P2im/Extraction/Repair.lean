import P2im.Extraction.Adjust

set_option autoImplicit false

/-!
# What `handle_sr_cr_del` repairs

`handle_sr_cr_del` writes each configuration of the events under a new `CR_val` and keeps the
sites that read no SR of `sr_del`. The index it compares with `cr_del` is the text before a
`':'`, and `cr_del` holds integers, so no CR ever leaves a key; and a site is kept only when it
reads one SR.
-/

namespace P2im

/-- Whether a `cr` is dropped does not depend on `cr_del`: the text never equals an integer. -/
theorem keptCr_crDel (crDel : List Int) : keptCr crDel = keptCr [] := by
  funext upd cr
  unfold keptCr
  split <;> simp only [pyIn_str]

theorem crValUpd_crDel (crDel : List Int) (periCfg : List Char) :
    crValUpd crDel periCfg = crValUpd [] periCfg := by
  simp only [crValUpd, keptCr_crDel]

def ReadsOneSr (site : String × Json) : Prop :=
  ∃ srNum, site.2.member? "sr_num" = some srNum ∧ pyEqInt srNum 1 = true

theorem keptSite_one_sr {srDel : List Int} {vUpd vUpd' : List (String × Json)} {site : String × Json}
    (kept : ∀ s ∈ vUpd, ReadsOneSr s) (ok : keptSite srDel vUpd site = .ok vUpd') :
    ∀ s ∈ vUpd', ReadsOneSr s := by
  obtain ⟨srNum, got, rest⟩ := Except.bind_eq_ok.mp ok
  split at rest
  · rename_i one
    obtain ⟨first, -, stored⟩ := Except.bind_eq_ok.mp rest
    cases stored
    intro s mem
    split at mem
    · exact kept s mem
    · rcases mem_setItem mem with rfl | old
      · exact ⟨srNum, getItem_ok got, one⟩
      · exact kept s old
  · cases rest
    exact kept

/-- `handle_sr_cr_del` takes no CR out of a key, since it compares the text before each `':'` with
the integers of `cr_del`; and it keeps only the sites that read one SR. -/
theorem handle_sr_cr_del_keeps_crs (prereq : Json) (rca : Rca) :
    handleSrCrDel prereq rca = handleSrCrDel prereq { rca with crDel := [] } ∧
    ∀ out, handleSrCrDel prereq rca = .ok out → ∀ cfg ∈ out.members, ∀ site ∈ cfg.2.members,
      ReadsOneSr site := by
  refine ⟨by simp only [handleSrCrDel, crValUpd_crDel rca.crDel], fun out ok => ?_⟩
  obtain ⟨items, -, rest⟩ := Except.bind_eq_ok.mp ok
  obtain ⟨upd, folded, done⟩ := Except.bind_eq_ok.mp rest
  cases done
  -- every configuration written so far holds sites that read one SR
  refine Python.foldlM_invariant (fun upd => ∀ cfg ∈ upd, ∀ site ∈ cfg.2.members, ReadsOneSr site)
    (fun upd item upd' _ kept step => ?_) (fun _ none => absurd none List.not_mem_nil) folded
  obtain ⟨crVal, -, step⟩ := Except.bind_eq_ok.mp step
  obtain ⟨sites, -, step⟩ := Except.bind_eq_ok.mp step
  obtain ⟨vUpd, sitesKept, stored⟩ := Except.bind_eq_ok.mp step
  cases stored
  have one : ∀ s ∈ vUpd, ReadsOneSr s :=
    Python.foldlM_invariant (fun vUpd => ∀ s ∈ vUpd, ReadsOneSr s)
      (fun _ site _ _ kept ok => keptSite_one_sr kept ok) (fun _ none => absurd none List.not_mem_nil)
      sitesKept
  intro cfg mem
  rcases mem_setItem mem with rfl | old
  · exact one
  · exact kept cfg old

def crOneEvents : Json :=
  .obj [("1:0x5", .obj [("0x8000", .obj [("sr_num", .int 1), ("sr_idx", .arr [.int 0])]),
    ("0x9000", .obj [("sr_num", .int 2), ("sr_idx", .arr [.int 1, .int 2])])])]

theorem cr_one_kept_and_two_sr_site_dropped :
    handleSrCrDel crOneEvents ⟨[1], [], [], []⟩ = handleSrCrDel crOneEvents ⟨[], [], [], []⟩ ∧
    handleSrCrDel crOneEvents ⟨[1], [], [], []⟩ =
      .ok (.obj [("1:0x5", .obj [("0x8000", .obj [("sr_num", .int 1), ("sr_idx", .arr [.int 0])])])]) :=
  ⟨(handle_sr_cr_del_keeps_crs crOneEvents ⟨[1], [], [], []⟩).1, rfl⟩

end P2im
