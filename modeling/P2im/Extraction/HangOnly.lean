import P2im.Shared.Python

set_option autoImplicit false

/-!
# The input `stage2_5` takes as the most productive

When every checked input hangs at the same last SR read site (case 2 of "hang only"), `stage2_5`
lists, for each input, the blocks its run covered that stage 1 did not, and takes the input of
`max` of these lists. Python compares lists element by element, and tuples of texts the same way,
so `max` picks the list whose first differing block is the larger, whatever the number of blocks
in each. The case then adds `fname`, the last input of the loop before it, not the input it
picked.
-/

namespace P2im

/-- Python's `<` on texts: by code points, as Lean orders `String`. -/
def strLt (a b : String) : Bool := decide (a < b)

/-- Python's `<` on two blocks, the tuples of the hex texts of their start and end. -/
def bblLt (x y : String × String) : Bool := Python.seqLt strLt [x.1, x.2] [y.1, y.2]

/-- `cnt_bbl_cov` of the blocks `re.findall` finds in a trace, in order: each block once, with the
number of times it comes. -/
def cntBblCov (bbls : List (String × String)) : List ((String × String) × Nat) :=
  bbls.foldl (fun bc bbl =>
    match bc.lookup bbl with
    | some n => Python.setItem bbl (n + 1) bc
    | none => Python.setItem bbl 1 bc) []

/-- `new_cov`: the blocks of a run that are not keys of stage 1's `bbl_cov`, in the run's order. -/
def newCov (bblCov bc : List ((String × String) × Nat)) : List (String × String) :=
  (bc.map Prod.fst).filter fun k => k ∉ bblCov.map Prod.fst

def runNewCov (bblCov : List ((String × String) × Nat)) (traceBbls : List Char → List (String × String))
    (fname : List Char) : List (String × String) :=
  newCov bblCov (cntBblCov (traceBbls fname))

/-- `most_new_bbl_f`: the input of `cov.index(max(cov))`. -/
def mostNewBblF (bblCov : List ((String × String) × Nat)) (traceBbls : List Char → List (String × String))
    (fnameL2 : List (List Char)) : Except PyError (List Char) := do
  let cov := fnameL2.map (runNewCov bblCov traceBbls)
  let m ← Python.max (Python.seqLt bblLt) cov
  let fnameIdx ← Python.indexOf cov m
  Python.index fnameL2 fnameIdx

/-- Case 2 of "hang only": the name it adds to `prereq`, under `never_satisfy` (true) when the run
of `most_new_bbl_f` writes an SR (`regAcc` gives the type and the direction of each register
access of a run), under `satisfy` (false) otherwise. The name is `fname`, which the loop over
`fname_l2` before it left at the last input. -/
def hangCase2 (bblCov : List ((String × String) × Nat)) (traceBbls : List Char → List (String × String))
    (regAcc : List Char → List (String × String)) (fnameL2 : List (List Char)) :
    Except PyError (Bool × List Char) := do
  let mostNew ← mostNewBblF bblCov traceBbls fnameL2
  let fname ← Python.index fnameL2 (-1)
  pure (decide (("2", "w") ∈ regAcc mostNew), fname)

/-! ## Python's order on the lists of new blocks -/

theorem strLt_irrefl (a : String) : strLt a a = false := by
  simp [strLt]

theorem strLt_trans {a b c : String} (ab : strLt a b = true) (bc : strLt b c = true) :
    strLt a c = true := by
  simp only [strLt, decide_eq_true_eq] at ab bc ⊢
  exact String.lt_trans ab bc

theorem bblLt_irrefl (x : String × String) : bblLt x x = false :=
  Python.seqLt_irrefl _

theorem bblLt_trans {x y z : String × String} (xy : bblLt x y = true) (yz : bblLt y z = true) :
    bblLt x z = true :=
  Python.seqLt_trans strLt_irrefl strLt_trans xy yz

theorem newBlocksLt_trans {xs ys zs : List (String × String)} (xy : Python.seqLt bblLt xs ys = true)
    (yz : Python.seqLt bblLt ys zs = true) : Python.seqLt bblLt xs zs = true :=
  Python.seqLt_trans bblLt_irrefl bblLt_trans xy yz

/-! ## The input case 2 takes -/

/-- `most_new_bbl_f` is the first input whose new blocks are the largest in Python's order of
lists: no input's new blocks compare above them, and no input before it has the same. -/
theorem most_new_bbl_f_first_in_list_order (bblCov : List ((String × String) × Nat))
    (traceBbls : List Char → List (String × String)) (fnameL2 : List (List Char)) (f : List Char)
    (chosen : mostNewBblF bblCov traceBbls fnameL2 = .ok f) :
    ∃ i : Nat, fnameL2[i]? = some f ∧
      (∀ g ∈ fnameL2, Python.seqLt bblLt (runNewCov bblCov traceBbls f) (runNewCov bblCov traceBbls g) = false) ∧
      ∀ j g, j < i → fnameL2[j]? = some g → runNewCov bblCov traceBbls g ≠ runNewCov bblCov traceBbls f := by
  obtain ⟨m, largest, chosen⟩ := Except.bind_eq_ok.mp chosen
  obtain ⟨i, found, picked⟩ := Except.bind_eq_ok.mp chosen
  obtain ⟨mem, top⟩ := Python.max_spec (Python.seqLt_irrefl) newBlocksLt_trans largest
  obtain ⟨at_i, first⟩ := Python.indexOf_eq found
  obtain ⟨j, position, at_j⟩ := Python.index_eq picked
  have inside : i < fnameL2.length := by
    simpa using (List.getElem?_eq_some_iff.mp at_i).1
  rw [Python.position_of_lt inside] at position
  cases position
  -- the list `max` returned is that of `f`
  have ofF : m = runNewCov bblCov traceBbls f := by
    rw [List.getElem?_map, at_j] at at_i
    exact (Option.some.inj at_i).symm
  subst ofF
  refine ⟨i, at_j, fun g memG => top _ (List.mem_map_of_mem memG), fun j g earlier at_jG same => ?_⟩
  exact first j earlier (by simp [at_jG, same])

theorem hangCase2_adds_last {bblCov : List ((String × String) × Nat)}
    {traceBbls : List Char → List (String × String)} {regAcc : List Char → List (String × String)}
    {fnameL2 : List (List Char)} {neverSatisfy : Bool} {fname : List Char}
    (added : hangCase2 bblCov traceBbls regAcc fnameL2 = .ok (neverSatisfy, fname)) :
    fnameL2.getLast? = some fname ∧ ∃ mostNew, mostNewBblF bblCov traceBbls fnameL2 = .ok mostNew ∧
      neverSatisfy = decide (("2", "w") ∈ regAcc mostNew) := by
  obtain ⟨mostNew, chosen, added⟩ := Except.bind_eq_ok.mp added
  obtain ⟨last, picked, added⟩ := Except.bind_eq_ok.mp added
  cases added
  obtain ⟨j, position, at_j⟩ := Python.index_eq picked
  -- `fname_l2[-1]` is the element at `len(fname_l2) - 1`
  have atEnd : j = fnameL2.length - 1 := by
    unfold Python.position at position
    split_ifs at position <;> cases position <;> omega
  rw [atEnd] at at_j
  exact ⟨by rw [List.getLast?_eq_getElem?]; exact at_j, mostNew, chosen, rfl⟩

def twoRunsBbls (fname : List Char) : List (String × String) :=
  if fname = "bit:00".toList then [("0x200", "0x204")] else [("0x100", "0x104"), ("0x300", "0x308")]

theorem fewer_new_blocks_taken :
    mostNewBblF [] twoRunsBbls ["bit:00".toList, "bit:01".toList] = .ok "bit:00".toList ∧
    (runNewCov [] twoRunsBbls "bit:00".toList).length = 1 ∧
    (runNewCov [] twoRunsBbls "bit:01".toList).length = 2 ∧
    ∃ i : Nat, ["bit:00".toList, "bit:01".toList][i]? = some "bit:00".toList ∧
      (∀ g ∈ ["bit:00".toList, "bit:01".toList],
        Python.seqLt bblLt (runNewCov [] twoRunsBbls "bit:00".toList) (runNewCov [] twoRunsBbls g) = false) ∧
      ∀ j g, j < i → ["bit:00".toList, "bit:01".toList][j]? = some g →
        runNewCov [] twoRunsBbls g ≠ runNewCov [] twoRunsBbls "bit:00".toList :=
  ⟨rfl, by decide, by decide, most_new_bbl_f_first_in_list_order [] twoRunsBbls _ _ rfl⟩

end P2im
