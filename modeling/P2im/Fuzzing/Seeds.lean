import P2im.Shared.CConv

set_option autoImplicit false

/-!
# Extraction for the seeds

Before it launches AFL, `fuzz.py` extracts a model once without input, as run `0`, then for each
seed runs the firmware on it and, while the run exits for an unmodelled peripheral (0x40 or
0x41), has `me.py` extend the model with that seed as its input, run after run. Each `me.py` run
works in a directory named by its run number and leaves its model there; the next run, and at
the end AFL, starts from it.

The return code of each firmware run is given, as a function of the seed and the round; a run
the script kills at its one-second alarm has a negative code.
-/

namespace P2im

/-- The command line of a run of `me.py` that `fuzz.py` starts, after the program and the
configuration. -/
structure MeCmd where
  runNum : List Char
  /-- `--afl-file`, for the runs on a seed -/
  aflFile : Option (List Char)
  /-- the option that names the model it extends, and the file -/
  modelIf : Option (List Char × List Char)
deriving DecidableEq, Repr

/-- `os.path.abspath("%s/peripheral_model.json" % run_num)` in the working directory `cwd`. -/
def modelPath (cwd runNum : List Char) : List Char :=
  cwd ++ '/' :: runNum ++ "/peripheral_model.json".toList

/-- `"%s.%s.%d" % (prev_run_num, seed0, seed_run)`. -/
def seedRunNum (prevRunNum seed0 : List Char) (seedRun : Nat) : List Char :=
  prevRunNum ++ '.' :: seed0 ++ '.' :: Printf.decimal seedRun

/-- The `while True` loop of `fuzz.py` for one seed, from round `seedRun` with `fuel` rounds
left: `rc k` is the return code of the firmware's run in round `k`. It gives the runs of
`me.py` and the model it leaves in `args.model_if`; none when the fuel runs out. -/
def seedRounds (cwd prevRunNum seed0 seed : List Char) (rc : Nat → Int) (modelIf : List Char)
    (seedRun : Nat) : Nat → Option (List MeCmd × List Char)
  | 0 => none
  | fuel + 1 =>
    let runNum := seedRunNum prevRunNum seed0 seedRun
    if rc seedRun ∉ [0x40, 0x41] then some ([], modelIf)
    else
      (seedRounds cwd prevRunNum seed0 seed rc (modelPath cwd runNum) (seedRun + 1) fuel).map
        fun (cmds, last) => (⟨runNum, some seed, some ("--model-if".toList, modelIf)⟩ :: cmds, last)

/-- `for seed0 in os.listdir(cfg.afl_seed)`, with `fuel` rounds for each seed. -/
def seedsLoop (cwd aflSeed : List Char) (rc : List Char → Nat → Int) (fuel : Nat) :
    List (List Char) → List Char → Option (List MeCmd × List Char)
  | [], modelIf => some ([], modelIf)
  | seed0 :: rest, modelIf => do
    let (cmds, modelIf) ←
      seedRounds cwd "0".toList seed0 (aflSeed ++ '/' :: seed0) (rc seed0) modelIf 1 fuel
    let (more, modelIf) ← seedsLoop cwd aflSeed rc fuel rest modelIf
    pure (cmds ++ more, modelIf)

/-- What `fuzz.py` does before it launches AFL: the runs of `me.py` it starts and the model it
passes to AFL with `-c`. Run `0` is skipped when its directory exists; it receives the model
given to `fuzz.py`, under the option `-model-input`. -/
def fuzzPrepare (cwd aflSeed : List Char) (userModel : Option (List Char)) (dir0 : Bool)
    (seeds : List (List Char)) (rc : List Char → Nat → Int) (fuel : Nat) :
    Option (List MeCmd × List Char) := do
  let first : List MeCmd :=
    if dir0 then [] else [⟨"0".toList, none, userModel.map fun m => ("-model-input".toList, m)⟩]
  let (cmds, modelIf) ← seedsLoop cwd aflSeed rc fuel seeds (modelPath cwd "0".toList)
  pure (first ++ cmds, modelIf)

/-! ## The runs of `me.py` on the seeds -/

theorem seedRunNum_inj {prevRunNum s₁ s₂ : List Char} {k₁ k₂ : Nat}
    (same : seedRunNum prevRunNum s₁ k₁ = seedRunNum prevRunNum s₂ k₂) : s₁ = s₂ ∧ k₁ = k₂ := by
  -- the round's number has no dot, so the name splits back at its last one
  have noDot (k : Nat) : '.' ∉ Printf.decimal k := fun mem => by
    have digit := Printf.isDigit_of_mem_decimal mem
    revert digit
    decide
  simp only [seedRunNum, List.append_assoc, List.cons_append] at same
  have parts := Printf.append_sep_inj (noDot k₁) (noDot k₂)
    (List.cons.inj (List.append_cancel_left same)).2
  refine ⟨parts.1, ?_⟩
  have nonneg (k : Nat) : ¬(k : Int) < 0 := by omega
  have digits : Nat.toDigits 10 k₁ = Nat.toDigits 10 k₂ := by
    simpa [Printf.decimal, nonneg] using parts.2
  have read := congrArg (CConv.readDigits 10 0) digits
  rwa [CConv.readDigits_toDigits (by decide) (by decide),
    CConv.readDigits_toDigits (by decide) (by decide)] at read

section Chain

variable (cwd : List Char)

def Chained : List Char → List MeCmd → List Char → Prop
  | m, [], last => last = m
  | m, c :: cs, last => c.modelIf.map Prod.snd = some m ∧ Chained (modelPath cwd c.runNum) cs last

theorem chained_append {m last : List Char} {xs ys : List MeCmd} :
    Chained cwd m (xs ++ ys) last ↔ ∃ mid, Chained cwd m xs mid ∧ Chained cwd mid ys last := by
  induction xs generalizing m with
  | nil => simp [Chained]
  | cons c xs ih => simp [Chained, ih, and_assoc]

end Chain

section Rounds

variable {cwd prevRunNum seed0 seed : List Char} {rc : Nat → Int}

theorem seedRounds_spec {m last : List Char} {cmds : List MeCmd} {seedRun fuel : Nat}
    (ran : seedRounds cwd prevRunNum seed0 seed rc m seedRun fuel = some (cmds, last)) :
    Chained cwd m cmds last ∧
      cmds.map MeCmd.runNum = (List.range' seedRun cmds.length).map (seedRunNum prevRunNum seed0) ∧
      (∀ c ∈ cmds, c.aflFile = some seed) ∧
      (∀ k < cmds.length, rc (seedRun + k) ∈ [0x40, 0x41]) ∧
      rc (seedRun + cmds.length) ∉ [0x40, 0x41] ∧ cmds.length < fuel := by
  induction fuel generalizing m seedRun cmds with
  | zero => cases ran
  | succ fuel ih =>
    by_cases stopped : rc seedRun ∈ [0x40, 0x41]
    · -- the run stopped for a model: `me.py` runs and the loop goes on
      simp only [seedRounds, stopped, not_true_eq_false, if_false] at ran
      obtain ⟨⟨rest, last'⟩, next, shape⟩ := Option.map_eq_some_iff.mp ran
      obtain ⟨rfl, rfl⟩ := Prod.mk.inj shape
      obtain ⟨chain, names, seeds, stops, stop, within⟩ := ih next
      refine ⟨⟨rfl, chain⟩, ?_, ?_, ?_, ?_, by simpa using within⟩
      · simp [names, List.range'_succ]
      · simpa using seeds
      · intro k below
        rcases k with _ | k
        · simpa using stopped
        · have later := stops k (by simpa using below)
          rwa [show seedRun + 1 + k = seedRun + (k + 1) by omega] at later
      · rw [List.length_cons, show seedRun + (rest.length + 1) = seedRun + 1 + rest.length by omega]
        exact stop
    · simp only [seedRounds, stopped, not_false_eq_true, if_true] at ran
      obtain ⟨rfl, rfl⟩ := Prod.mk.inj (Option.some.inj ran)
      simpa [Chained] using stopped

theorem seedRounds_isSome {m : List Char} {seedRun fuel : Nat}
    (ends : ∃ j < fuel, rc (seedRun + j) ∉ [0x40, 0x41]) :
    (seedRounds cwd prevRunNum seed0 seed rc m seedRun fuel).isSome := by
  induction fuel generalizing m seedRun with
  | zero => omega
  | succ fuel ih =>
    obtain ⟨j, below, other⟩ := ends
    by_cases stopped : rc seedRun ∈ [0x40, 0x41]
    · simp only [seedRounds, stopped, not_true_eq_false, if_false, Option.isSome_map]
      rcases j with _ | j
      · exact absurd stopped (by simpa using other)
      · exact ih ⟨j, by omega, by rwa [show seedRun + 1 + j = seedRun + (j + 1) by omega]⟩
    · simp [seedRounds, stopped]

end Rounds

section Seeds

variable {cwd aflSeed : List Char} {rc : List Char → Nat → Int} {fuel : Nat}

/-- A run of `me.py` for round `k` of one of the seeds, whose run, like every run of that seed
before it, stopped for a model. -/
def ForSeedRound (aflSeed : List Char) (rc : List Char → Nat → Int) (seeds : List (List Char))
    (c : MeCmd) : Prop :=
  ∃ seed0 ∈ seeds, ∃ k, 1 ≤ k ∧ c.runNum = seedRunNum "0".toList seed0 k ∧
    c.aflFile = some (aflSeed ++ '/' :: seed0) ∧ ∀ j, 1 ≤ j → j ≤ k → rc seed0 j ∈ [0x40, 0x41]

theorem seedsLoop_spec {seeds : List (List Char)} {m last : List Char} {cmds : List MeCmd}
    (ran : seedsLoop cwd aflSeed rc fuel seeds m = some (cmds, last)) :
    Chained cwd m cmds last ∧ (∀ c ∈ cmds, ForSeedRound aflSeed rc seeds c) ∧
      (seeds.Nodup → (cmds.map MeCmd.runNum).Nodup) := by
  induction seeds generalizing m cmds with
  | nil =>
    obtain ⟨rfl, rfl⟩ := Prod.mk.inj (Option.some.inj ran)
    exact ⟨rfl, nofun, fun _ => List.nodup_nil⟩
  | cons seed0 rest ih =>
    simp only [seedsLoop, Option.bind_eq_bind, Option.bind_eq_some_iff] at ran
    obtain ⟨⟨first, mid⟩, ranFirst, ⟨more, last'⟩, ranRest, shape⟩ := ran
    obtain ⟨rfl, rfl⟩ := Prod.mk.inj (Option.some.inj shape)
    obtain ⟨chain, names, files, stops, -⟩ := seedRounds_spec ranFirst
    obtain ⟨chainRest, forRest, nodupRest⟩ := ih ranRest
    -- the runs for this seed are its rounds from the first on
    have forFirst : ∀ c ∈ first, ∃ k, 1 ≤ k ∧ k < 1 + first.length ∧
        c.runNum = seedRunNum "0".toList seed0 k := by
      intro c mem
      have named : c.runNum ∈ first.map MeCmd.runNum := List.mem_map_of_mem mem
      rw [names] at named
      obtain ⟨k, inRange, hk⟩ := List.mem_map.mp named
      exact ⟨k, (List.mem_range'_1.mp inRange).1, (List.mem_range'_1.mp inRange).2, hk.symm⟩
    refine ⟨(chained_append cwd).mpr ⟨mid, chain, chainRest⟩, ?_, ?_⟩
    · intro c mem
      rcases List.mem_append.mp mem with here | later
      · obtain ⟨k, low, high, named⟩ := forFirst c here
        refine ⟨seed0, List.mem_cons_self, k, low, named, files c here, fun j lo hi => ?_⟩
        have earlier := stops (j - 1) (by omega)
        rwa [show 1 + (j - 1) = j by omega] at earlier
      · obtain ⟨s, inRest, more⟩ := forRest c later
        exact ⟨s, List.mem_cons_of_mem _ inRest, more⟩
    · intro distinct
      obtain ⟨notIn, restDistinct⟩ := List.nodup_cons.mp distinct
      rw [List.map_append, List.nodup_append]
      refine ⟨?_, nodupRest restDistinct, ?_⟩
      · rw [names]
        exact (List.nodup_range' 1).map fun _ _ same => (seedRunNum_inj same).2
      · -- a run of this seed and a run of a later seed name different seeds
        intro a inFirst b inMore same
        obtain ⟨c, here, rfl⟩ := List.mem_map.mp inFirst
        obtain ⟨c', later, rfl⟩ := List.mem_map.mp inMore
        obtain ⟨k, -, -, named⟩ := forFirst c here
        obtain ⟨s, inRest, k', -, named', -⟩ := forRest c' later
        rw [named, named'] at same
        exact notIn ((seedRunNum_inj same).1 ▸ inRest)

theorem seedsLoop_isSome_iff {seeds : List (List Char)} {m : List Char} :
    (seedsLoop cwd aflSeed rc fuel seeds m).isSome ↔
      ∀ seed0 ∈ seeds, ∃ j < fuel, rc seed0 (1 + j) ∉ [0x40, 0x41] := by
  induction seeds generalizing m with
  | nil => simp [seedsLoop]
  | cons seed0 rest ih =>
    constructor
    · intro ran
      obtain ⟨⟨cmds, last⟩, ranAll⟩ := Option.isSome_iff_exists.mp ran
      simp only [seedsLoop, Option.bind_eq_bind, Option.bind_eq_some_iff] at ranAll
      obtain ⟨⟨first, mid⟩, ranFirst, ⟨more, last'⟩, ranRest, -⟩ := ranAll
      obtain ⟨-, -, -, -, stop, within⟩ := seedRounds_spec ranFirst
      intro s mem
      rcases List.mem_cons.mp mem with rfl | inRest
      · exact ⟨first.length, within, stop⟩
      · have restRan : (seedsLoop cwd aflSeed rc fuel rest mid).isSome := by
          rw [ranRest]
          rfl
        exact ih.mp restRan s inRest
    · intro ends
      have firstEnds : (seedRounds cwd "0".toList seed0 (aflSeed ++ '/' :: seed0) (rc seed0) m 1
          fuel).isSome := seedRounds_isSome (ends seed0 List.mem_cons_self)
      obtain ⟨⟨first, mid⟩, ranFirst⟩ := Option.isSome_iff_exists.mp firstEnds
      have restEnds : (seedsLoop cwd aflSeed rc fuel rest mid).isSome :=
        ih.mpr fun s inRest => ends s (List.mem_cons_of_mem _ inRest)
      obtain ⟨⟨more, last⟩, ranRest⟩ := Option.isSome_iff_exists.mp restEnds
      simp only [seedsLoop, Option.bind_eq_bind, ranFirst, Option.bind_some, ranRest]
      rfl

end Seeds

/-! ## What `fuzz.py` prepares for AFL -/

section Prepare

variable {cwd aflSeed : List Char} {userModel : Option (List Char)} {dir0 : Bool}
  {seeds : List (List Char)} {rc : List Char → Nat → Int} {fuel : Nat}

theorem fuzzPrepare_eq_some {cmds : List MeCmd} {modelIf : List Char}
    (prepared : fuzzPrepare cwd aflSeed userModel dir0 seeds rc fuel = some (cmds, modelIf)) :
    ∃ seedCmds, seedsLoop cwd aflSeed rc fuel seeds (modelPath cwd "0".toList) =
        some (seedCmds, modelIf) ∧
      cmds = (if dir0 then [] else
        [⟨"0".toList, none, userModel.map fun m => ("-model-input".toList, m)⟩]) ++ seedCmds := by
  simp only [fuzzPrepare, Option.bind_eq_bind, Option.bind_eq_some_iff] at prepared
  obtain ⟨⟨seedCmds, last⟩, ran, shape⟩ := prepared
  obtain ⟨rfl, rfl⟩ := Prod.mk.inj (Option.some.inj shape)
  exact ⟨seedCmds, ran, rfl⟩

/-- Before AFL starts, every run of `me.py` on a seed is for a round of that seed whose run, like
each run of the seed before it, stopped for a model; the runs on the seeds extend one model in
turn, from the one run `0` left to the one AFL is given. -/
theorem fuzz_prepare_extends_one_model (cmds : List MeCmd) (modelIf : List Char)
    (prepared : fuzzPrepare cwd aflSeed userModel dir0 seeds rc fuel = some (cmds, modelIf)) :
    ∃ seedCmds, cmds = (if dir0 then [] else
        [⟨"0".toList, none, userModel.map fun m => ("-model-input".toList, m)⟩]) ++ seedCmds ∧
      Chained cwd (modelPath cwd "0".toList) seedCmds modelIf ∧
      ∀ c ∈ seedCmds, ForSeedRound aflSeed rc seeds c := by
  obtain ⟨seedCmds, ran, rfl⟩ := fuzzPrepare_eq_some prepared
  obtain ⟨chain, rounds, -⟩ := seedsLoop_spec ran
  exact ⟨seedCmds, rfl, chain, rounds⟩

def oneSeedRc (_ : List Char) (k : Nat) : Int := if k = 1 then 0x40 else 0

theorem one_seed_extends_run_zero_model :
    fuzzPrepare "/w".toList "seeds".toList none false ["a".toList] oneSeedRc 2 =
        some ([⟨"0".toList, none, none⟩, ⟨"0.a.1".toList, some "seeds/a".toList,
          some ("--model-if".toList, "/w/0/peripheral_model.json".toList)⟩],
          "/w/0.a.1/peripheral_model.json".toList) ∧
      ∃ seedCmds, [⟨"0".toList, none, none⟩, ⟨"0.a.1".toList, some "seeds/a".toList,
          some ("--model-if".toList, "/w/0/peripheral_model.json".toList)⟩] =
          [⟨"0".toList, none, none⟩] ++ seedCmds ∧
        Chained "/w".toList (modelPath "/w".toList "0".toList) seedCmds
          "/w/0.a.1/peripheral_model.json".toList ∧
        ∀ c ∈ seedCmds, ForSeedRound "seeds".toList oneSeedRc ["a".toList] c := by
  have prepared : fuzzPrepare "/w".toList "seeds".toList none false ["a".toList] oneSeedRc 2 =
      some ([⟨"0".toList, none, none⟩, ⟨"0.a.1".toList, some "seeds/a".toList,
        some ("--model-if".toList, "/w/0/peripheral_model.json".toList)⟩],
        "/w/0.a.1/peripheral_model.json".toList) := by
    decide
  exact ⟨prepared, fuzz_prepare_extends_one_model _ _ prepared⟩

/-- Every run of `me.py` before AFL starts has a directory of its own, when the seeds' names
differ, as those `os.listdir` gives do. -/
theorem fuzz_prepare_run_dirs_distinct (cmds : List MeCmd) (modelIf : List Char)
    (prepared : fuzzPrepare cwd aflSeed userModel dir0 seeds rc fuel = some (cmds, modelIf))
    (distinct : seeds.Nodup) : (cmds.map MeCmd.runNum).Nodup := by
  obtain ⟨seedCmds, ran, rfl⟩ := fuzzPrepare_eq_some prepared
  obtain ⟨-, rounds, seedDistinct⟩ := seedsLoop_spec ran
  rw [List.map_append, List.nodup_append]
  refine ⟨by split <;> simp, seedDistinct distinct, ?_⟩
  -- run `0` is one character long; a run on a seed is longer
  intro a inFirst b inSeeds same
  obtain ⟨c, onSeed, rfl⟩ := List.mem_map.mp inSeeds
  obtain ⟨s, -, k, -, named, -⟩ := rounds c onSeed
  have zero : a = "0".toList := by split at inFirst <;> simp_all
  have lengths := congrArg List.length (same.trans named)
  simp [zero, seedRunNum] at lengths

theorem one_seed_run_dirs_distinct :
    fuzzPrepare "/w".toList "seeds".toList none false ["a".toList] oneSeedRc 2 =
        some ([⟨"0".toList, none, none⟩, ⟨"0.a.1".toList, some "seeds/a".toList,
          some ("--model-if".toList, "/w/0/peripheral_model.json".toList)⟩],
          "/w/0.a.1/peripheral_model.json".toList) ∧
      ["a".toList].Nodup ∧
      (([⟨"0".toList, none, none⟩, ⟨"0.a.1".toList, some "seeds/a".toList,
        some ("--model-if".toList, "/w/0/peripheral_model.json".toList)⟩] : List MeCmd).map
          MeCmd.runNum).Nodup := by
  have prepared : fuzzPrepare "/w".toList "seeds".toList none false ["a".toList] oneSeedRc 2 =
      some ([⟨"0".toList, none, none⟩, ⟨"0.a.1".toList, some "seeds/a".toList,
        some ("--model-if".toList, "/w/0/peripheral_model.json".toList)⟩],
        "/w/0.a.1/peripheral_model.json".toList) := by
    decide
  have distinct : ["a".toList].Nodup := by decide
  exact ⟨prepared, distinct, fuzz_prepare_run_dirs_distinct _ _ prepared distinct⟩

/-- The preparation ends exactly when each seed has a run, among the first `fuel`, that does not
stop for a model. -/
theorem fuzz_prepare_ends_iff :
    (fuzzPrepare cwd aflSeed userModel dir0 seeds rc fuel).isSome ↔
      ∀ seed0 ∈ seeds, ∃ j < fuel, rc seed0 (1 + j) ∉ [0x40, 0x41] := by
  rw [← seedsLoop_isSome_iff]
  simp only [fuzzPrepare, Option.bind_eq_bind, Option.isSome_bind]
  cases seedsLoop cwd aflSeed rc fuel seeds (modelPath cwd "0".toList) <;> rfl

def stuckSeedRc (seed : List Char) (k : Nat) : Int := if seed = "b".toList then 0x41 else oneSeedRc seed k

theorem stuck_seed_stops_preparation :
    (fuzzPrepare "/w".toList "seeds".toList none false ["a".toList, "b".toList] stuckSeedRc 3).isSome = false ∧
      (fuzzPrepare "/w".toList "seeds".toList none false ["a".toList] stuckSeedRc 3).isSome = true := by
  constructor
  · rw [Bool.eq_false_iff]
    intro ends
    obtain ⟨j, -, returned⟩ := fuzz_prepare_ends_iff.mp ends "b".toList (by simp)
    simp [stuckSeedRc] at returned
  · refine fuzz_prepare_ends_iff.mpr fun seed0 mem => ⟨1, by decide, ?_⟩
    rw [List.mem_singleton] at mem
    subst mem
    decide

end Prepare

end P2im
