import Mathlib.Data.Nat.BitIndices
import P2im.Shared.Choices
import P2im.Shared.Python
import P2im.Peripheral.Access

set_option autoImplicit false

/-!
# The inputs of an SR exploration

Stage 2 runs the firmware once for every combination of values of the SR reads it explores.
`input_f_writer` writes one input file for each combination: four bytes for each of the `sr_num`
reads, which set `set_bits` bits below `sr_bits` or, for the baseline, none; the file's name
lists the bits, `bit:AB+CD` for each read, joined by commas. The run of an input writes its
trace to `trace-` and the input's name. `exec_trace_sig` reads the traces back into a dictionary
keyed by the bits of each read, `driver_checked_bits` descends it by keys it rebuilds from the
bits it parsed, and `stage2_5` rebuilds the names of the inputs from the same bits.

Names are the texts of the script, as lists of characters; the directories files go to and the
digests of the traces are left out.
-/

namespace P2im

/-- `one_sr_input_gen`: the inputs of one SR that set `set_bits` more bits below
`prev_set_bit`, each the packed value and its part of the file name, `"bit:AB+CD,"`. -/
def oneSrInputGen (srBits oneCnt : Nat) (oneName : List Char) (prevSetBit : Nat) :
    (setBits : Nat) → Except PyError (List (List UInt8 × List Char))
  | 0 => do
    let packed ← Python.packI oneCnt
    pure [(packed, "bit:".toList ++ oneName.dropLast ++ [','])]
  | setBits + 1 =>
    -- the bits of a name go downwards, so that each set of bits comes once
    (List.range prevSetBit).foldlM (fun oneSr (i : Nat) => do
      let more ← oneSrInputGen srBits (oneCnt + 2 ^ i) (oneName ++ Printf.zeroPad2 i ++ ['+']) i
        setBits
      pure (oneSr ++ more)) []

/-- The inputs of one SR that `input_f_writer` and `exec_trace_sig` both start from: those of
`one_sr_input_gen`, then the baseline, which sets no bit and names `-1` for each bit. -/
def oneSrWithBaseline (srBits setBits : Nat) : Except PyError (List (List UInt8 × List Char)) := do
  let oneSr ← oneSrInputGen srBits 0 [] srBits setBits
  let packed ← Python.packI 0
  pure (oneSr ++
    [(packed, "bit:".toList ++ (List.replicate setBits "-1+".toList).flatten.dropLast ++ [','])])

/-- `input_f_writer`: the files it writes, by name and content, in the order it writes them; it
returns their names. -/
def inputFWriter (srBits : Nat) :
    (srNum : Nat) → (content : List UInt8) → (fname : List Char) → (setBits : Nat) →
      Except PyError (List (List Char × List UInt8))
  | 0, content, fname, _ => pure [(fname.dropLast, content)]
  | srNum + 1, content, fname, setBits => do
    let oneSr ← oneSrWithBaseline srBits setBits
    oneSr.foldlM (fun arr one => do
      let more ← inputFWriter srBits srNum (content ++ one.1) (fname ++ one.2) setBits
      pure (arr ++ more)) []

/-- What `exec_trace_sig` computes, less the digests: a leaf is the trace file whose digest is its
`"sig"`, and a node maps the bits of one SR read, `"AB+CD"`, to what follows them, with the bits
its summary lists, parsed, in the order of the keys. -/
inductive TraceSig where
  | trace (file : List Char)
  | node (subs : List (List Char × TraceSig)) (summary : List (List Int))

/-- `list(map(int, k.split('+')))`. -/
def parseBits (k : List Char) : Except PyError (List Int) := (k.splitOn '+').mapM Python.int

def execTraceSig (srBits : Nat) :
    (srNum : Nat) → (fname : List Char) → (setBits : Nat) → Except PyError TraceSig
  | 0, fname, _ => pure (.trace fname.dropLast)
  | srNum + 1, fname, setBits => do
    let oneSr ← oneSrWithBaseline srBits setBits
    -- the key drops `"bit:"` and the comma of the name
    let dic ← oneSr.foldlM (fun dic one => do
      let sub ← execTraceSig srBits srNum (fname ++ one.2) setBits
      pure (Python.setItem ((one.2.drop 4).dropLast) sub dic)) []
    let summary ← dic.mapM fun entry => parseBits entry.1
    pure (.node dic summary)

def TraceSig.files : TraceSig → List (List Char)
  | .trace file => [file]
  | .node subs _ => subs.flatMap fun sub => sub.2.files
decreasing_by
  have smaller := List.sizeOf_lt_of_mem ‹sub ∈ subs›
  obtain ⟨key, t⟩ := sub
  simp only [Prod.mk.sizeOf_spec, TraceSig.node.sizeOf_spec] at smaller ⊢
  omega

/-- `trace_sig[k1][k2]...`, as `driver_checked_bits` descends by the keys it rebuilds. -/
def TraceSig.lookup : List (List Char) → TraceSig → Option TraceSig
  | [], t => some t
  | k :: ks, .node subs _ => (subs.lookup k).bind (TraceSig.lookup ks)
  | _ :: _, .trace _ => none

/-- `'+'.join([str(x).zfill(2) for x in bit])`: the key `driver_checked_bits` rebuilds from the
bits of one SR. -/
def bitsKey (bits : List Int) : List Char :=
  ['+'].intercalate (bits.map fun x => Printf.zfill 2 (Printf.decimal x))

/-- The name `stage2_5` rebuilds from a checked bit combination: `"bit:%s,"` of each SR's key,
less the last comma. -/
def checkedBcFname (checkedBc : List (List Int)) : List Char :=
  (checkedBc.flatMap fun checkedB => "bit:".toList ++ bitsKey checkedB ++ [',']).dropLast

/-- `stage2` runs the input `fname` with the trace file `trace-fname`, and `stage2_5` reads the
trace of `fname` there. -/
def traceFile (fname : List Char) : List Char := "trace-".toList ++ fname

/-! ## What the inputs of one SR are -/

/-- The bits of one SR's inputs, in the order `one_sr` lists them: the decreasing lists of
`set_bits` bits below `sr_bits`, then the baseline. -/
def srComponents (srBits setBits : Nat) : List (List Int) :=
  (Choices.decreasing srBits setBits).map (·.map fun b : Nat => (b : Int)) ++ [List.replicate setBits (-1)]

def namedWord (bits : List Int) : Nat :=
  (bits.map fun x => if 0 ≤ x then 2 ^ x.toNat else 0).sum

def srInput (bits : List Int) : List UInt8 × List Char :=
  (Python.bytesBE (namedWord bits), "bit:".toList ++ bitsKey bits ++ [','])

theorem bitsKey_eq (bits : List Int) : bitsKey bits = ['+'].intercalate (bits.map Printf.zeroPad2) := by
  simp [bitsKey, Printf.zfill_decimal]

theorem bitsKey_natBits (bs : List Nat) :
    bitsKey (bs.map (fun b : Nat => (b : Int))) = (bs.flatMap fun (b : Nat) => Printf.zeroPad2 b ++ ['+']).dropLast := by
  rw [Choices.dropLast_flatMap_sep, bitsKey_eq, List.map_map]
  rfl

theorem bitsKey_baseline (setBits : Nat) :
    bitsKey (List.replicate setBits (-1)) = (List.replicate setBits "-1+".toList).flatten.dropLast := by
  have sep := Choices.dropLast_flatMap_sep (fun _ : Unit => "-1".toList) '+' (List.replicate setBits ())
  simp only [List.flatMap_replicate, List.map_replicate] at sep
  rw [bitsKey_eq, List.map_replicate, show Printf.zeroPad2 (-1) = "-1".toList by decide, ← sep]
  simp

theorem namedWord_natBits (bs : List Nat) : namedWord (bs.map (fun b : Nat => (b : Int))) = (bs.map (2 ^ ·)).sum := by
  simp [namedWord, Function.comp_def]

theorem namedWord_baseline (setBits : Nat) : namedWord (List.replicate setBits (-1)) = 0 := by
  simp [namedWord]

theorem oneSrInputGen_eq (srBits oneCnt : Nat) (oneName : List Char) (p s : Nat)
    (fits : oneCnt + 2 ^ p ≤ 2 ^ 32) :
    oneSrInputGen srBits oneCnt oneName p s = .ok ((Choices.decreasing p s).map fun bs =>
      (Python.bytesBE (oneCnt + (bs.map (2 ^ ·)).sum),
        "bit:".toList ++ (oneName ++ bs.flatMap fun (b : Nat) => Printf.zeroPad2 b ++ ['+']).dropLast ++
          [','])) := by
  induction s generalizing oneCnt oneName p with
  | zero =>
    have packs : oneCnt < 2 ^ 32 := by have := Nat.one_le_two_pow (n := p); omega
    rw [oneSrInputGen, Python.packI, if_pos packs]
    simp [Choices.decreasing]
  | succ s ih =>
    -- a bit below the bound leaves room for the bits below it
    have room : ∀ i ∈ List.range p, oneCnt + 2 ^ i + 2 ^ i ≤ 2 ^ 32 := by
      intro i mem
      have : 2 ^ (i + 1) ≤ 2 ^ p := Nat.pow_le_pow_right (by decide) (List.mem_range.mp mem)
      rw [Nat.pow_succ] at this
      omega
    rw [oneSrInputGen, Python.foldlM_append_ok _ _ fun i mem => ih _ _ _ (room i mem)]
    simp [Choices.decreasing, List.map_flatMap, Nat.add_assoc, List.append_assoc, Function.comp_def]

theorem oneSrWithBaseline_eq (srBits setBits : Nat) (width : srBits ≤ 32) :
    oneSrWithBaseline srBits setBits = .ok ((srComponents srBits setBits).map srInput) := by
  have fits : 0 + 2 ^ srBits ≤ 2 ^ 32 := by
    have := Nat.pow_le_pow_right (show 0 < 2 by decide) width
    omega
  rw [oneSrWithBaseline, oneSrInputGen_eq _ _ _ _ _ fits]
  simp [Python.packI, srComponents, srInput, bitsKey_natBits, namedWord_natBits, bitsKey_baseline,
    namedWord_baseline]

theorem length_srComponents (srBits setBits : Nat) :
    (srComponents srBits setBits).length = srBits.choose setBits + 1 := by
  simp [srComponents, Choices.length_decreasing]

theorem mem_srComponents {srBits setBits : Nat} {bits : List Int} :
    bits ∈ srComponents srBits setBits ↔
      (∃ bs ∈ Choices.decreasing srBits setBits, bits = bs.map (fun b : Nat => (b : Int))) ∨
        bits = List.replicate setBits (-1) := by
  simp [srComponents, eq_comm]

theorem ne_nil_of_mem_srComponents {srBits setBits : Nat} (oneBit : 1 ≤ setBits) {bits : List Int}
    (mem : bits ∈ srComponents srBits setBits) : bits ≠ [] := by
  rcases mem_srComponents.mp mem with ⟨bs, dec, rfl⟩ | rfl
  · have length := (Choices.mem_decreasing.mp dec).1
    intro empty
    have : bs.length = 0 := by simpa using congrArg List.length empty
    omega
  · intro empty
    have := congrArg List.length empty
    simp at this
    omega

theorem nodup_srComponents (srBits : Nat) {setBits : Nat} (oneBit : 1 ≤ setBits) :
    (srComponents srBits setBits).Nodup := by
  have natBits : ((Choices.decreasing srBits setBits).map (·.map fun b : Nat => (b : Int))).Nodup :=
    (Choices.nodup_decreasing srBits setBits).map
      (List.map_injective_iff.mpr fun _ _ same => Int.natCast_inj.mp same)
  -- the baseline names `-1`, which no list of bits does
  have fresh : ∀ bits ∈ (Choices.decreasing srBits setBits).map (·.map fun b : Nat => (b : Int)),
      bits ≠ List.replicate setBits (-1) := by
    intro bits mem same
    obtain ⟨bs, -, rfl⟩ := List.mem_map.mp mem
    have named : (-1 : Int) ∈ bs.map (fun b : Nat => (b : Int)) := by
      rw [same]
      exact List.mem_replicate.mpr ⟨by omega, rfl⟩
    obtain ⟨b, -, negative⟩ := List.mem_map.mp named
    omega
  exact List.nodup_append.mpr ⟨natBits, List.nodup_singleton _,
    fun bits mem baseline isBaseline same =>
      fresh bits mem (same.trans (List.mem_singleton.mp isBaseline))⟩

theorem testBit_namedWord {srBits setBits : Nat} {bits : List Int}
    (mem : bits ∈ srComponents srBits setBits) (i : Nat) :
    (namedWord bits).testBit i = true ↔ (i : Int) ∈ bits := by
  rcases mem_srComponents.mp mem with ⟨bs, dec, rfl⟩ | rfl
  · rw [namedWord_natBits, Choices.testBit_sum_two_pow (Choices.mem_decreasing.mp dec).2.1]
    simp only [List.mem_map, Int.natCast_inj, exists_eq_right]
  · simp [namedWord_baseline]

theorem namedWord_lt {srBits setBits : Nat} (width : srBits ≤ 32) {bits : List Int}
    (mem : bits ∈ srComponents srBits setBits) : namedWord bits < 2 ^ 32 := by
  have wide : 2 ^ srBits ≤ 2 ^ 32 := Nat.pow_le_pow_right (by decide) width
  rcases mem_srComponents.mp mem with ⟨bs, dec, rfl⟩ | rfl
  · obtain ⟨-, decreasing, below⟩ := Choices.mem_decreasing.mp dec
    rw [namedWord_natBits]
    exact Nat.lt_of_lt_of_le (Choices.sum_two_pow_lt decreasing below) wide
  · simp [namedWord_baseline]

/-! ## Keys and names -/

theorem bitsKey_chars {bits : List Int} {c : Char} (mem : c ∈ bitsKey bits) :
    c = '+' ∨ c = '-' ∨ c.isDigit := by
  rw [bitsKey_eq, ← Choices.dropLast_flatMap_sep] at mem
  obtain ⟨x, -, piece⟩ := List.mem_flatMap.mp (List.dropLast_subset _ mem)
  rcases List.mem_append.mp piece with padded | plus
  · exact Or.inr (Printf.mem_zeroPad2 padded)
  · exact Or.inl (List.mem_singleton.mp plus)

theorem parseBits_bitsKey {bits : List Int} (nonempty : bits ≠ []) :
    parseBits (bitsKey bits) = .ok bits := by
  have noPlus : ∀ piece ∈ bits.map Printf.zeroPad2, '+' ∉ piece := by
    intro piece mem plus
    obtain ⟨x, -, rfl⟩ := List.mem_map.mp mem
    rcases Printf.mem_zeroPad2 plus with sign | digit
    · cases sign
    · revert digit; decide
  rw [parseBits, bitsKey_eq, List.splitOn_intercalate '+' noPlus (by simpa using nonempty),
    List.mapM_map, Python.mapM_ok (f := Python.int ∘ Printf.zeroPad2) (g := id) bits
      fun x _ => Python.int_zeroPad2 x, List.map_id]

theorem bitsKey_injective {bits bits' : List Int} (nonempty : bits ≠ []) (nonempty' : bits' ≠ [])
    (same : bitsKey bits = bitsKey bits') : bits = bits' := by
  have := parseBits_bitsKey nonempty
  rwa [same, parseBits_bitsKey nonempty', Except.ok.injEq, eq_comm] at this

theorem srInput_key (bits : List Int) : ((srInput bits).2.drop 4).dropLast = bitsKey bits := by
  simp [srInput]

theorem splitOn_checkedBcFname {bcs : List (List Int)} (nonempty : bcs ≠ []) :
    (checkedBcFname bcs).splitOn ',' = bcs.map fun bits => "bit:".toList ++ bitsKey bits := by
  have noComma : ∀ part ∈ bcs.map (fun bits => "bit:".toList ++ bitsKey bits), ',' ∉ part := by
    intro part mem comma
    obtain ⟨bits, -, rfl⟩ := List.mem_map.mp mem
    rcases List.mem_append.mp comma with tag | key
    · revert tag; decide
    · rcases bitsKey_chars key with plus | minus | digit
      · cases plus
      · cases minus
      · revert digit; decide
  rw [checkedBcFname, Choices.dropLast_flatMap_sep (fun bits => "bit:".toList ++ bitsKey bits) ','
    bcs]
  exact List.splitOn_intercalate ',' noComma (by simpa using nonempty)

theorem checkedBcFname_injective {bcs bcs' : List (List Int)} (nonempty : bcs ≠ [])
    (nonempty' : bcs' ≠ []) (parts : ∀ bits ∈ bcs, bits ≠ []) (parts' : ∀ bits ∈ bcs', bits ≠ [])
    (same : checkedBcFname bcs = checkedBcFname bcs') : bcs = bcs' := by
  -- each part, less its tag, parses back to the bits it names
  have readBack : ∀ bcs : List (List Int), (∀ bits ∈ bcs, bits ≠ []) →
      (bcs.map fun bits => "bit:".toList ++ bitsKey bits).map (fun part => parseBits (part.drop 4)) =
        bcs.map Except.ok := fun bcs parts => by
    rw [List.map_map]
    exact List.map_congr_left fun bits mem => by simp [parseBits_bitsKey (parts bits mem)]
  have split := congrArg (List.splitOn ',') same
  rw [splitOn_checkedBcFname nonempty, splitOn_checkedBcFname nonempty'] at split
  have parsed := congrArg (List.map fun part => parseBits (part.drop 4)) split
  rw [readBack bcs parts, readBack bcs' parts'] at parsed
  exact List.map_injective_iff.mpr (fun _ _ same => Except.ok.inj same) parsed

/-! ## The files and the traces -/

theorem inputFWriter_eq {srBits setBits : Nat} {oneSr : List (List UInt8 × List Char)}
    (gen : oneSrWithBaseline srBits setBits = .ok oneSr) (n : Nat) (content : List UInt8)
    (fname : List Char) :
    inputFWriter srBits n content fname setBits = .ok ((Choices.sequences oneSr n).map fun ch =>
      ((fname ++ (ch.map Prod.snd).flatten).dropLast, content ++ (ch.map Prod.fst).flatten)) := by
  induction n generalizing content fname with
  | zero => simp [inputFWriter, Choices.sequences]
  | succ n ih =>
    rw [inputFWriter, gen, Except.ok_bind, Python.foldlM_append_ok _ _ fun one _ => ih _ _]
    simp [Choices.sequences, List.map_flatMap, List.append_assoc, Function.comp_def]

theorem execTraceSig_spec {srBits setBits : Nat} {oneSr : List (List UInt8 × List Char)}
    (gen : oneSrWithBaseline srBits setBits = .ok oneSr)
    (distinct : (oneSr.map fun one => (one.2.drop 4).dropLast).Nodup)
    (parsed : ∀ one ∈ oneSr, ∃ bits, parseBits ((one.2.drop 4).dropLast) = .ok bits)
    (n : Nat) (fname : List Char) :
    ∃ sig, execTraceSig srBits n fname setBits = .ok sig ∧
      sig.files = (Choices.sequences oneSr n).map
        (fun ch => (fname ++ (ch.map Prod.snd).flatten).dropLast) ∧
      ∀ ch ∈ Choices.sequences oneSr n, sig.lookup (ch.map fun one => (one.2.drop 4).dropLast) =
        some (.trace (fname ++ (ch.map Prod.snd).flatten).dropLast) := by
  induction n generalizing fname with
  | zero =>
    exact ⟨_, rfl, by simp [TraceSig.files, Choices.sequences],
      by simp [Choices.sequences, TraceSig.lookup]⟩
  | succ n ih =>
    choose sub subOk subFiles subLookup using ih
    have dic := Python.foldlM_setItem_ok (fun one : List UInt8 × List Char => (one.2.drop 4).dropLast)
      oneSr [] (fun one _ => subOk (fname ++ one.2)) (by simpa using distinct)
    obtain ⟨summary, summaryOk⟩ := Python.mapM_exists_ok
      (f := fun entry : List Char × TraceSig => parseBits entry.1)
      (oneSr.map fun one => ((one.2.drop 4).dropLast, sub (fname ++ one.2)))
      (fun entry mem => by
        obtain ⟨one, oneMem, rfl⟩ := List.mem_map.mp mem
        exact parsed one oneMem)
    refine ⟨.node (oneSr.map fun one => ((one.2.drop 4).dropLast, sub (fname ++ one.2))) summary,
      ?_, ?_, ?_⟩
    · simp only [List.nil_append] at dic
      rw [execTraceSig, gen, Except.ok_bind, dic, Except.ok_bind, summaryOk]
      rfl
    · simp [TraceSig.files, subFiles, Choices.sequences, List.map_flatMap, List.flatMap_map,
        Function.comp_def]
    · intro ch mem
      obtain ⟨one, oneMem, rest, restMem, rfl⟩ :
          ∃ one ∈ oneSr, ∃ rest ∈ Choices.sequences oneSr n, ch = one :: rest := by
        simpa [Choices.sequences, eq_comm] using mem
      rw [List.map_cons, TraceSig.lookup,
        Python.lookup_map_of_nodup (fun one : List UInt8 × List Char => (one.2.drop 4).dropLast)
          (fun one => sub (fname ++ one.2)) oneMem distinct,
        Option.bind_some, subLookup _ rest restMem]
      simp [List.append_assoc]

/-! ## The inputs of an exploration -/

/-- The file `input_f_writer` writes for a choice of bits of each SR: named as `stage2_5`
rebuilds the name from the bits, and holding the word of each. -/
def inputFile (bcs : List (List Int)) : List Char × List UInt8 :=
  (checkedBcFname bcs, (bcs.map fun bits => Python.bytesBE (namedWord bits)).flatten)

theorem srInput_names (bcs : List (List Int)) :
    ((bcs.map srInput).map Prod.snd).flatten =
      bcs.flatMap fun bits => "bit:".toList ++ bitsKey bits ++ [','] := by
  rw [List.map_map, List.flatMap_def]
  rfl

/-- QEMU reads back the word `struct.pack` wrote. -/
theorem bigEndian_bytesBE {v : Nat} (lt : v < 2 ^ 32) :
    (bigEndian 0 (Python.bytesBE v)).toNat = v := by
  simp [bigEndian, Python.bytesBE, UInt32.toNat_add, UInt32.toNat_shiftLeft, Nat.shiftLeft_eq]
  omega

theorem inputFWriter_files (srBits setBits n : Nat) (width : srBits ≤ 32) :
    inputFWriter srBits n [] [] setBits =
      .ok ((Choices.sequences (srComponents srBits setBits) n).map inputFile) := by
  rw [inputFWriter_eq (oneSrWithBaseline_eq srBits setBits width), Choices.sequences_map,
    List.map_map]
  congr 1
  refine List.map_congr_left fun bcs _ => ?_
  simp only [Function.comp_apply, List.nil_append]
  rw [srInput_names, List.map_map]
  rfl

theorem execTraceSig_traces (srBits setBits n : Nat) (width : srBits ≤ 32) (oneBit : 1 ≤ setBits)
    (someSr : 1 ≤ n) :
    ∃ sig, execTraceSig srBits n "trace-".toList setBits = .ok sig ∧
      sig.files = (Choices.sequences (srComponents srBits setBits) n).map
        (fun bcs => traceFile (checkedBcFname bcs)) ∧
      ∀ bcs ∈ Choices.sequences (srComponents srBits setBits) n,
        sig.lookup (bcs.map bitsKey) = some (.trace (traceFile (checkedBcFname bcs))) := by
  have nonempty : ∀ bits ∈ srComponents srBits setBits, bits ≠ [] :=
    fun _ mem => ne_nil_of_mem_srComponents oneBit mem
  have keys : ((srComponents srBits setBits).map srInput).map
      (fun one => (one.2.drop 4).dropLast) = (srComponents srBits setBits).map bitsKey := by
    simp [Function.comp_def, srInput_key]
  have distinct := (nodup_srComponents srBits oneBit).map_on fun bits mem bits' mem' same =>
    bitsKey_injective (nonempty bits mem) (nonempty bits' mem') same
  obtain ⟨sig, ok, files, lookup⟩ := execTraceSig_spec (oneSrWithBaseline_eq srBits setBits width)
    (keys ▸ distinct)
    (fun one mem => by
      obtain ⟨bits, chosen, rfl⟩ := List.mem_map.mp mem
      exact ⟨bits, by rw [srInput_key, parseBits_bitsKey (nonempty bits chosen)]⟩)
    n "trace-".toList
  -- a choice of bits names every SR, so its name is not empty
  have named : ∀ bcs ∈ Choices.sequences (srComponents srBits setBits) n,
      ("trace-".toList ++ ((bcs.map srInput).map Prod.snd).flatten).dropLast =
        traceFile (checkedBcFname bcs) := by
    intro bcs mem
    obtain ⟨length, -⟩ := Choices.mem_sequences.mp mem
    obtain ⟨bits, rest, rfl⟩ := List.exists_cons_of_length_pos (by omega : 0 < bcs.length)
    rw [srInput_names, List.dropLast_append_of_ne_nil (by simp)]
    rfl
  refine ⟨sig, ok, ?_, fun bcs mem => ?_⟩
  · rw [files, Choices.sequences_map, List.map_map]
    exact List.map_congr_left fun bcs mem => named bcs mem
  · have chosen : bcs.map srInput ∈ Choices.sequences ((srComponents srBits setBits).map srInput) n := by
      rw [Choices.sequences_map]
      exact List.mem_map_of_mem mem
    have := lookup _ chosen
    rw [List.map_map, named bcs mem] at this
    simpa [Function.comp_def, srInput_key] using this

theorem inputFile_read {srBits setBits n : Nat} (width : srBits ≤ 32) {bcs : List (List Int)}
    (chosen : bcs ∈ Choices.sequences (srComponents srBits setBits) n) {k : Nat} {bits : List Int}
    (at_k : bcs[k]? = some bits) (cfg : RunConfig) (s : Emu)
    (opened : openSrRFile cfg s = .ok ⟨(inputFile bcs).2, 4 * k⟩) :
    ∃ word, srRFileRead cfg s =
        .ok ({ s with srRMap := some ⟨(inputFile bcs).2, 4 * k + 4⟩, prevRetVal := word }, word) ∧
      ∀ i : Nat, word.toNat.testBit i = true ↔ (i : Int) ∈ bits := by
  have mem : bits ∈ srComponents srBits setBits :=
    (Choices.mem_sequences.mp chosen).2 bits (List.mem_of_getElem? at_k)
  have block : ((inputFile bcs).2.drop (4 * k)).take 4 = Python.bytesBE (namedWord bits) :=
    Choices.take_drop_flatten_blocks (fun bits => Python.bytesBE (namedWord bits)) 4 (fun _ => rfl)
      bcs at_k
  have room : 4 * k + 4 ≤ (inputFile bcs).2.length := by
    rw [inputFile, Choices.length_flatten_blocks _ 4 fun _ => rfl]
    have := (List.getElem?_eq_some_iff.mp at_k).1
    omega
  refine ⟨_, srRFileRead_eq cfg s _ _ opened room, fun i => ?_⟩
  rw [block, bigEndian_bytesBE (namedWord_lt width mem)]
  exact testBit_namedWord mem i

structure InputFileAgrees (srNum : Nat) (sig : TraceSig) (file : List Char × List UInt8)
    (bcs : List (List Int)) : Prop where
  length : bcs.length = srNum
  parts : file.1.splitOn ',' = bcs.map fun bits => "bit:".toList ++ bitsKey bits
  parsed : ∀ bits ∈ bcs, parseBits (bitsKey bits) = .ok bits
  rebuilt : checkedBcFname bcs = file.1
  traced : sig.lookup (bcs.map bitsKey) = some (.trace (traceFile file.1))
  size : file.2.length = 4 * srNum
  read : ∀ k bits, bcs[k]? = some bits → ∀ cfg s, openSrRFile cfg s = .ok ⟨file.2, 4 * k⟩ →
    ∃ word, srRFileRead cfg s =
        .ok ({ s with srRMap := some ⟨file.2, 4 * k + 4⟩, prevRetVal := word }, word) ∧
      ∀ i : Nat, word.toNat.testBit i = true ↔ (i : Int) ∈ bits

structure InputsAgree (srBits setBits srNum : Nat) (files : List (List Char × List UInt8))
    (sig : TraceSig) : Prop where
  count : files.length = (srBits.choose setBits + 1) ^ srNum
  distinct : (files.map Prod.fst).Nodup
  named : ∀ file ∈ files, ∃ bcs, InputFileAgrees srNum sig file bcs
  traced : sig.files = files.map fun file => traceFile file.1

theorem sr_exploration_inputs_agree (srBits setBits srNum : Nat) (width : srBits ≤ 32)
    (oneBit : 1 ≤ setBits) (someSr : 1 ≤ srNum) :
    ∃ files sig, inputFWriter srBits srNum [] [] setBits = .ok files ∧
      execTraceSig srBits srNum "trace-".toList setBits = .ok sig ∧
      InputsAgree srBits setBits srNum files sig := by
  obtain ⟨sig, sigOk, sigFiles, sigLookup⟩ :=
    execTraceSig_traces srBits setBits srNum width oneBit someSr
  have nonempty : ∀ bits ∈ srComponents srBits setBits, bits ≠ [] :=
    fun _ mem => ne_nil_of_mem_srComponents oneBit mem
  -- the bits of a file name every SR, and each names some bits
  have chosenShape : ∀ bcs ∈ Choices.sequences (srComponents srBits setBits) srNum,
      bcs.length = srNum ∧ bcs ≠ [] ∧ ∀ bits ∈ bcs, bits ≠ [] := by
    intro bcs chosen
    obtain ⟨length, comps⟩ := Choices.mem_sequences.mp chosen
    refine ⟨length, fun empty => ?_, fun bits mem => nonempty bits (comps bits mem)⟩
    rw [empty] at length
    simp at length
    omega
  refine ⟨_, sig, inputFWriter_files srBits setBits srNum width, sigOk, ?_⟩
  constructor
  · simp [Choices.length_sequences, length_srComponents]
  · rw [List.map_map]
    refine (Choices.nodup_sequences (nodup_srComponents srBits oneBit) srNum).map_on
      fun bcs chosen bcs' chosen' same => ?_
    obtain ⟨-, nonempty, parts⟩ := chosenShape bcs chosen
    obtain ⟨-, nonempty', parts'⟩ := chosenShape bcs' chosen'
    exact checkedBcFname_injective nonempty nonempty' parts parts' same
  · intro file mem
    obtain ⟨bcs, chosen, rfl⟩ := List.mem_map.mp mem
    obtain ⟨length, nonempty, parts⟩ := chosenShape bcs chosen
    exact ⟨bcs, length, splitOn_checkedBcFname nonempty,
      fun bits mem => parseBits_bitsKey (parts bits mem), rfl, sigLookup bcs chosen,
      by rw [inputFile, Choices.length_flatten_blocks _ 4 fun _ => rfl, length],
      fun _ _ at_k cfg s opened => inputFile_read width chosen at_k cfg s opened⟩
  · rw [sigFiles, List.map_map]
    rfl

theorem sr_exploration_inputs_agree_byte : (8 ≤ 32 ∧ 1 ≤ 1 ∧ 1 ≤ 1) ∧
    ∃ files sig, inputFWriter 8 1 [] [] 1 = .ok files ∧
      execTraceSig 8 1 "trace-".toList 1 = .ok sig ∧ InputsAgree 8 1 1 files sig :=
  ⟨by decide, sr_exploration_inputs_agree 8 1 1 (by decide) (by decide) (by decide)⟩

end P2im
