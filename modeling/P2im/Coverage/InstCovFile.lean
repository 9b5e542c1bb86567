import P2im.Coverage.InstCov

set_option autoImplicit false

/-!
# The file `inst_cov`

`inst_cov` writes its counts with `pprint`, and `func_cov` reads them back line by line, taking
each line for one item: it drops the braces, commas and quotes and splits the rest at `': '`.
`pprint` writes a dictionary on one line when its `repr` fits in the width of 80, and one item a
line otherwise, so the file reads back only when it holds one item or a `repr` longer than the
width; on any other file `func_cov` raises `ValueError`.
-/

namespace P2im

/-- `repr` of an item, `'0x80': 3`; the keys `hex` writes need no escape. -/
def itemRepr (item : String × Nat) : List Char :=
  '\x27' :: item.1.toList ++ "\x27: ".toList ++ Printf.decimal item.2

def pprintItems (d : List (String × Nat)) : List (List Char) :=
  (d.insertionSort fun a b => a.1.toList ≤ b.1.toList).map itemRepr

def pprintFlat (d : List (String × Nat)) : List Char :=
  '\x7b' :: ", ".toList.intercalate (pprintItems d) ++ ['\x7d']

/-- `pprint(inst_cov, stream=of)`: the `repr` when it fits in the width of 80, else one item a
line, the lines after the first indented by one. -/
def pprintCounts (d : List (String × Nat)) : List Char :=
  (if (pprintFlat d).length ≤ 80 then pprintFlat d
    else '\x7b' :: ",\n ".toList.intercalate (pprintItems d) ++ ['\x7d']) ++ ['\n']

/-- `l.replace('{','').replace('}','').replace(',','').replace('\'','').replace('\n','')`. -/
def cleanLine (l : List Char) : List Char :=
  l.filter fun c => !(['\x7b', '\x7d', ',', '\x27', '\n'].contains c)

/-- The body of `func_cov`'s loop over the lines: `(addr, cnt) = l.split(': ')`, then
`ic[int(addr, 16)] = int(cnt)`, the count read first. The counts `pprint` writes have no sign. -/
def readLine (ic : List (Nat × Nat)) (l : List Char) : Except PyError (List (Nat × Nat)) :=
  match Python.splitColonSpace (cleanLine l) with
  | [addr, cnt] => do
    let cnt ← Python.int cnt
    let addr ← Python.intBase16 addr
    pure (Python.setItem addr.toNat cnt.toNat ic)
  | _ => .error .valueError

def readInstCov (text : List Char) : Except PyError (List (Nat × Nat)) :=
  (Python.lines text).foldlM readLine []

/-! ## The characters of an item -/

def Plain (c : Char) : Prop := c = 'x' ∨ CConv.digitValue c < 16

instance (c : Char) : Decidable (Plain c) := inferInstanceAs (Decidable (c = 'x' ∨ _))

theorem plain_pyHex (a : Nat) : ∀ c ∈ (pyHex a).toList, Plain c := by
  intro c mem
  have nonneg : ¬ (a : Int) < 0 := by omega
  have prefixPlain : ∀ c ∈ "0x".toList, Plain c := by simp [Plain, CConv.digitValue]
  simp only [pyHex, nonneg, if_false, Int.toNat_natCast, String.toList_ofList, Printf.hex] at mem
  rcases List.mem_append.mp mem with pre | digit
  · exact prefixPlain c pre
  · exact .inr (CConv.digitValue_mem_toDigits (by decide : 2 ≤ 16) (by decide : 16 ≤ 16) a c digit)

theorem plain_decimal (n : Nat) : ∀ c ∈ Printf.decimal n, Plain c := by
  intro c mem
  have nonneg : ¬ (n : Int) < 0 := by omega
  simp only [Printf.decimal, nonneg, if_false, Int.toNat_natCast] at mem
  exact .inr (lt_of_lt_of_le
    (CConv.digitValue_mem_toDigits (by decide : 2 ≤ 10) (by decide : 10 ≤ 16) n c mem) (by decide))

theorem not_mem_of_forall_plain {s : List Char} {b : Char} (plain : ∀ c ∈ s, Plain c) (other : ¬ Plain b) :
    b ∉ s :=
  fun mem => other (plain b mem)

theorem cleanLine_append (l l' : List Char) : cleanLine (l ++ l') = cleanLine l ++ cleanLine l' :=
  List.filter_append l l'

theorem cleanLine_plain {s : List Char} (plain : ∀ c ∈ s, Plain c) : cleanLine s = s := by
  have dropped : ∀ b ∈ ['\x7b', '\x7d', ',', '\x27', '\n'], ¬ Plain b := by
    simp [Plain, CConv.digitValue]
  refine List.filter_eq_self.mpr fun c mem => ?_
  have kept : c ∉ ['\x7b', '\x7d', ',', '\x27', '\n'] := fun bad => dropped c bad (plain c mem)
  simpa using kept

theorem intBase16_pyHex (a : Nat) : Python.intBase16 (pyHex a).toList = .ok a := by
  have nonneg : ¬ (a : Int) < 0 := by omega
  have digits := CConv.digitValue_mem_toDigits (by decide : 2 ≤ 16) (by decide : 16 ≤ 16) a
  have value := CConv.readDigits_toDigits (by decide : 2 ≤ 16) (by decide : 16 ≤ 16) a
  have unblank : ∀ b ∈ Python.blanks, ¬ Plain b := by simp [Python.blanks, Plain, CConv.digitValue]
  have unstripped : Python.strip Python.blanks (pyHex a).toList = (pyHex a).toList :=
    Python.strip_of_forall fun c mem blank => unblank c blank (plain_pyHex a c mem)
  simp only [Python.intBase16, unstripped]
  simp only [pyHex, nonneg, if_false, Int.toNat_natCast, String.toList_ofList, Printf.hex]
  simpa [Nat.toDigits_ne_nil, value] using digits

theorem cleanLine_itemRepr (a n : Nat) :
    cleanLine (itemRepr (pyHex a, n)) = (pyHex a).toList ++ ':' :: ' ' :: Printf.decimal n := by
  have pieces : itemRepr (pyHex a, n) = ['\x27'] ++ (pyHex a).toList ++ "\x27: ".toList ++ Printf.decimal n :=
    rfl
  have quote : cleanLine ['\x27'] = [] := by decide
  have sep : cleanLine "\x27: ".toList = [':', ' '] := by simp [cleanLine]
  rw [pieces, cleanLine_append, cleanLine_append, cleanLine_append, quote, sep,
    cleanLine_plain (plain_pyHex a), cleanLine_plain (plain_decimal n)]
  simp

/-! ## A file of one item a line -/

/-- The lines `pprint` writes for the items, one a line, the first opening with `c`. -/
def pprintRows (c : Char) : List (List Char) → List (List Char)
  | [] => []
  | [item] => [c :: item ++ ['\x7d']]
  | item :: next :: rest => (c :: item ++ [',']) :: pprintRows ' ' (next :: rest)

theorem length_pprintRows (c : Char) (items : List (List Char)) :
    (pprintRows c items).length = items.length := by
  induction items generalizing c with
  | nil => rfl
  | cons item rest ih =>
    cases rest with
    | nil => rfl
    | cons next rest => simp [pprintRows, ih]

theorem intercalate_pprintRows (c : Char) {items : List (List Char)} (nonempty : items ≠ []) :
    c :: ",\n ".toList.intercalate items ++ ['\x7d'] = ['\n'].intercalate (pprintRows c items) := by
  induction items generalizing c with
  | nil => exact absurd rfl nonempty
  | cons item rest ih =>
    cases rest with
    | nil => simp [pprintRows]
    | cons next rest =>
      have more : pprintRows ' ' (next :: rest) ≠ [] := by
        rw [← List.length_pos_iff, length_pprintRows]
        simp
      rw [pprintRows, List.intercalate_cons_of_ne_nil more, ← ih ' ' (List.cons_ne_nil next rest),
        List.intercalate_cons_cons]
      simp

theorem readLine_row (ic : List (Nat × Nat)) (a n : Nat) {c e : Char} (opening : c = '\x7b' ∨ c = ' ')
    (closing : e = ',' ∨ e = '\x7d') :
    readLine ic (c :: itemRepr (pyHex a, n) ++ [e]) = .ok (Python.setItem a n ic) := by
  have cleaned : cleanLine (c :: itemRepr (pyHex a, n) ++ [e]) =
      cleanLine [c] ++ (pyHex a).toList ++ ':' :: ' ' :: Printf.decimal n := by
    have last : cleanLine [e] = [] := by rcases closing with rfl | rfl <;> decide
    rw [← List.singleton_append, cleanLine_append, cleanLine_append, cleanLine_itemRepr, last]
    simp
  have indent : cleanLine [c] = [] ∨ cleanLine [c] = [' '] := by
    rcases opening with rfl | rfl <;> decide
  have colonFree := not_mem_of_forall_plain (plain_pyHex a) (by decide : ¬ Plain ':')
  -- the indent is no part of the key, and `int` strips it
  have keyPlain : ':' ∉ cleanLine [c] ++ (pyHex a).toList := by
    rcases indent with blank | blank <;> rw [blank] <;> simpa using colonFree
  have key : Python.intBase16 (cleanLine [c] ++ (pyHex a).toList) = .ok a := by
    rcases indent with blank | blank <;> rw [blank]
    · exact intBase16_pyHex a
    · rw [List.singleton_append, Python.intBase16_cons_of_blank _ (by decide)]
      exact intBase16_pyHex a
  rw [readLine, cleaned, Python.splitColonSpace_append _ keyPlain,
    Python.splitColonSpace_of_not_mem (not_mem_of_forall_plain (plain_decimal n) (by decide))]
  simp [Python.int_decimal, key]

theorem newline_not_mem_itemRepr (a n : Nat) : '\n' ∉ itemRepr (pyHex a, n) := by
  have pieces : itemRepr (pyHex a, n) = ['\x27'] ++ (pyHex a).toList ++ "\x27: ".toList ++ Printf.decimal n :=
    rfl
  rw [pieces]
  simp only [List.mem_append, not_or]
  exact ⟨⟨⟨by decide, not_mem_of_forall_plain (plain_pyHex a) (by decide)⟩, by decide⟩,
    not_mem_of_forall_plain (plain_decimal n) (by decide)⟩

theorem newline_not_mem_pprintRows {c : Char} (opening : c ≠ '\n') {items : List (List Char)}
    (plain : ∀ item ∈ items, '\n' ∉ item) : ∀ l ∈ pprintRows c items, '\n' ∉ l := by
  induction items generalizing c with
  | nil => simp [pprintRows]
  | cons item rest ih =>
    have row : ∀ e : Char, e ≠ '\n' → '\n' ∉ c :: item ++ [e] := by
      intro e other
      simp [Ne.symm opening, Ne.symm other, plain item List.mem_cons_self]
    cases rest with
    | nil => simpa [pprintRows] using row '\x7d' (by decide)
    | cons next rest =>
      rw [pprintRows]
      simp only [List.mem_cons]
      rintro l (rfl | later)
      · exact row ',' (by decide)
      · exact ih (by decide) (fun i mem => plain i (List.mem_cons_of_mem _ mem)) l later

theorem foldlM_readLine_pprintRows {c : Char} (opening : c = '\x7b' ∨ c = ' ') (ps : List (Nat × Nat))
    (ic : List (Nat × Nat)) :
    (pprintRows c (ps.map fun p => itemRepr (pyHex p.1, p.2))).foldlM readLine ic =
      .ok (ps.foldl (fun ic p => Python.setItem p.1 p.2 ic) ic) := by
  induction ps generalizing c ic with
  | nil => rfl
  | cons p rest ih =>
    cases rest with
    | nil =>
      simp only [List.map_cons, List.map_nil, pprintRows, List.foldlM_cons, List.foldlM_nil,
        readLine_row ic p.1 p.2 opening (.inr rfl)]
      rfl
    | cons q rest =>
      rw [List.map_cons, List.map_cons, pprintRows, List.foldlM_cons, readLine_row ic p.1 p.2 opening (.inl rfl)]
      exact ih (.inr rfl) _

/-! ## The whole file -/

/-- `pprint` writes the dictionary one item a line: it holds a single item, or its `repr` is
longer than the width. -/
def OnePerLine (d : List (String × Nat)) : Prop := d.length = 1 ∨ 80 < (pprintFlat d).length

instance (d : List (String × Nat)) : Decidable (OnePerLine d) :=
  inferInstanceAs (Decidable (d.length = 1 ∨ _))

def pprintSorted (d : List (String × Nat)) : List (String × Nat) :=
  d.insertionSort fun a b => a.1.toList ≤ b.1.toList

theorem pprintSorted_perm (d : List (String × Nat)) : (pprintSorted d).Perm d :=
  List.perm_insertionSort _ d

theorem exists_hex_items {l : List (String × Nat)} (hex : ∀ item ∈ l, ∃ a : Nat, item.1 = pyHex a) :
    ∃ ps : List (Nat × Nat), l = ps.map fun p => (pyHex p.1, p.2) := by
  induction l with
  | nil => exact ⟨[], rfl⟩
  | cons item rest ih =>
    obtain ⟨a, named⟩ := hex item List.mem_cons_self
    obtain ⟨ps, rfl⟩ := ih fun i mem => hex i (List.mem_cons_of_mem _ mem)
    exact ⟨(a, item.2) :: ps, by simp [← named]⟩

theorem pprintItems_ne_nil {d : List (String × Nat)} (layout : OnePerLine d) : pprintItems d ≠ [] := by
  intro empty
  have none : d = [] := by
    simpa [pprintItems, List.length_insertionSort] using congrArg List.length empty
  subst none
  rcases layout with one | long
  · cases one
  · revert long
    decide

theorem pprintCounts_onePerLine {d : List (String × Nat)} (layout : OnePerLine d) :
    pprintCounts d = ['\n'].intercalate (pprintRows '\x7b' (pprintItems d)) ++ ['\n'] := by
  rw [pprintCounts, ← intercalate_pprintRows _ (pprintItems_ne_nil layout)]
  split_ifs with fits
  · -- a single item is written alike on one line
    have one : d.length = 1 := by
      rcases layout with one | long
      · exact one
      · omega
    obtain ⟨item, single⟩ : ∃ item, pprintItems d = [item] := by
      apply List.length_eq_one_iff.mp
      simpa [pprintItems, List.length_insertionSort] using one
    simp [pprintFlat, single]
  · rfl

theorem pprintSorted_hex {d : List (String × Nat)} (hex : ∀ item ∈ d, ∃ a : Nat, item.1 = pyHex a) :
    ∃ ps : List (Nat × Nat), pprintSorted d = ps.map (fun p => (pyHex p.1, p.2)) ∧
      pprintItems d = ps.map fun p => itemRepr (pyHex p.1, p.2) := by
  obtain ⟨ps, sorted⟩ := exists_hex_items fun item mem => hex item ((pprintSorted_perm d).subset mem)
  have shape : pprintItems d = (pprintSorted d).map itemRepr := by rw [pprintItems, pprintSorted]
  refine ⟨ps, sorted, ?_⟩
  rw [shape, sorted, List.map_map]
  rfl

theorem readInstCov_onePerLine {d : List (String × Nat)} (layout : OnePerLine d)
    (hex : ∀ item ∈ d, ∃ a : Nat, item.1 = pyHex a) :
    ∃ ps : List (Nat × Nat), pprintSorted d = ps.map (fun p => (pyHex p.1, p.2)) ∧
      readInstCov (pprintCounts d) = .ok (ps.foldl (fun ic p => Python.setItem p.1 p.2 ic) []) := by
  obtain ⟨ps, sorted, items⟩ := pprintSorted_hex hex
  have nonempty : pprintRows '\x7b' (pprintItems d) ≠ [] := by
    rw [← List.length_pos_iff, length_pprintRows, List.length_pos_iff]
    exact pprintItems_ne_nil layout
  have plain : ∀ item ∈ pprintItems d, '\n' ∉ item := by
    rw [items]
    simp only [List.mem_map]
    rintro _ ⟨p, _, rfl⟩
    exact newline_not_mem_itemRepr p.1 p.2
  refine ⟨ps, sorted, ?_⟩
  rw [readInstCov, pprintCounts_onePerLine layout,
    Python.lines_intercalate nonempty (newline_not_mem_pprintRows (by decide) plain), items]
  exact foldlM_readLine_pprintRows (.inl rfl) ps []

/-! ## A file of one line -/

theorem mem_of_mem_intercalate {α : Type} {sep : List α} {ls : List (List α)} {x : α}
    (mem : x ∈ sep.intercalate ls) : x ∈ sep ∨ ∃ l ∈ ls, x ∈ l := by
  induction ls with
  | nil => cases mem
  | cons l rest ih =>
    cases rest with
    | nil => exact .inr ⟨l, List.mem_cons_self, by simpa using mem⟩
    | cons next rest =>
      rw [List.intercalate_cons_cons] at mem
      rcases List.mem_append.mp mem with front | later
      · rcases List.mem_append.mp front with here | sep
        · exact .inr ⟨l, List.mem_cons_self, here⟩
        · exact .inl sep
      · obtain inSep | ⟨l', mem', inL'⟩ := ih later
        · exact .inl inSep
        · exact .inr ⟨l', List.mem_cons_of_mem _ mem', inL'⟩

theorem cleanLine_intercalate (sep : List Char) (ls : List (List Char)) :
    cleanLine (sep.intercalate ls) = (cleanLine sep).intercalate (ls.map cleanLine) := by
  induction ls with
  | nil => rfl
  | cons l rest ih =>
    cases rest with
    | nil => simp
    | cons next rest =>
      rw [List.intercalate_cons_cons, cleanLine_append, cleanLine_append, ih]
      simp only [List.map_cons, List.intercalate_cons_cons]

theorem length_splitColonSpace_items {a : List Char} (plain : ':' ∉ a) (ps : List (Nat × Nat)) :
    (Python.splitColonSpace (a ++ [' '].intercalate
      (ps.map fun p => (pyHex p.1).toList ++ ':' :: ' ' :: Printf.decimal p.2))).length = ps.length + 1 := by
  induction ps generalizing a with
  | nil => simp [Python.splitColonSpace_of_not_mem plain]
  | cons p rest ih =>
    have keyPlain : ':' ∉ a ++ (pyHex p.1).toList := by
      simpa [plain] using not_mem_of_forall_plain (plain_pyHex p.1) (by decide)
    have countPlain : ':' ∉ Printf.decimal p.2 := not_mem_of_forall_plain (plain_decimal p.2) (by decide)
    cases rest with
    | nil =>
      simp only [List.map_cons, List.map_nil, List.intercalate_singleton, ← List.append_assoc]
      rw [Python.splitColonSpace_append _ keyPlain, Python.splitColonSpace_of_not_mem countPlain]
      rfl
    | cons q rest =>
      have shape : ∀ r : List Char, a ++ ((pyHex p.1).toList ++ ':' :: ' ' :: Printf.decimal p.2 ++ [' '] ++ r) =
          (a ++ (pyHex p.1).toList) ++ ':' :: ' ' :: (Printf.decimal p.2 ++ [' '] ++ r) := fun r => by simp
      rw [List.map_cons, List.intercalate_cons_of_ne_nil (by simp), shape, Python.splitColonSpace_append _ keyPlain,
        List.length_cons, ih (by simpa using countPlain)]
      simp

theorem newline_not_mem_pprintFlat {d : List (String × Nat)} (ps : List (Nat × Nat))
    (items : pprintItems d = ps.map fun p => itemRepr (pyHex p.1, p.2)) : '\n' ∉ pprintFlat d := by
  rw [pprintFlat, items]
  simp only [List.cons_append, List.mem_cons, List.mem_append, not_or]
  refine ⟨by decide, fun mem => ?_, by decide⟩
  rcases mem_of_mem_intercalate mem with sep | ⟨l, mem, inL⟩
  · revert sep
    decide
  · obtain ⟨p, -, rfl⟩ := List.mem_map.mp mem
    exact newline_not_mem_itemRepr p.1 p.2 inL

theorem readInstCov_of_not_onePerLine {d : List (String × Nat)} (layout : ¬ OnePerLine d)
    (hex : ∀ item ∈ d, ∃ a : Nat, item.1 = pyHex a) :
    readInstCov (pprintCounts d) = .error .valueError := by
  obtain ⟨many, fits⟩ : d.length ≠ 1 ∧ (pprintFlat d).length ≤ 80 := by
    simpa [OnePerLine, not_or] using layout
  obtain ⟨ps, sorted, items⟩ := pprintSorted_hex hex
  have sameLength : ps.length = d.length := by
    rw [← List.length_map (f := fun p => (pyHex p.1, p.2)), ← sorted, pprintSorted, List.length_insertionSort]
  have oneLine := Python.lines_intercalate (List.cons_ne_nil (pprintFlat d) [])
    (by simpa using newline_not_mem_pprintFlat ps items)
  rw [List.intercalate_singleton] at oneLine
  have pieces : (Python.splitColonSpace (cleanLine (pprintFlat d))).length = d.length + 1 := by
    have cleaned : cleanLine (pprintFlat d) = [] ++ [' '].intercalate
        (ps.map fun p => (pyHex p.1).toList ++ ':' :: ' ' :: Printf.decimal p.2) := by
      have opening : cleanLine ['\x7b'] = [] := by decide
      have sep : cleanLine ", ".toList = [' '] := by decide
      have closing : cleanLine ['\x7d'] = [] := by decide
      rw [pprintFlat, items, ← List.singleton_append, cleanLine_append, cleanLine_append, cleanLine_intercalate,
        List.map_map, opening, sep, closing]
      simp [Function.comp_def, cleanLine_itemRepr]
    rw [cleaned, length_splitColonSpace_items (List.not_mem_nil) ps, sameLength]
  rw [readInstCov, pprintCounts, if_pos fits, oneLine]
  simp only [List.foldlM_cons, List.foldlM_nil, bind_pure]
  rw [readLine]
  split
  · next addr cnt split => exact absurd (congrArg List.length split) (by rw [pieces]; simpa using many)
  · rfl

/-! ## From `inst_cov` to `func_cov` -/

theorem instCov_hex (cases : List (List (Nat × Nat))) :
    ∀ item ∈ (instCov cases).instCov, ∃ a : Nat, item.1 = pyHex a := by
  intro item mem
  rw [instCov_eq] at mem
  have keys := (Python.keys_count ((countedAddrs cases).map fun a : Nat => pyHex a)).2
  obtain ⟨a, -, named⟩ := List.mem_map.mp ((keys item.1).mp (List.mem_map_of_mem mem))
  exact ⟨a, named.symm⟩

theorem pyHex_mem_instCov (cases : List (List (Nat × Nat))) (a : Nat) :
    pyHex a ∈ (instCov cases).instCov.map Prod.fst ↔ a ∈ countedAddrs cases := by
  rw [instCov_eq]
  dsimp only
  rw [(Python.keys_count _).2, List.mem_map_of_injective pyHex_natCast_injective]

theorem instCov_keys_nodup (cases : List (List (Nat × Nat))) : ((instCov cases).instCov.map Prod.fst).Nodup := by
  rw [instCov_eq]
  exact (Python.keys_count _).1

theorem lookup_map_pyHex (ps : List (Nat × Nat)) (a : Nat) :
    (ps.map fun p => (pyHex p.1, p.2)).lookup (pyHex a) = ps.lookup a := by
  induction ps with
  | nil => rfl
  | cons p rest ih =>
    by_cases same : a = p.1
    · subst same
      simp [List.lookup]
    · have differ : (pyHex a == pyHex p.1) = false :=
        beq_false_of_ne fun named => same (pyHex_natCast_injective named)
      have other : (a == p.1) = false := beq_false_of_ne same
      simp [List.lookup, differ, other, ih]

theorem keys_foldl_setItem (ps ic : List (Nat × Nat)) (a : Nat) :
    a ∈ (ps.foldl (fun ic p => Python.setItem p.1 p.2 ic) ic).map Prod.fst ↔
      a ∈ ic.map Prod.fst ∨ a ∈ ps.map Prod.fst := by
  induction ps generalizing ic with
  | nil => simp
  | cons p rest ih =>
    rw [List.foldl_cons, ih, Python.mem_keys_setItem, List.map_cons, List.mem_cons]
    tauto

theorem mem_keys_of_pprintSorted {d : List (String × Nat)} {ps : List (Nat × Nat)}
    (sorted : pprintSorted d = ps.map fun p => (pyHex p.1, p.2)) (a : Nat) :
    a ∈ ps.map Prod.fst ↔ pyHex a ∈ d.map Prod.fst := by
  have keys : (pprintSorted d).map Prod.fst = (ps.map Prod.fst).map fun a : Nat => pyHex a := by
    rw [sorted, List.map_map, List.map_map]
    rfl
  rw [← ((pprintSorted_perm d).map Prod.fst).mem_iff, keys, List.mem_map_of_injective pyHex_natCast_injective]

theorem funcCovScan_flagsFrom (ft : List (Nat × String)) (ic : List (Nat × Nat))
    (distinct : (ft.map Prod.fst).Nodup) :
    (funcCovScan ft ic).funcCov = flagsFrom (ic.map Prod.fst) 0 (ft.insertionSort fun a b => a.1 ≤ b.1) := by
  have sortedIcs := pairwise_insertionSort_fst ic
  have distinctSorted : ((ft.insertionSort fun a b => a.1 ≤ b.1).map Prod.fst).Nodup :=
    ((List.perm_insertionSort _ ft).map Prod.fst).nodup_iff.mpr distinct
  have all : (ic.insertionSort fun a b => a.1 ≤ b.1).filter (fun p => 0 ≤ p.1) =
      ic.insertionSort fun a b => a.1 ≤ b.1 := List.filter_eq_self.mpr fun _ _ => by simp
  have scanned := scanFuncs_funcCov sortedIcs (ft.insertionSort fun a b => a.1 ≤ b.1) 0 ⟨[], []⟩
    (pairwise_insertionSort_fst ft) distinctSorted (fun _ _ => Nat.zero_le _) (fun _ _ => by simp)
  rw [all, List.nil_append, flagsFrom_perm ((List.perm_insertionSort _ ic).map Prod.fst)] at scanned
  exact scanned

/-- `func_cov`, reading the file `inst_cov` writes over all cases, one count a line, flags each
function but the last in address order exactly when a block of some trace ran an address from the
start of the function (from 0 for the first) below the start of the next. -/
theorem func_cov_flags_functions_blocks_ran (cases : List (List (Nat × Nat))) (ft : List (Nat × String))
    (distinct : (ft.map Prod.fst).Nodup) (layout : OnePerLine (instCov cases).instCov) :
    ∃ ic, readInstCov (pprintCounts (instCov cases).instCov) = .ok ic ∧
      (funcCovScan ft ic).funcCov = flagsFrom (countedAddrs cases) 0 (ft.insertionSort fun a b => a.1 ≤ b.1) := by
  obtain ⟨ps, sorted, read⟩ := readInstCov_onePerLine layout (instCov_hex cases)
  refine ⟨_, read, ?_⟩
  rw [funcCovScan_flagsFrom ft _ distinct]
  apply flagsFrom_congr
  intro a
  rw [keys_foldl_setItem, mem_keys_of_pprintSorted sorted, pyHex_mem_instCov]
  simp

theorem two_cases_flag_f_and_g :
    ([(0x8000100, "f"), (0x8000200, "g"), (0x8000300, "h")].map Prod.fst : List Nat).Nodup ∧
      OnePerLine (instCov [[(0x8000100, 0x8000104), (0x8000110, 0x8000112)], [(0x8000200, 0x8000206)]]).instCov ∧
      ∃ ic, readInstCov (pprintCounts
          (instCov [[(0x8000100, 0x8000104), (0x8000110, 0x8000112)], [(0x8000200, 0x8000206)]]).instCov) = .ok ic ∧
        (funcCovScan [(0x8000100, "f"), (0x8000200, "g"), (0x8000300, "h")] ic).funcCov =
          flagsFrom (countedAddrs [[(0x8000100, 0x8000104), (0x8000110, 0x8000112)], [(0x8000200, 0x8000206)]]) 0
            ([(0x8000100, "f"), (0x8000200, "g"), (0x8000300, "h")].insertionSort fun a b => a.1 ≤ b.1) := by
  have layout : OnePerLine
      (instCov [[(0x8000100, 0x8000104), (0x8000110, 0x8000112)], [(0x8000200, 0x8000206)]]).instCov := by
    rw [instCov_eq]
    decide
  exact ⟨by decide, layout, func_cov_flags_functions_blocks_ran _ _ (by decide) layout⟩

/-- `func_cov` reads `inst_cov` back, each address finding the count the dictionary held under its
`hex`, exactly when `pprint` wrote the dictionary one item a line; a dictionary of no item or of
several that fits on one line makes it raise `ValueError`. -/
theorem func_cov_reads_inst_cov_iff_one_per_line (cases : List (List (Nat × Nat))) :
    (OnePerLine (instCov cases).instCov →
      ∃ ic, readInstCov (pprintCounts (instCov cases).instCov) = .ok ic ∧
        ∀ a : Nat, ic.lookup a = (instCov cases).instCov.lookup (pyHex a)) ∧
    (¬ OnePerLine (instCov cases).instCov →
      readInstCov (pprintCounts (instCov cases).instCov) = .error .valueError) := by
  refine ⟨fun layout => ?_, fun layout => readInstCov_of_not_onePerLine layout (instCov_hex cases)⟩
  obtain ⟨ps, sorted, read⟩ := readInstCov_onePerLine layout (instCov_hex cases)
  -- the keys stay distinct through the sort and the reading of `hex`
  have distinctSorted : ((pprintSorted (instCov cases).instCov).map Prod.fst).Nodup :=
    ((pprintSorted_perm _).map Prod.fst).nodup_iff.mpr (instCov_keys_nodup cases)
  have distinctPs : (ps.map Prod.fst).Nodup := by
    rw [sorted, List.map_map] at distinctSorted
    exact List.Nodup.of_map (fun a : Nat => pyHex a) (by simpa [Function.comp_def] using distinctSorted)
  refine ⟨_, read, fun a => ?_⟩
  rw [Python.lookup_foldl_setItem_items ps [] distinctPs, ← Python.lookup_perm (pprintSorted_perm _) distinctSorted,
    sorted, lookup_map_pyHex]
  simp

theorem short_inst_cov_raises :
    ¬ OnePerLine (instCov [[(0x100, 0x104)], [(0x200, 0x202)]]).instCov ∧
      readInstCov (pprintCounts (instCov [[(0x100, 0x104)], [(0x200, 0x202)]]).instCov) = .error .valueError := by
  have layout : ¬ OnePerLine (instCov [[(0x100, 0x104)], [(0x200, 0x202)]]).instCov := by
    rw [instCov_eq]
    decide
  exact ⟨layout, (func_cov_reads_inst_cov_iff_one_per_line _).2 layout⟩

end P2im
