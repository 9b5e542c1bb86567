import Mathlib
import P2im.Shared.CConv
import P2im.Shared.Halt

set_option autoImplicit false

/-!
# Python's lists and dictionaries

The operations of Python's built-in lists and dictionaries a script uses, with the exceptions
they raise and that end the script: reading a missing key raises `KeyError`, an index outside a
list `IndexError`. A negative index counts from the end of the list. A dictionary is its items in
insertion order, the order its iteration visits them. Beside them, `int()` of a decimal text and
`struct.pack(">I", v)`, with the `for` loops that collect what calls return.
-/

inductive PyError where
  | keyError (key : String)
  | indexError
  | valueError
  | structError
  | typeError
  | zeroDivisionError
  -- sys.exit raises SystemExit, which ends the script
  | systemExit
deriving DecidableEq, Repr

namespace Python

/-- `d[key]` of a member that may be missing. -/
def key {α : Type} (name : String) : Option α → Except PyError α
  | some a => .ok a
  | none => .error (.keyError name)

/-- The position `xs[i]` reads: a negative `i` counts from the end. -/
def position {α : Type} (xs : List α) (i : Int) : Option Nat :=
  if i < 0 then if 0 ≤ i + xs.length then some (i + xs.length).toNat else none
  else if i < xs.length then some i.toNat else none

/-- `xs[i]`. -/
def index {α : Type} (xs : List α) (i : Int) : Except PyError α :=
  match position xs i with
  | some j => match xs[j]? with
    | some a => .ok a
    | none => .error .indexError
  | none => .error .indexError

/-- `xs[i] = x`. -/
def setIndex {α : Type} (xs : List α) (i : Int) (x : α) : Except PyError (List α) :=
  match position xs i with
  | some j => .ok (xs.set j x)
  | none => .error .indexError

/-- `d[key] = v`: a key already there keeps its place. -/
def setItem {κ α : Type} [DecidableEq κ] (key : κ) (v : α) : List (κ × α) → List (κ × α)
  | [] => [(key, v)]
  | (k, w) :: rest => if k = key then (k, v) :: rest else (k, w) :: setItem key v rest

/-- `d[key].append(v)`, or `d[key] = [v]` for a key not yet there. -/
def appendItem {κ α : Type} [DecidableEq κ] (key : κ) (v : α) : List (κ × List α) → List (κ × List α)
  | [] => [(key, [v])]
  | (k, vs) :: rest => if k = key then (k, vs ++ [v]) :: rest else (k, vs) :: appendItem key v rest

/-- `d[key] += 1`, or `d[key] = 1` for a key not yet there. -/
def countItem {κ : Type} [DecidableEq κ] (key : κ) : List (κ × Nat) → List (κ × Nat)
  | [] => [(key, 1)]
  | (k, n) :: rest => if k = key then (k, n + 1) :: rest else (k, n) :: countItem key rest

/-- `del xs[i]`. -/
def delIndex {α : Type} (xs : List α) (i : Int) : Except PyError (List α) :=
  match position xs i with
  | some j => .ok (xs.eraseIdx j)
  | none => .error .indexError

/-- `s.strip(chars)`: the characters of `chars` off both ends of `s`. -/
def strip (chars s : List Char) : List Char :=
  ((s.dropWhile chars.contains).reverse.dropWhile chars.contains).reverse

def bytesBE (v : Nat) : List UInt8 :=
  [(v / 2 ^ 24).toUInt8, (v / 2 ^ 16).toUInt8, (v / 2 ^ 8).toUInt8, v.toUInt8]

/-- `struct.pack(">I", v)`: a value outside an unsigned 32-bit integer raises `struct.error`. -/
def packI (v : Nat) : Except PyError (List UInt8) :=
  if v < 2 ^ 32 then .ok (bytesBE v) else .error .structError

def decimalValue (digits : List Char) : Except PyError Nat :=
  if digits ≠ [] ∧ digits.all Char.isDigit then .ok (CConv.readDigits 10 0 digits)
  else .error .valueError

def blanks : List Char := [' ', '\t', '\n', '\r', '\x0b', '\x0c']

/-- `int(text)` of a decimal text: blanks around a sign and the digits. The underscores between
digits that `int` also accepts are left out. -/
def int (text : List Char) : Except PyError Int :=
  match strip blanks text with
  | '-' :: digits => (fun n : Nat => -(n : Int)) <$> decimalValue digits
  | '+' :: digits => (fun n : Nat => (n : Int)) <$> decimalValue digits
  | digits => (fun n : Nat => (n : Int)) <$> decimalValue digits

/-- `int(text, 16)`: blanks around an optional `0x` or `0X` and one or more hexadecimal digits;
the sign and the underscores `int` also accepts are left out. -/
def intBase16 (text : List Char) : Except PyError Int :=
  let text := strip blanks text
  let digits := match text with
    | '0' :: x :: rest => if x = 'x' ∨ x = 'X' then rest else text
    | _ => text
  if digits ≠ [] ∧ digits.all (fun c => CConv.digitValue c < 16) then .ok (CConv.readDigits 16 0 digits)
  else .error .valueError

/-- The lines `for l in f` visits in the text of a file, each without its `'\n'`. -/
def lines (text : List Char) : List (List Char) :=
  if text = [] then []
  else if text.getLast? = some '\n' then text.dropLast.splitOn '\n'
  else text.splitOn '\n'

/-- `s.split(': ')`: the pieces between the separators, found from the left. -/
def splitColonSpace : List Char → List (List Char)
  | ':' :: ' ' :: rest => [] :: splitColonSpace rest
  | c :: rest =>
    match splitColonSpace rest with
    | piece :: pieces => (c :: piece) :: pieces
    | [] => [[c]]
  | [] => [[]]

/-- `int(a / b)`: true division, truncated toward zero. The operands the scripts divide are small
enough that the float quotient truncates as the exact one does. -/
def truncDiv (a b : Int) : Except PyError Int :=
  if b = 0 then .error .zeroDivisionError else .ok (a.tdiv b)

/-- `set(xs) == set(ys)`. -/
def setEq {α : Type} [DecidableEq α] (xs ys : List α) : Bool :=
  xs.all (· ∈ ys) && ys.all (· ∈ xs)

theorem setEq_iff {α : Type} [DecidableEq α] {xs ys : List α} :
    setEq xs ys = true ↔ ∀ a, a ∈ xs ↔ a ∈ ys := by
  simp only [setEq, Bool.and_eq_true, List.all_eq_true, decide_eq_true_eq]
  exact ⟨fun both a => ⟨both.1 a, both.2 a⟩, fun same => ⟨fun a => (same a).mp, fun a => (same a).mpr⟩⟩

theorem setEq_exclusive {α : Type} [DecidableEq α] {keys xs ys : List α} {k : α}
    (differ : ¬(k ∈ xs ↔ k ∈ ys)) (same : setEq keys xs = true) : setEq keys ys = false := by
  rw [Bool.eq_false_iff]
  intro other
  exact differ ((setEq_iff.mp same k).symm.trans (setEq_iff.mp other k))

theorem position_lt {α : Type} {xs : List α} {i : Int} {j : Nat} (found : position xs i = some j) :
    j < xs.length := by
  unfold position at found
  split_ifs at found with negative inside inside <;> obtain rfl := Option.some.inj found <;> omega

theorem index_eq {α : Type} {xs : List α} {i : Int} {a : α} (read : index xs i = .ok a) :
    ∃ j, position xs i = some j ∧ xs[j]? = some a := by
  unfold index at read
  split at read
  · next j found =>
    split at read
    · next a' at_j =>
      cases read
      exact ⟨j, found, at_j⟩
    · cases read
  · cases read

theorem index_neg_one {α : Type} (xs : List α) :
    index xs (-1) = match xs.getLast? with
      | some a => .ok a
      | none => .error .indexError := by
  cases xs using List.reverseRecOn with
  | nil => rfl
  | append_singleton ys y => simp [index, position]

theorem index_zero {α : Type} (xs : List α) :
    index xs 0 = match xs.head? with
      | some a => .ok a
      | none => .error .indexError := by
  cases xs <;> simp [index, position]

theorem position_of_lt {α : Type} {xs : List α} {j : Nat} (inside : j < xs.length) :
    position xs j = some j := by
  have nonneg : ¬ (j : Int) < 0 := by omega
  simp [position, nonneg, inside]

theorem index_of_lt {α : Type} {xs : List α} {j : Nat} (inside : j < xs.length) :
    index xs j = .ok xs[j] := by
  simp [index, position_of_lt inside, List.getElem?_eq_getElem inside]

theorem delIndex_of_lt {α : Type} {xs : List α} {j : Nat} (inside : j < xs.length) :
    delIndex xs j = .ok (xs.eraseIdx j) := by
  simp only [delIndex, position_of_lt inside]

theorem setItem_of_not_mem {κ α : Type} [DecidableEq κ] {key : κ} (v : α) {d : List (κ × α)}
    (fresh : key ∉ d.map Prod.fst) : setItem key v d = d ++ [(key, v)] := by
  induction d with
  | nil => rfl
  | cons item rest ih =>
    obtain ⟨k, w⟩ := item
    have other : k ≠ key := fun same => fresh (by simp [same])
    simp only [setItem, if_neg other, List.cons_append, ih (fun mem => fresh (by simp [mem]))]

theorem setItem_append_self {κ α : Type} [DecidableEq κ] {key : κ} (v w : α) {d : List (κ × α)}
    (fresh : key ∉ d.map Prod.fst) : setItem key v (d ++ [(key, w)]) = d ++ [(key, v)] := by
  induction d with
  | nil => simp [setItem]
  | cons item rest ih =>
    obtain ⟨k, u⟩ := item
    have other : k ≠ key := fun same => fresh (by simp [same])
    simp only [List.cons_append, setItem, if_neg other, ih (fun mem => fresh (by simp [mem]))]

theorem setItem_setItem_self {κ α : Type} [DecidableEq κ] (key : κ) (v : α) (d : List (κ × α)) :
    setItem key v (setItem key v d) = setItem key v d := by
  induction d with
  | nil => simp [setItem]
  | cons item rest ih =>
    obtain ⟨k, u⟩ := item
    by_cases same : k = key
    · simp [setItem, same]
    · simp [setItem, same, ih]

theorem mem_keys_setItem {κ α : Type} [DecidableEq κ] {k key : κ} (v : α) (d : List (κ × α)) :
    k ∈ (setItem key v d).map Prod.fst ↔ k = key ∨ k ∈ d.map Prod.fst := by
  induction d with
  | nil => simp [setItem]
  | cons item rest ih =>
    obtain ⟨k', w⟩ := item
    by_cases here : k' = key
    · subst here
      by_cases same : k = k' <;> simp [setItem, same]
    · simp only [setItem, if_neg here, List.map_cons, List.mem_cons, ih]
      tauto

theorem lookup_map_of_nodup {κ α β : Type} [BEq κ] [LawfulBEq κ] (key : α → κ) (g : α → β) {xs : List α}
    {y : α} (mem : y ∈ xs) (distinct : (xs.map key).Nodup) :
    (xs.map fun x => (key x, g x)).lookup (key y) = some (g y) := by
  induction xs with
  | nil => cases mem
  | cons x rest ih =>
    obtain ⟨fresh, distinct⟩ := List.nodup_cons.mp distinct
    rcases List.mem_cons.mp mem with rfl | later
    · simp
    · have other : (key y == key x) = false :=
        beq_false_of_ne fun same => fresh (same ▸ List.mem_map_of_mem later)
      simp [List.lookup, other, ih later distinct]

section Loops

variable {ε α β : Type}

theorem mapM_ok {f : α → Except ε β} {g : α → β} (xs : List α) (ok : ∀ x ∈ xs, f x = .ok (g x)) :
    xs.mapM f = .ok (xs.map g) := by
  induction xs with
  | nil => rfl
  | cons x rest ih =>
    simp only [List.mapM_cons, ok x List.mem_cons_self,
      ih fun y mem => ok y (List.mem_cons_of_mem x mem)]
    rfl

theorem mapM_exists_ok {f : α → Except ε β} (xs : List α) (ok : ∀ x ∈ xs, ∃ b, f x = .ok b) :
    ∃ bs, xs.mapM f = .ok bs := by
  induction xs with
  | nil => exact ⟨[], rfl⟩
  | cons x rest ih =>
    obtain ⟨b, first⟩ := ok x List.mem_cons_self
    obtain ⟨bs, more⟩ := ih fun y mem => ok y (List.mem_cons_of_mem x mem)
    refine ⟨b :: bs, ?_⟩
    simp only [List.mapM_cons, first, more]
    rfl

theorem length_of_mapM_ok {f : α → Except ε β} {xs : List α} {ys : List β}
    (ok : xs.mapM f = .ok ys) : ys.length = xs.length := by
  induction xs generalizing ys with
  | nil => cases ok; rfl
  | cons x rest ih =>
    rw [List.mapM_cons] at ok
    obtain ⟨y, -, ok⟩ := Except.bind_eq_ok.mp ok
    obtain ⟨ys', mapped, ok⟩ := Except.bind_eq_ok.mp ok
    cases ok
    simp [ih mapped]

theorem foldlM_invariant {f : β → α → Except ε β} (P : β → Prop) {xs : List α}
    (step : ∀ acc x acc', x ∈ xs → P acc → f acc x = .ok acc' → P acc') {init r : β}
    (start : P init) (ok : xs.foldlM f init = .ok r) : P r := by
  induction xs generalizing init with
  | nil => cases ok; exact start
  | cons x rest ih =>
    rw [List.foldlM_cons] at ok
    obtain ⟨acc, first, ok⟩ := Except.bind_eq_ok.mp ok
    exact ih (fun acc y acc' mem => step acc y acc' (List.mem_cons_of_mem x mem))
      (step init x acc List.mem_cons_self start first) ok

theorem foldlM_append_ok {f : α → Except ε (List β)} {g : α → List β} (xs : List α)
    (acc : List β) (ok : ∀ x ∈ xs, f x = .ok (g x)) :
    xs.foldlM (fun acc x => do let more ← f x; pure (acc ++ more)) acc =
      .ok (acc ++ xs.flatMap g) := by
  induction xs generalizing acc with
  | nil => simp
  | cons x rest ih =>
    simp only [List.foldlM_cons, ok x List.mem_cons_self]
    rw [Except.ok_bind, Except.pure_eq_ok, Except.ok_bind,
      ih _ fun y mem => ok y (List.mem_cons_of_mem x mem)]
    simp

theorem foldlM_setItem_ok {κ : Type} [DecidableEq κ] {f : α → Except ε β} {g : α → β}
    (key : α → κ) (xs : List α) (d : List (κ × β)) (ok : ∀ x ∈ xs, f x = .ok (g x))
    (distinct : (d.map Prod.fst ++ xs.map key).Nodup) :
    xs.foldlM (fun d x => do let v ← f x; pure (setItem (key x) v d)) d =
      .ok (d ++ xs.map fun x => (key x, g x)) := by
  induction xs generalizing d with
  | nil => simp
  | cons x rest ih =>
    have fresh : key x ∉ d.map Prod.fst := fun mem =>
      (List.nodup_append.mp distinct).2.2 _ mem _ (List.mem_map_of_mem List.mem_cons_self) rfl
    have distinct' : ((d ++ [(key x, g x)]).map Prod.fst ++ rest.map key).Nodup := by
      simpa [List.append_assoc] using distinct
    simp only [List.foldlM_cons, ok x List.mem_cons_self]
    rw [Except.ok_bind, Except.pure_eq_ok, Except.ok_bind, setItem_of_not_mem _ fresh,
      ih _ (fun y mem => ok y (List.mem_cons_of_mem x mem)) distinct']
    simp

theorem foldlM_bind_ok {κ : Type} {f : α → Except ε κ} {h : κ → α → β → β} {xs : List α} {d r : β}
    (ok : xs.foldlM (fun d x => do let k ← f x; pure (h k x d)) d = .ok r) :
    ∀ x ∈ xs, ∃ k, f x = .ok k := by
  induction xs generalizing d with
  | nil => intro x mem; cases mem
  | cons y rest ih =>
    rw [List.foldlM_cons] at ok
    obtain ⟨d', first, ok⟩ := Except.bind_eq_ok.mp ok
    obtain ⟨k, called, -⟩ := Except.bind_eq_ok.mp first
    intro x mem
    rcases List.mem_cons.mp mem with rfl | later
    · exact ⟨k, called⟩
    · exact ih ok x later

theorem foldlM_bind_eq {κ : Type} {f : α → Except ε κ} {g : α → κ} {h : κ → α → β → β} (xs : List α)
    (d : β) (ok : ∀ x ∈ xs, f x = .ok (g x)) :
    xs.foldlM (fun d x => do let k ← f x; pure (h k x d)) d = .ok (xs.foldl (fun d x => h (g x) x d) d) := by
  induction xs generalizing d with
  | nil => rfl
  | cons x rest ih =>
    simp only [List.foldlM_cons, ok x List.mem_cons_self, List.foldl_cons]
    exact ih _ fun y mem => ok y (List.mem_cons_of_mem x mem)

end Loops

section Group

variable {κ α : Type} [DecidableEq κ]

theorem lookup_appendItem (key k : κ) (v : α) (d : List (κ × List α)) :
    (appendItem key v d).lookup k =
      if key = k then some ((d.lookup k).getD [] ++ [v]) else d.lookup k := by
  induction d with
  | nil =>
    by_cases same : key = k
    · subst same; simp [appendItem]
    · have other : (k == key) = false := beq_false_of_ne (Ne.symm same)
      simp [appendItem, List.lookup, same, other]
  | cons item rest ih =>
    obtain ⟨k', vs⟩ := item
    by_cases here : k' = key
    · subst here
      by_cases same : k' = k
      · subst same; simp [appendItem]
      · have other : (k == k') = false := beq_false_of_ne (Ne.symm same)
        simp [appendItem, List.lookup, same, other]
    · by_cases found : k = k'
      · subst found
        simp [appendItem, here, Ne.symm here]
      · have other : (k == k') = false := beq_false_of_ne found
        simp only [appendItem, if_neg here, List.lookup, other, ih]

theorem keys_appendItem (key : κ) (v : α) (d : List (κ × List α)) :
    (appendItem key v d).map Prod.fst =
      if key ∈ d.map Prod.fst then d.map Prod.fst else d.map Prod.fst ++ [key] := by
  induction d with
  | nil => simp [appendItem]
  | cons item rest ih =>
    obtain ⟨k', vs⟩ := item
    by_cases here : k' = key
    · simp [appendItem, here]
    · by_cases later : key ∈ rest.map Prod.fst
      · simp [appendItem, here, ih, later]
      · simp [appendItem, here, ih, later, Ne.symm here]

theorem keys_setItem_of_mem {key : κ} (v : α) {d : List (κ × α)} (present : key ∈ d.map Prod.fst) :
    (setItem key v d).map Prod.fst = d.map Prod.fst := by
  induction d with
  | nil => cases present
  | cons item rest ih =>
    obtain ⟨k, w⟩ := item
    by_cases here : k = key
    · simp [setItem, here]
    · have later : key ∈ rest.map Prod.fst := by simpa [Ne.symm here] using present
      simp [setItem, here, ih later]

theorem lookup_setItem [inst : BEq κ] [LawfulBEq κ] (key k : κ) (v : α) (d : List (κ × α)) :
    (setItem key v d).lookup k = if key = k then some v else d.lookup k := by
  obtain rfl : inst = instBEqOfDecidableEq := lawful_beq_subsingleton _ _
  induction d with
  | nil =>
    by_cases same : key = k
    · subst same; simp [setItem]
    · have other : (k == key) = false := beq_false_of_ne (Ne.symm same)
      simp [setItem, List.lookup, same, other]
  | cons item rest ih =>
    obtain ⟨k', w⟩ := item
    by_cases here : k' = key
    · subst here
      by_cases same : k' = k
      · subst same; simp [setItem]
      · have other : (k == k') = false := beq_false_of_ne (Ne.symm same)
        simp [setItem, List.lookup, same, other]
    · by_cases found : k = k'
      · subst found
        simp [setItem, here, Ne.symm here]
      · have other : (k == k') = false := beq_false_of_ne found
        simp only [setItem, if_neg here, List.lookup, other, ih]

theorem lookup_foldl_setItem [BEq κ] [LawfulBEq κ] (g : κ → α) (d : List (κ × α)) {xs : List κ} {k : κ}
    (mem : k ∈ xs) : (xs.foldl (fun d x => setItem x (g x) d) d).lookup k = some (g k) := by
  induction xs using List.reverseRecOn with
  | nil => cases mem
  | append_singleton xs x ih =>
    rw [List.foldl_append, List.foldl_cons, List.foldl_nil, lookup_setItem]
    by_cases same : x = k
    · subst same; simp
    · rw [if_neg same]
      exact ih (by simpa [Ne.symm same] using mem)

theorem lookup_of_mem {d : List (κ × α)} {kv : κ × α} (mem : kv ∈ d) (distinct : (d.map Prod.fst).Nodup) :
    d.lookup kv.1 = some kv.2 := by
  induction d with
  | nil => cases mem
  | cons item rest ih =>
    obtain ⟨fresh, distinct⟩ := List.nodup_cons.mp distinct
    rcases List.mem_cons.mp mem with rfl | later
    · simp [List.lookup]
    · have other : (kv.1 == item.1) = false :=
        beq_false_of_ne fun same => fresh (same ▸ List.mem_map_of_mem later)
      simp [List.lookup, other, ih later distinct]

theorem lookup_of_not_mem {d : List (κ × α)} {k : κ} (absent : k ∉ d.map Prod.fst) :
    d.lookup k = none := by
  induction d with
  | nil => rfl
  | cons item rest ih =>
    have other : (k == item.1) = false := beq_false_of_ne fun same => absent (by simp [same])
    simp only [List.map_cons, List.mem_cons, not_or] at absent
    simp [List.lookup, other, ih absent.2]

theorem lookup_perm {d d' : List (κ × α)} (perm : d.Perm d') (distinct : (d.map Prod.fst).Nodup)
    (k : κ) : d.lookup k = d'.lookup k := by
  by_cases present : k ∈ d.map Prod.fst
  · obtain ⟨kv, mem, rfl⟩ := List.mem_map.mp present
    rw [lookup_of_mem mem distinct,
      lookup_of_mem (perm.subset mem) ((perm.map Prod.fst).nodup_iff.mp distinct)]
  · rw [lookup_of_not_mem present,
      lookup_of_not_mem fun mem => present ((perm.map Prod.fst).mem_iff.mpr mem)]

theorem lookup_foldl_setItem_items (items d : List (κ × α)) (distinct : (items.map Prod.fst).Nodup)
    (k : κ) : (items.foldl (fun d kv => setItem kv.1 kv.2 d) d).lookup k = (items.lookup k).or (d.lookup k) := by
  induction items generalizing d with
  | nil => rfl
  | cons kv rest ih =>
    obtain ⟨fresh, distinct⟩ := List.nodup_cons.mp distinct
    rw [List.foldl_cons, ih _ distinct, lookup_setItem]
    by_cases same : kv.1 = k
    · subst same
      simp [List.lookup, lookup_of_not_mem fresh]
    · have other : (k == kv.1) = false := beq_false_of_ne (Ne.symm same)
      simp [List.lookup, other, same]

theorem head?_values_filter_ne {d : List (κ × α)} {a b : κ} (differ : a ≠ b)
    (keys : ∀ kv ∈ d, kv.1 = a ∨ kv.1 = b) :
    ((d.filter fun kv => kv.1 ≠ a).map Prod.snd).head? = d.lookup b := by
  induction d with
  | nil => rfl
  | cons item rest ih =>
    obtain ⟨k, v⟩ := item
    have later := ih fun kv mem => keys kv (List.mem_cons_of_mem _ mem)
    rcases keys (k, v) List.mem_cons_self with rfl | rfl
    · have skipped : (b == k) = false := beq_false_of_ne (Ne.symm differ)
      rw [List.filter_cons_of_neg (by simp)]
      simp only [List.lookup, skipped]
      exact later
    · simp [List.lookup, Ne.symm differ]

variable {β : Type} (key : β → κ)

theorem lookup_group (xs : List β) (k : κ) :
    (xs.foldl (fun d x => appendItem (key x) x d) []).lookup k =
      if ∃ x ∈ xs, key x = k then some (xs.filter fun x => key x = k) else none := by
  induction xs using List.reverseRecOn with
  | nil => simp
  | append_singleton xs x ih =>
    rw [List.foldl_append, List.foldl_cons, List.foldl_nil, lookup_appendItem, ih]
    by_cases same : key x = k
    · by_cases before : ∃ y ∈ xs, key y = k
      · simp [before, same]
      · have none : xs.filter (fun y => key y = k) = [] := by
          simpa [List.filter_eq_nil_iff] using before
        simp [before, same, none]
    · simp [same]

theorem keys_group (xs : List β) :
    ((xs.foldl (fun d x => appendItem (key x) x d) []).map Prod.fst).Nodup ∧
      ∀ k, k ∈ (xs.foldl (fun d x => appendItem (key x) x d) []).map Prod.fst ↔ ∃ x ∈ xs, key x = k := by
  induction xs using List.reverseRecOn with
  | nil => simp
  | append_singleton xs x ih =>
    obtain ⟨distinct, mem⟩ := ih
    rw [List.foldl_append, List.foldl_cons, List.foldl_nil, keys_appendItem]
    split_ifs with old
    · refine ⟨distinct, fun k => ?_⟩
      rw [mem]
      constructor
      · rintro ⟨y, here, rfl⟩; exact ⟨y, List.mem_append_left _ here, rfl⟩
      · rintro ⟨y, here, rfl⟩
        rcases List.mem_append.mp here with before | last
        · exact ⟨y, before, rfl⟩
        · rw [List.mem_singleton.mp last]; exact (mem _).mp old
    · refine ⟨List.nodup_append.mpr ⟨distinct, List.nodup_singleton _, ?_⟩, fun k => ?_⟩
      · intro a inKeys b single same
        rw [List.mem_singleton.mp single] at same
        exact old (same ▸ inKeys)
      · simp [mem, eq_comm]

theorem length_group {xs : List β} {ks : List κ} (distinctKs : ks.Nodup)
    (sameKeys : ∀ k, (∃ x ∈ xs, key x = k) ↔ k ∈ ks) :
    (xs.foldl (fun d x => appendItem (key x) x d) []).length = ks.length := by
  obtain ⟨distinct, memKeys⟩ := keys_group key xs
  have perm := (List.perm_ext_iff_of_nodup distinct distinctKs).mpr fun k => (memKeys k).trans (sameKeys k)
  simpa using perm.length_eq

theorem values_group {xs : List β} {kv : κ × List β}
    (mem : kv ∈ xs.foldl (fun d x => appendItem (key x) x d) []) :
    kv.2 = xs.filter fun x => key x = kv.1 := by
  have found := lookup_of_mem mem (keys_group key xs).1
  rw [lookup_group] at found
  split_ifs at found
  exact (Option.some.inj found).symm

/-! A dictionary of counts is a grouping with only the sizes of its values kept. -/

def counts (d : List (κ × List α)) : List (κ × Nat) := d.map fun kv => (kv.1, kv.2.length)

theorem countItem_counts (k : κ) (v : α) (d : List (κ × List α)) :
    countItem k (counts d) = counts (appendItem k v d) := by
  induction d with
  | nil => rfl
  | cons item rest ih =>
    obtain ⟨k', vs⟩ := item
    by_cases here : k' = k
    · simp [counts, countItem, appendItem, here]
    · simpa [counts, countItem, appendItem, here] using ih

theorem lookup_counts (d : List (κ × List α)) (k : κ) : (counts d).lookup k = (d.lookup k).map List.length := by
  induction d with
  | nil => rfl
  | cons item rest ih =>
    by_cases here : k = item.1
    · simp [counts, List.lookup, here]
    · have other : (k == item.1) = false := beq_false_of_ne here
      simpa [counts, List.lookup, other] using ih

theorem foldl_countItem (xs : List κ) (d : List (κ × List κ)) :
    xs.foldl (fun d x => countItem x d) (counts d) = counts (xs.foldl (fun d x => appendItem x x d) d) := by
  induction xs generalizing d with
  | nil => rfl
  | cons x xs ih => rw [List.foldl_cons, List.foldl_cons, countItem_counts x x, ih]

theorem lookup_count [inst : BEq κ] [LawfulBEq κ] (xs : List κ) (k : κ) :
    (xs.foldl (fun d x => countItem x d) []).lookup k = if k ∈ xs then some (xs.count k) else none := by
  -- a lawful test is the test of the keys' equality
  obtain rfl : inst = instBEqOfDecidableEq := lawful_beq_subsingleton _ _
  have grouped : (xs.foldl (fun d x => appendItem x x d) []).lookup k =
      if ∃ x ∈ xs, x = k then some (xs.filter fun x => x = k) else none := lookup_group (fun x => x) xs k
  rw [show ([] : List (κ × Nat)) = counts [] from rfl, foldl_countItem, lookup_counts, grouped]
  by_cases mem : k ∈ xs
  · simp [mem, List.count_eq_length_filter, Bool.beq_eq_decide_eq]
  · simp [mem]

theorem keys_count (xs : List κ) :
    ((xs.foldl (fun d x => countItem x d) []).map Prod.fst).Nodup ∧
      ∀ k, k ∈ (xs.foldl (fun d x => countItem x d) []).map Prod.fst ↔ k ∈ xs := by
  have grouped : ((xs.foldl (fun d x => appendItem x x d) []).map Prod.fst).Nodup ∧
      ∀ k, k ∈ (xs.foldl (fun d x => appendItem x x d) []).map Prod.fst ↔ ∃ x ∈ xs, x = k :=
    keys_group (fun x => x) xs
  have sameKeys : ∀ d : List (κ × List κ), (counts d).map Prod.fst = d.map Prod.fst := fun d => by
    simp [counts, Function.comp_def]
  rw [show ([] : List (κ × Nat)) = counts [] from rfl, foldl_countItem, sameKeys]
  simpa using grouped

end Group

section Int

theorem dropWhile_of_forall {chars s : List Char} (none : ∀ c ∈ s, c ∉ chars) :
    s.dropWhile chars.contains = s := by
  cases s with
  | nil => rfl
  | cons c rest =>
    have kept : c ∉ chars := none c List.mem_cons_self
    simp [kept]

theorem strip_of_forall {chars s : List Char} (none : ∀ c ∈ s, c ∉ chars) : strip chars s = s := by
  rw [strip, dropWhile_of_forall none, dropWhile_of_forall (by simpa using none), List.reverse_reverse]

theorem strip_cons_of_mem {chars s : List Char} {c : Char} (mem : c ∈ chars) :
    strip chars (c :: s) = strip chars s := by
  simp [strip, mem]

theorem not_blank_of_isDigit {c : Char} (digit : c.isDigit) : c ∉ blanks := by
  intro blank
  simp only [blanks, List.mem_cons, List.not_mem_nil, or_false] at blank
  rcases blank with rfl | rfl | rfl | rfl | rfl | rfl <;> revert digit <;> decide

theorem isDigit_of_mem_zeros_toDigits {k m : Nat} {c : Char}
    (mem : c ∈ List.replicate k '0' ++ Nat.toDigits 10 m) : c.isDigit := by
  rcases List.mem_append.mp mem with zero | digit
  · rw [List.eq_of_mem_replicate zero]
    decide
  · exact Nat.isDigit_of_mem_toDigits (by decide) (by decide) digit

theorem decimalValue_zeros_toDigits (k m : Nat) :
    decimalValue (List.replicate k '0' ++ Nat.toDigits 10 m) = .ok m := by
  have nonempty : List.replicate k '0' ++ Nat.toDigits 10 m ≠ [] := by
    simp [Nat.toDigits_ne_nil]
  rw [decimalValue, if_pos ⟨nonempty, List.all_eq_true.mpr fun _ => isDigit_of_mem_zeros_toDigits⟩,
    CConv.readDigits_zeros 10 k (by decide),
    CConv.readDigits_toDigits (show 2 ≤ 10 by decide) (show 10 ≤ 16 by decide)]

theorem int_of_digits {c : Char} {rest : List Char} (digits : ∀ d ∈ c :: rest, d.isDigit) :
    int (c :: rest) = (fun n : Nat => (n : Int)) <$> decimalValue (c :: rest) := by
  have digit := digits c List.mem_cons_self
  unfold int
  rw [strip_of_forall fun d mem => not_blank_of_isDigit (digits d mem)]
  split
  · next same => cases same; simp at digit
  · next same => cases same; simp at digit
  · rfl

theorem int_decimal (n : Nat) : int (Printf.decimal n) = .ok n := by
  obtain ⟨c, rest, shape⟩ : ∃ c rest, Nat.toDigits 10 n = c :: rest :=
    List.exists_cons_of_ne_nil (Nat.toDigits_ne_nil)
  have digits : ∀ d ∈ c :: rest, d.isDigit := fun d mem =>
    Nat.isDigit_of_mem_toDigits (by decide) (by decide) (shape ▸ mem)
  have value := decimalValue_zeros_toDigits 0 n
  simp only [List.replicate_zero, List.nil_append, shape] at value
  have nonneg : ¬ (n : Int) < 0 := by omega
  simp only [Printf.decimal, nonneg, if_false, Int.toNat_natCast, shape]
  rw [int_of_digits digits, value]
  rfl

theorem int_zeroPad2 (n : Int) : int (Printf.zeroPad2 n) = .ok n := by
  unfold Printf.zeroPad2
  split
  · next negative =>
    have plain : ∀ d ∈ '-' :: (List.replicate (1 - (Nat.toDigits 10 n.natAbs).length) '0' ++
        Nat.toDigits 10 n.natAbs), d ∉ blanks := by
      intro d mem
      rcases List.mem_cons.mp mem with rfl | digit
      · decide
      · exact not_blank_of_isDigit (isDigit_of_mem_zeros_toDigits digit)
    rw [int, strip_of_forall plain]
    simp only [decimalValue_zeros_toDigits]
    exact congrArg Except.ok (show -(n.natAbs : Int) = n by omega)
  · next nonnegative =>
    obtain ⟨c, rest, shape⟩ : ∃ c rest,
        List.replicate (2 - (Nat.toDigits 10 n.toNat).length) '0' ++ Nat.toDigits 10 n.toNat =
          c :: rest := List.exists_cons_of_ne_nil (by simp [Nat.toDigits_ne_nil])
    have digits : ∀ d ∈ c :: rest, d.isDigit := fun d mem =>
      isDigit_of_mem_zeros_toDigits (shape ▸ mem)
    rw [shape, int_of_digits digits, ← shape, decimalValue_zeros_toDigits]
    exact congrArg Except.ok (show (n.toNat : Int) = n by omega)

end Int

section Text

theorem lines_intercalate {ls : List (List Char)} (nonempty : ls ≠ []) (plain : ∀ l ∈ ls, '\n' ∉ l) :
    lines (['\n'].intercalate ls ++ ['\n']) = ls := by
  have ends : (['\n'].intercalate ls ++ ['\n']).getLast? = some '\n' := by simp
  rw [lines, if_neg (by simp), if_pos ends, List.dropLast_concat,
    List.splitOn_intercalate _ plain nonempty]

theorem splitColonSpace_cons {c : Char} (s : List Char) (other : c ≠ ':') :
    splitColonSpace (c :: s) =
      match splitColonSpace s with
      | piece :: pieces => (c :: piece) :: pieces
      | [] => [[c]] := by
  rw [splitColonSpace.eq_def]
  split
  · next same => cases same; exact absurd rfl other
  · next same => cases same; rfl
  · next same => cases same

theorem splitColonSpace_of_not_mem {s : List Char} (plain : ':' ∉ s) : splitColonSpace s = [s] := by
  induction s with
  | nil => rfl
  | cons c rest ih =>
    have other : c ≠ ':' := fun same => plain (same ▸ List.mem_cons_self)
    rw [splitColonSpace_cons rest other, ih fun mem => plain (List.mem_cons_of_mem c mem)]

theorem intBase16_cons_of_blank {c : Char} (s : List Char) (blank : c ∈ blanks) :
    intBase16 (c :: s) = intBase16 s := by
  simp only [intBase16, strip_cons_of_mem blank]

theorem splitColonSpace_append {a : List Char} (b : List Char) (plain : ':' ∉ a) :
    splitColonSpace (a ++ ':' :: ' ' :: b) = a :: splitColonSpace b := by
  induction a with
  | nil => simp [splitColonSpace]
  | cons c rest ih =>
    have other : c ≠ ':' := fun same => plain (same ▸ List.mem_cons_self)
    rw [List.cons_append, splitColonSpace_cons _ other, ih fun mem => plain (List.mem_cons_of_mem c mem)]

end Text

section Order

variable {α : Type} [DecidableEq α] {lt : α → α → Bool}

/-- Python's `<` on sequences, lists and tuples alike: the first elements that differ decide, by
`lt`, and a proper prefix is the smaller. -/
def seqLt (lt : α → α → Bool) : List α → List α → Bool
  | _, [] => false
  | [], _ :: _ => true
  | a :: as, b :: bs => if a = b then seqLt lt as bs else lt a b

/-- `max(xs)`: the first of the largest elements; `ValueError` for an empty list. -/
def max (lt : α → α → Bool) : List α → Except PyError α
  | [] => .error .valueError
  | x :: rest => .ok (rest.foldl (fun m y => if lt m y then y else m) x)

/-- `xs.index(x)`: the position of the first element equal to `x`; `ValueError` when none is. -/
def indexOf (xs : List α) (x : α) : Except PyError Nat :=
  match xs.idxOf? x with
  | some i => .ok i
  | none => .error .valueError

variable (irrefl : ∀ a, lt a a = false) (trans : ∀ {a b c}, lt a b = true → lt b c = true → lt a c = true)

theorem seqLt_irrefl (xs : List α) : seqLt lt xs xs = false := by
  induction xs with
  | nil => rfl
  | cons a rest ih => simp [seqLt, ih]

include irrefl trans in
theorem seqLt_trans : ∀ {xs ys zs : List α}, seqLt lt xs ys = true → seqLt lt ys zs = true →
    seqLt lt xs zs = true
  | _, [], _, below, _ => by simp [seqLt] at below
  | _, _ :: _, [], _, above => by simp [seqLt] at above
  | [], _ :: _, _ :: _, _, _ => rfl
  | a :: as, b :: bs, c :: cs, below, above => by
    simp only [seqLt] at below above ⊢
    by_cases ab : a = b <;> by_cases bc : b = c
    · subst ab bc
      simp only [if_true] at below above ⊢
      exact seqLt_trans below above
    · subst ab
      simpa [bc] using above
    · subst bc
      simpa [ab] using below
    · simp only [ab, bc, if_false] at below above
      -- the first elements differ, and `a = c` would make `lt a a`
      have ac : a ≠ c := fun same => by
        subst same
        have := trans below above
        rw [irrefl] at this
        cases this
      simp only [ac, if_false]
      exact trans below above

omit [DecidableEq α] in
include irrefl trans in
theorem foldl_max (rest : List α) (init : α) :
    let largest := rest.foldl (fun m y => if lt m y then y else m) init
    (largest = init ∨ lt init largest = true) ∧ largest ∈ init :: rest ∧
      ∀ y ∈ init :: rest, lt largest y = false := by
  induction rest generalizing init with
  | nil => simp [irrefl]
  | cons z rest ih =>
    simp only [List.foldl_cons]
    by_cases up : lt init z = true
    · obtain ⟨grows, mem, top⟩ := ih z
      simp only [up, if_true]
      generalize rest.foldl (fun m y => if lt m y then y else m) z = largest at grows mem top ⊢
      refine ⟨.inr ?_, List.mem_cons_of_mem _ mem, ?_⟩
      · rcases grows with same | above
        · rw [same]
          exact up
        · exact trans up above
      · intro y mem'
        rcases List.mem_cons.mp mem' with rfl | later
        · -- what is above `largest` is below `z`, which nothing is above
          cases below : lt largest y with
          | false => rfl
          | true =>
            have := top z List.mem_cons_self
            rw [trans below up] at this
            cases this
        · exact top y later
    · have down : lt init z = false := by simpa using up
      obtain ⟨grows, mem, top⟩ := ih init
      simp only [down, Bool.false_eq_true, if_false]
      generalize rest.foldl (fun m y => if lt m y then y else m) init = largest at grows mem top ⊢
      refine ⟨grows, ?_, ?_⟩
      · rcases List.mem_cons.mp mem with rfl | later
        · exact List.mem_cons_self
        · exact List.mem_cons_of_mem _ (List.mem_cons_of_mem _ later)
      · intro y mem'
        rcases List.mem_cons.mp mem' with rfl | mem''
        · exact top _ List.mem_cons_self
        rcases List.mem_cons.mp mem'' with rfl | later
        · -- `z` was not above `init`, and `largest` is `init` or above it
          cases below : lt largest y with
          | false => rfl
          | true =>
            rcases grows with same | above
            · rw [same, down] at below
              cases below
            · rw [trans above below] at down
              cases down
        · exact top y (List.mem_cons_of_mem _ later)

omit [DecidableEq α] in
include irrefl trans in
theorem max_spec {xs : List α} {m : α} (found : max lt xs = .ok m) :
    m ∈ xs ∧ ∀ y ∈ xs, lt m y = false := by
  cases xs with
  | nil => cases found
  | cons x rest =>
    cases found
    obtain ⟨-, mem, top⟩ := foldl_max irrefl trans rest x
    exact ⟨mem, top⟩

omit [DecidableEq α] in
theorem indexOf_eq [DecidableEq α] {xs : List α} {x : α} {i : Nat} (found : indexOf xs x = .ok i) :
    xs[i]? = some x ∧ ∀ j < i, xs[j]? ≠ some x := by
  unfold indexOf at found
  split at found
  · next at_i =>
    cases found
    obtain ⟨inside, at_i, before⟩ := List.idxOf?_eq_some_iff.mp at_i
    refine ⟨by simp [inside, at_i], fun j earlier same => ?_⟩
    have inside' : j < xs.length := by omega
    exact before j earlier (by simpa [inside'] using same)
  · cases found

end Order

end Python
