import Mathlib

set_option autoImplicit false

/-!
# Choices made by nested loops

Two enumerations that nested loops produce. A loop over `i < p` around a recursive one over the
numbers below `i` lists the decreasing lists of `s` numbers below `p`, one for each `s`-subset;
`n` nested loops over one list, the outer loop choosing the first item, list its sequences of
length `n`. The bits set in the sum of the powers of two of a decreasing list are its entries.
Last, text joined by a loop that puts a separator after every piece and then drops the last
character.
-/

namespace Choices

def decreasing : Nat → Nat → List (List Nat)
  | _, 0 => [[]]
  | p, s + 1 => (List.range p).flatMap fun i => (decreasing i s).map (i :: ·)

def sequences {α : Type} (xs : List α) : Nat → List (List α)
  | 0 => [[]]
  | n + 1 => xs.flatMap fun x => (sequences xs n).map (x :: ·)

section Decreasing

theorem decreasing_succ (p s : Nat) :
    decreasing (p + 1) (s + 1) = decreasing p (s + 1) ++ (decreasing p s).map (p :: ·) := by
  simp [decreasing, List.range_succ, List.flatMap_append]

theorem length_decreasing (p s : Nat) : (decreasing p s).length = p.choose s := by
  -- Pascal's rule, along the bound
  induction p generalizing s with
  | zero => cases s <;> simp [decreasing]
  | succ p ih =>
    cases s with
    | zero => simp [decreasing]
    | succ s =>
      rw [decreasing_succ, List.length_append, List.length_map, ih, ih, Nat.choose_succ_succ,
        Nat.add_comm]

theorem mem_decreasing {p s : Nat} {bs : List Nat} :
    bs ∈ decreasing p s ↔ bs.length = s ∧ bs.Pairwise (· > ·) ∧ ∀ b ∈ bs, b < p := by
  induction s generalizing p bs with
  | zero => cases bs <;> simp [decreasing]
  | succ s ih =>
    cases bs with
    | nil => simp [decreasing]
    | cons b rest =>
      simp only [decreasing, List.mem_flatMap, List.mem_range, List.mem_map, List.cons.injEq,
        List.length_cons, List.pairwise_cons, List.mem_cons, forall_eq_or_imp]
      constructor
      · rintro ⟨i, below, rest', mem, rfl, rfl⟩
        obtain ⟨length, decreasing, bounded⟩ := ih.mp mem
        exact ⟨by omega, ⟨bounded, decreasing⟩, below, fun b mem => by have := bounded b mem; omega⟩
      · rintro ⟨length, ⟨bounded, decreasing⟩, below, -⟩
        exact ⟨b, below, rest, ih.mpr ⟨by omega, decreasing, bounded⟩, rfl, rfl⟩

theorem nodup_decreasing (p s : Nat) : (decreasing p s).Nodup := by
  induction s generalizing p with
  | zero => simp [decreasing]
  | succ s ih =>
    refine List.nodup_flatMap.mpr ⟨fun i _ => (ih i).map List.cons_injective, ?_⟩
    -- the lists of two first numbers differ in their heads
    refine List.pairwise_lt_range.imp fun {i j} lt => ?_
    simp only [Function.onFun, List.disjoint_left, List.mem_map]
    rintro _ ⟨bs, -, rfl⟩ ⟨cs, -, same⟩
    exact absurd (List.cons.inj same).1 (by omega)

theorem testBit_sum_two_pow {bs : List Nat} (dec : bs.Pairwise (· > ·)) (i : Nat) :
    (bs.map (2 ^ ·)).sum.testBit i = true ↔ i ∈ bs := by
  have sorted : bs.reverse.SortedLT := List.Pairwise.sortedLT (List.pairwise_reverse.mpr dec)
  rw [← List.sum_reverse, ← List.map_reverse, ← Nat.mem_bitIndices,
    Nat.bitIndices_sum_map_two_pow sorted, List.mem_reverse]

theorem sum_two_pow_lt {bs : List Nat} {p : Nat} (dec : bs.Pairwise (· > ·))
    (below : ∀ b ∈ bs, b < p) : (bs.map (2 ^ ·)).sum < 2 ^ p := by
  apply Nat.lt_pow_two_of_testBit
  intro i above
  by_contra set
  have := below i ((testBit_sum_two_pow dec i).mp (by simpa using set))
  omega

end Decreasing

section Sequences

variable {α β : Type}

theorem length_sequences (xs : List α) (n : Nat) : (sequences xs n).length = xs.length ^ n := by
  induction n with
  | zero => rfl
  | succ n ih =>
    simp only [sequences, List.length_flatMap, List.length_map, ih, List.map_const',
      List.sum_replicate_nat, Nat.pow_succ, Nat.mul_comm]

theorem mem_sequences {xs : List α} {n : Nat} {ys : List α} :
    ys ∈ sequences xs n ↔ ys.length = n ∧ ∀ y ∈ ys, y ∈ xs := by
  induction n generalizing ys with
  | zero => cases ys <;> simp [sequences]
  | succ n ih =>
    cases ys with
    | nil => simp [sequences]
    | cons y rest => simp [sequences, ih, and_assoc, and_left_comm]

theorem nodup_sequences {xs : List α} (nodup : xs.Nodup) (n : Nat) : (sequences xs n).Nodup := by
  induction n with
  | zero => simp [sequences]
  | succ n ih =>
    refine List.nodup_flatMap.mpr ⟨fun x _ => ih.map List.cons_injective, ?_⟩
    refine nodup.pairwise_of_forall_ne fun x _ y _ ne => ?_
    simp only [Function.onFun, List.disjoint_left, List.mem_map]
    rintro _ ⟨rest, -, rfl⟩ ⟨rest', -, same⟩
    exact ne (List.cons.inj same).1.symm

theorem sequences_map (f : α → β) (xs : List α) (n : Nat) :
    sequences (xs.map f) n = (sequences xs n).map (List.map f) := by
  induction n with
  | zero => rfl
  | succ n ih => simp [sequences, ih, List.flatMap_map, List.map_flatMap, Function.comp_def]

end Sequences

section Join

variable {α β : Type}

theorem dropLast_flatMap_sep (f : α → List β) (sep : β) (xs : List α) :
    (xs.flatMap fun x => f x ++ [sep]).dropLast = [sep].intercalate (xs.map f) := by
  induction xs with
  | nil => rfl
  | cons x rest ih =>
    cases rest with
    | nil => simp
    | cons y rest' =>
      rw [List.flatMap_cons, List.append_assoc, List.dropLast_append_of_ne_nil (by simp),
        List.dropLast_append_of_ne_nil (by simp), ih]
      simp [List.intercalate_cons_cons]

theorem take_drop_flatten_blocks (g : α → List β) (w : Nat) (wide : ∀ x, (g x).length = w)
    (xs : List α) {k : Nat} {x : α} (at_k : xs[k]? = some x) :
    (((xs.map g).flatten).drop (w * k)).take w = g x := by
  induction xs generalizing k with
  | nil => cases at_k
  | cons y rest ih =>
    cases k with
    | zero =>
      cases at_k
      simp [← wide x]
    | succ k =>
      rw [List.map_cons, List.flatten_cons, Nat.mul_succ, Nat.add_comm, ← List.drop_drop,
        List.drop_left' (wide y)]
      exact ih (by simpa using at_k)

theorem length_flatten_blocks (g : α → List β) (w : Nat) (wide : ∀ x, (g x).length = w)
    (xs : List α) : ((xs.map g).flatten).length = w * xs.length := by
  simp only [List.length_flatten, List.map_map, Function.comp_def, wide, List.map_const',
    List.sum_replicate_nat, Nat.mul_comm]

end Join

end Choices
