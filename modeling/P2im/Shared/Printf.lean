import Mathlib

set_option autoImplicit false

/-!
# Printed numbers

The conversions of C's `printf` and Python's `%` operator that the model files and input
names use, on text as a list of characters.
-/

namespace Printf

/-- `%d` of an integer. -/
def decimal (n : Int) : List Char :=
  if n < 0 then '-' :: Nat.toDigits 10 n.natAbs else Nat.toDigits 10 n.toNat

/-- `%x` of an unsigned value: lowercase hexadecimal digits, no padding. -/
def hex (n : Nat) : List Char := Nat.toDigits 16 n

/-- `%02d` of an integer: padded with zeros to two characters, the sign counted. -/
def zeroPad2 (n : Int) : List Char :=
  if n < 0 then
    let digits := Nat.toDigits 10 n.natAbs
    '-' :: (List.replicate (1 - digits.length) '0' ++ digits)
  else
    let digits := Nat.toDigits 10 n.toNat
    List.replicate (2 - digits.length) '0' ++ digits

/-- Python's `str.zfill(width)`: zeros on the left up to `width` characters, after a leading
sign if there is one. -/
def zfill (width : Nat) : List Char → List Char
  | c :: rest =>
    if c = '+' ∨ c = '-' then c :: (List.replicate (width - (rest.length + 1)) '0' ++ rest)
    else List.replicate (width - (rest.length + 1)) '0' ++ c :: rest
  | [] => List.replicate width '0'

theorem zfill_decimal (n : Int) : zfill 2 (decimal n) = zeroPad2 n := by
  unfold decimal zeroPad2
  split
  · have width : 2 - ((Nat.toDigits 10 n.natAbs).length + 1) = 1 - (Nat.toDigits 10 n.natAbs).length := by
      omega
    rw [zfill, if_pos (Or.inr rfl), width]
  · obtain ⟨c, rest, shape⟩ := List.exists_cons_of_ne_nil (Nat.toDigits_ne_nil (n := n.toNat) (b := 10))
    have isDigit : c.isDigit := by
      apply Nat.isDigit_of_mem_toDigits (b := 10) (n := n.toNat) (by decide) (by decide)
      rw [shape]
      exact List.mem_cons_self
    have sign : ¬(c = '+' ∨ c = '-') := by
      rintro (rfl | rfl) <;> revert isDigit <;> decide
    rw [shape, zfill, if_neg sign]
    rfl

theorem mem_zeroPad2 {n : Int} {c : Char} (mem : c ∈ zeroPad2 n) : c = '-' ∨ c.isDigit := by
  have digits : ∀ m : Nat, ∀ k : Nat, c ∈ List.replicate k '0' ++ Nat.toDigits 10 m → c.isDigit :=
    fun m k mem => by
      rcases List.mem_append.mp mem with zero | digit
      · rw [List.eq_of_mem_replicate zero]; decide
      · exact Nat.isDigit_of_mem_toDigits (by decide) (by decide) digit
  unfold zeroPad2 at mem
  split at mem
  · rcases List.mem_cons.mp mem with sign | rest
    · exact .inl sign
    · exact .inr (digits _ _ rest)
  · exact .inr (digits _ _ mem)

theorem isDigit_of_mem_decimal {n : Nat} {c : Char} (mem : c ∈ decimal n) : c.isDigit := by
  have nonneg : ¬(n : Int) < 0 := by omega
  simp only [decimal, nonneg, if_false, Int.toNat_natCast] at mem
  exact Nat.isDigit_of_mem_toDigits (by decide) (by decide) mem

theorem append_sep_inj {α : Type} {a : α} {s₁ s₂ d₁ d₂ : List α} (notIn₁ : a ∉ d₁)
    (notIn₂ : a ∉ d₂) (same : s₁ ++ a :: d₁ = s₂ ++ a :: d₂) : s₁ = s₂ ∧ d₁ = d₂ := by
  -- from the end, the first separator closes the second part
  have front : ∀ {x₁ x₂ z₁ z₂ : List α}, a ∉ x₁ → a ∉ x₂ → x₁ ++ a :: z₁ = x₂ ++ a :: z₂ →
      x₁ = x₂ ∧ z₁ = z₂ := by
    intro x₁
    induction x₁ with
    | nil =>
      rintro (_ | ⟨b, x₂⟩) z₁ z₂ - notIn joined
      · exact ⟨rfl, (List.cons.inj joined).2⟩
      · exact absurd ((List.cons.inj joined).1 ▸ List.mem_cons_self) notIn
    | cons b x₁ ih =>
      rintro (_ | ⟨c, x₂⟩) z₁ z₂ notIn₁ notIn₂ joined
      · exact absurd ((List.cons.inj joined).1 ▸ List.mem_cons_self) notIn₁
      · obtain ⟨rfl, rest⟩ := List.cons.inj joined
        obtain ⟨rfl, rfl⟩ := ih (fun mem => notIn₁ (List.mem_cons_of_mem b mem))
          (fun mem => notIn₂ (List.mem_cons_of_mem b mem)) rest
        exact ⟨rfl, rfl⟩
  have reversed : d₁.reverse ++ a :: s₁.reverse = d₂.reverse ++ a :: s₂.reverse := by
    simpa using congrArg List.reverse same
  obtain ⟨ends, starts⟩ := front (by simpa using notIn₁) (by simpa using notIn₂) reversed
  exact ⟨List.reverse_injective starts, List.reverse_injective ends⟩

end Printf
