import Mathlib
import P2im.Shared.Printf

set_option autoImplicit false

/-!
# Conversions of C integers

The conversions a C loader applies to the numbers of a text file, on a 64-bit host with a 32-bit
`int` and a 64-bit `long`: an integer converted to `int` keeps its low 32 bits as a two's
complement value, one converted to an unsigned 32-bit type its low 32 bits, and `strtol` reads a
`long`, which it clamps when the text holds a larger number.
-/

namespace CConv

def intMin : Int := -2 ^ 31
def intMax : Int := 2 ^ 31 - 1
def longMin : Int := -2 ^ 63
def longMax : Int := 2 ^ 63 - 1

/-- `ERANGE` of Linux. -/
def erange : Int := 34

/-- `(int)v` of a wider integer. -/
def toInt (v : Int) : Int := v.bmod (2 ^ 32)

/-- The result of an `int` operation is defined only inside the range of `int`. -/
def fitsInt (v : Int) : Bool := intMin ≤ v && v ≤ intMax

/-- `isspace` in the C locale. -/
def isSpace (c : Char) : Bool :=
  c == ' ' || c == '\t' || c == '\n' || c == '\x0b' || c == '\x0c' || c == '\r'

def digitValue (c : Char) : Nat :=
  if c.isDigit then c.toNat - '0'.toNat
  else if c.isLower then c.toNat - 'a'.toNat + 10
  else if c.isUpper then c.toNat - 'A'.toNat + 10
  else 36

def readDigits (base acc : Nat) : List Char → Nat
  | c :: rest => if digitValue c < base then readDigits base (acc * base + digitValue c) rest else acc
  | [] => acc

/-- `strtol(text, NULL, 0)`: after blanks and a sign, `0x` starts a hexadecimal number, `0` an
octal one, and any other digit a decimal one. Returns the `long` and whether the number was out
of range, when `strtol` sets `errno` to `ERANGE`. -/
def strtol (text : List Char) : Int × Bool :=
  let text := text.dropWhile isSpace
  let (negative, text) := match text with
    | '-' :: rest => (true, rest)
    | '+' :: rest => (false, rest)
    | _ => (false, text)
  let (base, digits) := match text with
    | '0' :: x :: rest => if x == 'x' || x == 'X' then (16, rest) else (8, text)
    | _ => (10, text)
  -- a "0x" without hexadecimal digits after it reads as the number 0
  let magnitude := readDigits base 0 digits
  if negative then
    if (magnitude : Int) > -longMin then (longMin, true) else (-(magnitude : Int), false)
  else if (magnitude : Int) > longMax then (longMax, true) else (magnitude, false)

/-- `errno` after `strtol`: `ERANGE` when the number was out of range, unchanged otherwise. -/
def errnoAfter (text : List Char) (errno : Int) : Int := if (strtol text).2 then erange else errno

theorem readDigits_append (base acc : Nat) (xs ys : List Char) (all : ∀ c ∈ xs, digitValue c < base) :
    readDigits base acc (xs ++ ys) = readDigits base (readDigits base acc xs) ys := by
  induction xs generalizing acc with
  | nil => rfl
  | cons c xs ih =>
    have digit : digitValue c < base := all c List.mem_cons_self
    simp only [List.cons_append, readDigits, if_pos digit]
    exact ih _ fun c' mem => all c' (List.mem_cons_of_mem c mem)

theorem digitValue_digitChar {d : Nat} (small : d < 16) : digitValue (Nat.digitChar d) = d := by
  revert d
  decide

section Digits

variable {base : Nat} (two : 2 ≤ base) (upTo16 : base ≤ 16)
include two upTo16

theorem digitValue_mem_toDigits (n : Nat) : ∀ c ∈ Nat.toDigits base n, digitValue c < base := by
  induction n using Nat.strongRecOn with
  | _ n ih =>
    rw [Nat.toDigits_eq_if (by omega)]
    split
    · next small =>
      intro c mem
      rw [List.mem_singleton.mp mem, digitValue_digitChar (by omega)]
      exact small
    · next large =>
      intro c mem
      rcases List.mem_append.mp mem with front | last
      · exact ih (n / base) (Nat.div_lt_self (by omega) (by omega)) c front
      · rw [List.mem_singleton.mp last, digitValue_digitChar (by have := Nat.mod_lt n (show base > 0 by omega); omega)]
        exact Nat.mod_lt n (by omega)

theorem readDigits_toDigits (n : Nat) : readDigits base 0 (Nat.toDigits base n) = n := by
  -- the last digit comes off the end, as the printing recursion puts it there
  induction n using Nat.strongRecOn with
  | _ n ih =>
    rw [Nat.toDigits_eq_if (by omega)]
    split
    · next small => simp [readDigits, digitValue_digitChar (by omega : n < 16), small]
    · next large =>
      have last : n % base < base := Nat.mod_lt n (by omega)
      rw [readDigits_append _ _ _ _ (digitValue_mem_toDigits two upTo16 (n / base)),
        ih (n / base) (Nat.div_lt_self (by omega) (by omega))]
      simp only [readDigits, digitValue_digitChar (by omega : n % base < 16), if_pos last]
      exact Nat.div_add_mod' n base

end Digits

theorem readDigits_zeros (base k : Nat) (pos : 0 < base) (xs : List Char) :
    readDigits base 0 (List.replicate k '0' ++ xs) = readDigits base 0 xs := by
  induction k with
  | zero => rfl
  | succ k ih =>
    have zero : digitValue '0' = 0 := by decide
    simp only [List.replicate_succ, List.cons_append, readDigits, zero, if_pos pos]
    simpa using ih

theorem ofInt_toNat (v : UInt32) : UInt32.ofInt (v.toNat : Int) = v := by
  have small := v.toNat_lt
  unfold UInt32.ofInt
  rw [Int.emod_eq_of_lt (by omega) (by omega)]
  simp

theorem toInt_of_fitsInt {v : Int} (fits : fitsInt v = true) : toInt v = v := by
  simp only [fitsInt, intMin, intMax, Bool.and_eq_true] at fits
  norm_num at fits
  unfold toInt
  rw [Int.bmod_def]
  split_ifs <;> omega

theorem ofInt_toInt_toNat (v : UInt32) : UInt32.ofInt (toInt v.toNat) = v := by
  unfold toInt
  apply UInt32.toNat_inj.mp
  have small : v.toNat < 4294967296 := v.toNat_lt
  have low : ((v.toNat : Int).bmod (2 ^ 32)) % 4294967296 = (v.toNat : Int) % 4294967296 :=
    Int.bmod_emod (m := 2 ^ 32)
  simp only [UInt32.ofInt, UInt32.toNat_ofNat']
  omega

theorem strtol_hex (n : Nat) (fits : n ≤ 2 ^ 63 - 1) :
    strtol ("0x".toList ++ Printf.hex n) = ((n : Int), false) := by
  have digits := readDigits_toDigits (show 2 ≤ 16 by decide) (show 16 ≤ 16 by decide) n
  simp only [Printf.hex] at *
  simp [strtol, isSpace, digits, longMax]
  omega

/-! ## Wait statuses

The macros of `<sys/wait.h>` on the status `waitpid` stores: the low seven bits hold the signal
that ended the process, the byte above them its exit code. -/

/-- `WTERMSIG(status)`, `status & 0x7f`. -/
def wtermsig (status : Nat) : Nat := status % 128

/-- `WEXITSTATUS(status)`, `(status & 0xff00) >> 8`. -/
def wexitstatus (status : Nat) : Nat := status / 256 % 256

/-- `WIFEXITED(status)`. -/
def wifexited (status : Nat) : Bool := wtermsig status = 0

/-- `WIFSIGNALED(status)`, `((signed char) ((status & 0x7f) + 1) >> 1) > 0`; the shift halves
the value rounding down, and -128 is the one odd case of the cast. -/
def wifsignaled (status : Nat) : Bool :=
  let v : Int := (wtermsig status : Int) + 1
  (if v < 128 then v else v - 256) / 2 > 0

/-- The status of a process that called `exit(code)`. -/
def exitedStatus (code : Nat) : Nat := code % 256 * 256

/-! ## Pipes

A pipe between a writer that writes the words of `ws` in order and a reader that reads them: once
the writer has written `written` of them and the reader has read `read`, the pipe holds the words
between. -/

def pipe {α : Type} (ws : List α) (written read : Nat) : List α := (ws.take written).drop read

section Pipe

variable {α : Type} {ws : List α} {written read : Nat}

@[simp]
theorem pipe_self (ws : List α) (n : Nat) : pipe ws n n = [] := by
  simp [pipe]

@[simp]
theorem length_pipe (ws : List α) (written read : Nat) :
    (pipe ws written read).length = min written ws.length - read := by
  simp [pipe]

theorem pipe_write (behind : read ≤ written) (more : written < ws.length) :
    pipe ws (written + 1) read = pipe ws written read ++ [ws[written]] := by
  have room : read ≤ (ws.take written).length := by
    rw [List.length_take]
    omega
  unfold pipe
  rw [List.take_add_one, List.getElem?_eq_getElem more, Option.toList_some,
    List.drop_append_of_le_length room]

theorem pipe_cons (ahead : read < written) (fits : written ≤ ws.length) :
    pipe ws written read = ws[read] :: pipe ws written (read + 1) := by
  have inside : read < (ws.take written).length := by
    rw [List.length_take]
    omega
  unfold pipe
  rw [List.drop_eq_getElem_cons inside, List.getElem_take]

theorem pipe_read {word : α} {rest : List α} (fits : written ≤ ws.length)
    (holds : pipe ws written read = word :: rest) :
    ∃ ahead : read < written, word = ws[read] ∧ rest = pipe ws written (read + 1) := by
  have ahead : read < written := by
    have nonempty := congrArg List.length holds
    simp only [length_pipe, List.length_cons] at nonempty
    omega
  rw [pipe_cons ahead fits] at holds
  obtain ⟨first, rest⟩ := List.cons.inj holds
  exact ⟨ahead, first.symm, rest.symm⟩

end Pipe

end CConv
