/-!
# Numbers in registers

A register holds the natural numbers below a limit. Arithmetic in a register is that of the natural
numbers as long as the result fits; where it does not, the program stops.

Main statement:

* `fit_eq_ok_iff`: what fits into a register.
-/

namespace CodeAtlas

/-- Why a number does not fit into a register. -/
inductive Overflow where
  /-- A sum is too large. -/
  | sum
  /-- A difference is negative. -/
  | difference
  deriving DecidableEq, Repr

/-- The wording of the fault. -/
def Overflow.message : Overflow → String
  | sum => "attempt to add with overflow"
  | difference => "attempt to subtract with overflow"

namespace Register

/-- The limit of a register of 32 bits. -/
def limit32 : Nat := 4294967296

/-- The limit of a register of 64 bits. -/
def limit64 : Nat := 18446744073709551616

/-- A number in a register that holds the numbers below a limit. -/
def fit (limit n : Nat) : Except Overflow Nat := if n < limit then .ok n else .error .sum

/-- The sum of some numbers in a register, one number after the other. -/
def sum (limit : Nat) (ns : List Nat) : Except Overflow Nat :=
  ns.foldlM (fun done n => fit limit (done + n)) 0

variable {limit n : Nat}

theorem fit_of_lt (h : n < limit) : fit limit n = .ok n :=
  if_pos h

theorem fit_of_le (h : limit ≤ n) : fit limit n = .error .sum :=
  if_neg (Nat.not_lt.2 h)

theorem fit_eq_ok_iff {m : Nat} : fit limit n = .ok m ↔ n < limit ∧ n = m := by
  by_cases h : n < limit
  · simp [fit_of_lt h, h]
  · simp [fit_of_le (Nat.not_lt.1 h), h]

end Register

end CodeAtlas
