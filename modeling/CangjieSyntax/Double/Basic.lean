/-!
# Doubles

A double holds a number of 53 significant bits, up to a largest one. A number that has more bits is
rounded to the nearest double, and one that lies half a step or more above the largest double has
none. Only whole numbers are needed here.

The main statements are that a number of 53 bits is a double itself (`nearest_of_lt`) and that no
number is rounded by more than half a step (`nearest_near`).
-/

namespace CangjieSyntax.Double

/-- The distance between the doubles around a number: the worth of the last of 53 bits. -/
def step (n : Nat) : Nat :=
  Nat.pow 2 (n.log2 + 1 - 53)

/-- The nearest double of a number, whatever its size. Of two that are as near, it is the one whose
last bit is zero. -/
def nearest (n : Nat) : Nat :=
  let below := n / step n
  let excess := 2 * (n % step n)
  if excess < step n || (excess == step n && below % 2 == 0) then below * step n
  else (below + 1) * step n

/-- Whether a number has a nearest double. -/
def isFinite (n : Nat) : Bool :=
  n < Nat.pow 2 1024 - Nat.pow 2 970

/-- The product of two numbers as doubles, before it is rounded again. -/
def product (m n : Nat) : Nat :=
  nearest m * nearest n

theorem step_pos (n : Nat) : 0 < step n :=
  Nat.pow_pos (by decide)

theorem step_of_lt {n : Nat} (h : n < Nat.pow 2 53) : step n = 1 := by
  have : n.log2 < 53 := by
    by_cases h0 : n = 0
    · subst h0; decide
    · exact (Nat.log2_lt h0).2 h
  have : n.log2 + 1 - 53 = 0 := by omega
  simp [step, this]

theorem nearest_of_lt {n : Nat} (h : n < Nat.pow 2 53) : nearest n = n := by
  simp [nearest, step_of_lt h, Nat.mod_one]

theorem nearest_near (n : Nat) :
    2 * nearest n ≤ 2 * n + step n ∧ 2 * n ≤ 2 * nearest n + step n := by
  have parts : step n * (n / step n) + n % step n = n := Nat.div_add_mod n (step n)
  have rest : n % step n < step n := Nat.mod_lt _ (step_pos n)
  simp only [nearest]
  generalize n / step n = q at *
  generalize n % step n = r at *
  have up : (q + 1) * step n = step n * q + step n := by rw [Nat.add_mul, Nat.mul_comm]; simp
  have down : q * step n = step n * q := Nat.mul_comm ..
  generalize step n * q = p at *
  split
  · rename_i small
    simp only [Bool.or_eq_true, decide_eq_true_eq, Bool.and_eq_true, beq_iff_eq] at small
    omega
  · rename_i large
    simp only [Bool.or_eq_true, decide_eq_true_eq, Bool.and_eq_true, beq_iff_eq, not_or] at large
    omega

end CangjieSyntax.Double
