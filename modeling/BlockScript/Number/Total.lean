/-!
# Totals

The sum of a list of natural numbers.
-/

namespace BlockScript

/-- The sum of a list of numbers. -/
def total (numbers : List Nat) : Nat :=
  numbers.foldr (· + ·) 0

/-- Nothing adds up to zero. -/
@[simp]
theorem total_nil : total [] = 0 := rfl

/-- The first number is added to the total of the others. -/
@[simp]
theorem total_cons (n : Nat) (rest : List Nat) : total (n :: rest) = n + total rest := rfl

/-- Totals add up. -/
@[simp]
theorem total_append (l r : List Nat) : total (l ++ r) = total l + total r := by
  induction l with
  | nil => simp
  | cons n rest ih => simp [ih, Nat.add_assoc]

end BlockScript
