/-!
# Rounding a quotient to an integer

Every number that this library shows or counts is an exact quotient of natural numbers first and
is rounded once, here.  `roundDiv` takes the nearest integer; a `Tie` says where a quotient goes
that lies halfway between two.

* `roundDiv_of_dvd` — an exact quotient is left alone.
* `two_mul_roundDiv_le`, `le_two_mul_roundDiv` — the result is within half a unit of the quotient.
-/

namespace FramePacing.Decimal

/-- Where a quotient goes that lies halfway between two neighbouring integers. -/
inductive Tie where
  /-- To the even one of the two. -/
  | toEven
  /-- To the larger one of the two. -/
  | away
deriving DecidableEq, Repr

/-- The integer nearest to `num / den`; halfway between two, `tie` decides. -/
def roundDiv (tie : Tie) (num den : Nat) : Nat :=
  let below := num / den
  let excess := num % den
  if 2 * excess < den then below
  else if den < 2 * excess then below + 1
  else match tie with
    | .toEven => below + below % 2
    | .away => below + 1

/-- A quotient that is an integer already is not changed. -/
theorem roundDiv_of_dvd (tie : Tie) {num den : Nat} (hden : 0 < den) (h : den ∣ num) :
    roundDiv tie num den = num / den := by
  have hover : num % den = 0 := Nat.mod_eq_zero_of_dvd h
  simp [roundDiv, hover, hden]

/-- The result exceeds the quotient by half a unit at most. -/
theorem two_mul_roundDiv_le (tie : Tie) (num : Nat) {den : Nat} (hden : 0 < den) :
    2 * (roundDiv tie num den * den) ≤ 2 * num + den := by
  have hsplit := Nat.div_add_mod num den
  have hover := Nat.mod_lt num hden
  have hpar : num / den % 2 = 0 ∨ num / den % 2 = 1 := by omega
  rw [Nat.mul_comm den] at hsplit
  unfold roundDiv
  dsimp only
  split
  · omega
  · split
    · rw [Nat.add_mul, Nat.one_mul]; omega
    · cases tie with
      | away => simp only [Nat.add_mul, Nat.one_mul]; omega
      | toEven =>
        rcases hpar with h | h <;> simp only [h, Nat.add_mul, Nat.zero_mul, Nat.one_mul] <;> omega

/-- The result falls short of the quotient by half a unit at most. -/
theorem le_two_mul_roundDiv (tie : Tie) (num : Nat) {den : Nat} (hden : 0 < den) :
    2 * num ≤ 2 * (roundDiv tie num den * den) + den := by
  have hsplit := Nat.div_add_mod num den
  have hover := Nat.mod_lt num hden
  have hpar : num / den % 2 = 0 ∨ num / den % 2 = 1 := by omega
  rw [Nat.mul_comm den] at hsplit
  unfold roundDiv
  dsimp only
  split
  · omega
  · split
    · rw [Nat.add_mul, Nat.one_mul]; omega
    · cases tie with
      | away => simp only [Nat.add_mul, Nat.one_mul]; omega
      | toEven =>
        rcases hpar with h | h <;> simp only [h, Nat.add_mul, Nat.zero_mul, Nat.one_mul] <;> omega

end FramePacing.Decimal
