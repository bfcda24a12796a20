/-!
# Positions

Feed positions and window sizes are 64-bit words. A position is kept as a natural number below
`Position.bound`, and every sum that could leave that range goes through `Position.add?`, which
answers `none` exactly when it would.
-/

namespace Feedkeeper

namespace Position

/-- The first natural number that is no position. -/
def bound : Nat := Nat.pow 2 64

/-- The sum, unless it overflows. -/
def add? (a b : Nat) : Option Nat :=
  if a + b < bound then some (a + b) else none

/-- A sum that is answered is the sum, and a position. -/
theorem add?_eq_some_iff {a b c : Nat} : add? a b = some c ↔ a + b = c ∧ c < bound := by
  unfold add?
  split
  · constructor
    · intro h
      obtain rfl := Option.some.inj h
      exact ⟨rfl, by assumption⟩
    · rintro ⟨rfl, -⟩
      rfl
  · constructor
    · intro h
      cases h
    · rintro ⟨rfl, h⟩
      contradiction

/-- No sum is answered exactly if it would be no position. -/
theorem add?_eq_none_iff {a b : Nat} : add? a b = none ↔ bound ≤ a + b := by
  unfold add?
  split <;> simp <;> omega

end Position

end Feedkeeper
