import Mathlib.Data.Nat.Basic
import Mathlib.Order.Interval.Set.Defs
import Mathlib.Order.Monotone.Defs

/-!
# Whole units in a bounded field

A quantity counted in small units is passed on in whole units of a larger size,
through a field that holds a count modulo `bound`. The field runs through the
same cycle of `unit * bound` small units again and again.
-/

namespace Numeric
set_option autoImplicit false

universe u

def narrow (unit bound x : Nat) : Nat := x / unit % bound

variable {unit bound x : Nat}

/-- The field shows how far `x` is into its cycle. -/
theorem narrow_cycle (unit bound x : Nat) :
    narrow unit bound x = x % (unit * bound) / unit :=
  (Nat.mod_mul_right_div_self x unit bound).symm

theorem narrow_of_lt (h : x < unit * bound) : narrow unit bound x = x / unit := by
  rw [narrow_cycle, Nat.mod_eq_of_lt h]

theorem narrow_mul (hunit : 0 < unit) {n : Nat} (hn : n < bound) :
    narrow unit bound (unit * n) = n := by
  rw [narrow, Nat.mul_div_cancel_left n hunit, Nat.mod_eq_of_lt hn]

theorem narrow_monotoneOn (unit bound : Nat) :
    MonotoneOn (narrow unit bound) (Set.Iio (unit * bound)) := by
  intro x hx y hy hxy
  rw [narrow_of_lt hx, narrow_of_lt hy]
  exact Nat.div_le_div_right hxy

theorem narrow_eq_zero_iff (hunit : 0 < unit) :
    narrow unit bound x = 0 ↔ x % (unit * bound) < unit := by
  rw [narrow_cycle, Nat.div_eq_zero_iff]
  constructor
  · intro h
    rcases h with h | h
    · omega
    · exact h
  · intro h
    exact Or.inr h

theorem narrow_full_iff (hunit : 0 < unit) :
    bound - 1 ≤ narrow unit bound x ↔ unit * (bound - 1) ≤ x % (unit * bound) := by
  rw [narrow_cycle, Nat.le_div_iff_mul_le hunit, Nat.mul_comm]

/-- Nothing below `x` shows more than `x` does if `x` is in the first cycle or in the last
unit of a later one, and only then. -/
theorem narrow_peak_iff (hunit : 0 < unit) (hbound : 0 < bound) :
    (∀ y ≤ x, narrow unit bound y ≤ narrow unit bound x) ↔
      x < unit * bound ∨ unit * (bound - 1) ≤ x % (unit * bound) := by
  constructor
  · intro hpeak
    by_cases hfirst : x < unit * bound
    · exact Or.inl hfirst
    · -- the end of the first cycle is below `x` and shows the largest value
      have hend : unit * (bound - 1) ≤ x :=
        (Nat.mul_le_mul_left unit (Nat.sub_le bound 1)).trans (Nat.not_lt.mp hfirst)
      have hfull := hpeak _ hend
      rw [narrow_mul hunit (Nat.sub_lt hbound Nat.one_pos)] at hfull
      exact Or.inr ((narrow_full_iff hunit).mp hfull)
  · rintro (hfirst | hlast) y hy
    · exact narrow_monotoneOn unit bound (hy.trans_lt hfirst) hfirst hy
    · have hfull := (narrow_full_iff hunit).mpr hlast
      have hlt : narrow unit bound y < bound := Nat.mod_lt _ hbound
      omega

/-- The same for anything that is ordered by a measure in small units without gaps. -/
theorem narrow_peak_measure_iff {α : Type u} [LE α] {measure : α → Nat}
    (hunit : 0 < unit) (hbound : 0 < bound)
    (hle : ∀ a b, a ≤ b ↔ measure a ≤ measure b)
    (hgap : ∀ a, ∀ n ≤ measure a, ∃ b, measure b = n) (a : α) :
    (∀ b ≤ a, narrow unit bound (measure b) ≤ narrow unit bound (measure a)) ↔
      measure a < unit * bound ∨ unit * (bound - 1) ≤ measure a % (unit * bound) := by
  rw [← narrow_peak_iff hunit hbound]
  constructor
  · intro h n hn
    obtain ⟨b, rfl⟩ := hgap a n hn
    exact h b ((hle b a).mpr hn)
  · intro h b hb
    exact h _ ((hle b a).mp hb)

end Numeric
