import Mathlib.Algebra.Order.BigOperators.Group.List
import Mathlib.Algebra.Order.Ring.Int

/-! Machine integers with checked operations: a result outside the range of the type, like a division by
zero, is no result. -/
namespace Kaiion.Foundation

/-- The range of a machine integer type. -/
structure IntType where
  least : Int
  greatest : Int

namespace IntType

def u64 : IntType := ⟨0, 2 ^ 64 - 1⟩

def u128 : IntType := ⟨0, 2 ^ 128 - 1⟩

def i32 : IntType := ⟨-2 ^ 31, 2 ^ 31 - 1⟩

def i64 : IntType := ⟨-2 ^ 63, 2 ^ 63 - 1⟩

variable (t : IntType)

def Holds (x : Int) : Prop := t.least ≤ x ∧ x ≤ t.greatest

instance (x : Int) : Decidable (t.Holds x) := inferInstanceAs (Decidable (_ ∧ _))

def fit (x : Int) : Option Int := if t.Holds x then some x else none

def add (a b : Int) : Option Int := t.fit (a + b)

def sub (a b : Int) : Option Int := t.fit (a - b)

/-- Division rounds towards zero. -/
def div (a b : Int) : Option Int := if b = 0 then none else t.fit (a.tdiv b)

/-- A running sum. -/
def sum : List Int → Option Int := List.foldlM t.add 0

variable {t} {a b x : Int}

theorem fit_of_holds (h : t.Holds x) : t.fit x = some x := if_pos h

theorem add_of_holds (h : t.Holds (a + b)) : t.add a b = some (a + b) := fit_of_holds h

theorem sub_of_holds (h : t.Holds (a - b)) : t.sub a b = some (a - b) := fit_of_holds h

theorem div_of_holds (hb : b ≠ 0) (h : t.Holds (a.tdiv b)) : t.div a b = some (a.tdiv b) := by
  unfold div
  rw [if_neg hb, fit_of_holds h]

private theorem foldlM_add (hleast : t.least ≤ 0) {values : List Int} (hvalues : ∀ value ∈ values, 0 ≤ value)
    {start : Int} (hstart : t.Holds start) (hpos : 0 ≤ start) :
    values.foldlM t.add start = t.fit (start + values.sum) := by
  induction values generalizing start with
  | nil => simp [fit_of_holds hstart]
  | cons value values ih =>
    have hvalue := hvalues value List.mem_cons_self
    have hrest : ∀ other ∈ values, 0 ≤ other := fun other hother => hvalues other (List.mem_cons_of_mem _ hother)
    have hsum : 0 ≤ values.sum := List.sum_nonneg hrest
    rw [List.foldlM_cons, List.sum_cons, ← add_assoc]
    by_cases hholds : t.Holds (start + value)
    · rw [add_of_holds hholds]
      exact ih hrest hholds (Int.add_nonneg hpos hvalue)
    · -- What has overflowed once would overflow in the end.
      have hover : t.greatest < start + value := by
        by_contra hle
        exact hholds ⟨by omega, by omega⟩
      have hend : ¬ t.Holds (start + value + values.sum) := fun h => by
        have := h.2
        omega
      unfold add fit
      rw [if_neg hholds, if_neg hend]
      rfl

/-- A running sum of amounts overflows exactly when the total does. -/
theorem sum_eq_fit (hzero : t.Holds 0) {values : List Int} (hvalues : ∀ value ∈ values, 0 ≤ value) :
    t.sum values = t.fit values.sum := by
  unfold sum
  rw [foldlM_add hzero.1 hvalues hzero (le_refl 0), zero_add]

end IntType
end Kaiion.Foundation
