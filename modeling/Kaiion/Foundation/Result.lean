import Mathlib.Data.List.Basic

/-! Fallible computations that succeed: what each of their steps returned. -/
namespace Kaiion.Foundation
variable {ε α β : Type}

theorem bind_ok {x : Except ε α} {f : α → Except ε β} {b : β} (h : x >>= f = .ok b) :
    ∃ a, x = .ok a ∧ f a = .ok b := by
  cases x with
  | error e => cases h
  | ok a => exact ⟨a, rfl, h⟩

theorem forM_ok {f : α → Except ε Unit} {items : List α} (h : items.forM f = .ok ()) :
    ∀ a ∈ items, f a = .ok () := by
  induction items with
  | nil => exact fun _ ha => nomatch ha
  | cons item items ih =>
    obtain ⟨_, hitem, hrest⟩ := bind_ok (show (f item >>= fun _ => items.forM f) = .ok () from h)
    intro a ha
    rcases List.mem_cons.mp ha with rfl | ha
    · exact hitem
    · exact ih hrest a ha

end Kaiion.Foundation
