import Mathlib.Data.List.Sort

/-! Lists kept in the order of a key: what a threshold separates. -/
namespace Kaiion.Foundation
variable {α : Type} {key : α → Nat}

instance keyOrder_total (key : α → Nat) : Std.Total (fun a b => key a ≤ key b) :=
  ⟨fun a b => Nat.le_total (key a) (key b)⟩

instance keyOrder_trans (key : α → Nat) : IsTrans α (fun a b => key a ≤ key b) :=
  ⟨fun _ _ _ => Nat.le_trans⟩

/-- In key order, the entries up to a threshold come first. -/
theorem split_at_key {items : List α} (h : items.Pairwise (fun a b => key a ≤ key b)) (threshold : Nat) :
    items = items.filter (fun a => key a ≤ threshold) ++ items.filter (fun a => threshold < key a) := by
  induction items with
  | nil => rfl
  | cons item items ih =>
    obtain ⟨hitem, hrest⟩ := List.pairwise_cons.mp h
    by_cases hle : key item ≤ threshold
    · rw [List.filter_cons_of_pos (by simpa using hle), List.filter_cons_of_neg (by simpa using hle),
        List.cons_append, ← ih hrest]
    · have hnone : items.filter (fun a => key a ≤ threshold) = [] := List.filter_eq_nil_iff.mpr
        fun a ha => by have := hitem a ha; simp; omega
      have hall : items.filter (fun a => threshold < key a) = items := List.filter_eq_self.mpr
        fun a ha => by have := hitem a ha; simp; omega
      rw [List.filter_cons_of_neg (by simpa using hle), List.filter_cons_of_pos (by simp; omega), hnone,
        hall, List.nil_append]

end Kaiion.Foundation
