import Mathlib.Data.List.AList

/-! Association lists: how removing and adding one entry changes the entries as a whole. -/
namespace Kaiion.Foundation
variable {α : Type} {β : α → Type} [DecidableEq α] {s : AList β} {a : α} {b : β a}

theorem entries_perm_of_lookup (h : s.lookup a = some b) :
    s.entries.Perm (⟨a, b⟩ :: (s.erase a).entries) := by
  have hmem : a ∈ s.entries.keys := AList.lookup_isSome.mp (by rw [h]; rfl)
  obtain ⟨b', left, right, hleft, hsplit, herase⟩ := List.exists_of_kerase hmem
  have hb : b' = b := by
    have h' : s.entries.dlookup a = some b := h
    rw [hsplit, List.dlookup_append, List.dlookup_eq_none.mpr hleft, Option.none_or,
      List.dlookup_cons_eq] at h'
    exact Option.some.inj h'
  change s.entries.Perm (⟨a, b⟩ :: s.entries.kerase a)
  rw [herase, hsplit, hb]
  exact List.perm_middle

theorem erase_entries_sublist (a : α) (s : AList β) : (s.erase a).entries.Sublist s.entries :=
  List.kerase_sublist a s.entries

theorem lookup_of_sublist {t : AList β} (hsub : t.entries.Sublist s.entries) (h : t.lookup a = some b) :
    s.lookup a = some b :=
  AList.mem_lookup_iff.mpr (hsub.subset (AList.mem_lookup_iff.mp h))

theorem erase_insert (a : α) (b : β a) (s : AList β) : (s.insert a b).erase a = s.erase a := by
  apply AList.ext
  change (s.insert a b).entries.kerase a = s.entries.kerase a
  rw [AList.entries_insert]
  exact List.kerase_cons_eq rfl

theorem insert_erase {a' : α} (h : a ≠ a') (b : β a) (s : AList β) :
    (s.insert a b).erase a' = (s.erase a').insert a b := by
  apply AList.ext
  change (s.insert a b).entries.kerase a' = ((s.erase a').insert a b).entries
  rw [AList.entries_insert, AList.entries_insert, List.kerase_cons_ne (Ne.symm h), List.kerase_comm]
  rfl

/-- Inserting an entry adds at most that one to a count. -/
theorem countP_insert_le (p : Sigma β → Bool) (a : α) (b : β a) (s : AList β) :
    (s.insert a b).entries.countP p ≤ s.entries.countP p + if p ⟨a, b⟩ then 1 else 0 := by
  rw [AList.entries_insert, List.countP_cons]
  exact Nat.add_le_add_right ((erase_entries_sublist a s).countP_le) _

end Kaiion.Foundation
