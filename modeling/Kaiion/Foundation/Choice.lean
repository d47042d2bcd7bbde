import Mathlib.Data.List.Perm.Basic

/-! The best item of a list under a strict total order, kept by one scan in any order. -/
namespace Kaiion.Foundation
variable {α : Type} {better : α → α → Bool} {items others : List α}

/-- Keep the better one of the best so far and the next item. -/
def keepBest (better : α → α → Bool) (best : Option α) (item : α) : Option α :=
  if best.all (fun current => better item current) then some item else best

/-- `better` is a strict total order. -/
structure Ranks (better : α → α → Bool) : Prop where
  irrefl : ∀ a, better a a = false
  trans : ∀ {a b c}, better a b = true → better b c = true → better a c = true
  total : ∀ {a b}, a ≠ b → better a b = true ∨ better b a = true

/-- The item precedes all others. -/
structure IsBest (better : α → α → Bool) (items : List α) (a : α) : Prop where
  mem : a ∈ items
  precedes : ∀ b ∈ items, b ≠ a → better a b = true

theorem IsBest.unique (h : Ranks better) {a b : α} (ha : IsBest better items a) (hb : IsBest better items b) :
    a = b := by
  by_contra hne
  have hab := ha.precedes b hb.mem (Ne.symm hne)
  have hba := hb.precedes a ha.mem hne
  have haa := h.trans hab hba
  rw [h.irrefl a] at haa
  cases haa

private theorem foldl_keepBest_some (h : Ranks better) (items : List α) (start : α) :
    ∃ a, items.foldl (keepBest better) (some start) = some a ∧ IsBest better (start :: items) a := by
  induction items generalizing start with
  | nil => exact ⟨start, rfl, by simp, by simp⟩
  | cons item items ih =>
    rw [List.foldl_cons, keepBest]
    simp only [Option.all_some]
    split
    next hbetter =>
      obtain ⟨a, hfold, hbest⟩ := ih item
      refine ⟨a, hfold, List.mem_cons_of_mem _ hbest.mem, fun b hb hne => ?_⟩
      rcases List.mem_cons.mp hb with rfl | hb
      · by_cases ha : item = a
        · exact ha ▸ hbetter
        · exact h.trans (hbest.precedes item List.mem_cons_self ha) hbetter
      · exact hbest.precedes b hb hne
    next hkeep =>
      obtain ⟨a, hfold, hbest⟩ := ih start
      refine ⟨a, hfold, ?_, fun b hb hne => ?_⟩
      · rcases List.mem_cons.mp hbest.mem with rfl | hmem
        · exact List.mem_cons_self
        · exact List.mem_cons_of_mem _ (List.mem_cons_of_mem _ hmem)
      · rcases List.mem_cons.mp hb with rfl | hb
        · exact hbest.precedes b List.mem_cons_self hne
        rcases List.mem_cons.mp hb with rfl | hb
        · -- The item was not better than `start`, which `a` is or precedes.
          by_cases hsame : b = start
          · exact hsame ▸ hbest.precedes start List.mem_cons_self (hsame ▸ hne)
          have hstart : better start b = true := (h.total hsame).resolve_left hkeep
          by_cases ha : start = a
          · exact ha ▸ hstart
          · exact h.trans (hbest.precedes start List.mem_cons_self ha) hstart
        · exact hbest.precedes b (List.mem_cons_of_mem _ hb) hne

/-- The scan ends with the item that precedes all others. -/
theorem keepBest_iff (h : Ranks better) {a : α} :
    items.foldl (keepBest better) none = some a ↔ IsBest better items a := by
  cases items with
  | nil => exact ⟨fun hnone => (nomatch hnone), fun hbest => nomatch hbest.mem⟩
  | cons item items =>
    obtain ⟨best, hfold, hbest⟩ := foldl_keepBest_some h items item
    have hscan : (item :: items).foldl (keepBest better) none = some best := hfold
    rw [hscan, Option.some.injEq]
    constructor
    · rintro rfl
      exact hbest
    · exact fun ha => hbest.unique h ha

theorem keepBest_none : items.foldl (keepBest better) none = none ↔ items = [] := by
  have kept : ∀ (items : List α) (best : α), items.foldl (keepBest better) (some best) ≠ none := by
    intro items
    induction items with
    | nil => exact fun _ h => nomatch h
    | cons item items ih =>
      intro best
      rw [List.foldl_cons, keepBest]
      split
      · exact ih item
      · exact ih best
  cases items with
  | nil => exact ⟨fun _ => rfl, fun _ => rfl⟩
  | cons item items => exact ⟨fun h => absurd h (kept items item), fun h => nomatch h⟩

/-- The order of the scan does not matter. -/
theorem keepBest_perm (h : Ranks better) (hperm : items.Perm others) :
    items.foldl (keepBest better) none = others.foldl (keepBest better) none := by
  cases hbest : items.foldl (keepBest better) none with
  | none =>
    have hnil := keepBest_none.mp hbest
    subst hnil
    rw [List.nil_perm.mp hperm]
    rfl
  | some a =>
    have hfirst := (keepBest_iff h).mp hbest
    exact ((keepBest_iff h).mpr ⟨hperm.mem_iff.mp hfirst.mem, fun b hb =>
      hfirst.precedes b (hperm.mem_iff.mpr hb)⟩).symm

/-- The best of the ranks is the rank of the best. -/
theorem isBest_map {β : Type} {f : β → α} {items : List β} (hinj : ∀ a ∈ items, ∀ b ∈ items, f a = f b → a = b)
    {best : α} : IsBest better (items.map f) best ↔
      ∃ a, IsBest (fun a b => better (f a) (f b)) items a ∧ f a = best := by
  constructor
  · intro h
    obtain ⟨a, ha, rfl⟩ := List.mem_map.mp h.mem
    refine ⟨a, ⟨ha, fun b hb hne => h.precedes (f b) (List.mem_map_of_mem hb) fun heq => ?_⟩, rfl⟩
    exact hne (hinj b hb a ha heq)
  · rintro ⟨a, h, rfl⟩
    refine ⟨List.mem_map_of_mem h.mem, fun rank hrank hne => ?_⟩
    obtain ⟨b, hb, rfl⟩ := List.mem_map.mp hrank
    exact h.precedes b hb fun heq => hne (heq ▸ rfl)

end Kaiion.Foundation
