import Mathlib.Order.Lattice
import Mathlib.Data.List.Basic

/-! Reading a sorted list page by page: each page starts behind a cursor, the last key read. -/
namespace Kaiion.Foundation

variable {α β κ : Type*} [LinearOrder κ] {key : β → κ} {items : List β} {size : Nat} {after : κ}

/-- The items behind a cursor. -/
def behind (key : β → κ) (items : List β) (after : κ) : List β := items.filter (fun item => after < key item)

/-- The page behind a cursor. -/
def page (key : β → κ) (size : Nat) (items : List β) (after : κ) : List β := (behind key items after).take size

/-- Fetch pages, each with the cursor of the next one, until there is none. `none` is a walk that has
not ended within the fuel. -/
def follow (fetch : κ → List α × Option κ) : Nat → κ → Option (List α)
  | 0, _ => none
  | fuel + 1, after =>
    match (fetch after).2 with
    | none => some (fetch after).1
    | some cursor => (follow fetch fuel cursor).map (fun rest => (fetch after).1 ++ rest)

/-- The fetched pages show the items, go on behind their last one and stop only when they are short. -/
structure Pages (key : β → κ) (view : β → α) (size : Nat) (items : List β) (fetch : κ → List α × Option κ) :
    Prop where
  data : ∀ after, (fetch after).1 = (page key size items after).map view
  stops : ∀ after, (fetch after).2 = none → (page key size items after).length < size
  continues : ∀ after cursor, (fetch after).2 = some cursor →
    ((page key size items after).getLast?).map key = some cursor

/-- A short page is the last one. -/
theorem page_eq_of_short (h : (page key size items after).length < size) :
    page key size items after = behind key items after := by
  unfold page at h ⊢
  rw [List.length_take] at h
  exact List.take_of_length_le (by omega)

/-- Behind the last item of a page is what the page has left out. -/
theorem behind_last (hsorted : items.Pairwise (fun a b => key a < key b)) {cursor : κ}
    (h : ((page key size items after).getLast?).map key = some cursor) :
    behind key items cursor = (behind key items after).drop size := by
  obtain ⟨last, hlast, rfl⟩ := Option.map_eq_some_iff.mp h
  have hrest : (behind key items after).Pairwise (fun a b => key a < key b) := hsorted.sublist List.filter_sublist
  have hmem : last ∈ behind key items after := List.mem_of_mem_take (List.mem_of_getLast? hlast)
  have hafter : after < key last := of_decide_eq_true (List.mem_filter.mp hmem).2
  have hnarrow : behind key items (key last) = behind key (behind key items after) (key last) := by
    unfold behind
    rw [List.filter_filter]
    apply List.filter_congr
    intro item _
    rw [Bool.eq_iff_iff]
    simp only [Bool.and_eq_true, decide_eq_true_eq]
    exact ⟨fun hitem => ⟨hitem, hafter.trans hitem⟩, fun hitem => hitem.1⟩
  rw [hnarrow]
  unfold page at hlast
  generalize behind key items after = rest at hrest hlast ⊢
  obtain ⟨front, hfront⟩ := List.getLast?_eq_some_iff.mp hlast
  have hsplit : rest = front ++ [last] ++ rest.drop size := by rw [← hfront, List.take_append_drop]
  generalize rest.drop size = tail at hsplit ⊢
  subst hsplit
  obtain ⟨hpage, -, hcross⟩ := List.pairwise_append.mp hrest
  obtain ⟨-, -, hfrontLast⟩ := List.pairwise_append.mp hpage
  have hbefore : behind key (front ++ [last]) (key last) = [] := by
    apply List.filter_eq_nil_iff.mpr
    intro item hitem
    rcases List.mem_append.mp hitem with hitem | hitem
    · simpa using (hfrontLast item hitem last (List.mem_singleton_self _)).le
    · simp [List.mem_singleton.mp hitem]
  have hbehind : behind key tail (key last) = tail := by
    apply List.filter_eq_self.mpr
    intro item hitem
    exact decide_eq_true (hcross last (by simp) item hitem)
  unfold behind at hbefore hbehind ⊢
  rw [List.filter_append, hbefore, hbehind, List.nil_append]

/-- What lies behind the cursor, and not behind the last item of the page, is on the page. -/
theorem mem_page (hsorted : items.Pairwise (fun a b => key a < key b)) {cursor : κ}
    (h : ((page key size items after).getLast?).map key = some cursor) {item : β} (hitem : item ∈ items)
    (hafter : after < key item) (hle : key item ≤ cursor) : item ∈ page key size items after := by
  have hbehind : item ∈ behind key items after := List.mem_filter.mpr ⟨hitem, decide_eq_true hafter⟩
  rw [← List.take_append_drop size (behind key items after), ← behind_last hsorted h] at hbehind
  rcases List.mem_append.mp hbehind with hpage | hlater
  · exact hpage
  · exact absurd hle (not_le.mpr (of_decide_eq_true (List.mem_filter.mp hlater).2))

/-- Nothing lies behind the cursor of an empty page. -/
theorem le_of_page_nil (hsize : 0 < size) (h : page key size items after = []) {item : β} (hitem : item ∈ items) :
    key item ≤ after := by
  rw [page_eq_of_short (by rw [h]; exact hsize)] at h
  exact not_lt.mp (of_decide_eq_false (Bool.eq_false_iff.mpr (List.filter_eq_nil_iff.mp h item hitem)))

/-- Paging shows every item behind the cursor once, in order, and then stops. -/
theorem Pages.follow_eq {view : β → α} {fetch : κ → List α × Option κ}
    (hsorted : items.Pairwise (fun a b => key a < key b)) (h : Pages key view size items fetch) {fuel : Nat}
    (hfuel : (behind key items after).length < fuel) :
    follow fetch fuel after = some ((behind key items after).map view) := by
  induction fuel generalizing after with
  | zero => exact absurd hfuel (Nat.not_lt_zero _)
  | succ fuel ih =>
    unfold follow
    cases hnext : (fetch after).2 with
    | none => rw [h.data, page_eq_of_short (h.stops after hnext)]
    | some cursor =>
      have hcursor := h.continues after cursor hnext
      have hleft := behind_last hsorted hcursor
      have hpage : page key size items after ≠ [] := by
        intro hnil
        rw [hnil] at hcursor
        cases hcursor
      have hshorter : (behind key items cursor).length < fuel := by
        have hpos := List.length_pos_iff.mpr hpage
        unfold page at hpos
        rw [List.length_take] at hpos
        rw [hleft, List.length_drop]
        omega
      dsimp only
      rw [ih hshorter, hleft, h.data]
      unfold page
      rw [Option.map_some, ← List.map_append, List.take_append_drop]

end Kaiion.Foundation
