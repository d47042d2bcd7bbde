import Mathlib.Data.List.Basic

/-! Machines that read their input in segments between separators. -/
namespace Kaiion.Foundation

variable {α σ : Type} (separates : α → Bool) (feed : σ → α → σ) (close : σ → σ)

/-- A separator closes the segment, anything else is fed to it. -/
def readSeparated (s : σ) (a : α) : σ := if separates a then close s else feed s a

/-- Reading everything, and closing the last segment, is reading segment by segment. -/
theorem close_foldl_readSeparated (input : List α) (s : σ) :
    close (input.foldl (readSeparated separates feed close) s) =
      (input.splitOnP separates).foldl (fun s segment => close (segment.foldl feed s)) s := by
  induction input generalizing s with
  | nil => rfl
  | cons a input ih =>
    obtain ⟨segment, rest, hsegments⟩ := List.exists_cons_of_ne_nil (List.splitOnP_ne_nil separates input)
    rw [List.foldl_cons, ih, List.splitOnP_cons_eq_if_modifyHead, hsegments, readSeparated]
    cases separates a <;> rfl

/-- Reading everything leaves the last segment open. -/
theorem foldl_readSeparated (input : List α) (s : σ) :
    ∃ segments last, input.splitOnP separates = segments ++ [last] ∧ input.foldl (readSeparated separates feed close) s =
      last.foldl feed (segments.foldl (fun s segment => close (segment.foldl feed s)) s) := by
  induction input generalizing s with
  | nil => exact ⟨[], [], rfl, rfl⟩
  | cons a input ih =>
    obtain ⟨segments, last, hsegments, hfold⟩ := ih (readSeparated separates feed close s a)
    rw [List.foldl_cons, hfold, List.splitOnP_cons_eq_if_modifyHead, hsegments, readSeparated]
    cases separates a with
    | true => exact ⟨[] :: segments, last, rfl, rfl⟩
    | false =>
      cases segments with
      | nil => exact ⟨[], a :: last, rfl, rfl⟩
      | cons segment segments => exact ⟨(a :: segment) :: segments, last, rfl, rfl⟩

end Kaiion.Foundation
