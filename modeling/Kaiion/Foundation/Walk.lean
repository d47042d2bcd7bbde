import Mathlib.Computability.StateTransition
import Mathlib.Data.Set.Finite.Basic
import Mathlib.Data.Set.Card

/-! Deterministic walks: a walk through finitely many places ends unless it goes round in a circle. -/
namespace Kaiion.Foundation
open StateTransition Relation

variable {σ : Type} {f : σ → Option σ} {a b : σ}

/-- What is behind a place on a circle is on a circle. -/
theorem circle_of_reaches (hcircle : Reaches₁ f a a) (h : Reaches f a b) : Reaches₁ f b b := by
  induction h with
  | refl => exact hcircle
  | tail _ hstep ih => exact TransGen.tail' (reaches₁_fwd ih hstep) hstep

theorem eval_dom_step (h : f a = some b) : (eval f a).Dom ↔ (eval f b).Dom := by
  rw [reaches_eval (f := f) (ReflTransGen.single h)]

/-- A walk that cannot come back to where it was ends. -/
private theorem eval_dom_of_no_circle (hfinite : {b | Reaches f a b}.Finite)
    (hcircle : ∀ b, Reaches f a b → ¬ Reaches₁ f b b) : (eval f a).Dom := by
  induction hcard : {b | Reaches f a b}.ncard using Nat.strong_induction_on generalizing a with
  | _ places ih =>
    cases hstep : f a with
    | none => exact Part.dom_iff_mem.mpr ⟨a, mem_eval.mpr ⟨.refl, hstep⟩⟩
    | some b =>
      have hle : ∀ c, Reaches f b c → Reaches f a c := fun c h => .head hstep h
      have hsub : {c | Reaches f b c} ⊂ {c | Reaches f a c} := by
        refine ⟨fun c h => hle c h, fun h => hcircle a .refl ?_⟩
        exact TransGen.head' hstep (h (show Reaches f a a from .refl))
      rw [eval_dom_step hstep]
      exact ih _ (hcard ▸ Set.ncard_lt_ncard hsub hfinite) (hfinite.subset hsub.1) (fun c h => hcircle c (hle c h)) rfl

/-- Among finitely many places a walk ends exactly when none of them leads back to itself. -/
theorem eval_dom_iff_no_circle (hfinite : {b | Reaches f a b}.Finite) :
    (eval f a).Dom ↔ ∀ b, Reaches f a b → ¬ Reaches₁ f b b := by
  refine ⟨fun hdom b hreach hcircle => ?_, eval_dom_of_no_circle hfinite⟩
  obtain ⟨c, hlast⟩ := Part.dom_iff_mem.mp hdom
  obtain ⟨hc, hend⟩ := mem_eval.mp hlast
  have hback : Reaches f b c := by
    rcases reaches_total hreach hc with h | h
    · exact h
    · rw [(eval_maximal hlast).mp h]
      exact .refl
  exact eval_maximal₁ hlast c (circle_of_reaches hcircle hback)

end Kaiion.Foundation
