import Mathlib.Data.List.Basic
import Mathlib.Data.List.Induction

/-! Timers that are pushed back by pauses, and the replay of a list of them. -/
namespace Kaiion.Foundation

/-- A pause starts where the timer stands, or now. -/
def pushBack (timer : Option Nat) (now : Nat) : Option Nat → Option Nat
  | none => timer
  | some pause => some (max (timer.getD now) now + pause)

/-- A timer that stands no later than now. -/
theorem pushBack_of_le {timer : Option Nat} {now : Nat} (h : ∀ instant, timer = some instant → instant ≤ now)
    (pause : Nat) : pushBack timer now (some pause) = some (now + pause) := by
  cases timer with
  | none => rw [pushBack, Option.getD_none, Nat.max_self]
  | some instant => rw [pushBack, Option.getD_some, Nat.max_eq_right (h instant rfl)]

/-- Pushing back a timer that stands earlier does not overtake. -/
theorem pushBack_mono {timer later : Option Nat} (h : ∀ instant, timer = some instant →
    ∃ other, later = some other ∧ instant ≤ other) (now : Nat) (pause : Option Nat) {instant : Nat}
    (hpushed : pushBack timer now pause = some instant) :
    ∃ other, pushBack later now pause = some other ∧ instant ≤ other := by
  cases pause with
  | none => exact h instant hpushed
  | some pause =>
    refine ⟨_, rfl, ?_⟩
    cases timer with
    | none =>
      simp only [pushBack, Option.getD_none, Nat.max_self, Option.some.injEq] at hpushed
      omega
    | some shown =>
      obtain ⟨other, rfl, hle⟩ := h shown rfl
      simp only [pushBack, Option.getD_some, Option.some.injEq] at hpushed ⊢
      omega

/-- From the latest of all timers on, it does not matter what those show that ran out before. -/
theorem foldl_max_congr {κ : Type} {timer timer' : κ → Option Nat} {clock : Nat}
    (h : ∀ key, max ((timer key).getD 0) clock = max ((timer' key).getD 0) clock) (keys : List κ) {start : Nat}
    (hstart : clock ≤ start) : (keys.filterMap timer).foldl max start = (keys.filterMap timer').foldl max start := by
  have hstep : ∀ (timer : κ → Option Nat) key keys start, ((key :: keys).filterMap timer).foldl max start =
      (keys.filterMap timer).foldl max (max start ((timer key).getD 0)) := by
    intro timer key keys start
    cases hkey : timer key with
    | none => rw [List.filterMap_cons_none hkey, Option.getD_none, Nat.max_zero]
    | some instant => rw [List.filterMap_cons_some hkey, List.foldl_cons, Option.getD_some]
  induction keys generalizing start with
  | nil => rfl
  | cons key keys ih =>
    have hsame := h key
    have hmax : max start ((timer key).getD 0) = max start ((timer' key).getD 0) := by omega
    rw [hstep, hstep, hmax]
    exact ih (by omega)

variable {α : Type} (time : α → Nat) (pause : α → Option Nat)

/-- The timer after the pauses of all items, in order. -/
def replayed (items : List α) : Option Nat :=
  items.foldl (fun timer item => pushBack timer (time item) (pause item)) none

/-- Every pause is over when a later item starts one. -/
def Chained (items : List α) : Prop :=
  items.Pairwise (fun a b => ∀ p q, pause a = some p → pause b = some q → time a + p ≤ time b)

variable {time pause} {items : List α} {item : α} {p instant : Nat}

theorem replayed_concat (items : List α) (item : α) : replayed time pause (items ++ [item]) =
    pushBack (replayed time pause items) (time item) (pause item) := by
  unfold replayed
  rw [List.foldl_append]
  rfl

theorem replayed_congr {pause' : α → Option Nat} (h : ∀ item ∈ items, pause item = pause' item) :
    replayed time pause items = replayed time pause' items :=
  List.foldl_ext _ _ _ fun timer item hitem => by rw [h item hitem]

theorem chained_congr {pause' : α → Option Nat} (h : ∀ item ∈ items, pause item = pause' item)
    (hchained : Chained time pause items) : Chained time pause' items := by
  refine hchained.imp_of_mem fun {a b} ha hb hover p q hp hq => hover p q ?_ ?_
  · rw [h a ha, hp]
  · rw [h b hb, hq]

/-- The end of one of the pauses, -/
theorem replayed_mem (h : Chained time pause items) (hreplayed : replayed time pause items = some instant) :
    ∃ item ∈ items, ∃ p, pause item = some p ∧ instant = time item + p := by
  induction items using List.reverseRecOn generalizing instant with
  | nil => cases hreplayed
  | append_singleton items item ih =>
    obtain ⟨hbefore, -, hlast⟩ := List.pairwise_append.mp h
    rw [replayed_concat] at hreplayed
    cases hpause : pause item with
    | none =>
      rw [hpause] at hreplayed
      obtain ⟨other, hother, hend⟩ := ih hbefore hreplayed
      exact ⟨other, List.mem_append_left _ hother, hend⟩
    | some p =>
      have hover : ∀ shown, replayed time pause items = some shown → shown ≤ time item := by
        intro shown hshown
        obtain ⟨other, hother, q, hq, rfl⟩ := ih hbefore hshown
        exact hlast other hother item (List.mem_singleton.mpr rfl) q p hq hpause
      rw [hpause, pushBack_of_le hover] at hreplayed
      exact ⟨item, List.mem_append_right _ (List.mem_singleton.mpr rfl), p, hpause, (Option.some.inj hreplayed).symm⟩

/-- and the last of them. -/
theorem le_replayed (h : Chained time pause items) (hitem : item ∈ items) (hpause : pause item = some p) :
    ∃ instant, replayed time pause items = some instant ∧ time item + p ≤ instant := by
  induction items using List.reverseRecOn with
  | nil => cases hitem
  | append_singleton items last ih =>
    obtain ⟨hbefore, -, hlast⟩ := List.pairwise_append.mp h
    rw [replayed_concat]
    rcases List.mem_append.mp hitem with hitem | hitem
    · obtain ⟨instant, hinstant, hle⟩ := ih hbefore hitem
      rw [hinstant]
      cases pause last with
      | none => exact ⟨instant, rfl, hle⟩
      | some q =>
        refine ⟨_, rfl, ?_⟩
        rw [Option.getD_some]
        omega
    · rw [List.mem_singleton.mp hitem] at hpause ⊢
      rw [hpause]
      refine ⟨_, rfl, ?_⟩
      omega

end Kaiion.Foundation
