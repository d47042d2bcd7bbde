import Kaiion.Scheduling.Readiness
import Kaiion.Scheduling.Pass

/-! The loop of `dispatch_available` ends, and leaves nothing behind that could be sent. -/
namespace Kaiion.Scheduling
open Foundation

variable {inner : Inner} {now : Nat} {s : State}

/-- The pass asks to be repeated. -/
def Pass.again (now : Nat) (pass : Pass) : Bool := pass.due.any (fun due => due ≤ now)

/-- The loop as the source has it, one item of the list for each round with what the round finds at
the channels, and the pass it ends with. -/
inductive Drains (inner : Inner) (now : Nat) : State → List Closings → Pass → Prop where
  | last (s : State) (closed : Closings) (done : (dispatchReady inner closed now s).again now = false) :
      Drains inner now s [closed] (dispatchReady inner closed now s)
  | again (s : State) (closed : Closings) (looks : List Closings) (final : Pass)
      (repeats : (dispatchReady inner closed now s).again now = true)
      (rest : Drains inner now (dispatchReady inner closed now s).state looks final) :
      Drains inner now s (closed :: looks) { final with
        sent := (dispatchReady inner closed now s).sent ++ final.sent
        returned := (dispatchReady inner closed now s).returned ++ final.returned }

/-- The request cannot be sent at `now`: no instant is known, or it lies ahead. -/
def Fit.later (fit : Fit) (now : Nat) : Prop := ∀ instant, fit.atTime = some instant → now < instant

/-- The queue waits to coalesce. -/
def State.coalescing (s : State) (now : Nat) : Prop := ∃ release, s.coalesceUntil = some release ∧ now < release

/-- A repeated pass has taken an entry out of the queue. -/
private theorem shortens {closed : Closings} (h : (dispatchReady inner closed now s).again now = true) :
    (dispatchReady inner closed now s).state.pending.entries.length < s.pending.entries.length := by
  unfold Pass.again at h
  obtain ⟨due, hdue, hle⟩ := (Option.any_eq_true _ _).mp h
  exact dispatchReady_shortens closed s hdue (of_decide_eq_true hle)

/-- Every round but the last shortens the queue. -/
theorem Drains.rounds {looks : List Closings} {final : Pass} (h : Drains inner now s looks final) :
    looks.length ≤ s.pending.entries.length + 1 := by
  induction h with
  | last => exact Nat.le_add_left _ _
  | again s closed looks final repeats rest ih =>
    have hshort := shortens repeats
    rw [List.length_cons]
    omega

/-- Whatever the rounds find at the channels, the loop ends. -/
theorem drains_exists (inner : Inner) (now : Nat) (looks : Nat → Closings) (s : State) :
    ∃ rounds final, Drains inner now s ((List.range rounds).map looks) final := by
  induction hlen : s.pending.entries.length using Nat.strong_induction_on generalizing s looks with
  | _ length ih =>
    cases hagain : (dispatchReady inner (looks 0) now s).again now with
    | false => exact ⟨1, _, .last s (looks 0) hagain⟩
    | true =>
      have hshort := shortens hagain
      obtain ⟨rounds, final, hrest⟩ := ih _ (hlen ▸ hshort) (fun round => looks (round + 1)) _ rfl
      have hlooks : looks 0 :: (List.range rounds).map (fun round => looks (round + 1)) =
          (List.range (rounds + 1)).map looks := by
        rw [List.range_succ_eq_map, List.map_cons, List.map_map]
        rfl
      have hall := Drains.again s (looks 0) _ final hagain hrest
      rw [hlooks] at hall
      exact ⟨rounds + 1, _, hall⟩

/-- The model's bounded loop has rounds enough. -/
theorem dispatchLoop_drains (closed : Nat → Closings) {fuel : Nat} (h : s.pending.entries.length < fuel) :
    ∃ looks, (∀ look ∈ looks, ∃ turn, look = closed turn) ∧
      Drains inner now s looks (dispatchLoop inner closed now fuel s) := by
  induction fuel generalizing s with
  | zero => exact absurd h (Nat.not_lt_zero _)
  | succ fuel ih =>
    unfold dispatchLoop
    dsimp only
    split
    next hagain =>
      have hshort := shortens hagain
      obtain ⟨looks, hlooks, hrest⟩ := ih (s := (dispatchReady inner (closed fuel) now s).state) (by omega)
      refine ⟨closed fuel :: looks, fun look hlook => ?_, .again s (closed fuel) looks _ hagain hrest⟩
      rcases List.mem_cons.mp hlook with rfl | hlook
      · exact ⟨fuel, rfl⟩
      · exact hlooks look hlook
    next hdone =>
      refine ⟨[closed fuel], fun look hlook => ⟨fuel, List.mem_singleton.mp hlook⟩, .last s _ ?_⟩
      exact Bool.eq_false_iff.mpr hdone

/-- What the last pass leaves in the queue with an open receiver is not ready, or waits for the queue
to coalesce. -/
private theorem last_leaves {closed : Closings} (hdone : (dispatchReady inner closed now s).again now = false)
    {id : Nat} {pending : Pending} (found : (dispatchReady inner closed now s).state.pending.lookup id = some pending)
    (hopen : closed .scan pending.sender = false) :
    (pending.fit inner (dispatchReady inner closed now s).state now).later now ∨
      (dispatchReady inner closed now s).state.coalescing now := by
  have hsame : pending.fit inner (dispatchReady inner closed now s).state now = pending.fit inner s now := by
    rcases dispatchReady_frame hdone with hempty | ⟨hevents, hactive, hpacing⟩
    · exact absurd (AList.mem_lookup_iff.mp found) (by rw [hempty]; exact List.not_mem_nil)
    · exact fit_congr hevents hactive hpacing pending now
  rw [hsame]
  cases hqueue : queueReady (dispatchReady inner closed now s).state now with
  | false =>
    refine .inr ?_
    unfold queueReady at hqueue
    cases hcoalesce : (dispatchReady inner closed now s).state.coalesceUntil with
    | none => simp [hcoalesce] at hqueue
    | some release => exact ⟨release, hcoalesce, by simpa [hcoalesce] using hqueue⟩
  | true =>
    refine .inl fun instant hinstant => ?_
    by_contra hready
    have hpossible : (pending.fit inner s now).impossible = false := by
      by_contra himpossible
      rw [fit_of_impossible (by simpa using himpossible)] at hinstant
      cases hinstant
    obtain ⟨due, hdue, hle⟩ := dispatchReady_wakes closed s found hopen hpossible hinstant (Nat.le_refl now)
      (Nat.le_of_not_lt hready) hqueue
    simp [Pass.again, hdue, hle] at hdone

theorem Drains.leaves {looks : List Closings} {final : Pass} (h : Drains inner now s looks final) {id : Nat}
    {pending : Pending} (found : final.state.pending.lookup id = some pending)
    (hopen : ∀ closed ∈ looks, closed .scan pending.sender = false) :
    (pending.fit inner final.state now).later now ∨ final.state.coalescing now := by
  induction h with
  | last s closed done => exact last_leaves done found (hopen closed List.mem_cons_self)
  | again s closed looks final repeats rest ih =>
    exact ih found fun look hlook => hopen look (List.mem_cons_of_mem _ hlook)

/-- The loop of `dispatch_available` ends whatever its rounds find at the channels, after at most one
round more than there were entries, and an entry it leaves whose receiver stayed open cannot be sent
now or waits for the queue to coalesce. `dispatchAvailable` is such a loop. -/
theorem dispatch_drains (inner : Inner) (now : Nat) (s : State) :
    (∀ looks : Nat → Closings, ∃ rounds final, Drains inner now s ((List.range rounds).map looks) final) ∧
    (∀ closed : Nat → Closings, ∃ looks, (∀ look ∈ looks, ∃ turn, look = closed turn) ∧
      Drains inner now s looks (dispatchAvailable inner closed now s)) ∧
    ∀ looks final, Drains inner now s looks final →
      looks.length ≤ s.pending.entries.length + 1 ∧
      ∀ id pending, final.state.pending.lookup id = some pending →
        (∀ closed ∈ looks, closed .scan pending.sender = false) →
        (pending.fit inner final.state now).later now ∨ final.state.coalescing now := by
  refine ⟨fun looks => ?_, fun closed => ?_, fun looks final hdrains => ⟨hdrains.rounds, fun id pending found hopen => ?_⟩⟩
  · exact drains_exists inner now looks s
  · exact dispatchLoop_drains closed (Nat.lt_succ_self _)
  · exact hdrains.leaves found hopen

end Kaiion.Scheduling
