import Kaiion.Foundation.Choice
import Kaiion.Scheduling.Handoff

/-! What a pass selects: the first loop of `dispatch_ready` as three independent collections, none of
which depends on the order in which the queue is iterated. -/
namespace Kaiion.Scheduling
open Foundation

variable {inner : Inner} {closed : Closings} {now : Nat} {s t : State}

abbrev Entry := Sigma fun _ : Nat => Pending

/-- Score descending, then enqueue time ascending, then id ascending. -/
def outranks (candidate other : Nat × Int × Nat) : Bool :=
  beats candidate.1 candidate.2.1 candidate.2.2 (some other)

theorem outranks_iff {candidate other : Nat × Int × Nat} : outranks candidate other = true ↔
    other.2.1 < candidate.2.1 ∨ candidate.2.1 = other.2.1 ∧ (candidate.2.2 < other.2.2 ∨
      candidate.2.2 = other.2.2 ∧ candidate.1 < other.1) := by
  unfold outranks beats
  simp only [Bool.or_eq_true, Bool.and_eq_true, decide_eq_true_eq, and_assoc]
  grind

theorem outranks_ranks : Ranks outranks where
  irrefl a := by
    rw [Bool.eq_false_iff, ne_eq, outranks_iff]
    omega
  trans {a b c} hab hbc := by
    rw [outranks_iff] at hab hbc ⊢
    omega
  total {a b} hne := by
    rw [outranks_iff, outranks_iff]
    by_contra hnone
    have hsame : a.1 = b.1 ∧ a.2.1 = b.2.1 ∧ a.2.2 = b.2.2 := by omega
    exact hne (Prod.ext hsame.1 (Prod.ext hsame.2.1 hsame.2.2))

/-- Its receiver is open and it can be sent now. -/
def dispatchable (inner : Inner) (closed : Closings) (now : Nat) (s : State) (entry : Entry) : Bool :=
  !closed .scan entry.2.sender && entry.2.readyAt inner s now

/-- It leaves the queue. -/
def rejected (inner : Inner) (closed : Closings) (now : Nat) (s : State) (entry : Entry) : Bool :=
  closed .scan entry.2.sender || (entry.2.fit inner s now).impossible

/-- The later instant at which it may be sent. -/
def waitsUntil (inner : Inner) (closed : Closings) (now : Nat) (s : State) (entry : Entry) : Option Nat :=
  if rejected inner closed now s entry then none
  else (entry.2.fit inner s now).atTime.filter (fun instant => now < instant)

def rank (inner : Inner) (now : Nat) (s : State) (entry : Entry) : Nat × Int × Nat :=
  (entry.1, entry.2.score inner s now, entry.2.enqueuedAt)

/-- The entries a pass chooses from. -/
def candidates (inner : Inner) (closed : Closings) (now : Nat) (s : State) (entries : List Entry) : List Entry :=
  if queueReady s now then entries.filter (dispatchable inner closed now s) else []

private theorem scanOne_eq (scan : Scan) (entry : Entry) :
    scanOne inner s closed now (queueReady s now) scan entry.1 entry.2 =
      { best := ((candidates inner closed now s [entry]).map (rank inner now s)).foldl (keepBest outranks) scan.best
        nextDue := (waitsUntil inner closed now s entry).toList.foldl earlier scan.nextDue
        impossible := scan.impossible ++
          ([entry].filter (rejected inner closed now s)).map Sigma.fst } := by
  have hbeats : ∀ best : Option (Nat × Int × Nat), beats entry.1 (entry.2.score inner s now) entry.2.enqueuedAt best =
      best.all (fun current => outranks (rank inner now s entry) current) := by
    intro best
    cases best <;> rfl
  unfold scanOne candidates waitsUntil rejected dispatchable Pending.readyAt Fit.readyBy
  cases hclosed : closed .scan entry.2.sender with
  | true => simp [hclosed]
  | false =>
  cases himpossible : (entry.2.fit inner s now).impossible with
  | true => simp [hclosed, himpossible]
  | false =>
  cases hinstant : (entry.2.fit inner s now).atTime with
  | none => simp [hclosed, himpossible, hinstant]
  | some instant =>
  by_cases hlater : now < instant
  · simp [hclosed, himpossible, hinstant, hlater, Option.filter_some]
  cases hqueue : queueReady s now with
  | false => simp [hclosed, himpossible, hinstant, hlater, Option.filter_some]
  | true =>
    simp only [hclosed, himpossible, hinstant, hlater, hbeats, if_false, Bool.false_eq_true, Bool.not_true,
      Bool.or_false, List.filter_cons, List.filter_nil, Option.any_some, Nat.le_of_not_lt hlater, decide_true,
      Bool.not_false, Bool.and_true, if_true, Option.filter_some, decide_false, List.map_cons, List.map_nil,
      List.append_nil, List.foldl_cons, List.foldl_nil, Option.toList_none, keepBest]
    split <;> rfl

/-- The three things a pass collects. -/
private theorem scanPending_eq (entries : List Entry) (scan : Scan) :
    scanPending inner s closed now (queueReady s now) entries scan =
      { best := ((candidates inner closed now s entries).map (rank inner now s)).foldl (keepBest outranks) scan.best
        nextDue := (entries.filterMap (waitsUntil inner closed now s)).foldl earlier scan.nextDue
        impossible := scan.impossible ++ (entries.filter (rejected inner closed now s)).map Sigma.fst } := by
  induction entries generalizing scan with
  | nil => simp [scanPending, candidates]
  | cons entry entries ih =>
    have hfirst : candidates inner closed now s (entry :: entries) =
        candidates inner closed now s [entry] ++ candidates inner closed now s entries := by
      unfold candidates
      split
      · exact List.filter_append [entry] entries
      · rfl
    have hwaits : (entry :: entries).filterMap (waitsUntil inner closed now s) =
        (waitsUntil inner closed now s entry).toList ++ entries.filterMap (waitsUntil inner closed now s) := by
      cases h : waitsUntil inner closed now s entry <;> simp [h]
    have hrejected : (entry :: entries).filter (rejected inner closed now s) =
        [entry].filter (rejected inner closed now s) ++ entries.filter (rejected inner closed now s) :=
      List.filter_append [entry] entries
    change scanPending inner s closed now (queueReady s now) entries (scanOne inner s closed now
      (queueReady s now) scan entry.1 entry.2) = _
    rw [ih, scanOne_eq, hfirst, hwaits, hrejected, List.map_append, List.foldl_append, List.foldl_append,
      List.map_append, List.append_assoc]

/-- The first loop of a pass, without its order. -/
theorem scan_eq (inner : Inner) (closed : Closings) (now : Nat) (s : State) : s.scan inner closed now =
    { best := ((candidates inner closed now s s.pending.entries).map (rank inner now s)).foldl (keepBest outranks) none
      nextDue := (s.pending.entries.filterMap (waitsUntil inner closed now s)).foldl earlier
        (s.coalesceUntil.filter (fun instant => now < instant))
      impossible := (s.pending.entries.filter (rejected inner closed now s)).map Sigma.fst } :=
  scanPending_eq s.pending.entries _

/-- The same state with its queue iterated in another order. -/
structure Reordered (s t : State) : Prop where
  pending : s.pending.entries.Perm t.pending.entries
  rest : t = { s with pending := t.pending }

/-- Nothing a pass asks about one entry depends on the other entries. -/
theorem Reordered.asks (h : Reordered s t) (inner : Inner) (closed : Closings) (now : Nat) :
    dispatchable inner closed now t = dispatchable inner closed now s ∧
      rejected inner closed now t = rejected inner closed now s ∧
      waitsUntil inner closed now t = waitsUntil inner closed now s ∧ rank inner now t = rank inner now s ∧
      queueReady t now = queueReady s now := by
  have hfit : ∀ pending : Pending, pending.fit inner t now = pending.fit inner s now := fun pending =>
    fit_congr (by rw [h.rest]) (by rw [h.rest]) (by rw [h.rest]) pending now
  have hscore : ∀ pending : Pending, pending.score inner t now = pending.score inner s now := fun pending => by
    rw [h.rest]
    rfl
  have hrejected : rejected inner closed now t = rejected inner closed now s := by
    funext entry
    rw [rejected, rejected, hfit]
  refine ⟨?_, hrejected, ?_, ?_, ?_⟩
  · funext entry
    rw [dispatchable, dispatchable, Pending.readyAt, Pending.readyAt, hfit]
  · funext entry
    rw [waitsUntil, waitsUntil, hrejected, hfit]
  · funext entry
    rw [rank, rank, hscore]
  · rw [h.rest]
    rfl

private instance : RightCommutative earlier where
  right_comm due a b := by
    cases due with
    | none => simp [earlier, Nat.min_comm]
    | some old => simp [earlier, Nat.min_assoc, Nat.min_comm b a]

/-- The scan collects the same, whatever the order. -/
theorem Reordered.scan (h : Reordered s t) (inner : Inner) (closed : Closings) (now : Nat) :
    (t.scan inner closed now).best = (s.scan inner closed now).best ∧
      (t.scan inner closed now).nextDue = (s.scan inner closed now).nextDue ∧
      (s.scan inner closed now).impossible.Perm (t.scan inner closed now).impossible := by
  obtain ⟨hdispatchable, hrejected, hwaits, hrank, hqueue⟩ := h.asks inner closed now
  have hcoalesce : t.coalesceUntil = s.coalesceUntil := by rw [h.rest]
  rw [scan_eq, scan_eq, hrejected, hwaits, hrank, hcoalesce]
  refine ⟨?_, (h.pending.filterMap _).symm.foldl_eq _, (h.pending.filter _).map _⟩
  refine keepBest_perm outranks_ranks (List.Perm.map _ ?_)
  unfold candidates
  rw [hqueue, hdispatchable]
  split
  · exact (h.pending.filter _).symm
  · exact .refl _

end Kaiion.Scheduling
