import Kaiion.Foundation.Suspension
import Kaiion.Proxy.ScheduledDirect
import Kaiion.Proxy.UsageTracker
import Kaiion.Json.Print

/-! The body of a live event stream: it passes on what arrives and settles the permit of its request,
however the upstream ends and wherever the client stops reading. -/
namespace Kaiion.Proxy
open Foundation Scheduling
open Foundation.Prog (Event Stands Loops Runs)

/-- A chunk of a body, or its failure. -/
abbrev Item := Except TransportError (List UInt8)

/-- Where the body waits, with the permit that goes when it is dropped there. -/
inductive BodyOp where
  /-- The upstream's next item, if it has not ended. -/
  | next (held : Option SchedulePermit)
  | yield (item : Item) (held : Option SchedulePermit)
  /-- The permit is the scheduler's from here on. -/
  | complete (permit : SchedulePermit) (usage : Usage)

abbrev BodyOp.Reply : BodyOp → Type
  | next _ => Option Item
  | yield _ _ | complete _ _ => Unit

def BodyOp.held : BodyOp → Option SchedulePermit
  | next held | yield _ held => held
  | complete _ _ => none

structure SseBody where
  usage : SseUsageTracker
  permit : Option SchedulePermit

namespace SseBody

/-- `if let Some(permit) = permit.take()` -/
def settle (permit : Option SchedulePermit) (usage : Option Usage) : Prog BodyOp.Reply Unit :=
  match permit with
  | some permit => Prog.perform (BodyOp.complete permit (usage.getD (none, none, none)))
  | none => return ()

/-- One round of the loop; what is returned is the state of the next one. -/
def turn (c : Codec) (body : SseBody) : Prog BodyOp.Reply (Option SseBody) := do
  match ← (Prog.perform (BodyOp.next body.permit) : Prog BodyOp.Reply (Option Item)) with
  | some (.ok bytes) =>
    let usage := body.usage.push c bytes
    Prog.perform (BodyOp.yield (.ok bytes) body.permit)
    return some { body with usage }
  | some (.error error) =>
    settle body.permit body.usage.usage
    Prog.perform (BodyOp.yield (.error error) none)
    return none
  | none =>
    settle body.permit (body.usage.finish c).usage
    return none

/-- `scheduled_upstream_response` hands the permit to the body. -/
def opened (permit : SchedulePermit) : SseBody := ⟨.empty, some permit⟩

/-- What has happened. -/
abbrev Trace := List (Event BodyOp.Reply)

/-- What the upstream sent. -/
def received (trace : Trace) : List Item := trace.filterMap fun
  | ⟨.next _, item⟩ => item
  | _ => none

/-- What the client got. -/
def yielded (trace : Trace) : List Item := trace.filterMap fun
  | ⟨.yield item _, _⟩ => some item
  | _ => none

def completed (trace : Trace) : List (SchedulePermit × Usage) := trace.filterMap fun
  | ⟨.complete permit usage, _⟩ => some (permit, usage)
  | _ => none

/-- The upstream ended its body. -/
def finished (trace : Trace) : Bool := trace.any fun
  | ⟨.next _, none⟩ => true
  | _ => false

/-- The bytes of the chunks. -/
def bytesOf (items : List Item) : List UInt8 := (items.filterMap Except.toOption).flatten

/-- The completions so far, with the one that may be under way. -/
def settlements (trace : Trace) : Option BodyOp → List (SchedulePermit × Usage)
  | some (.complete permit usage) => completed trace ++ [(permit, usage)]
  | _ => completed trace

/-- What the upstream reports of its usage: all of it if it ended, the closed events if it broke off. -/
def usageOf (c : Codec) (trace : Trace) : Usage :=
  (if finished trace then SseUsageTracker.streamUsage c (bytesOf (received trace))
    else SseUsageTracker.closedUsage c (bytesOf (received trace))).getD (none, none, none)

/-- Any item may arrive. -/
def anyItem (op : BodyOp) (_ : op.Reply) : Prop := True

/-- Between two turns. -/
structure Reading (c : Codec) (permit : SchedulePermit) (body : SseBody) (trace : Trace) : Prop where
  usage : ∃ chunks : List (List UInt8), received trace = chunks.map .ok ∧
    body.usage = chunks.foldl (SseUsageTracker.push c) .empty
  held : body.permit = some permit
  passed : yielded trace = received trace
  completed : completed trace = []
  goesOn : finished trace = false

/-- Wherever the body stands. -/
structure Passes (c : Codec) (permit : SchedulePermit) (trace : Trace) (pending : Option BodyOp) : Prop where
  passed : ∃ late, received trace = yielded trace ++ late ∧ late.length ≤ 1 ∧ (pending = none → late = [])
  settled : (settlements trace pending).map Prod.fst ++ (pending.bind BodyOp.held).toList = [permit]
  usage : ∀ settlement ∈ settlements trace pending, settlement.2 = usageOf c trace

section Append
variable (trace later : Trace)

@[simp] theorem received_append : received (trace ++ later) = received trace ++ received later := List.filterMap_append

@[simp] theorem yielded_append : yielded (trace ++ later) = yielded trace ++ yielded later := List.filterMap_append

@[simp] theorem completed_append : completed (trace ++ later) = completed trace ++ completed later := List.filterMap_append

@[simp] theorem finished_append : finished (trace ++ later) = (finished trace || finished later) := List.any_append

end Append

section Reading
variable {c : Codec} {permit : SchedulePermit} {body : SseBody} {trace events : Trace}

private theorem bytesOf_ok (chunks : List (List UInt8)) : bytesOf (chunks.map .ok) = chunks.flatten := by
  unfold bytesOf
  rw [List.filterMap_map]
  exact congrArg List.flatten (List.filterMap_some ..)

private theorem bytesOf_error (items : List Item) (error : TransportError) :
    bytesOf (items ++ [.error error]) = bytesOf items := by
  unfold bytesOf
  rw [List.filterMap_append]
  exact congrArg List.flatten (List.append_nil _)

private theorem of_complete {α : Type} {usage : Usage} {f : Unit → Prog BodyOp.Reply α} {value : α}
    (h : Runs anyItem (Prog.perform (.complete permit usage) >>= f) events value) :
    ∃ later, events = ⟨.complete permit usage, ()⟩ :: later ∧ Runs anyItem (f ()) later value := by
  obtain ⟨_, later, heq, -, hrest⟩ := Runs.of_perform h
  exact ⟨later, heq, hrest⟩

private theorem stands_complete {α : Type} {usage : Usage} {f : Unit → Prog BodyOp.Reply α} {rest : Prog BodyOp.Reply α}
    (h : Stands anyItem (Prog.perform (.complete permit usage) >>= f) events rest) :
    (events = [] ∧ rest.pending = some (.complete permit usage)) ∨
      ∃ later, events = ⟨.complete permit usage, ()⟩ :: later ∧ Stands anyItem (f ()) later rest := by
  rcases Stands.of_perform h with hhere | ⟨_, later, heq, -, hrest⟩
  · exact .inl hhere
  · exact .inr ⟨later, heq, hrest⟩

/-- Where nothing of the permit has been settled yet. -/
private theorem Reading.holds (h : Reading c permit body trace) {pending : BodyOp} (hheld : pending.held = some permit)
    (late : List Item) (hreceived : received events = yielded events ++ late) (hlate : late.length ≤ 1)
    (hcompleted : SseBody.completed events = []) : Passes c permit (trace ++ events) (some pending) := by
  have hnone : settlements (trace ++ events) (some pending) = [] := by
    cases pending with
    | complete => cases hheld
    | _ => exact (completed_append trace events).trans (by rw [h.completed, hcompleted]; rfl)
  refine ⟨⟨late, ?_, hlate, fun he => nomatch he⟩, ?_, fun settlement hs => ?_⟩
  · rw [received_append, yielded_append, hreceived, h.passed, List.append_assoc]
  · rw [hnone]
    exact congrArg Option.toList hheld
  · rw [hnone] at hs
    cases hs

/-- A turn that goes on has passed on a chunk. -/
theorem Reading.turned (h : Reading c permit body trace) {next : SseBody}
    (hrun : Runs anyItem (turn c body) events (some next)) : Reading c permit next (trace ++ events) := by
  obtain ⟨chunks, hreceived, husage⟩ := h.usage
  obtain ⟨tracker, held⟩ := body
  obtain rfl : held = some permit := h.held
  obtain ⟨item, rest, rfl, -, hrest⟩ := Runs.of_perform hrun
  cases item with
  | none =>
    obtain ⟨_, -, hend⟩ := of_complete hrest
    cases (Runs.of_ret hend).2
  | some item =>
    cases item with
    | error error =>
      obtain ⟨_, -, hrest⟩ := of_complete hrest
      obtain ⟨_, _, -, -, hend⟩ := Runs.of_perform hrest
      cases (Runs.of_ret hend).2
    | ok bytes =>
      obtain ⟨_, _, rfl, -, hend⟩ := Runs.of_perform hrest
      obtain ⟨rfl, hnext⟩ := Runs.of_ret hend
      cases hnext
      have hchunk : received (trace ++ [⟨.next (some permit), some (.ok bytes)⟩, ⟨.yield (.ok bytes) (some permit), ()⟩]) =
          (chunks ++ [bytes]).map .ok := by
        rw [received_append, hreceived, List.map_append]
        rfl
      refine ⟨⟨chunks ++ [bytes], hchunk, ?_⟩, rfl, ?_, ?_, ?_⟩
      · rw [List.foldl_append, ← husage]
        rfl
      · rw [yielded_append, received_append, h.passed]
        rfl
      · rw [completed_append, h.completed]
        rfl
      · rw [finished_append, h.goesOn]
        rfl

/-- The permit has been settled with this usage. -/
private theorem Reading.settles (h : Reading c permit body trace) {pending : Option BodyOp} {usage : Usage}
    (hsettled : settlements (trace ++ events) pending = [(permit, usage)]) (hheld : pending.bind BodyOp.held = none)
    (husage : usage = usageOf c (trace ++ events)) (late : List Item) (hreceived : received events = yielded events ++ late)
    (hlate : late.length ≤ 1) (hnone : pending = none → late = []) : Passes c permit (trace ++ events) pending := by
  refine ⟨⟨late, ?_, hlate, hnone⟩, ?_, fun settlement hs => ?_⟩
  · rw [received_append, yielded_append, hreceived, h.passed, List.append_assoc]
  · rw [hsettled, hheld]
    rfl
  · rw [hsettled] at hs
    rw [List.mem_singleton.mp hs]
    exact husage

/-- The usage at the end of the upstream's body. -/
private theorem Reading.ended (h : Reading c permit body trace) {later : Trace} (hlater : received later = []) :
    ((body.usage.finish c).usage.getD (none, none, none)) =
      usageOf c (trace ++ ⟨.next (some permit), none⟩ :: later) := by
  obtain ⟨chunks, hreceived, husage⟩ := h.usage
  have hall : received (trace ++ ⟨.next (some permit), none⟩ :: later) = chunks.map .ok := by
    rw [received_append, hreceived]
    exact (congrArg (chunks.map .ok ++ ·) hlater).trans (List.append_nil _)
  have hfinished : finished (trace ++ ⟨.next (some permit), none⟩ :: later) = true := by
    rw [finished_append]
    exact Bool.or_true _
  rw [usageOf, hfinished, if_pos rfl, hall, bytesOf_ok, husage, SseUsageTracker.finish_usage_whole]

/-- The usage when it breaks off. -/
private theorem Reading.broken (h : Reading c permit body trace) {error : TransportError} {later : Trace}
    (hlater : received later = []) (hopen : finished later = false) :
    (body.usage.usage.getD (none, none, none)) =
      usageOf c (trace ++ ⟨.next (some permit), some (.error error)⟩ :: later) := by
  obtain ⟨chunks, hreceived, husage⟩ := h.usage
  have hall : received (trace ++ ⟨.next (some permit), some (.error error)⟩ :: later) =
      chunks.map .ok ++ [.error error] := by
    rw [received_append, hreceived]
    exact congrArg (fun items => chunks.map .ok ++ Except.error error :: items) hlater
  have hgoes : finished (trace ++ ⟨.next (some permit), some (.error error)⟩ :: later) = false := by
    rw [finished_append, h.goesOn]
    exact hopen
  rw [usageOf, hgoes, if_neg Bool.false_ne_true, hall, bytesOf_error, bytesOf_ok, husage, SseUsageTracker.push_usage]

/-- Wherever the body is suspended. -/
theorem Reading.stands (h : Reading c permit body trace) {rest : Prog BodyOp.Reply (Option SseBody)}
    (hstands : Stands anyItem (turn c body) events rest) (hinside : ∀ next, rest ≠ .ret (some next)) :
    Passes c permit (trace ++ events) rest.pending := by
  obtain ⟨tracker, held⟩ := body
  obtain rfl : held = some permit := h.held
  rcases Stands.of_perform hstands with ⟨rfl, hpending⟩ | ⟨item, later, rfl, -, hrest⟩
  · rw [hpending]
    exact h.holds rfl [] rfl (Nat.zero_le 1) rfl
  cases item with
  | none =>
    rcases stands_complete hrest with ⟨rfl, hpending⟩ | ⟨later, rfl, hend⟩
    · rw [hpending]
      refine h.settles ?_ rfl (h.ended rfl) [] rfl (Nat.zero_le 1) fun he => nomatch he
      unfold settlements
      rw [completed_append, h.completed]
      rfl
    · obtain ⟨rfl, rfl⟩ := Stands.of_ret hend
      refine h.settles ?_ rfl (h.ended rfl) [] rfl (Nat.zero_le 1) fun _ => rfl
      exact (completed_append ..).trans (by rw [h.completed]; rfl)
  | some item =>
    cases item with
    | ok bytes =>
      rcases Stands.of_perform hrest with ⟨rfl, hpending⟩ | ⟨_, later, rfl, -, hend⟩
      · rw [hpending]
        exact h.holds rfl [.ok bytes] rfl le_rfl rfl
      · obtain ⟨rfl, rfl⟩ := Stands.of_ret hend
        exact absurd rfl (hinside _)
    | error error =>
      rcases stands_complete hrest with ⟨rfl, hpending⟩ | ⟨later, rfl, hlast⟩
      · rw [hpending]
        refine h.settles ?_ rfl (h.broken rfl rfl) [.error error] rfl le_rfl fun he => nomatch he
        unfold settlements
        rw [completed_append, h.completed]
        rfl
      rcases Stands.of_perform hlast with ⟨rfl, hpending⟩ | ⟨_, later, rfl, -, hend⟩
      · rw [hpending]
        refine h.settles ?_ rfl (h.broken rfl rfl) [.error error] rfl le_rfl fun he => nomatch he
        exact (completed_append ..).trans (by rw [h.completed]; rfl)
      · obtain ⟨rfl, rfl⟩ := Stands.of_ret hend
        refine h.settles ?_ rfl (h.broken rfl rfl) [] rfl (Nat.zero_le 1) fun _ => rfl
        exact (completed_append ..).trans (by rw [h.completed]; rfl)

end Reading

/-- Whatever the upstream sends, in chunks of any sizes, however its body ends and wherever the client
stops reading: what the client got is what arrived, but for the item on its way. The permit is with the
body, and dropped with it, until it is given to one completion; a body that has returned has given it away.
That completion reports the usage of the whole stream if the stream ended, and of its closed events if it
broke off. -/
theorem stream_body_settles_once (c : Codec) (permit : SchedulePermit) {trace : Trace}
    {rest : Prog BodyOp.Reply (Option SseBody)} (h : Loops anyItem (turn c) (opened permit) trace rest) :
    (∃ late, received trace = yielded trace ++ late ∧ late.length ≤ 1 ∧ (rest.pending = none → late = [])) ∧
    (settlements trace rest.pending).map Prod.fst ++ (rest.pending.bind BodyOp.held).toList = [permit] ∧
    ∀ settlement ∈ settlements trace rest.pending, settlement.2 = usageOf c trace := by
  have hopened : Reading c permit (opened permit) [] := ⟨⟨[], rfl, rfl⟩, rfl, rfl, rfl, rfl⟩
  have hpasses : Passes c permit ([] ++ trace) rest.pending :=
    Loops.keeps (Q := fun trace rest => Passes c permit trace rest.pending) (fun _ _ _ _ h hrun => h.turned hrun)
      (fun _ _ _ _ h hstands hinside => h.stands hstands hinside) hopened h
  exact ⟨hpasses.passed, hpasses.settled, hpasses.usage⟩

private def livePermit : SchedulePermit where
  reservationId := some 3
  provider := "https://api.openai.com/v1"
  authScope := "scope"
  model := "gpt-5"
  sessionId := none
  interaction := .unknown
  inputTokens := 10
  outputTokens := 20
  waited := 0

private def reported : Value := .object [("usage", .object [("output_tokens", .number (.unsigned 7))])]

private def reportText : String := "\x7b\"usage\":\x7b\"output_tokens\":7\x7d\x7d"

private def event : List UInt8 := ("data: " ++ reportText ++ "\n\n").toUTF8.data.toList

private theorem event_usage : SseUsageTracker.streamUsage Json.compact event = some (none, some 7, none) := by
  have hevents : SseUsageTracker.streamEvents event = [[("data: " ++ reportText).toUTF8.data.toList], [], []] := by
    decide +kernel
  have hvalues : [("data: " ++ reportText).toUTF8.data.toList].filterMap SseUsageTracker.dataValue =
      [reportText.toUTF8.data.toList] := by
    decide +kernel
  have hslice : SseUsageTracker.fromSlice Json.compact reportText.toUTF8.data.toList = some reported := by
    have htext : SseUsageTracker.fromSlice Json.compact reportText.toUTF8.data.toList =
        (Json.compact.parse reportText).toOption := congrArg (Option.bind · _) (dif_pos reportText.isValidUTF8)
    have hprint : Json.compact.print reported = reportText := by decide
    rw [htext, ← hprint, (Json.compact_roundTrips reported).1]
    rfl
  have hevent : SseUsageTracker.eventUsage Json.compact [("data: " ++ reportText).toUTF8.data.toList] =
      some (none, some 7, none) := by
    have hfits : ¬ (SseUsageTracker.Oversized [reportText.toUTF8.data.toList] ∨
        SseUsageTracker.joinValues [reportText.toUTF8.data.toList] = []) := by decide +kernel
    have hjoined : SseUsageTracker.joinValues [reportText.toUTF8.data.toList] = reportText.toUTF8.data.toList := by
      decide +kernel
    unfold SseUsageTracker.eventUsage
    rw [hvalues]
    dsimp only
    rw [if_neg hfits, hjoined, hslice]
    decide
  unfold SseUsageTracker.streamUsage
  rw [hevents, List.filterMap_cons_some hevent]
  rfl

/-- A chunk arrives and is passed on. -/
private def passes (bytes : List UInt8) : Trace :=
  [⟨.next (some livePermit), some (.ok bytes)⟩, ⟨.yield (.ok bytes) (some livePermit), ()⟩]

private def twoChunks : Trace :=
  passes (event.take 20) ++ (passes (event.drop 20) ++
    [⟨.next (some livePermit), none⟩, ⟨.complete livePermit (none, some 7, none), ()⟩])

private theorem passes_runs (tracker : SseUsageTracker) (bytes : List UInt8) :
    Runs anyItem (turn Json.compact ⟨tracker, some livePermit⟩) (passes bytes)
      (some ⟨tracker.push Json.compact bytes, some livePermit⟩) :=
  .call _ trivial (.call _ trivial (.ret _))

private theorem ends_stands {tracker : SseUsageTracker} {usage : Usage}
    (husage : (tracker.finish Json.compact).usage.getD (none, none, none) = usage) :
    Stands anyItem (turn Json.compact ⟨tracker, some livePermit⟩)
      [⟨.next (some livePermit), none⟩, ⟨.complete livePermit usage, ()⟩] (.ret none) := by
  subst husage
  exact .call _ trivial (.call _ trivial (.here _))

private theorem twoChunks_loops : Loops anyItem (turn Json.compact) (opened livePermit) twoChunks (.ret none) := by
  have hwhole := SseUsageTracker.finish_usage_whole Json.compact [event.take 20, event.drop 20]
  have hchunks : [event.take 20, event.drop 20].flatten = event := by
    rw [List.flatten_cons, List.flatten_singleton, List.take_append_drop]
  rw [hchunks, event_usage, List.foldl_cons, List.foldl_cons, List.foldl_nil] at hwhole
  have hlast := ends_stands (congrArg (Option.getD · (none, none, none)) hwhole)
  exact .again (passes_runs _ _) (.again (passes_runs _ _) (.within hlast fun _ he => nomatch (Prog.ret.inj he)))

/-- The event with the usage comes in two chunks. -/
theorem stream_body_settles_once_chunks : received twoChunks = yielded twoChunks ∧
    (settlements twoChunks none).map Prod.fst = [livePermit] ∧ (none, some 7, none) = usageOf Json.compact twoChunks := by
  obtain ⟨⟨late, hpassed, -, hnone⟩, hsettled, husage⟩ :=
    stream_body_settles_once Json.compact livePermit twoChunks_loops
  rw [hnone rfl, List.append_nil] at hpassed
  have hcompleted : settlements twoChunks none = [(livePermit, none, some 7, none)] := by
    unfold settlements twoChunks
    rw [completed_append, completed_append]
    rfl
  rw [Prog.pending, hcompleted] at hsettled husage
  rw [hcompleted]
  exact ⟨hpassed, hsettled, husage _ List.mem_cons_self⟩

end SseBody
end Kaiion.Proxy
