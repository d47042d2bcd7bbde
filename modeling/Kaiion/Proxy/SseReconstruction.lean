import Kaiion.Proxy.SseFrames

/-! What a client puts together from the events of a completed response. -/
namespace Kaiion.Proxy
open Foundation

/-- A text that was streamed. -/
structure TextPart where
  itemId : String
  contentIndex : Nat
  text : String
  part : Value
  deriving DecidableEq

structure OutputItem where
  item : Value
  texts : List TextPart
  deriving DecidableEq

/-- What the events so far are in the middle of. -/
inductive Phase where
  | between
  | item (item : Value) (texts : List TextPart)
  | part (item : Value) (texts : List TextPart) (itemId : String) (contentIndex : Nat) (deltas : String)
  | spoken (item : Value) (texts : List TextPart) (itemId : String) (contentIndex : Nat) (text : String)
  | completed (response : Value)
  deriving DecidableEq

structure Client where
  next : Nat
  items : List OutputItem
  phase : Phase
  deriving DecidableEq

def SseEvent.str (event : SseEvent) (key : String) : Option String := (event.data.get key).bind Value.asStr

def SseEvent.index (event : SseEvent) (key : String) : Option Nat := (event.data.get key).bind Value.asU64

/-- The event is about this part of the item being read. -/
def SseEvent.About (event : SseEvent) (client : Client) (itemId : String) (contentIndex : Nat) : Prop :=
  event.str "item_id" = some itemId ∧ event.index "output_index" = some client.items.length ∧
    event.index "content_index" = some contentIndex

instance (event : SseEvent) (client : Client) (itemId : String) (contentIndex : Nat) :
    Decidable (event.About client itemId contentIndex) :=
  inferInstanceAs (Decidable (_ ∧ _ ∧ _))

/-- The part of a text that has not been sent yet. -/
def emptyText : Value := .object [("annotations", .array []), ("text", .string ""), ("type", .string "output_text")]

/-- The phase after an event; a group that is opened is closed before the next one. -/
def Client.advance (client : Client) (event : SseEvent) : Option Client :=
  match client.phase with
  | .between =>
    if event.kind = "response.output_item.added" ∧ event.index "output_index" = some client.items.length then
      (event.data.get "item").map (fun item => { client with phase := .item item [] })
    else if event.kind = "response.completed" then
      (event.data.get "response").map (fun response => { client with phase := .completed response })
    else none
  | .item item texts =>
    if event.kind = "response.content_part.added" ∧ event.data.get "part" = some emptyText then
      match event.str "item_id", event.index "content_index" with
      | some itemId, some contentIndex =>
        if event.About client itemId contentIndex then some { client with phase := .part item texts itemId contentIndex "" }
        else none
      | _, _ => none
    else if event.kind = "response.output_item.done" ∧ event.index "output_index" = some client.items.length ∧
        event.data.get "item" = some item then
      some { client with items := client.items ++ [⟨item, texts⟩], phase := .between }
    else none
  | .part item texts itemId contentIndex deltas =>
    if ¬ event.About client itemId contentIndex then none
    else if event.kind = "response.output_text.delta" then
      (event.str "delta").map
        (fun delta => { client with phase := .part item texts itemId contentIndex (deltas ++ delta) })
    else if event.kind = "response.output_text.done" ∧ event.str "text" = some deltas then
      some { client with phase := .spoken item texts itemId contentIndex deltas }
    else none
  | .spoken item texts itemId contentIndex text =>
    if event.kind = "response.content_part.done" ∧ event.About client itemId contentIndex then
      (event.data.get "part").map
        (fun part => { client with phase := .item item (texts ++ [⟨itemId, contentIndex, text, part⟩]) })
    else none
  | .completed _ => none

/-- An event is read if it says what it is and carries the next number. -/
def Client.read (client : Client) (event : SseEvent) : Option Client :=
  if event.str "type" = some event.kind ∧ event.sequenceNumber = some client.next then
    (client.advance event).map (fun after => { after with next := client.next + 1 })
  else none

def Client.start (first : Nat) : Client := ⟨first, [], .between⟩

/-- The items and the response of a stream that ends with its completion. -/
def reconstruct (first : Nat) (events : List SseEvent) : Option (List OutputItem × Value) :=
  match events.foldlM Client.read (.start first) with
  | some ⟨_, items, .completed response⟩ => some (items, response)
  | _ => none

def textOf (part : Value) : String := ((part.get "text").bind Value.asStr).getD ""

/-- The text of a part of a message. -/
def textPart (itemId : String) (part : Value) (contentIndex : Nat) : Option TextPart :=
  if (part.get "type").bind Value.asStr = some "output_text" then some ⟨itemId, contentIndex, textOf part, part⟩
  else none

def textParts (item : Value) : List TextPart :=
  match messageContent item with
  | some (itemId, content) => content.zipIdx.filterMap (fun (part, contentIndex) => textPart itemId part contentIndex)
  | none => []

def outputItem (item : Value) : OutputItem := ⟨item, textParts item⟩

section Reading
variable {first : Nat} {emitter : Emitter} {client after : Client}

/-- The client has read what was pushed, and expects the next number. -/
def Emitter.ReadAs (first : Nat) (emitter : Emitter) (client : Client) : Prop :=
  emitter.events.foldlM Client.read (.start first) = some client ∧ client.next = emitter.sequence

/-- Pushing an event that says what it is and that the client can take. -/
theorem Emitter.ReadAs.push (h : emitter.ReadAs first client) (event : Nat → SseEvent)
    (htype : ∀ n, (event n).str "type" = some (event n).kind) (hnumber : ∀ n, (event n).sequenceNumber = some n)
    (hadvance : client.advance (event emitter.sequence) = some after) :
    (emitter.push event).ReadAs first { after with next := emitter.sequence + 1 } := by
  obtain ⟨hread, hnext⟩ := h
  refine ⟨?_, rfl⟩
  have hstep : client.read (event emitter.sequence) = some { after with next := emitter.sequence + 1 } := by
    unfold Client.read
    rw [if_pos ⟨htype _, by rw [hnumber, hnext]⟩, hadvance, hnext]
    rfl
  rw [Emitter.push, List.foldlM_append, hread]
  simp [hstep]

private theorem advance_added {next : Nat} {items : List OutputItem} (item : Value) (n : Nat) :
    Client.advance ⟨next, items, .between⟩ (itemEvent "response.output_item.added" items.length item n) =
      some ⟨next, items, .item item []⟩ := by
  simp [Client.advance, itemEvent, SseEvent.index, Members.get, Value.asU64]

private theorem advance_done {next : Nat} {items : List OutputItem} (item : Value) (texts : List TextPart) (n : Nat) :
    Client.advance ⟨next, items, .item item texts⟩ (itemEvent "response.output_item.done" items.length item n) =
      some ⟨next, items ++ [⟨item, texts⟩], .between⟩ := by
  simp [Client.advance, itemEvent, SseEvent.index, Members.get, Value.asU64]

private theorem about_part (kind itemId : String) (client : Client) (contentIndex : Nat) (part : Value) (n : Nat) :
    (partEvent kind itemId client.items.length contentIndex part n).About client itemId contentIndex := by
  simp [SseEvent.About, partEvent, SseEvent.str, SseEvent.index, Members.get, Value.asStr, Value.asU64]

private theorem advance_opened {next : Nat} {items : List OutputItem} (item : Value) (texts : List TextPart)
    (itemId : String) (contentIndex n : Nat) :
    Client.advance ⟨next, items, .item item texts⟩
        (partEvent "response.content_part.added" itemId items.length contentIndex emptyText n) =
      some ⟨next, items, .part item texts itemId contentIndex ""⟩ := by
  have habout := about_part "response.content_part.added" itemId ⟨next, items, .item item texts⟩ contentIndex emptyText n
  have hid : (partEvent "response.content_part.added" itemId items.length contentIndex emptyText n).str "item_id" =
      some itemId := habout.1
  have hindex : (partEvent "response.content_part.added" itemId items.length contentIndex emptyText n).index
      "content_index" = some contentIndex := habout.2.2
  unfold Client.advance
  dsimp only
  rw [if_pos ⟨rfl, rfl⟩, hid, hindex]
  exact if_pos habout

private theorem advance_delta {next : Nat} {items : List OutputItem} (item : Value) (texts : List TextPart)
    (itemId : String) (contentIndex : Nat) (text : String) (n : Nat) :
    Client.advance ⟨next, items, .part item texts itemId contentIndex ""⟩
        (textDeltaEvent itemId items.length contentIndex text n) =
      some ⟨next, items, .part item texts itemId contentIndex text⟩ := by
  simp [Client.advance, SseEvent.About, textDeltaEvent, SseEvent.str, SseEvent.index, Members.get, Value.asStr,
    Value.asU64]

private theorem advance_spoken {next : Nat} {items : List OutputItem} (item : Value) (texts : List TextPart)
    (itemId : String) (contentIndex : Nat) (text : String) (n : Nat) :
    Client.advance ⟨next, items, .part item texts itemId contentIndex text⟩
        (textDoneEvent itemId items.length contentIndex text n) =
      some ⟨next, items, .spoken item texts itemId contentIndex text⟩ := by
  simp [Client.advance, SseEvent.About, textDoneEvent, SseEvent.str, SseEvent.index, Members.get, Value.asStr,
    Value.asU64]

private theorem advance_closed {next : Nat} {items : List OutputItem} (item : Value) (texts : List TextPart)
    (itemId : String) (contentIndex : Nat) (text : String) (part : Value) (n : Nat) :
    Client.advance ⟨next, items, .spoken item texts itemId contentIndex text⟩
        (partEvent "response.content_part.done" itemId items.length contentIndex part n) =
      some ⟨next, items, .item item (texts ++ [⟨itemId, contentIndex, text, part⟩])⟩ := by
  unfold Client.advance
  dsimp only
  exact if_pos ⟨rfl, about_part "response.content_part.done" itemId
    ⟨next, items, .spoken item texts itemId contentIndex text⟩ contentIndex part n⟩

/-- The part of a message is read as the text it holds, or passed over. -/
theorem Emitter.ReadAs.emitPart {next : Nat} {items : List OutputItem} {item : Value} {texts : List TextPart}
    (h : emitter.ReadAs first ⟨next, items, .item item texts⟩) (itemId : String) (part : Value) (contentIndex : Nat) :
    ∃ later, (Proxy.emitPart itemId items.length emitter part contentIndex).ReadAs first
      ⟨later, items, .item item (texts ++ (textPart itemId part contentIndex).toList)⟩ := by
  unfold Proxy.emitPart textPart
  split
  · rw [Option.toList_none, List.append_nil]
    exact ⟨next, h⟩
  next htext =>
    rw [if_pos (not_not.mp htext), Option.toList_some]
    dsimp only
    have hopened := h.push (partEvent "response.content_part.added" itemId items.length contentIndex emptyText)
      (fun _ => rfl) (fun _ => rfl) (advance_opened item texts itemId contentIndex _)
    have hsent : ∃ later, (if textOf part = "" then
        emitter.push (partEvent "response.content_part.added" itemId items.length contentIndex emptyText)
      else (emitter.push (partEvent "response.content_part.added" itemId items.length contentIndex emptyText)).push
        (textDeltaEvent itemId items.length contentIndex (textOf part))).ReadAs first
          ⟨later, items, .part item texts itemId contentIndex (textOf part)⟩ := by
      split
      next hempty =>
        rw [hempty]
        exact ⟨_, hopened⟩
      · exact ⟨_, hopened.push _ (fun _ => rfl) (fun _ => rfl) (advance_delta item texts itemId contentIndex _ _)⟩
    obtain ⟨later, hsent⟩ := hsent
    have hspoken := hsent.push (textDoneEvent itemId items.length contentIndex (textOf part)) (fun _ => rfl)
      (fun _ => rfl) (advance_spoken item texts itemId contentIndex _ _)
    exact ⟨_, hspoken.push (partEvent "response.content_part.done" itemId items.length contentIndex part)
      (fun _ => rfl) (fun _ => rfl) (advance_closed item texts itemId contentIndex _ part _)⟩

theorem Emitter.ReadAs.emitParts {next : Nat} {items : List OutputItem} {item : Value} {texts : List TextPart}
    (h : emitter.ReadAs first ⟨next, items, .item item texts⟩) (itemId : String) (parts : List (Value × Nat)) :
    ∃ later, (parts.foldl (fun emitter (part, contentIndex) =>
        Proxy.emitPart itemId items.length emitter part contentIndex) emitter).ReadAs first
      ⟨later, items,
        .item item (texts ++ parts.filterMap (fun (part, contentIndex) => textPart itemId part contentIndex))⟩ := by
  induction parts generalizing emitter next texts with
  | nil =>
    rw [List.filterMap_nil, List.append_nil]
    exact ⟨next, h⟩
  | cons entry parts ih =>
    obtain ⟨part, contentIndex⟩ := entry
    obtain ⟨later, hentry⟩ := h.emitPart itemId part contentIndex
    obtain ⟨last, hparts⟩ := ih hentry
    refine ⟨last, ?_⟩
    rw [List.append_assoc] at hparts
    rw [List.foldl_cons, List.filterMap_cons]
    cases htext : textPart itemId part contentIndex with
    | none => simpa [htext] using hparts
    | some text => simpa [htext] using hparts

/-- An item is read with the texts it holds. -/
theorem Emitter.ReadAs.emitItem {next : Nat} {items : List OutputItem}
    (h : emitter.ReadAs first ⟨next, items, .between⟩) (item : Value) :
    ∃ later, (Proxy.emitItem emitter item items.length).ReadAs first
      ⟨later, items ++ [outputItem item], .between⟩ := by
  have hadded := h.push (itemEvent "response.output_item.added" items.length item) (fun _ => rfl) (fun _ => rfl)
    (advance_added item _)
  unfold Proxy.emitItem outputItem textParts
  cases messageContent item with
  | none =>
    exact ⟨_, hadded.push (itemEvent "response.output_item.done" items.length item) (fun _ => rfl) (fun _ => rfl)
      (advance_done item _ _)⟩
  | some message =>
    obtain ⟨later, htaken⟩ := hadded.emitParts message.1 message.2.zipIdx
    exact ⟨_, htaken.push (itemEvent "response.output_item.done" items.length item) (fun _ => rfl) (fun _ => rfl)
      (advance_done item _ _)⟩

theorem Emitter.ReadAs.emitItems {next : Nat} {items : List OutputItem}
    (h : emitter.ReadAs first ⟨next, items, .between⟩) (output : List Value) :
    ∃ later, ((output.zipIdx items.length).foldl (fun emitter (item, outputIndex) =>
        Proxy.emitItem emitter item outputIndex) emitter).ReadAs first
      ⟨later, items ++ output.map outputItem, .between⟩ := by
  induction output generalizing emitter next items with
  | nil =>
    rw [List.map_nil, List.append_nil]
    exact ⟨next, h⟩
  | cons item output ih =>
    obtain ⟨later, hitem⟩ := h.emitItem item
    obtain ⟨last, houtput⟩ := ih hitem
    refine ⟨last, ?_⟩
    rw [List.append_assoc, List.length_append] at houtput
    exact houtput

end Reading

/-- The kinds of the events about the output. -/
def outputKinds : List String := ["response.output_item.added", "response.output_item.done",
  "response.content_part.added", "response.content_part.done", "response.output_text.delta", "response.output_text.done"]

/-- The item an event says is done. -/
def SseEvent.doneItem (event : SseEvent) : Option Value :=
  if event.kind = "response.output_item.done" then event.data.get "item" else none

section Accepted
variable {client after : Client} {event : SseEvent} {events : List SseEvent}

private theorem advance_inside {kind : String} (hkind : event.kind = kind) (houtput : kind ∈ outputKinds)
    (hdone : kind ≠ "response.output_item.done") {next : Nat} {phase : Phase}
    (hphase : ∀ response, phase ≠ .completed response) :
    event.kind ∈ outputKinds ∧ (∀ response, phase ≠ .completed response) ∧
      (Client.mk next client.items phase).items.map OutputItem.item =
        client.items.map OutputItem.item ++ event.doneItem.toList := by
  have hnone : event.doneItem = none := if_neg (hkind ▸ hdone)
  rw [hnone, Option.toList_none, List.append_nil]
  exact ⟨hkind ▸ houtput, hphase, rfl⟩

/-- An event about the output leaves the response open; only an item that is done is added to the items. -/
theorem Client.advance_cases (h : client.advance event = some after) :
    (event.kind ∈ outputKinds ∧ (∀ response, after.phase ≠ .completed response) ∧
      after.items.map OutputItem.item = client.items.map OutputItem.item ++ event.doneItem.toList) ∨
    (event.kind = "response.completed" ∧ after.items = client.items ∧
      ∃ response, event.data.get "response" = some response ∧ after.phase = .completed response) := by
  unfold Client.advance at h
  split at h
  · split at h
    next hadded =>
      obtain ⟨item, -, rfl⟩ := Option.map_eq_some_iff.mp h
      exact .inl (advance_inside hadded.1 (by decide) (by decide) (fun _ h => by cases h))
    · split at h
      next hcompleted =>
        obtain ⟨response, hresponse, rfl⟩ := Option.map_eq_some_iff.mp h
        exact .inr ⟨hcompleted, rfl, response, hresponse, rfl⟩
      · cases h
  · split at h
    next hopened =>
      split at h
      · split at h
        · obtain rfl := Option.some.inj h
          exact .inl (advance_inside hopened.1 (by decide) (by decide) (fun _ h => by cases h))
        · cases h
      · cases h
    · split at h
      next hdone =>
        obtain rfl := Option.some.inj h
        obtain ⟨hkind, -, hitem⟩ := hdone
        have hdone : event.doneItem = some _ := (if_pos hkind).trans hitem
        refine .inl ⟨hkind ▸ (by decide), (fun _ h => by cases h), ?_⟩
        rw [hdone, List.map_append]
        rfl
      · cases h
  · split at h
    · cases h
    · split at h
      next hdelta =>
        obtain ⟨delta, -, rfl⟩ := Option.map_eq_some_iff.mp h
        exact .inl (advance_inside hdelta (by decide) (by decide) (fun _ h => by cases h))
      · split at h
        next hspoken =>
          obtain rfl := Option.some.inj h
          exact .inl (advance_inside hspoken.1 (by decide) (by decide) (fun _ h => by cases h))
        · cases h
  · split at h
    next hclosed =>
      obtain ⟨part, -, rfl⟩ := Option.map_eq_some_iff.mp h
      exact .inl (advance_inside hclosed.1 (by decide) (by decide) (fun _ h => by cases h))
    · cases h
  · cases h

/-- The events read are about the output, and are those of the items that are now done, as long as the
response is not complete. -/
theorem Client.read_all (h : events.foldlM Client.read client = some after)
    (hopen : ∀ response, after.phase ≠ .completed response) :
    (∀ event ∈ events, event.kind ∈ outputKinds) ∧
      after.items.map OutputItem.item = client.items.map OutputItem.item ++ events.filterMap SseEvent.doneItem := by
  induction events generalizing client with
  | nil =>
    obtain rfl := Option.some.inj h
    exact ⟨(fun _ h => by cases h), (List.append_nil _).symm⟩
  | cons event events ih =>
    rw [List.foldlM_cons] at h
    obtain ⟨mid, hread, hrest⟩ := Option.bind_eq_some_iff.mp h
    obtain ⟨hkinds, hitems⟩ := ih hrest
    unfold Client.read at hread
    split at hread
    · obtain ⟨advanced, hadvance, rfl⟩ := Option.map_eq_some_iff.mp hread
      rcases Client.advance_cases hadvance with ⟨hkind, -, hstep⟩ | ⟨-, -, response, -, hcompleted⟩
      · refine ⟨fun other hother => ?_, ?_⟩
        · rcases List.mem_cons.mp hother with rfl | hother
          · exact hkind
          · exact hkinds other hother
        · rw [hitems, List.filterMap_cons]
          cases hdone : event.doneItem <;> simp [hstep, hdone]
      · -- nothing is read after the completion
        cases events with
        | nil =>
          obtain rfl := Option.some.inj hrest
          exact absurd hcompleted (hopen response)
        | cons other events =>
          rw [List.foldlM_cons] at hrest
          obtain ⟨last, hlast, -⟩ := Option.bind_eq_some_iff.mp hrest
          simp [Client.read, Client.advance, hcompleted] at hlast
    · cases hread

end Accepted

theorem oneLine_of_output {event : SseEvent} (h : event.kind ∈ outputKinds) : OneLine event.kind :=
  (show ∀ kind ∈ outputKinds, OneLine kind by decide) _ h

/-- Decoding the frames of a completed response gives numbered events from which a client puts the
output together again, each text in its place; the last of them, and no other, is the completion, with the
response under the id it was given. -/
theorem completion_events_faithful {c : Codec} (hprint : ∀ value, OneLine (c.print value)) {response : Value}
    {output : List Value} (houtput : (response.get "output").bind Value.asArray = some output)
    (responseId : String) (first : Nat) : ∃ completed events, completed.get "id" = some (.string responseId) ∧
      (∀ key, key ≠ "id" → completed.get key = response.get key) ∧
      completionEvents response responseId first = .ok events ∧
      ((∀ event ∈ events, c.parse (c.print event.data) = .ok event.data) →
        decodeStream c (String.join (events.map (SseEvent.text c))) = some events) ∧
      NumberedFrom first events ∧ reconstruct first events = some (output.map outputItem, completed) ∧
      events.filterMap SseEvent.doneItem = output ∧
      ∃ before, (∀ event ∈ before, event.kind ≠ "response.completed") ∧
        events = before ++ [responseEvent "response.completed" (first + before.length) completed] := by
  obtain ⟨members, rfl⟩ : ∃ members, response = .object members := by
    cases response
    case object members => exact ⟨members, rfl⟩
    all_goals exact absurd houtput (by simp [Value.get])
  let completed := Value.object (Members.insert "id" (.string responseId) members)
  let emitter := output.zipIdx.foldl (fun emitter (item, outputIndex) => emitItem emitter item outputIndex)
    ⟨[], first⟩
  let last := responseEvent "response.completed" emitter.sequence completed
  have hevents : completionEvents (.object members) responseId first = .ok (emitter.events ++ [last]) := by
    unfold completionEvents
    rw [houtput]
    rfl
  have hstart : Emitter.ReadAs first ⟨[], first⟩ ⟨first, [], .between⟩ := ⟨rfl, rfl⟩
  obtain ⟨later, hread⟩ : ∃ later, emitter.ReadAs first ⟨later, output.map outputItem, .between⟩ :=
    hstart.emitItems output
  obtain ⟨hkinds, hitems⟩ := Client.read_all hread.1 (fun _ h => by cases h)
  have hall := hread.push (fun n => responseEvent "response.completed" n completed) (fun _ => rfl) (fun _ => rfl)
    (show Client.advance _ _ = some ⟨later, output.map outputItem, .completed completed⟩ from rfl)
  obtain ⟨before, ending, hsplit, hnumbered, -, hends, -⟩ := completionEvents_ok hevents
  obtain ⟨rfl, hending⟩ := List.append_inj' hsplit rfl
  have hnumber := hends.number
  rw [← List.singleton_inj.mp hending] at hnumber
  have hsequence : emitter.sequence = first + emitter.events.length := Option.some.inj hnumber
  have hkind : ∀ event ∈ emitter.events ++ [last], OneLine event.kind := by
    intro event hevent
    rcases List.mem_append.mp hevent with hevent | hevent
    · exact oneLine_of_output (hkinds event hevent)
    · rw [List.mem_singleton.mp hevent]
      exact show OneLine "response.completed" by decide
  refine ⟨completed, emitter.events ++ [last], Members.get_insert_self _ _ _,
    fun key hkey => Members.get_insert_of_ne hkey _ _, hevents,
    decodeStream_texts hkind (fun event _ => hprint event.data), hnumbered.push (hsequence ▸ rfl), ?_, ?_,
    emitter.events, ?_, ?_⟩
  · unfold reconstruct
    rw [show (emitter.events ++ [last]).foldlM Client.read (.start first) = _ from hall.1]
  · have houtputs : (output.map outputItem).map OutputItem.item = output := by
      rw [List.map_map]
      exact List.map_id output
    rw [List.filterMap_append, show [last].filterMap SseEvent.doneItem = [] from rfl, List.append_nil]
    exact hitems.symm.trans houtputs
  · intro event hevent hcompleted
    exact absurd (hcompleted ▸ hkinds event hevent) (by decide)
  · rw [← hsequence]

/-- A message with one text. -/
private def spokenMessage : Value := .object [
  ("content", .array [.object [("text", .string "done"), ("type", .string "output_text")]]),
  ("id", .string "msg_1"),
  ("type", .string "message")]

theorem completion_events_faithful_spoken : ∃ completed events,
    completionEvents (.object [("id", .string "resp_1"), ("output", .array [spokenMessage])]) "resp_kaiion" 2 = .ok events ∧
    completed.get "id" = some (.string "resp_kaiion") ∧
    decodeStream Json.compact (String.join (events.map (SseEvent.text Json.compact))) = some events ∧
    reconstruct 2 events = some ([⟨spokenMessage,
      [⟨"msg_1", 0, "done", .object [("text", .string "done"), ("type", .string "output_text")]⟩]⟩], completed) := by
  obtain ⟨completed, events, hid, -, hevents, hdecode, -, hread, -⟩ := completion_events_faithful oneLine_compact
    (show ((Value.object [("id", .string "resp_1"), ("output", .array [spokenMessage])]).get "output").bind
      Value.asArray = some [spokenMessage] from rfl) "resp_kaiion" 2
  exact ⟨completed, events, hevents, hid, hdecode fun event _ => (Json.compact_roundTrips event.data).1, hread⟩

end Kaiion.Proxy
