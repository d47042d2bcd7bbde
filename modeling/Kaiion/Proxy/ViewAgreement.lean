import Kaiion.Json.Print
import Kaiion.Proxy.JobViews

/-! Whether the views of a finished job agree, for every file the provider may answer with. -/
namespace Kaiion.Proxy
open Durable Foundation Prog

/-- The job's record among the lines of an output file. -/
def jobRecord (c : Codec) (customId : String) : List String → Option Value
  | [] => none
  | line :: rest =>
    match c.parse line with
    | .error _ => jobRecord c customId rest
    | .ok value => if hasCustomId value customId then some value else jobRecord c customId rest

/-- The body of a successful record. -/
def successBody (record : Value) : Option Value :=
  match recordError record with
  | some _ => none
  | none =>
    match record.get "response" with
    | none => none
    | some response =>
      match (response.get "status_code").bind Value.asU64 with
      | none => none
      | some status => if 200 ≤ status ∧ status < 300 then response.get "body" else none

/-- An answer in the output file has an output. -/
def OutputFileTells (c : Codec) (job : Job) (content : String) : Prop :=
  ∀ record body, jobRecord c job.customId (records content) = some record → successBody record = some body →
    body.text "status" = some "completed" → (body.items "output").isSome = true

/-- The record an error file is read for: the job's first with an error or an object for a body. -/
def errorRecord (c : Codec) (customId : String) : List String → Option Value
  | [] => none
  | line :: rest =>
    match c.parse line with
    | .error _ => errorRecord c customId rest
    | .ok value =>
      if hasCustomId value customId ∧ ((recordError value).isSome = true ∨
          ((value.pointer ["response", "body"]).filter Value.isObject).isSome = true) then some value
      else errorRecord c customId rest

/-- A body in the error file that stands for the whole response is a failed response. -/
def ErrorFileTells (c : Codec) (job : Job) (content : String) : Prop :=
  ∀ record, errorRecord c job.customId (records content) = some record → recordError record = none →
    (record.pointer ["response", "body"]).bind (fun body => body.text "status") = some "failed"

/-- The file `apply_batch_status` reads says of its outcome what the outcome's views need. -/
def FileTells (c : Codec) (job : Job) (batch : BatchObject) (content : String) : Prop :=
  if batch.status = "completed" ∧ batch.outputFileId.isSome = true then OutputFileTells c job content
  else ErrorFileTells c job content

/-- A store that answers a statement with the row it has written, as it reads it back. -/
def Answered (c : Codec) : (op : Durable.Op) → op.Reply → Prop
  | .transition t, .ok next => ∃ now row, ((t.set c now row).tryFrom c).map Job.state = .ok next
  | _, _ => True

/-- The files read in a run. -/
def filesRead (trace : List (Event Durable.Op.Reply)) : List String :=
  trace.filterMap fun
    | ⟨.getFileContent _ _, .ok content⟩ => some content
    | _ => none

variable {c : Codec} {auth : UpstreamAuth} {job : Job} {batch : BatchObject}

/-- The stored outcome is the one that was written, up to the precision of its numbers. -/
theorem stored_of_answered (hc : c.KeepsTexts) {id : JobId} {expected next : JobState} {outcome : StoredOutcome}
    (h : Answered c (.transition (.storeOutcome id expected outcome)) (.ok next)) :
    ∃ stored, next = .terminal stored ∧ responseStatus stored = responseStatus outcome ∧
      (terminalValue stored).Alike (terminalValue outcome) := by
  obtain ⟨now, row, hrow⟩ := h
  obtain ⟨back, hback, halike⟩ := hc (terminalValue outcome)
  cases outcome with
  | completed value | failed value | incomplete value | expired value | cancelled value =>
    have hback : c.parse (c.print value) = .ok back := hback
    simp [Transition.set, encodeOutcome, JobRow.tryFrom, JobRow.outcome, JobRow.reject, JobRow.require, hback,
      Bind.bind, Except.bind, pure, Except.pure, Except.map] at hrow
    exact ⟨_, hrow.symm, rfl, halike⟩

theorem parseRecords_ok {customId model : String} {lines : List String} {sawRecord : Bool} {value : Value}
    (h : parseRecords c customId model lines sawRecord = .ok value) :
    ∃ record, jobRecord c customId lines = some record ∧ parseRecord c record model = .ok value := by
  induction lines generalizing sawRecord with
  | nil => cases h
  | cons line rest ih =>
    unfold parseRecords at h
    unfold jobRecord
    cases hparse : c.parse line with
    | error error =>
      rw [hparse] at h
      cases h
    | ok record =>
      rw [hparse] at h
      dsimp only at h ⊢
      split at h
      next hid => exact ⟨record, if_pos hid, h⟩
      next hid =>
        rw [if_neg hid]
        exact ih h

theorem normalizeRecords_eq (customId model : String) (lines : List String) :
    normalizeRecords c customId model lines = (errorRecord c customId lines).map (fun record =>
      match recordError record with
      | some error => .object [
          ("error", error),
          ("model", .string model),
          ("object", .string "response"),
          ("output", .array []),
          ("status", .string "failed")]
      | none => (record.pointer ["response", "body"]).getD .null) := by
  induction lines with
  | nil => rfl
  | cons line rest ih =>
    unfold normalizeRecords errorRecord
    cases c.parse line with
    | error error => exact ih
    | ok record =>
      dsimp only
      by_cases hid : hasCustomId record customId = true
      · rw [if_pos hid]
        cases herror : recordError record with
        | some error => simp [hid, herror]
        | none =>
          cases hbody : (record.pointer ["response", "body"]).filter Value.isObject with
          | none => simpa [hid, herror, hbody] using ih
          | some body =>
            have hpointer := (Option.filter_eq_some_iff.mp hbody).1
            simp [hid, herror, hpointer]
      · rw [if_neg hid, if_neg (fun h => hid h.1)]
        exact ih

theorem persist_stores {t : Transition} {trace : List (Event Durable.Op.Reply)} {next : JobState}
    (h : Runs (Answered c) (persist t) trace (.ok next)) :
    trace = [⟨.transition t, .ok next⟩] ∧ Answered c (.transition t) (.ok next) := by
  obtain ⟨reply, rest, rfl, hreply, hend⟩ := Runs.of_perform h
  obtain ⟨rfl, heq⟩ := Runs.of_ret hend
  cases reply with
  | error error => cases heq
  | ok state =>
    cases heq
    exact ⟨rfl, hreply⟩

/-- Where a stored outcome comes from: the output file, the error file, or the batch itself. -/
inductive Source (c : Codec) (job : Job) (batch : BatchObject) (outcome : StoredOutcome) : List String → Prop where
  | output (content : String) (response : Value) (file : batch.status = "completed" ∧ batch.outputFileId.isSome = true)
      (parsed : parseBatchOutput c content job.customId job.model = .ok response)
      (chosen : outcomeOf c response = .ok outcome) :
      Source c job batch outcome [content]
  | error (content : String) (file : ¬ (batch.status = "completed" ∧ batch.outputFileId.isSome = true))
      (value : terminalValue outcome = normalizeBatchError c content job.customId job.model)
      (failed : responseStatus outcome = "failed") : Source c job batch outcome [content]
  | batch (message : String) (value : terminalValue outcome = failedResponse job.model message)
      (failed : responseStatus outcome = "failed") : Source c job batch outcome []

theorem unsuccessful_failed (status : String) (value : Value) :
    responseStatus (unsuccessful status value) = "failed" ∧ terminalValue (unsuccessful status value) = value := by
  unfold unsuccessful
  split
  · exact ⟨rfl, rfl⟩
  · split <;> exact ⟨rfl, rfl⟩

/-- A run that fails stores nothing. -/
private theorem not_stored {error : DriverError} {trace : List (Event Durable.Op.Reply)} {next : JobState}
    (h : Runs (Answered c) (return .error error : Driver (Except DriverError JobState)) trace (.ok next)) : False := by
  obtain ⟨-, heq⟩ := Runs.of_ret h
  cases heq

/-- What follows the reading of a file runs on the content that was read. -/
private theorem content_read {fileId : String} {rest : String → Driver (Except DriverError JobState)}
    {trace : List (Event Durable.Op.Reply)} {next : JobState}
    (h : Runs (Answered c) (getFileContent auth fileId >>= fun
      | .error error => return .error (classifyProvider error)
      | .ok content => rest content) trace (.ok next)) :
    ∃ content after, trace = ⟨.getFileContent auth fileId, .ok content⟩ :: after ∧
      Runs (Answered c) (rest content) after (.ok next) := by
  obtain ⟨reply, after, rfl, -, hafter⟩ := Runs.of_perform h
  cases reply with
  | error error => exact absurd hafter not_stored
  | ok content => exact ⟨content, after, rfl, hafter⟩

theorem applyBatchStatus_stores {trace : List (Event Durable.Op.Reply)} {next : JobState}
    (h : Runs (Answered c) (applyBatchStatus c auth job batch) trace (.ok next)) (hnext : next ≠ job.state) :
    ∃ outcome, Answered c (.transition (.storeOutcome job.id job.state outcome)) (.ok next) ∧
      Source c job batch outcome (filesRead trace) := by
  unfold applyBatchStatus at h
  split at h
  next hcompleted =>
    unfold applyCompleted at h
    split at h
    next fileId houtput _ =>
      obtain ⟨content, after, rfl, hrest⟩ := content_read h
      obtain ⟨rfl, hanswered⟩ := persist_stores hrest
      exact ⟨_, hanswered, .error content (fun hfile => by simp [houtput] at hfile) rfl rfl⟩
    · exact absurd h not_stored
    next fileId _ houtput =>
      obtain ⟨content, after, rfl, hrest⟩ := content_read h
      split at hrest
      · exact absurd hrest not_stored
      next response hparsed =>
        split at hrest
        · exact absurd hrest not_stored
        next outcome hchosen =>
          obtain ⟨rfl, hanswered⟩ := persist_stores hrest
          exact ⟨outcome, hanswered, .output content response ⟨hcompleted, by rw [houtput]; rfl⟩ hparsed hchosen⟩
  next hstatus =>
    split at h
    · split at h
      next fileId _ =>
        obtain ⟨content, after, rfl, hrest⟩ := content_read h
        obtain ⟨rfl, hanswered⟩ := persist_stores hrest
        obtain ⟨hfailed, hvalue⟩ := unsuccessful_failed batch.status (normalizeBatchError c content job.customId job.model)
        exact ⟨_, hanswered, .error content (fun hfile => hstatus hfile.1) hvalue hfailed⟩
      · obtain ⟨rfl, hanswered⟩ := persist_stores h
        obtain ⟨hfailed, hvalue⟩ := unsuccessful_failed batch.status
          (failedResponse job.model ("batch " ++ batch.id ++ " ended with status " ++ batch.status))
        exact ⟨_, hanswered, .batch _ hvalue hfailed⟩
    · obtain ⟨-, heq⟩ := Runs.of_ret h
      exact absurd (Except.ok.inj heq) hnext

theorem failedResponse_status (model message : String) : (failedResponse model message).text "status" = some "failed" := rfl

/-- The response read out of a job's record is the record's body, or a failed response. -/
theorem parseRecord_ok {record value : Value} {model : String} (h : parseRecord c record model = .ok value) :
    successBody record = some value ∨ successBody record = none ∧ value.text "status" = some "failed" := by
  unfold parseRecord at h
  unfold successBody
  cases herror : recordError record with
  | some error =>
    rw [herror] at h
    cases h
    exact .inr ⟨rfl, rfl⟩
  | none =>
    rw [herror] at h
    cases hresponse : record.get "response" with
    | none =>
      rw [hresponse] at h
      cases h
    | some response =>
      rw [hresponse] at h
      dsimp only at h ⊢
      cases hstatus : (response.get "status_code").bind Value.asU64 with
      | none =>
        rw [hstatus] at h
        cases h
      | some status =>
        rw [hstatus] at h
        dsimp only at h ⊢
        cases hbody : response.get "body" with
        | none =>
          rw [hbody] at h
          cases h
        | some body =>
          rw [hbody] at h
          dsimp only at h
          by_cases hsuccess : 200 ≤ status ∧ status < 300
          · rw [if_neg (not_not.mpr hsuccess)] at h
            rw [if_pos hsuccess]
            split at h
            · cases h
            · exact .inl (congrArg some (Except.ok.inj h))
          · rw [if_pos hsuccess] at h
            rw [if_neg hsuccess]
            cases h
            exact .inr ⟨rfl, rfl⟩

theorem outcomeOf_ok {response : Value} {outcome : StoredOutcome} (h : outcomeOf c response = .ok outcome) :
    terminalValue outcome = response ∧ response.text "status" = some (responseStatus outcome) := by
  unfold outcomeOf at h
  split at h
  next status hstatus =>
    have htext : response.text "status" = some status := hstatus
    rw [htext]
    split at h
    next heq =>
      cases h
      exact ⟨rfl, congrArg some heq⟩
    · split at h
      next heq =>
        cases h
        exact ⟨rfl, congrArg some heq⟩
      · split at h
        next heq =>
          cases h
          exact ⟨rfl, congrArg some heq⟩
        · cases h
  · cases h

/-- The output file tells what the views need of the response taken from it. -/
theorem outputFileTells_iff {content : String} {response : Value}
    (h : parseBatchOutput c content job.customId job.model = .ok response) :
    OutputFileTells c job content ↔
      (response.text "status" = some "completed" → (response.items "output").isSome = true) := by
  obtain ⟨record, hrecord, hvalue⟩ := parseRecords_ok h
  constructor
  · intro htells hstatus
    rcases parseRecord_ok hvalue with hbody | ⟨-, hfailed⟩
    · exact htells record response hrecord hbody hstatus
    · exact absurd (hfailed.symm.trans hstatus) (by decide)
  · intro hneeds other body hother hbody hstatus
    rw [hrecord] at hother
    obtain rfl := Option.some.inj hother
    rcases parseRecord_ok hvalue with hresponse | ⟨hnone, -⟩
    · rw [hbody] at hresponse
      obtain rfl := Option.some.inj hresponse
      exact hneeds hstatus
    · rw [hbody] at hnone
      cases hnone

/-- The error file tells what the views need of the response made from it. -/
theorem errorFileTells_iff (c : Codec) (job : Job) (content : String) : ErrorFileTells c job content ↔
    (normalizeBatchError c content job.customId job.model).text "status" = some "failed" := by
  unfold ErrorFileTells normalizeBatchError
  rw [normalizeRecords_eq]
  cases hrecord : errorRecord c job.customId (records content) with
  | none => exact ⟨fun _ => failedResponse_status job.model content, fun _ _ h => nomatch h⟩
  | some record =>
    simp only [Option.some.injEq, forall_eq', Option.map_some, Option.getD_some]
    cases recordError record with
    | some error => exact ⟨fun _ => rfl, fun _ h => nomatch h⟩
    | none =>
      simp only [forall_const]
      cases record.pointer ["response", "body"] with
      | none => exact ⟨fun h => (nomatch h), fun h => nomatch h⟩
      | some body => exact Iff.rfl

/-- The views of a finished job agree exactly when the file its outcome was read from has an output for
an answer, and no other than failed responses among the errors. -/
theorem finished_views_agree_iff (hc : c.KeepsTexts) {trace : List (Event Durable.Op.Reply)} {stored : StoredOutcome}
    (hlive : job.state.isTerminal = false)
    (hrun : Runs (Answered c) (applyBatchStatus c auth job batch) trace (.ok (.terminal stored))) (sequence : Nat) :
    ViewsAgree c job sequence stored ↔ ∀ content ∈ filesRead trace, FileTells c job batch content := by
  have hnext : JobState.terminal stored ≠ job.state := fun heq => by rw [← heq] at hlive; cases hlive
  obtain ⟨outcome, hanswered, hsource⟩ := applyBatchStatus_stores hrun hnext
  obtain ⟨_, heq, hstatus, halike⟩ := stored_of_answered hc hanswered
  cases heq
  rw [viewsAgree_iff hc, hstatus, halike.text, halike.items]
  generalize filesRead trace = files at hsource
  cases hsource with
  | output content response file parsed chosen =>
    obtain ⟨rfl, htext⟩ := outcomeOf_ok chosen
    rw [List.forall_mem_singleton, FileTells, if_pos file, outputFileTells_iff parsed, htext]
    exact ⟨fun h heq => h.2 (Option.some.inj heq), fun h => ⟨rfl, fun heq => h (congrArg some heq)⟩⟩
  | error content file value failed =>
    rw [List.forall_mem_singleton, FileTells, if_neg file, errorFileTells_iff, value, failed]
    exact ⟨fun h => h.1, fun h => ⟨h, fun heq => absurd heq (by decide)⟩⟩
  | batch message value failed =>
    rw [value, failed]
    exact ⟨fun _ _ h => (nomatch h), fun _ => ⟨rfl, fun heq => absurd heq (by decide)⟩⟩

section Witness

private def watched : Job := ⟨⟨"job"⟩, "gpt-5", .submitted ⟨"batch_1"⟩⟩

private def caller : UpstreamAuth := ⟨"Bearer a", none, none⟩

/-- A record of a batch file, with the upstream's HTTP status and body. -/
private def recordOf (status : Nat) (body : Value) : Value := .object [
  ("custom_id", .string "kaiion-job"),
  ("error", .null),
  ("response", .object [("body", body), ("status_code", .number (.unsigned status))])]

private theorem answered_stores (outcome : StoredOutcome) (next : JobState) (h : next = .terminal outcome) :
    Answered Json.compact (.transition (.storeOutcome ⟨"job"⟩ (.submitted ⟨"batch_1"⟩) outcome)) (.ok next) := by
  subst h
  refine ⟨⟨"now"⟩, ⟨"job", "auth", "request", "gpt-5", .submitted, none, some "batch_1", none, none⟩, ?_⟩
  cases outcome with
  | completed value | failed value | incomplete value | expired value | cancelled value =>
    simp [Transition.set, encodeOutcome, JobRow.tryFrom, JobRow.outcome, JobRow.reject, JobRow.require,
      (Json.compact_roundTrips value).1, Bind.bind, Except.bind, pure, Except.pure, Except.map]

private theorem splitLines_line {line : List Char} (h : Json.Unbroken line) (current : List Char) :
    splitLines line current = splitLines [] (line.reverse ++ current) := by
  induction line generalizing current with
  | nil => rfl
  | cons char line ih =>
    have hfeed := (h char List.mem_cons_self).1
    have hline := ih (fun other hother => h other (List.mem_cons_of_mem _ hother)) (char :: current)
    rw [List.reverse_cons, List.append_assoc, List.singleton_append, ← hline]
    simp [splitLines, hfeed]

/-- A printed document is one record. -/
private theorem records_print (members : Members) :
    records (Json.print Json.pointed (.object members)) = [Json.print Json.pointed (.object members)] := by
  obtain ⟨rest, hrest⟩ : ∃ rest, Json.chars Json.pointed (.object members) = '{' :: rest := by
    cases members with
    | nil => exact ⟨_, rfl⟩
    | cons member members => exact ⟨_, rfl⟩
  have hunbroken := Json.unbroken_chars Json.pointed_prints (.object members)
  have hlines : splitLines (Json.chars Json.pointed (.object members)) [] = [Json.chars Json.pointed (.object members)] := by
    rw [splitLines_line hunbroken, List.append_nil]
    cases hreverse : (Json.chars Json.pointed (.object members)).reverse with
    | nil =>
      rw [List.reverse_eq_nil_iff, hrest] at hreverse
      cases hreverse
    | cons last front =>
      rw [splitLines, ← hreverse, List.reverse_reverse]
      exact fun h => nomatch h
  have hkept : isBlank (String.ofList (Json.chars Json.pointed (.object members))) = false := by
    have hbrace : isWhitespace '{' = false := by decide
    rw [hrest, isBlank, String.toList_ofList, List.all_cons, hbrace, Bool.false_and]
  unfold records Json.print
  rw [String.toList_ofList, hlines, List.map_singleton]
  exact List.filter_cons_of_pos (by rw [hkept]; rfl)

private theorem record_read {record : Value} {file : String} (hfile : file = Json.print Json.pointed record)
    (hrecords : records file = [file]) (hid : hasCustomId record "kaiion-job" = true) :
    parseBatchOutput Json.compact file "kaiion-job" "gpt-5" = parseRecord Json.compact record "gpt-5" ∧
      normalizeRecords Json.compact "kaiion-job" "gpt-5" (records file) =
        match recordError record with
        | some error => some (.object [("error", error), ("model", .string "gpt-5"), ("object", .string "response"),
            ("output", .array []), ("status", .string "failed")])
        | none => (record.pointer ["response", "body"]).filter Value.isObject := by
  have hparse : Json.compact.parse file = .ok record := hfile ▸ (Json.compact_roundTrips record).1
  unfold parseBatchOutput
  rw [hrecords]
  unfold parseRecords normalizeRecords
  rw [hparse]
  dsimp only
  rw [if_pos hid, if_pos hid]
  refine ⟨rfl, ?_⟩
  cases recordError record with
  | some error => rfl
  | none => cases (record.pointer ["response", "body"]).filter Value.isObject <;> rfl

private def answerBody : Value := .object [("output", .array []), ("status", .string "completed")]

private def answerFile : String := Json.print Json.pointed (recordOf 200 answerBody)

private theorem answerFile_parsed :
    parseBatchOutput Json.compact answerFile watched.customId watched.model = .ok answerBody := by
  rw [show watched.customId = "kaiion-job" from rfl, show watched.model = "gpt-5" from rfl,
    (record_read (show answerFile = Json.print Json.pointed (recordOf 200 answerBody) from rfl) (records_print _)
      (by decide)).1]
  rfl

/-- A batch with its answer in the output file. -/
private def answeredBatch : BatchObject := ⟨"batch_1", "completed", some "file-o", none, none⟩

private theorem step (op : Durable.Op) {f : op.Reply → Driver (Except DriverError JobState)}
    {events : List (Event Durable.Op.Reply)} {result : Except DriverError JobState} (reply : op.Reply)
    (ok : Answered Json.compact op reply) (rest : Runs (Answered Json.compact) (f reply) events result) :
    Runs (Answered Json.compact) (Prog.perform op >>= f) (⟨op, reply⟩ :: events) result := Runs.perform op reply ok rest

private theorem storing (outcome : StoredOutcome) : Runs (Answered Json.compact)
    (persist (.storeOutcome ⟨"job"⟩ (.submitted ⟨"batch_1"⟩) outcome))
    [⟨Durable.Op.transition (.storeOutcome ⟨"job"⟩ (.submitted ⟨"batch_1"⟩) outcome),
      (Except.ok (.terminal outcome) : Except PersistenceError JobState)⟩] (.ok (.terminal outcome)) :=
  step (Durable.Op.transition _) (Except.ok (.terminal outcome) : Except PersistenceError JobState)
    (answered_stores outcome _ rfl) (.ret _)

private theorem answered_runs {content : String} {value : Value} {outcome : StoredOutcome}
    (hparsed : parseBatchOutput Json.compact content watched.customId watched.model = .ok value)
    (houtcome : outcomeOf Json.compact value = .ok outcome) :
    Runs (Answered Json.compact) (applyBatchStatus Json.compact caller watched answeredBatch)
      [⟨Durable.Op.getFileContent caller "file-o", (Except.ok content : Except ProviderError String)⟩,
        ⟨Durable.Op.transition (.storeOutcome ⟨"job"⟩ (.submitted ⟨"batch_1"⟩) outcome),
          (Except.ok (.terminal outcome) : Except PersistenceError JobState)⟩]
      (.ok (.terminal outcome)) := by
  refine step (Durable.Op.getFileContent caller "file-o") (Except.ok content : Except ProviderError String) trivial ?_
  dsimp only
  rw [hparsed]
  dsimp only
  rw [houtcome]
  exact storing outcome

/-- The answer's views agree. -/
theorem finished_views_agree_answered : ViewsAgree Json.compact watched 2 (.completed answerBody) := by
  refine (finished_views_agree_iff (Codec.keepsTexts Json.compact_roundTrips) rfl
    (answered_runs answerFile_parsed rfl) 2).mpr ?_
  refine List.forall_mem_singleton.mpr ?_
  rw [FileTells, if_pos ⟨rfl, rfl⟩]
  exact (outputFileTells_iff answerFile_parsed).mpr (fun _ => rfl)

private def refusalBody : Value := .object [("error", .object [("message", .string "invalid model")])]

private def refusalFile : String := Json.print Json.pointed (recordOf 400 refusalBody)

private theorem refusalFile_normalized :
    normalizeBatchError Json.compact refusalFile watched.customId watched.model = refusalBody := by
  unfold normalizeBatchError
  rw [show watched.customId = "kaiion-job" from rfl, show watched.model = "gpt-5" from rfl,
    (record_read (show refusalFile = Json.print Json.pointed (recordOf 400 refusalBody) from rfl) (records_print _)
      (by decide)).2]
  rfl

/-- A batch whose only request was refused: the record in the error file has an HTTP status, no error of
its own, and the body the upstream refused with. -/
private def refusedBatch : BatchObject := ⟨"batch_1", "completed", none, some "file-e", none⟩

/-- The job is stored as failed, its stream ends with a failed event, and the response it is answered
with has no status. -/
theorem refused_request_has_two_stories : (∀ value, Json.compact.RoundTrips value) ∧
    ∃ trace, Runs (Answered Json.compact) (applyBatchStatus Json.compact caller watched refusedBatch) trace
        (.ok (.terminal (.failed refusalBody))) ∧ filesRead trace = [refusalFile] ∧
      (terminalEvents Json.compact watched 2 (.failed refusalBody)).getLast?.map SseEvent.kind = some "response.failed" ∧
      (responseValue (.failed refusalBody) watched.id).text "status" = none ∧
      ¬ ViewsAgree Json.compact watched 2 (.failed refusalBody) := by
  refine ⟨Json.compact_roundTrips, [⟨Durable.Op.getFileContent caller "file-e",
      (Except.ok refusalFile : Except ProviderError String)⟩,
    ⟨Durable.Op.transition (.storeOutcome ⟨"job"⟩ (.submitted ⟨"batch_1"⟩) (.failed refusalBody)),
      (Except.ok (.terminal (.failed refusalBody)) : Except PersistenceError JobState)⟩], ?_, rfl, ?_, rfl, ?_⟩
  · refine step (Durable.Op.getFileContent caller "file-e") (Except.ok refusalFile : Except ProviderError String) trivial ?_
    dsimp only
    rw [refusalFile_normalized]
    exact storing (.failed refusalBody)
  · exact congrArg some (terminalErrorEvent_kind (Codec.keepsTexts Json.compact_roundTrips) _ _ _ refusalBody)
  · exact fun h => absurd h.response (by decide)

end Witness

end Kaiion.Proxy
