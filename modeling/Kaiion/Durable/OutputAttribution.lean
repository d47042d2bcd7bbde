import Kaiion.Durable.Driver
import Kaiion.Foundation.Trace

/-! Whose answer is read out of a batch output file. -/
namespace Kaiion.Durable
open Foundation Prog

variable {c : Codec} {customId model : String} {content : String} {record : Value}

/-- The first record with the custom id, if all lines before it are well-formed. -/
def firstRecord (c : Codec) (customId : String) : List String → Option Value
  | [] => none
  | line :: rest =>
    match c.parse line with
    | .error _ => none
    | .ok value => if hasCustomId value customId then some value else firstRecord c customId rest

/-- The line is a well-formed record of another request. -/
def OtherRecord (c : Codec) (customId line : String) : Prop :=
  ∃ value, c.parse line = .ok value ∧ hasCustomId value customId = false

/-- The record answers its request with `body`. -/
structure Answers (record body : Value) : Prop where
  error : recordError record = none
  response : ∃ response status, record.get "response" = some response ∧
    (response.get "status_code").bind Value.asU64 = some status ∧ 200 ≤ status ∧ status < 300 ∧
    response.get "body" = some body
  object : body.isObject = true
  completed : (body.get "status").bind Value.asStr = some "completed"

/-- Records of others before it, and any lines after it, do not matter. -/
theorem firstRecord_of_lines {before after : List String} {line : String}
    (hbefore : ∀ other ∈ before, OtherRecord c customId other) (hline : c.parse line = .ok record)
    (hid : hasCustomId record customId = true) : firstRecord c customId (before ++ line :: after) = some record := by
  induction before with
  | nil =>
    rw [List.nil_append]
    unfold firstRecord
    rw [hline]
    exact if_pos hid
  | cons other before ih =>
    obtain ⟨value, hvalue, hother⟩ := hbefore other List.mem_cons_self
    rw [List.cons_append]
    unfold firstRecord
    rw [hvalue]
    dsimp only
    rw [hother, if_neg Bool.false_ne_true]
    exact ih fun line hmem => hbefore line (List.mem_cons_of_mem _ hmem)

theorem firstRecord_append {lines : List String} (h : firstRecord c customId lines = some record)
    (more : List String) : firstRecord c customId (lines ++ more) = some record := by
  induction lines with
  | nil => cases h
  | cons line lines ih =>
    rw [List.cons_append]
    unfold firstRecord at h ⊢
    cases hparse : c.parse line with
    | error error =>
      rw [hparse] at h
      cases h
    | ok value =>
      rw [hparse] at h
      dsimp only at h ⊢
      split at h
      next hid =>
        rw [if_pos hid]
        exact h
      next hid =>
        rw [if_neg hid]
        exact ih h

theorem parseRecords_of_first {lines : List String} (h : firstRecord c customId lines = some record)
    (sawRecord : Bool) : parseRecords c customId model lines sawRecord = parseRecord c record model := by
  induction lines generalizing sawRecord with
  | nil => cases h
  | cons line lines ih =>
    unfold firstRecord at h
    unfold parseRecords
    cases hparse : c.parse line with
    | error error =>
      rw [hparse] at h
      cases h
    | ok value =>
      rw [hparse] at h
      dsimp only at h ⊢
      split at h
      next hid =>
        cases h
        exact if_pos hid
      next hid =>
        rw [if_neg hid]
        exact ih h true

/-- A result without an error is that of the first record. -/
theorem first_of_parseRecords {lines : List String} {sawRecord : Bool} {value : Value}
    (h : parseRecords c customId model lines sawRecord = .ok value) :
    ∃ record, firstRecord c customId lines = some record ∧ parseRecord c record model = .ok value := by
  induction lines generalizing sawRecord with
  | nil => cases h
  | cons line lines ih =>
    unfold parseRecords at h
    unfold firstRecord
    cases hparse : c.parse line with
    | error error =>
      rw [hparse] at h
      cases h
    | ok record =>
      rw [hparse] at h
      dsimp only at h ⊢
      split at h
      next hid => exact ⟨record, if_pos hid, h⟩
      next hid =>
        rw [if_neg hid]
        exact ih h

private theorem splitLines_break (head tail current : List Char) :
    splitLines (head ++ '\n' :: tail) current = splitLines (head ++ ['\n']) current ++ splitLines tail [] := by
  induction head generalizing current with
  | nil =>
    cases current with
    | nil => simp [splitLines]
    | cons last current => by_cases hlast : last = '\r' <;> simp [splitLines, hlast]
  | cons char head ih =>
    by_cases hbreak : char = '\n'
    · subst hbreak
      cases current with
      | nil => simp [splitLines, ih]
      | cons last current => by_cases hlast : last = '\r' <;> simp [splitLines, hlast, ih]
    · simp [splitLines, hbreak, ih]

/-- A line break separates what is before it from what is after it. -/
theorem records_append (head tail : String) : records (head ++ "\n" ++ tail) = records (head ++ "\n") ++ records tail := by
  unfold records
  have hhead : (head ++ "\n" ++ tail).toList = head.toList ++ '\n' :: tail.toList := by simp
  have hbreak : (head ++ "\n").toList = head.toList ++ ['\n'] := by simp
  rw [hhead, hbreak, splitLines_break, List.map_append, List.filter_append]

/-- A completed answer is the body of the record it was read from. -/
theorem answers_of_completed {response value : Value} (hparse : parseRecord c record model = .ok response)
    (houtcome : outcomeOf c response = .ok (.completed value)) : Answers record value := by
  have hvalue : value = response ∧ (response.get "status").bind Value.asStr = some "completed" := by
    unfold outcomeOf at houtcome
    split at houtcome
    next status hstatus =>
      split at houtcome
      next hcompleted =>
        cases houtcome
        exact ⟨rfl, hcompleted ▸ hstatus⟩
      · split at houtcome
        · cases houtcome
        · split at houtcome <;> cases houtcome
    · cases houtcome
  obtain ⟨rfl, hcompleted⟩ := hvalue
  have hfailed : ∀ message, value ≠ failedResponse model message := by
    rintro message rfl
    have hstatus : some "failed" = some "completed" := hcompleted
    exact absurd (Option.some.inj hstatus) (by decide)
  unfold parseRecord at hparse
  cases herror : recordError record with
  | some error =>
    rw [herror] at hparse
    exact absurd (Except.ok.inj hparse).symm (hfailed _)
  | none =>
    rw [herror] at hparse
    dsimp only at hparse
    split at hparse
    · cases hparse
    next response hresponse =>
      split at hparse
      · cases hparse
      next status hstatus =>
        split at hparse
        · cases hparse
        next body hbody =>
          split at hparse
          · exact absurd (Except.ok.inj hparse).symm (hfailed _)
          next hsuccess =>
            split at hparse
            · cases hparse
            next hobject =>
              cases hparse
              obtain ⟨hlow, hhigh⟩ := not_not.mp hsuccess
              exact ⟨herror, ⟨response, status, hresponse, hstatus, hlow, hhigh, hbody⟩, by simpa using hobject, hcompleted⟩

section Runs
variable {auth : UpstreamAuth} {job : Job} {batch : BatchObject} {allowed : (op : Op) → Op.Reply op → Prop}
variable {events : List (Prog.Event Op.Reply)} {result result' : Except DriverError JobState}

private theorem persist_run {t : Transition} (h : Runs allowed (persist t) events result) :
    ∃ reply, events = [⟨.transition t, reply⟩] := by
  obtain ⟨reply, rest, rfl, -, hrest⟩ := Runs.of_perform h
  obtain ⟨rfl, -⟩ := Runs.of_ret hrest
  exact ⟨reply, rfl⟩

/-- A completed outcome can only come from a statement that stores one. -/
private theorem persist_completed {t : Transition} (h : Runs allowed (persist t) events result) {id : JobId}
    {expected : JobState} {value : Value} {reply : Except PersistenceError JobState}
    (hmem : ⟨.transition (.storeOutcome id expected (.completed value)), reply⟩ ∈ events) :
    t = .storeOutcome id expected (.completed value) := by
  obtain ⟨reply', rfl⟩ := persist_run h
  have heq := List.mem_singleton.mp hmem
  simp only [Sigma.mk.injEq, Op.transition.injEq] at heq
  exact heq.1.symm

private theorem ret_performs_nothing (h : Runs allowed (.ret result) events result') (event : Prog.Event Op.Reply) :
    event ∉ events := by
  obtain ⟨rfl, -⟩ := Runs.of_ret h
  exact List.not_mem_nil

/-- What follows a download runs on the content that was read. -/
private theorem download_run {fileId : String} {rest : String → Driver (Except DriverError JobState)}
    (h : Runs allowed (getFileContent auth fileId >>= fun
      | .error error => return .error (classifyProvider error)
      | .ok content => rest content) events result) {t : Transition} {reply : Except PersistenceError JobState}
    (hmem : ⟨.transition t, reply⟩ ∈ events) :
    ∃ content after, events = ⟨.getFileContent auth fileId, .ok content⟩ :: after ∧
      Runs allowed (rest content) after result ∧ ⟨.transition t, reply⟩ ∈ after := by
  obtain ⟨downloaded, after, rfl, -, hafter⟩ := Runs.of_perform h
  have hlater : (⟨.transition t, reply⟩ : Prog.Event Op.Reply) ∈ after := by
    rcases List.mem_cons.mp hmem with heq | hlater
    · cases heq
    · exact hlater
  cases downloaded with
  | error error => exact absurd hlater (ret_performs_nothing hafter _)
  | ok content => exact ⟨content, after, rfl, hafter, hlater⟩

/-- A file that is not the output file is never stored as an answer. -/
private theorem unsuccessful_ne_completed (status : String) (value answer : Value) :
    unsuccessful status value ≠ .completed answer := by
  unfold unsuccessful
  split
  · exact fun h => by cases h
  · split <;> exact fun h => by cases h

/-- What `apply_batch_status` stores as an answer is the body of the job's first record in the output
file it has read. -/
theorem completed_from_record (h : Runs allowed (applyBatchStatus c auth job batch) events result) {id : JobId}
    {expected : JobState} {value : Value} {reply : Except PersistenceError JobState}
    (hmem : ⟨.transition (.storeOutcome id expected (.completed value)), reply⟩ ∈ events) :
    id = job.id ∧ expected = job.state ∧ ∃ fileId content record, batch.outputFileId = some fileId ∧
      ⟨.getFileContent auth fileId, .ok content⟩ ∈ events ∧
      firstRecord c job.customId (records content) = some record ∧ Answers record value := by
  unfold applyBatchStatus at h
  split at h
  · unfold applyCompleted at h
    split at h
    next fileId _ _ =>
      obtain ⟨content, after, rfl, hrest, hmem⟩ := download_run h hmem
      have heq := persist_completed hrest hmem
      simp only [Transition.storeOutcome.injEq, reduceCtorEq, and_false] at heq
    · exact absurd hmem (ret_performs_nothing h _)
    next fileId houtput =>
      obtain ⟨content, after, rfl, hrest, hmem⟩ := download_run h hmem
      split at hrest
      · exact absurd hmem (ret_performs_nothing hrest _)
      next response hparsed =>
        split at hrest
        · exact absurd hmem (ret_performs_nothing hrest _)
        next outcome hchosen =>
          have heq := persist_completed hrest hmem
          simp only [Transition.storeOutcome.injEq] at heq
          obtain ⟨rfl, rfl, rfl⟩ := heq
          obtain ⟨record, hfirst, hrecord⟩ := first_of_parseRecords hparsed
          exact ⟨rfl, rfl, fileId, content, record, houtput, List.mem_cons_self, hfirst,
            answers_of_completed hrecord hchosen⟩
  · split at h
    · split at h
      next fileId _ =>
        obtain ⟨content, after, rfl, hrest, hmem⟩ := download_run h hmem
        have heq := persist_completed hrest hmem
        simp only [Transition.storeOutcome.injEq] at heq
        exact absurd heq.2.2 (unsuccessful_ne_completed _ _ _)
      · have heq := persist_completed h hmem
        simp only [Transition.storeOutcome.injEq] at heq
        exact absurd heq.2.2 (unsuccessful_ne_completed _ _ _)
    · exact absurd hmem (ret_performs_nothing h _)

end Runs

/-- The result of an output file is that of the job's first record, whatever records of others stand before
it and whatever follows it; and a completed outcome is stored only for a record without an error, with a
status between 200 and 299 and a completed object as its body, and is that body. -/
theorem batch_output_attributed (c : Codec) (job : Job) :
    (∀ content before line after record, records content = before ++ line :: after →
      (∀ other ∈ before, OtherRecord c job.customId other) → c.parse line = .ok record →
      hasCustomId record job.customId = true →
      parseBatchOutput c content job.customId job.model = parseRecord c record job.model) ∧
    (∀ head more record, firstRecord c job.customId (records (head ++ "\n")) = some record →
      parseBatchOutput c (head ++ "\n" ++ more) job.customId job.model = parseRecord c record job.model) ∧
    ∀ allowed auth batch events result, Runs allowed (applyBatchStatus c auth job batch) events result →
      ∀ id expected value reply, ⟨.transition (.storeOutcome id expected (.completed value)), reply⟩ ∈ events →
        id = job.id ∧ expected = job.state ∧ ∃ fileId content record, batch.outputFileId = some fileId ∧
          ⟨.getFileContent auth fileId, .ok content⟩ ∈ events ∧
          firstRecord c job.customId (records content) = some record ∧ Answers record value := by
  refine ⟨fun content before line after record hrecords hbefore hline hid => ?_,
    fun head more record hfirst => ?_,
    fun allowed auth batch events result hrun id expected value reply hmem => completed_from_record hrun hmem⟩
  · apply parseRecords_of_first
    rw [hrecords]
    exact firstRecord_of_lines hbefore hline hid
  · apply parseRecords_of_first
    rw [records_append]
    exact firstRecord_append hfirst _

end Kaiion.Durable
