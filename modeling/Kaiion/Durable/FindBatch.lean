import Kaiion.Durable.Provider
import Kaiion.Foundation.Walk

/-! The search of the provider's batch list for the batch of one job. -/
namespace Kaiion.Durable
open Foundation

/-- What comes back for a request: a transport failure, or a status with a body. -/
inductive HttpReply where
  | failed (message : String)
  | answered (status : StatusCode) (body : ByteArray)

structure BatchList where
  data : List BatchObject
  hasMore : Bool
  lastId : Option String

/-- How payloads of the batch list are read: as JSON, or as text for an error. -/
structure Payloads where
  decode : ByteArray → Except String BatchList
  lossy : ByteArray → String

/-- `parse_json`. -/
def Payloads.parseJson (p : Payloads) : HttpReply → Except ProviderError BatchList
  | .failed message => .error (.transport message)
  | .answered status body =>
    if !status.isSuccess then .error (classifyStatus status (p.lossy body))
    else (p.decode body).mapError (fun error => .protocol ("invalid JSON payload: " ++ error))

/-- The batch carries the job's id in its metadata. -/
def BatchObject.carries (id : JobId) (batch : BatchObject) : Bool :=
  ((batch.metadata.bind (fun metadata => metadata.get "kaiion_job_id")).bind Value.asStr) = some id.text

/-- How one request of the search goes on. -/
inductive Round where
  | done (result : Except ProviderError (Option BatchObject))
  | again (lastId : String)

/-- The body of the loop, after the reply. -/
def findRound (id : JobId) (after : Option String) : Except ProviderError BatchList → Round
  | .error error => .done (.error error)
  | .ok batches =>
    match batches.data.find? (BatchObject.carries id) with
    | some batch => .done (.ok (some batch))
    | none =>
      match batches.lastId.filter (fun last => last ≠ "") with
      | none => .done (.ok none)
      | some last => if !batches.hasMore || after = some last then .done (.ok none) else .again last

/-- `find_batch`, for what the provider answers to each request in turn; nothing if it still asks
after `requests` of them. -/
def searchBatches (p : Payloads) (id : JobId) (answers : Nat → Option String → HttpReply) :
    Nat → Option String → Option (Except ProviderError (Option BatchObject))
  | 0, _ => none
  | requests + 1, after =>
    match findRound id after (p.parseJson (answers 0 after)) with
    | .done result => some result
    | .again last => searchBatches p id (fun turn => answers (turn + 1)) requests (some last)

variable {p : Payloads} {id : JobId} {answers : Nat → Option String → HttpReply} {requests : Nat}
variable {after : Option String} {result : Except ProviderError (Option BatchObject)}

/-- A round that is over ends the search. -/
theorem searchBatches_done (h : findRound id after (p.parseJson (answers 0 after)) = .done result) :
    searchBatches p id answers (requests + 1) after = some result := by
  unfold searchBatches
  rw [h]

/-- After a round that is not over, the search goes on from the new cursor. -/
theorem searchBatches_again {last : String} (h : findRound id after (p.parseJson (answers 0 after)) = .again last) :
    searchBatches p id answers (requests + 1) after =
      searchBatches p id (fun turn => answers (turn + 1)) requests (some last) := by
  rw [searchBatches, h]

/-- A search that is over stays over. -/
theorem searchBatches_mono (h : searchBatches p id answers requests after = some result) {more : Nat}
    (hle : requests ≤ more) : searchBatches p id answers more after = some result := by
  induction requests generalizing answers after more with
  | zero => cases h
  | succ requests ih =>
    obtain ⟨rest, rfl⟩ : ∃ rest, more = rest + 1 := Nat.exists_eq_add_one_of_ne_zero (by omega)
    cases hround : findRound id after (p.parseJson (answers 0 after)) with
    | done found =>
      rw [searchBatches_done hround] at h ⊢
      exact h
    | again last =>
      rw [searchBatches_again hround] at h ⊢
      exact ih h (Nat.le_of_succ_le_succ hle)

theorem searchBatches_unique {other : Except ProviderError (Option BatchObject)} {more : Nat}
    (h : searchBatches p id answers requests after = some result)
    (h' : searchBatches p id answers more after = some other) : result = other := by
  have hle := searchBatches_mono h (Nat.le_max_left requests more)
  have hle' := searchBatches_mono h' (Nat.le_max_right requests more)
  exact Option.some.inj (hle.symm.trans hle')

theorem parseJson_ok {reply : HttpReply} {batches : BatchList} (h : p.parseJson reply = .ok batches) :
    ∃ status body, reply = .answered status body ∧ status.isSuccess = true ∧ p.decode body = .ok batches := by
  cases reply with
  | failed message => cases h
  | answered status body =>
    refine ⟨status, body, rfl, ?_⟩
    unfold Payloads.parseJson at h
    dsimp only at h
    cases hsuccess : status.isSuccess with
    | false =>
      rw [hsuccess] at h
      cases h
    | true =>
      rw [hsuccess] at h
      cases hdecode : p.decode body with
      | error error =>
        rw [hdecode] at h
        cases h
      | ok found =>
        rw [hdecode] at h
        cases h
        exact ⟨rfl, rfl⟩

theorem findRound_done {reply : Except ProviderError BatchList} (h : findRound id after reply = .done result) :
    (∃ error, reply = .error error ∧ result = .error error) ∨
    (∃ batches, reply = .ok batches ∧ result = .ok (batches.data.find? (BatchObject.carries id))) := by
  unfold findRound at h
  split at h
  next error =>
    cases h
    exact .inl ⟨error, rfl, rfl⟩
  next batches =>
    refine .inr ⟨batches, rfl, ?_⟩
    split at h
    next batch hfind =>
      cases h
      rw [hfind]
    next hfind =>
      rw [hfind]
      split at h
      · cases h
        rfl
      · split at h
        · cases h
          rfl
        · cases h

/-- The page after `after` has a next page behind `last`, and nothing of the job. -/
structure BatchList.Continues (id : JobId) (after : Option String) (last : String) (batches : BatchList) : Prop where
  missing : batches.data.find? (BatchObject.carries id) = none
  more : batches.hasMore = true
  cursor : batches.lastId = some last
  named : last ≠ ""
  fresh : after ≠ some last

theorem findRound_again {reply : Except ProviderError BatchList} {last : String} :
    findRound id after reply = .again last ↔ ∃ batches, reply = .ok batches ∧ batches.Continues id after last := by
  unfold findRound
  constructor
  · intro h
    split at h
    · cases h
    next batches =>
      refine ⟨batches, rfl, ?_⟩
      split at h
      · cases h
      next hfind =>
        split at h
        · cases h
        next last' hlast =>
          obtain ⟨hcursor, hnamed⟩ := Option.filter_eq_some_iff.mp hlast
          split at h
          · cases h
          next hgo =>
            cases h
            simp only [Bool.or_eq_true, Bool.not_eq_true', decide_eq_true_eq, not_or, Bool.not_eq_false] at hgo
            exact ⟨hfind, hgo.1, hcursor, of_decide_eq_true hnamed, hgo.2⟩
  · rintro ⟨batches, rfl, h⟩
    dsimp only
    rw [h.missing, h.cursor]
    have hfilter : (some last).filter (fun last => decide (last ≠ "")) = some last :=
      Option.filter_eq_some_iff.mpr ⟨rfl, decide_eq_true h.named⟩
    dsimp only
    rw [hfilter]
    dsimp only
    rw [h.more, if_neg (by simp [h.fresh])]

/-- A search ends with what it took from one of the replies. -/
theorem searchBatches_origin (h : searchBatches p id answers requests after = some result) :
    ∃ turn cursor, (∃ error, p.parseJson (answers turn cursor) = .error error ∧ result = .error error) ∨
      ∃ page, p.parseJson (answers turn cursor) = .ok page ∧
        result = .ok (page.data.find? (BatchObject.carries id)) := by
  induction requests generalizing answers after with
  | zero => cases h
  | succ requests ih =>
    cases hround : findRound id after (p.parseJson (answers 0 after)) with
    | done found =>
      rw [searchBatches_done hround] at h
      cases h
      exact ⟨0, after, findRound_done hround⟩
    | again last =>
      rw [searchBatches_again hround] at h
      obtain ⟨turn, cursor, horigin⟩ := ih h
      exact ⟨turn + 1, cursor, horigin⟩

/-- A reply that is taken for a permanent failure: a success that is no batch list, or a status that is
neither a success, nor 429, nor a server error. -/
def HttpReply.Refuses (p : Payloads) : HttpReply → Prop
  | .failed _ => False
  | .answered status body =>
    if status.isSuccess then ∃ error, p.decode body = .error error
    else status.code ≠ 429 ∧ status.isServerError = false

theorem refuses_iff {reply : HttpReply} :
    reply.Refuses p ↔ ∃ error, p.parseJson reply = .error error ∧ error.retryable = false := by
  unfold Payloads.parseJson HttpReply.Refuses
  cases reply with
  | failed message =>
    refine ⟨fun h => h.elim, ?_⟩
    rintro ⟨error, herror, hretry⟩
    cases herror
    cases hretry
  | answered status body =>
    dsimp only
    cases hsuccess : status.isSuccess with
    | true =>
      simp only [Bool.not_true, Bool.false_eq_true, if_false, if_true]
      constructor
      · rintro ⟨error, hdecode⟩
        exact ⟨_, by rw [hdecode]; rfl, rfl⟩
      · rintro ⟨error, herror, -⟩
        cases hdecode : p.decode body with
        | error message => exact ⟨message, rfl⟩
        | ok page =>
          rw [hdecode] at herror
          cases herror
    | false =>
      simp only [Bool.not_false, Bool.false_eq_true, if_false, if_true, Except.error.injEq, exists_eq_left']
      unfold classifyStatus
      rw [hsuccess, if_neg Bool.false_ne_true]
      by_cases hbusy : status.code = 429
      · simp [hbusy, ProviderError.retryable]
      · cases hserver : status.isServerError <;> simp [hbusy, ProviderError.retryable]

end Kaiion.Durable
