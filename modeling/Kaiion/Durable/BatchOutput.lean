import Kaiion.Durable.Provider
import Kaiion.Text

/-! Reading one job's result out of a batch output or error file. -/
namespace Kaiion.Durable

/-- `str::lines`: a line ends at LF, with one CR before it dropped; a last line may lack its LF. -/
def splitLines : List Char → List Char → List (List Char)
  | [], [] => []
  | [], current => [current.reverse]
  | '\n' :: rest, '\r' :: current => current.reverse :: splitLines rest []
  | '\n' :: rest, current => current.reverse :: splitLines rest []
  | char :: rest, current => splitLines rest (char :: current)

/-- The non-blank lines of a file. -/
def records (content : String) : List String :=
  ((splitLines content.toList []).map String.ofList).filter (fun line => !isBlank line)

def failedResponse (model message : String) : Value :=
  .object [
    ("error", .object [
      ("code", .string "kaiion_batch_failed"),
      ("message", .string message),
      ("type", .string "server_error")]),
    ("model", .string model),
    ("object", .string "response"),
    ("output", .array []),
    ("status", .string "failed")]

def hasCustomId (value : Value) (customId : String) : Bool :=
  (value.get "custom_id").bind Value.asStr = some customId

/-- The `error` member of a record, when it is present and not null. -/
def recordError (value : Value) : Option Value :=
  (value.get "error").filter (fun error => !error.isNull)

/-- The result of the record with the job's custom_id. -/
def parseRecord (c : Codec) (value : Value) (model : String) : Except DriverError Value :=
  match recordError value with
  | some error => .ok (failedResponse model (c.print error))
  | none =>
    match value.get "response" with
    | none => .error (.permanent "batch output record is missing response")
    | some response =>
      match (response.get "status_code").bind Value.asU64 with
      | none => .error (.permanent "batch output response is missing status_code")
      | some status =>
        match response.get "body" with
        | none => .error (.permanent "batch output response is missing body")
        | some body =>
          if ¬ (200 ≤ status ∧ status < 300) then .ok (failedResponse model (c.print body))
          else if !body.isObject then .error (.permanent "batch response body is not a JSON object")
          else .ok body

/-- The loop of `parse_batch_output`; the flag is `saw_record`. -/
def parseRecords (c : Codec) (customId model : String) : List String → Bool → Except DriverError Value
  | [], sawRecord => .error (.permanent
      (if sawRecord then "batch output does not contain custom_id " ++ customId
        else "batch output is empty"))
  | line :: rest, _ =>
    match c.parse line with
    | .error error => .error (.permanent ("provider returned malformed batch JSONL: " ++ error))
    | .ok value =>
      if hasCustomId value customId then parseRecord c value model
      else parseRecords c customId model rest true

def parseBatchOutput (c : Codec) (content customId model : String) : Except DriverError Value :=
  parseRecords c customId model (records content) false

def normalizeRecords (c : Codec) (customId model : String) : List String → Option Value
  | [] => none
  | line :: rest =>
    match c.parse line with
    | .error _ => normalizeRecords c customId model rest
    | .ok value =>
      if hasCustomId value customId then
        match recordError value with
        | some error => some (.object [
            ("error", error),
            ("model", .string model),
            ("object", .string "response"),
            ("output", .array []),
            ("status", .string "failed")])
        | none =>
          match (value.pointer ["response", "body"]).filter Value.isObject with
          | some body => some body
          | none => normalizeRecords c customId model rest
      else normalizeRecords c customId model rest

def normalizeBatchError (c : Codec) (content customId model : String) : Value :=
  (normalizeRecords c customId model (records content)).getD (failedResponse model content)

end Kaiion.Durable
