import Kaiion.Durable.Database

/-! The errors a request handler returns. -/
namespace Kaiion
open Durable

/-- A transport failure of the HTTP client, with the client's own verdict on whether the
connection was ever established. -/
structure TransportError where
  isConnect : Bool
  message : String
  deriving DecidableEq, Repr

inductive ProxyError where
  | badRequest (message : String)
  | unauthorized
  | notFound
  | conflict (message : String)
  | persistence (error : PersistenceError)
  | database (message : String)
  | migration (message : String)
  | transport (error : TransportError)
  | json (message : String)
  | internal (message : String)
  deriving DecidableEq, Repr

/-- The text of an error, as a client sees it. -/
def ProxyError.message : ProxyError → String
  | .badRequest message | .conflict message => message
  | .unauthorized => "missing Authorization header"
  | .notFound => "job not found"
  | .persistence error => error.message
  | .database message => "database error: " ++ message
  | .migration message => "database migration error: " ++ message
  | .transport error => "upstream transport error: " ++ error.message
  | .json message => "JSON error: " ++ message
  | .internal message => "internal error: " ++ message

/-- `Option::ok_or`. -/
def okOr {α : Type} (value : Option α) (error : ProxyError) : Except ProxyError α :=
  match value with
  | some value => .ok value
  | none => .error error

theorem okOr_ok {α : Type} {value : Option α} {error : ProxyError} {a : α} (h : okOr value error = .ok a) :
    value = some a := by
  cases value with
  | none => cases h
  | some b => cases h; rfl

end Kaiion
