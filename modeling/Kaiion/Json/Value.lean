import Mathlib.Data.Prod.Basic
import Mathlib.Logic.Basic

/-! JSON documents as `serde_json::Value` holds them. Objects keep their members in key order,
as the crate's default map does. -/
namespace Kaiion

/-- A JSON number: an unsigned or a negative 64-bit integer, or the bits of a double. -/
inductive Number where
  | unsigned (n : Nat)
  | negative (n : Nat)
  | float (bits : Nat)
  deriving DecidableEq, Repr

inductive Value where
  | null
  | bool (b : Bool)
  | number (n : Number)
  | string (text : String)
  | array (items : List Value)
  | object (members : List (String × Value))
  deriving Repr, Inhabited

namespace Value

mutual
def beq : Value → Value → Bool
  | .null, .null => true
  | .bool a, .bool b => a == b
  | .number a, .number b => a == b
  | .string a, .string b => a == b
  | .array a, .array b => beqItems a b
  | .object a, .object b => beqMembers a b
  | _, _ => false

def beqItems : List Value → List Value → Bool
  | [], [] => true
  | a :: as, b :: bs => beq a b && beqItems as bs
  | _, _ => false

def beqMembers : List (String × Value) → List (String × Value) → Bool
  | [], [] => true
  | (k, a) :: as, (l, b) :: bs => k == l && beq a b && beqMembers as bs
  | _, _ => false
end

mutual
theorem beq_iff : (a b : Value) → (beq a b = true ↔ a = b)
  | .null, b => by cases b <;> simp [beq]
  | .bool _, b => by cases b <;> simp [beq]
  | .number _, b => by cases b <;> simp [beq]
  | .string _, b => by cases b <;> simp [beq]
  | .array a, b => by cases b <;> simp [beq, beqItems_iff a]
  | .object a, b => by cases b <;> simp [beq, beqMembers_iff a]

theorem beqItems_iff : (a b : List Value) → (beqItems a b = true ↔ a = b)
  | [], b => by cases b <;> simp [beqItems]
  | a :: as, b => by cases b <;> simp [beqItems, beq_iff a, beqItems_iff as]

theorem beqMembers_iff : (a b : List (String × Value)) → (beqMembers a b = true ↔ a = b)
  | [], b => by cases b <;> simp [beqMembers]
  | (k, a) :: as, b => by
    cases b with
    | nil => simp [beqMembers]
    | cons c bs => simp [beqMembers, beq_iff a, beqMembers_iff as, Prod.ext_iff]
end

instance : DecidableEq Value := fun a b => decidable_of_iff (beq a b = true) (beq_iff a b)

/-- Member lookup; anything but an object has no members. -/
def get (value : Value) (key : String) : Option Value :=
  match value with
  | .object members => (members.find? (fun member => member.1 = key)).map Prod.snd
  | _ => none

def asStr : Value → Option String
  | .string text => some text
  | _ => none

def asU64 : Value → Option Nat
  | .number (.unsigned n) => some n
  | _ => none

def asArray : Value → Option (List Value)
  | .array items => some items
  | _ => none

def isObject : Value → Bool
  | .object _ => true
  | _ => false

def isNull : Value → Bool
  | .null => true
  | _ => false

/-- `Value::pointer` along object keys. -/
def pointer : Value → List String → Option Value
  | value, [] => some value
  | value, key :: path => (value.get key).bind (fun inner => inner.pointer path)

end Value

/-- What the program uses of serde_json and of SQLite's JSON support: printing, parsing with
the parser's error text, the database's validity test, and the `Debug` rendering of a string. -/
structure Codec where
  print : Value → String
  parse : String → Except String Value
  jsonValid : String → Bool
  debugStr : String → String

/-- The value survives being printed, checked by the database and parsed back. -/
def Codec.RoundTrips (c : Codec) (value : Value) : Prop :=
  c.parse (c.print value) = .ok value ∧ c.jsonValid (c.print value) = true

end Kaiion
