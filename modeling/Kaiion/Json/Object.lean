import Kaiion.Json.Value

/-! Editing the members of a JSON object, which are kept in key order. -/
namespace Kaiion

/-- The members of a JSON object. -/
abbrev Members := List (String × Value)

namespace Members

def get (members : Members) (key : String) : Option Value :=
  (members.find? (fun member => member.1 = key)).map Prod.snd

/-- `Map::insert`. -/
def insert (key : String) (value : Value) : Members → Members
  | [] => [(key, value)]
  | (other, old) :: rest =>
    if key = other then (key, value) :: rest
    else if key < other then (key, value) :: (other, old) :: rest
    else (other, old) :: insert key value rest

/-- `Map::remove`. -/
def remove (key : String) (members : Members) : Members := members.filter (fun member => member.1 ≠ key)

/-- Overwrite a member in place. -/
def update (key : String) (f : Value → Value) (members : Members) : Members :=
  members.map (fun member => if member.1 = key then (member.1, f member.2) else member)

/-- `entry(key).or_insert_with(..)`. -/
def orInsert (key : String) (value : Value) (members : Members) : Members :=
  if (members.get key).isSome then members else members.insert key value

@[simp] theorem get_insert_self (key : String) (value : Value) (members : Members) :
    (members.insert key value).get key = some value := by
  induction members with
  | nil => simp [insert, get]
  | cons member rest ih =>
    obtain ⟨other, old⟩ := member
    unfold insert
    split
    · simp [get]
    next hne =>
      split
      · simp [get]
      · simpa [get, Ne.symm hne] using ih

@[simp] theorem get_insert_of_ne {key other : String} (h : key ≠ other) (value : Value) (members : Members) :
    (members.insert other value).get key = members.get key := by
  induction members with
  | nil => simp [insert, get, h.symm]
  | cons member rest ih =>
    obtain ⟨name, old⟩ := member
    unfold insert
    split
    next heq =>
      subst heq
      simp [get, h.symm]
    · split
      · simp [get, h.symm]
      · by_cases hname : name = key
        · simp [get, hname]
        · simpa [get, hname] using ih

theorem get_orInsert {members : Members} {key : String} {found : Value} (h : members.get key = some found)
    (other : String) (value : Value) : (members.orInsert other value).get key = some found := by
  unfold orInsert
  split
  · exact h
  next hnone =>
    by_cases hkey : key = other
    · rw [hkey] at h
      simp [h] at hnone
    · rw [get_insert_of_ne hkey, h]

end Members

namespace Value

def isBoolean : Value → Bool
  | .bool _ => true
  | _ => false

def members? : Value → Option Members
  | .object members => some members
  | _ => none

@[simp] theorem get_object (members : Members) (key : String) :
    (Value.object members).get key = members.get key := rfl

/-- A string member. -/
def text (value : Value) (key : String) : Option String := (value.get key).bind asStr

/-- An array member. -/
def items (value : Value) (key : String) : Option (List Value) := (value.get key).bind asArray

/-- Two documents with the same string members, and array members in the same places. -/
structure Alike (a b : Value) : Prop where
  object : a.isObject = b.isObject
  text : ∀ key, a.text key = b.text key
  items : ∀ key, (a.items key).isSome = (b.items key).isSome

end Value

/-- What is printed reads back with its texts and its shape; numbers may lose precision. -/
def Codec.KeepsTexts (c : Codec) : Prop := ∀ value, ∃ back, c.parse (c.print value) = .ok back ∧ back.Alike value

theorem Codec.keepsTexts {c : Codec} (h : ∀ value, c.RoundTrips value) : c.KeepsTexts := fun value =>
  ⟨value, (h value).1, rfl, fun _ => rfl, fun _ => rfl⟩

end Kaiion
