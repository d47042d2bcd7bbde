import Kaiion.Foundation.Result
import Kaiion.Json.Object
import Mathlib.Data.String.Basic
import Mathlib.Data.List.Nodup

/-! Edits of a JSON document at fixed places: each knows the places it owns, leaves the rest of the document
as it was, and changes nothing when it is made again. -/
namespace Kaiion
open Foundation

namespace Members

theorem insert_insert (key : String) (old new : Value) (members : Members) :
    (members.insert key old).insert key new = members.insert key new := by
  induction members with
  | nil => simp [insert]
  | cons member rest ih =>
    obtain ⟨other, value⟩ := member
    unfold insert
    by_cases heq : key = other
    · simp [heq, insert]
    · by_cases hlt : key < other
      · simp [heq, hlt, insert]
      · simp [heq, hlt, insert, ih]

/-- Two members are overwritten in either order. -/
theorem insert_comm {a b : String} (h : a ≠ b) (x y : Value) (members : Members) :
    (members.insert b y).insert a x = (members.insert a x).insert b y := by
  induction members with
  | nil =>
    rcases lt_or_gt_of_ne h with hlt | hlt
    · simp [insert, h, h.symm, hlt, hlt.not_gt]
    · simp [insert, h, h.symm, hlt, hlt.not_gt]
  | cons member rest ih =>
    obtain ⟨other, value⟩ := member
    rcases lt_trichotomy a other with ha | rfl | ha
    · rcases lt_trichotomy b other with hb | rfl | hb
      · rcases lt_or_gt_of_ne h with hab | hab
        · simp [insert, h, h.symm, ha.ne, hb.ne, ha, hb, hab, hab.not_gt]
        · simp [insert, h, h.symm, ha.ne, hb.ne, ha, hb, hab, hab.not_gt]
      · simp [insert, h, h.symm, ha, ha.not_gt]
      · simp [insert, ha, ha.ne, hb.ne', hb.not_gt, h.symm, (ha.trans hb).not_gt]
    · rcases lt_or_gt_of_ne h with hab | hab
      · simp [insert, h.symm, hab.not_gt]
      · simp [insert, h, h.symm, hab, hab.not_gt]
    · rcases lt_trichotomy b other with hb | rfl | hb
      · simp [insert, ha.ne', ha.not_gt, hb.ne, hb, h, (hb.trans ha).not_gt]
      · simp [insert, h, ha.not_gt]
      · simp [insert, ha.ne', hb.ne', ha.not_gt, hb.not_gt, ih]

end Members

/-- A step into an object or an array. -/
inductive Step where
  | key (name : String)
  | index (position : Nat)
  deriving DecidableEq, Repr

abbrev Path := List Step

namespace Value

def child (step : Step) : Value → Option Value
  | .object members => match step with
    | .key name => Members.get members name
    | .index _ => none
  | .array items => match step with
    | .key _ => none
    | .index position => items[position]?
  | _ => none

end Value

/-- What stands at a path of a document that may be missing. -/
def lookup : Option Value → Path → Option Value
  | value, [] => value
  | value, step :: path => lookup (value.bind (Value.child step)) path

@[simp] theorem lookup_none (path : Path) : lookup none path = none := by
  induction path with
  | nil => rfl
  | cons step path ih => exact ih

/-- The two values are both objects, both arrays, or of the same kind of scalar. -/
def Value.SameKind : Value → Value → Prop
  | .null, .null | .bool _, .bool _ | .number _, .number _ | .string _, .string _ | .array _, .array _
  | .object _, .object _ => True
  | _, _ => False

theorem Value.SameKind.refl (value : Value) : value.SameKind value := by
  cases value <;> exact trivial

/-- Apart from the owned places, what is below them and what leads to them, the documents agree; what leads
to an owned place keeps its kind. -/
structure Framed (owned : List Path) (old new : Option Value) : Prop where
  rest : ∀ path, (∀ own ∈ owned, ¬ own <+: path ∧ ¬ path <+: own) → lookup new path = lookup old path
  parents : ∀ path value, (∀ own ∈ owned, ¬ own <+: path) → lookup old path = some value →
    ∃ value', lookup new path = some value' ∧ value.SameKind value'

/-- Owning more constrains less. -/
theorem Framed.mono {owned more : List Path} {old new : Option Value} (h : Framed owned old new)
    (hmore : ∀ own ∈ owned, own ∈ more) : Framed more old new where
  rest path hpath := h.rest path fun own hown => hpath own (hmore own hown)
  parents path value hpath := h.parents path value fun own hown => hpath own (hmore own hown)

/-- A place that is owned itself is unconstrained. -/
theorem framed_root (old new : Option Value) : Framed [[]] old new where
  rest _ h := absurd List.nil_prefix (h [] List.mem_cons_self).1
  parents _ _ h := absurd List.nil_prefix (h [] List.mem_cons_self)

/-- An edit of a place that may be empty. -/
structure Edit where
  apply : Option Value → Except String Value
  owned : Option Value → List Path
  owns : ∀ old, owned old ≠ []
  frames : ∀ {old new}, apply old = .ok new → Framed (owned old) old (some new)
  settles : ∀ {old new}, apply old = .ok new → apply (some new) = .ok new

namespace Edit

/-- Overwrite whatever is there. -/
def set (value : Value) : Edit where
  apply _ := .ok value
  owned _ := [[]]
  owns _ := by simp
  frames _ := framed_root _ _
  settles h := h

theorem set_apply (value : Value) (old : Option Value) : (set value).apply old = .ok value := rfl

end Edit

namespace Members

def edit (key : String) (e : Edit) (members : Members) : Except String Members :=
  (e.apply (members.get key)).map (fun value => members.insert key value)

def editAll : List (String × Edit) → Members → Except String Members
  | [], members => .ok members
  | (key, e) :: rest, members => do
    let members ← edit key e members
    editAll rest members

theorem edit_ok {key : String} {e : Edit} {members after : Members} (h : edit key e members = .ok after) :
    ∃ value, e.apply (members.get key) = .ok value ∧ after = members.insert key value := by
  unfold edit at h
  cases happly : e.apply (members.get key) with
  | error error =>
    rw [happly] at h
    cases h
  | ok value =>
    rw [happly] at h
    exact ⟨value, rfl, (Except.ok.inj h).symm⟩

/-- What edits of different members leave alone: the other members, and that a member is in place. -/
theorem editAll_rest {edits : List (String × Edit)} {members after : Members} (h : editAll edits members = .ok after)
    {key : String} (hkey : key ∉ edits.map Prod.fst) : after.get key = members.get key ∧
      ∀ value, members.insert key value = members → after.insert key value = after := by
  induction edits generalizing members with
  | nil =>
    cases h
    exact ⟨rfl, fun _ h => h⟩
  | cons entry rest ih =>
    obtain ⟨other, e⟩ := entry
    rw [List.map_cons, List.mem_cons, not_or] at hkey
    obtain ⟨inner, hinner, h⟩ := bind_ok h
    obtain ⟨value, -, rfl⟩ := edit_ok hinner
    obtain ⟨hget, hplace⟩ := ih h hkey.2
    refine ⟨hget.trans (get_insert_of_ne hkey.1 value members), fun mine hmine => hplace mine ?_⟩
    rw [insert_comm hkey.1, hmine]

/-- Every edit sees the member as it was, and leaves what it makes of it in place. -/
theorem editAll_each {edits : List (String × Edit)} (hkeys : (edits.map Prod.fst).Nodup) {members after : Members}
    (h : editAll edits members = .ok after) : ∀ entry ∈ edits, ∃ value,
      entry.2.apply (members.get entry.1) = .ok value ∧ after.get entry.1 = some value ∧
        after.insert entry.1 value = after := by
  induction edits generalizing members with
  | nil => exact fun _ hentry => nomatch hentry
  | cons first rest ih =>
    obtain ⟨key, e⟩ := first
    obtain ⟨hfresh, hkeys⟩ := List.nodup_cons.mp hkeys
    obtain ⟨inner, hinner, h⟩ := bind_ok h
    obtain ⟨value, happly, rfl⟩ := edit_ok hinner
    obtain ⟨hget, hplace⟩ := editAll_rest h hfresh
    intro entry hentry
    rcases List.mem_cons.mp hentry with rfl | hlater
    · exact ⟨value, happly, hget.trans (get_insert_self key value members),
        hplace value (insert_insert key value value members)⟩
    · obtain ⟨mine, hmine, hrest⟩ := ih hkeys h entry hlater
      have hne : entry.1 ≠ key := fun heq => hfresh (List.mem_map.mpr ⟨entry, hlater, heq⟩)
      rw [get_insert_of_ne hne] at hmine
      exact ⟨mine, hmine, hrest⟩

/-- Edits whose results are all in place change nothing. -/
theorem editAll_of_each {edits : List (String × Edit)} {members : Members} (h : ∀ entry ∈ edits, ∃ value,
    entry.2.apply (members.get entry.1) = .ok value ∧ members.insert entry.1 value = members) :
    editAll edits members = .ok members := by
  induction edits with
  | nil => rfl
  | cons entry rest ih =>
    obtain ⟨value, happly, hplace⟩ := h entry List.mem_cons_self
    unfold editAll edit
    rw [happly]
    change editAll rest (members.insert entry.1 value) = .ok members
    rw [hplace]
    exact ih fun other hother => h other (List.mem_cons_of_mem _ hother)

end Members

/-- The members of an object, or none where there is nothing yet. -/
def membersOr (error : String) (old : Option Value) : Except String Members :=
  match old.getD (.object []) with
  | .object members => .ok members
  | _ => .error error

/-- The members read from an object are its children. -/
theorem membersOr_ok {error : String} {old : Option Value} {members : Members}
    (h : membersOr error old = .ok members) : (∀ key, old.bind (Value.child (.key key)) = members.get key) ∧
      (∀ position, old.bind (Value.child (.index position)) = none) ∧
        ∀ value, old = some value → value = .object members := by
  cases old with
  | none =>
    cases h
    exact ⟨fun _ => rfl, fun _ => rfl, fun _ hvalue => nomatch hvalue⟩
  | some value =>
    cases value with
    | object found =>
      cases h
      exact ⟨fun _ => rfl, fun _ => rfl, fun _ hvalue => (Option.some.inj hvalue).symm⟩
    | _ => cases h

/-- An object whose members agree, apart from what is owned in each. -/
theorem framed_object {error : String} {old : Option Value} {members after : Members} {owned : List Path}
    (hold : membersOr error old = .ok members) (hne : owned ≠ [])
    (h : ∀ key, (after.get key = members.get key) ∨ ∃ inner, (∀ own ∈ inner, .key key :: own ∈ owned) ∧
      Framed inner (members.get key) (after.get key)) :
    Framed owned old (some (.object after)) := by
  obtain ⟨hkeys, hindexes, hvalue⟩ := membersOr_ok hold
  constructor
  · intro path hpath
    cases path with
    | nil =>
      obtain ⟨own, hown⟩ := List.exists_mem_of_ne_nil _ hne
      exact absurd List.nil_prefix (hpath own hown).2
    | cons step path =>
      cases step with
      | index position =>
        unfold lookup
        rw [hindexes position]
        rfl
      | key key =>
        unfold lookup
        rw [hkeys key]
        change lookup (after.get key) path = lookup (members.get key) path
        rcases h key with heq | ⟨inner, hinner, hframed⟩
        · rw [heq]
        · refine hframed.rest path fun own hown => ?_
          have hapart := hpath _ (hinner own hown)
          rwa [List.cons_prefix_cons, List.cons_prefix_cons, and_iff_right rfl, and_iff_right rfl] at hapart
  · intro path value hpath hlookup
    cases path with
    | nil =>
      obtain rfl := hvalue value hlookup
      exact ⟨_, rfl, trivial⟩
    | cons step path =>
      cases step with
      | index position =>
        unfold lookup at hlookup
        rw [hindexes position, lookup_none] at hlookup
        cases hlookup
      | key key =>
        unfold lookup at hlookup ⊢
        rw [hkeys key] at hlookup
        change ∃ value', lookup (after.get key) path = some value' ∧ value.SameKind value'
        rcases h key with heq | ⟨inner, hinner, hframed⟩
        · rw [heq]
          exact ⟨value, hlookup, .refl value⟩
        · refine hframed.parents path value (fun own hown => ?_) hlookup
          have hapart := hpath _ (hinner own hown)
          rwa [List.cons_prefix_cons, and_iff_right rfl] at hapart

/-- The places owned in a nonempty family of edits. -/
private theorem owned_ne_nil {edits : List (String × Edit)} (hne : edits ≠ []) (old : Option Value) :
    edits.flatMap (fun entry =>
      (entry.2.owned (old.bind (Value.child (.key entry.1)))).map (.key entry.1 :: ·)) ≠ [] := by
  obtain ⟨entry, hentry⟩ := List.exists_mem_of_ne_nil _ hne
  obtain ⟨own, hown⟩ := List.exists_mem_of_ne_nil _ (entry.2.owns (old.bind (Value.child (.key entry.1))))
  exact List.ne_nil_of_mem (List.mem_flatMap.mpr ⟨entry, hentry, List.mem_map_of_mem hown⟩)

namespace Edit

/-- Edit members of an object, which is created where there is nothing yet. -/
def object (error : String) (edits : List (String × Edit)) (hkeys : (edits.map Prod.fst).Nodup)
    (hne : edits ≠ []) : Edit where
  apply old := do
    let members ← membersOr error old
    let members ← members.editAll edits
    return .object members
  owned old := edits.flatMap (fun entry =>
    (entry.2.owned (old.bind (Value.child (.key entry.1)))).map (.key entry.1 :: ·))
  owns := owned_ne_nil hne
  frames := by
    intro old new h
    obtain ⟨members, hold, h⟩ := bind_ok h
    obtain ⟨after, hafter, h⟩ := bind_ok h
    obtain rfl := Except.ok.inj h
    refine framed_object hold (owned_ne_nil hne old) fun key => ?_
    by_cases hkey : key ∈ edits.map Prod.fst
    · obtain ⟨entry, hentry, rfl⟩ := List.mem_map.mp hkey
      obtain ⟨value, happly, hget, -⟩ := Members.editAll_each hkeys hafter entry hentry
      refine .inr ⟨entry.2.owned (members.get entry.1), fun own hown => ?_, ?_⟩
      · rw [List.mem_flatMap]
        refine ⟨entry, hentry, List.mem_map_of_mem ?_⟩
        rwa [(membersOr_ok hold).1]
      · rw [hget]
        exact entry.2.frames happly
    · exact .inl (Members.editAll_rest hafter hkey).1
  settles := by
    intro old new h
    obtain ⟨members, hold, h⟩ := bind_ok h
    obtain ⟨after, hafter, h⟩ := bind_ok h
    obtain rfl := Except.ok.inj h
    have hagain : after.editAll edits = .ok after := by
      refine Members.editAll_of_each fun entry hentry => ?_
      obtain ⟨value, happly, hget, hplace⟩ := Members.editAll_each hkeys hafter entry hentry
      rw [hget]
      exact ⟨value, entry.2.settles happly, hplace⟩
    change (do
      let members ← Members.editAll edits after
      return Value.object members) = Except.ok (Value.object after)
    rw [hagain]
    rfl

/-- Add a member unless the object, which is created where there is nothing yet, has it. -/
def entry (error : String) (key : String) (value : Value) : Edit where
  apply old := do
    let members ← membersOr error old
    return .object (members.orInsert key value)
  owned _ := [[.key key]]
  owns _ := by simp
  frames := by
    intro old new h
    obtain ⟨members, hold, h⟩ := bind_ok h
    obtain rfl := Except.ok.inj h
    refine framed_object hold (by simp) fun other => ?_
    by_cases hkey : other = key
    · subst hkey
      exact .inr ⟨[[]], fun own hown => by simp_all, framed_root _ _⟩
    · left
      unfold Members.orInsert
      split
      · rfl
      · exact Members.get_insert_of_ne hkey value members
  settles := by
    intro old new h
    obtain ⟨members, -, h⟩ := bind_ok h
    obtain rfl := Except.ok.inj h
    change Except.ok (Value.object ((members.orInsert key value).orInsert key value)) = _
    have hpresent : ((members.orInsert key value).get key).isSome = true := by
      unfold Members.orInsert
      split
      next hsome => exact hsome
      · rw [Members.get_insert_self]
        rfl
    rw [Members.orInsert, if_pos hpresent]

end Edit

/-- Rework the first item that `fits`, or append a new one. -/
def upsert (fits : Value → Bool) (rework : Value → Value) (new : Value) : List Value → List Value
  | [] => [new]
  | item :: rest => if fits item then rework item :: rest else item :: upsert fits rework new rest

/-- Only one position of the list changes: the first that fits, or the one past its end. -/
theorem upsert_getElem? (fits : Value → Bool) (rework : Value → Value) (new : Value) (items : List Value)
    {position : Nat} (h : position ≠ items.findIdx fits) :
    (upsert fits rework new items)[position]? = items[position]? := by
  induction items generalizing position with
  | nil =>
    cases position with
    | zero => exact absurd rfl h
    | succ position => rfl
  | cons item rest ih =>
    unfold upsert
    rw [List.findIdx_cons] at h
    cases hfits : fits item with
    | true =>
      rw [hfits] at h
      cases position with
      | zero => exact absurd rfl h
      | succ position => rfl
    | false =>
      rw [hfits] at h
      cases position with
      | zero => rfl
      | succ position =>
        simp only [Bool.false_eq_true, if_false, List.getElem?_cons_succ]
        exact ih fun heq => h (by rw [heq]; rfl)

theorem upsert_upsert {fits : Value → Bool} {rework : Value → Value} {new : Value}
    (hnew : fits new = true ∧ rework new = new)
    (hrework : ∀ item, fits item = true → fits (rework item) = true ∧ rework (rework item) = rework item)
    (items : List Value) : upsert fits rework new (upsert fits rework new items) = upsert fits rework new items := by
  induction items with
  | nil => simp [upsert, hnew.1, hnew.2]
  | cons item rest ih =>
    cases hfits : fits item with
    | true =>
      obtain ⟨hagain, hsame⟩ := hrework item hfits
      simp [upsert, hfits, hagain, hsame]
    | false => simp [upsert, hfits, ih]

/-- The items of a list, or none where there is nothing yet. -/
def itemsOr (error : String) (old : Option Value) : Except String (List Value) :=
  match old.getD (.array []) with
  | .array items => .ok items
  | _ => .error error

/-- The items read from a list are its children. -/
theorem itemsOr_ok {error : String} {old : Option Value} {items : List Value} (h : itemsOr error old = .ok items) :
    (∀ key, old.bind (Value.child (.key key)) = none) ∧
      (∀ position : Nat, old.bind (Value.child (.index position)) = items[position]?) ∧
        (old.bind Value.asArray).getD [] = items ∧ ∀ value, old = some value → value = .array items := by
  cases old with
  | none =>
    cases h
    exact ⟨fun _ => rfl, fun _ => rfl, rfl, fun _ hvalue => nomatch hvalue⟩
  | some value =>
    cases value with
    | array found =>
      cases h
      exact ⟨fun _ => rfl, fun _ => rfl, rfl, fun _ hvalue => (Option.some.inj hvalue).symm⟩
    | _ => cases h

namespace Edit

/-- Rework an item of a list, which is created where there is nothing yet, or append one. -/
def item (error : String) (fits : Value → Bool) (rework : Value → Value) (new : Value)
    (hnew : fits new = true ∧ rework new = new)
    (hrework : ∀ item, fits item = true → fits (rework item) = true ∧ rework (rework item) = rework item) :
    Edit where
  apply old := do
    let items ← itemsOr error old
    return .array (upsert fits rework new items)
  owned old := [[.index (((old.bind Value.asArray).getD []).findIdx fits)]]
  owns _ := by simp
  frames := by
    intro old new' h
    obtain ⟨items, hold, h⟩ := bind_ok h
    obtain rfl := Except.ok.inj h
    obtain ⟨hkeys, hindexes, hitems, hvalue⟩ := itemsOr_ok hold
    rw [hitems]
    have hchild : ∀ position path, ¬ ([Step.index (items.findIdx fits)] <+: .index position :: path) →
        lookup ((upsert fits rework new items)[position]?) path = lookup (items[position]?) path := by
      intro position path hpath
      rw [upsert_getElem? fits rework new items fun heq => hpath (heq ▸ ⟨path, rfl⟩)]
    constructor
    · intro path hpath
      obtain ⟨hbelow, habove⟩ := hpath _ List.mem_cons_self
      cases path with
      | nil => exact absurd List.nil_prefix habove
      | cons step path =>
        unfold lookup
        cases step with
        | key key => rw [hkeys key]; rfl
        | index position =>
          rw [hindexes position]
          exact hchild position path hbelow
    · intro path value hpath hlookup
      have hbelow := hpath _ List.mem_cons_self
      cases path with
      | nil =>
        obtain rfl := hvalue value hlookup
        exact ⟨_, rfl, trivial⟩
      | cons step path =>
        unfold lookup at hlookup ⊢
        cases step with
        | key key =>
          rw [hkeys key, lookup_none] at hlookup
          cases hlookup
        | index position =>
          rw [hindexes position] at hlookup
          exact ⟨value, (hchild position path hbelow).trans hlookup, .refl value⟩
  settles := by
    intro old new' h
    obtain ⟨items, -, h⟩ := bind_ok h
    obtain rfl := Except.ok.inj h
    change Except.ok (Value.array (upsert fits rework new (upsert fits rework new items))) = _
    rw [upsert_upsert hnew hrework]

end Edit
end Kaiion
