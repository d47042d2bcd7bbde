import Kaiion.Json.Value
import Std.Data.String.ToNat

/-! The compact text of a JSON document, and that no two documents share it. Doubles are printed by
a parameter, the only part of the format that is not spelled out here. -/
namespace Kaiion.Json

/-- The two-character escapes, by their second character. -/
def shortEscape (c : Char) : Option Char :=
  match c.toNat with
  | 0x22 => some '"'
  | 0x5C => some '\\'
  | 0x08 => some 'b'
  | 0x09 => some 't'
  | 0x0A => some 'n'
  | 0x0C => some 'f'
  | 0x0D => some 'r'
  | _ => none

def escape (c : Char) : List Char :=
  match shortEscape c with
  | some letter => ['\\', letter]
  | none =>
    if c.toNat < 0x20 then ['\\', 'u', '0', '0', (c.toNat / 16).digitChar, (c.toNat % 16).digitChar]
    else [c]

def quote (text : List Char) : List Char := '"' :: (text.flatMap escape ++ ['"'])

variable (float : Nat → List Char)

def numberChars : Number → List Char
  | .unsigned n => Nat.toDigits 10 n
  | .negative n => '-' :: Nat.toDigits 10 n
  | .float bits => float bits

mutual
def chars : Value → List Char
  | .null => ['n', 'u', 'l', 'l']
  | .bool true => ['t', 'r', 'u', 'e']
  | .bool false => ['f', 'a', 'l', 's', 'e']
  | .number n => numberChars float n
  | .string text => quote text.toList
  | .array [] => ['[', ']']
  | .array (item :: rest) => '[' :: (chars item ++ itemsRest rest)
  | .object [] => ['{', '}']
  | .object ((key, value) :: rest) => '{' :: (quote key.toList ++ ':' :: (chars value ++ membersRest rest))

def itemsRest : List Value → List Char
  | [] => [']']
  | item :: rest => ',' :: (chars item ++ itemsRest rest)

def membersRest : List (String × Value) → List Char
  | [] => ['}']
  | (key, value) :: rest => ',' :: (quote key.toList ++ ':' :: (chars value ++ membersRest rest))
end

/-- `serde_json::to_string` of a value. -/
def print (value : Value) : String := .ofList (chars float value)

/-- The code point a two-character escape stands for. -/
private def escapedCode (letter : Char) : Nat :=
  match letter with
  | '"' => 0x22
  | '\\' => 0x5C
  | 'b' => 0x08
  | 't' => 0x09
  | 'n' => 0x0A
  | 'f' => 0x0C
  | _ => 0x0D

private theorem shortEscape_some {c letter : Char} (h : shortEscape c = some letter) :
    letter ≠ 'u' ∧ c.toNat = escapedCode letter := by
  unfold shortEscape at h
  split at h <;> cases h
  all_goals exact ⟨by decide, by assumption⟩

theorem digitChar_inj : ∀ m < 16, ∀ n < 16, m.digitChar = n.digitChar → m = n := by decide

/-- An escape shows where it ends. -/
theorem escape_append_inj {c d : Char} {rest rest' : List Char}
    (h : escape c ++ rest = escape d ++ rest') : c = d ∧ rest = rest' := by
  have hplain : ∀ {c : Char}, shortEscape c = none → c ≠ '\\' := by
    rintro c hnone rfl
    exact absurd hnone (by decide)
  unfold escape at h
  cases hc : shortEscape c with
  | some letter =>
    cases hd : shortEscape d with
    | some letter' =>
      simp only [hc, hd, List.cons_append, List.nil_append, List.cons.injEq, true_and] at h
      obtain ⟨rfl, hrest⟩ := h
      exact ⟨Char.toNat_inj.mp ((shortEscape_some hc).2.trans (shortEscape_some hd).2.symm), hrest⟩
    | none =>
      simp only [hc, hd] at h
      split at h
      · simp only [List.cons_append, List.nil_append, List.cons.injEq, true_and] at h
        exact absurd h.1 (shortEscape_some hc).1
      · simp only [List.cons_append, List.nil_append, List.cons.injEq] at h
        exact absurd h.1.symm (hplain hd)
  | none =>
    cases hd : shortEscape d with
    | some letter' =>
      simp only [hc, hd] at h
      split at h
      · simp only [List.cons_append, List.nil_append, List.cons.injEq, true_and] at h
        exact absurd h.1.symm (shortEscape_some hd).1
      · simp only [List.cons_append, List.nil_append, List.cons.injEq] at h
        exact absurd h.1 (hplain hc)
    | none =>
      simp only [hc, hd] at h
      split at h <;> split at h <;>
        simp only [List.cons_append, List.nil_append, List.cons.injEq, true_and] at h
      · obtain ⟨hhigh, hlow, hrest⟩ := h
        have hhigh := digitChar_inj _ (by omega) _ (by omega) hhigh
        have hlow := digitChar_inj _ (by omega) _ (by omega) hlow
        exact ⟨Char.toNat_inj.mp (by omega), hrest⟩
      · exact absurd h.1.symm (hplain hd)
      · exact absurd h.1 (hplain hc)
      · exact h

private theorem escape_head (c : Char) : ∃ head tail, escape c = head :: tail ∧ head ≠ '"' := by
  unfold escape
  cases hc : shortEscape c with
  | some letter => exact ⟨_, _, rfl, by decide⟩
  | none =>
    dsimp only
    split
    · exact ⟨_, _, rfl, by decide⟩
    · refine ⟨_, _, rfl, ?_⟩
      rintro rfl
      exact absurd hc (by decide)

private theorem body_append_inj {s t rest rest' : List Char}
    (h : s.flatMap escape ++ '"' :: rest = t.flatMap escape ++ '"' :: rest') : s = t ∧ rest = rest' := by
  induction s generalizing t with
  | nil =>
    cases t with
    | nil => exact ⟨rfl, (List.cons.inj h).2⟩
    | cons d t =>
      obtain ⟨head, tail, hd, hne⟩ := escape_head d
      rw [List.flatMap_cons, hd] at h
      exact absurd (List.cons.inj h).1.symm hne
  | cons c s ih =>
    cases t with
    | nil =>
      obtain ⟨head, tail, hc, hne⟩ := escape_head c
      rw [List.flatMap_cons, hc] at h
      exact absurd (List.cons.inj h).1 hne
    | cons d t =>
      rw [List.flatMap_cons, List.flatMap_cons, List.append_assoc, List.append_assoc] at h
      obtain ⟨rfl, htail⟩ := escape_append_inj h
      obtain ⟨rfl, hrest⟩ := ih htail
      exact ⟨rfl, hrest⟩

theorem quote_append_inj {s t : String} {rest rest' : List Char}
    (h : quote s.toList ++ rest = quote t.toList ++ rest') : s = t ∧ rest = rest' := by
  unfold quote at h
  rw [List.cons_append, List.cons_append, List.append_assoc, List.append_assoc] at h
  obtain ⟨htext, hrest⟩ := body_append_inj (List.cons.inj h).2
  exact ⟨String.toList_inj.mp htext, hrest⟩

def numberChar (c : Char) : Bool := c.isDigit || c = '-' || c = '+' || c = '.' || c = 'e'

/-- What is assumed of the printer of doubles: different texts for different doubles, each with a
decimal point or an exponent. -/
structure PrintsFloats : Prop where
  injective : ∀ bits bits', float bits = float bits' → bits = bits'
  chars : ∀ bits, ∀ c ∈ float bits, numberChar c = true
  marked : ∀ bits, '.' ∈ float bits ∨ 'e' ∈ float bits

/-- A number is followed by nothing that could belong to it. -/
def Delimited (rest : List Char) : Prop := ∀ c ∈ rest.head?, numberChar c = false

theorem append_inj_of_delimited {s t rest rest' : List Char} (hs : ∀ c ∈ s, numberChar c = true)
    (ht : ∀ c ∈ t, numberChar c = true) (hrest : Delimited rest) (hrest' : Delimited rest')
    (h : s ++ rest = t ++ rest') : s = t ∧ rest = rest' := by
  induction s generalizing t with
  | nil =>
    cases t with
    | nil => exact ⟨rfl, h⟩
    | cons d t =>
      rw [List.nil_append] at h
      have hd := hrest d (by rw [h]; rfl)
      rw [ht d List.mem_cons_self] at hd
      cases hd
  | cons c s ih =>
    cases t with
    | nil =>
      rw [List.nil_append] at h
      have hc := hrest' c (by rw [← h]; rfl)
      rw [hs c List.mem_cons_self] at hc
      cases hc
    | cons d t =>
      obtain ⟨rfl, htail⟩ := List.cons.inj h
      obtain ⟨rfl, heq⟩ := ih (fun c hc => hs c (List.mem_cons_of_mem _ hc))
        (fun c hc => ht c (List.mem_cons_of_mem _ hc)) htail
      exact ⟨rfl, heq⟩

private theorem digits_digit {n : Nat} {c : Char} (h : c ∈ Nat.toDigits 10 n) : c.isDigit = true :=
  Nat.isDigit_of_mem_toDigits (by decide) (by decide) h

private theorem digits_inj {m n : Nat} (h : Nat.toDigits 10 m = Nat.toDigits 10 n) : m = n :=
  Nat.repr_injective (by rw [Nat.repr, Nat.repr, h])

private theorem digits_ne_minus {n : Nat} {tail : List Char} : Nat.toDigits 10 n ≠ '-' :: tail := by
  intro h
  have hdigit := digits_digit (n := n) (h ▸ List.mem_cons_self)
  exact absurd hdigit (by decide)

variable {float} (hfloat : PrintsFloats float)
include hfloat

theorem numberChars_chars (n : Number) : ∀ c ∈ numberChars float n, numberChar c = true := by
  intro c hc
  cases n with
  | unsigned n => simp [numberChar, digits_digit hc]
  | negative n =>
    rcases List.mem_cons.mp hc with rfl | hc
    · decide
    · simp [numberChar, digits_digit hc]
  | float bits => exact hfloat.chars bits c hc

private theorem float_ne {bits n : Nat} : float bits ≠ Nat.toDigits 10 n ∧ float bits ≠ '-' :: Nat.toDigits 10 n := by
  have hdot : '.' ∉ Nat.toDigits 10 n := fun h => absurd (digits_digit h) (by decide)
  have he : 'e' ∉ Nat.toDigits 10 n := fun h => absurd (digits_digit h) (by decide)
  have hmarked := hfloat.marked bits
  constructor
  · intro h
    rw [h] at hmarked
    exact hmarked.elim hdot he
  · intro h
    rw [h] at hmarked
    simp [hdot, he] at hmarked

theorem numberChars_inj {m n : Number} (h : numberChars float m = numberChars float n) : m = n := by
  cases m <;> cases n <;> simp only [numberChars] at h
  case unsigned.unsigned => rw [digits_inj h]
  case unsigned.negative => exact absurd h digits_ne_minus
  case unsigned.float => exact absurd h.symm (float_ne hfloat).1
  case negative.unsigned => exact absurd h.symm digits_ne_minus
  case negative.negative => rw [digits_inj (List.cons.inj h).2]
  case negative.float => exact absurd h.symm (float_ne hfloat).2
  case float.unsigned => exact absurd h (float_ne hfloat).1
  case float.negative => exact absurd h (float_ne hfloat).2
  case float.float => rw [hfloat.injective _ _ h]

private theorem numberChars_ne_nil (n : Number) : numberChars float n ≠ [] := by
  have hdigits : ∀ n, Nat.toDigits 10 n ≠ [] := fun n =>
    List.ne_nil_of_length_pos Nat.length_toDigits_pos
  cases n with
  | unsigned n => exact hdigits n
  | negative n => exact List.cons_ne_nil _ _
  | float bits => exact (hfloat.marked bits).elim List.ne_nil_of_mem List.ne_nil_of_mem

inductive Kind where
  | null
  | bool (b : Bool)
  | number
  | string
  | array
  | object

def kind : Value → Kind
  | .null => .null
  | .bool b => .bool b
  | .number _ => .number
  | .string _ => .string
  | .array _ => .array
  | .object _ => .object

/-- The kind of the value a text is for, by the first character of the text. -/
def kindOf (c : Char) : Kind :=
  if c = 'n' then .null
  else if c = 't' then .bool true
  else if c = 'f' then .bool false
  else if c = '"' then .string
  else if c = '[' then .array
  else if c = '{' then .object
  else .number

omit hfloat in
private theorem kindOf_number {c : Char} (h : numberChar c = true) : kindOf c = .number := by
  have hne : ∀ d, numberChar d = false → c ≠ d := by
    rintro d hd rfl
    rw [h] at hd
    cases hd
  simp [kindOf, hne 'n' rfl, hne 't' rfl, hne 'f' rfl, hne '"' rfl, hne '[' rfl, hne '{' rfl]

private theorem starts (value : Value) : ∃ c tail, chars float value = c :: tail ∧ kindOf c = kind value ∧
    c ≠ ']' := by
  match value with
  | .null => exact ⟨'n', _, by rw [chars], rfl, by decide⟩
  | .bool true => exact ⟨'t', _, by rw [chars], rfl, by decide⟩
  | .bool false => exact ⟨'f', _, by rw [chars], rfl, by decide⟩
  | .string text => exact ⟨'"', _, by rw [chars, quote], rfl, by decide⟩
  | .array [] | .array (item :: rest) => exact ⟨'[', _, by rw [chars], rfl, by decide⟩
  | .object [] | .object ((key, item) :: rest) => exact ⟨'{', _, by rw [chars], rfl, by decide⟩
  | .number n =>
    obtain ⟨c, tail, h⟩ := List.exists_cons_of_ne_nil (numberChars_ne_nil hfloat n)
    have hc := numberChars_chars hfloat n c (h ▸ List.mem_cons_self)
    refine ⟨c, tail, by rw [chars, h], kindOf_number hc, ?_⟩
    rintro rfl
    cases hc

private theorem same_kind {a b : Value} {rest rest' : List Char}
    (h : chars float a ++ rest = chars float b ++ rest') : kind a = kind b := by
  obtain ⟨c, tail, ha, hac, -⟩ := starts hfloat a
  obtain ⟨d, tail', hb, hbd, -⟩ := starts hfloat b
  rw [ha, hb] at h
  rw [← hac, ← hbd, (List.cons.inj h).1]

omit hfloat in
private theorem itemsRest_delimited (items : List Value) (rest : List Char) :
    Delimited (itemsRest float items ++ rest) := by
  cases items with
  | nil =>
    rw [itemsRest]
    rintro c ⟨⟩
    decide
  | cons item items =>
    rw [itemsRest]
    rintro c ⟨⟩
    decide

omit hfloat in
private theorem membersRest_delimited (members : List (String × Value)) (rest : List Char) :
    Delimited (membersRest float members ++ rest) := by
  match members with
  | [] =>
    rw [membersRest]
    rintro c ⟨⟩
    decide
  | (key, value) :: members =>
    rw [membersRest]
    rintro c ⟨⟩
    decide

set_option linter.unusedSectionVars false in
mutual
/-- A text shows where it ends, unless a number runs on. -/
theorem chars_append_inj : (a b : Value) → {rest rest' : List Char} → Delimited rest → Delimited rest' →
    chars float a ++ rest = chars float b ++ rest' → a = b ∧ rest = rest'
  | .null, b, _, _, _, _, h => by
    have hkind := same_kind hfloat h
    cases b <;> cases hkind
    exact ⟨rfl, List.append_cancel_left h⟩
  | .bool x, b, _, _, _, _, h => by
    have hkind := same_kind hfloat h
    cases b <;> cases hkind
    exact ⟨rfl, List.append_cancel_left h⟩
  | .number m, b, _, _, hrest, hrest', h => by
    have hkind := same_kind hfloat h
    cases b <;> cases hkind
    rw [chars, chars] at h
    obtain ⟨hnumber, heq⟩ := append_inj_of_delimited (numberChars_chars hfloat m)
      (numberChars_chars hfloat _) hrest hrest' h
    exact ⟨by rw [numberChars_inj hfloat hnumber], heq⟩
  | .string s, b, _, _, _, _, h => by
    have hkind := same_kind hfloat h
    cases b <;> cases hkind
    rw [chars, chars] at h
    obtain ⟨rfl, heq⟩ := quote_append_inj h
    exact ⟨rfl, heq⟩
  | .array [], b, _, _, _, _, h => by
    have hkind := same_kind hfloat h
    cases b <;> cases hkind
    next others =>
    cases others with
    | nil => exact ⟨rfl, List.append_cancel_left h⟩
    | cons other others =>
      obtain ⟨c, tail, hother, -, hne⟩ := starts hfloat other
      rw [chars, chars, hother] at h
      exact absurd (List.cons.inj (List.cons.inj h).2).1.symm hne
  | .array (item :: items), b, _, _, _, _, h => by
    have hkind := same_kind hfloat h
    cases b <;> cases hkind
    next others =>
    cases others with
    | nil =>
      obtain ⟨c, tail, hitem, -, hne⟩ := starts hfloat item
      rw [chars, chars, hitem] at h
      exact absurd (List.cons.inj (List.cons.inj h).2).1 hne
    | cons other others =>
      rw [chars, chars, List.cons_append, List.cons_append, List.append_assoc, List.append_assoc] at h
      obtain ⟨rfl, hrest⟩ := chars_append_inj item other (itemsRest_delimited items _)
        (itemsRest_delimited others _) (List.cons.inj h).2
      obtain ⟨rfl, heq⟩ := itemsRest_append_inj items others hrest
      exact ⟨rfl, heq⟩
  | .object [], b, _, _, _, _, h => by
    have hkind := same_kind hfloat h
    cases b <;> cases hkind
    next others =>
    match others with
    | [] => exact ⟨rfl, List.append_cancel_left h⟩
    | (key, other) :: others =>
      rw [chars, chars, quote] at h
      exact absurd (List.cons.inj (List.cons.inj h).2).1 (by decide)
  | .object ((key, value) :: members), b, _, _, _, _, h => by
    have hkind := same_kind hfloat h
    cases b <;> cases hkind
    next others =>
    match others with
    | [] =>
      rw [chars, chars, quote] at h
      exact absurd (List.cons.inj (List.cons.inj h).2).1 (by decide)
    | (key', other) :: others =>
      rw [chars, chars, List.cons_append, List.cons_append, List.append_assoc, List.append_assoc] at h
      obtain ⟨rfl, hvalue⟩ := quote_append_inj (List.cons.inj h).2
      rw [List.cons_append, List.cons_append, List.append_assoc, List.append_assoc] at hvalue
      obtain ⟨rfl, hrest⟩ := chars_append_inj value other (membersRest_delimited members _)
        (membersRest_delimited others _) (List.cons.inj hvalue).2
      obtain ⟨rfl, heq⟩ := membersRest_append_inj members others hrest
      exact ⟨rfl, heq⟩

theorem itemsRest_append_inj : (as bs : List Value) → {rest rest' : List Char} →
    itemsRest float as ++ rest = itemsRest float bs ++ rest' → as = bs ∧ rest = rest'
  | [], [], _, _, h => ⟨rfl, List.append_cancel_left h⟩
  | [], b :: bs, _, _, h => by
    rw [itemsRest, itemsRest] at h
    exact absurd (List.cons.inj h).1 (by decide)
  | a :: as, [], _, _, h => by
    rw [itemsRest, itemsRest] at h
    exact absurd (List.cons.inj h).1 (by decide)
  | a :: as, b :: bs, _, _, h => by
    rw [itemsRest, itemsRest, List.cons_append, List.cons_append, List.append_assoc, List.append_assoc] at h
    obtain ⟨rfl, hrest⟩ := chars_append_inj a b (itemsRest_delimited as _) (itemsRest_delimited bs _)
      (List.cons.inj h).2
    obtain ⟨rfl, heq⟩ := itemsRest_append_inj as bs hrest
    exact ⟨rfl, heq⟩

theorem membersRest_append_inj : (as bs : List (String × Value)) → {rest rest' : List Char} →
    membersRest float as ++ rest = membersRest float bs ++ rest' → as = bs ∧ rest = rest'
  | [], [], _, _, h => ⟨rfl, List.append_cancel_left h⟩
  | [], (l, b) :: bs, _, _, h => by
    rw [membersRest, membersRest] at h
    exact absurd (List.cons.inj h).1 (by decide)
  | (k, a) :: as, [], _, _, h => by
    rw [membersRest, membersRest] at h
    exact absurd (List.cons.inj h).1 (by decide)
  | (k, a) :: as, (l, b) :: bs, _, _, h => by
    rw [membersRest, membersRest, List.cons_append, List.cons_append, List.append_assoc,
      List.append_assoc] at h
    obtain ⟨rfl, hvalue⟩ := quote_append_inj (List.cons.inj h).2
    rw [List.cons_append, List.cons_append, List.append_assoc, List.append_assoc] at hvalue
    obtain ⟨rfl, hrest⟩ := chars_append_inj a b (membersRest_delimited as _) (membersRest_delimited bs _)
      (List.cons.inj hvalue).2
    obtain ⟨rfl, heq⟩ := membersRest_append_inj as bs hrest
    exact ⟨rfl, heq⟩
end

/-- Different documents are printed differently. -/
theorem print_injective {a b : Value} (h : print float a = print float b) : a = b := by
  have hend : Delimited [] := fun _ h => nomatch h
  have hchars : chars float a ++ [] = chars float b ++ [] := by
    rw [List.append_nil, List.append_nil]
    exact String.ofList_injective h
  exact (chars_append_inj hfloat a b hend hend hchars).1

omit hfloat in
/-- A number's text is made of number characters, and starts no other text. -/
theorem number_of_print {value : Value} {c : Char} {tail : List Char} (hc : kindOf c = .number)
    (hfloat : PrintsFloats float) (h : print float value = .ofList (c :: tail)) :
    ∃ n, value = .number n ∧ numberChars float n = c :: tail := by
  obtain ⟨d, tail', hchars, hkind, -⟩ := starts hfloat value
  have heq : chars float value = c :: tail := String.ofList_injective h
  have hd : d = c := (List.cons.inj (hchars.symm.trans heq)).1
  rw [hd, hc] at hkind
  cases value <;> cases hkind
  next n => exact ⟨n, rfl, by rw [← heq, chars]⟩

/-- The text is one line. -/
def Unbroken (text : List Char) : Prop := ∀ c ∈ text, c ≠ '\n' ∧ c ≠ '\r'

omit hfloat in
@[simp] theorem unbroken_nil : Unbroken [] := fun _ h => by cases h

omit hfloat in
@[simp] theorem unbroken_cons {c : Char} {text : List Char} :
    Unbroken (c :: text) ↔ (c ≠ '\n' ∧ c ≠ '\r') ∧ Unbroken text := List.forall_mem_cons

omit hfloat in
@[simp] theorem unbroken_append {a b : List Char} : Unbroken (a ++ b) ↔ Unbroken a ∧ Unbroken b := List.forall_mem_append

omit hfloat in
private theorem unbroken_escape (c : Char) : Unbroken (escape c) := by
  have hshort : ∀ letter, shortEscape c = some letter → letter ≠ '\n' ∧ letter ≠ '\r' := by
    intro letter h
    unfold shortEscape at h
    split at h <;> cases h
    all_goals decide
  have hdigit : ∀ n < 16, n.digitChar ≠ '\n' ∧ n.digitChar ≠ '\r' := by decide
  unfold escape
  split
  next letter hletter => simp [hshort letter hletter]
  next hnone =>
    split
    · have hhigh := hdigit (c.toNat / 16) (by omega)
      have hlow := hdigit (c.toNat % 16) (by omega)
      simp [hhigh, hlow]
    · rw [unbroken_cons]
      refine ⟨⟨?_, ?_⟩, unbroken_nil⟩ <;> rintro rfl <;> exact absurd hnone (by decide)

omit hfloat in
private theorem unbroken_quote (text : List Char) : Unbroken (quote text) := by
  have hbody : Unbroken (text.flatMap escape) := by
    intro c hc
    obtain ⟨source, -, hc⟩ := List.mem_flatMap.mp hc
    exact unbroken_escape source c hc
  simp [quote, hbody]

private theorem unbroken_number (n : Number) : Unbroken (numberChars float n) := by
  intro c hc
  have hnumber := numberChars_chars hfloat n c hc
  constructor <;> rintro rfl <;> exact absurd hnumber (by decide)

set_option linter.unusedSectionVars false in
mutual
theorem unbroken_chars : (value : Value) → Unbroken (chars float value)
  | .null | .bool true | .bool false | .array [] | .object [] => by simp [chars]
  | .number n => by
    rw [chars]
    exact unbroken_number hfloat n
  | .string text => by
    rw [chars]
    exact unbroken_quote text.toList
  | .array (item :: rest) => by simp [chars, unbroken_chars item, unbroken_itemsRest rest]
  | .object ((key, value) :: rest) => by
    simp [chars, unbroken_quote, unbroken_chars value, unbroken_membersRest rest]

theorem unbroken_itemsRest : (items : List Value) → Unbroken (itemsRest float items)
  | [] => by simp [itemsRest]
  | item :: rest => by simp [itemsRest, unbroken_chars item, unbroken_itemsRest rest]

theorem unbroken_membersRest : (members : List (String × Value)) → Unbroken (membersRest float members)
  | [] => by simp [membersRest]
  | (key, value) :: rest => by simp [membersRest, unbroken_quote, unbroken_chars value, unbroken_membersRest rest]
end

/-- A printer of doubles that meets the assumptions: the bits, with a decimal point. -/
def pointed (bits : Nat) : List Char := Nat.toDigits 10 bits ++ ['.', '0']

omit hfloat in
theorem pointed_prints : PrintsFloats pointed where
  injective bits bits' h := digits_inj (List.append_cancel_right h)
  chars bits c hc := by
    rcases List.mem_append.mp hc with hc | hc
    · simp [numberChar, digits_digit hc]
    · rcases List.mem_cons.mp hc with rfl | hc
      · rfl
      · cases List.mem_singleton.mp hc
        rfl
  marked bits := .inl (List.mem_append_right _ List.mem_cons_self)

omit hfloat in
/-- It never prints an exponent. -/
theorem pointed_exponent (n : Number) : 'e' ∉ numberChars pointed n := by
  have hdigits : ∀ n, 'e' ∉ Nat.toDigits 10 n := fun n h => absurd (digits_digit h) (by decide)
  cases n <;> simp [numberChars, pointed, hdigits]

/-- A codec over this printer, which reads back what it prints. -/
noncomputable def compact : Codec where
  print := print pointed
  parse text := open Classical in
    if h : ∃ value, print pointed value = text then .ok h.choose
    else .error "number out of range at line 1 column 5"
  jsonValid _ := true
  debugStr text := print pointed (.string text)

omit hfloat in
theorem compact_roundTrips (value : Value) : compact.RoundTrips value := by
  have h : ∃ other, print pointed other = print pointed value := ⟨value, rfl⟩
  have hchosen : h.choose = value := print_injective pointed_prints h.choose_spec
  exact ⟨(dif_pos h).trans (congrArg Except.ok hchosen), rfl⟩

end Kaiion.Json
