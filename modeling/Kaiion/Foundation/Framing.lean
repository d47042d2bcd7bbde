import Mathlib.Data.List.Basic
import Mathlib.Tactic.Ring

/-! Byte strings that can be taken apart again: fixed-width lengths, frames that carry their length,
lists of named frames, hexadecimal texts, and what is left of two values joined by a separator. -/
namespace Kaiion.Foundation

/-- The `width` lowest bytes of a number, most significant first. -/
def bigEndian : Nat → Nat → List UInt8
  | 0, _ => []
  | width + 1, n => bigEndian width (n / 256) ++ [UInt8.ofNat n]

@[simp] theorem length_bigEndian (width n : Nat) : (bigEndian width n).length = width := by
  induction width generalizing n with
  | zero => rfl
  | succ width ih => rw [bigEndian, List.length_append, ih]; rfl

theorem ofNat_inj_mod {m n : Nat} (h : UInt8.ofNat m = UInt8.ofNat n) : m % 256 = n % 256 := by
  simpa using congrArg UInt8.toNat h

theorem bigEndian_inj {width m n : Nat} (hm : m < 256 ^ width) (hn : n < 256 ^ width)
    (h : bigEndian width m = bigEndian width n) : m = n := by
  induction width generalizing m n with
  | zero => rw [Nat.lt_one_iff.mp hm, Nat.lt_one_iff.mp hn]
  | succ width ih =>
    rw [bigEndian, bigEndian] at h
    obtain ⟨hhigh, hlow⟩ := List.append_inj h (by simp)
    have hlow := ofNat_inj_mod (List.cons.inj hlow).1
    have hhigh := ih (Nat.div_lt_of_lt_mul (by rw [Nat.pow_succ'] at hm; exact hm))
      (Nat.div_lt_of_lt_mul (by rw [Nat.pow_succ'] at hn; exact hn)) hhigh
    omega

/-- A byte string after its length, a 64-bit number. -/
def frame (bytes : List UInt8) : List UInt8 := bigEndian 8 bytes.length ++ bytes

/-- A frame shows where it ends. -/
theorem frame_append_inj {a b rest rest' : List UInt8} (ha : a.length < 2 ^ 64) (hb : b.length < 2 ^ 64)
    (h : frame a ++ rest = frame b ++ rest') : a = b ∧ rest = rest' := by
  unfold frame at h
  rw [List.append_assoc, List.append_assoc] at h
  obtain ⟨hlength, h⟩ := List.append_inj h (by simp)
  exact List.append_inj h (bigEndian_inj (by simpa using ha) (by simpa using hb) hlength)

/-- A value after its name. -/
structure Component where
  name : List UInt8
  value : List UInt8
  deriving DecidableEq

def Component.encode (component : Component) : List UInt8 := frame component.name ++ frame component.value

/-- Names and values are no longer than a 64-bit length can say. -/
def Component.Fits (component : Component) : Prop :=
  component.name.length < 2 ^ 64 ∧ component.value.length < 2 ^ 64

def encodeAll (components : List Component) : List UInt8 := components.flatMap Component.encode

private theorem encode_ne_nil (component : Component) : component.encode ≠ [] := by
  intro h
  have hlength := congrArg List.length h
  simp [Component.encode, frame] at hlength

theorem encode_append_inj {a b : Component} {rest rest' : List UInt8} (ha : a.Fits) (hb : b.Fits)
    (h : a.encode ++ rest = b.encode ++ rest') : a = b ∧ rest = rest' := by
  unfold Component.encode at h
  rw [List.append_assoc, List.append_assoc] at h
  obtain ⟨hname, hrest⟩ := frame_append_inj ha.1 hb.1 h
  obtain ⟨hvalue, heq⟩ := frame_append_inj ha.2 hb.2 hrest
  cases a
  cases b
  cases hname
  cases hvalue
  exact ⟨rfl, heq⟩

/-- Lists of named values are uniquely decodable. -/
theorem encodeAll_inj {as bs : List Component} (ha : ∀ a ∈ as, a.Fits) (hb : ∀ b ∈ bs, b.Fits)
    (h : encodeAll as = encodeAll bs) : as = bs := by
  induction as generalizing bs with
  | nil =>
    cases bs with
    | nil => rfl
    | cons b bs => exact absurd (List.append_eq_nil_iff.mp h.symm).1 (encode_ne_nil b)
  | cons a as ih =>
    cases bs with
    | nil => exact absurd (List.append_eq_nil_iff.mp h).1 (encode_ne_nil a)
    | cons b bs =>
      obtain ⟨rfl, hrest⟩ := encode_append_inj (ha a List.mem_cons_self) (hb b List.mem_cons_self) h
      rw [ih (fun c hc => ha c (List.mem_cons_of_mem _ hc)) (fun c hc => hb c (List.mem_cons_of_mem _ hc)) hrest]

def hexByte (byte : UInt8) : List Char := [(byte.toNat / 16).digitChar, (byte.toNat % 16).digitChar]

/-- Two digits a byte, in lower case. -/
def hexDigits (bytes : List UInt8) : String := .ofList (bytes.flatMap hexByte)

private theorem hexByte_inj {a b : UInt8} (h : hexByte a = hexByte b) : a = b := by
  have digit : ∀ m < 16, ∀ n < 16, m.digitChar = n.digitChar → m = n := by decide
  have ha := a.toNat_lt
  have hb := b.toNat_lt
  obtain ⟨hhigh, hlow⟩ := List.cons.inj h
  have hhigh := digit _ (by omega) _ (by omega) hhigh
  have hlow := digit _ (by omega) _ (by omega) (List.cons.inj hlow).1
  exact UInt8.toNat_inj.mp (by omega)

private theorem hexBytes_inj {as bs : List UInt8} (h : as.flatMap hexByte = bs.flatMap hexByte) : as = bs := by
  induction as generalizing bs with
  | nil =>
    cases bs with
    | nil => rfl
    | cons b bs => cases h
  | cons a as ih =>
    cases bs with
    | nil => cases h
    | cons b bs =>
      rw [List.flatMap_cons, List.flatMap_cons] at h
      obtain ⟨hbyte, hrest⟩ := List.append_inj h rfl
      rw [hexByte_inj hbyte, ih hrest]

theorem hexDigits_injective {as bs : List UInt8} (h : hexDigits as = hexDigits bs) : as = bs :=
  hexBytes_inj (String.ofList_injective h)

section Separator
variable {α : Type*} {separator : α} {a b a' b' : List α}

/-- The second pair is cut at a later separator: what its first value gains the other pair has in its
second value. -/
def Shifted (separator : α) (a b a' b' : List α) : Prop :=
  ∃ moved, a' = a ++ separator :: moved ∧ b = moved ++ separator :: b'

theorem Shifted.mem (h : Shifted separator a b a' b') : separator ∈ a' := by
  obtain ⟨moved, rfl, -⟩ := h
  simp

theorem Shifted.ne (h : Shifted separator a b a' b') : a ≠ a' := by
  obtain ⟨moved, rfl, -⟩ := h
  simp

theorem Shifted.join_eq (h : Shifted separator a b a' b') : a ++ separator :: b = a' ++ separator :: b' := by
  obtain ⟨moved, rfl, rfl⟩ := h
  simp

private theorem shifted_of_append {rest : List α} (ha : a' = a ++ rest)
    (hb : separator :: b = rest ++ separator :: b') : (a = a' ∧ b = b') ∨ Shifted separator a b a' b' := by
  cases rest with
  | nil => exact .inl ⟨by simp [ha], by simpa using hb⟩
  | cons first rest =>
    obtain ⟨rfl, hrest⟩ := List.cons.inj hb
    exact .inr ⟨rest, ha, hrest⟩

/-- Without lengths, a joined text can be cut at any of its separators. -/
theorem join_eq_iff : a ++ separator :: b = a' ++ separator :: b' ↔
    (a = a' ∧ b = b') ∨ Shifted separator a b a' b' ∨ Shifted separator a' b' a b := by
  constructor
  · intro h
    rcases List.append_eq_append_iff.mp h with ⟨rest, ha, hb⟩ | ⟨rest, ha, hb⟩
    · exact (shifted_of_append ha hb).imp_right .inl
    · rcases shifted_of_append ha hb with ⟨rfl, rfl⟩ | hshifted
      · exact .inl ⟨rfl, rfl⟩
      · exact .inr (.inr hshifted)
  · rintro (⟨rfl, rfl⟩ | hshifted | hshifted)
    · rfl
    · exact hshifted.join_eq
    · exact hshifted.join_eq.symm

end Separator

end Kaiion.Foundation
