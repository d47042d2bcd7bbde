import Kaiion.Service.Lifecycle

/-! The text of the PID file. -/
namespace Kaiion.Service
open Foundation Proxy

private theorem digit_not_whitespace {char : Char} (h : char.isDigit = true) : isWhitespace char = false := by
  have hrange : 48 ≤ char.toNat ∧ char.toNat ≤ 57 := by
    have hd := h
    simp only [Char.isDigit, Bool.and_eq_true, decide_eq_true_eq] at hd
    exact ⟨hd.1, hd.2⟩
  unfold isWhitespace
  simp
  omega

private theorem dropWhile_digits {digits : List Char} (tail : List Char) (hne : digits ≠ [])
    (h : ∀ char ∈ digits, char.isDigit = true) : (digits ++ tail).dropWhile isWhitespace = digits ++ tail := by
  cases digits with
  | nil => exact absurd rfl hne
  | cons char digits =>
    rw [List.cons_append, List.dropWhile_cons_of_neg]
    rw [digit_not_whitespace (h char (List.mem_cons_self ..))]
    exact Bool.false_ne_true

private theorem trim_digits {digits : List Char} (hne : digits ≠ []) (h : ∀ char ∈ digits, char.isDigit = true) :
    trim (.ofList (digits ++ ['\n'])) = .ofList digits := by
  have hreverse : ∀ char ∈ digits.reverse, char.isDigit = true := fun char hc => h char (List.mem_reverse.mp hc)
  have hend : ('\n' :: digits.reverse).dropWhile isWhitespace = digits.reverse := by
    rw [List.dropWhile_cons_of_pos (by decide)]
    simpa using dropWhile_digits [] (by simpa using hne) hreverse
  unfold trim
  rw [String.toList_ofList, dropWhile_digits ['\n'] hne h, List.reverse_append, List.reverse_singleton,
    List.singleton_append, hend, List.reverse_reverse]

private theorem digits_value {digits : List Char} (init : Nat) :
    digits.foldl (fun value digit => value * 10 + (digit.toNat - 48)) init = Nat.ofDigitChars 10 digits init := by
  rw [Nat.ofDigitChars_eq_foldl]
  congr
  funext value digit
  rw [Nat.mul_comm]
  rfl

private theorem parseU64_digits {n : Nat} (h : n < 2 ^ 64) : parseU64 (.ofList (Nat.toDigits 10 n)) = some n := by
  have hdigits : ∀ char ∈ Nat.toDigits 10 n, char.isDigit = true :=
    fun char hc => Nat.isDigit_of_mem_toDigits (by decide) (by decide) hc
  have hplain : ∀ rest, Nat.toDigits 10 n ≠ '+' :: rest :=
    fun rest heq => absurd (hdigits '+' (by rw [heq]; exact List.mem_cons_self ..)) (by decide)
  unfold parseU64
  rw [String.toList_ofList]
  split
  next rest heq => exact absurd heq (hplain rest)
  · dsimp only
    rw [digits_value, Nat.ofDigitChars_ten_toDigits]
    simp [Nat.toDigits_ne_nil]
    exact ⟨hdigits, h⟩

/-- What was written for a process reads back exactly when a process can have that number. -/
theorem parsePid_pidText (pid : Nat) (h : pid < 2 ^ 32) :
    parsePid (pidText pid) = if validPid pid then some pid else none := by
  have htext : pidText pid = .ofList (Nat.toDigits 10 pid ++ ['\n']) := by
    unfold pidText
    rw [Nat.toString_eq_ofList_toDigits, String.ofList_append]
  unfold parsePid
  rw [htext, trim_digits Nat.toDigits_ne_nil
    (fun char hc => Nat.isDigit_of_mem_toDigits (by decide) (by decide) hc), parseU64_digits (by omega)]
  rw [Option.filter_some, if_pos (decide_eq_true h), Option.filter_some]

end Kaiion.Service
