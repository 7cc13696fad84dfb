import DesignRecords.Text.Numeral
import Mathlib.Data.List.TakeWhile

namespace DesignRecords.Text

variable {s r : Text} {n k m w : Nat}

theorem digitsValue_eq (s : Text) : digitsValue s = Nat.ofDigitChars 10 s 0 := rfl

theorem isDigit_of_mem_ofNat {c : Char} (h : c ∈ ofNat w n) : c.isDigit = true := by
  rcases List.mem_append.mp h with h | h
  · rw [(List.mem_replicate.mp h).2]
    rfl
  · exact Nat.isDigit_of_mem_toDigits (by decide) (by decide) h

theorem ofNat_ne_nil (w n : Nat) : ofNat w n ≠ [] := by simp [ofNat]

theorem digitsValue_ofNat (w n : Nat) : digitsValue (ofNat w n) = n := by
  rw [digitsValue_eq, ofNat, Nat.ofDigitChars_append, Nat.ofDigitChars_replicate_zero, Nat.mul_zero,
    Nat.ofDigitChars_ten_toDigits]

theorem length_ofNat (hw : 0 < w) (h : n < Nat.pow 10 w) : (ofNat w n).length = w := by
  have hd : (Nat.toDigits 10 n).length ≤ w :=
    (Nat.length_toDigits_le_iff (by decide) hw).mpr h
  simp only [ofNat, List.length_append, List.length_replicate]
  omega

/-- The digits at the start of a text are read as a number; all of them, where there are no more
than the number may have. -/
theorem number?_append (hd : ∀ c ∈ s, c.isDigit = true) (hl : k ≤ s.length)
    (hm : s.length ≤ m) (hr : s.length = m ∨ ∀ c ∈ r.head?, c.isDigit = false) :
    number? k m (s ++ r) = some (digitsValue s, r) := by
  have ht : (s ++ r).take m = s ++ r.take (m - s.length) := by
    rw [List.take_append, List.take_of_length_le hm]
  have hn : (r.take (m - s.length)).takeWhile Char.isDigit = [] := by
    rcases hr with hr | hr
    · simp [hr]
    · cases r with
      | nil => simp
      | cons c r =>
        have hc : c.isDigit = false := hr c rfl
        cases hk : m - s.length <;> simp [hc]
  have hs : ((s ++ r).take m).takeWhile Char.isDigit = s := by
    rw [ht, List.takeWhile_append_of_pos hd, hn, List.append_nil]
  rw [number?, hs]
  simp [Nat.not_lt.mpr hl]

theorem number?_ofNat (hw : 0 < w) (h : n < Nat.pow 10 w) (hl : k ≤ w) (r : Text) :
    number? k w (ofNat w n ++ r) = some (n, r) := by
  have hlen := length_ofNat hw h
  rw [number?_append (fun _ => isDigit_of_mem_ofNat) (by omega) (by omega) (Or.inl hlen),
    digitsValue_ofNat]

end DesignRecords.Text
