import Backtest.Decimal.Notation
import Backtest.Decimal.Reader
import Mathlib.Algebra.Group.Nat.Defs

namespace Backtest
namespace Decimal

theorem digitsValue_eq (start : Nat) (cs : List Char) :
    digitsValue start cs = Nat.ofDigitChars 10 cs start :=
  Nat.ofDigitChars_eq_foldl.symm

theorem toList_padded (width n : Nat) :
    (padded width n).toList =
      List.replicate (width - (Nat.toDigits 10 n).length) '0' ++ Nat.toDigits 10 n := by
  simp [padded, zeros, Nat.repr_eq_ofList_toDigits]

theorem digitsValue_padded (width n : Nat) : digitsValue 0 (padded width n).toList = n := by
  rw [digitsValue_eq, toList_padded, Nat.ofDigitChars_append, Nat.ofDigitChars_replicate_zero,
    Nat.mul_zero, Nat.ofDigitChars_ten_toDigits]

theorem isDigit_of_mem_padded {width n : Nat} {c : Char} (h : c ∈ (padded width n).toList) :
    c.isDigit = true := by
  rw [toList_padded, List.mem_append] at h
  rcases h with zero | digit
  · rw [List.eq_of_mem_replicate zero]
    rfl
  · exact Nat.isDigit_of_mem_toDigits (by decide) (by decide) digit

theorem padded_ne_nil (width n : Nat) : (padded width n).toList ≠ [] := by
  rw [toList_padded]
  exact List.append_ne_nil_of_right_ne_nil _ Nat.toDigits_ne_nil

theorem length_padded {width n : Nat} (some : 0 < width) (fits : n < 10 ^ width) :
    (padded width n).toList.length = width := by
  have := (Nat.length_toDigits_le_iff (by decide) some).mpr fits
  rw [toList_padded, List.length_append, List.length_replicate]
  omega

theorem toNat_digit {c : Char} (h : c.isDigit = true) :
    '0'.toNat ≤ c.toNat ∧ c.toNat < '0'.toNat + 10 := by
  have code : 48 ≤ c.toNat ∧ c.toNat ≤ 57 := by
    simpa [Char.isDigit, UInt32.le_iff_toNat_le] using h
  have zero : '0'.toNat = 48 := rfl
  omega

/-- The first digit counts for as much as all digits behind it can. -/
theorem digitsValue_cons (c : Char) (cs : List Char) :
    digitsValue 0 (c :: cs) = 10 ^ cs.length * (c.toNat - '0'.toNat) + digitsValue 0 cs := by
  rw [digitsValue_eq, digitsValue_eq, Nat.ofDigitChars_cons, Nat.ofDigitChars_eq_ofDigitChars_zero,
    Nat.mul_zero, Nat.zero_add]

theorem digitsValue_lt {cs : List Char} (digits : ∀ c ∈ cs, c.isDigit = true) :
    digitsValue 0 cs < 10 ^ cs.length := by
  induction cs with
  | nil => exact Nat.one_pos
  | cons c cs ih =>
    obtain ⟨digit, rest⟩ := List.forall_mem_cons.mp digits
    have first : c.toNat - '0'.toNat + 1 ≤ 10 := by
      have := toNat_digit digit
      omega
    have whole := Nat.mul_le_mul_left (10 ^ cs.length) first
    have behind := ih rest
    rw [digitsValue_cons, List.length_cons, Nat.pow_succ]
    rw [Nat.mul_add, Nat.mul_one] at whole
    omega

theorem lt_of_digitsValue_lt {cs ds : List Char} (length : cs.length = ds.length)
    (digits : ∀ c ∈ cs ++ ds, c.isDigit = true) (less : digitsValue 0 cs < digitsValue 0 ds) :
    cs < ds := by
  induction cs generalizing ds with
  | nil =>
    cases List.length_eq_zero_iff.mp length.symm
    exact absurd less (Nat.lt_irrefl _)
  | cons c cs ih =>
    cases ds with
    | nil => cases length
    | cons d ds =>
      have tails : cs.length = ds.length := Nat.succ.inj length
      have first := toNat_digit (digits c (by simp))
      have second := toNat_digit (digits d (by simp))
      have rest : ∀ x ∈ cs ++ ds, x.isDigit = true := fun x hx => digits x (by
        rcases List.mem_append.mp hx with hx | hx <;> simp [hx])
      rw [digitsValue_cons, digitsValue_cons, tails] at less
      rcases Nat.lt_trichotomy c.toNat d.toNat with before | same | after
      · exact List.Lex.rel before
      · cases Char.toNat_inj.mp same
        exact List.Lex.cons (ih tails rest (by omega))
      · -- a greater first digit outweighs whatever is behind the other one
        have behind := digitsValue_lt fun x hx => rest x (List.mem_append_right cs hx)
        have outweighs := Nat.mul_le_mul_left (10 ^ ds.length)
          (by omega : d.toNat - '0'.toNat + 1 ≤ c.toNat - '0'.toNat)
        rw [Nat.mul_add, Nat.mul_one] at outweighs
        omega

theorem toList_padded_lt {width n m : Nat} (some : 0 < width) (fits : m < 10 ^ width) (less : n < m) :
    (padded width n).toList < (padded width m).toList := by
  refine lt_of_digitsValue_lt ?_ ?_ ?_
  · rw [length_padded some (Nat.lt_trans less fits), length_padded some fits]
  · intro c hc
    exact (List.mem_append.mp hc).elim isDigit_of_mem_padded isDigit_of_mem_padded
  · rwa [digitsValue_padded, digitsValue_padded]

end Decimal
end Backtest
