import Mathlib.Data.List.Basic
import SupervisedWorker.Number.Numeral
import SupervisedWorker.Proofs.Text.Lowercase

/-!
# Whole numbers read back

A whole number is written in decimal digits, with a sign if it is negative. The digits are those
that the reader makes the same number of, there is no zero in front of them, and no letter is among
them.

Results:
1. `natural_toDigits`, `unsigned_toDigits`, `head_toDigits`: natural numbers and their digits.
2. `whole_toString`, `lower_toString`: whole numbers with a sign.
-/

namespace SupervisedWorker

namespace Numeral

theorem ofDigits_toDigits (n : Nat) : ofDigits 10 (Nat.toDigits 10 n) = n := by
  have hdigits : ofDigits 10 (Nat.toDigits 10 n) = Nat.ofDigitChars 10 (Nat.toDigits 10 n) 0 := by
    simp only [ofDigits, Nat.ofDigitChars, Nat.mul_comm]
  rw [hdigits, Nat.ofDigitChars_ten_toDigits]

theorem isDigit_toDigits {n : Nat} {c : Char} (hc : c ∈ Nat.toDigits 10 n) : c.isDigit = true :=
  Nat.isDigit_of_mem_toDigits (by decide) (by decide) hc

theorem all_isDigit_toDigits (n : Nat) : ∀ c ∈ Nat.toDigits 10 n, c.isDigit = true :=
  fun _ hc => isDigit_toDigits hc

theorem natural_toDigits (n : Nat) : natural (Nat.toDigits 10 n) = some n := by
  have hdigit : (Nat.toDigits 10 n).all Char.isDigit = true :=
    List.all_eq_true.mpr (all_isDigit_toDigits n)
  rw [natural, hdigit, ofDigits_toDigits]
  simp [Nat.toDigits_ne_nil]

theorem unsigned_toDigits (n : Nat) : unsigned (Nat.toDigits 10 n) = some n := by
  unfold unsigned
  split
  · rename_i heq
    have hplus : '+' ∈ Nat.toDigits 10 n := heq ▸ List.mem_cons_self
    exact absurd (isDigit_toDigits hplus) (by decide)
  · exact natural_toDigits n

/-- The digits of a number other than zero begin with no zero. -/
theorem head_toDigits {n : Nat} (hn : n ≠ 0) : ∀ c ∈ (Nat.toDigits 10 n).head?, c ≠ '0' := by
  induction n using Nat.strongRecOn with
  | ind n ih =>
    rcases Nat.lt_or_ge n 10 with hlt | hge
    · rw [Nat.toDigits_of_lt_base hlt]
      have hall : ∀ m : Fin 10, m.val ≠ 0 → m.val.digitChar ≠ '0' := by decide
      rintro _ ⟨⟩
      exact hall ⟨n, hlt⟩ hn
    · rw [Nat.toDigits_of_base_le (by decide) hge,
        List.head?_append_of_ne_nil _ Nat.toDigits_ne_nil]
      exact ih (n / 10) (by omega) (by omega)

theorem splitSign_of_digit {s : List Char} (h : ∀ c ∈ s, c.isDigit = true) :
    splitSign s = (false, s) := by
  unfold splitSign
  split
  · exact absurd (h '-' List.mem_cons_self) (by decide)
  · exact absurd (h '+' List.mem_cons_self) (by decide)
  · rfl

theorem toList_toString (n : Int) : (toString n).toList =
    if 0 ≤ n then Nat.toDigits 10 n.toNat else '-' :: Nat.toDigits 10 (-n).toNat := by
  rw [Int.toString_eq_repr, Int.repr_eq_if]
  split
  · exact Nat.toList_repr
  · rw [String.toList_append, Nat.toList_repr]
    rfl

/-- A whole number is read back from its text. -/
theorem whole_toString (n : Int) : whole (toString n).toList = some n := by
  rw [toList_toString]
  split
  · rename_i h
    rw [whole, splitSign_of_digit (all_isDigit_toDigits _)]
    simp [natural_toDigits, h]
  · rename_i h
    rw [whole, splitSign]
    simp only [natural_toDigits, Option.pure_def, Option.bind_eq_bind, Option.bind_some,
      Option.map_some, if_true, Option.some.injEq]
    omega

/-- A whole number is written with digits and perhaps a sign. -/
theorem isDigit_or_of_mem_toString {n : Int} : ∀ c ∈ (toString n).toList,
    c.isDigit = true ∨ c = '-' := by
  rw [toList_toString]
  split
  · exact fun c hc => .inl (isDigit_toDigits hc)
  · exact List.forall_mem_cons.mpr ⟨.inr rfl, fun c hc => .inl (isDigit_toDigits hc)⟩

theorem toLower_of_isDigit {c : Char} (h : c.isDigit = true ∨ c = '-') :
    c.toNat < 128 ∧ c.toLower = c := by
  rcases h with h | rfl
  · simp [Char.isDigit, UInt32.le_iff_toNat_le] at h
    refine ⟨by omega, Char.toLower_eq_of_not_isUpper ?_⟩
    simp [Char.isUpper, UInt32.le_iff_toNat_le]
    omega
  · decide

theorem lower_toString (n : Int) : Text.lower (toString n) = toString n := by
  have hlower := Text.lower_ascii fun c hc =>
    (toLower_of_isDigit (isDigit_or_of_mem_toString (n := n) c hc)).1
  rw [String.ofList_toList] at hlower
  rw [hlower, List.map_congr_left fun c hc =>
    (toLower_of_isDigit (isDigit_or_of_mem_toString c hc)).2, List.map_id', String.ofList_toList]

end Numeral

end SupervisedWorker
