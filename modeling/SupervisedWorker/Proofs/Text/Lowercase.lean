import Mathlib
import SupervisedWorker.Text.Lowercase

/-!
# Lower-casing ASCII

Of the capitals only the first run is ASCII, and neither of the two that have a rule of their own
is. So an ASCII text is lower-cased character by character, as `Char.toLower` does it.
-/

namespace SupervisedWorker.Text

theorem first_of_mem_tail : ∀ r ∈ capitalRuns.tail, 128 ≤ r.first := by decide +kernel

theorem lowerChar_ascii {c : Char} (hc : c.toNat < 128) : lowerChar c = c.toLower := by
  have hruns : capitalRuns = ⟨0x41, 0x5A, 1, 32⟩ :: capitalRuns.tail := rfl
  have hothers : capitalRuns.tail.find? (fun r =>
      r.first ≤ c.toNat && c.toNat ≤ r.last && (c.toNat - r.first) % r.step == 0) = none := by
    rw [List.find?_eq_none]
    intro r hr
    have hfirst := first_of_mem_tail r hr
    have habove : ¬r.first ≤ c.toNat := by omega
    simp [habove]
  have hcapital : (decide (0x41 ≤ c.toNat) && decide (c.toNat ≤ 0x5A)) = c.isUpper := by
    simp [Char.isUpper, UInt32.le_iff_toNat_le]
  rw [lowerChar, hruns]
  simp only [List.find?_cons, hothers, Nat.mod_one, beq_self_eq_true, Bool.and_true, hcapital]
  cases hupper : c.isUpper with
  | true =>
    rw [Char.toLower_eq_of_isUpper hupper]
    rfl
  | false => rw [Char.toLower_eq_of_not_isUpper (by simp [hupper])]

theorem lowerFrom_ascii {s : List Char} (hs : ∀ c ∈ s, c.toNat < 128) (before : List Char) :
    lowerFrom before s = s.map Char.toLower := by
  induction s generalizing before with
  | nil => rfl
  | cons c s ih =>
    have hc := hs c List.mem_cons_self
    have hsigma : (c == 'Σ') = false := by
      rw [beq_eq_false_iff_ne]
      rintro rfl
      exact absurd hc (by decide)
    have hdotted : (c == 'İ') = false := by
      rw [beq_eq_false_iff_ne]
      rintro rfl
      exact absurd hc (by decide)
    rw [lowerFrom, hsigma, hdotted, lowerChar_ascii hc,
      ih fun c hc => hs c (List.mem_cons_of_mem _ hc)]
    rfl

theorem lower_ascii {s : List Char} (hs : ∀ c ∈ s, c.toNat < 128) :
    lower (String.ofList s) = String.ofList (s.map Char.toLower) := by
  rw [lower, String.toList_ofList, lowerFrom_ascii hs]

end SupervisedWorker.Text
