import Mathlib.Data.List.Basic

/-!
# Texts with a separator between them

When two texts are put together with a character between them, the result does not tell where the
first one ends if that character is in one of them: a piece of the second may as well belong to the
first.

Results:
1. `append_cons_eq_append_cons`, `joined_eq_iff`: which pairs of texts give the same text.
2. `not_shifted`: no two pairs do whose second texts are free of the separator.
-/

namespace SupervisedWorker.Text

variable {α : Type} {a b a' b' : List α} {c : α} {sep front back front' back' : String}

theorem append_cons_eq_append_cons : a ++ c :: b = a' ++ c :: b' ↔
    (a = a' ∧ b = b') ∨ (∃ mid, a' = a ++ c :: mid ∧ b = mid ++ c :: b') ∨
      ∃ mid, a = a' ++ c :: mid ∧ b' = mid ++ c :: b := by
  rw [List.append_eq_append_iff]
  constructor
  · rintro (⟨_ | ⟨x, mid⟩, ha, hb⟩ | ⟨_ | ⟨x, mid⟩, ha, hb⟩)
    · exact .inl ⟨by simpa using ha.symm, (List.cons.inj hb).2⟩
    · obtain ⟨rfl, hrest⟩ := List.cons.inj hb
      exact .inr (.inl ⟨mid, ha, hrest⟩)
    · exact .inl ⟨by simpa using ha, (List.cons.inj hb).2.symm⟩
    · obtain ⟨rfl, hrest⟩ := List.cons.inj hb
      exact .inr (.inr ⟨mid, ha, hrest⟩)
  · rintro (⟨rfl, rfl⟩ | ⟨mid, rfl, rfl⟩ | ⟨mid, rfl, rfl⟩)
    · exact .inl ⟨[], by simp⟩
    · exact .inl ⟨c :: mid, rfl, rfl⟩
    · exact .inr ⟨c :: mid, rfl, rfl⟩

/-- Two texts and two others, where a piece behind a separator is moved from the second text to the
first. -/
def Shifted (sep front back front' back' : String) : Prop :=
  ∃ mid, front' = front ++ sep ++ mid ∧ back = mid ++ sep ++ back'

theorem shifted_iff {c : Char} (hsep : sep.toList = [c]) :
    Shifted sep front back front' back' ↔ ∃ mid, front'.toList = front.toList ++ c :: mid ∧
      back.toList = mid ++ c :: back'.toList := by
  constructor
  · rintro ⟨mid, rfl, rfl⟩
    exact ⟨mid.toList, by simp [hsep], by simp [hsep]⟩
  · rintro ⟨mid, hfront, hback⟩
    refine ⟨String.ofList mid, ?_, ?_⟩
    · simp [← String.toList_inj, hfront, hsep]
    · simp [← String.toList_inj, hback, hsep]

/-- Two texts around a separator are the same text as two others if and only if they are those, or
one of the pairs is the other with a piece moved. -/
theorem joined_eq_iff {c : Char} (hsep : sep.toList = [c]) :
    front ++ sep ++ back = front' ++ sep ++ back' ↔ (front = front' ∧ back = back') ∨
      Shifted sep front back front' back' ∨ Shifted sep front' back' front back := by
  have hlist : ∀ front back : String,
      (front ++ sep ++ back).toList = front.toList ++ c :: back.toList := by
    simp [hsep]
  rw [shifted_iff hsep, shifted_iff hsep, ← String.toList_inj, hlist, hlist,
    append_cons_eq_append_cons, String.toList_inj, String.toList_inj]

/-- No piece can be moved out of a text that is free of the separator. -/
theorem not_shifted {c : Char} (hsep : sep.toList = [c]) (hback : c ∉ back.toList) :
    ¬Shifted sep front back front' back' := by
  rw [shifted_iff hsep]
  rintro ⟨mid, -, h⟩
  exact hback (h ▸ by simp)

end SupervisedWorker.Text
