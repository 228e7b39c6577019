/-!
# Values by key

A list of keys and values is looked up from its start. Where no key comes twice, the values that are
found are those of the list.
-/

namespace SupervisedWorker

variable {α β : Type} [BEq α] [LawfulBEq α] {entries : List (α × β)} {key : α} {value : β}

theorem lookup_cons_ite [DecidableEq α] (k : α) (v : β) (entries : List (α × β)) (key : α) :
    ((k, v) :: entries).lookup key = if key = k then some v else entries.lookup key := by
  rw [List.lookup_cons]
  by_cases h : key = k
  · rw [if_pos h, beq_iff_eq.mpr h]
  · rw [if_neg h, beq_eq_false_iff_ne.mpr h]

theorem lookup_map {γ : Type} [DecidableEq α] (f : β → γ) (entries : List (α × β)) (key : α) :
    (entries.map fun e => (e.1, f e.2)).lookup key = (entries.lookup key).map f := by
  induction entries with
  | nil => rfl
  | cons e entries ih =>
    rw [List.map_cons, lookup_cons_ite, ih, lookup_cons_ite]
    split <;> rfl

theorem mem_of_lookup (h : entries.lookup key = some value) : (key, value) ∈ entries := by
  obtain ⟨before, after, rfl, -⟩ := List.lookup_eq_some_iff.mp h
  simp

theorem lookup_of_notMem (h : key ∉ entries.map Prod.fst) : entries.lookup key = none := by
  rw [List.lookup_eq_none_iff]
  intro e he
  have hne : key ≠ e.1 := fun heq => h (heq ▸ List.mem_map_of_mem he)
  simpa using hne

theorem lookup_of_mem (hdistinct : (entries.map Prod.fst).Nodup) (h : (key, value) ∈ entries) :
    entries.lookup key = some value := by
  classical
  induction entries with
  | nil => cases h
  | cons e entries ih =>
    obtain ⟨k, v⟩ := e
    rw [List.map_cons, List.nodup_cons] at hdistinct
    rw [lookup_cons_ite]
    rcases List.mem_cons.mp h with heq | hmem
    · obtain ⟨rfl, rfl⟩ := Prod.mk.inj heq
      rw [if_pos rfl]
    · have hin : key ∈ entries.map Prod.fst := List.mem_map.mpr ⟨_, hmem, rfl⟩
      rw [if_neg fun heq : key = k => hdistinct.1 (heq ▸ hin)]
      exact ih hdistinct.2 hmem

theorem lookup_iff (hdistinct : (entries.map Prod.fst).Nodup) :
    entries.lookup key = some value ↔ (key, value) ∈ entries :=
  ⟨mem_of_lookup, lookup_of_mem hdistinct⟩

end SupervisedWorker
