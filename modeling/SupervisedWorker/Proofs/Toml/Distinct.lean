import SupervisedWorker.Toml.Document

/-!
# No key twice

A table of a document has every key once, at any depth: whatever gives a key a value, opens a table
or passes through one changes the entry that is there or appends one under a new key.

Results:
1. `Preserves.under`, `Preserves.assign`, `Preserves.openTable`, `Preserves.openElement`: what
   headers and keys do to tables under construction.
2. `Draft.Distinct.finish`: a complete document.
3. `distinct_readValue`, `distinct_readLine`, `distinct_read`: values, lines and documents that are
   read.
-/

namespace SupervisedWorker

namespace Toml

/-- In a value no table has a key twice. -/
inductive Value.Distinct : Value → Prop
  | text (s : String) : Distinct (.text s)
  | integer (n : Int) : Distinct (.integer n)
  | decimal (x : Binary64) : Distinct (.decimal x)
  | boolean (b : Bool) : Distinct (.boolean b)
  | moment (s : String) : Distinct (.moment s)
  | list {items : List Value} : (∀ v ∈ items, Distinct v) → Distinct (.list items)
  | table {entries : List (String × Value)} : (entries.map Prod.fst).Nodup →
      (∀ e ∈ entries, Distinct e.2) → Distinct (.table entries)

theorem Value.distinct_table_iff {entries : List (String × Value)} :
    (Value.table entries).Distinct ↔
      (entries.map Prod.fst).Nodup ∧ ∀ e ∈ entries, e.2.Distinct :=
  ⟨fun | .table hnodup hdistinct => ⟨hnodup, hdistinct⟩, fun h => .table h.1 h.2⟩

namespace Draft

/-- In a part under construction no table has a key twice. -/
inductive Distinct : Draft → Prop
  | done {v : Value} : v.Distinct → Distinct (.done v)
  | table {standing : Standing} {entries : Entries} : (entries.map Prod.fst).Nodup →
      (∀ e ∈ entries, Distinct e.2) → Distinct (.table standing entries)
  | tables {elements : List Entries} : (∀ e ∈ elements, (e.map Prod.fst).Nodup) →
      (∀ e ∈ elements, ∀ x ∈ e, Distinct x.2) → Distinct (.tables elements)

/-- No key comes twice, nor does one in an entry. -/
structure Tidy (entries : Entries) : Prop where
  nodup : (entries.map Prod.fst).Nodup
  distinct : ∀ e ∈ entries, Distinct e.2

theorem tidy_nil : Tidy [] := ⟨List.nodup_nil, nofun⟩

theorem distinct_table_iff {standing : Standing} {entries : Entries} :
    Distinct (.table standing entries) ↔ Tidy entries :=
  ⟨fun | .table hnodup hdistinct => ⟨hnodup, hdistinct⟩, fun h => .table h.1 h.2⟩

theorem distinct_tables_iff {elements : List Entries} :
    Distinct (.tables elements) ↔ ∀ e ∈ elements, Tidy e :=
  ⟨fun | .tables hnodup hdistinct => fun e he => ⟨hnodup e he, hdistinct e he⟩,
    fun h => .tables (fun e he => (h e he).1) fun e he => (h e he).2⟩

/-! ## 1. Changes -/

/-- A change of a table that keeps keys from coming twice. -/
def Preserves (change : Entries → Option Entries) : Prop :=
  ∀ entries entries', Tidy entries → change entries = some entries' → Tidy entries'

variable {key : String} {change : Option Draft → Option Draft} {entries entries' : Entries}

/-- A change of one entry leaves the keys or appends one that is new. -/
theorem keys_alter (h : alter key change entries = some entries') :
    entries'.map Prod.fst = entries.map Prod.fst ∨
      (key ∉ entries.map Prod.fst ∧ entries'.map Prod.fst = entries.map Prod.fst ++ [key]) := by
  induction entries generalizing entries' with
  | nil =>
    obtain ⟨d, -, rfl⟩ := Option.map_eq_some_iff.mp h
    exact .inr ⟨List.not_mem_nil, rfl⟩
  | cons e rest ih =>
    obtain ⟨k, d⟩ := e
    rw [alter] at h
    split at h
    · obtain ⟨d', -, rfl⟩ := Option.map_eq_some_iff.mp h
      exact .inl rfl
    · rename_i hk
      obtain ⟨rest', hrest, rfl⟩ := Option.map_eq_some_iff.mp h
      rcases ih hrest with hkeys | ⟨hnew, hkeys⟩
      · exact .inl (congrArg (k :: ·) hkeys)
      · refine .inr ⟨?_, congrArg (k :: ·) hkeys⟩
        rw [List.map_cons, List.mem_cons, not_or]
        exact ⟨Ne.symm hk, hnew⟩

/-- An entry after a change was there before, or is what the change makes of the one that was. -/
theorem mem_alter (h : alter key change entries = some entries') {e : String × Draft}
    (he : e ∈ entries') : e ∈ entries ∨
      ∃ old, (∀ d ∈ old, ∃ k, (k, d) ∈ entries) ∧ change old = some e.2 := by
  induction entries generalizing entries' with
  | nil =>
    obtain ⟨d, hd, rfl⟩ := Option.map_eq_some_iff.mp h
    obtain rfl := List.mem_singleton.mp he
    exact .inr ⟨none, nofun, hd⟩
  | cons x rest ih =>
    obtain ⟨k, d⟩ := x
    rw [alter] at h
    split at h
    · obtain ⟨d', hd', rfl⟩ := Option.map_eq_some_iff.mp h
      rcases List.mem_cons.mp he with rfl | hrest
      · refine .inr ⟨some d, ?_, hd'⟩
        rintro _ ⟨⟩
        exact ⟨k, List.mem_cons_self⟩
      · exact .inl (List.mem_cons_of_mem _ hrest)
    · obtain ⟨rest', hrest, rfl⟩ := Option.map_eq_some_iff.mp h
      rcases List.mem_cons.mp he with rfl | hmem
      · exact .inl List.mem_cons_self
      · rcases ih hrest hmem with hold | ⟨old, hold, hchange⟩
        · exact .inl (List.mem_cons_of_mem _ hold)
        · refine .inr ⟨old, fun d hd => ?_, hchange⟩
          exact (hold d hd).imp fun k hk => List.mem_cons_of_mem _ hk

namespace Preserves

theorem alter (h : ∀ old new, (∀ d ∈ old, Distinct d) → change old = some new → new.Distinct) :
    Preserves (Draft.alter key change) := by
  intro entries entries' hentries haltered
  constructor
  · rcases keys_alter haltered with hkeys | ⟨hnew, hkeys⟩
    · rw [hkeys]
      exact hentries.nodup
    · rw [hkeys, List.nodup_append]
      refine ⟨hentries.nodup, by simp, ?_⟩
      rintro k hk _ hkey rfl
      exact hnew (List.mem_singleton.mp hkey ▸ hk)
  · intro e he
    rcases mem_alter haltered he with hold | ⟨old, hold, hchange⟩
    · exact hentries.distinct e hold
    · refine h old e.2 (fun d hd => ?_) hchange
      obtain ⟨k, hk⟩ := hold d hd
      exact hentries.distinct (k, d) hk

theorem alterLast {change : Entries → Option Entries} (h : Preserves change)
    {elements elements' : List Entries} (helements : ∀ e ∈ elements, Tidy e)
    (haltered : Draft.alterLast change elements = some elements') : ∀ e ∈ elements', Tidy e := by
  induction elements generalizing elements' with
  | nil => cases haltered
  | cons e rest ih =>
    rw [List.forall_mem_cons] at helements
    cases rest with
    | nil =>
      obtain ⟨e', he', rfl⟩ := Option.map_eq_some_iff.mp haltered
      exact List.forall_mem_singleton.mpr (h e e' helements.1 he')
    | cons =>
      obtain ⟨rest', hrest, rfl⟩ := Option.map_eq_some_iff.mp haltered
      exact List.forall_mem_cons.mpr ⟨helements.1, ih helements.2 hrest⟩

theorem under {change : Entries → Option Entries} (h : Preserves change) (path : List String) :
    Preserves (Draft.under change path) := by
  induction path with
  | nil => exact h
  | cons key path ih =>
    refine alter fun old new hold hnew => ?_
    match old with
    | none =>
      obtain ⟨entries, hentries, rfl⟩ := Option.map_eq_some_iff.mp hnew
      exact distinct_table_iff.mpr (ih [] entries tidy_nil hentries)
    | some (.table standing entries) =>
      obtain ⟨entries', hentries, rfl⟩ := Option.map_eq_some_iff.mp hnew
      exact distinct_table_iff.mpr
        (ih entries entries' (distinct_table_iff.mp (hold _ rfl)) hentries)
    | some (.tables elements) =>
      obtain ⟨elements', helements, rfl⟩ := Option.map_eq_some_iff.mp hnew
      exact distinct_tables_iff.mpr
        (ih.alterLast (distinct_tables_iff.mp (hold _ rfl)) helements)

theorem openTable (key : String) : Preserves (Draft.openTable key) := by
  refine alter fun old new hold hnew => ?_
  match old with
  | none => exact Option.some.inj hnew ▸ distinct_table_iff.mpr tidy_nil
  | some (.table .passed entries) =>
    have hentries := distinct_table_iff.mp (hold _ rfl)
    exact Option.some.inj hnew ▸ distinct_table_iff.mpr hentries

theorem openElement (key : String) : Preserves (Draft.openElement key) := by
  refine alter fun old new hold hnew => ?_
  match old with
  | none =>
    exact Option.some.inj hnew ▸ distinct_tables_iff.mpr (List.forall_mem_singleton.mpr tidy_nil)
  | some (.tables elements) =>
    have helements := distinct_tables_iff.mp (hold _ rfl)
    refine Option.some.inj hnew ▸ distinct_tables_iff.mpr ?_
    exact List.forall_mem_append.mpr ⟨helements, List.forall_mem_singleton.mpr tidy_nil⟩

theorem assign {v : Value} (hv : v.Distinct) (path : List String) :
    Preserves (Draft.assign v path) := by
  induction path with
  | nil => exact nofun
  | cons key path ih =>
    cases path with
    | nil =>
      refine alter fun old new hold hnew => ?_
      match old with
      | none => exact Option.some.inj hnew ▸ .done hv
    | cons next path =>
      refine alter fun old new hold hnew => ?_
      match old with
      | none =>
        obtain ⟨entries, hentries, rfl⟩ := Option.map_eq_some_iff.mp hnew
        exact distinct_table_iff.mpr (ih [] entries tidy_nil hentries)
      | some (.table .dotted entries) =>
        obtain ⟨entries', hentries, rfl⟩ := Option.map_eq_some_iff.mp hnew
        exact distinct_table_iff.mpr
          (ih entries entries' (distinct_table_iff.mp (hold _ rfl)) hentries)
      | some (.table .passed entries) =>
        dsimp only at hnew
        split at hnew
        · cases hnew
        · obtain ⟨entries', hentries, rfl⟩ := Option.map_eq_some_iff.mp hnew
          exact distinct_table_iff.mpr
            (ih entries entries' (distinct_table_iff.mp (hold _ rfl)) hentries)

end Preserves

/-! ## 2. Complete documents -/

theorem finishElements_eq (elements : List Entries) :
    finishElements elements = elements.map fun e => .table (finishEntries e) := by
  induction elements with
  | nil => rfl
  | cons e rest ih => rw [finishElements, ih, List.map_cons]

theorem finishEntries_eq (entries : Entries) :
    finishEntries entries = entries.map fun e => (e.1, finish e.2) := by
  induction entries with
  | nil => rfl
  | cons e rest ih => rw [finishEntries, ih, List.map_cons]

theorem Distinct.finish {d : Draft} (h : d.Distinct) : (Draft.finish d).Distinct := by
  induction h with
  | done hv => exact hv
  | table hnodup _ ih =>
    rw [Draft.finish, finishEntries_eq]
    refine .table ?_ ?_
    · rw [List.map_map]
      exact hnodup
    · exact List.forall_mem_map.mpr ih
  | tables hnodup _ ih =>
    rw [Draft.finish, finishElements_eq]
    refine .list (List.forall_mem_map.mpr fun e he => ?_)
    rw [finishEntries_eq]
    refine .table ?_ ?_
    · rw [List.map_map]
      exact hnodup e he
    · exact List.forall_mem_map.mpr (ih e he)

theorem Tidy.finish {entries : Entries} (h : Tidy entries) :
    (Value.table (finishEntries entries)).Distinct := by
  have htable : (Draft.table .opened entries).Distinct := distinct_table_iff.mpr h
  exact htable.finish

end Draft

/-! ## 3. Reading -/

theorem distinct_scalar {word : List Char} {v : Value} (h : scalar word = some v) : v.Distinct := by
  unfold scalar at h
  split at h
  · exact Option.some.inj h ▸ .boolean true
  split at h
  · exact Option.some.inj h ▸ .boolean false
  split at h
  · exact Option.some.inj h ▸ .moment _
  split at h
  · exact Option.some.inj h ▸ .integer _
  · obtain ⟨x, -, rfl⟩ := Option.map_eq_some_iff.mp h
    exact .decimal x

theorem distinct_readScalar {s rest : List Char} {v : Value}
    (h : readScalar s = some (v, rest)) : v.Distinct := by
  have hscalar : ∃ word, scalar word = some v := by
    unfold readScalar at h
    dsimp only at h
    split at h
    · split at h <;>
      · obtain ⟨w, hw, heq⟩ := Option.map_eq_some_iff.mp h
        cases heq
        exact ⟨_, hw⟩
    · obtain ⟨w, hw, heq⟩ := Option.map_eq_some_iff.mp h
      cases heq
      exact ⟨_, hw⟩
  obtain ⟨word, hword⟩ := hscalar
  exact distinct_scalar hword

theorem distinct_of_text {read : Option (List Char × List Char)} {v : Value} {rest : List Char}
    (h : (read.map fun (t, rest) => (Value.text (String.ofList t), rest)) = some (v, rest)) :
    v.Distinct := by
  obtain ⟨_, -, heq⟩ := Option.map_eq_some_iff.mp h
  cases heq
  exact .text _

/-- What is read is a value in which no table has a key twice. -/
def ReadsDistinct (read : List Char → Option (Value × List Char)) : Prop :=
  ∀ s v rest, read s = some (v, rest) → v.Distinct

/-- Items that are read are none, or one and then those that are read behind a comma. -/
theorem readItems_cases {read : List Char → Option (Value × List Char)} {s rest : List Char}
    {vs : List Value} (h : readItems read s = some (vs, rest)) :
    vs = [] ∨ ∃ v behind vs', read (dropFill s) = some (v, behind) ∧ vs = v :: vs' ∧
      (vs' = [] ∨ ∃ more, readItems read more = some (vs', rest)) := by
  rw [readItems] at h
  split at h
  · cases h
    exact .inl rfl
  · split at h
    · cases h
    · rename_i v behind hv
      split at h
      · cases h
        exact .inr ⟨v, behind, [], hv, rfl, .inl rfl⟩
      · split at h
        · rename_i more _ _
          obtain ⟨⟨vs', rest'⟩, hmore, heq⟩ := Option.map_eq_some_iff.mp h
          cases heq
          exact .inr ⟨v, behind, vs', hv, rfl, .inr ⟨more, hmore⟩⟩
        · cases h
      · cases h

theorem distinct_readItems {read : List Char → Option (Value × List Char)} (h : ReadsDistinct read)
    {s rest : List Char} {vs : List Value} (hread : readItems read s = some (vs, rest)) :
    ∀ v ∈ vs, v.Distinct := by
  induction vs generalizing s with
  | nil => exact nofun
  | cons v vs ih =>
    rcases readItems_cases hread with hnil | ⟨_, behind, _, hv, hcons, hmore⟩
    · cases hnil
    · cases hcons
      refine List.forall_mem_cons.mpr ⟨h _ v behind hv, ?_⟩
      rcases hmore with rfl | ⟨more, hmore⟩
      · exact nofun
      · exact ih hmore

theorem tidy_readPairs {read : List Char → Option (Value × List Char)} (h : ReadsDistinct read)
    {entries entries' : Draft.Entries} {s rest : List Char} (hentries : Draft.Tidy entries)
    (hread : readPairs read entries s = some (entries', rest)) : Draft.Tidy entries' := by
  fun_induction readPairs read entries s with
  | case4 entries s key _ _ v behind hv _ hassign =>
    cases hread
    exact Draft.Preserves.assign (h _ v behind hv) key entries _ hentries hassign
  | case5 entries s key _ _ v behind hv entries₁ hassign _ _ _ ih =>
    exact ih (Draft.Preserves.assign (h _ v behind hv) key entries entries₁ hentries hassign) hread
  | case1 | case2 | case3 | case6 | case7 => cases hread

theorem distinct_readValue (room : Nat) : ReadsDistinct (readValue room) := by
  induction room with
  | zero =>
    intro s v rest h
    unfold readValue at h
    split at h
    · cases h
    · cases h
    · exact distinct_of_text h
    · exact distinct_of_text h
    · exact distinct_readScalar h
  | succ room ih =>
    intro s v rest h
    unfold readValue at h
    split at h
    · obtain ⟨⟨vs, rest'⟩, hitems, heq⟩ := Option.map_eq_some_iff.mp h
      cases heq
      exact .list (distinct_readItems ih hitems)
    · dsimp only at h
      split at h
      · cases h
        exact .table List.nodup_nil nofun
      · obtain ⟨⟨entries, rest'⟩, hpairs, heq⟩ := Option.map_eq_some_iff.mp h
        cases heq
        exact (tidy_readPairs ih Draft.tidy_nil hpairs).finish
    · exact distinct_of_text h
    · exact distinct_of_text h
    · exact distinct_readScalar h

theorem tidy_readLine {p p' : Progress} {s rest : List Char} (hp : Draft.Tidy p.entries)
    (h : readLine p s = some (p', rest)) : Draft.Tidy p'.entries := by
  unfold readLine at h
  split at h
  · simp only [Option.bind_eq_bind, Option.bind_eq_some_iff] at h
    obtain ⟨⟨path, last, _⟩, -, entries, hentries, heq⟩ := h
    cases heq
    exact (Draft.Preserves.openElement last).under path p.entries entries hp hentries
  · simp only [Option.bind_eq_bind, Option.bind_eq_some_iff] at h
    obtain ⟨⟨path, last, _⟩, -, entries, hentries, heq⟩ := h
    cases heq
    exact (Draft.Preserves.openTable last).under path p.entries entries hp hentries
  · cases h
    exact hp
  · split at h
    · cases h
      exact hp
    · simp only [Option.bind_eq_bind, Option.bind_eq_some_iff] at h
      obtain ⟨⟨key, _⟩, -, ⟨v, _⟩, hv, entries, hentries, heq⟩ := h
      cases heq
      have hdistinct := distinct_readValue nestingLimit _ v _ hv
      exact (Draft.Preserves.assign hdistinct key).under p.header p.entries entries hp hentries

theorem tidy_readLines {p p' : Progress} {s : List Char} (hp : Draft.Tidy p.entries)
    (h : readLines p s = some p') : Draft.Tidy p'.entries := by
  fun_induction readLines p s with
  | case3 p s p₁ _ hline => exact Option.some.inj h ▸ tidy_readLine hp hline
  | case4 p s p₁ _ hline _ _ _ _ ih => exact ih (tidy_readLine hp hline) h
  | case1 | case2 | case5 => cases h

/-- In a document no table has a key twice. -/
theorem distinct_read {s : List Char} {entries : List (String × Value)}
    (h : read s = some entries) : (Value.table entries).Distinct := by
  unfold read at h
  obtain ⟨p, hp, rfl⟩ := Option.map_eq_some_iff.mp h
  exact (tidy_readLines Draft.tidy_nil hp).finish

end Toml

end SupervisedWorker
