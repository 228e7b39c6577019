import Mathlib.Data.List.Induction
import SupervisedWorker.Proofs.Lookup
import SupervisedWorker.Settings.Tree

/-!
# What stands in a tree after values were set

The settings are entries of tables that stand at the top of the tree. A value that is set replaces
the entry at the end of its path, a table that is set is merged into the one that is there, and
every other entry stays what it was. Values that are set one after the other leave the last one that
was given to an entry.

Results:
1. `child?_alterKey`, `child?_put`: the entries of a table after one of them was changed, and after
   a table was merged into it.
2. `Apart.grandchild?_set`, `child?_set_of_ne`: what a value leaves alone that is set elsewhere.
3. `Orderly.grandchild?_set`, `grandchild?_setAll`: an entry after one value was set, and after
   many.
-/

namespace SupervisedWorker

namespace Settings

namespace Tree

/-! ## 1. Entries of one table -/

def IsTable : Tree → Prop
  | .table _ _ => True
  | _ => False

variable {table name : String} {t old new : Tree} {entries : List (String × Tree)}

theorem lookup_alterEntries (key : String) (change : Tree → Tree) (entries : List (String × Tree))
    (name : String) : (alterEntries key change entries).lookup name =
      if name = key then some (change ((entries.lookup key).getD .unset))
      else entries.lookup name := by
  induction entries with
  | nil => exact lookup_cons_ite key (change .unset) [] name
  | cons e rest ih =>
    obtain ⟨k, t⟩ := e
    rw [alterEntries]
    split
    · rename_i hk
      subst hk
      rw [lookup_cons_ite, lookup_cons_ite, lookup_cons_ite, if_pos rfl]
      by_cases h : name = k
      · rw [if_pos h, if_pos h]
        rfl
      · rw [if_neg h, if_neg h, if_neg h]
    · rename_i hk
      rw [lookup_cons_ite, ih, lookup_cons_ite, lookup_cons_ite, if_neg (Ne.symm hk)]
      by_cases h : name = k
      · rw [if_pos h, if_pos h, if_neg fun heq => hk (h.symm.trans heq)]
      · rw [if_neg h, if_neg h]

theorem child?_alterKey (key : String) (change : Tree → Tree) (t : Tree) (name : String) :
    (t.alterKey key change).child? name =
      if name = key then some (change ((t.child? key).getD .unset)) else t.child? name := by
  cases t with
  | table origin entries => exact lookup_alterEntries key change entries name
  | unset | scalar _ _ | list _ _ => exact lookup_alterEntries key change [] name

theorem child?_orEmptyTable (t : Tree) (name : String) :
    t.orEmptyTable.child? name = t.child? name := by
  cases t <;> rfl

theorem isTable_alterKey (key : String) (change : Tree → Tree) (t : Tree) :
    (t.alterKey key change).IsTable := by
  cases t <;> trivial

theorem put_of_not_isTable (h : ¬new.IsTable) (old : Tree) : put new old = new := by
  cases new with
  | table origin entries => exact absurd trivial h
  | unset | scalar _ _ | list _ _ => rfl

theorem isTable_putAll (entries : List (String × Tree)) (h : t.IsTable) :
    (putAll entries t).IsTable := by
  induction entries generalizing t with
  | nil => rwa [putAll]
  | cons e rest ih =>
    rw [putAll]
    exact ih (isTable_alterKey e.1 (put e.2) t)

theorem isTable_put (h : new.IsTable) (old : Tree) : (put new old).IsTable := by
  cases new with
  | table origin entries =>
    rw [put]
    exact isTable_putAll entries (by cases old <;> trivial)
  | unset | scalar _ _ | list _ _ => exact h.elim

/-- The entries of a table after others were put into it, no two of them under one name. -/
theorem child?_putAll (hentries : (entries.map Prod.fst).Nodup) (t : Tree) (name : String) :
    (putAll entries t).child? name =
      match entries.lookup name with
      | some new => some (put new ((t.child? name).getD .unset))
      | none => t.child? name := by
  induction entries generalizing t with
  | nil => rfl
  | cons e rest ih =>
    obtain ⟨key, new⟩ := e
    rw [List.map_cons, List.nodup_cons] at hentries
    rw [putAll, ih hentries.2, lookup_cons_ite, child?_alterKey]
    by_cases h : name = key
    · rw [if_pos h, if_pos h, h, lookup_of_notMem hentries.1]
    · rw [if_neg h, if_neg h]

theorem child?_put {origin : Option String} (hentries : (entries.map Prod.fst).Nodup)
    (old : Tree) (name : String) : (put (.table origin entries) old).child? name =
      match entries.lookup name with
      | some new => some (put new ((old.child? name).getD .unset))
      | none => old.child? name := by
  rw [put, child?_putAll hentries, child?_orEmptyTable]

/-! ## 2. Values that are set elsewhere -/

/-- What stands under a name in one of the tables at the top. -/
def grandchild? (table name : String) (t : Tree) : Option Tree :=
  (t.child? table).bind (child? name)

/-- There is a table of that name at the top. -/
def HasTable (table : String) (t : Tree) : Prop := ∃ child, t.child? table = some child ∧
  child.IsTable

/-- There is a table of that name at the top, or nothing. -/
def FreeFor (table : String) (t : Tree) : Prop := t.child? table = none ∨ t.HasTable table

variable {key : String} {path rest : List PathStep}

theorem child?_getD (t : Tree) (table name : String) :
    ((t.child? table).getD .unset).child? name = t.grandchild? table name := by
  rw [grandchild?]
  cases t.child? table <;> rfl

theorem child?_set (t new : Tree) (name : String) : (t.set (.key key :: rest) new).child? name =
    if name = key then some (((t.child? key).getD .unset).set rest new) else t.child? name := by
  rw [set, alter, child?_alterKey]
  rfl

theorem child?_set_of_ne (hne : table ≠ key) (t new : Tree) :
    (t.set (.key key :: rest) new).child? table = t.child? table := by
  rw [child?_set, if_neg hne]

theorem grandchild?_set (t new : Tree) (name : String) :
    (t.set (.key table :: .key key :: rest) new).grandchild? table name =
      if name = key then some (((t.grandchild? table key).getD .unset).set rest new)
      else t.grandchild? table name := by
  rw [grandchild?, child?_set, if_pos rfl, Option.bind_some, child?_set, child?_getD, child?_getD]

theorem isTable_set (t new : Tree) : (t.set (.key key :: rest) new).IsTable := by
  rw [set, alter]
  exact isTable_alterKey _ _ _

theorem hasTable_set (t new : Tree) :
    (t.set (.key table :: .key key :: rest) new).HasTable table := by
  rw [HasTable, child?_set, if_pos rfl]
  exact ⟨_, rfl, isTable_set _ new⟩

/-- A value that is no table is what its path leads to. -/
theorem grandchild?_set_self (hnew : ¬new.IsTable) (t : Tree) :
    (t.set [.key table, .key name] new).grandchild? table name = some new := by
  rw [grandchild?_set, if_pos rfl, set, alter, put_of_not_isTable hnew]

/-- The path leads to another table, or to another entry of the table. -/
inductive Apart (table name : String) : List PathStep → Prop
  | table {key : String} {rest : List PathStep} : key ≠ table → Apart table name (.key key :: rest)
  | name {key : String} {rest : List PathStep} : key ≠ name →
      Apart table name (.key table :: .key key :: rest)

theorem Apart.grandchild?_set (h : Apart table name path) (t new : Tree) :
    (t.set path new).grandchild? table name = t.grandchild? table name := by
  cases h with
  | table hne => rw [grandchild?, child?_set_of_ne hne.symm, grandchild?]
  | name hne => rw [Tree.grandchild?_set, if_neg hne.symm]

theorem Apart.hasTable (h : Apart table name path) (ht : t.HasTable table) (new : Tree) :
    (t.set path new).HasTable table := by
  cases h with
  | table hne => rwa [HasTable, child?_set_of_ne hne.symm]
  | name => exact hasTable_set t new

/-! ## 3. Many values -/

/-- A value and the path at which it is set. -/
abbrev Assignment := List PathStep × Tree

/-- Sets values one after the other. -/
def setAll (as : List Assignment) (t : Tree) : Tree := as.foldl (fun t a => t.set a.1 a.2) t

/-- What is given to an entry, by itself or with its table. -/
def giving (table name : String) : Assignment → Option Tree
  | ([.key key], .table _ entries) => if key = table then entries.lookup name else none
  | ([.key key, .key key'], new) => if key = table ∧ key' = name then some new else none
  | _ => none

/-- The value does not touch the entry, or gives something to it that is no table, and neither the
table nor the entry is replaced by something of another shape. -/
inductive Orderly (table name : String) : Assignment → Prop
  | apart {path : List PathStep} {new : Tree} : Apart table name path →
      Orderly table name (path, new)
  | whole {origin : Option String} {entries : List (String × Tree)} :
      (entries.map Prod.fst).Nodup → (∀ new, entries.lookup name = some new → ¬new.IsTable) →
      Orderly table name ([.key table], .table origin entries)
  | entry {new : Tree} : ¬new.IsTable → Orderly table name ([.key table, .key name], new)

theorem Apart.giving (h : Apart table name path) (new : Tree) :
    Tree.giving table name (path, new) = none := by
  cases h with
  | @table key rest hne =>
    unfold Tree.giving
    split
    · rename_i heq
      cases heq
      exact if_neg hne
    · rename_i heq
      cases heq
      exact if_neg fun h => hne h.1
    · rfl
  | @name key rest hne =>
    unfold Tree.giving
    split
    · rename_i heq
      cases heq
    · rename_i heq
      cases heq
      exact if_neg fun h => hne h.2
    · rfl

namespace Orderly

variable {a : Assignment} {as : List Assignment}

theorem grandchild?_set (h : Orderly table name a) (t : Tree) :
    (t.set a.1 a.2).grandchild? table name =
      (giving table name a).or (t.grandchild? table name) := by
  cases h with
  | apart hapart => rw [hapart.grandchild?_set, hapart.giving, Option.none_or]
  | @whole origin entries hentries hplain =>
    rw [giving, if_pos rfl, grandchild?, child?_set, if_pos rfl, Option.bind_some, set, alter,
      child?_put hentries, child?_getD]
    cases hfound : entries.lookup name with
    | none => rfl
    | some new => exact congrArg some (put_of_not_isTable (hplain new hfound) _)
  | entry hplain =>
    rw [giving, if_pos ⟨rfl, rfl⟩, grandchild?_set_self hplain]
    rfl

theorem freeFor (h : Orderly table name a) (ht : t.FreeFor table) :
    (t.set a.1 a.2).FreeFor table := by
  cases h with
  | apart hapart =>
    cases hapart with
    | table hne => rwa [FreeFor, HasTable, child?_set_of_ne hne.symm]
    | name hne => exact .inr (hasTable_set t _)
  | @whole origin entries =>
    have htable : (Tree.table origin entries).IsTable := trivial
    refine .inr ⟨_, ?_, isTable_put htable ((t.child? table).getD .unset)⟩
    rw [child?_set, if_pos rfl, set, alter]
  | entry => exact .inr (hasTable_set t _)

theorem freeFor_setAll (h : ∀ a ∈ as, Orderly table name a) (ht : t.FreeFor table) :
    (setAll as t).FreeFor table := by
  induction as using List.reverseRecOn with
  | nil => exact ht
  | append_singleton as a ih =>
    rw [setAll, List.foldl_append]
    exact (h a (by simp)).freeFor (ih fun a ha => h a (List.mem_append_left _ ha))

/-- After many values were set, an entry holds what was given to it last. The induction is on the
values from the last one: what it does not touch is what the others left. -/
theorem grandchild?_setAll (h : ∀ a ∈ as, Orderly table name a) (t : Tree) :
    (setAll as t).grandchild? table name =
      ((as.filterMap (giving table name)).getLast?).or (t.grandchild? table name) := by
  induction as using List.reverseRecOn with
  | nil => rfl
  | append_singleton as a ih =>
    have hlast : setAll (as ++ [a]) t = (setAll as t).set a.1 a.2 := by
      rw [setAll, List.foldl_append]
      rfl
    rw [hlast, (h a (by simp)).grandchild?_set, ih fun a ha => h a (List.mem_append_left _ ha),
      List.filterMap_append, List.getLast?_append]
    cases hgiven : giving table name a <;> simp [hgiven]

end Orderly

end Tree

end Settings

end SupervisedWorker
