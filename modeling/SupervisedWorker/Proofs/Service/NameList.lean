import Mathlib.Data.List.DropRight
import Mathlib.Data.List.Nodup
import SupervisedWorker.Proofs.AgentProbe.Files
import SupervisedWorker.Service.NameList

/-!
# Lists of names are read as they are written

A list of names may be written down in many ways, and all of them are read alike. What stands at the
ends of the whole is dropped before the introduction is looked for, and the introduction before the
list is taken apart; so it has to be shown that none of this reaches into the names.

Results:
1. `strip_split`, `strip_around`: what is dropped at the ends of a text.
2. `mem_keepFirst`, `keepFirst_pairwise`: which elements are kept, and in what order.
3. `read_itemsText`: the pieces of a list are its names.
4. `parse_written`: a written list is read as its names, each where it comes first.
-/

namespace SupervisedWorker

/-! ## 1. The ends of a text -/

namespace Text

variable {p : Char → Bool} {s front back : List Char}

theorem strip_split (p : Char → Bool) (s : List Char) : ∃ front back,
    s = front ++ (strip p s ++ back) ∧ (∀ c ∈ front, p c = true) ∧ (∀ c ∈ back, p c = true) ∧
      ∀ c ∈ (strip p s).head?, p c = false := by
  refine ⟨s.takeWhile p, (s.dropWhile p).rtakeWhile p, ?_, ?_, ?_, ?_⟩
  · have hstrip : strip p s = (s.dropWhile p).rdropWhile p := rfl
    rw [hstrip, List.rdropWhile_append_rtakeWhile, List.takeWhile_append_dropWhile]
  · exact fun c hc => List.mem_takeWhile_imp hc
  · exact fun c hc => List.mem_rtakeWhile_imp hc
  · intro c hc
    obtain ⟨back, hback⟩ : strip p s <+: s.dropWhile p := List.rdropWhile_prefix p _
    have hnot := List.head?_dropWhile_not p s
    rw [← hback, List.head?_append, hc] at hnot
    exact hnot

theorem dropWhile_behind (hfront : ∀ c ∈ front, p c = true) (hs : ∀ c ∈ s.head?, p c = false) :
    (front ++ s).dropWhile p = s := by
  rw [List.dropWhile_append_of_pos hfront]
  cases s with
  | nil => rfl
  | cons c s => rw [List.dropWhile_cons_of_neg (by simpa using hs c rfl)]

theorem strip_around (hs : s ≠ []) (hfront : ∀ c ∈ front, p c = true)
    (hback : ∀ c ∈ back, p c = true) (hhead : ∀ c ∈ s.head?, p c = false)
    (hlast : ∀ c ∈ s.getLast?, p c = false) : strip p (front ++ s ++ back) = s := by
  have hfrontless : (front ++ s ++ back).dropWhile p = s ++ back := by
    rw [List.append_assoc]
    refine dropWhile_behind hfront ?_
    rwa [List.head?_append_of_ne_nil _ hs]
  have hbackless : (s ++ back).reverse.dropWhile p = s.reverse := by
    rw [List.reverse_append]
    refine dropWhile_behind (fun c hc => hback c (List.mem_reverse.mp hc)) ?_
    rwa [List.head?_reverse]
  rw [strip, hfrontless, hbackless, List.reverse_reverse]

/-- What is dropped in front of a text does not reach beyond a character that is not dropped. -/
theorem front_of_head {rest t : List Char} (h : s ++ t = front ++ rest)
    (hfront : ∀ c ∈ front, p c = true) (ht : ∀ c ∈ t.head?, p c = false) :
    ∃ mid, s = front ++ mid ∧ rest = mid ++ t := by
  rcases List.append_eq_append_iff.mp h with ⟨mid, rfl, ht'⟩ | ⟨mid, hs, hrest⟩
  · cases mid with
    | nil => exact ⟨[], by simpa using ht'.symm⟩
    | cons c mid =>
      have hc := ht c (by simp [ht'])
      rw [hfront c (by simp)] at hc
      cases hc
  · exact ⟨mid, hs, hrest⟩

/-- What is dropped behind a text does not reach beyond a character that is not dropped. -/
theorem back_of_last {rest t : List Char} (h : s ++ t = rest ++ back)
    (hback : ∀ c ∈ back, p c = true) (hs : ∃ c ∈ s.getLast?, p c = false) :
    ∃ mid, rest = s ++ mid ∧ t = mid ++ back := by
  rcases List.append_eq_append_iff.mp h with ⟨mid, hrest, ht⟩ | ⟨mid, hs', hback'⟩
  · exact ⟨mid, hrest, ht⟩
  · rcases List.eq_nil_or_concat' mid with rfl | ⟨mid, c, rfl⟩
    · exact ⟨[], by simpa using hs'.symm, by simpa using hback'.symm⟩
    · obtain ⟨c', hc', hp⟩ := hs
      rw [hs', ← List.append_assoc, List.getLast?_concat] at hc'
      obtain rfl := Option.some.inj hc'
      rw [hback c (by simp [hback'])] at hp
      cases hp

end Text

namespace ServiceList

/-! ## 2. What is kept of a list -/

section Keep

variable {α : Type} [DecidableEq α] {l : List α} {a : α}

theorem mem_keepFirst : a ∈ keepFirst l ↔ a ∈ l := by
  induction l with
  | nil => simp [keepFirst]
  | cons b l ih =>
    rw [keepFirst, List.mem_cons, List.mem_filter, ih, List.mem_cons]
    by_cases hab : a = b <;> simp [hab]

theorem nodup_keepFirst (l : List α) : (keepFirst l).Nodup := by
  induction l with
  | nil => exact List.nodup_nil
  | cons b l ih =>
    rw [keepFirst, List.nodup_cons]
    exact ⟨by simp, ih.filter _⟩

theorem keepFirst_of_nodup (h : l.Nodup) : keepFirst l = l := by
  induction l with
  | nil => rfl
  | cons b l ih =>
    rw [List.nodup_cons] at h
    rw [keepFirst, ih h.2, List.filter_eq_self.mpr fun c hc => ?_]
    simpa using fun hcb : c = b => h.1 (hcb ▸ hc)

/-- The elements are kept in the order in which they come first. -/
theorem keepFirst_pairwise (l : List α) :
    (keepFirst l).Pairwise fun a b => l.idxOf a < l.idxOf b := by
  induction l with
  | nil => exact List.Pairwise.nil
  | cons c l ih =>
    rw [keepFirst, List.pairwise_cons]
    constructor
    · intro b hb
      have hbc : b ≠ c := by simpa using (List.mem_filter.mp hb).2
      rw [List.idxOf_cons_self, List.idxOf_cons_ne _ hbc.symm]
      exact Nat.succ_pos _
    · refine (ih.filter _).imp_of_mem fun {a b} ha hb hab => ?_
      have hac : a ≠ c := by simpa using (List.mem_filter.mp ha).2
      have hbc : b ≠ c := by simpa using (List.mem_filter.mp hb).2
      rw [List.idxOf_cons_ne _ hac.symm, List.idxOf_cons_ne _ hbc.symm]
      exact Nat.succ_lt_succ hab

theorem map_keepFirst {β : Type} [DecidableEq β] {f : α → β} (hf : Function.Injective f)
    (l : List α) : (keepFirst l).map f = keepFirst (l.map f) := by
  induction l with
  | nil => rfl
  | cons a l ih =>
    rw [keepFirst, List.map_cons, List.map_cons, keepFirst, ← ih, List.filter_map]
    congr 2
    refine List.filter_congr fun b _ => ?_
    simp [hf.eq_iff]

end Keep

/-! ## 3. The pieces of a list -/

/-- The names in a list without its introduction, as often as they come. -/
def read (s : List Char) : List (List Char) :=
  ((Text.pieces isSeparator s).map cleanName).filter (· ≠ [])

theorem parseChars_eq (raw : List Char) :
    parseChars raw = keepFirst (read (dropIntroduction (Text.trim raw))) := rfl

variable {c : Char} {s t seps : List Char}

theorem read_nil : read [] = [] := rfl

theorem read_append (hc : isSeparator c = true) (s t : List Char) :
    read (s ++ c :: t) = read s ++ read t := by
  simp only [read, Text.pieces_eq_splitOnP]
  rw [List.splitOnP_append_cons s t hc, List.map_append, List.filter_append]

theorem read_behind (hseps : ∀ c ∈ seps, isSeparator c = true) (s : List Char) :
    read (seps ++ s) = read s := by
  induction seps with
  | nil => rfl
  | cons c seps ih =>
    have hread := read_append (hseps c List.mem_cons_self) [] (seps ++ s)
    rw [read_nil, List.nil_append, List.nil_append] at hread
    exact hread.trans (ih fun c hc => hseps c (List.mem_cons_of_mem _ hc))

theorem read_before (hseps : ∀ c ∈ seps, isSeparator c = true) (s : List Char) :
    read (s ++ seps) = read s := by
  cases seps with
  | nil => rw [List.append_nil]
  | cons c seps =>
    have hrest := read_behind (fun c hc => hseps c (List.mem_cons_of_mem _ hc)) []
    rw [List.append_nil, read_nil] at hrest
    rw [read_append (hseps c List.mem_cons_self), hrest, List.append_nil]

theorem read_piece (hs : ∀ c ∈ s, isSeparator c = false) :
    read s = [cleanName s].filter (· ≠ []) := by
  have hone : s.splitOnP isSeparator = [s] :=
    List.splitOnP_eq_singleton fun c hc => by simp [hs c hc]
  rw [read, Text.pieces_eq_splitOnP, hone, List.map_singleton]

/-- A text that can be a name in a list. -/
structure IsName (name : String) : Prop where
  nonempty : name ≠ ""
  unbroken : ∀ c ∈ name.toList, isSeparator c = false
  head : ∀ c ∈ name.toList.head?, Text.isBlank c = false ∧ c ≠ '"'
  last : ∀ c ∈ name.toList.getLast?, Text.isBlank c = false ∧ c ≠ '"'
  plain : ¬"services=".toList <+: name.toList

/-- A name as it is written. -/
structure Item where
  name : String
  /-- How many quotes stand in front of it. -/
  before : Nat
  /-- How many quotes stand behind it. -/
  behind : Nat
  /-- The spaces and commas between it and what follows. -/
  gap : List Char

def quotes (n : Nat) : List Char := List.replicate n '"'

/-- The name with its quotes. -/
def Item.core (i : Item) : List Char := quotes i.before ++ i.name.toList ++ quotes i.behind

def itemsText (items : List Item) : List Char := items.flatMap fun i => i.core ++ i.gap

/-- Whether all are names with spaces and commas between them. -/
structure AreProper (items : List Item) : Prop where
  names : ∀ i ∈ items, IsName i.name
  gaps : ∀ i ∈ items, ∀ c ∈ i.gap, isSeparator c = true
  apart : ∀ i ∈ items.dropLast, i.gap ≠ []

theorem mem_quotes {n : Nat} (hc : c ∈ quotes n) : c = '"' := List.eq_of_mem_replicate hc

theorem cleanName_core {i : Item} (hi : IsName i.name) : cleanName i.core = i.name.toList := by
  have hne : i.name.toList ≠ [] := by simpa using hi.nonempty
  have hquotes : Text.strip (· == '"') i.core = i.name.toList :=
    Text.strip_around hne (fun c hc => by simp [mem_quotes hc])
      (fun c hc => by simp [mem_quotes hc]) (fun c hc => by simpa using (hi.head c hc).2)
      (fun c hc => by simpa using (hi.last c hc).2)
  have hblanks : Text.trim i.name.toList = i.name.toList := by
    have hstrip := @Text.strip_around Text.isBlank i.name.toList [] [] hne (by simp) (by simp)
      (fun c hc => (hi.head c hc).1) fun c hc => (hi.last c hc).1
    rwa [List.append_nil, List.nil_append] at hstrip
  rw [cleanName, hquotes, hblanks]

theorem read_core {i : Item} (hi : IsName i.name) : read i.core = [i.name.toList] := by
  have hne : i.name.toList ≠ [] := by simpa using hi.nonempty
  have hunbroken : ∀ c ∈ i.core, isSeparator c = false := by
    intro c hc
    rw [Item.core, List.mem_append, List.mem_append] at hc
    rcases hc with (hc | hc) | hc
    · rw [mem_quotes hc]
      rfl
    · exact hi.unbroken c hc
    · rw [mem_quotes hc]
      rfl
  rw [read_piece hunbroken, cleanName_core hi]
  simp [hi.nonempty]

theorem AreProper.tail {i : Item} {items : List Item} (h : AreProper (i :: items)) :
    AreProper items := by
  refine ⟨fun j hj => h.names j (List.mem_cons_of_mem _ hj),
    fun j hj => h.gaps j (List.mem_cons_of_mem _ hj), fun j hj => h.apart j ?_⟩
  cases items with
  | nil => cases hj
  | cons k items => exact List.mem_cons_of_mem _ hj

/-- Without a separator behind it a name is the last one. -/
theorem AreProper.last {i : Item} {items : List Item} (h : AreProper (i :: items))
    (hgap : i.gap = []) : items = [] := by
  cases items with
  | nil => rfl
  | cons k items => exact absurd hgap (h.apart i List.mem_cons_self)

/-- The pieces of a list are its names. The induction is on the items: behind the first one there
is nothing more, or a separator. -/
theorem read_itemsText {items : List Item} (h : AreProper items) :
    read (itemsText items) = items.map (·.name.toList) := by
  induction items with
  | nil => exact read_nil
  | cons i items ih =>
    have hcore := read_core (h.names i List.mem_cons_self)
    rw [itemsText, List.flatMap_cons, ← itemsText, List.map_cons]
    rcases hgap : i.gap with _ | ⟨c, gap⟩
    · rw [h.last hgap, itemsText, List.flatMap_nil, List.append_nil, List.append_nil, hcore]
      rfl
    · have hseps : ∀ c' ∈ c :: gap, isSeparator c' = true :=
        hgap ▸ h.gaps i List.mem_cons_self
      rw [List.append_assoc, List.cons_append, read_append (hseps c List.mem_cons_self), hcore,
        read_behind fun c' hc' => hseps c' (List.mem_cons_of_mem _ hc'), ih h.tail]
      rfl

/-! ## 4. The ends of a list -/

theorem blank_quote : Text.isBlank '"' = false := by decide +kernel

theorem core_ends {i : Item} (hi : IsName i.name) :
    (∃ c, i.core.head? = some c ∧ Text.isBlank c = false) ∧
      ∃ c, i.core.getLast? = some c ∧ Text.isBlank c = false := by
  have hne : i.name.toList ≠ [] := by simpa using hi.nonempty
  constructor
  · rcases hbefore : i.before with _ | n
    · have hc := List.head?_eq_some_head hne
      refine ⟨_, ?_, (hi.head _ hc).1⟩
      simp [Item.core, hbefore, quotes, List.head?_append, hc]
    · exact ⟨'"', by simp [Item.core, hbefore, quotes, List.replicate_succ], blank_quote⟩
  · rcases hbehind : i.behind with _ | n
    · have hc := List.getLast?_eq_some_getLast hne
      refine ⟨_, ?_, (hi.last _ hc).1⟩
      simp [Item.core, hbehind, quotes, List.getLast?_append, hc]
    · exact ⟨'"', by simp [Item.core, hbehind, quotes, List.replicate_succ'], blank_quote⟩

theorem itemsText_head {items : List Item} (h : AreProper items) :
    ∀ c ∈ (itemsText items).head?, Text.isBlank c = false := by
  cases items with
  | nil => simp [itemsText]
  | cons i items =>
    obtain ⟨⟨c, hc, hblank⟩, -⟩ := core_ends (h.names i List.mem_cons_self)
    simpa [itemsText, List.head?_append, hc] using hblank

/-- The blanks behind a list are separators. -/
theorem back_separators {lead rest back : List Char} {items : List Item} (h : AreProper items)
    (hlead : ∀ c ∈ lead, isSeparator c = true) (hsplit : lead ++ itemsText items = rest ++ back)
    (hback : ∀ c ∈ back, Text.isBlank c = true) : ∀ c ∈ back, isSeparator c = true := by
  intro c hc
  rcases List.eq_nil_or_concat' items with rfl | ⟨items, i, rfl⟩
  · have hin : c ∈ lead ++ itemsText [] := hsplit ▸ List.mem_append_right rest hc
    exact hlead c (by simpa [itemsText] using hin)
  · have hi : i ∈ items ++ [i] := by simp
    obtain ⟨-, c', hc', hblank⟩ := core_ends (h.names i hi)
    have hsplit : (lead ++ itemsText items ++ i.core) ++ i.gap = rest ++ back := by
      rw [← hsplit]
      simp [itemsText]
    obtain ⟨mid, -, hgap⟩ := Text.back_of_last hsplit hback
      ⟨c', by rw [List.getLast?_append, hc']; rfl, hblank⟩
    exact h.gaps i hi c (hgap ▸ List.mem_append_right mid hc)

theorem prefix_of_append {x s t : List Char} (h : x <+: s ++ t) (ht : ∀ c ∈ t.head?, c ∉ x) :
    x <+: s := by
  rcases List.prefix_or_prefix_of_prefix h (List.prefix_append s t) with hx | ⟨_ | ⟨c, z⟩, rfl⟩
  · exact hx
  · simp
  · obtain ⟨t', rfl⟩ := (List.prefix_append_right_inj s).mp h
    exact absurd (List.mem_append_right s List.mem_cons_self) (ht c rfl)

/-- What is written for names does not begin like an introduction: no character that may follow a
name is in it. -/
theorem not_introduction {items : List Item} (h : AreProper items) :
    ¬introduction <+: itemsText items := by
  have hintroduction : introduction = ['s', 'e', 'r', 'v', 'i', 'c', 'e', 's', '='] := by
    decide
  have hnone : introduction.all (fun c => !isSeparator c) = true := by
    decide +kernel
  have hseparator : ∀ c, isSeparator c = true → c ∉ introduction := by
    intro c hc hin
    simpa [hc] using List.all_eq_true.mp hnone c hin
  cases items with
  | nil => simp [itemsText, hintroduction]
  | cons i items =>
    have hi := h.names i List.mem_cons_self
    intro hprefix
    rw [itemsText, List.flatMap_cons, ← itemsText, Item.core] at hprefix
    rcases hbefore : i.before with _ | n
    · have hplain : ¬introduction <+: i.name.toList := hi.plain
      refine hplain (prefix_of_append (t := quotes i.behind ++ i.gap ++ itemsText items) ?_ ?_)
      · rw [hbefore] at hprefix
        simpa only [quotes, List.replicate_zero, List.nil_append, List.append_assoc] using hprefix
      · intro c hc
        rcases hbehind : i.behind with _ | n
        · rcases hgap : i.gap with _ | ⟨c', gap⟩
          · rw [hbehind, hgap, h.last hgap] at hc
            cases hc
          · rw [hbehind, hgap] at hc
            obtain rfl := Option.some.inj hc
            exact hseparator c' (h.gaps i List.mem_cons_self c' (hgap ▸ List.mem_cons_self))
        · rw [hbehind] at hc
          obtain rfl := Option.some.inj hc
          decide
    · rw [hbefore, hintroduction, quotes, List.replicate_succ] at hprefix
      simp at hprefix

/-! ## 5. Whole lists -/

/-- A list as it is written. -/
structure Written where
  /-- How many spaces stand before the introduction, if there is one. -/
  introduced : Option Nat
  /-- The spaces and commas before the first name. -/
  lead : List Char
  items : List Item

namespace Written

variable {w : Written}

/-- What stands before the list. -/
def opening (w : Written) : List Char :=
  match w.introduced with
  | none => []
  | some n => List.replicate n ' ' ++ introduction

def text (w : Written) : String := String.ofList (w.opening ++ (w.lead ++ itemsText w.items))

def names (w : Written) : List String := w.items.map (·.name)

structure IsProper (w : Written) : Prop where
  lead : ∀ c ∈ w.lead, isSeparator c = true
  items : AreProper w.items

theorem read_body (h : w.IsProper) :
    read (w.lead ++ itemsText w.items) = w.items.map (·.name.toList) := by
  rw [read_behind h.lead, read_itemsText h.items]

/-- A list without an introduction: what is dropped at its ends are separators. -/
theorem read_plain (h : w.IsProper) :
    read (dropIntroduction (Text.trim (w.lead ++ itemsText w.items))) =
      w.items.map (·.name.toList) := by
  obtain ⟨front, back, hsplit, hfront, hback, -⟩ :=
    Text.strip_split Text.isBlank (w.lead ++ itemsText w.items)
  rw [← Text.trim] at hsplit
  obtain ⟨mid, hlead, hmid⟩ := Text.front_of_head hsplit hfront (itemsText_head h.items)
  have hgap : ∀ c ∈ mid, isSeparator c = true := fun c hc =>
    h.lead c (hlead ▸ List.mem_append_right front hc)
  have hback' := back_separators h.items hgap hmid.symm hback
  have hkept : ¬introduction <+: Text.trim (w.lead ++ itemsText w.items) := by
    intro hprefix
    have hprefix := hmid ▸ hprefix.trans (List.prefix_append _ back)
    cases mid with
    | nil => exact not_introduction h.items hprefix
    | cons c mid =>
      obtain ⟨rest, hrest⟩ := hprefix
      obtain ⟨rfl, -⟩ := List.cons.inj hrest
      exact absurd (hgap 's' List.mem_cons_self) (by decide)
  rw [dropIntroduction, if_neg (by simpa using hkept), ← read_before hback', hmid,
    read_behind hgap, read_itemsText h.items]

/-- A list with an introduction: the introduction is dropped, and separators behind the list. -/
theorem read_introduced (h : w.IsProper) (n : Nat) :
    read (dropIntroduction (Text.trim (List.replicate n ' ' ++ introduction ++
      (w.lead ++ itemsText w.items)))) = w.items.map (·.name.toList) := by
  obtain ⟨front, back, hsplit, hfront, hback, hhead⟩ := Text.strip_split Text.isBlank
    (List.replicate n ' ' ++ introduction ++ (w.lead ++ itemsText w.items))
  rw [← Text.trim] at hsplit hhead
  generalize Text.trim _ = trimmed at hsplit hhead ⊢
  have hfirst : ∀ c ∈ (introduction ++ (w.lead ++ itemsText w.items)).head?,
      Text.isBlank c = false := by
    rintro c ⟨⟩
    decide +kernel
  rw [List.append_assoc] at hsplit
  obtain ⟨mid, hspaces, hmid⟩ := Text.front_of_head hsplit hfront hfirst
  have hmid' : mid = [] := by
    rcases mid with _ | ⟨c, mid⟩
    · rfl
    · have hc : c ∈ List.replicate n ' ' := by simp [hspaces]
      obtain rfl := List.eq_of_mem_replicate hc
      rcases trimmed with _ | ⟨c', trimmed⟩
      · have hs : 's' ∈ introduction := by decide +kernel
        have hin : 's' ∈ [] ++ back := hmid ▸ List.mem_append_right _ (List.mem_append_left _ hs)
        exact absurd (hback 's' hin) (by decide +kernel)
      · obtain ⟨rfl, -⟩ := List.cons.inj hmid
        exact absurd (hhead ' ' rfl) (by decide +kernel)
  rw [hmid', List.nil_append] at hmid
  have hlast : ∃ c ∈ introduction.getLast?, Text.isBlank c = false :=
    ⟨'=', by decide +kernel, by decide +kernel⟩
  obtain ⟨body, rfl, hbody⟩ := Text.back_of_last hmid.symm hback hlast
  have hback' := back_separators h.items h.lead hbody hback
  have hdrop : dropIntroduction (introduction ++ body) = body := by
    rw [dropIntroduction, if_pos (by simp), List.drop_left]
  rw [hdrop, ← read_before hback', ← hbody, read_body h]

theorem parse_text (h : w.IsProper) : parse w.text = keepFirst w.names := by
  have hread : read (dropIntroduction (Text.trim (w.opening ++ (w.lead ++ itemsText w.items)))) =
      w.items.map (·.name.toList) := by
    rw [opening]
    split
    · exact read_plain h
    · exact read_introduced h _
  have hinjective : Function.Injective String.ofList := fun _ _ => String.ofList_inj.mp
  rw [parse, text, String.toList_ofList, parseChars_eq, hread, map_keepFirst hinjective,
    List.map_map, names]
  congr 2
  exact funext fun i => String.ofList_toList

/-- However a list of names is written, it is read as these names: as they are, if no name comes
twice, and otherwise each name once, in the order in which they come first. -/
theorem parse_written (h : w.IsProper) :
    (w.names.Nodup → parse w.text = w.names) ∧
      (parse w.text).Nodup ∧ (∀ name, name ∈ parse w.text ↔ name ∈ w.names) ∧
      (parse w.text).Pairwise fun a b => w.names.idxOf a < w.names.idxOf b := by
  rw [parse_text h]
  exact ⟨keepFirst_of_nodup, nodup_keepFirst _, fun _ => mem_keepFirst, keepFirst_pairwise _⟩

/-- Two names in quotes, with an introduction and more spaces and commas than are needed. -/
def quotedPair : Written :=
  ⟨some 1, [',', ' '], [⟨"GSC", 2, 0, [' ', ',']⟩, ⟨"A\tB", 0, 1, [',', ' ']⟩]⟩

theorem parse_written_pair :
    quotedPair.IsProper ∧ quotedPair.text = " services=, \"\"GSC ,A\tB\", " ∧
      parse quotedPair.text = ["GSC", "A\tB"] := by
  have hfirst : "GSC".toList = ['G', 'S', 'C'] := by decide +kernel
  have hsecond : "A\tB".toList = ['A', '\t', 'B'] := by decide +kernel
  have hblank : Text.isBlank 'G' = false ∧ Text.isBlank 'C' = false ∧
      Text.isBlank 'A' = false ∧ Text.isBlank 'B' = false := by decide +kernel
  have hnames : ∀ i ∈ quotedPair.items, IsName i.name := by
    intro i hi
    rcases List.mem_pair.mp hi with rfl | rfl
    · exact ⟨by decide, by simp [hfirst, isSeparator], by simp [hfirst, hblank],
        by simp [hfirst, hblank], by decide +kernel⟩
    · exact ⟨by decide, by simp [hsecond, isSeparator], by simp [hsecond, hblank],
        by simp [hsecond, hblank], by decide +kernel⟩
  have hproper : quotedPair.IsProper :=
    ⟨by simp [quotedPair, isSeparator], hnames, by simp [quotedPair, isSeparator],
      by simp [quotedPair]⟩
  exact ⟨hproper, by decide +kernel, (parse_written hproper).1 (by decide)⟩

end Written

end ServiceList

end SupervisedWorker
