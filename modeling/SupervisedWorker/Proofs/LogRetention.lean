import Mathlib.Data.List.MinMax
import Mathlib.Data.List.Nodup
import Mathlib.Data.List.Lex
import Mathlib.Data.Prod.Lex
import Mathlib.Order.Nat
import SupervisedWorker.LogRetention
import SupervisedWorker.Proofs.Files.Directory
import SupervisedWorker.Proofs.Text.Bytes

/-!
# Which logs are removed

A run over a directory of files, where any call may be refused: the directory may be listed only in
part or not at all, what lies in it may not be looked at, and every removal may fail. A run looks
before it removes. If it cannot see all of the log's files, nothing is removed; otherwise the files
that are due go, the oldest first, up to the first that cannot be removed.

Results:
1. `hindered`: the calls to files of which some are refused.
2. `mem_removable`, `removable_pairwise`: all files but the last may go, in their order.
3. `collect_unreadable`, `collect_readable`: what a look at the directory tells.
4. `Seen.mem_files`: which files a look tells of.
5. `prune_removed`: how the files go that are too old.
6. `run_removes_due`: all of it.
-/

namespace SupervisedWorker

/-! ## 1. Calls that are refused -/

namespace FileStore

open FileTree

/-- What is refused although the files would allow it. -/
structure Hindrance where
  list : String → FileStore → Option FileError
  /-- A listing breaks off behind a number of names. -/
  breaks : String → FileStore → Option (Nat × FileError)
  inspect : String → FileStore → Option FileError
  remove : String → FileStore → Option FileError

/-- Nothing is refused. -/
def Hindrance.none : Hindrance where
  list _ _ := .none
  breaks _ _ := .none
  inspect _ _ := .none
  remove _ _ := .none

/-- The calls to the files in memory, where some of them are refused. -/
def hindered (h : Hindrance) : FileSystem FileStore :=
  { system with
    list := fun path s =>
      match h.list path s, h.breaks path s with
      | some e, _ => (.error e, s)
      | none, some (n, e) =>
        ((s.list path).map fun names => (names.take n).map .ok ++ [.error e], s)
      | none, none => ((s.list path).map fun names => names.map .ok, s)
    inspect := fun path s =>
      match h.inspect path s with
      | some e => (.error e, s)
      | none => (s.inspect path, s)
    remove := fun path s =>
      match h.remove path s with
      | some e => (.error e, s)
      | none => s.remove path }

variable {h : Hindrance} {s : FileStore} {path text : String} {d : List FileName} {es : Entries}

theorem list_hindered_same (h : Hindrance) (path : String) (s : FileStore) :
    ((hindered h).list path s).2 = s := by
  simp only [hindered]
  split <;> rfl

theorem inspect_hindered_same (h : Hindrance) (path : String) (s : FileStore) :
    ((hindered h).inspect path s).2 = s := by
  simp only [hindered]
  split <;> rfl

/-- What is listed to its end is a directory. -/
theorem list_hindered {items : List (Except FileError FileName)}
    (hlist : ((hindered h).list path s).1 = .ok items) (hitems : ∀ e, .error e ∉ items) :
    ∃ d es, s.Holds path d es ∧ items = (es.map (·.1)).map .ok := by
  simp only [hindered] at hlist
  split at hlist
  · cases hlist
  · rename_i n e _ _
    rcases hs : s.list path with e' | names
    · rw [hs] at hlist
      cases hlist
    · rw [hs] at hlist
      cases hlist
      exact absurd (List.mem_append_right _ (List.mem_singleton_self _)) (hitems e)
  · rcases hs : s.list path with e' | names
    · rw [hs] at hlist
      cases hlist
    · rw [hs] at hlist
      cases hlist
      obtain ⟨d, es, hfollow, rfl⟩ := list_eq_ok.mp hs
      exact ⟨d, es, hfollow, rfl⟩

/-- What is told of a name in a directory. -/
theorem Holds.inspect_hindered (hs : s.Holds path d es) (htext : IsSinglePart text)
    (hdots : text ≠ "." ∧ text ≠ "..") {info : FileInfo}
    (hinspect : ((hindered h).inspect (joinPath path text) s).1 = .ok info) :
    (IsUsable (joinPath path text) ∧ IsName (Text.utf8 text)) ∧
    ∀ modified, info = ⟨true, modified⟩ ↔
      ∃ id content, es.lookup (Text.utf8 text) = some (.file id modified content) := by
  simp only [hindered] at hinspect
  split at hinspect
  · cases hinspect
  · dsimp only at hinspect
    rcases hstay : s.stay (joinPath path text) with e | t
    · rw [FileStore.inspect, hstay] at hinspect
      cases hinspect
    · have husable := hs.usable htext hdots hstay
      have hresolve := hs.resolve htext husable.1 husable.2 (.inl rfl)
      refine ⟨husable, fun modified => ?_⟩
      rw [FileStore.inspect, FileStore.stay, hresolve, target] at hinspect
      rcases he : es.lookup (Text.utf8 text) with _ | (_ | _ | _) <;> rw [he] at hinspect <;>
        cases hinspect <;> simp

end FileStore

namespace LogRetention

open FileStore FileTree

variable {r : LogRetention} {now : Int} {h : Hindrance} {s : FileStore} {d : List FileName}
  {es : Entries} {f g : LogFile} {files gone left : List LogFile} {text : String} {name : FileName}

/-! ## 2. The order of the files -/

/-- The place of a file in the order of the last changes, and of the names where these are the
same. -/
def LogFile.place (f : LogFile) : Int ×ₗ List Nat := toLex (f.modified, f.name.map UInt8.toNat)

theorem LogFile.place_injective : Function.Injective LogFile.place := by
  intro f g hplace
  obtain ⟨hmodified, hname⟩ := Prod.mk.inj (toLex.injective hplace)
  have hname := List.map_injective_iff.mpr (fun _ _ => UInt8.toNat_inj.mp) hname
  cases f
  cases g
  cases hmodified
  cases hname
  rfl

theorem nameLe_iff (a b : FileName) :
    nameLe a b = true ↔ ¬b.map UInt8.toNat < a.map UInt8.toNat := by
  induction a generalizing b with
  | nil => simp [nameLe]
  | cons x a ih =>
    cases b with
    | nil => simp [nameLe]
    | cons y b =>
      rw [nameLe, List.map_cons, List.map_cons, List.cons_lt_cons_iff]
      by_cases hxy : x = y
      · simp [hxy, ih]
      · have hne : x.toNat ≠ y.toNat := fun he => hxy (UInt8.toNat_inj.mp he)
        simp only [if_neg hxy, decide_eq_true_eq, UInt8.lt_iff_toNat_lt]
        omega

theorem LogFile.le_iff (f g : LogFile) : f.le g = true ↔ f.place ≤ g.place := by
  rw [← not_lt, LogFile.le, LogFile.place, LogFile.place, Prod.Lex.toLex_lt_toLex]
  by_cases hmodified : f.modified = g.modified
  · simp [hmodified, nameLe_iff]
  · simp only [if_neg hmodified, decide_eq_true_eq]
    omega

theorem sorted (files : List LogFile) :
    (files.mergeSort LogFile.le).Pairwise fun f g => f.place ≤ g.place := by
  refine (List.pairwise_mergeSort ?_ ?_ files).imp fun {f g} => (LogFile.le_iff f g).mp
  · intro a b c hab hbc
    rw [LogFile.le_iff] at *
    exact hab.trans hbc
  · intro a b
    rw [Bool.or_eq_true, LogFile.le_iff, LogFile.le_iff]
    exact le_total _ _

/-- Distinct files are in a strict order. -/
theorem strictly_sorted (hfiles : files.Nodup) :
    (files.mergeSort LogFile.le).Pairwise fun f g => f.place < g.place := by
  have hdistinct : (files.mergeSort LogFile.le).Pairwise (· ≠ ·) :=
    (List.mergeSort_perm files _).nodup_iff.mpr hfiles
  exact ((sorted files).and hdistinct).imp fun {f g} hfg =>
    lt_of_le_of_ne hfg.1 (LogFile.place_injective.ne hfg.2)

theorem removable_pairwise (hfiles : files.Nodup) :
    (removable files).Pairwise fun f g => f.place < g.place :=
  (strictly_sorted hfiles).sublist (List.dropLast_sublist _)

/-- The files that may go are those that are not the last. -/
theorem mem_removable (hfiles : files.Nodup) :
    f ∈ removable files ↔ f ∈ files ∧ ∃ g ∈ files, f.place < g.place := by
  have hmem : ∀ f, f ∈ files ↔ f ∈ files.mergeSort LogFile.le := fun f =>
    (List.mergeSort_perm files _).mem_iff.symm
  have hsorted := strictly_sorted hfiles
  rw [removable]
  simp only [hmem]
  generalize files.mergeSort LogFile.le = l at hsorted
  rcases List.eq_nil_or_concat' l with rfl | ⟨before, last, rfl⟩
  · simp
  · obtain ⟨-, -, hlast⟩ := List.pairwise_append.mp hsorted
    have hlast := fun f hf => hlast f hf last (List.mem_singleton_self last)
    rw [List.dropLast_concat]
    constructor
    · intro hf
      exact ⟨List.mem_append_left _ hf, last, by simp, hlast f hf⟩
    · rintro ⟨hf, g, hg, hlt⟩
      rcases List.mem_append.mp hf with hf | hf
      · exact hf
      · obtain rfl := List.mem_singleton.mp hf
        rcases List.mem_append.mp hg with hg | hg
        · exact absurd hlt (hlast g hg).not_gt
        · obtain rfl := List.mem_singleton.mp hg
          exact absurd hlt (lt_irrefl _)

/-! ## 3. What a look at the directory tells -/

/-- A name of the log's files. -/
def Names (r : LogRetention) (text : String) : Prop :=
  (r.logName ++ ".log.").toList <+: text.toList

theorem isOurs_iff : r.isOurs name = true ↔ ∃ text, r.Names text ∧ name = Text.utf8 text := by
  rw [isOurs]
  constructor
  · intro hours
    split at hours
    · rename_i text hexactly
      refine ⟨text, ?_, Text.exactly?_eq_some.mp hexactly⟩
      rw [Names, String.toList_append]
      exact List.isPrefixOf_iff_prefix.mp hours
    · cases hours
  · rintro ⟨text, hnames, hname⟩
    rw [Names, String.toList_append] at hnames
    rw [Text.exactly?_eq_some.mpr hname]
    exact List.isPrefixOf_iff_prefix.mpr hnames

theorem path_utf8 (r : LogRetention) (text : String) :
    r.path (Text.utf8 text) = joinPath r.directory text := by
  rw [path, Text.readable_utf8]

theorem Names.isSinglePart (hnames : r.Names text) (hslash : (47 : UInt8) ∉ Text.utf8 text) :
    IsSinglePart text := by
  refine ⟨?_, fun hin => hslash (List.mem_flatMap.mpr ⟨'/', hin, by decide +kernel⟩)⟩
  rintro rfl
  have hlen := hnames.length_le
  simp at hlen

theorem Names.ne_dots (hnames : r.Names text) : text ≠ "." ∧ text ≠ ".." := by
  have hlen := hnames.length_le
  rw [String.toList_append, List.length_append] at hlen
  constructor
  · rintro rfl
    simp at hlen
  · rintro rfl
    simp at hlen

section Looks

variable {σ : Type} {fs : FileSystem σ} {t : σ} {items : List (Except FileError FileName)}

/-- Not all of the log's files can be seen. -/
inductive Unreadable (fs : FileSystem σ) (r : LogRetention) (t : σ) : Prop
  | unlisted {e : FileError} : (fs.list r.directory t).1 = .error e → Unreadable fs r t
  | brokenOff {items : List (Except FileError FileName)} {e : FileError} :
      (fs.list r.directory t).1 = .ok items → .error e ∈ items → Unreadable fs r t
  | hidden {items : List (Except FileError FileName)} {text : String} {e : FileError} :
      (fs.list r.directory t).1 = .ok items → .ok (Text.utf8 text) ∈ items → r.Names text →
      (fs.inspect (joinPath r.directory text) t).1 = .error e → Unreadable fs r t

/-- What ends a look: a listing that breaks off, or a file of the log that cannot be looked at. -/
def Blocked (fs : FileSystem σ) (r : LogRetention) (t : σ) : Except FileError FileName → Prop
  | .error _ => True
  | .ok name => r.isOurs name = true ∧ ∃ e, (fs.inspect (r.path name) t).1 = .error e

/-- The file of the log that an item of a listing stands for, if it does. -/
def fileOf (fs : FileSystem σ) (r : LogRetention) (t : σ) :
    Except FileError FileName → Option LogFile
  | .error _ => none
  | .ok name =>
    if r.isOurs name then
      match (fs.inspect (r.path name) t).1 with
      | .ok info => if info.isRegular then some ⟨info.modified, name⟩ else none
      | .error _ => none
    else none

theorem fileOf_eq_some : fileOf fs r t (.ok name) = some f ↔
    r.isOurs name = true ∧ (fs.inspect (r.path name) t).1 = .ok ⟨true, f.modified⟩ ∧
      f.name = name := by
  obtain ⟨modified, fname⟩ := f
  rw [fileOf]
  by_cases hours : r.isOurs name
  · rw [if_pos hours]
    rcases (fs.inspect (r.path name) t).1 with e | ⟨_ | _, m⟩
    · simp
    · simp
    · simp [hours, eq_comm]
  · simp [hours]

theorem collect_of_blocked (hinspect : ∀ path, (fs.inspect path t).2 = t)
    {item : Except FileError FileName} (hitem : Blocked fs r t item) :
    ∃ e, collect fs r (item :: items) t = (.error e, t) := by
  rcases item with e | name
  · exact ⟨e, rfl⟩
  · obtain ⟨hours, e, he⟩ := hitem
    have hinfo : fs.inspect (r.path name) t = (.error e, t) := Prod.ext he (hinspect _)
    exact ⟨e, by rw [collect, hinfo, hours]; rfl⟩

theorem collect_of_not_blocked (hinspect : ∀ path, (fs.inspect path t).2 = t)
    {item : Except FileError FileName} (hitem : ¬Blocked fs r t item) :
    collect fs r (item :: items) t =
      ((collect fs r items t).1.map ((fileOf fs r t item).toList ++ ·),
        (collect fs r items t).2) := by
  rcases item with e | name
  · exact absurd trivial hitem
  · by_cases hours : r.isOurs name
    · rcases he : (fs.inspect (r.path name) t).1 with e | info
      · exact absurd ⟨hours, e, he⟩ hitem
      · have hinfo : fs.inspect (r.path name) t = (.ok info, t) := Prod.ext he (hinspect _)
        rw [collect, fileOf]
        rcases hrest : collect fs r items t with ⟨_ | files, t'⟩
        · simp [hours, hinfo, hrest, Except.map]
        · by_cases hregular : info.isRegular <;> simp [hours, hinfo, hrest, hregular, Except.map]
    · rw [collect, fileOf]
      rcases collect fs r items t with ⟨_ | files, t'⟩ <;> simp [hours, Except.map]

/-- A look that is ended tells nothing. -/
theorem collect_blocked (hinspect : ∀ path, (fs.inspect path t).2 = t)
    (hitems : ∃ item ∈ items, Blocked fs r t item) :
    ∃ e, collect fs r items t = (.error e, t) := by
  induction items with
  | nil => simp at hitems
  | cons first items ih =>
    by_cases hfirst : Blocked fs r t first
    · exact collect_of_blocked hinspect hfirst
    · obtain ⟨item, hitem, hblocked⟩ := hitems
      rcases List.mem_cons.mp hitem with rfl | hitem
      · exact absurd hblocked hfirst
      · obtain ⟨e, he⟩ := ih ⟨item, hitem, hblocked⟩
        rw [collect_of_not_blocked hinspect hfirst, he]
        exact ⟨e, rfl⟩

/-- A look that is not ended tells of all the log's files. -/
theorem collect_clear (hinspect : ∀ path, (fs.inspect path t).2 = t)
    (hitems : ∀ item ∈ items, ¬Blocked fs r t item) :
    collect fs r items t = (.ok (items.filterMap (fileOf fs r t)), t) := by
  induction items with
  | nil => rfl
  | cons first items ih =>
    rw [collect_of_not_blocked hinspect (hitems first List.mem_cons_self),
      ih fun item hitem => hitems item (List.mem_cons_of_mem _ hitem), List.filterMap_cons]
    rcases fileOf fs r t first with _ | f <;> rfl

theorem run_unreadable (hlist : ∀ path, (fs.list path t).2 = t)
    (hinspect : ∀ path, (fs.inspect path t).2 = t) (hunreadable : Unreadable fs r t) :
    (r.run fs now t).2 = t ∧ ∃ cause, (r.run fs now t).1 = .error cause := by
  have hblocked : ∀ {items}, (fs.list r.directory t).1 = .ok items →
      (∃ item ∈ items, Blocked fs r t item) →
      (r.run fs now t).2 = t ∧ ∃ cause, (r.run fs now t).1 = .error cause := by
    intro items hitems hblocked
    obtain ⟨e, he⟩ := collect_blocked hinspect hblocked
    have hlisted : fs.list r.directory t = (.ok items, t) := Prod.ext hitems (hlist _)
    rw [run, hlisted]
    simp [he]
  cases hunreadable with
  | @unlisted e he =>
    have hlisted : fs.list r.directory t = (.error e, t) := Prod.ext he (hlist _)
    rw [run, hlisted]
    simp
  | @brokenOff items e hitems he => exact hblocked hitems ⟨.error e, he, trivial⟩
  | @hidden items text e hitems hmem hnames he =>
    exact hblocked hitems ⟨_, hmem, isOurs_iff.mpr ⟨text, hnames, rfl⟩, e, path_utf8 r text ▸ he⟩

theorem run_readable (hlist : ∀ path, (fs.list path t).2 = t)
    (hinspect : ∀ path, (fs.inspect path t).2 = t) (hreadable : ¬Unreadable fs r t) :
    ∃ items, (fs.list r.directory t).1 = .ok items ∧ (∀ e, .error e ∉ items) ∧
      r.run fs now t = prune fs r now (removable (items.filterMap (fileOf fs r t))) t := by
  rcases hitems : (fs.list r.directory t).1 with e | items
  · exact absurd (.unlisted hitems) hreadable
  · have hlisted : fs.list r.directory t = (.ok items, t) := Prod.ext hitems (hlist _)
    have hclear : ∀ item ∈ items, ¬Blocked fs r t item := by
      rintro (e | name) hitem hblocked
      · exact hreadable (.brokenOff hitems hitem)
      · obtain ⟨hours, e, he⟩ := hblocked
        obtain ⟨text, hnames, rfl⟩ := isOurs_iff.mp hours
        exact hreadable (.hidden hitems hitem hnames (path_utf8 r text ▸ he))
    refine ⟨items, rfl, fun e he => hclear _ he trivial, ?_⟩
    rw [run, hlisted]
    simp only [collect_clear hinspect hclear]

end Looks

/-! ## 4. The files of the log in a directory -/

/-- A regular file in a directory under one of the log's names. -/
def Lists (r : LogRetention) (es : Entries) (f : LogFile) : Prop :=
  (∃ text, r.Names text ∧ f.name = Text.utf8 text) ∧
    ∃ id content, (f.name, .file id f.modified content) ∈ es

/-- A file to which the path of its name leads. -/
structure Reachable (r : LogRetention) (es : Entries) (f : LogFile) (text : String) : Prop where
  name : f.name = Text.utf8 text
  single : IsSinglePart text
  usable : IsUsable (joinPath r.directory text) ∧ IsName (Text.utf8 text)
  entry : ∃ id content, es.lookup (Text.utf8 text) = some (.file id f.modified content)

theorem Lists.eq (htidy : IsTidy es) (hf : r.Lists es f) (hg : r.Lists es g)
    (hname : f.name = g.name) : f = g := by
  obtain ⟨-, _, _, hf⟩ := hf
  obtain ⟨-, _, _, hg⟩ := hg
  have hlookup := htidy.lookup hf
  rw [hname, htidy.lookup hg] at hlookup
  cases f
  cases g
  cases hlookup
  cases hname
  rfl

theorem lists_without (names : List FileName) :
    r.Lists (without names es) f ↔ r.Lists es f ∧ f.name ∉ names := by
  simp only [Lists, mem_without, exists_and_right, and_assoc]

/-- The directory of the log is seen with all the log's files in it. -/
structure Seen (h : Hindrance) (r : LogRetention) (s : FileStore) (d : List FileName)
    (es : Entries) : Prop where
  tidy : IsTidy es
  holds : s.Holds r.directory d es
  listed : ((hindered h).list r.directory s).1 = .ok ((es.map (·.1)).map .ok)
  readable : ¬Unreadable (hindered h) r s

/-- What is told of a name of the log. -/
theorem Seen.look (hseen : Seen h r s d es) (hnames : r.Names text) {e : FileEntry}
    (he : (Text.utf8 text, e) ∈ es) :
    IsSinglePart text ∧ (IsUsable (joinPath r.directory text) ∧ IsName (Text.utf8 text)) ∧
    ∀ modified, ((hindered h).inspect (joinPath r.directory text) s).1 = .ok ⟨true, modified⟩ ↔
      ∃ id content, es.lookup (Text.utf8 text) = some (.file id modified content) := by
  have hsingle := hnames.isSinglePart (hseen.tidy.slashless _ he)
  rcases hinfo : ((hindered h).inspect (joinPath r.directory text) s).1 with e' | info
  · have hlisted := List.mem_map_of_mem (f := Except.ok (ε := FileError))
      (List.mem_map_of_mem (f := Prod.fst) he)
    exact absurd (.hidden hseen.listed hlisted hnames hinfo) hseen.readable
  · obtain ⟨husable, hfile⟩ := hseen.holds.inspect_hindered hsingle hnames.ne_dots hinfo
    exact ⟨hsingle, husable, fun modified => by rw [Except.ok.injEq, hfile]⟩

theorem Seen.reachable (hseen : Seen h r s d es) (hf : r.Lists es f) :
    ∃ text, Reachable r es f text := by
  obtain ⟨⟨text, hnames, hname⟩, id, content, he⟩ := hf
  rw [hname] at he
  obtain ⟨hsingle, husable, -⟩ := hseen.look hnames he
  exact ⟨text, hname, hsingle, husable, id, content, hseen.tidy.lookup_iff.mpr he⟩

/-- The files that a look tells of are those of the log. -/
theorem Seen.mem_files (hseen : Seen h r s d es) :
    f ∈ ((es.map (·.1)).map .ok).filterMap (fileOf (hindered h) r s) ↔ r.Lists es f := by
  have hmem : f ∈ ((es.map (·.1)).map .ok).filterMap (fileOf (hindered h) r s) ↔
      ∃ name e, (name, e) ∈ es ∧ fileOf (hindered h) r s (.ok name) = some f := by
    simp
  rw [hmem]
  constructor
  · rintro ⟨name, e, he, hfile⟩
    obtain ⟨hours, hinfo, rfl⟩ := fileOf_eq_some.mp hfile
    obtain ⟨text, hnames, hname⟩ := isOurs_iff.mp hours
    rw [hname] at he hinfo
    rw [path_utf8] at hinfo
    obtain ⟨-, -, hiff⟩ := hseen.look hnames he
    obtain ⟨id, content, hlookup⟩ := (hiff _).mp hinfo
    exact ⟨⟨text, hnames, hname⟩, id, content, hname ▸ hseen.tidy.lookup_iff.mp hlookup⟩
  · rintro ⟨⟨text, hnames, hname⟩, id, content, he⟩
    refine ⟨f.name, _, he, fileOf_eq_some.mpr ⟨isOurs_iff.mpr ⟨text, hnames, hname⟩, ?_, rfl⟩⟩
    rw [hname] at he ⊢
    obtain ⟨-, -, hiff⟩ := hseen.look hnames he
    rw [path_utf8]
    exact (hiff _).mpr ⟨id, content, hseen.tidy.lookup_iff.mpr he⟩

theorem Seen.nodup_files (hseen : Seen h r s d es) :
    (((es.map (·.1)).map .ok).filterMap (fileOf (hindered h) r s)).Nodup := by
  refine List.Nodup.filterMap ?_ (hseen.tidy.distinct.map fun _ _ => Except.ok.inj)
  rintro (_ | name) (_ | name') f hf hf'
  · cases hf
  · cases hf
  · cases hf'
  · rw [← (fileOf_eq_some.mp hf).2.2, ← (fileOf_eq_some.mp hf').2.2]

/-! ## 5. How the files go -/

/-- What becomes of files that are removed one after the other: some go, and the first that cannot
be removed stays with all behind it. -/
structure Removed (h : Hindrance) (r : LogRetention) (d : List FileName) (s : FileStore)
    (gone left : List LogFile) (out : Except Failure Unit × FileStore) : Prop where
  files : out.2 = s.without d (gone.map (·.name))
  allowed : ∀ before f after, gone = before ++ f :: after →
    h.remove (r.path f.name) (s.without d (before.map (·.name))) = none
  ended : left = [] ∧ out.1 = .ok () ∨ ∃ f rest e, left = f :: rest ∧
    h.remove (r.path f.name) out.2 = some e ∧
    out.1 = .error ((Failure.ofMessage e.text).within s!"Failed to remove old log {r.path f.name}")

theorem Reachable.without (hf : Reachable r es f text) (hne : f.name ≠ name) :
    Reachable r (without [name] es) f text := by
  obtain ⟨hname, hsingle, husable, id, content, he⟩ := hf
  refine ⟨hname, hsingle, husable, id, content, ?_⟩
  rw [lookup_without, if_neg (by simpa [← hname] using hne), he]

theorem Removed.cons (hallowed : h.remove (r.path f.name) s = none)
    {out : Except Failure Unit × FileStore}
    (hrest : Removed h r d (s.without d [f.name]) gone left out) :
    Removed h r d s (f :: gone) left out := by
  refine ⟨?_, ?_, hrest.ended⟩
  · rw [hrest.files, FileStore.without_without]
    rfl
  · rintro (_ | ⟨f', before⟩) g after hgone
    · obtain ⟨rfl, -⟩ := List.cons.inj hgone
      rwa [List.map_nil, FileStore.without_nil]
    · obtain ⟨rfl, htail⟩ := List.cons.inj hgone
      have hbefore := hrest.allowed before g after htail
      rwa [FileStore.without_without] at hbefore

theorem prune_removed (now : Int) (hs : s.Holds r.directory d es)
    (hfiles : ∀ f ∈ files, ∃ text, Reachable r es f text)
    (hdistinct : (files.map (·.name)).Nodup) :
    ∃ gone left, gone ++ left = files.filter (r.isExpired now) ∧
      Removed h r d s gone left (prune (hindered h) r now files s) := by
  induction files generalizing s es with
  | nil => exact ⟨[], [], rfl, (FileStore.without_nil d s).symm, by simp, .inl ⟨rfl, rfl⟩⟩
  | cons f files ih =>
    obtain ⟨⟨text, hf⟩, hfiles⟩ := List.forall_mem_cons.mp hfiles
    rw [List.map_cons, List.nodup_cons] at hdistinct
    by_cases hexpired : r.isExpired now f
    · rw [List.filter_cons_of_pos hexpired]
      rcases hremove : h.remove (r.path f.name) s with _ | e
      · obtain ⟨id, content, he⟩ := hf.entry
        have hgone : (hindered h).remove (r.path f.name) s = (.ok (), s.without d [f.name]) := by
          have hstore := hs.remove hf.single hf.usable he
          simp only [hindered, hremove]
          rw [hf.name, path_utf8, hstore]
        have hs' : (s.without d [f.name]).Holds r.directory d (FileTree.without [f.name] es) := by
          refine hs.without fun n hn e' he' => ?_
          rw [List.mem_singleton.mp hn, hf.name, he] at he'
          cases he'
          trivial
        have hfiles' : ∀ g ∈ files, ∃ text, Reachable r (FileTree.without [f.name] es) g text := by
          intro g hg
          obtain ⟨text, hreach⟩ := hfiles g hg
          refine ⟨text, hreach.without fun hname => hdistinct.1 ?_⟩
          exact hname ▸ List.mem_map_of_mem hg
        obtain ⟨gone, left, happend, hremoved⟩ := ih hs' hfiles' hdistinct.2
        refine ⟨f :: gone, left, by rw [List.cons_append, happend], ?_⟩
        rw [prune, hexpired, hgone]
        exact hremoved.cons hremove
      · have hstays : (hindered h).remove (r.path f.name) s = (.error e, s) := by
          simp only [hindered, hremove]
        refine ⟨[], f :: files.filter (r.isExpired now), rfl, ?_⟩
        rw [prune, hexpired, hstays]
        exact ⟨(FileStore.without_nil d s).symm, by simp, .inr ⟨f, _, e, rfl, hremove, rfl⟩⟩
    · rw [List.filter_cons_of_neg hexpired, prune, if_pos (by simpa using hexpired)]
      exact ih hs hfiles hdistinct.2

/-! ## 6. A whole run -/

/-- A file that has to go: a file of the log that is not the last of them and is old enough. -/
def Due (r : LogRetention) (es : Entries) (now : Int) (f : LogFile) : Prop :=
  r.Lists es f ∧ (∃ g, r.Lists es g ∧ f.place < g.place) ∧
    (r.maxAge.nanos : Int) ≤ max 0 (now - f.modified)

/-- What becomes of the files that are due: they go in their order, up to the first that cannot be
removed. -/
structure Pruned (h : Hindrance) (r : LogRetention) (now : Int) (s : FileStore)
    (d : List FileName) (es : Entries) (gone left : List LogFile)
    (out : Except Failure Unit × FileStore) : Prop extends Removed h r d s gone left out where
  due : ∀ f, f ∈ gone ++ left ↔ r.Due es now f
  oldestFirst : (gone ++ left).Pairwise fun f g => f.place < g.place

theorem isExpired_iff :
    r.isExpired now f = true ↔ (r.maxAge.nanos : Int) ≤ max 0 (now - f.modified) := by
  have hage : r.isExpired now f = true ↔ r.maxAge.nanos ≤ (now - f.modified).toNat :=
    decide_eq_true_iff
  rw [hage]
  omega

/-- Where nothing is unreadable, the directory of the log is seen, and the run goes by what was seen
of it. -/
theorem exists_seen (htidy : ∀ d es, s.Holds r.directory d es → IsTidy es) (now : Int)
    (hreadable : ¬Unreadable (hindered h) r s) :
    ∃ d es, Seen h r s d es ∧ r.run (hindered h) now s = prune (hindered h) r now
      (removable (((es.map (·.1)).map .ok).filterMap (fileOf (hindered h) r s))) s := by
  obtain ⟨items, hlisted, hitems, hrun⟩ := run_readable
    (fun path => list_hindered_same h path s) (fun path => inspect_hindered_same h path s)
    hreadable
  obtain ⟨d, es, hs, rfl⟩ := list_hindered hlisted hitems
  exact ⟨d, es, ⟨htidy d es hs, hs, hlisted, hreadable⟩, hrun⟩

theorem Seen.pruned (hseen : Seen h r s d es) (now : Int) :
    ∃ gone left, Pruned h r now s d es gone left (prune (hindered h) r now
      (removable (((es.map (·.1)).map .ok).filterMap (fileOf (hindered h) r s))) s) := by
  have hnodup := hseen.nodup_files
  have hmem := fun f => hseen.mem_files (f := f)
  generalize ((es.map (·.1)).map .ok).filterMap (fileOf (hindered h) r s) = files at hnodup hmem
  have hlists : ∀ f ∈ removable files, r.Lists es f := fun f hf =>
    (hmem f).mp ((mem_removable hnodup).mp hf).1
  have hdistinct : ((removable files).map (·.name)).Nodup :=
    List.Nodup.map_on (fun f hf g hg => (hlists f hf).eq hseen.tidy (hlists g hg))
      ((removable_pairwise hnodup).imp fun {f g} hlt (he : f = g) => lt_irrefl _ (he ▸ hlt))
  obtain ⟨gone, left, happend, hremoved⟩ := prune_removed (h := h) now hseen.holds
    (fun f hf => hseen.reachable (hlists f hf)) hdistinct
  refine ⟨gone, left, hremoved, fun f => ?_, ?_⟩
  · rw [happend, List.mem_filter, mem_removable hnodup, isExpired_iff, hmem, Due, and_assoc]
    simp only [hmem]
  · rw [happend]
    exact (removable_pairwise hnodup).filter _

/-- There is a last one among the files of a log. -/
theorem Seen.exists_last (hseen : Seen h r s d es) (hf : r.Lists es f) :
    ∃ g, r.Lists es g ∧ ∀ f, r.Lists es f → ¬g.place < f.place := by
  have hmem := fun f => hseen.mem_files (f := f)
  generalize ((es.map (·.1)).map .ok).filterMap (fileOf (hindered h) r s) = files at hmem
  rcases hlast : files.argmax LogFile.place with _ | g
  · rw [List.argmax_eq_none.mp hlast] at hmem
    exact absurd ((hmem f).mpr hf) List.not_mem_nil
  · refine ⟨g, (hmem g).mp (List.argmax_mem hlast), fun f hf => not_lt.mpr ?_⟩
    exact List.le_of_mem_argmax ((hmem f).mpr hf) hlast

variable {out : Except Failure Unit × FileStore}

theorem Pruned.gone_due (hpruned : Pruned h r now s d es gone left out) (hf : f ∈ gone) :
    r.Due es now f := (hpruned.due f).mp (List.mem_append_left _ hf)

theorem Pruned.holds (hpruned : Pruned h r now s d es gone left out) (hseen : Seen h r s d es) :
    out.2.Holds r.directory d (without (gone.map (·.name)) es) := by
  rw [hpruned.files]
  refine hseen.holds.without fun n hn e he => ?_
  obtain ⟨f, hf, rfl⟩ := List.mem_map.mp hn
  obtain ⟨⟨-, id, content, hfile⟩, -⟩ := hpruned.gone_due hf
  rw [hseen.tidy.lookup hfile] at he
  cases he
  trivial

/-- A file of the log is still there if and only if it is not gone. -/
theorem Pruned.lists (hpruned : Pruned h r now s d es gone left out) (htidy : IsTidy es) :
    r.Lists (without (gone.map (·.name)) es) f ↔ r.Lists es f ∧ f ∉ gone := by
  rw [lists_without]
  refine and_congr_right fun hf => not_congr ⟨fun hname => ?_, List.mem_map_of_mem⟩
  obtain ⟨g, hg, hname⟩ := List.mem_map.mp hname
  rwa [← (hpruned.gone_due hg).1.eq htidy hf hname]

/-- The last file of the log stays. -/
theorem Pruned.stays (hpruned : Pruned h r now s d es gone left out) (hseen : Seen h r s d es)
    (hf : r.Lists es f) : ∃ g, r.Lists (without (gone.map (·.name)) es) g := by
  obtain ⟨g, hg, hlast⟩ := hseen.exists_last hf
  refine ⟨g, (hpruned.lists hseen.tidy).mpr ⟨hg, fun hgone => ?_⟩⟩
  obtain ⟨-, ⟨f, hf, hlt⟩, -⟩ := hpruned.gone_due hgone
  exact hlast f hf hlt

/-- When all files that are due have gone, no other is due. -/
theorem Pruned.none_due (hpruned : Pruned h r now s d es gone left out) (htidy : IsTidy es)
    (hok : out.1 = .ok ()) : ¬r.Due (without (gone.map (·.name)) es) now f := by
  rintro ⟨hf, ⟨g, hg, hlt⟩, hold⟩
  rw [hpruned.lists htidy] at hf hg
  have hleft : left = [] := by
    rcases hpruned.ended with ⟨hleft, -⟩ | ⟨_, _, _, -, -, hfailed⟩
    · exact hleft
    · rw [hok] at hfailed
      cases hfailed
  have hgone := (hpruned.due f).mpr ⟨hf.1, ⟨g, hg.1, hlt⟩, hold⟩
  rw [hleft, List.append_nil] at hgone
  exact hf.2 hgone

/-- A run that succeeds leaves nothing to another one at the same time. -/
theorem Pruned.again (hpruned : Pruned h r now s d es gone left out) (hseen : Seen h r s d es)
    (hok : out.1 = .ok ()) (h' : Hindrance) : (r.run (hindered h') now out.2).2 = out.2 := by
  by_cases hreadable : Unreadable (hindered h') r out.2
  · exact (run_unreadable (fun path => list_hindered_same h' path _)
      (fun path => inspect_hindered_same h' path _) hreadable).1
  · have hholds := hpruned.holds hseen
    obtain ⟨d', es', hseen', hrun⟩ := exists_seen
      (fun _ _ hholds' => (hholds'.unique hholds).2 ▸ hseen.tidy.without _) now hreadable
    obtain ⟨gone', left', hpruned'⟩ := hseen'.pruned now
    have hnone : ∀ f, f ∉ gone' ++ left' := by
      intro f hf
      rw [hpruned'.due, (hseen'.holds.unique hholds).2] at hf
      exact hpruned.none_due hseen.tidy hok hf
    obtain ⟨rfl, -⟩ := List.append_eq_nil_iff.mp (List.eq_nil_iff_forall_not_mem.mpr hnone)
    rw [hrun, hpruned'.files]
    exact FileStore.without_nil d' _

/-- What is no file of the log stays. -/
theorem run_keeps (htidy : ∀ d es, s.Holds r.directory d es → IsTidy es) (h : Hindrance)
    (now : Int) (hs : s.Holds r.directory d es) {e : FileEntry} (he : (name, e) ∈ es)
    (hname : ∀ f, r.Lists es f → f.name ≠ name) :
    ∃ es', (r.run (hindered h) now s).2.Holds r.directory d es' ∧ (name, e) ∈ es' := by
  by_cases hreadable : Unreadable (hindered h) r s
  · rw [(run_unreadable (fun path => list_hindered_same h path s)
      (fun path => inspect_hindered_same h path s) hreadable).1]
    exact ⟨es, hs, he⟩
  · obtain ⟨d', es', hseen, hrun⟩ := exists_seen htidy now hreadable
    obtain ⟨rfl, rfl⟩ := hseen.holds.unique hs
    obtain ⟨gone, left, hpruned⟩ := hseen.pruned now
    rw [← hrun] at hpruned
    refine ⟨_, hpruned.holds hseen, mem_without.mpr ⟨he, fun hgone => ?_⟩⟩
    obtain ⟨f, hf, hfname⟩ := List.mem_map.mp hgone
    exact hname f (hpruned.gone_due hf).1 hfname

/-- What is due goes, if no removal fails. -/
theorem run_drops (htidy : ∀ d es, s.Holds r.directory d es → IsTidy es)
    (hreadable : ¬Unreadable (hindered h) r s) (hallowed : ∀ path s, h.remove path s = none)
    (hs : s.Holds r.directory d es) (hdue : r.Due es now f) :
    ∃ es', (r.run (hindered h) now s).2.Holds r.directory d es' ∧ ∀ e, (f.name, e) ∉ es' := by
  obtain ⟨d', es', hseen, hrun⟩ := exists_seen htidy now hreadable
  obtain ⟨rfl, rfl⟩ := hseen.holds.unique hs
  obtain ⟨gone, left, hpruned⟩ := hseen.pruned now
  rw [← hrun] at hpruned
  refine ⟨_, hpruned.holds hseen, fun e he => (mem_without.mp he).2 ?_⟩
  rcases hpruned.ended with ⟨rfl, -⟩ | ⟨_, _, _, -, hremove, -⟩
  · exact List.mem_map_of_mem (by simpa using (hpruned.due f).mpr hdue)
  · rw [hallowed] at hremove
    cases hremove

/-- What a run removes. If the log's files cannot all be seen, the run fails and changes nothing.
Otherwise those that are due go, the oldest first, up to the first that cannot be removed, and the
run fails if there is one. Nothing else changes, a log that had files has some left, and a second
run at the same time after one that succeeded changes nothing, whatever is refused to it. -/
theorem run_removes_due (h : Hindrance) (r : LogRetention) (now : Int) (s : FileStore)
    (htidy : ∀ d es, s.Holds r.directory d es → IsTidy es) :
    let fs := hindered h
    let out := r.run fs now s
    (Unreadable fs r s → out.2 = s ∧ ∃ cause, out.1 = .error cause) ∧
    (¬Unreadable fs r s → ∃ d es gone left, s.Holds r.directory d es ∧
      Pruned h r now s d es gone left out ∧
      out.2.Holds r.directory d (without (gone.map (·.name)) es) ∧
      ((∃ f, r.Lists es f) → ∃ f, r.Lists (without (gone.map (·.name)) es) f) ∧
      (out.1 = .ok () → ∀ h', (r.run (hindered h') now out.2).2 = out.2)) := by
  intro fs out
  constructor
  · exact run_unreadable (fun path => list_hindered_same h path s)
      (fun path => inspect_hindered_same h path s)
  · intro hreadable
    obtain ⟨d, es, hseen, hrun⟩ := exists_seen htidy now hreadable
    obtain ⟨gone, left, hpruned⟩ := hseen.pruned now
    rw [← hrun] at hpruned
    exact ⟨d, es, gone, left, hseen.holds, hpruned, hpruned.holds hseen,
      fun ⟨_, hf⟩ => hpruned.stays hseen hf, hpruned.again hseen⟩

/-! ## 7. Where nothing is refused -/

theorem hindered_none : hindered .none = FileStore.system := rfl

/-- Where nothing is refused, all files of the log can be seen to which the paths lead. -/
theorem readable_of_usable (htidy : IsTidy es) (hs : s.Holds r.directory d es)
    (husable : ∀ text, r.Names text → Text.utf8 text ∈ es.map (·.1) →
      IsUsable (joinPath r.directory text) ∧ IsName (Text.utf8 text)) :
    ¬Unreadable (hindered .none) r s := by
  have hlisted : ((hindered .none).list r.directory s).1 = .ok ((es.map (·.1)).map .ok) := by
    rw [hindered_none]
    simp only [FileStore.system, list_eq_ok.mpr ⟨d, es, hs, rfl⟩]
    rfl
  rintro (hlist | ⟨hlist, he⟩ | ⟨hlist, hmem, hnames, hinspect⟩) <;> rw [hlisted] at hlist <;>
    cases hlist
  · simp at he
  · obtain ⟨name, hname, ⟨rfl⟩⟩ := List.mem_map.mp hmem
    obtain ⟨⟨_, e⟩, he, rfl⟩ := List.mem_map.mp hname
    have hsingle := hnames.isSinglePart (htidy.slashless _ he)
    obtain ⟨husable, hname⟩ := husable _ hnames hname
    have hstay := hs.resolve hsingle husable hname (.inl rfl)
    rw [target, htidy.lookup he] at hstay
    rw [hindered_none] at hinspect
    simp only [FileStore.system, FileStore.inspect, FileStore.stay, hstay] at hinspect
    rcases e with _ | _ | _ <;> cases hinspect

/-- A directory `logs` with two files in it. -/
def twoLogs (name name' : FileName) (modified modified' : Int) : FileStore :=
  ⟨[(Text.utf8 "logs", .directory
    [(name, .file 0 modified ""), (name', .file 1 modified' "")])], [], 2, 10, []⟩

theorem holds_twoLogs (name name' : FileName) (modified modified' : Int) :
    (twoLogs name name' modified modified').Holds "logs" [Text.utf8 "logs"]
      [(name, .file 0 modified ""), (name', .file 1 modified' "")] := by
  have hparts : parts "logs" = [Text.utf8 "logs"] := by decide +kernel
  rw [Holds, FileStore.follow_top (.inl rfl) (by decide +kernel), hparts]
  rw [walk_directory rfl (by decide +kernel), walk]
  rfl

theorem lists_twoLogs {name' : FileName} {modified modified' : Int} :
    r.Lists [(name, .file 0 modified ""), (name', .file 1 modified' "")] f ↔
      (∃ text, r.Names text ∧ f.name = Text.utf8 text) ∧
        (f = ⟨modified, name⟩ ∨ f = ⟨modified', name'⟩) := by
  obtain ⟨m, n⟩ := f
  have hentry : (∃ id content, (n, FileEntry.file id m content) ∈
      [(name, .file 0 modified ""), (name', .file 1 modified' "")]) ↔
      (⟨m, n⟩ : LogFile) = ⟨modified, name⟩ ∨ (⟨m, n⟩ : LogFile) = ⟨modified', name'⟩ := by
    simp only [List.mem_cons, List.not_mem_nil, or_false, Prod.mk.injEq, FileEntry.file.injEq,
      LogFile.mk.injEq]
    constructor
    · rintro ⟨id, content, ⟨rfl, -, rfl, -⟩ | ⟨rfl, -, rfl, -⟩⟩ <;> simp
    · rintro (⟨rfl, rfl⟩ | ⟨rfl, rfl⟩)
      · exact ⟨0, "", by simp⟩
      · exact ⟨1, "", by simp⟩
  exact and_congr_right' hentry

/-- Two files that are both seen if those of their names that are texts make usable paths. -/
theorem readable_twoLogs {logName : String} {maxAge : Duration} {name' : FileName}
    {modified modified' : Int}
    (htidy : IsTidy [(name, .file 0 modified ""), (name', .file 1 modified' "")])
    (htexts : ∀ text, Text.utf8 text = name ∨ Text.utf8 text = name' →
      IsUsable (joinPath "logs" text) ∧ IsName (Text.utf8 text)) :
    ¬Unreadable (hindered .none) ⟨"logs", logName, maxAge⟩
      (twoLogs name name' modified modified') :=
  readable_of_usable htidy (holds_twoLogs ..) fun text _ htext => htexts text (by simpa using htext)

/-- Of two files that were changed at the same time the one with the lesser name goes. -/
theorem run_removes_due_of_tie :
    let r : LogRetention := ⟨"logs", "worker", ⟨3⟩⟩
    let s := twoLogs (Text.utf8 "worker.log.2") (Text.utf8 "worker.log.1") 7 7
    let out := r.run (hindered .none) 10 s
    (∀ d es, s.Holds r.directory d es → IsTidy es) ∧ out.1 = .ok () ∧
      ∃ names, out.2 = s.without [Text.utf8 "logs"] names ∧
        ∀ n, n ∈ names ↔ n = Text.utf8 "worker.log.1" := by
  intro r s out
  have hs := holds_twoLogs (Text.utf8 "worker.log.2") (Text.utf8 "worker.log.1") 7 7
  have htidy : IsTidy [(Text.utf8 "worker.log.2", .file 0 7 ""),
      (Text.utf8 "worker.log.1", .file 1 7 "")] := ⟨by decide +kernel, by decide +kernel⟩
  have hall : ∀ d es, s.Holds r.directory d es → IsTidy es := fun d es hes =>
    (hes.unique hs).2 ▸ htidy
  have hreadable : ¬Unreadable (hindered .none) r s := by
    refine readable_twoLogs htidy fun text htext => ?_
    rcases htext with htext | htext <;> obtain rfl := Text.utf8_injective htext <;>
      exact ⟨by dsimp only [IsUsable]; decide +kernel, by dsimp only [IsName]; decide +kernel⟩
  obtain ⟨-, hrun⟩ := run_removes_due .none r 10 s hall
  obtain ⟨d, es, gone, left, hes, hpruned, -⟩ := hrun hreadable
  obtain ⟨rfl, rfl⟩ := hes.unique hs
  have hleft : left = [] ∧ out.1 = .ok () := by
    rcases hpruned.ended with hended | ⟨_, _, _, -, hremove, -⟩
    · exact hended
    · cases hremove
  have hdue := hpruned.due
  simp only [hleft.1, List.append_nil, Due, lists_twoLogs] at hdue
  have hnames : r.Names "worker.log.2" ∧ r.Names "worker.log.1" := by
    constructor <;> unfold Names <;> decide +kernel
  refine ⟨hall, hleft.2, gone.map (·.name), hpruned.files, fun n => ?_⟩
  rw [List.mem_map]
  constructor
  · rintro ⟨f, hf, rfl⟩
    obtain ⟨⟨-, rfl | rfl⟩, ⟨g, ⟨-, rfl | rfl⟩, hlt⟩, -⟩ := (hdue f).mp hf
    · exact absurd hlt (lt_irrefl _)
    · exact absurd hlt (by decide +kernel)
    · rfl
    · rfl
  · rintro rfl
    exact ⟨⟨7, _⟩, (hdue _).mpr ⟨⟨⟨_, hnames.2, rfl⟩, .inr rfl⟩,
      ⟨⟨7, _⟩, ⟨⟨_, hnames.1, rfl⟩, .inl rfl⟩, by decide +kernel⟩, by decide⟩, rfl⟩

/-- A file stays whose name is not a text, though it begins like the names of the log's files. -/
theorem run_keeps_unreadable_name :
    let r : LogRetention := ⟨"logs", "worker", ⟨0⟩⟩
    let name := Text.utf8 "worker.log." ++ [0xFF]
    let s := twoLogs name (Text.utf8 "worker.log.2") 0 7
    Text.utf8 (r.logName ++ ".log.") <+: name ∧ r.run FileStore.system 10 s = (.ok (), s) := by
  intro r name s
  have htidy : IsTidy [(name, .file 0 0 ""), (Text.utf8 "worker.log.2", .file 1 7 "")] :=
    ⟨by decide +kernel, by decide +kernel⟩
  have hexactly : Text.exactly? name = none := by decide +kernel
  have hname : ∀ text, Text.utf8 text ≠ name := fun text htext => by
    rw [Text.exactly?_eq_some.mpr htext.symm] at hexactly
    cases hexactly
  have hs := holds_twoLogs name (Text.utf8 "worker.log.2") 0 7
  have hreadable : ¬Unreadable (hindered .none) r s := by
    refine readable_twoLogs htidy fun text htext => ?_
    obtain rfl := Text.utf8_injective (htext.resolve_left (hname text))
    exact ⟨by dsimp only [IsUsable]; decide +kernel, by dsimp only [IsName]; decide +kernel⟩
  have hall : ∀ d es, s.Holds r.directory d es → IsTidy es := fun d es hes =>
    (hes.unique hs).2 ▸ htidy
  obtain ⟨d, es, hseen, hrun⟩ := exists_seen hall 10 hreadable
  obtain ⟨rfl, rfl⟩ := hseen.holds.unique hs
  obtain ⟨gone, left, hpruned⟩ := hseen.pruned 10
  rw [← hrun] at hpruned
  -- The only file of the log is the last one, so none is due.
  have hnone : ∀ f, f ∉ gone ++ left := by
    intro f hf
    rw [hpruned.due, Due, lists_twoLogs] at hf
    obtain ⟨⟨⟨text, -, hf⟩, hfile⟩, ⟨g, hg, hlt⟩, -⟩ := hf
    obtain ⟨⟨text', -, hg⟩, hfile'⟩ := lists_twoLogs.mp hg
    rcases hfile with rfl | rfl
    · exact hname text hf.symm
    · rcases hfile' with rfl | rfl
      · exact hname text' hg.symm
      · exact lt_irrefl _ hlt
  obtain ⟨rfl, rfl⟩ := List.append_eq_nil_iff.mp (List.eq_nil_iff_forall_not_mem.mpr hnone)
  refine ⟨by decide +kernel, Prod.ext ?_ ?_⟩
  · rcases hpruned.ended with ⟨-, hok⟩ | ⟨_, _, _, hleft, -⟩
    · exact hok
    · cases hleft
  · exact hpruned.files.trans (FileStore.without_nil _ s)

end LogRetention

end SupervisedWorker
