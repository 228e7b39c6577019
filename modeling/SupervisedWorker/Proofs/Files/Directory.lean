import SupervisedWorker.Files.Edit
import SupervisedWorker.Proofs.AgentProbe.Files
import SupervisedWorker.Proofs.Lookup

/-!
# Files in a directory

A path to a directory may lead through other directories and over links, but never through a file.
So when the files in a directory change, every path to a directory leads where it led before, and
a file is found under its name behind each path to its directory.

Results:
1. `walk_eq_directory`: the ways on which a path leads to a directory.
2. `Arrives.alter`: a change of files leads no path to a directory astray.
3. `Holds.resolve`: where a path leads that has a name behind a path to a directory.
4. `Holds.without`, `Holds.remove`: what is there after files have been removed.
5. `Holds.write`, `Holds.probe`: what is there after a file has been written.
-/

namespace SupervisedWorker

def FileEntry.IsFile : FileEntry → Prop
  | .file .. => True
  | .link _ | .directory _ => False

/-- What a path can tell of an entry before it looks into it. -/
def FileEntry.shape : FileEntry → FileEntry
  | .directory _ => .directory []
  | e => e

namespace FileTree

variable {root es : Entries} {links : Nat} {dir rest d : List FileName} {name : FileName}

/-! ## 1. Ways to a directory -/

/-- A part of a path that is the name of an entry, and not too long for one. -/
def IsName (name : FileName) : Prop := name ≠ here ∧ name ≠ above ∧ name.length ≤ 255

/-- What lies under a name in a directory. -/
def entryAt (root : Entries) (dir : List FileName) (name : FileName) : Option FileEntry :=
  (directory? dir root).bind (·.lookup name)

/-- The parts of a path lead from one directory to another, over no more than a number of links. -/
inductive Arrives (root : Entries) : (links : Nat) → (dir rest d : List FileName) → Prop
  | done {links : Nat} {dir : List FileName} :
      (directory? dir root).isSome → Arrives root links dir [] dir
  | stay {links : Nat} {dir rest d : List FileName} :
      Arrives root links dir rest d → Arrives root links dir (here :: rest) d
  | up {links : Nat} {dir rest d : List FileName} :
      Arrives root links dir.dropLast rest d → Arrives root links dir (above :: rest) d
  | into {links : Nat} {dir rest d : List FileName} {name : FileName} {inner : Entries} :
      IsName name → entryAt root dir name = some (.directory inner) →
      Arrives root links (dir ++ [name]) rest d → Arrives root links dir (name :: rest) d
  | across {links : Nat} {dir rest d : List FileName} {name : FileName} {target : String} :
      IsName name → entryAt root dir name = some (.link target) →
      Arrives root links (start target dir) (parts target ++ rest) d →
      Arrives root (links + 1) dir (name :: rest) d

theorem here_ne_above : here ≠ above := by decide +kernel

theorem walk_link {target : String} (hname : IsName name)
    (he : entryAt root dir name = some (.link target)) (follow : Bool) (links : Nat)
    (hrest : rest ≠ [] ∨ follow = true) :
    walk root follow (links + 1) dir (name :: rest) =
      walk root follow links (start target dir) (parts target ++ rest) := by
  obtain ⟨hhere, habove, hlen⟩ := hname
  rw [entryAt] at he
  rw [walk, if_neg hhere, if_neg habove, if_neg (Nat.not_lt.mpr hlen), he]
  have hgo : (decide (rest = []) && !follow) = false := by
    rcases hrest with h | h <;> simp [h]
  simp [hgo]

theorem walk_here (follow : Bool) (links : Nat) (dir rest : List FileName) :
    walk root follow links dir (here :: rest) = walk root follow links dir rest := by
  rw [walk, if_pos rfl]

theorem walk_above (follow : Bool) (links : Nat) (dir rest : List FileName) :
    walk root follow links dir (above :: rest) = walk root follow links dir.dropLast rest := by
  rw [walk, if_neg here_ne_above.symm, if_pos rfl]

theorem directory?_append (dir rest : List FileName) (root : Entries) :
    directory? (dir ++ rest) root = (directory? dir root).bind (directory? rest) := by
  induction dir generalizing root with
  | nil => rfl
  | cons name dir ih =>
    rw [List.cons_append, directory?, directory?]
    rcases root.lookup name with _ | (_ | _ | inner)
    · rfl
    · rfl
    · rfl
    · exact ih inner

/-- The end of a walk. -/
theorem walk_last (hdir : directory? dir root = some es) (hname : IsName name) {follow : Bool}
    (hlink : follow = false ∨ ∀ target, es.lookup name ≠ some (.link target)) :
    walk root follow links dir [name] =
      .ok (match es.lookup name with
        | none => .vacant dir name
        | some e => .entry (dir ++ [name]) e) := by
  obtain ⟨hhere, habove, hlen⟩ := hname
  have hbind : (directory? dir root).bind (·.lookup name) = es.lookup name := by rw [hdir]; rfl
  rw [walk, if_neg hhere, if_neg habove, if_neg (Nat.not_lt.mpr hlen), hbind]
  rcases hlookup : es.lookup name with _ | (_ | target | inner)
  · rfl
  · rfl
  · rcases hlink with rfl | hlink
    · rfl
    · exact absurd hlookup (hlink target)
  · have hinner : directory? (dir ++ [name]) root = some inner := by
      rw [directory?_append, hdir, Option.bind_some, directory?, hlookup]
      rfl
    dsimp only
    rw [walk, hinner]

/-- Where a path leads that a name is added to. -/
theorem Arrives.walk_append (h : Arrives root links dir rest d) (name : FileName)
    (follow : Bool) :
    ∃ left, walk root follow links dir (rest ++ [name]) = walk root follow left d [name] := by
  induction h with
  | @done links dir _ => exact ⟨links, rfl⟩
  | stay _ ih => simpa only [List.cons_append, walk_here] using ih
  | up _ ih => simpa only [List.cons_append, walk_above] using ih
  | into hinto he _ ih => simpa only [List.cons_append, walk_directory he hinto] using ih
  | across hinto he _ ih =>
    rw [List.cons_append, walk_link hinto he follow _ (.inl (by simp)),
      ← List.append_assoc]
    exact ih

/-- A walk ends at a directory if and only if it arrives there. -/
theorem walk_eq_directory : walk root true links dir rest = .ok (.entry d (.directory es)) ↔
    Arrives root links dir rest d ∧ directory? d root = some es := by
  constructor
  · intro h
    fun_induction walk root true links dir rest
    case case1 hdir =>
      cases h
      exact ⟨.done (by simp [hdir]), hdir⟩
    case case3 ih => exact (ih h).imp_left .stay
    case case4 ih => exact (ih h).imp_left .up
    case case8 hhere habove hlen _ he ih =>
      exact (ih h).imp_left (.into ⟨hhere, habove, Nat.not_lt.mp hlen⟩ he)
    case case13 hhere habove hlen target he _ _ ih =>
      exact (ih h).imp_left (.across ⟨hhere, habove, Nat.not_lt.mp hlen⟩ he)
    all_goals cases h
  · rintro ⟨harrives, hd⟩
    induction harrives with
    | done _ => rw [walk, hd]
    | stay _ ih => rw [walk_here, ih hd]
    | up _ ih => rw [walk_above, ih hd]
    | into hinto he _ ih => rw [walk_directory he hinto, ih hd]
    | across hinto he _ ih => rw [walk_link hinto he true _ (.inr rfl), ih hd]

/-! ## 2. Changes of files -/

theorem directory?_cons {m : FileName} : directory? (m :: d) root = some es ↔
    ∃ inner, root.lookup m = some (.directory inner) ∧ directory? d inner = some es := by
  rw [directory?]
  rcases root.lookup m with _ | (_ | _ | inner) <;> simp

theorem entryAt_cons {m : FileName} {e : FileEntry} : entryAt root (m :: dir) name = some e ↔
    ∃ inner, root.lookup m = some (.directory inner) ∧ entryAt inner dir name = some e := by
  rw [entryAt, directory?]
  rcases root.lookup m with _ | (_ | _ | inner) <;> simp [entryAt]

/-- What becomes of the entry of the name `n` where the directory `m :: d` is changed. -/
def alterEntry (change : Entries → Entries) (m n : FileName) (d : List FileName) :
    FileEntry → FileEntry
  | .directory inner => if n = m then .directory (alter change d inner) else .directory inner
  | e => e

theorem alter_cons (change : Entries → Entries) (m : FileName) (d : List FileName)
    (root : Entries) : alter change (m :: d) root =
      root.map fun entry => (entry.1, alterEntry change m entry.1 d entry.2) := by
  rw [alter]
  refine List.map_congr_left fun entry _ => ?_
  obtain ⟨n, e⟩ := entry
  cases e with
  | directory inner => by_cases hm : n = m <;> simp [alterEntry, hm]
  | _ => rfl

theorem lookup_alter_cons (change : Entries → Entries) (m : FileName) (d : List FileName)
    (root : Entries) (n : FileName) :
    (alter change (m :: d) root).lookup n = (root.lookup n).map (alterEntry change m n d) := by
  rw [alter_cons]
  induction root with
  | nil => rfl
  | cons entry root ih =>
    obtain ⟨n', e⟩ := entry
    rw [List.map_cons, lookup_cons_ite, lookup_cons_ite, ih]
    by_cases hn : n = n'
    · rw [if_pos hn, if_pos hn, hn]
      rfl
    · rw [if_neg hn, if_neg hn]

theorem alter_alter (change change' : Entries → Entries) (d : List FileName) (root : Entries) :
    alter change' d (alter change d root) = alter (change' ∘ change) d root := by
  induction d generalizing root with
  | nil => rfl
  | cons m d ih =>
    simp only [alter_cons, List.map_map]
    refine List.map_congr_left fun entry _ => ?_
    obtain ⟨n, e⟩ := entry
    cases e with
    | directory inner => by_cases hm : n = m <;> simp [alterEntry, hm, ih]
    | _ => rfl

theorem directory?_alter (change : Entries → Entries) (h : directory? d root = some es) :
    directory? d (alter change d root) = some (change es) := by
  induction d generalizing root with
  | nil =>
    cases h
    rfl
  | cons m d ih =>
    obtain ⟨inner, hm, hd⟩ := directory?_cons.mp h
    refine directory?_cons.mpr ⟨alter change d inner, ?_, ih hd⟩
    simp [lookup_alter_cons, hm, alterEntry]

/-- Whether a change of a directory is one of files only: wherever it makes a difference there is a
file or nothing, before and behind. -/
def ChangesFiles (change : Entries → Entries) (es : Entries) : Prop :=
  ∀ n, (change es).lookup n = es.lookup n ∨
    (∀ e, es.lookup n = some e → e.IsFile) ∧ ∀ e, (change es).lookup n = some e → e.IsFile

/-- What is no file is still there after the change, though a directory may hold something else. -/
theorem entryAt_alter {change : Entries → Entries} (hchange : ChangesFiles change es)
    (hd : directory? d root = some es) {p : List FileName} {e : FileEntry} (he : ¬e.IsFile)
    (h : entryAt root p name = some e) :
    ∃ e', entryAt (alter change d root) p name = some e' ∧ e'.shape = e.shape := by
  induction p generalizing root d with
  | nil =>
    have h : root.lookup name = some e := h
    cases d with
    | nil =>
      cases hd
      rcases hchange name with hsame | ⟨hfile, _⟩
      · exact ⟨e, hsame.trans h, rfl⟩
      · exact absurd (hfile e h) he
    | cons m d =>
      refine ⟨alterEntry change m name d e, ?_, ?_⟩
      · exact (lookup_alter_cons change m d root name).trans (by rw [h]; rfl)
      · cases e with
        | directory inner => by_cases hm : name = m <;> simp [alterEntry, hm, FileEntry.shape]
        | _ => rfl
  | cons n p ih =>
    obtain ⟨inner, hn, hp⟩ := entryAt_cons.mp h
    cases d with
    | nil =>
      cases hd
      rcases hchange n with hsame | ⟨hfile, _⟩
      · exact ⟨e, entryAt_cons.mpr ⟨inner, hsame.trans hn, hp⟩, rfl⟩
      · exact absurd (hfile _ hn) id
    | cons m d =>
      have hlookup := lookup_alter_cons change m d root n
      rw [hn, Option.map_some, alterEntry] at hlookup
      split at hlookup
      · rename_i hm
        subst hm
        obtain ⟨inner', hm, hd⟩ := directory?_cons.mp hd
        obtain rfl : inner = inner' := by simpa [hn] using hm
        obtain ⟨e', he', hshape⟩ := ih hd hp
        exact ⟨e', entryAt_cons.mpr ⟨_, hlookup, he'⟩, hshape⟩
      · exact ⟨e, entryAt_cons.mpr ⟨inner, hlookup, hp⟩, rfl⟩

theorem directory?_concat : directory? (dir ++ [name]) root = some es ↔
    entryAt root dir name = some (.directory es) := by
  rw [directory?_append, entryAt]
  rcases directory? dir root with _ | inner
  · simp
  · have hnil : ∀ root, directory? [] root = some root := fun _ => rfl
    simp [directory?_cons, hnil]

/-- A change of files in a directory leads no path to a directory astray. -/
theorem Arrives.alter {change : Entries → Entries} {p : List FileName}
    (h : Arrives root links dir rest p) (hchange : ChangesFiles change es)
    (hd : directory? d root = some es) :
    Arrives (alter change d root) links dir rest p := by
  induction h with
  | @done links dir hsome =>
    refine .done ?_
    rcases List.eq_nil_or_concat' dir with rfl | ⟨dir, n, rfl⟩
    · rfl
    · obtain ⟨inner, hinner⟩ := Option.isSome_iff_exists.mp hsome
      obtain ⟨e', he', hshape⟩ := entryAt_alter hchange hd id (directory?_concat.mp hinner)
      cases e' with
      | directory inner' => rw [directory?_concat.mpr he', Option.isSome_some]
      | _ => cases hshape
  | stay _ ih => exact .stay ih
  | up _ ih => exact .up ih
  | into hinto he _ ih =>
    obtain ⟨e', he', hshape⟩ := entryAt_alter hchange hd id he
    cases e' with
    | directory inner' => exact .into hinto he' ih
    | _ => cases hshape
  | across hinto he _ ih =>
    obtain ⟨e', he', hshape⟩ := entryAt_alter hchange hd id he
    cases e' with
    | link target' =>
      cases hshape
      exact .across hinto he' ih
    | _ => cases hshape

/-! ## 3. Paths to a directory, and to what it holds -/

/-- A slash at the end of a path asks for a directory, which is what a directory is. -/
theorem Arrives.unslash (h : Arrives root links dir (rest ++ [here]) d) :
    Arrives root links dir rest d := by
  generalize hparts : rest ++ [here] = parts at h
  induction h generalizing rest with
  | done _ => simp at hparts
  | @stay links dir rest' d h ih =>
    cases rest with
    | nil =>
      obtain rfl : [] = rest' := by simpa using hparts
      exact h
    | cons name rest =>
      obtain ⟨rfl, hrest⟩ := List.cons.inj hparts
      exact .stay (ih hrest)
  | up _ ih =>
    cases rest with
    | nil => exact absurd (List.cons.inj hparts).1 here_ne_above
    | cons name rest =>
      obtain ⟨rfl, hrest⟩ := List.cons.inj hparts
      exact .up (ih hrest)
  | into hinto he _ ih =>
    cases rest with
    | nil => exact absurd (List.cons.inj hparts).1.symm hinto.1
    | cons name rest =>
      obtain ⟨rfl, hrest⟩ := List.cons.inj hparts
      exact .into hinto he (ih hrest)
  | across hinto he _ ih =>
    cases rest with
    | nil => exact absurd (List.cons.inj hparts).1.symm hinto.1
    | cons name rest =>
      obtain ⟨rfl, rfl⟩ := List.cons.inj hparts
      exact .across hinto he (ih (List.append_assoc _ _ _))

/-- Whether a text is one part of a path: it is not empty, and no slash is in it. -/
def IsSinglePart (text : String) : Prop := text ≠ "" ∧ '/' ∉ text.toList

theorem pieces_slash (text : List Char) (more : List Char) :
    Text.pieces (· == '/') (text ++ '/' :: more) =
      Text.pieces (· == '/') text ++ Text.pieces (· == '/') more := by
  simp only [Text.pieces_eq_splitOnP]
  exact List.splitOnP_append_cons text more rfl

theorem pieces_single {text : String} (htext : IsSinglePart text) :
    Text.pieces (· == '/') text.toList = [text.toList] := by
  rw [Text.pieces_eq_splitOnP]
  refine List.splitOnP_eq_singleton fun c hc => ?_
  simpa using fun he : c = '/' => htext.2 (he ▸ hc)

/-- A name behind a path is one more part; a slash at the end of the path is that before it. -/
theorem parts_joinPath {base text : String} (hbase : base ≠ "") (htext : IsSinglePart text) :
    ∃ front, (parts base = front ∨ parts base = front ++ [here]) ∧
      parts (joinPath base text) = front ++ [Text.utf8 text] := by
  have hhead : text.toList.head? ≠ some '/' := fun h => htext.2 (List.mem_of_mem_head? h)
  have hlast : ∀ front : List Char, (front ++ text.toList).getLast? ≠ some '/' := by
    intro front h
    rw [List.getLast?_append_of_ne_nil _ (by simpa using htext.1)] at h
    exact htext.2 (List.mem_of_getLast? h)
  have hfilter : [text.toList].filter (· ≠ []) = [text.toList] := by simpa using htext.1
  rw [joinPath, if_neg hhead]
  by_cases hslash : base.toList.getLast? = some '/'
  · obtain ⟨front, hfront⟩ := List.getLast?_eq_some_iff.mp hslash
    refine ⟨((Text.pieces (· == '/') front).filter (· ≠ [])).map fun piece =>
      Text.utf8 (String.ofList piece), .inr ?_, ?_⟩
    · rw [parts, if_pos hslash, hfront, pieces_slash]
      simp [Text.pieces]
    · rw [if_pos (by simp [hslash]), parts, String.toList_append, if_neg (hlast _), hfront,
        List.append_assoc, List.singleton_append, pieces_slash, pieces_single htext,
        List.filter_append, hfilter, List.map_append]
      simp
  · refine ⟨parts base, .inl rfl, ?_⟩
    rw [if_neg (by simp [hbase, hslash]), parts, parts, if_neg hslash]
    have hpath : (base ++ "/" ++ text).toList = base.toList ++ '/' :: text.toList := by
      simp
    have hend : (base.toList ++ '/' :: text.toList).getLast? ≠ some '/' := by
      simpa using hlast (base.toList ++ ['/'])
    rw [hpath, if_neg hend, pieces_slash, pieces_single htext, List.filter_append, hfilter,
      List.map_append]
    simp

/-- A path starts where the path to its directory does. -/
theorem start_joinPath {base text : String} (hbase : base ≠ "") (htext : IsSinglePart text)
    (dir : List FileName) : start (joinPath base text) dir = start base dir := by
  have hhead : text.toList.head? ≠ some '/' := fun h => htext.2 (List.mem_of_mem_head? h)
  obtain ⟨c, more, hbase⟩ := List.exists_cons_of_ne_nil (mt String.toList_eq_nil_iff.mp hbase)
  have hjoin : isAbsolute (joinPath base text) = isAbsolute base := by
    rw [joinPath, if_neg hhead]
    split <;> simp [isAbsolute, hbase]
  rw [start, start, hjoin]

/-- Whether a path is looked up at all. -/
def IsUsable (path : String) : Prop :=
  path.toList.contains '\x00' = false ∧ path ≠ "" ∧ (Text.utf8 path).length < 4096

theorem resolve_ok {follow : Bool} {path : String} {target : Target}
    (h : resolve root dir follow path = .ok target) :
    IsUsable path ∧ walk root follow 40 (start path dir) (parts path) = .ok target := by
  rw [resolve] at h
  split_ifs at h with hnul hempty hlen
  exact ⟨⟨(Bool.not_eq_true _).mp hnul, hempty, Nat.not_le.mp hlen⟩, h⟩

theorem Arrives.isName {target : Target} (h : Arrives root links dir rest d)
    (hdots : name ≠ here ∧ name ≠ above) {follow : Bool}
    (hwalk : walk root follow links dir (rest ++ [name]) = .ok target) : IsName name := by
  obtain ⟨left, hlast⟩ := h.walk_append name follow
  refine ⟨hdots.1, hdots.2, Nat.not_lt.mp fun hlong => ?_⟩
  rw [hwalk, walk, if_neg hdots.1, if_neg hdots.2, if_pos hlong] at hlast
  cases hlast

end FileTree

namespace FileStore

open FileTree

variable {s : FileStore} {path text : String} {d : List FileName} {es : Entries}

/-- Whether a path leads to a directory and to what it holds. -/
def Holds (s : FileStore) (path : String) (d : List FileName) (es : Entries) : Prop :=
  s.follow path = .ok (.entry d (.directory es))

/-- The same files but for those in one directory. -/
def altered (change : Entries → Entries) (d : List FileName) (s : FileStore) : FileStore :=
  { s with root := alter change d s.root }

theorem holds_iff : s.Holds path d es ↔ IsUsable path ∧
    Arrives s.root 40 (start path s.current) (parts path) d ∧
      directory? d s.root = some es := by
  rw [Holds, FileStore.follow, ← walk_eq_directory]
  constructor
  · exact resolve_ok
  · rintro ⟨husable, hwalk⟩
    rw [resolve_eq_walk _ _ _ husable, hwalk]

theorem Holds.altered {change : Entries → Entries} (h : s.Holds path d es)
    (hchange : ChangesFiles change es) : (s.altered change d).Holds path d (change es) := by
  obtain ⟨husable, harrives, hd⟩ := holds_iff.mp h
  exact holds_iff.mpr ⟨husable, harrives.alter hchange hd, directory?_alter change hd⟩

theorem Holds.unique {d' : List FileName} {es' : Entries} (h : s.Holds path d es)
    (h' : s.Holds path d' es') : d = d' ∧ es = es' := by
  rw [Holds, h'] at h
  cases h
  exact ⟨rfl, rfl⟩

/-- What a name in a directory stands for. -/
def target (d : List FileName) (es : Entries) (name : FileName) : Target :=
  match es.lookup name with
  | none => .vacant d name
  | some e => .entry (d ++ [name]) e

/-- The way to a name in a directory. -/
theorem Holds.arrives (h : s.Holds path d es) (htext : IsSinglePart text) :
    ∃ front, Arrives s.root 40 (start (joinPath path text) s.current) front d ∧
      parts (joinPath path text) = front ++ [Text.utf8 text] := by
  obtain ⟨husable, harrives, -⟩ := holds_iff.mp h
  obtain ⟨front, hparts, hjoin⟩ := parts_joinPath husable.2.1 htext
  refine ⟨front, ?_, hjoin⟩
  rw [start_joinPath husable.2.1 htext]
  rcases hparts with hparts | hparts
  · exact hparts ▸ harrives
  · exact (hparts ▸ harrives).unslash

theorem Holds.resolve (h : s.Holds path d es) (htext : IsSinglePart text)
    (husable : IsUsable (joinPath path text)) (hname : IsName (Text.utf8 text)) {follow : Bool}
    (hlink : follow = false ∨ ∀ target, es.lookup (Text.utf8 text) ≠ some (.link target)) :
    resolve s.root s.current follow (joinPath path text) =
      .ok (target d es (Text.utf8 text)) := by
  obtain ⟨front, harrives, hparts⟩ := h.arrives htext
  obtain ⟨left, hlast⟩ := harrives.walk_append (Text.utf8 text) follow
  rw [resolve_eq_walk _ _ _ husable, hparts, hlast,
    walk_last (holds_iff.mp h).2.2 hname hlink]
  rfl

/-- A path that leads somewhere below a directory is usable, and its last part is a name. -/
theorem Holds.usable (h : s.Holds path d es) (htext : IsSinglePart text)
    (hdots : text ≠ "." ∧ text ≠ "..") {follow : Bool} {t : Target}
    (hresolve : FileTree.resolve s.root s.current follow (joinPath path text) = .ok t) :
    IsUsable (joinPath path text) ∧ IsName (Text.utf8 text) := by
  obtain ⟨husable, hwalk⟩ := resolve_ok hresolve
  obtain ⟨front, harrives, hparts⟩ := h.arrives htext
  rw [hparts] at hwalk
  have hname : Text.utf8 text ≠ here ∧ Text.utf8 text ≠ above :=
    ⟨fun he => hdots.1 (Text.utf8_injective he), fun he => hdots.2 (Text.utf8_injective he)⟩
  exact ⟨husable, harrives.isName hname hwalk⟩

end FileStore

/-! ## 4. Files that go -/

namespace FileTree

variable {es : Entries} {names : List FileName} {n : FileName} {e : FileEntry}

/-- The names in a directory are distinct, and there is no slash in them. -/
structure IsTidy (es : Entries) : Prop where
  distinct : (es.map (·.1)).Nodup
  slashless : ∀ entry ∈ es, (47 : UInt8) ∉ entry.1

/-- The entries without those of some names. -/
def without (names : List FileName) (es : Entries) : Entries := es.filter (·.1 ∉ names)

theorem mem_without : (n, e) ∈ without names es ↔ (n, e) ∈ es ∧ n ∉ names := by
  simp [without]

theorem without_nil (es : Entries) : without [] es = es := by
  simp [without]

theorem dropEntry_eq_without (n : FileName) : dropEntry n = without [n] := by
  funext es
  simp [without, dropEntry]

theorem without_without (names names' : List FileName) (es : Entries) :
    without names' (without names es) = without (names ++ names') es := by
  simp [without, Bool.and_comm]

theorem IsTidy.without (h : IsTidy es) (names : List FileName) :
    IsTidy (FileTree.without names es) :=
  ⟨h.distinct.sublist (List.filter_sublist.map _), fun entry hentry =>
    h.slashless entry (List.mem_of_mem_filter hentry)⟩

theorem lookup_without (names : List FileName) (es : Entries) (n : FileName) :
    (without names es).lookup n = if n ∈ names then none else es.lookup n := by
  induction es with
  | nil => simp [without]
  | cons entry es ih =>
    obtain ⟨n', e⟩ := entry
    rw [without] at ih ⊢
    by_cases hn' : n' ∈ names
    · rw [List.filter_cons_of_neg (by simpa using hn'), ih, lookup_cons_ite]
      by_cases hn : n = n'
      · rw [if_pos (hn ▸ hn'), if_pos (hn ▸ hn')]
      · rw [if_neg hn]
    · rw [List.filter_cons_of_pos (by simpa using hn'), lookup_cons_ite, lookup_cons_ite, ih]
      by_cases hn : n = n'
      · rw [if_pos hn, if_pos hn, if_neg (hn ▸ hn')]
      · rw [if_neg hn, if_neg hn]

theorem IsTidy.lookup (h : IsTidy es) (he : (n, e) ∈ es) : es.lookup n = some e :=
  lookup_of_mem h.distinct he

theorem IsTidy.lookup_iff (h : IsTidy es) : es.lookup n = some e ↔ (n, e) ∈ es :=
  SupervisedWorker.lookup_iff h.distinct

theorem alter_id (d : List FileName) (root : Entries) : alter id d root = root := by
  induction d generalizing root with
  | nil => rfl
  | cons m d ih =>
    rw [alter_cons]
    refine (List.map_congr_left fun entry _ => ?_).trans (List.map_id root)
    obtain ⟨n, e⟩ := entry
    cases e with
    | directory inner => simp [alterEntry, ih]
    | _ => rfl

end FileTree

namespace FileStore

open FileTree

variable {s : FileStore} {path text : String} {d : List FileName} {es : Entries}

/-- The same files without some of those in a directory. -/
def without (d : List FileName) (names : List FileName) (s : FileStore) : FileStore :=
  s.altered (FileTree.without names) d

theorem without_nil (d : List FileName) (s : FileStore) : s.without d [] = s := by
  have hid : FileTree.without [] = id := funext FileTree.without_nil
  rw [without, altered, hid, alter_id]

theorem without_without (d : List FileName) (names names' : List FileName) (s : FileStore) :
    (s.without d names).without d names' = s.without d (names ++ names') := by
  have hcomp : FileTree.without names' ∘ FileTree.without names =
      FileTree.without (names ++ names') := funext (FileTree.without_without names names')
  simp only [without, altered, alter_alter, hcomp]

/-- Files go from a directory, and the paths to it lead there as before. -/
theorem Holds.without (h : s.Holds path d es) {names : List FileName}
    (hfiles : ∀ n ∈ names, ∀ e, es.lookup n = some e → e.IsFile) :
    (s.without d names).Holds path d (FileTree.without names es) := by
  refine h.altered fun n => ?_
  by_cases hn : n ∈ names
  · refine .inr ⟨hfiles n hn, fun e he => ?_⟩
    rw [lookup_without, if_pos hn] at he
    cases he
  · exact .inl (by rw [lookup_without, if_neg hn])

/-- A file is removed from its directory by its path. -/
theorem Holds.remove (h : s.Holds path d es) (htext : IsSinglePart text)
    (husable : IsUsable (joinPath path text) ∧ IsName (Text.utf8 text)) {id : Nat} {modified : Int}
    {content : String} (he : es.lookup (Text.utf8 text) = some (.file id modified content)) :
    s.remove (joinPath path text) = (.ok (), s.without d [Text.utf8 text]) := by
  have hstay : s.stay (joinPath path text) =
      .ok (.entry (d ++ [Text.utf8 text]) (.file id modified content)) := by
    rw [FileStore.stay, h.resolve htext husable.1 husable.2 (.inl rfl), target, he]
  rw [FileStore.remove, hstay]
  simp [drop, splitLast, dropEntry_eq_without, FileStore.without, FileStore.altered]

end FileStore

/-! ## 5. Files that come -/

theorem FileTree.lookup_putEntry (name n : FileName) (e : FileEntry) (es : Entries) :
    (putEntry name e es).lookup n = if n = name then some e else es.lookup n := by
  induction es with
  | nil => exact lookup_cons_ite name e [] n
  | cons entry es ih =>
    obtain ⟨n', old⟩ := entry
    rw [putEntry]
    by_cases hname : n' = name
    · rw [if_pos hname, lookup_cons_ite, lookup_cons_ite, hname]
      by_cases hn : n = name
      · rw [if_pos hn, if_pos hn]
      · rw [if_neg hn, if_neg hn, if_neg hn]
    · rw [if_neg hname, lookup_cons_ite, lookup_cons_ite, ih]
      by_cases hn : n = n'
      · rw [if_pos hn, if_pos hn, if_neg (hn ▸ hname)]
      · rw [if_neg hn, if_neg hn]

namespace FileStore

open FileTree

variable {s : FileStore} {path text : String} {d : List FileName} {es : Entries}

/-- A file is written where nothing else is, and the paths to its directory lead there as before. -/
theorem Holds.write (h : s.Holds path d es) (htext : IsSinglePart text)
    (husable : IsUsable (joinPath path text) ∧ IsName (Text.utf8 text))
    (hfile : ∀ e, es.lookup (Text.utf8 text) = some e → e.IsFile) (content : String)
    (modified : Int) :
    ∃ id, (s.write (joinPath path text) content modified).2.Holds path d
      (putEntry (Text.utf8 text) (.file id modified content) es) := by
  have hput : ∀ id, (s.put d (Text.utf8 text) (.file id modified content)).Holds path d
      (putEntry (Text.utf8 text) (.file id modified content) es) := by
    refine fun id => h.altered fun n => ?_
    by_cases hn : n = Text.utf8 text
    · refine .inr ⟨fun e he => hfile e (hn ▸ he), fun e he => ?_⟩
      rw [lookup_putEntry, if_pos hn] at he
      cases he
      trivial
    · exact .inl (by rw [lookup_putEntry, if_neg hn])
  have hfollow : s.follow (joinPath path text) = .ok (target d es (Text.utf8 text)) :=
    h.resolve htext husable.1 husable.2 (.inr fun target he => hfile _ he)
  rw [FileStore.write, hfollow, target]
  rcases he : es.lookup (Text.utf8 text) with _ | (⟨id, _, _⟩ | _ | _)
  · exact ⟨s.nextId, hput s.nextId⟩
  · refine ⟨id, ?_⟩
    have hsplit : splitLast (d ++ [Text.utf8 text]) = some (d, Text.utf8 text) := by
      simp [splitLast]
    simpa only [hsplit] using hput id
  · exact (hfile _ he).elim
  · exact (hfile _ he).elim

/-- What is told of a name in a directory that is no link. -/
theorem Holds.probe (h : s.Holds path d es) (htext : IsSinglePart text)
    (husable : IsUsable (joinPath path text) ∧ IsName (Text.utf8 text))
    (hlink : ∀ target, es.lookup (Text.utf8 text) ≠ some (.link target)) :
    s.probe (joinPath path text) =
      if (es.lookup (Text.utf8 text)).isSome then .ok () else .error .missing := by
  rw [FileStore.probe, FileStore.follow, h.resolve htext husable.1 husable.2 (.inr hlink), target]
  rcases es.lookup (Text.utf8 text) with _ | e <;> rfl

theorem Holds.isThere (h : s.Holds path d es) (htext : IsSinglePart text)
    (husable : IsUsable (joinPath path text) ∧ IsName (Text.utf8 text)) :
    s.isThere (joinPath path text) = (es.lookup (Text.utf8 text)).isSome := by
  rw [FileStore.isThere, FileStore.stay, h.resolve htext husable.1 husable.2 (.inl rfl), target]
  rcases es.lookup (Text.utf8 text) with _ | e <;> rfl

end FileStore

end SupervisedWorker
