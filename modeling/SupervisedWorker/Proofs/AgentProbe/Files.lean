import Mathlib.Data.List.Basic
import SupervisedWorker.Proofs.AgentProbe
import SupervisedWorker.Proofs.Text.Lines

/-!
# What the probe tells about files

The probe over a tree of files and the locks on them, where nothing fails but the opening of a
file, which may be refused. The verdict is then a matter of one path: it is the agent's own or that
of the first probe of the same agent id in the directory, and the agent lives if something is there
that is locked or cannot be opened. The lock that the probe takes to find out is given back.

Results:
1. `tryLock_unlock`: a lock that is taken and given back leaves the other locks as they were.
2. `getLast?_parts`: the name at the end of a path.
3. `Picked.ownName`, `Picked.sameAgent`: a picked probe is that of the agent's id and of no other.
4. `check_refusing`, `life_of_probe`: what is told about the agent, however often it is asked.
-/

namespace SupervisedWorker

/-! ## 1. Files and locks -/

namespace FileStore

/-- The calls to the files in memory, where the opening of some of them is refused. -/
def refusing (refuse : String → FileStore → Option FileError) : FileSystem FileStore :=
  { system with
    openFile := fun path s =>
      match refuse path s with
      | some e => (.error e, s)
      | none => (s.openFile path, s) }

def Leads (s : FileStore) (path : String) : Prop :=
  ∃ names e, s.follow path = .ok (.entry names e)

def Locked (s : FileStore) (file : Nat) : Prop := ∃ lock ∈ s.locks, lock.file = file

variable {s : FileStore} {path : String} {file : Nat}

theorem openFile_refusing (refuse : String → FileStore → Option FileError) (path : String)
    (s : FileStore) : ((refusing refuse).openFile path s).2 = s := by
  simp only [refusing]
  cases refuse path s <;> rfl

theorem probe_eq_ok : s.probe path = .ok () ↔ s.Leads path := by
  rw [probe, Leads]
  rcases s.follow path with e | ⟨names, e⟩ | ⟨dir, name⟩ <;> simp

theorem list_eq_ok {names : List FileName} : s.list path = .ok names ↔
    ∃ dir entries, s.follow path = .ok (.entry dir (.directory entries)) ∧
      names = entries.map (·.1) := by
  rw [list]
  rcases s.follow path with e | ⟨dir, _ | _ | entries⟩ | ⟨dir, name⟩ <;> simp [eq_comm]

theorem isLocked_iff : s.isLocked file = true ↔ s.Locked file := by
  simp [isLocked, Locked]

theorem tryLock_locked (h : s.Locked file) : s.tryLock file = (false, s) := by
  rw [tryLock, if_pos (isLocked_iff.mpr h)]

/-- A free lock is taken, and given back with no other. -/
theorem tryLock_unlock (h : ¬s.Locked file) :
    (s.tryLock file).1 = true ∧ (s.tryLock file).2.unlock file = s := by
  have hothers : s.locks.filter (fun l => !(l.file == file && l.holder.isNone)) = s.locks := by
    rw [List.filter_eq_self]
    intro lock hlock
    have hfile : lock.file ≠ file := fun he => h ⟨lock, hlock, he⟩
    simp [hfile]
  rw [tryLock, if_neg (mt isLocked_iff.mp h)]
  refine ⟨rfl, ?_⟩
  rw [unlock, List.filter_append, hothers]
  simp

end FileStore

/-! ## 2. The name at the end of a path -/

theorem Text.pieces_eq_splitOnP (p : Char → Bool) (s : List Char) : pieces p s = s.splitOnP p := by
  induction s with
  | nil => rfl
  | cons c s ih =>
    rw [pieces, ih, List.splitOnP_cons_eq_if_modifyHead]
    split
    · rfl
    · cases h : s.splitOnP p with
      | nil => exact absurd h (List.splitOnP_ne_nil p s)
      | cons piece rest => rfl

namespace FileTree

/-- What stands behind the last slash of a path is its last part. -/
theorem getLast?_parts {path : String} {name : List Char}
    (hpath : path.toList = name ∨ ∃ base, path.toList = base ++ '/' :: name)
    (hslash : '/' ∉ name) (hname : name ≠ []) :
    (parts path).getLast? = some (Text.utf8 (String.ofList name)) := by
  have hlast : name.getLast? ≠ some '/' := fun h => hslash (List.mem_of_getLast? h)
  have hone : name.splitOnP (· == '/') = [name] := by
    refine List.splitOnP_eq_singleton fun c hc => ?_
    simpa using fun he : c = '/' => hslash (he ▸ hc)
  -- The slash before the name is the last one of the path, if there is any.
  obtain ⟨front, hpieces⟩ :
      ∃ front, Text.pieces (· == '/') path.toList = front ++ [name] := by
    rcases hpath with hpath | ⟨base, hpath⟩
    · exact ⟨[], by rw [hpath, Text.pieces_eq_splitOnP, hone, List.nil_append]⟩
    · refine ⟨base.splitOnP (· == '/'), ?_⟩
      rw [hpath, Text.pieces_eq_splitOnP, List.splitOnP_append_cons base name rfl, hone]
  have hend : path.toList.getLast? ≠ some '/' := by
    rcases hpath with hpath | ⟨base, hpath⟩
    · rwa [hpath]
    · cases hn : name.getLast? with
      | none => exact absurd (List.getLast?_eq_none_iff.mp hn) hname
      | some c =>
        rw [hn] at hlast
        rw [hpath, List.getLast?_append, List.getLast?_cons, hn]
        simpa using hlast
  rw [parts, if_neg hend, hpieces, List.filter_append, List.map_append, List.getLast?_append]
  simp [hname]

/-- A path that ends in a text without slashes has this text at the end of its last part. -/
theorem exists_lastName {path : String} {before tail : List Char}
    (hpath : path.toList = before ++ tail) (hslash : '/' ∉ tail) (htail : tail ≠ []) :
    ∃ head, (parts path).getLast? = some (Text.utf8 (String.ofList (head ++ tail))) := by
  by_cases hbefore : '/' ∈ before
  · obtain ⟨head, base, hsplit, hhead⟩ :=
      List.eq_append_cons_of_mem (List.mem_reverse.mpr hbefore)
    have hsplit : before = base.reverse ++ '/' :: head.reverse := by
      simpa using congrArg List.reverse hsplit
    refine ⟨head.reverse, getLast?_parts (.inr ⟨base.reverse, ?_⟩) ?_ (by simp [htail])⟩
    · rw [hpath, hsplit, List.append_assoc, List.cons_append]
    · simpa using ⟨hhead, hslash⟩
  · exact ⟨before, getLast?_parts (.inl hpath) (by simp [hbefore, hslash]) (by simp [htail])⟩

end FileTree

/-! ## 3. Whose probe is picked -/

theorem suffix_joinPath (base path : String) : path.toList <:+ (joinPath base path).toList := by
  rw [joinPath]
  split
  · exact List.suffix_refl _
  · split
    · rw [String.toList_append]
      exact List.suffix_append _ _
    · rw [String.toList_append]
      exact List.suffix_append _ _

namespace AgentProbe

open FileStore FileTree

/-- Which probe is picked among files: the agent's own if its path leads to something, or else the
first one in the directory that is a probe of the same agent id. -/
inductive Picked (l : WorkLayout) (i : AgentIdentity) (s : FileStore) : String → Prop
  | own : s.Leads (l.probePath i) → Picked l i s (l.probePath i)
  | listed {dir : List FileName} {entries : Entries} {before after : List FileName}
      {name : FileName} {text : String} :
      ¬s.Leads (l.probePath i) →
      s.follow l.agentsDir = .ok (.entry dir (.directory entries)) →
      entries.map (·.1) = before ++ name :: after →
      (∀ other ∈ before, ∀ text, ¬IsProbe l i other text) →
      IsProbe l i name text → Picked l i s (joinPath l.agentsDir text)

variable {refuse : String → FileStore → Option FileError} {l l' : WorkLayout}
  {i j : AgentIdentity} {s s' : FileStore} {path : String}

theorem Picked.suffix (h : Picked l i s path) : ("~" ++ i.agentId).toList <:+ path.toList := by
  cases h with
  | own =>
    refine List.IsSuffix.trans ?_ (suffix_joinPath l.agentsDir (l.probeName i))
    have hname : (l.probeName i).toList =
        (l.probeHead ++ i.serviceId).toList ++ ("~" ++ i.agentId).toList := String.toList_append
    rw [hname]
    exact List.suffix_append _ _
  | listed _ _ _ _ hname => exact hname.2.2.trans (suffix_joinPath _ _)

/-- The name of a picked probe ends with a tilde and the agent's id. -/
theorem Picked.ownName (h : Picked l i s path) (hslash : '/' ∉ i.agentId.toList) :
    ∃ head, (parts path).getLast? = some (Text.utf8 (head ++ "~" ++ i.agentId)) := by
  obtain ⟨before, hpath⟩ := h.suffix
  obtain ⟨head, hlast⟩ := exists_lastName hpath.symm (by simpa using hslash) (by simp)
  refine ⟨String.ofList head, ?_⟩
  rw [hlast, String.ofList_append, String.ofList_toList, String.append_assoc]

theorem eq_of_suffix {c : Char} {t t' : List Char} (h : c :: t <:+ c :: t') (hc : c ∉ t') :
    t = t' := by
  rcases List.suffix_cons_iff.mp h with heq | hin
  · exact (List.cons.inj heq).2
  · exact absurd (hin.subset List.mem_cons_self) hc

/-- A path is picked for one agent id only, whatever is there when it is picked. -/
theorem Picked.sameAgent (h : Picked l i s path) (h' : Picked l' j s' path)
    (htilde : '~' ∉ i.agentId.toList) (htilde' : '~' ∉ j.agentId.toList) :
    i.agentId = j.agentId := by
  rw [← String.toList_inj]
  -- Of two ends of one path, one is the end of the other, and a tilde stands only before an id.
  rcases List.suffix_or_suffix_of_suffix h.suffix h'.suffix with hs | hs
  · exact eq_of_suffix (by simpa using hs) htilde'
  · exact (eq_of_suffix (by simpa using hs) htilde).symm

/-! ## 4. The verdict -/

theorem list_refusing (refuse : String → FileStore → Option FileError) {entries : Entries}
    {dir : List FileName} {p : String}
    (h : s.follow p = .ok (.entry dir (.directory entries))) :
    (refusing refuse).list p s = (.ok ((entries.map (·.1)).map .ok), s) := by
  have hlist : s.list p = .ok (entries.map (·.1)) := list_eq_ok.mpr ⟨dir, entries, h, rfl⟩
  simp only [refusing, FileStore.system, hlist]
  rfl

theorem Picked.chosen (h : Picked l i s path) : Chosen (refusing refuse) l i s path s := by
  cases h with
  | own hleads => exact .exact (congrArg (·, s) (probe_eq_ok.mpr hleads))
  | @listed dir entries before after name text hleads hfollow hsplit hbefore hname =>
    rcases hp : s.probe (l.probePath i) with e | _
    · have hlist := list_refusing refuse hfollow
      rw [hsplit, List.map_append, List.map_cons] at hlist
      refine .listed (congrArg (·, s) hp) hlist ?_ hname
      intro other text ho
      obtain ⟨_, ho, ⟨rfl⟩⟩ := List.mem_map.mp ho
      exact hbefore other ho text
    · exact absurd (probe_eq_ok.mp hp) hleads

theorem Chosen.picked (h : Chosen (refusing refuse) l i s path s') :
    Picked l i s path ∧ s' = s := by
  cases h with
  | exact hprobe =>
    obtain ⟨hok, rfl⟩ := Prod.mk.inj hprobe
    exact ⟨.own (probe_eq_ok.mp hok), rfl⟩
  | @listed e s₁ _ before after name text hprobe hlist hbefore hname =>
    obtain ⟨herror, rfl⟩ := Prod.mk.inj hprobe
    have hleads : ¬s.Leads (l.probePath i) := by
      rw [← probe_eq_ok, herror]
      simp
    rcases hl : s.list l.agentsDir with e | names
    · simp only [refusing, FileStore.system, hl] at hlist
      cases hlist
    · obtain ⟨dir, entries, hfollow, rfl⟩ := list_eq_ok.mp hl
      rw [list_refusing refuse hfollow] at hlist
      obtain ⟨hnames, rfl⟩ := Prod.mk.inj hlist
      obtain ⟨before', rest, hsplit, rfl, hrest⟩ :=
        List.map_eq_append_iff.mp (Except.ok.inj hnames)
      obtain ⟨name', after', rfl, ⟨rfl⟩, rfl⟩ := List.map_eq_cons_iff.mp hrest
      refine ⟨.listed hleads hfollow hsplit ?_ hname, rfl⟩
      intro other ho text
      exact hbefore other text (List.mem_map_of_mem ho)

theorem locate_refusing (refuse : String → FileStore → Option FileError) (l : WorkLayout)
    (i : AgentIdentity) (s : FileStore) : (locate (refusing refuse) l i s).2 = s := by
  have hprobe : (refusing refuse).probe (l.probePath i) s = (s.probe (l.probePath i), s) := rfl
  have hlist : ((refusing refuse).list l.agentsDir s).2 = s := rfl
  rw [locate, hprobe]
  rcases s.probe (l.probePath i) with e | _
  · rcases hnames : (refusing refuse).list l.agentsDir s with ⟨_ | names, s₁⟩ <;>
      simpa [hnames] using hlist
  · rfl

/-- Whether something is at a path that is locked or cannot be opened. -/
def ShowsLife (refuse : String → FileStore → Option FileError) (s : FileStore) (path : String) :
    Prop :=
  s.Leads path ∧ ((∃ e, ((refusing refuse).openFile path s).1 = .error e) ∨
    ∃ file, ((refusing refuse).openFile path s).1 = .ok file ∧ s.Locked file)

theorem not_showsLife : ¬ShowsLife refuse s path ↔ (s.Leads path → ∃ file,
    ((refusing refuse).openFile path s).1 = .ok file ∧ ∀ lock ∈ s.locks, lock.file ≠ file) := by
  rw [ShowsLife]
  rcases ((refusing refuse).openFile path s).1 with e | file
  · simp
  · simp [Locked]

theorem checkPath_refusing (refuse : String → FileStore → Option FileError) (path : String)
    (s : FileStore) : (checkPath (refusing refuse) path s).2 = s ∧
    ((checkPath (refusing refuse) path s).1 = .alive ↔ ShowsLife refuse s path) := by
  have hprobe : (refusing refuse).probe path s = (s.probe path, s) := rfl
  rw [checkPath, hprobe, ShowsLife, ← probe_eq_ok]
  rcases s.probe path with e | _
  · simp
  · have hstate := openFile_refusing refuse path s
    rcases hopen : (refusing refuse).openFile path s with ⟨e | file, s₁⟩
    · rw [hopen] at hstate
      simpa [hopen] using hstate
    · rw [hopen] at hstate
      obtain rfl : s₁ = s := hstate
      have hlock : (refusing refuse).tryLock file s₁ =
          (.ok (s₁.tryLock file).1, (s₁.tryLock file).2) := rfl
      by_cases hlocked : s₁.Locked file
      · simp [hopen, hlock, tryLock_locked hlocked, hlocked]
      · obtain ⟨htaken, hgiven⟩ := tryLock_unlock hlocked
        have hunlock : (refusing refuse).unlock file (s₁.tryLock file).2 = s₁ := hgiven
        simp [hopen, hlock, htaken, hlocked, hunlock]

/-- The check tells that the agent lives if the picked probe shows it, and leaves all as it is. -/
theorem check_refusing (refuse : String → FileStore → Option FileError) (l : WorkLayout)
    (i : AgentIdentity) (s : FileStore) : (check (refusing refuse) l i s).2 = s ∧
    ((check (refusing refuse) l i s).1 = .alive ↔
      ∃ path, Picked l i s path ∧ ShowsLife refuse s path) := by
  have hstate := locate_refusing refuse l i s
  rcases hlocate : locate (refusing refuse) l i s with ⟨_ | path, s₁⟩
  · rw [hlocate] at hstate
    rw [check, hlocate]
    refine ⟨hstate, iff_of_false (by simp) ?_⟩
    rintro ⟨path, hpicked, _⟩
    exact hpicked.chosen.located hlocate
  · have hchosen := chosen_iff.mpr hlocate
    obtain ⟨hpicked, rfl⟩ := Chosen.picked hchosen
    obtain ⟨hsame, halive⟩ := checkPath_refusing refuse path s₁
    rw [check, hlocate]
    refine ⟨hsame, halive.trans ⟨fun h => ⟨path, hpicked, h⟩, ?_⟩⟩
    rintro ⟨path', hpicked', h⟩
    rwa [← (hpicked'.chosen.unique hchosen).1]

variable {σ : Type}

/-- The verdicts when one check follows the other. -/
def checks (fs : FileSystem σ) (l : WorkLayout) (i : AgentIdentity) : Nat → σ → List AgentLife × σ
  | 0, s => ([], s)
  | n + 1, s =>
    let (life, s) := check fs l i s
    let (lives, s) := checks fs l i n s
    (life :: lives, s)

theorem checks_of_unchanged {fs : FileSystem σ} {s : σ} (h : (check fs l i s).2 = s) (n : Nat) :
    checks fs l i n s = (List.replicate n (check fs l i s).1, s) := by
  induction n with
  | zero => rfl
  | succ n ih => simp only [checks, h, ih, List.replicate_succ]

/-- What the probe tells where nothing fails but the opening of files. The agent lives if and only
if the picked probe is something that is locked or cannot be opened. The name of the picked probe
ends with a tilde and the agent's id, so it is picked for no other agent id. The files and the
locks stay as they are, so the agent may be asked about as often as one likes. -/
theorem life_of_probe (refuse : String → FileStore → Option FileError) (l : WorkLayout)
    (i : AgentIdentity) (s : FileStore)
    (hid : '~' ∉ i.agentId.toList ∧ '/' ∉ i.agentId.toList) :
    let fs := FileStore.refusing refuse
    ((check fs l i s).1 = .alive ↔ ∃ path, Picked l i s path ∧ s.Leads path ∧
      ((∃ e, (fs.openFile path s).1 = .error e) ∨
        ∃ file, (fs.openFile path s).1 = .ok file ∧ ∃ lock ∈ s.locks, lock.file = file)) ∧
    ((check fs l i s).1 = .dead ↔ ∀ path, Picked l i s path → s.Leads path →
      ∃ file, (fs.openFile path s).1 = .ok file ∧ ∀ lock ∈ s.locks, lock.file ≠ file) ∧
    (∀ path, Picked l i s path →
      (∃ head, (parts path).getLast? = some (Text.utf8 (head ++ "~" ++ i.agentId))) ∧
      ∀ l' j s', '~' ∉ j.agentId.toList → Picked l' j s' path → j.agentId = i.agentId) ∧
    (check fs l i s).2 = s ∧
    ∀ n, checks fs l i n s = (List.replicate n (check fs l i s).1, s) := by
  intro fs
  obtain ⟨hsame, halive⟩ := check_refusing refuse l i s
  refine ⟨halive, ?_, ?_, hsame, checks_of_unchanged hsame⟩
  · have hdead : (check fs l i s).1 = .dead ↔ ¬(check fs l i s).1 = .alive := by
      cases (check fs l i s).1 <;> simp
    rw [hdead, halive, not_exists]
    refine forall_congr' fun path => ?_
    rw [not_and, not_showsLife]
  · intro path hpicked
    refine ⟨hpicked.ownName hid.2, ?_⟩
    intro l' j s' htilde hpicked'
    exact hpicked'.sameAgent hpicked htilde hid.1

/-- The agent with the id 2 lives under another service id, and there is a probe of the agent with
the id 12 that nobody has locked. The worker stands somewhere else. -/
def siblings : FileStore :=
  ⟨[(Text.utf8 "home", .directory []), (Text.utf8 "srv", .directory [(Text.utf8 "agents",
    .directory [(Text.utf8 "gsa-svc~12", .file 0 0 ""), (Text.utf8 "gsa-other~2", .file 1 0 "")])])],
    [⟨1, some "agent", false⟩], 2, 0, [Text.utf8 "home"]⟩

theorem follow_siblings :
    siblings.follow "/srv/agents/gsa-svc~2" =
      .ok (.vacant [Text.utf8 "srv", Text.utf8 "agents"] (Text.utf8 "gsa-svc~2")) ∧
    siblings.follow "/srv/agents" = .ok (.entry [Text.utf8 "srv", Text.utf8 "agents"] (.directory
      [(Text.utf8 "gsa-svc~12", .file 0 0 ""), (Text.utf8 "gsa-other~2", .file 1 0 "")])) ∧
    siblings.follow "/srv/agents/gsa-other~2" = .ok (.entry
      [Text.utf8 "srv", Text.utf8 "agents", Text.utf8 "gsa-other~2"] (.file 1 0 "")) := by
  have hown : parts "/srv/agents/gsa-svc~2" =
      [Text.utf8 "srv", Text.utf8 "agents", Text.utf8 "gsa-svc~2"] := by
    decide +kernel
  have hagents : parts "/srv/agents" = [Text.utf8 "srv", Text.utf8 "agents"] := by decide +kernel
  have hother : parts "/srv/agents/gsa-other~2" =
      [Text.utf8 "srv", Text.utf8 "agents", Text.utf8 "gsa-other~2"] := by
    decide +kernel
  refine ⟨?_, ?_, ?_⟩
  · rw [FileStore.follow_top (.inr (by decide +kernel)) (by decide +kernel), hown,
      walk_directory rfl (by decide +kernel), walk_directory rfl (by decide +kernel), walk]
    rfl
  · rw [FileStore.follow_top (.inr (by decide +kernel)) (by decide +kernel), hagents,
      walk_directory rfl (by decide +kernel), walk_directory rfl (by decide +kernel), walk]
    rfl
  · rw [FileStore.follow_top (.inr (by decide +kernel)) (by decide +kernel), hother,
      walk_directory rfl (by decide +kernel), walk_directory rfl (by decide +kernel), walk]
    rfl

theorem picked_siblings : Picked ⟨"/srv", "gsa"⟩ ⟨"2", "svc"⟩ siblings "/srv/agents/gsa-other~2" := by
  have hexactly : Text.exactly? (Text.utf8 "gsa-svc~12") = some "gsa-svc~12" ∧
      Text.exactly? (Text.utf8 "gsa-other~2") = some "gsa-other~2" := by
    constructor <;> rw [Text.exactly?, Text.readable, Text.readableChars_ascii (by decide +kernel)]
      <;> decide +kernel
  have hpath : WorkLayout.probePath ⟨"/srv", "gsa"⟩ ⟨"2", "svc"⟩ = "/srv/agents/gsa-svc~2" := by
    decide +kernel
  have hagents : WorkLayout.agentsDir ⟨"/srv", "gsa"⟩ = "/srv/agents" := by decide +kernel
  have hjoin : joinPath (WorkLayout.agentsDir ⟨"/srv", "gsa"⟩) "gsa-other~2" =
      "/srv/agents/gsa-other~2" := by
    decide +kernel
  obtain ⟨hown, hlist, _⟩ := follow_siblings
  rw [← hjoin]
  have hvacant : ¬siblings.Leads (WorkLayout.probePath ⟨"/srv", "gsa"⟩ ⟨"2", "svc"⟩) := by
    rintro ⟨names, e, hfollow⟩
    rw [hpath, hown] at hfollow
    cases hfollow
  have hbefore : ∀ other ∈ [Text.utf8 "gsa-svc~12"],
      ∀ text, ¬IsProbe ⟨"/srv", "gsa"⟩ ⟨"2", "svc"⟩ other text := by
    rintro other hother text ⟨htext, _, htail⟩
    rw [List.mem_singleton.mp hother, hexactly.1] at htext
    obtain rfl := Option.some.inj htext
    revert htail
    decide +kernel
  exact .listed hvacant (hagents ▸ hlist) rfl hbefore
    ⟨hexactly.2, by decide +kernel, by decide +kernel⟩

/-- The agent lives, and it does so without a look at the probe of the other one. -/
theorem life_of_siblings :
    ('~' ∉ "2".toList ∧ '/' ∉ "2".toList) ∧
      (check (refusing fun _ _ => none) ⟨"/srv", "gsa"⟩ ⟨"2", "svc"⟩ siblings).1 = .alive := by
  have hid : '~' ∉ "2".toList ∧ '/' ∉ "2".toList := by decide
  have hopen : siblings.openFile "/srv/agents/gsa-other~2" = .ok 1 := by
    rw [FileStore.openFile, follow_siblings.2.2]
  refine ⟨hid, (life_of_probe (fun _ _ => none) ⟨"/srv", "gsa"⟩ ⟨"2", "svc"⟩ siblings hid).1.mpr ?_⟩
  exact ⟨_, picked_siblings, ⟨_, _, follow_siblings.2.2⟩,
    .inr ⟨1, hopen, ⟨1, some "agent", false⟩, by decide, rfl⟩⟩

end AgentProbe

end SupervisedWorker
