import SupervisedWorker.AgentProbe
import SupervisedWorker.Files.Store

/-!
# When the agent is declared dead

Every call of the probe may fail, and may find the files otherwise than the call before it. Three
findings are a good reason to declare the agent dead: there is no probe, the chosen probe has
vanished, or its lock was free. The probe keeps only whether a path led to something and which
entries of a listing are readable, and drops the errors. So it declares the agent dead as well
where it could not look (`Slipped`), although whoever cannot tell should assume that the agent
lives.

Results:
1. `chosen_iff`: which probe is chosen, in terms of the answers.
2. `dead_iff`: the agent is declared dead for a good reason or by a slip.
3. `link_loop_is_dead`: a probe that is a link to itself is such a slip.
-/

namespace SupervisedWorker

namespace AgentProbe

variable {σ : Type} {fs : FileSystem σ} {l : WorkLayout} {i : AgentIdentity} {s s' : σ}

/-! ## What the answers say -/

/-- Whether a name in a listing is that of a probe, and the text of this name: it begins with the
prefix and a hyphen, and ends with a tilde and the agent's id. -/
def IsProbe (l : WorkLayout) (i : AgentIdentity) (name : FileName) (text : String) : Prop :=
  Text.exactly? name = some text ∧
    (l.probePrefix ++ "-").toList <+: text.toList ∧ ("~" ++ i.agentId).toList <:+ text.toList

/-- Which probe the answers choose, and the surroundings by then: the one at the exact path, or else
the first one that is listed. -/
inductive Chosen (fs : FileSystem σ) (l : WorkLayout) (i : AgentIdentity) (s : σ) :
    String → σ → Prop
  | exact {s₁ : σ} :
      fs.probe (l.probePath i) s = (.ok (), s₁) → Chosen fs l i s (l.probePath i) s₁
  | listed {e : FileError} {s₁ s₂ : σ} {before after : List (Except FileError FileName)}
      {name : FileName} {text : String} :
      fs.probe (l.probePath i) s = (.error e, s₁) →
      fs.list l.agentsDir s₁ = (.ok (before ++ .ok name :: after), s₂) →
      (∀ other text, .ok other ∈ before → ¬IsProbe l i other text) →
      IsProbe l i name text → Chosen fs l i s (joinPath l.agentsDir text) s₂

/-- A good reason to declare the agent dead. -/
inductive Justified (fs : FileSystem σ) (l : WorkLayout) (i : AgentIdentity) (s : σ) : Prop
  /-- Nothing is at the exact path, and there is no directory of the agents. -/
  | noDirectory {s₁ s₂ : σ} :
      fs.probe (l.probePath i) s = (.error .missing, s₁) →
      fs.list l.agentsDir s₁ = (.error .missing, s₂) → Justified fs l i s
  /-- Nothing is at the exact path, and no entry of the directory is a probe. -/
  | noProbe {s₁ s₂ : σ} {names : List (Except FileError FileName)} :
      fs.probe (l.probePath i) s = (.error .missing, s₁) →
      fs.list l.agentsDir s₁ = (.ok names, s₂) →
      (∀ listed ∈ names, ∃ name, listed = .ok name ∧ ∀ text, ¬IsProbe l i name text) →
      Justified fs l i s
  /-- The chosen probe is there no more. -/
  | vanished {path : String} {s₁ s₂ : σ} :
      Chosen fs l i s path s₁ → fs.probe path s₁ = (.error .missing, s₂) → Justified fs l i s
  /-- The lock of the chosen probe was free. -/
  | unlocked {path : String} {s₁ s₂ s₃ s₄ : σ} {file : Nat} :
      Chosen fs l i s path s₁ → fs.probe path s₁ = (.ok (), s₂) →
      fs.openFile path s₂ = (.ok file, s₃) → fs.tryLock file s₃ = (.ok true, s₄) →
      Justified fs l i s

/-- An error that is taken for an absence. -/
inductive Slipped (fs : FileSystem σ) (l : WorkLayout) (i : AgentIdentity) (s : σ) : Prop
  /-- Something else than an absence is wrong with the exact path or with the directory. -/
  | unknownDirectory {e e' : FileError} {s₁ s₂ : σ} :
      fs.probe (l.probePath i) s = (.error e, s₁) →
      fs.list l.agentsDir s₁ = (.error e', s₂) →
      e ≠ .missing ∨ e' ≠ .missing → Slipped fs l i s
  /-- Something else than an absence is wrong with the exact path, or an entry is not readable, and
  none of the others is a probe. -/
  | unknownEntry {e : FileError} {s₁ s₂ : σ} {names : List (Except FileError FileName)} :
      fs.probe (l.probePath i) s = (.error e, s₁) →
      fs.list l.agentsDir s₁ = (.ok names, s₂) →
      (∀ name text, .ok name ∈ names → ¬IsProbe l i name text) →
      e ≠ .missing ∨ (∃ e', .error e' ∈ names) → Slipped fs l i s
  /-- Something else than an absence is wrong with the chosen probe. -/
  | unknownProbe {path : String} {e : FileError} {s₁ s₂ : σ} :
      Chosen fs l i s path s₁ → fs.probe path s₁ = (.error e, s₂) → e ≠ .missing →
      Slipped fs l i s

/-! ## 1. The chosen probe -/

theorem isCandidate_iff {text : String} : isCandidate l i text = true ↔
    (l.probePrefix ++ "-").toList <+: text.toList ∧ ("~" ++ i.agentId).toList <:+ text.toList := by
  rw [isCandidate, Bool.and_eq_true, List.isPrefixOf_iff_prefix, List.isSuffixOf_iff_suffix]
  rfl

theorem candidate?_ok {name : FileName} {text : String} :
    candidate? l i (.ok name) = some text ↔ IsProbe l i name text := by
  rw [candidate?, Option.filter_eq_some_iff, isCandidate_iff]
  rfl

theorem candidate?_eq_none {listed : Except FileError FileName} :
    candidate? l i listed = none ↔ ∀ name text, listed = .ok name → ¬IsProbe l i name text := by
  cases listed with
  | error e => simp [candidate?]
  | ok name =>
    rw [Option.eq_none_iff_forall_ne_some]
    constructor
    · rintro h _ text ⟨rfl⟩ hp
      exact h text (candidate?_ok.mpr hp)
    · intro h text ht
      exact h name text rfl (candidate?_ok.mp ht)

theorem choose_eq_some {names : List (Except FileError FileName)} {path : String} :
    choose l i names = some path ↔ ∃ before name text after,
      names = before ++ .ok name :: after ∧
      (∀ other text, .ok other ∈ before → ¬IsProbe l i other text) ∧
      IsProbe l i name text ∧ path = joinPath l.agentsDir text := by
  rw [choose, Option.map_eq_some_iff]
  constructor
  · rintro ⟨text, hfind, rfl⟩
    obtain ⟨before, listed, after, rfl, hlisted, hbefore⟩ := List.findSome?_eq_some_iff.mp hfind
    cases listed with
    | error e => cases hlisted
    | ok name =>
      refine ⟨before, name, text, after, rfl, ?_, candidate?_ok.mp hlisted, rfl⟩
      intro other text ho
      exact candidate?_eq_none.mp (hbefore _ ho) other text rfl
  · rintro ⟨before, name, text, after, rfl, hbefore, hname, rfl⟩
    refine ⟨text, List.findSome?_eq_some_iff.mpr
      ⟨before, _, after, rfl, candidate?_ok.mpr hname, ?_⟩, rfl⟩
    intro listed hl
    refine candidate?_eq_none.mpr ?_
    rintro other text rfl
    exact hbefore other text hl

theorem choose_eq_none {names : List (Except FileError FileName)} :
    choose l i names = none ↔ ∀ name text, .ok name ∈ names → ¬IsProbe l i name text := by
  rw [choose, Option.map_eq_none_iff, List.findSome?_eq_none_iff]
  constructor
  · intro h name text hn
    exact candidate?_eq_none.mp (h _ hn) name text rfl
  · intro h listed hl
    refine candidate?_eq_none.mpr ?_
    rintro name text rfl
    exact h name text hl

/-- The search finds the probe that the answers choose. -/
theorem chosen_iff {path : String} :
    Chosen fs l i s path s' ↔ locate fs l i s = (some path, s') := by
  constructor
  · rintro (h | ⟨hprobe, hlist, hbefore, hname⟩)
    · rw [locate, h]
    · simp only [locate, hprobe, hlist]
      rw [choose_eq_some.mpr ⟨_, _, _, _, rfl, hbefore, hname, rfl⟩]
  · intro h
    rw [locate] at h
    split at h
    · rename_i s₁ hprobe
      cases h
      exact .exact hprobe
    · rename_i e s₁ hprobe
      split at h
      · rename_i names s₂ hlist
        obtain ⟨hchoose, rfl⟩ := Prod.mk.injEq .. ▸ h
        obtain ⟨before, name, text, after, rfl, hbefore, hname, rfl⟩ := choose_eq_some.mp hchoose
        exact .listed hprobe hlist hbefore hname
      · cases h

theorem locate_of_list_error {e e' : FileError} {s₁ s₂ : σ}
    (hprobe : fs.probe (l.probePath i) s = (.error e, s₁))
    (hlist : fs.list l.agentsDir s₁ = (.error e', s₂)) : locate fs l i s = (none, s₂) := by
  rw [locate, hprobe]
  simp only [hlist]

theorem locate_of_no_probe {e : FileError} {s₁ s₂ : σ} {names : List (Except FileError FileName)}
    (hprobe : fs.probe (l.probePath i) s = (.error e, s₁))
    (hlist : fs.list l.agentsDir s₁ = (.ok names, s₂))
    (hnames : ∀ name text, .ok name ∈ names → ¬IsProbe l i name text) :
    locate fs l i s = (none, s₂) := by
  rw [locate, hprobe]
  simp only [hlist]
  rw [choose_eq_none.mpr hnames]

/-- Without a probe, the exact path and the directory or its entries have failed. -/
theorem locate_eq_none (h : locate fs l i s = (none, s')) : ∃ e s₁,
    fs.probe (l.probePath i) s = (.error e, s₁) ∧
    ((∃ e' s₂, fs.list l.agentsDir s₁ = (.error e', s₂)) ∨
      ∃ names s₂, fs.list l.agentsDir s₁ = (.ok names, s₂) ∧
        ∀ name text, .ok name ∈ names → ¬IsProbe l i name text) := by
  rw [locate] at h
  split at h
  · cases h
  · rename_i e s₁ hprobe
    refine ⟨e, s₁, hprobe, ?_⟩
    split at h
    · rename_i names s₂ hlist
      exact .inr ⟨names, s₂, hlist, choose_eq_none.mp (Prod.mk.inj h).1⟩
    · rename_i e' s₂ hlist
      exact .inl ⟨e', s₂, hlist⟩

/-! ## 2. Good reasons and slips -/

theorem checkPath_dead {path : String} : (checkPath fs path s).1 = .dead ↔
    (∃ e s₁, fs.probe path s = (.error e, s₁)) ∨
      ∃ s₁ file s₂ s₃, fs.probe path s = (.ok (), s₁) ∧ fs.openFile path s₁ = (.ok file, s₂) ∧
        fs.tryLock file s₂ = (.ok true, s₃) := by
  rw [checkPath]
  rcases hprobe : fs.probe path s with ⟨_ | _, s₁⟩
  · simp
  · rcases hopen : fs.openFile path s₁ with ⟨_ | file, s₂⟩
    · simp [hopen]
    · simp only [hopen]
      rcases hlock : fs.tryLock file s₂ with ⟨_ | _ | _, s₃⟩
      · simp [hopen, hlock]
      · simp [hopen, hlock]
      · exact iff_of_true rfl (.inr ⟨s₁, file, s₂, s₃, rfl, hopen, hlock⟩)

theorem check_of_none (h : locate fs l i s = (none, s')) : (check fs l i s).1 = .dead := by
  rw [check, h]

theorem check_of_chosen {path : String} (h : Chosen fs l i s path s') :
    (check fs l i s).1 = (checkPath fs path s').1 := by
  rw [check, chosen_iff.mp h]

theorem Justified.dead (h : Justified fs l i s) : (check fs l i s).1 = .dead := by
  cases h with
  | noDirectory hprobe hlist => exact check_of_none (locate_of_list_error hprobe hlist)
  | noProbe hprobe hlist hnames =>
    refine check_of_none (locate_of_no_probe hprobe hlist ?_)
    intro name text hn
    obtain ⟨_, ⟨rfl⟩, hno⟩ := hnames _ hn
    exact hno text
  | vanished hchosen hprobe =>
    rw [check_of_chosen hchosen, checkPath_dead]
    exact .inl ⟨_, _, hprobe⟩
  | unlocked hchosen hprobe hopen hlock =>
    rw [check_of_chosen hchosen, checkPath_dead]
    exact .inr ⟨_, _, _, _, hprobe, hopen, hlock⟩

theorem Slipped.dead (h : Slipped fs l i s) : (check fs l i s).1 = .dead := by
  cases h with
  | unknownDirectory hprobe hlist _ => exact check_of_none (locate_of_list_error hprobe hlist)
  | unknownEntry hprobe hlist hnames _ =>
    exact check_of_none (locate_of_no_probe hprobe hlist hnames)
  | unknownProbe hchosen hprobe _ =>
    rw [check_of_chosen hchosen, checkPath_dead]
    exact .inl ⟨_, _, hprobe⟩

/-- The agent is declared dead for a good reason or by a slip. -/
theorem reason_of_dead (h : (check fs l i s).1 = .dead) :
    Justified fs l i s ∨ Slipped fs l i s := by
  rcases hlocate : locate fs l i s with ⟨_ | path, s₁⟩
  · obtain ⟨e, s₁, hprobe, ⟨e', s₂, hlist⟩ | ⟨names, s₂, hlist, hnames⟩⟩ := locate_eq_none hlocate
    · by_cases hmissing : e = .missing ∧ e' = .missing
      · obtain ⟨rfl, rfl⟩ := hmissing
        exact .inl (.noDirectory hprobe hlist)
      · exact .inr (.unknownDirectory hprobe hlist (Decidable.not_and_iff_not_or_not.mp hmissing))
    · -- One entry that is not readable is enough: it might have been the probe.
      by_cases hread : e = .missing ∧ ∀ e', .error e' ∉ names
      · obtain ⟨rfl, hread⟩ := hread
        refine .inl (.noProbe hprobe hlist fun listed hl => ?_)
        cases listed with
        | error e' => exact absurd hl (hread e')
        | ok name => exact ⟨name, rfl, fun text => hnames name text hl⟩
      · refine .inr (.unknownEntry hprobe hlist hnames ?_)
        rcases Decidable.em (e = .missing) with he | he
        · exact .inr (by simpa [he] using hread)
        · exact .inl he
  · have hchosen := chosen_iff.mpr hlocate
    rw [check_of_chosen hchosen, checkPath_dead] at h
    rcases h with ⟨e, s₂, hprobe⟩ | ⟨s₂, file, s₃, s₄, hprobe, hopen, hlock⟩
    · by_cases he : e = .missing
      · exact .inl (.vanished hchosen (he ▸ hprobe))
      · exact .inr (.unknownProbe hchosen hprobe he)
    · exact .inl (.unlocked hchosen hprobe hopen hlock)

theorem Chosen.located {path : String} (h : Chosen fs l i s path s') {s₁ : σ} :
    locate fs l i s ≠ (none, s₁) := by
  rw [chosen_iff.mp h]
  simp

theorem Chosen.unique {path path' : String} {s₁ : σ} (h : Chosen fs l i s path s')
    (h' : Chosen fs l i s path' s₁) : path = path' ∧ s' = s₁ := by
  rw [chosen_iff] at h h'
  rw [h] at h'
  cases h'
  exact ⟨rfl, rfl⟩

/-- A slip is no good reason. -/
theorem Slipped.not_justified (h : Slipped fs l i s) : ¬Justified fs l i s := by
  -- Every call has one answer, so only reasons about the same calls can meet.
  cases h with
  | unknownDirectory hprobe hlist hunknown =>
    rintro (⟨hprobe', hlist'⟩ | ⟨hprobe', hlist', _⟩ | ⟨hchosen, _⟩ | ⟨hchosen, _⟩)
    · rw [hprobe] at hprobe'
      cases hprobe'
      rw [hlist] at hlist'
      cases hlist'
      simp at hunknown
    · rw [hprobe] at hprobe'
      cases hprobe'
      rw [hlist] at hlist'
      cases hlist'
    · exact hchosen.located (locate_of_list_error hprobe hlist)
    · exact hchosen.located (locate_of_list_error hprobe hlist)
  | unknownEntry hprobe hlist hnames hunknown =>
    rintro (⟨hprobe', hlist'⟩ | ⟨hprobe', hlist', hread⟩ | ⟨hchosen, _⟩ | ⟨hchosen, _⟩)
    · rw [hprobe] at hprobe'
      cases hprobe'
      rw [hlist] at hlist'
      cases hlist'
    · rw [hprobe] at hprobe'
      cases hprobe'
      rw [hlist] at hlist'
      cases hlist'
      rcases hunknown with hne | ⟨e', he'⟩
      · exact hne rfl
      · obtain ⟨_, he, _⟩ := hread _ he'
        cases he
    · exact hchosen.located (locate_of_no_probe hprobe hlist hnames)
    · exact hchosen.located (locate_of_no_probe hprobe hlist hnames)
  | unknownProbe hchosen hprobe hne =>
    rintro (⟨hprobe', hlist'⟩ | ⟨hprobe', hlist', hread⟩ | ⟨hchosen', hprobe'⟩ |
      ⟨hchosen', hprobe', _⟩)
    · exact hchosen.located (locate_of_list_error hprobe' hlist')
    · refine hchosen.located (locate_of_no_probe hprobe' hlist' ?_)
      intro name text hn
      obtain ⟨_, ⟨rfl⟩, hno⟩ := hread _ hn
      exact hno text
    · obtain ⟨rfl, rfl⟩ := hchosen.unique hchosen'
      rw [hprobe] at hprobe'
      cases hprobe'
      exact hne rfl
    · obtain ⟨rfl, rfl⟩ := hchosen.unique hchosen'
      rw [hprobe] at hprobe'
      cases hprobe'

/-- The agent is declared dead for a good reason or by a slip, and by a slip exactly if there is no
good reason. So nobody is declared dead wrongly as long as no call before the opening of the probe
fails in another way than by finding nothing. -/
theorem dead_iff (fs : FileSystem σ) (l : WorkLayout) (i : AgentIdentity) (s : σ) :
    ((check fs l i s).1 = .dead ↔ Justified fs l i s ∨ Slipped fs l i s) ∧
    ((check fs l i s).1 = .dead ∧ ¬Justified fs l i s ↔ Slipped fs l i s) := by
  have hdead : (check fs l i s).1 = .dead ↔ Justified fs l i s ∨ Slipped fs l i s :=
    ⟨reason_of_dead, fun h => h.elim Justified.dead Slipped.dead⟩
  refine ⟨hdead, ?_⟩
  rw [hdead]
  constructor
  · rintro ⟨hj | hs, hno⟩
    · exact absurd hj hno
    · exact hs
  · intro hs
    exact ⟨.inr hs, hs.not_justified⟩

end AgentProbe

/-! ## 3. A link to itself -/

/-- Bytes below 128 are the characters of a text. -/
theorem Text.readableChars_ascii {bytes : List UInt8} (h : ∀ b ∈ bytes, b < 0x80) :
    readableChars bytes = bytes.map fun b => Char.ofNat b.toNat := by
  induction bytes with
  | nil => rw [readableChars, List.map_nil]
  | cons lead rest ih =>
    have hlead : lead < 0x80 := h lead List.mem_cons_self
    have hfirst : firstChar lead rest = (some (Char.ofNat lead.toNat), 0) := by
      unfold firstChar
      exact if_pos hlead
    have hrest := ih fun b hb => h b (List.mem_cons_of_mem _ hb)
    rw [readableChars, hfirst, List.map_cons]
    exact congrArg _ hrest

namespace FileTree

/-- A path leads on into a directory. -/
theorem walk_directory {root inner : Entries} {dir : List FileName} {name : FileName}
    (he : (directory? dir root).bind (·.lookup name) = some (.directory inner))
    (hname : name ≠ here ∧ name ≠ above ∧ name.length ≤ 255) (follow : Bool) (links : Nat)
    (rest : List FileName) :
    walk root follow links dir (name :: rest) = walk root follow links (dir ++ [name]) rest := by
  obtain ⟨hhere, habove, hlen⟩ := hname
  rw [walk, if_neg hhere, if_neg habove, if_neg (Nat.not_lt.mpr hlen), he]

/-- A link that leads to itself leads over too many links, however many are allowed. -/
theorem walk_self_link {root : Entries} {dir : List FileName} {name : FileName} {target : String}
    (he : (directory? dir root).bind (·.lookup name) = some (.link target))
    (hname : name ≠ here ∧ name ≠ above ∧ name.length ≤ 255)
    (htarget : isAbsolute target = false ∧ parts target = [name]) (links : Nat) :
    walk root true links dir [name] = .error .tooManyLinks := by
  obtain ⟨hhere, habove, hlen⟩ := hname
  induction links with
  | zero =>
    rw [walk, if_neg hhere, if_neg habove, if_neg (Nat.not_lt.mpr hlen), he]
    rfl
  | succ links ih =>
    rw [walk, if_neg hhere, if_neg habove, if_neg (Nat.not_lt.mpr hlen), he]
    simp [start, htarget, ih]

theorem resolve_eq_walk (root : Entries) (dir : List FileName) (follow : Bool) {path : String}
    (hpath : path.toList.contains '\x00' = false ∧ path ≠ "" ∧ (Text.utf8 path).length < 4096) :
    resolve root dir follow path = walk root follow 40 (start path dir) (parts path) := by
  obtain ⟨hnul, hempty, hlen⟩ := hpath
  rw [resolve, hnul, if_neg (by decide), if_neg hempty, if_neg (Nat.not_le.mpr hlen)]

end FileTree

/-- Where a path leads that is absolute, or used in the topmost directory. -/
theorem FileStore.follow_top {s : FileStore} {path : String}
    (htop : s.current = [] ∨ FileTree.isAbsolute path = true)
    (hpath : path.toList.contains '\x00' = false ∧ path ≠ "" ∧ (Text.utf8 path).length < 4096) :
    s.follow path = FileTree.walk s.root true 40 [] (FileTree.parts path) := by
  have hstart : FileTree.start path s.current = [] := by
    rcases htop with hcurrent | habsolute
    · rw [FileTree.start, hcurrent, ite_self]
    · rw [FileTree.start, if_pos habsolute]
  rw [follow, FileTree.resolve_eq_walk _ _ _ hpath, hstart]

namespace AgentProbe

open FileTree

/-- The probe of the worker is a link to itself. -/
def linkLoop : FileStore :=
  ⟨[(Text.utf8 "agents", .directory [(Text.utf8 "gsa-svc~1", .link "gsa-svc~1")])], [], 0, 0, []⟩

theorem probe_linkLoop : linkLoop.probe "agents/gsa-svc~1" = .error .tooManyLinks := by
  have hparts : parts "agents/gsa-svc~1" = [Text.utf8 "agents", Text.utf8 "gsa-svc~1"] := by
    decide +kernel
  have hwalk : linkLoop.follow "agents/gsa-svc~1" = .error .tooManyLinks := by
    rw [FileStore.follow_top (.inl rfl) (by decide +kernel), hparts,
      walk_directory rfl (by decide +kernel)]
    exact walk_self_link rfl (by decide +kernel) (by decide +kernel) 40
  rw [FileStore.probe, hwalk]

theorem list_linkLoop : linkLoop.list "agents" = .ok [Text.utf8 "gsa-svc~1"] := by
  have hparts : parts "agents" = [Text.utf8 "agents"] := by decide +kernel
  have hwalk : linkLoop.follow "agents" = .ok (.entry [Text.utf8 "agents"]
      (.directory [(Text.utf8 "gsa-svc~1", .link "gsa-svc~1")])) := by
    rw [FileStore.follow_top (.inl rfl) (by decide +kernel), hparts,
      walk_directory rfl (by decide +kernel), walk]
    rfl
  rw [FileStore.list, hwalk]
  rfl

/-- The search passes over the failure at the exact path and finds the link in the listing. -/
theorem chosen_linkLoop : Chosen FileStore.system ⟨"", "gsa"⟩ ⟨"1", "svc"⟩ linkLoop
    "agents/gsa-svc~1" linkLoop := by
  have hpath : WorkLayout.probePath ⟨"", "gsa"⟩ ⟨"1", "svc"⟩ = "agents/gsa-svc~1" := by
    decide +kernel
  have hagents : WorkLayout.agentsDir ⟨"", "gsa"⟩ = "agents" := by decide +kernel
  have hexactly : Text.exactly? (Text.utf8 "gsa-svc~1") = some "gsa-svc~1" := by
    rw [Text.exactly?, Text.readable, Text.readableChars_ascii (by decide +kernel)]
    decide +kernel
  have hname : IsProbe ⟨"", "gsa"⟩ ⟨"1", "svc"⟩ (Text.utf8 "gsa-svc~1") "gsa-svc~1" :=
    ⟨hexactly, by decide +kernel, by decide +kernel⟩
  have hjoin : joinPath (WorkLayout.agentsDir ⟨"", "gsa"⟩) "gsa-svc~1" = "agents/gsa-svc~1" := by
    decide +kernel
  have hprobe : FileStore.system.probe (WorkLayout.probePath ⟨"", "gsa"⟩ ⟨"1", "svc"⟩) linkLoop =
      (.error .tooManyLinks, linkLoop) := by
    rw [hpath]
    exact congrArg (·, linkLoop) probe_linkLoop
  have hlist : FileStore.system.list (WorkLayout.agentsDir ⟨"", "gsa"⟩) linkLoop =
      (.ok ([] ++ [.ok (Text.utf8 "gsa-svc~1")]), linkLoop) := by
    rw [hagents]
    simp only [FileStore.system, list_linkLoop]
    rfl
  rw [← hjoin]
  exact .listed hprobe hlist (by simp) hname

/-- Nobody can tell whether the agent lives, and it is declared dead. -/
theorem link_loop_is_dead :
    (check FileStore.system ⟨"", "gsa"⟩ ⟨"1", "svc"⟩ linkLoop).1 = .dead ∧
      ¬Justified FileStore.system ⟨"", "gsa"⟩ ⟨"1", "svc"⟩ linkLoop := by
  have hslip : Slipped FileStore.system ⟨"", "gsa"⟩ ⟨"1", "svc"⟩ linkLoop :=
    .unknownProbe chosen_linkLoop (congrArg (·, linkLoop) probe_linkLoop) (by decide)
  exact ⟨hslip.dead, hslip.not_justified⟩

end AgentProbe

end SupervisedWorker
