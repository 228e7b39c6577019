import SupervisedWorker.Proofs.AgentProbe.Files

/-!
# The probe and the order of a listing

A directory may be listed in any order. Where nothing is at the exact path, the first probe that is
listed decides, so that every probe in the directory decides in some order. The verdict is the same
for all orders exactly if these probes agree.

Results:
1. `located_eligible`, `exists_order`: the probes that decide in one order or the other.
2. `life_by_order`: the verdicts to which the orders lead, and when there is only one.
3. `stale_probe_decides`: with a stale probe beside that of an agent that lives there are two.
-/

namespace SupervisedWorker

/-- An order of listings, which leaves their entries as they are. -/
structure ListingOrder where
  arrange : List (Except FileError FileName) → List (Except FileError FileName)
  perm : ∀ names, (arrange names).Perm names

namespace ListingOrder

def asStored : ListingOrder := ⟨id, List.Perm.refl⟩

def reversed : ListingOrder := ⟨List.reverse, List.reverse_perm⟩

/-- Brings one entry to the front of the listings that have it. -/
def toFront (listed : Except FileError FileName) : ListingOrder where
  arrange names := if listed ∈ names then listed :: names.erase listed else names
  perm names := by
    split
    · rename_i hmem
      exact (List.perm_cons_erase hmem).symm
    · exact .refl names

end ListingOrder

/-- The same calls, where the listings come in an order of their own. -/
def FileSystem.inOrder {σ : Type} (fs : FileSystem σ) (order : ListingOrder) : FileSystem σ :=
  { fs with list := fun path s => ((fs.list path s).1.map order.arrange, (fs.list path s).2) }

namespace AgentProbe

open FileStore FileTree

variable {refuse : String → FileStore → Option FileError} {order : ListingOrder} {l : WorkLayout}
  {i : AgentIdentity} {s s' : FileStore} {path : String}

/-! ## 1. The probes that may decide -/

/-- A probe that decides in some order: the agent's own if its path leads to something, or else any
one in the directory that is a probe of the same agent id. -/
inductive Eligible (l : WorkLayout) (i : AgentIdentity) (s : FileStore) : String → Prop
  | own : s.Leads (l.probePath i) → Eligible l i s (l.probePath i)
  | listed {names : List FileName} {name : FileName} {text : String} :
      ¬s.Leads (l.probePath i) → s.list l.agentsDir = .ok names → name ∈ names →
      IsProbe l i name text → Eligible l i s (joinPath l.agentsDir text)

theorem locate_own (h : s.Leads (l.probePath i)) :
    locate ((refusing refuse).inOrder order) l i s = (some (l.probePath i), s) := by
  have hprobe : ((refusing refuse).inOrder order).probe (l.probePath i) s = (.ok (), s) :=
    congrArg (·, s) (probe_eq_ok.mpr h)
  rw [locate, hprobe]

theorem locate_listed (h : ¬s.Leads (l.probePath i)) :
    locate ((refusing refuse).inOrder order) l i s =
      (match s.list l.agentsDir with
        | .ok names => choose l i (order.arrange (names.map .ok))
        | .error _ => none, s) := by
  have hprobe : ((refusing refuse).inOrder order).probe (l.probePath i) s =
      (s.probe (l.probePath i), s) := rfl
  have hlist : ((refusing refuse).inOrder order).list l.agentsDir s =
      (((s.list l.agentsDir).map fun names => names.map .ok).map order.arrange, s) := rfl
  rcases hfails : s.probe (l.probePath i) with e | _
  · rw [locate, hprobe, hfails]
    simp only [hlist]
    cases s.list l.agentsDir <;> rfl
  · exact absurd (probe_eq_ok.mp hfails) h

/-- The probe that comes first in a listing is found. -/
theorem locate_first (refuse : String → FileStore → Option FileError) {names : List FileName}
    {name : FileName} {text : String} {rest : List (Except FileError FileName)}
    (hleads : ¬s.Leads (l.probePath i)) (hlist : s.list l.agentsDir = .ok names)
    (hfirst : order.arrange (names.map .ok) = .ok name :: rest) (hname : IsProbe l i name text) :
    locate ((refusing refuse).inOrder order) l i s = (some (joinPath l.agentsDir text), s) := by
  rw [locate_listed hleads, hlist]
  exact congrArg (·, s) (choose_eq_some.mpr ⟨[], name, text, rest, hfirst, by simp, hname, rfl⟩)

theorem located_eligible (h : locate ((refusing refuse).inOrder order) l i s = (some path, s')) :
    Eligible l i s path ∧ s' = s := by
  by_cases hleads : s.Leads (l.probePath i)
  · rw [locate_own hleads] at h
    cases h
    exact ⟨.own hleads, rfl⟩
  · rw [locate_listed hleads] at h
    obtain ⟨hchoose, rfl⟩ := Prod.mk.inj h
    refine ⟨?_, rfl⟩
    split at hchoose
    · rename_i names hlist
      obtain ⟨before, name, text, after, hsplit, _, hname, rfl⟩ := choose_eq_some.mp hchoose
      have hmem : Except.ok name ∈ order.arrange (names.map .ok) := by
        rw [hsplit]
        exact List.mem_append_right before List.mem_cons_self
      obtain ⟨_, hmem, ⟨rfl⟩⟩ := List.mem_map.mp ((order.perm _).mem_iff.mp hmem)
      exact .listed hleads hlist hmem hname
    · cases hchoose

theorem not_eligible (h : locate ((refusing refuse).inOrder order) l i s = (none, s'))
    (path : String) : ¬Eligible l i s path := by
  rintro (hleads | ⟨hleads, hlist, hmem, hname⟩)
  · rw [locate_own hleads] at h
    cases h
  · rw [locate_listed hleads, hlist] at h
    have hchoose := (Prod.mk.inj h).1
    exact choose_eq_none.mp hchoose _ _ ((order.perm _).mem_iff.mpr (List.mem_map_of_mem hmem))
      hname

/-- Every probe that may decide does so in some order. -/
theorem exists_order (refuse : String → FileStore → Option FileError) (h : Eligible l i s path) :
    ∃ order, locate ((refusing refuse).inOrder order) l i s = (some path, s) := by
  cases h with
  | own hleads => exact ⟨.asStored, locate_own hleads⟩
  | @listed names name text hleads hlist hmem hname =>
    have hfirst : (ListingOrder.toFront (.ok name)).arrange (names.map .ok) =
        .ok name :: (names.map .ok).erase (.ok name) :=
      if_pos (List.mem_map_of_mem hmem)
    exact ⟨.toFront (.ok name), locate_first refuse hleads hlist hfirst hname⟩

/-! ## 2. The verdicts -/

theorem check_of_located (h : locate ((refusing refuse).inOrder order) l i s = (some path, s)) :
    (check ((refusing refuse).inOrder order) l i s).1 = .alive ↔ ShowsLife refuse s path := by
  rw [check, h]
  exact (checkPath_refusing refuse path s).2

theorem dead_iff_not_alive {life : AgentLife} : life = .dead ↔ ¬life = .alive := by
  cases life <;> simp

/-- In every order one of the eligible probes decides, or there is none and the agent is dead. -/
theorem life_of_order (refuse : String → FileStore → Option FileError) (order : ListingOrder)
    (l : WorkLayout) (i : AgentIdentity) (s : FileStore) :
    (∃ path, Eligible l i s path ∧
      ((check ((refusing refuse).inOrder order) l i s).1 = .alive ↔ ShowsLife refuse s path)) ∨
    (∀ path, ¬Eligible l i s path) ∧
      (check ((refusing refuse).inOrder order) l i s).1 = .dead := by
  rcases hlocate : locate ((refusing refuse).inOrder order) l i s with ⟨_ | path, s'⟩
  · exact .inr ⟨not_eligible hlocate, check_of_none hlocate⟩
  · obtain ⟨heligible, rfl⟩ := located_eligible hlocate
    exact .inl ⟨path, heligible, check_of_located hlocate⟩

theorem alive_in_order_iff :
    (∃ order, (check ((refusing refuse).inOrder order) l i s).1 = .alive) ↔
      ∃ path, Eligible l i s path ∧ ShowsLife refuse s path := by
  constructor
  · rintro ⟨order, halive⟩
    rcases life_of_order refuse order l i s with ⟨path, heligible, hlife⟩ | ⟨_, hdead⟩
    · exact ⟨path, heligible, hlife.mp halive⟩
    · exact absurd halive (dead_iff_not_alive.mp hdead)
  · rintro ⟨path, heligible, hlife⟩
    obtain ⟨order, hlocate⟩ := exists_order refuse heligible
    exact ⟨order, (check_of_located hlocate).mpr hlife⟩

theorem dead_in_order_iff :
    (∃ order, (check ((refusing refuse).inOrder order) l i s).1 = .dead) ↔
      (∀ path, ¬Eligible l i s path) ∨ ∃ path, Eligible l i s path ∧ ¬ShowsLife refuse s path := by
  constructor
  · rintro ⟨order, hdead⟩
    rcases life_of_order refuse order l i s with ⟨path, heligible, hlife⟩ | ⟨hnone, _⟩
    · exact .inr ⟨path, heligible, mt hlife.mpr (dead_iff_not_alive.mp hdead)⟩
    · exact .inl hnone
  · rintro (hnone | ⟨path, heligible, hlife⟩)
    · rcases life_of_order refuse .asStored l i s with ⟨path, heligible, _⟩ | ⟨_, hdead⟩
      · exact absurd heligible (hnone path)
      · exact ⟨.asStored, hdead⟩
    · obtain ⟨order, hlocate⟩ := exists_order refuse heligible
      exact ⟨order, dead_iff_not_alive.mpr (mt (check_of_located hlocate).mp hlife)⟩

/-- The verdicts of the probe over all orders in which the directory may be listed. Some order makes
it tell that the agent lives if and only if a probe that may decide is locked or cannot be opened,
and some order that the agent is dead if and only if there is no such probe or one that is gone or
free. So all orders lead to the same verdict if and only if the probes that may decide agree. -/
theorem life_by_order (refuse : String → FileStore → Option FileError) (l : WorkLayout)
    (i : AgentIdentity) (s : FileStore) :
    let life := fun order => (check ((refusing refuse).inOrder order) l i s).1
    ((∃ order, life order = .alive) ↔ ∃ path, Eligible l i s path ∧ ShowsLife refuse s path) ∧
    ((∃ order, life order = .dead) ↔
      (∀ path, ¬Eligible l i s path) ∨ ∃ path, Eligible l i s path ∧ ¬ShowsLife refuse s path) ∧
    ((∀ order order', life order = life order') ↔
      ∀ path path', Eligible l i s path → Eligible l i s path' →
        (ShowsLife refuse s path ↔ ShowsLife refuse s path')) := by
  intro life
  refine ⟨alive_in_order_iff, dead_in_order_iff, ?_, ?_⟩
  · intro hsame path path' h h'
    obtain ⟨order, hlocate⟩ := exists_order refuse h
    obtain ⟨order', hlocate'⟩ := exists_order refuse h'
    have hlives : life order = life order' := hsame order order'
    rw [← check_of_located hlocate, ← check_of_located hlocate']
    exact ⟨hlives.symm.trans, hlives.trans⟩
  · intro hagree
    have hone : ∀ order order', life order = .alive → life order' ≠ .dead := by
      intro order order' halive hdead
      obtain ⟨path, h, hlife⟩ := alive_in_order_iff.mp ⟨order, halive⟩
      rcases dead_in_order_iff.mp ⟨order', hdead⟩ with hnone | ⟨path', h', hlife'⟩
      · exact hnone path h
      · exact hlife' ((hagree path path' h h').mp hlife)
    intro order order'
    cases hlife : life order <;> cases hlife' : life order'
    · rfl
    · exact absurd hlife' (hone order order' hlife)
    · exact absurd hlife (hone order' order hlife')
    · rfl

/-! ## 3. A stale probe -/

/-- The agent lives under a new service id, and the probe of an earlier run is still there. -/
def renamed : FileStore :=
  ⟨[(Text.utf8 "agents", .directory [(Text.utf8 "gsa-old~1", .file 0 0 ""),
    (Text.utf8 "gsa-new~1", .file 1 0 "")])], [⟨1, some "agent", false⟩], 2, 0, []⟩

theorem follow_renamed :
    renamed.follow "agents/gsa-svc~1" =
      .ok (.vacant [Text.utf8 "agents"] (Text.utf8 "gsa-svc~1")) ∧
    renamed.follow "agents" = .ok (.entry [Text.utf8 "agents"] (.directory
      [(Text.utf8 "gsa-old~1", .file 0 0 ""), (Text.utf8 "gsa-new~1", .file 1 0 "")])) ∧
    renamed.follow "agents/gsa-old~1" = .ok (.entry [Text.utf8 "agents", Text.utf8 "gsa-old~1"]
      (.file 0 0 "")) ∧
    renamed.follow "agents/gsa-new~1" = .ok (.entry [Text.utf8 "agents", Text.utf8 "gsa-new~1"]
      (.file 1 0 "")) := by
  have hagents : parts "agents" = [Text.utf8 "agents"] := by decide +kernel
  have hown : parts "agents/gsa-svc~1" = [Text.utf8 "agents", Text.utf8 "gsa-svc~1"] := by
    decide +kernel
  have hold : parts "agents/gsa-old~1" = [Text.utf8 "agents", Text.utf8 "gsa-old~1"] := by
    decide +kernel
  have hnew : parts "agents/gsa-new~1" = [Text.utf8 "agents", Text.utf8 "gsa-new~1"] := by
    decide +kernel
  refine ⟨?_, ?_, ?_, ?_⟩
  · rw [FileStore.follow_top (.inl rfl) (by decide +kernel), hown,
      walk_directory rfl (by decide +kernel), walk]
    rfl
  · rw [FileStore.follow_top (.inl rfl) (by decide +kernel), hagents,
      walk_directory rfl (by decide +kernel), walk]
    rfl
  · rw [FileStore.follow_top (.inl rfl) (by decide +kernel), hold,
      walk_directory rfl (by decide +kernel), walk]
    rfl
  · rw [FileStore.follow_top (.inl rfl) (by decide +kernel), hnew,
      walk_directory rfl (by decide +kernel), walk]
    rfl

/-- The probe that is listed first is found. -/
theorem locate_renamed (order : ListingOrder) {text : String}
    {rest : List (Except FileError FileName)} (htext : text ∈ ["gsa-old~1", "gsa-new~1"])
    (hfirst : order.arrange [.ok (Text.utf8 "gsa-old~1"), .ok (Text.utf8 "gsa-new~1")] =
      .ok (Text.utf8 text) :: rest) :
    locate ((refusing fun _ _ => none).inOrder order) ⟨"", "gsa"⟩ ⟨"1", "svc"⟩ renamed =
      (some (joinPath "agents" text), renamed) := by
  have hpath : WorkLayout.probePath ⟨"", "gsa"⟩ ⟨"1", "svc"⟩ = "agents/gsa-svc~1" := by
    decide +kernel
  have hdir : WorkLayout.agentsDir ⟨"", "gsa"⟩ = "agents" := by decide +kernel
  have hleads : ¬renamed.Leads (WorkLayout.probePath ⟨"", "gsa"⟩ ⟨"1", "svc"⟩) := by
    rintro ⟨names, e, hfollow⟩
    rw [hpath, follow_renamed.1] at hfollow
    cases hfollow
  have hlist : renamed.list (WorkLayout.agentsDir ⟨"", "gsa"⟩) =
      .ok [Text.utf8 "gsa-old~1", Text.utf8 "gsa-new~1"] := by
    rw [hdir]
    exact list_eq_ok.mpr ⟨_, _, follow_renamed.2.1, rfl⟩
  have hprobe : IsProbe ⟨"", "gsa"⟩ ⟨"1", "svc"⟩ (Text.utf8 text) text := by
    simp only [List.mem_cons, List.not_mem_nil, or_false] at htext
    rcases htext with rfl | rfl
    all_goals
      refine ⟨?_, by decide +kernel, by decide +kernel⟩
      rw [Text.exactly?, Text.readable, Text.readableChars_ascii (by decide +kernel)]
      decide +kernel
  have hlocate := locate_first (fun _ _ => none) hleads hlist hfirst hprobe
  rwa [hdir] at hlocate

/-- An agent that lives is declared dead where the probe of its earlier run is listed first. -/
theorem stale_probe_decides :
    (check (system.inOrder .asStored) ⟨"", "gsa"⟩ ⟨"1", "svc"⟩ renamed).1 = .dead ∧
    (check (system.inOrder .reversed) ⟨"", "gsa"⟩ ⟨"1", "svc"⟩ renamed).1 = .alive := by
  obtain ⟨-, -, hold, hnew⟩ := follow_renamed
  have hjoin : joinPath "agents" "gsa-old~1" = "agents/gsa-old~1" ∧
      joinPath "agents" "gsa-new~1" = "agents/gsa-new~1" := by
    decide +kernel
  have holdFirst := check_of_located (locate_renamed .asStored (by decide) rfl)
  have hnewFirst := check_of_located (locate_renamed .reversed (by decide) rfl)
  rw [hjoin.1] at holdFirst
  rw [hjoin.2] at hnewFirst
  have hfree : ¬ShowsLife (fun _ _ => none) renamed "agents/gsa-old~1" := by
    have hopen : renamed.openFile "agents/gsa-old~1" = .ok 0 := by rw [FileStore.openFile, hold]
    exact not_showsLife.mpr fun _ => ⟨0, hopen, by decide⟩
  have hheld : ShowsLife (fun _ _ => none) renamed "agents/gsa-new~1" := by
    have hopen : renamed.openFile "agents/gsa-new~1" = .ok 1 := by rw [FileStore.openFile, hnew]
    exact ⟨⟨_, _, hnew⟩, .inr ⟨1, hopen, ⟨1, some "agent", false⟩, by decide, rfl⟩⟩
  exact ⟨dead_iff_not_alive.mpr (mt holdFirst.mp hfree), hnewFirst.mpr hheld⟩

end AgentProbe

end SupervisedWorker
