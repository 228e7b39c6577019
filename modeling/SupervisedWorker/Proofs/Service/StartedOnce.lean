import SupervisedWorker.Proofs.Service.Catalog
import SupervisedWorker.Proofs.Service.CleanNames

/-!
# How often a service is started

A list of names has no name twice, but the catalog does not tell names apart that differ in the case
of ASCII letters only. So a starter is called once for each of the spellings of its name that are in
the list, and leaves that many hooks.

Results:
1. `key_hookName_iff`: which hooks are left by one service.
2. `names_of_calls`, `timesCalled_le`, `hooksLeft_le`: calls and hooks are counted by spellings.
3. `started_once_iff`: when every starter is called at most once; `started_twice` is a list with
   two spellings of one name.
-/

namespace SupervisedWorker

namespace Catalog

variable {α β σ : Type}

/-! ## 1. Hooks of one service -/

theorem key_append (a b : String) : key (a ++ b) = key a ++ key b := by
  rw [key, key, key, String.toList_append, List.map_append, String.ofList_append]

theorem key_hookName_iff (a b : String) : key (hookName a) = key (hookName b) ↔ key a = key b := by
  rw [hookName, hookName, key_append, key_append, String.append_right_inj]

/-! ## 2. Calls by spelling -/

/-- How many of the names stand for the same service as the given one. -/
def spellings (names : List String) (name : String) : Nat :=
  names.countP fun n => key n = key name

/-- How many of the calls are for the service of the given name. -/
def timesCalled (calls : List (StartCall α β)) (name : String) : Nat :=
  calls.countP fun k => key k.name = key name

/-- How many of the hooks close the service of the given name. -/
def hooksLeft (hooks : List (Hook α)) (name : String) : Nat :=
  hooks.countP fun hook => key hook.name = key (hookName name)

variable {c : Catalog β} {names : List String} {calls : List (StartCall α β)} {name : String}

theorem timesCalled_eq (calls : List (StartCall α β)) (name : String) :
    timesCalled calls name = spellings (calls.map StartCall.name) name := by
  rw [spellings, List.countP_map]
  rfl

/-- Names of one service have one starter. -/
theorem find?_congr {a b : String} (h : key a = key b) : c.find? a = c.find? b := by
  rw [find?, find?, h]

theorem known_names (c : Catalog β) (names : List String) :
    (c.known names).map Prod.snd = names.filter fun n => (c.find? n).isSome := by
  induction names with
  | nil => rfl
  | cons n names ih =>
    rw [known, List.filterMap_cons, ← known, List.filter_cons, ← ih]
    cases c.find? n <;> rfl

section Requests

variable (hrequests : calls.map StartCall.request <+: c.known names)
include hrequests

theorem names_of_calls : calls.map StartCall.name <+: names.filter fun n => (c.find? n).isSome := by
  have hnames := hrequests.map Prod.snd
  rwa [List.map_map, known_names] at hnames

theorem timesCalled_le (name : String) : timesCalled calls name ≤ spellings names name := by
  rw [timesCalled_eq]
  exact ((names_of_calls hrequests).sublist.trans List.filter_sublist).countP_le

/-- The starter that is called is the one of the name that was requested. -/
theorem starter_of_call {k : StartCall α β} (hk : k ∈ calls) : c.find? k.name = some k.starter := by
  have hmem := hrequests.subset (List.mem_map_of_mem hk)
  rw [known, List.mem_filterMap] at hmem
  obtain ⟨n, -, hfound⟩ := hmem
  obtain ⟨starter, hstarter, heq⟩ := Option.map_eq_some_iff.mp hfound
  obtain ⟨rfl, rfl⟩ := Prod.mk.inj heq
  exact hstarter

theorem timesCalled_unknown (hname : c.find? name = none) : timesCalled calls name = 0 := by
  rw [timesCalled, List.countP_eq_zero]
  intro k hk
  have hstarter := starter_of_call hrequests hk
  simp only [decide_eq_true_eq]
  intro hkey
  rw [find?_congr hkey, hname] at hstarter
  cases hstarter

end Requests

/-- Where all requests are called, each spelling of a name is a call. -/
theorem timesCalled_all (hrequests : calls.map StartCall.request = c.known names)
    (hname : (c.find? name).isSome = true) : timesCalled calls name = spellings names name := by
  have hnames : calls.map StartCall.name = names.filter fun n => (c.find? n).isSome := by
    rw [← known_names, ← hrequests, List.map_map]
    rfl
  rw [timesCalled_eq, hnames, spellings, spellings, List.countP_filter]
  refine List.countP_congr fun n _ => ?_
  simp only [Bool.and_eq_true, decide_eq_true_eq]
  refine and_iff_left_of_imp fun hkey => ?_
  rw [find?_congr hkey]
  exact hname

/-- A call leaves one hook at most. -/
theorem hooksLeft_le {gained : List (Hook α)}
    (hgained : gained.map (fun hook => (hook.name, hook.action)) =
      calls.filterMap StartCall.closing?) (name : String) :
    hooksLeft gained name ≤ timesCalled calls name := by
  have hcount : hooksLeft gained name =
      (calls.filterMap StartCall.closing?).countP fun p => key p.1 = key (hookName name) := by
    rw [← hgained, List.countP_map]
    rfl
  rw [hcount, List.countP_filterMap, timesCalled]
  refine List.countP_mono_left fun k _ => ?_
  rcases k with ⟨starter, n, cause | _ | close⟩
  · exact nofun
  · exact nofun
  · simp only [StartCall.closing?, Option.map_some, Option.getD_some, decide_eq_true_eq]
    exact (key_hookName_iff n name).mp

/-! ## 3. Starters that are called once -/

/-- A process in which every service starts and leaves nothing to close. -/
def Boot.starting : Boot Unit β Unit where
  start _ _ s := (.ok none, s)
  attach _ _ _ s := s
  write _ s := s

theorem course_calls (c : Catalog β) (b : Boot α β σ) (names : List String) (s : σ) :
    Course c names ⟨[], true⟩ (c.calls b names s) (c.boot b names s).1 ⟨[], true⟩ :=
  (boot_course c (attaches_sealed b) names s).2

theorem starting_isOk (c : Catalog β) (names : List String) :
    ∀ k ∈ c.calls Boot.starting names (), k.answer.isOk = true := by
  suffices h : ∀ started s, (∀ k ∈ s.2, k.answer.isOk = true) →
      ∀ k ∈ (c.bootFrom (Boot.starting (β := β)).noting started names s).2.2,
        k.answer.isOk = true from
    h 0 ((), []) nofun
  induction names with
  | nil => exact fun _ _ hs => hs
  | cons n names ih =>
    intro started s hs
    cases hfind : c.find? n with
    | none =>
      rw [bootFrom_skip hfind]
      exact ih started _ hs
    | some starter =>
      rw [bootFrom_start hfind (start_noting (s := s.1) rfl s.2)]
      refine ih (started + 1) _ fun k hk => ?_
      rcases List.mem_append.mp hk with hk | hk
      · exact hs k hk
      · rw [List.mem_singleton.mp hk]
        rfl

/-- Booting a list that was read calls no starter twice with one name. It calls the starter of a
name, and leaves hooks of its service, at most as often as there are spellings of the name in the
list, and if no starter fails exactly as often. So every starter is sure to be called at most once
exactly if the list has no two spellings of a name that is in the catalog. -/
theorem started_once_iff (c : Catalog β) (raw : String) :
    let names := ServiceList.parse raw
    (∀ (α σ : Type) (b : Boot α β σ) (s : σ),
      let calls := c.calls b names s
      (calls.map StartCall.name).Nodup ∧
      (∀ k ∈ calls, c.find? k.name = some k.starter) ∧
      (∀ name, timesCalled calls name ≤ spellings names name) ∧
      ((∀ k ∈ calls, k.answer.isOk = true) → ∀ name, (c.find? name).isSome = true →
        timesCalled calls name = spellings names name) ∧
      ∀ registry, b.Attaches registry → (registry s).drained = false → ∃ gained,
        registry (c.boot b names s).2 = ⟨(registry s).hooks ++ gained, false⟩ ∧
        ∀ name, hooksLeft gained name ≤ timesCalled calls name) ∧
    ((∀ (α σ : Type) (b : Boot α β σ) (s : σ) (name : String),
        timesCalled (c.calls b names s) name ≤ 1) ↔
      ∀ name, (c.find? name).isSome = true → spellings names name ≤ 1) := by
  intro names
  refine ⟨fun α σ b s => ?_, fun h name hname => ?_, fun h α σ b s name => ?_⟩
  · have hcourse := course_calls c b names s
    have hrequests := hcourse.prefix_known
    refine ⟨?_, fun k hk => starter_of_call hrequests hk, timesCalled_le hrequests, ?_, ?_⟩
    · have hsublist := (names_of_calls hrequests).sublist.trans List.filter_sublist
      exact (ServiceList.nodup_parse raw).sublist hsublist
    · exact fun hok name hname => timesCalled_all (hcourse.all_started hok).1 hname
    · intro registry hb hopen
      obtain ⟨gained, hregistry, hgained⟩ := (boot_course c hb names s).2.registry_gains hopen
      exact ⟨gained, hregistry, hooksLeft_le hgained⟩
  · have hstarted := (course_calls c Boot.starting names ()).all_started (starting_isOk c names)
    rw [← timesCalled_all hstarted.1 hname]
    exact h Unit Unit Boot.starting () name
  · have hrequests := (course_calls c b names s).prefix_known
    cases hname : c.find? name with
    | none =>
      rw [timesCalled_unknown hrequests hname]
      exact Nat.zero_le 1
    | some starter =>
      exact (timesCalled_le hrequests name).trans (h name (by rw [hname]; rfl))

/-- A list with two spellings of one name: the service is started twice and leaves two hooks. -/
theorem started_twice :
    let c := ofRegistrations [("gsc", ⟨"gsc", .closing [] .succeed⟩)]
    let s := (Worker.fresh (.ofStreams .unlimited .unlimited), [])
    let x := c.boot StarterScript.boot (ServiceList.parse "gsc,GSC") s
    timesCalled (c.calls StarterScript.boot (ServiceList.parse "gsc,GSC") s) "gsc" = 2 ∧
      x.2.2 = ["gsc:gsc", "GSC:gsc"] ∧
      x.2.1.registry.names = ["service:gsc", "service:GSC"] := by
  decide +kernel

end Catalog

end SupervisedWorker
