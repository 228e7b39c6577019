import Mathlib
import SupervisedWorker.Proofs.Hook.Sweep
import SupervisedWorker.Proofs.Lookup
import SupervisedWorker.Service.Script

/-!
# Services are started in order

The boot goes through the requested names one after the other. Three things may come of a name: no
starter is registered for it, its starter fails, or its starter starts the service, which may leave
something to close.

Results:
1. `find?_ofRegistrations`: the starter of a name is the last that was registered under the name,
   however its ASCII letters are written.
2. `boot_course`: the course of a boot, name by name, with the calls it makes and what it leaves in
   the registry.
3. `boot_is_ordered_prefix`: what follows about the calls, the answer and the hooks of a boot, and
   about the sweep after it.
-/

namespace SupervisedWorker

namespace Catalog

variable {α β σ : Type}

/-! ## 1. Starters by name -/

/-- Whether two names are the same but for the case of their ASCII letters. -/
def SameName (a b : String) : Prop :=
  List.Forall₂ (fun c d => c.beqCaseInsensitiveAsciiOnly d = true) a.toList b.toList

theorem toUpper_eq_iff (c d : Char) :
    c.toUpper = d.toUpper ↔ c.beqCaseInsensitiveAsciiOnly d = true := by
  rw [Char.beqCaseInsensitiveAsciiOnly, beq_iff_eq]
  show c.toUpper = d.toUpper ↔ c.toLower = d.toLower
  constructor
  · intro h
    rw [← Char.toLower_toUpper_eq_toLower, h, Char.toLower_toUpper_eq_toLower]
  · intro h
    rw [← Char.toUpper_toLower_eq_toUpper, h, Char.toUpper_toLower_eq_toUpper]

/-- Names have one key if they are the same but for the case. -/
theorem key_eq_iff (a b : String) : key a = key b ↔ SameName a b := by
  rw [key, key, String.ofList_inj, ← List.forall₂_eq_eq_eq, List.forall₂_map_left_iff,
    List.forall₂_map_right_iff]
  simp only [toUpper_eq_iff]
  rfl

/-- A starter that is put in its place is found there, and the others where they were. -/
theorem lookup_insertAt (k : String) (starter : β) (entries : List (String × β)) (k' : String) :
    (insertAt k starter entries).lookup k' =
      if k' = k then some starter else entries.lookup k' := by
  induction entries with
  | nil => exact lookup_cons_ite k starter [] k'
  | cons e rest ih =>
    obtain ⟨other, starter'⟩ := e
    unfold insertAt
    split
    · rename_i hsame
      rw [lookup_cons_ite, lookup_cons_ite, ← hsame]
      split <;> rfl
    · rename_i hother
      split
      · rw [lookup_cons_ite]
      · rw [lookup_cons_ite, lookup_cons_ite, ih]
        by_cases hk : k' = other
        · rw [if_pos hk, if_pos hk, if_neg fun heq => hother (heq.symm.trans hk)]
        · rw [if_neg hk, if_neg hk]

theorem find?_register (c : Catalog β) (name : String) (starter : β) (name' : String)
    [Decidable (SameName name name')] : (c.register name starter).find? name' =
      if SameName name name' then some starter else c.find? name' := by
  rw [find?, register, lookup_insertAt]
  simp only [← key_eq_iff, eq_comm]
  rfl

/-- The catalog after starters were registered one after the other. -/
def ofRegistrations (regs : List (String × β)) : Catalog β :=
  regs.foldl (fun c r => c.register r.1 r.2) .empty

/-- A starter was registered under a name, and none after it under the same name. -/
def LastFor (regs : List (String × β)) (name : String) (starter : β) : Prop :=
  ∃ before registered after, regs = before ++ (registered, starter) :: after ∧
    SameName registered name ∧ ∀ r ∈ after, ¬SameName r.1 name

theorem lastFor_concat (regs : List (String × β)) (registered name : String)
    (starter' starter : β) :
    LastFor (regs ++ [(registered, starter')]) name starter ↔
      SameName registered name ∧ starter' = starter ∨
        ¬SameName registered name ∧ LastFor regs name starter := by
  constructor
  · rintro ⟨before, other, after, hregs, hsame, hlater⟩
    rcases List.eq_nil_or_concat after with rfl | ⟨between, last, rfl⟩
    · obtain ⟨_, heq⟩ := List.append_inj' hregs rfl
      cases heq
      exact .inl ⟨hsame, rfl⟩
    · rw [List.concat_eq_append] at hregs hlater
      rw [← List.cons_append, ← List.append_assoc] at hregs
      obtain ⟨rfl, heq⟩ := List.append_inj' hregs rfl
      cases heq
      refine .inr ⟨hlater (registered, starter') (by simp), before, other, between, rfl, hsame, ?_⟩
      exact fun r hr => hlater r (List.mem_append_left _ hr)
  · rintro (⟨hsame, rfl⟩ | ⟨hother, before, same, after, rfl, hsame, hlater⟩)
    · exact ⟨regs, registered, [], rfl, hsame, nofun⟩
    · refine ⟨before, same, after ++ [(registered, starter')], by simp, hsame, ?_⟩
      intro r hr
      rcases List.mem_append.mp hr with hr | hr
      · exact hlater r hr
      · rw [List.mem_singleton.mp hr]
        exact hother

/-- The starter of a name is the last that was registered under it, whatever the case of its
letters. -/
theorem find?_ofRegistrations (regs : List (String × β)) (name : String) (starter : β) :
    (ofRegistrations regs).find? name = some starter ↔ LastFor regs name starter := by
  classical
  induction regs using List.reverseRecOn with
  | nil =>
    constructor
    · intro h
      cases h
    · rintro ⟨before, _, _, hregs, _⟩
      simp at hregs
  | append_singleton regs r ih =>
    have hlast : ofRegistrations (regs ++ [r]) = (ofRegistrations regs).register r.1 r.2 := by
      rw [ofRegistrations, List.foldl_append]
      rfl
    rw [hlast, find?_register, lastFor_concat, ← ih]
    by_cases hsame : SameName r.1 name <;> simp [hsame]

/-! ## 2. The course of a boot -/

/-- A starter that was called: for which name, and what it answered. -/
structure StartCall (α β : Type) where
  starter : β
  name : String
  answer : Except Failure (Option α)

namespace StartCall

/-- Which starter was called, and with which name. -/
def request (k : StartCall α β) : β × String := (k.starter, k.name)

/-- The hook for what a service leaves to close: its name, and what it does. -/
def closing? (k : StartCall α β) : Option (String × α) :=
  match k.answer with
  | .ok (some close) => some (hookName k.name, close)
  | _ => none

end StartCall

/-- A process that takes down which starters are called. -/
def Boot.noting (b : Boot α β σ) : Boot α β (σ × List (StartCall α β)) where
  start starter name x :=
    let (answer, s) := b.start starter name x.1
    (answer, s, x.2 ++ [⟨starter, name, answer⟩])
  attach hook name close x := (b.attach hook name close x.1, x.2)
  write e x := (b.write e x.1, x.2)

/-- The calls of a boot, in order. -/
def calls (c : Catalog β) (b : Boot α β σ) (names : List String) (s : σ) : List (StartCall α β) :=
  (c.boot b.noting names (s, [])).2.2

/-- The requested names for which there is a starter, with their starters. -/
def known (c : Catalog β) (names : List String) : List (β × String) :=
  names.filterMap fun name => (c.find? name).map fun starter => (starter, name)

/-- The process has a registry for hooks, which nothing but their registration touches. -/
structure Boot.Attaches (b : Boot α β σ) (registry : σ → Registry α) : Prop where
  start : ∀ starter name s, registry (b.start starter name s).2 = registry s
  attach : ∀ hook name close s,
    ∃ id, registry (b.attach hook name close s) = (registry s).register ⟨id, hook, close⟩
  write : ∀ e s, registry (b.write e s) = registry s

/-- The course of a boot: the names that are left, the registry, the calls that are made for these
names, how many services they start or which one fails, and the registry in the end. -/
inductive Course (c : Catalog β) :
    List String → Registry α → List (StartCall α β) → Except StartFailure Nat → Registry α → Prop
  | done {r : Registry α} : Course c [] r [] (.ok 0) r
  | skipped {name : String} {rest : List String} {r r' : Registry α}
      {calls : List (StartCall α β)} {answer : Except StartFailure Nat} :
      c.find? name = none → Course c rest r calls answer r' →
      Course c (name :: rest) r calls answer r'
  | failed {name : String} {rest : List String} {r : Registry α} {starter : β} {cause : Failure} :
      c.find? name = some starter →
      Course c (name :: rest) r [⟨starter, name, .error cause⟩] (.error ⟨name, cause⟩) r
  /-- The service leaves nothing to close. -/
  | started {name : String} {rest : List String} {r r' : Registry α} {starter : β}
      {calls : List (StartCall α β)} {answer : Except StartFailure Nat} :
      c.find? name = some starter → Course c rest r calls answer r' →
      Course c (name :: rest) r (⟨starter, name, .ok none⟩ :: calls) (answer.map (1 + ·)) r'
  | attached {name : String} {rest : List String} {r r' : Registry α} {starter : β} {close : α}
      {id : Nat} {calls : List (StartCall α β)} {answer : Except StartFailure Nat} :
      c.find? name = some starter →
      Course c rest (r.register ⟨id, hookName name, close⟩) calls answer r' →
      Course c (name :: rest) r (⟨starter, name, .ok (some close)⟩ :: calls)
        (answer.map (1 + ·)) r'

theorem map_add (answer : Except StartFailure Nat) (m n : Nat) :
    (answer.map (n + ·)).map (m + ·) = answer.map (m + n + ·) := by
  cases answer with
  | error failure => rfl
  | ok k => exact congrArg Except.ok (Nat.add_assoc m n k).symm

section Steps

variable {c : Catalog β} {b : Boot α β σ} {name : String} {starter : β} {s s' : σ}

theorem bootFrom_skip (hfind : c.find? name = none) (started : Nat) (names : List String) :
    c.bootFrom b started (name :: names) s =
      c.bootFrom b started names (b.write (skipEntry name) s) := by
  rw [bootFrom, hfind]

theorem bootFrom_fail {cause : Failure} (hfind : c.find? name = some starter)
    (hcall : b.start starter name s = (.error cause, s')) (started : Nat) (names : List String) :
    c.bootFrom b started (name :: names) s = (.error ⟨name, cause⟩, s') := by
  rw [bootFrom, hfind]
  dsimp only
  rw [hcall]

theorem bootFrom_start (hfind : c.find? name = some starter)
    (hcall : b.start starter name s = (.ok none, s')) (started : Nat) (names : List String) :
    c.bootFrom b started (name :: names) s = c.bootFrom b (started + 1) names s' := by
  rw [bootFrom, hfind]
  dsimp only
  rw [hcall]

theorem bootFrom_attach {close : α} (hfind : c.find? name = some starter)
    (hcall : b.start starter name s = (.ok (some close), s')) (started : Nat)
    (names : List String) : c.bootFrom b started (name :: names) s =
      c.bootFrom b (started + 1) names (b.attach (hookName name) name close s') := by
  rw [bootFrom, hfind]
  dsimp only
  rw [hcall]

theorem start_noting {answer : Except Failure (Option α)}
    (hcall : b.start starter name s = (answer, s')) (earlier : List (StartCall α β)) :
    b.noting.start starter name (s, earlier) =
      (answer, s', earlier ++ [⟨starter, name, answer⟩]) := by
  simp only [Boot.noting, hcall]

end Steps

/-- A boot takes such a course, and taking down its calls changes nothing else. -/
theorem bootFrom_course (c : Catalog β) {b : Boot α β σ} {registry : σ → Registry α}
    (hb : b.Attaches registry) (started : Nat) (names : List String) (s : σ)
    (earlier : List (StartCall α β)) : ∃ calls answer,
      c.bootFrom b.noting started names (s, earlier) =
        ((c.bootFrom b started names s).1, (c.bootFrom b started names s).2, earlier ++ calls) ∧
      (c.bootFrom b started names s).1 = answer.map (started + ·) ∧
      Course c names (registry s) calls answer (registry (c.bootFrom b started names s).2) := by
  induction names generalizing started s earlier with
  | nil => exact ⟨[], .ok 0, by simp [bootFrom], rfl, .done⟩
  | cons name names ih =>
    cases hfind : c.find? name with
    | none =>
      rw [bootFrom_skip hfind, bootFrom_skip hfind]
      obtain ⟨calls, answer, hcalls, hanswer, hcourse⟩ :=
        ih started (b.write (skipEntry name) s) earlier
      rw [hb.write] at hcourse
      exact ⟨calls, answer, hcalls, hanswer, .skipped hfind hcourse⟩
    | some starter =>
      have hstart := hb.start starter name s
      rcases hcall : b.start starter name s with ⟨cause | _ | close, s'⟩ <;>
        have hnoted := start_noting hcall earlier <;> rw [hcall] at hstart
      · rw [bootFrom_fail hfind hcall, bootFrom_fail hfind hnoted, hstart]
        exact ⟨_, _, rfl, rfl, .failed hfind⟩
      · rw [bootFrom_start hfind hcall, bootFrom_start hfind hnoted, ← hstart]
        obtain ⟨calls, answer, hcalls, hanswer, hcourse⟩ :=
          ih (started + 1) s' (earlier ++ [⟨starter, name, .ok none⟩])
        refine ⟨_, _, ?_, hanswer.trans (map_add answer started 1).symm, .started hfind hcourse⟩
        rw [hcalls, List.append_assoc]
        rfl
      · rw [bootFrom_attach hfind hcall, bootFrom_attach hfind hnoted]
        obtain ⟨id, hattach⟩ := hb.attach (hookName name) name close s'
        obtain ⟨calls, answer, hcalls, hanswer, hcourse⟩ :=
          ih (started + 1) (b.attach (hookName name) name close s')
            (earlier ++ [⟨starter, name, .ok (some close)⟩])
        rw [hattach, hstart] at hcourse
        refine ⟨_, _, ?_, hanswer.trans (map_add answer started 1).symm, .attached hfind hcourse⟩
        exact hcalls.trans (by rw [List.append_assoc]; rfl)

theorem boot_course (c : Catalog β) {b : Boot α β σ} {registry : σ → Registry α}
    (hb : b.Attaches registry) (names : List String) (s : σ) :
    c.boot b.noting names (s, []) =
      ((c.boot b names s).1, (c.boot b names s).2, c.calls b names s) ∧
    Course c names (registry s) (c.calls b names s) (c.boot b names s).1
      (registry (c.boot b names s).2) := by
  obtain ⟨calls, answer, hcalls, hanswer, hcourse⟩ := bootFrom_course c hb 0 names s []
  have hsame : c.calls b names s = calls := by
    rw [Catalog.calls, boot, hcalls, List.nil_append]
  have hcount : (c.boot b names s).1 = answer := by
    rw [boot, hanswer]
    simp only [Nat.zero_add]
    cases answer <;> rfl
  rw [hsame]
  refine ⟨hcalls, ?_⟩
  rw [hcount]
  exact hcourse

/-! ## 3. What follows from it -/

namespace Course

variable {c : Catalog β} {names : List String} {r r' : Registry α}
  {calls : List (StartCall α β)} {answer : Except StartFailure Nat}

/-- The calls are the requests with a starter, up to some point. -/
theorem prefix_known (h : Course c names r calls answer r') :
    calls.map StartCall.request <+: c.known names := by
  induction h with
  | done => exact List.nil_prefix
  | skipped hfind _ ih =>
    rw [known, List.filterMap_cons, hfind]
    exact ih
  | failed hfind =>
    rw [known, List.filterMap_cons, hfind]
    exact (List.prefix_cons_inj _).mpr List.nil_prefix
  | started hfind _ ih | attached hfind _ ih =>
    rw [known, List.filterMap_cons, hfind]
    exact (List.prefix_cons_inj _).mpr ih

/-- Where no call fails, all requests with a starter are called and counted. -/
theorem all_started (h : Course c names r calls answer r')
    (hok : ∀ k ∈ calls, k.answer.isOk = true) :
    calls.map StartCall.request = c.known names ∧ answer = .ok (c.known names).length := by
  induction h with
  | done => exact ⟨rfl, rfl⟩
  | skipped hfind _ ih =>
    rw [known, List.filterMap_cons, hfind]
    exact ih hok
  | failed hfind => cases hok _ List.mem_cons_self
  | started hfind _ ih | attached hfind _ ih =>
    obtain ⟨hcalls, rfl⟩ := ih fun k hk => hok k (List.mem_cons_of_mem _ hk)
    rw [known, List.filterMap_cons, hfind]
    refine ⟨congrArg _ hcalls, ?_⟩
    rw [Except.map, Nat.add_comm]
    rfl

/-- A call that fails is the last one, and the boot fails with its name and its cause. -/
theorem failed_last (h : Course c names r calls answer r') {k : StartCall α β} (hk : k ∈ calls)
    {cause : Failure} (hfails : k.answer = .error cause) : answer = .error ⟨k.name, cause⟩ ∧
      ∃ before, calls = before ++ [k] ∧ ∀ e ∈ before, e.answer.isOk = true := by
  induction h with
  | done => cases hk
  | skipped _ _ ih => exact ih hk
  | failed =>
    obtain rfl := List.mem_singleton.mp hk
    cases hfails
    exact ⟨rfl, [], rfl, nofun⟩
  | started _ _ ih | attached _ _ ih =>
    rcases List.mem_cons.mp hk with rfl | hk
    · cases hfails
    · obtain ⟨rfl, before, rfl, hok⟩ := ih hk
      refine ⟨rfl, _ :: before, rfl, ?_⟩
      intro e he
      rcases List.mem_cons.mp he with rfl | he
      · rfl
      · exact hok e he

/-- A sealed registry stays as it is. -/
theorem registry_sealed (h : Course c names r calls answer r') (hsealed : r.drained = true) :
    r' = r := by
  induction h with
  | done | failed => rfl
  | skipped _ _ ih | started _ _ ih => exact ih hsealed
  | attached _ _ ih =>
    rw [Registry.register, if_pos hsealed] at ih
    exact ih hsealed

/-- An open registry gains what the started services leave to close, in order. -/
theorem registry_gains (h : Course c names r calls answer r') (hopen : r.drained = false) :
    ∃ gained, r' = ⟨r.hooks ++ gained, false⟩ ∧
      gained.map (fun hook => (hook.name, hook.action)) =
        calls.filterMap StartCall.closing? := by
  induction h with
  | @done r | @failed _ _ r =>
    refine ⟨[], ?_, rfl⟩
    rw [List.append_nil, ← hopen]
  | skipped _ _ ih | started _ _ ih => exact ih hopen
  | @attached name _ r _ _ close id _ _ _ _ ih =>
    have hregister : r.register ⟨id, hookName name, close⟩ =
        ⟨r.hooks ++ [⟨id, hookName name, close⟩], false⟩ := by
      rw [Registry.register, hopen]
      rfl
    rw [hregister] at ih
    obtain ⟨gained, rfl, hgained⟩ := ih rfl
    refine ⟨⟨id, hookName name, close⟩ :: gained, ?_, ?_⟩
    · rw [List.append_assoc]
      rfl
    · rw [List.map_cons, hgained]
      rfl

end Course

/-- A registry that is always sealed takes nothing from anybody. -/
theorem attaches_sealed (b : Boot α β σ) : b.Attaches fun _ => ⟨[], true⟩ :=
  ⟨fun _ _ _ => rfl, fun _ _ _ _ => ⟨0, rfl⟩, fun _ _ => rfl⟩

/-- Whatever was registered, requested and started, the boot is an ordered prefix.

The starter of a name is the last one that was registered under it, whatever the case. Starters are
called in the order of the requests, each with the name as it was requested, and names without a
starter are skipped. Where no call fails, all of these requests are called and counted; a call that
fails is the last one, and the answer gives its name and cause. An open registry gains one hook for
each service that leaves something to close, in order and after the hooks already there, and a sweep
after the boot hands over these hooks in the opposite order, whatever happens meanwhile, which is the
order of the calls if every thread starts in time. A sealed registry stays as it is. -/
theorem boot_is_ordered_prefix (regs : List (String × β)) (b : Boot α β σ) (names : List String)
    (s : σ) :
    let c := ofRegistrations regs
    let x := c.boot b names s
    let calls := c.calls b names s
    (∀ name starter, c.find? name = some starter ↔ LastFor regs name starter) ∧
    c.boot b.noting names (s, []) = (x.1, x.2, calls) ∧
    calls.map StartCall.request <+: c.known names ∧
    ((∀ k ∈ calls, k.answer.isOk = true) →
      calls.map StartCall.request = c.known names ∧ x.1 = .ok (c.known names).length) ∧
    (∀ k ∈ calls, ∀ cause, k.answer = .error cause → x.1 = .error ⟨k.name, cause⟩ ∧
      ∃ before, calls = before ++ [k] ∧ ∀ e ∈ before, e.answer.isOk = true) ∧
    ∀ registry, b.Attaches registry →
      ((registry s).drained = true → registry x.2 = registry s) ∧
      ((registry s).drained = false → ∃ gained,
        registry x.2 = ⟨(registry s).hooks ++ gained, false⟩ ∧
        gained.map (fun hook => (hook.name, hook.action)) = calls.filterMap StartCall.closing? ∧
        ∀ (τ : Type) (around : Sweep.Surroundings α τ) (call : Call α τ) started limit turns t,
          let y := Sweep.play around call turns (.start started limit (registry x.2).drain.1, t)
          y.1.isOver = true → ∃ handed log,
            Sweep.play around.noting (Sweep.noting call) (turns.map Sweep.Turn.noting)
              (.start started limit (registry x.2).drain.1, t, []) = (y.1, y.2, log.all) ∧
            Sweep.Account limit (gained.reverse ++ (registry s).hooks.reverse) handed log
              y.1.queued ∧
            ((∀ c ∈ handed, c.begun.isSome) → log.calls = handed.map Sweep.Handed.job) ∧
            ((∀ job ∈ y.1.queued, job = none) →
              log.calls.Perm (handed.map Sweep.Handed.job))) := by
  intro c x calls
  obtain ⟨hnoting, hcourse⟩ := boot_course c (attaches_sealed b) names s
  refine ⟨find?_ofRegistrations regs, hnoting, hcourse.prefix_known, hcourse.all_started, ?_, ?_⟩
  · intro k hk cause hfails
    exact hcourse.failed_last hk hfails
  · intro registry hb
    have hcourse := (boot_course c hb names s).2
    refine ⟨hcourse.registry_sealed, fun hopen => ?_⟩
    obtain ⟨gained, hregistry, hgained⟩ := hcourse.registry_gains hopen
    refine ⟨gained, hregistry, hgained, ?_⟩
    intro τ around call started limit turns t y hover
    obtain ⟨handed, log, hplay, haccount, _⟩ := Sweep.account_of_play around call hover
    have hdrain : (registry x.2).drain.1 = gained.reverse ++ (registry s).hooks.reverse := by
      rw [hregistry, ← List.reverse_append]
      rfl
    exact ⟨handed, log, hplay, hdrain ▸ haccount, haccount.calls_eq, haccount.calls_perm⟩

theorem attaches_scripts : StarterScript.boot.Attaches fun b => b.1.registry := by
  constructor
  · intro starter name b
    show (starter.start name b).2.1.registry = b.1.registry
    rw [StarterScript.start]
    cases starter.result <;> rfl
  · exact fun _ _ _ b => ⟨b.1.nextId, rfl⟩
  · exact fun _ _ => rfl

/-- The second starter of a name takes the place of the first, and a name is requested again after
the boot has failed. -/
theorem boot_is_ordered_prefix_scripts :
    let c := ofRegistrations [("db", ⟨"old", .started⟩), ("DB", ⟨"new", .closing [] .succeed⟩),
      ("cache", ⟨"cache", .fails (.ofMessage "no room")⟩)]
    let s := (Worker.fresh (.ofStreams .unlimited .unlimited), [])
    let x := c.boot StarterScript.boot ["Db", "ghost", "dB", "cache", "db"] s
    x.1 = .error ⟨"cache", .ofMessage "no room"⟩ ∧ x.2.2 = ["Db:new", "dB:new", "cache:cache"] ∧
    ∃ gained, x.2.1.registry = ⟨gained, false⟩ ∧
      gained.map (·.name) = ["service:Db", "service:dB"] := by
  intro c s x
  obtain ⟨_, _, _, _, _, hregistry⟩ := boot_is_ordered_prefix
    [("db", ⟨"old", .started⟩), ("DB", ⟨"new", .closing [] .succeed⟩),
      ("cache", ⟨"cache", .fails (.ofMessage "no room")⟩)] StarterScript.boot
    ["Db", "ghost", "dB", "cache", "db"] s
  obtain ⟨gained, hgains, hnames, _⟩ := (hregistry _ attaches_scripts).2 rfl
  refine ⟨by decide, by decide, gained, hgains, ?_⟩
  have hpairs := congrArg (List.map Prod.fst) hnames
  rw [List.map_map] at hpairs
  exact hpairs.trans (by decide)

end Catalog

end SupervisedWorker
