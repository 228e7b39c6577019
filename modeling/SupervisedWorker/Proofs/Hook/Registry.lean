import Mathlib.Data.List.Induction
import Mathlib.Data.List.Nodup
import Mathlib.Data.List.Perm.Basic
import SupervisedWorker.Hook.ExitGuard

/-!
# Many hands on one registry

Any number of threads register, withdraw and drain, and hold guards over the same registry. Every
call of the registry is one step; a guard that goes off takes two, a look and a drain, and anybody
may come in between. A `History` is what was done and answered so far, in the order in which it
happened, so every interleaving of any number of threads is one.

Results:
1. `offered_perm`: what was offered is waiting, handed out, withdrawn or dropped, and nothing twice.
2. `hooks_eq_kept`: up to the first drain, the registry holds what was offered and not withdrawn.
3. `one_fate_for_every_hook`: hence every hook has one fate, only the first drain hands out hooks,
   and withdrawing one leaves the others as they are.
-/

namespace SupervisedWorker

namespace Registry

variable {α : Type}

/-! ## The operations -/

@[simp] theorem drained_register (r : Registry α) (h : Hook α) :
    (r.register h).drained = r.drained := by
  unfold register
  split <;> rfl

theorem hooks_register (r : Registry α) (h : Hook α) :
    (r.register h).hooks = if r.drained then r.hooks else r.hooks ++ [h] := by
  unfold register
  split <;> rfl

theorem drained_deregister (r : Registry α) (id : Nat) :
    (r.deregister id).2.drained = r.drained := rfl

theorem deregister_perm (r : Registry α) (id : Nat) :
    r.hooks.Perm ((r.hooks.find? (·.id == id)).toList ++ (r.deregister id).2.hooks) := by
  simp only [deregister]
  cases h : r.hooks.find? (·.id == id) with
  | none =>
    rw [List.eraseP_of_forall_not fun k hk => List.find?_eq_none.mp h k hk]
    simp
  | some k =>
    obtain ⟨hk, as, bs, hsplit, has⟩ := List.find?_eq_some_iff_append.mp h
    have herase : r.hooks.eraseP (·.id == id) = as ++ bs := by
      rw [hsplit, List.eraseP_append_right _ fun a ha => by simpa using has a ha]
      simp only [List.eraseP_cons, hk, cond_true]
    rw [herase, hsplit]
    exact List.perm_middle

/-- Where no two hooks have one identity, the first hook with it is the only one. -/
theorem eraseP_id_eq_filter {hooks : List (Hook α)} (hn : (hooks.map Hook.id).Nodup) (id : Nat) :
    hooks.eraseP (·.id == id) = hooks.filter fun h => !(h.id == id) := by
  induction hooks with
  | nil => rfl
  | cons k hooks ih =>
    rw [List.map_cons, List.nodup_cons] at hn
    rw [List.eraseP_cons, List.filter_cons]
    cases hk : k.id == id with
    | false => simp [ih hn.2]
    | true =>
      have hrest : ∀ h ∈ hooks, (!(h.id == id)) = true := by
        intro h hh
        have hne : h.id ≠ k.id := fun he => hn.1 (he ▸ List.mem_map_of_mem hh)
        simpa [← beq_iff_eq.mp hk] using hne
      simp [List.filter_eq_self.mpr hrest]

/-- Where the identities differ, withdrawing one hook leaves all others in their order. -/
theorem hooks_deregister {r : Registry α} (hn : (r.hooks.map Hook.id).Nodup) (id : Nat) :
    (r.deregister id).2.hooks = r.hooks.filter fun h => !(h.id == id) :=
  eraseP_id_eq_filter hn id

/-! ## Accesses and histories -/

/-- Where a guard over the registry stands. -/
inductive GuardStage
  | held (guard : ExitGuard)
  /-- It has found the registry open and will drain it. -/
  | draining
deriving DecidableEq, Repr, Inhabited

/-- One step of somebody who has the registry. Guards are numbered in the order of their making. -/
inductive Access (α : Type)
  | register (h : Hook α)
  | deregister (id : Nat)
  /-- Takes the hooks, be it to call them or to keep them aside. -/
  | drain
  | newGuard
  /-- The first step of a guard that is fired or dropped. -/
  | look (guard : Nat)
  /-- The second step of a guard that has found the registry open. -/
  | follow (guard : Nat)
  | disarm (guard : Nat)

/-- The answer to an access. -/
inductive Answer (α : Type)
  | silent
  /-- The identity of a hook that was offered, whether the registry keeps it or not. -/
  | offered (id : Nat)
  | removed (yes : Bool)
  | handed (hooks : List (Hook α))

/-- The registry and the guards over it. -/
structure Shared (α : Type) where
  registry : Registry α
  guards : List GuardStage

/-- A new registry, over which nobody holds a guard. -/
def Shared.start : Shared α := ⟨.empty, []⟩

/-- One access; `none` where a guard is not there or stands elsewhere. -/
def Shared.access (s : Shared α) : Access α → Option (Answer α × Shared α)
  | .register h => some (.offered h.id, { s with registry := s.registry.register h })
  | .deregister id =>
    let (yes, registry) := s.registry.deregister id
    some (.removed yes, { s with registry })
  | .drain =>
    let (hooks, registry) := s.registry.drain
    some (.handed hooks, { s with registry })
  | .newGuard => some (.silent, { s with guards := s.guards ++ [.held .armed] })
  | .look n =>
    match s.guards[n]? with
    | some (.held g) =>
      let stage := if g.looks s.registry then .draining else .held .spent
      some (.silent, { s with guards := s.guards.set n stage })
    | _ => none
  | .follow n =>
    match s.guards[n]? with
    | some .draining =>
      let (hooks, registry) := s.registry.drain
      some (.handed hooks, ⟨registry, s.guards.set n (.held .spent)⟩)
    | _ => none
  | .disarm n =>
    match s.guards[n]? with
    | some (.held g) => some (.silent, { s with guards := s.guards.set n (.held g.disarm) })
    | _ => none

/-- An access that was made: the registry before and after it, and its answer. -/
structure Event (α : Type) where
  before : Registry α
  access : Access α
  answer : Answer α
  after : Registry α

/-- What has been done so far, the oldest first, and what that has led to. -/
inductive History : List (Event α) → Shared α → Prop
  | start : History [] .start
  | step {es : List (Event α)} {s s' : Shared α} {a : Access α} {answer : Answer α} :
      History es s → s.access a = some (answer, s') →
      History (es ++ [⟨s.registry, a, answer, s'.registry⟩]) s'

/-- Makes one access after the other, and tells what happened. -/
def Shared.run (s : Shared α) : List (Access α) → Option (List (Event α) × Shared α)
  | [] => some ([], s)
  | a :: accesses => do
    let (answer, s') ← s.access a
    let (es, t) ← s'.run accesses
    some (⟨s.registry, a, answer, s'.registry⟩ :: es, t)

theorem History.run {es es' : List (Event α)} {s t : Shared α} {accesses : List (Access α)}
    (h : History es s) (hr : s.run accesses = some (es', t)) : History (es ++ es') t := by
  induction accesses generalizing es es' s with
  | nil =>
    cases hr
    rwa [List.append_nil]
  | cons a accesses ih =>
    simp only [Shared.run, Option.bind_eq_bind, Option.bind_eq_some_iff] at hr
    obtain ⟨⟨answer, s'⟩, ha, ⟨es₁, t₁⟩, hrest, heq⟩ := hr
    cases heq
    rw [List.append_cons]
    exact ih (.step h ha) hrest

theorem History.ofRun (accesses : List (Access α)) {es : List (Event α)} {s : Shared α}
    (hr : Shared.start.run accesses = some (es, s)) : History es s :=
  History.start.run hr

/-! ## What becomes of hooks -/

namespace Event

def offered (e : Event α) : List (Hook α) :=
  match e.access with
  | .register h => [h]
  | _ => []

def handed (e : Event α) : List (Hook α) :=
  match e.answer with
  | .handed hooks => hooks
  | _ => []

def drains (e : Event α) : Bool :=
  match e.answer with
  | .handed _ => true
  | _ => false

/-- Whether a hook of the given identity is withdrawn and the answer says so. -/
def withdraws (e : Event α) (id : Nat) : Bool :=
  match e.access, e.answer with
  | .deregister i, .removed true => id == i
  | _, _ => false

/-- The hook that is withdrawn. -/
def withdrawn (e : Event α) : List (Hook α) :=
  (e.before.hooks.find? fun h => e.withdraws h.id).toList

/-- The hook that is dropped because the registry is sealed. -/
def dropped (e : Event α) : List (Hook α) := if e.before.drained then e.offered else []

end Event

/-- All hooks that were ever offered to the registry, in this order. -/
def offered (es : List (Event α)) : List (Hook α) := es.flatMap Event.offered

/-- All hooks that drains have handed out. -/
def handed (es : List (Event α)) : List (Hook α) := es.flatMap Event.handed

/-- What has become of a hook, and by which event. -/
inductive Fate
  | waiting
  | handedOut (event : Nat)
  | withdrawn (event : Nat)
  | dropped (event : Nat)
deriving DecidableEq, Repr

/-- Whether a hook has met a fate. -/
def HasFate (es : List (Event α)) (r : Registry α) (h : Hook α) : Fate → Prop
  | .waiting => h ∈ r.hooks
  | .handedOut n => ∃ e, es[n]? = some e ∧ h ∈ e.handed
  | .withdrawn n => ∃ e, es[n]? = some e ∧ e.withdraws h.id = true
  | .dropped n => ∃ e, es[n]? = some e ∧ h ∈ e.dropped

/-- The hooks that were offered and not withdrawn, the oldest first. -/
def kept (es : List (Event α)) : List (Hook α) :=
  (offered es).filter fun h => !es.any (·.withdraws h.id)

/-! ## The four kinds of steps -/

/-- What happened to the registry alone. Everything below is proved along these four kinds of steps;
where the guards stand only decides which of them are possible. -/
inductive Log : List (Event α) → Registry α → Prop
  | start : Log [] .empty
  | register {es : List (Event α)} {r : Registry α} (h : Hook α) : Log es r →
      Log (es ++ [⟨r, .register h, .offered h.id, r.register h⟩]) (r.register h)
  | deregister {es : List (Event α)} {r : Registry α} (id : Nat) : Log es r →
      Log (es ++ [⟨r, .deregister id, .removed (r.deregister id).1, (r.deregister id).2⟩])
        (r.deregister id).2
  | drain {es : List (Event α)} {r : Registry α} (a : Access α) :
      a = .drain ∨ (∃ n, a = .follow n) → Log es r →
      Log (es ++ [⟨r, a, .handed r.hooks.reverse, ⟨[], true⟩⟩]) ⟨[], true⟩
  | idle {es : List (Event α)} {r : Registry α} (a : Access α) :
      a = .newGuard ∨ (∃ n, a = .look n) ∨ (∃ n, a = .disarm n) → Log es r →
      Log (es ++ [⟨r, a, .silent, r⟩]) r

theorem History.log {es : List (Event α)} {s : Shared α} (h : History es s) :
    Log es s.registry := by
  induction h with
  | start => exact .start
  | @step es s s' a answer _ ha ih =>
    cases a with
    | register k =>
      cases ha
      exact .register k ih
    | deregister id =>
      cases ha
      exact .deregister id ih
    | drain =>
      cases ha
      exact .drain _ (.inl rfl) ih
    | newGuard =>
      cases ha
      exact .idle _ (.inl rfl) ih
    | look n =>
      simp only [Shared.access] at ha
      split at ha
      · cases ha
        exact .idle _ (.inr (.inl ⟨n, rfl⟩)) ih
      · cases ha
    | follow n =>
      simp only [Shared.access] at ha
      split at ha
      · cases ha
        exact .drain _ (.inr ⟨n, rfl⟩) ih
      · cases ha
    | disarm n =>
      simp only [Shared.access] at ha
      split at ha
      · cases ha
        exact .idle _ (.inr (.inr ⟨n, rfl⟩)) ih
      · cases ha

/-! ## 1. Nothing is lost and nothing is there twice -/

def withdrawn (es : List (Event α)) : List (Hook α) := es.flatMap Event.withdrawn

def dropped (es : List (Event α)) : List (Hook α) := es.flatMap Event.dropped

@[simp] theorem offered_concat (es : List (Event α)) (e : Event α) :
    offered (es ++ [e]) = offered es ++ e.offered := by
  simp [offered]

@[simp] theorem handed_concat (es : List (Event α)) (e : Event α) :
    handed (es ++ [e]) = handed es ++ e.handed := by
  simp [handed]

@[simp] theorem withdrawn_concat (es : List (Event α)) (e : Event α) :
    withdrawn (es ++ [e]) = withdrawn es ++ e.withdrawn := by
  simp [withdrawn]

@[simp] theorem dropped_concat (es : List (Event α)) (e : Event α) :
    dropped (es ++ [e]) = dropped es ++ e.dropped := by
  simp [dropped]

/-- A withdrawal takes out the hook that it finds, and no hook if it finds none. -/
theorem withdrawn_deregister (r r' : Registry α) (id : Nat) :
    (Event.mk r (.deregister id) (.removed (r.deregister id).1) r').withdrawn =
      (r.hooks.find? (·.id == id)).toList := by
  simp only [Event.withdrawn, Event.withdraws, deregister]
  cases h : r.hooks.any (·.id == id) with
  | true => rfl
  | false =>
    rw [List.find?_eq_none.mpr fun k _ => by simp,
      List.find?_eq_none.mpr fun k hk => List.any_eq_false.mp h k hk]

theorem withdrawn_eq_nil {e : Event α} (h : ∀ id, e.withdraws id = false) : e.withdrawn = [] := by
  rw [Event.withdrawn, List.find?_eq_none.mpr fun k _ => by simp [h]]
  rfl

/-- The hooks that were ever offered are those that wait, those that were handed out, those that
were withdrawn and those that were dropped. -/
theorem offered_perm {es : List (Event α)} {r : Registry α} (h : Log es r) :
    (offered es).Perm (r.hooks ++ (handed es ++ (withdrawn es ++ dropped es))) := by
  classical
  -- Counting one hook at a time leaves a sum for every step.
  rw [List.perm_iff_count]
  intro x
  induction h with
  | start => rfl
  | @register es r k _ ih =>
    have hw : ∀ r', (Event.mk r (.register k) (.offered k.id) r').withdrawn = [] :=
      fun _ => withdrawn_eq_nil fun _ => rfl
    simp only [offered_concat, handed_concat, withdrawn_concat, dropped_concat, hw, Event.offered,
      Event.handed, Event.dropped, register, List.count_append] at ih ⊢
    cases r.drained <;> simp <;> omega
  | @deregister es r id _ ih =>
    have hsplit := List.perm_iff_count.mp (deregister_perm r id) x
    simp [withdrawn_deregister, Event.offered, Event.handed, Event.dropped] at ih hsplit ⊢
    omega
  | @drain es r a ha _ ih =>
    have hw : (Event.mk r a (.handed r.hooks.reverse) ⟨[], true⟩).withdrawn = [] := by
      rcases ha with rfl | ⟨n, rfl⟩ <;> exact withdrawn_eq_nil fun _ => rfl
    rcases ha with rfl | ⟨n, rfl⟩ <;>
      simp [Event.offered, Event.handed, Event.dropped, hw] at ih ⊢ <;> omega
  | @idle es r a ha _ ih =>
    have hw : (Event.mk r a .silent r).withdrawn = [] := by
      rcases ha with rfl | ⟨n, rfl⟩ | ⟨n, rfl⟩ <;> exact withdrawn_eq_nil fun _ => rfl
    rcases ha with rfl | ⟨n, rfl⟩ | ⟨n, rfl⟩ <;>
      simpa [Event.offered, Event.handed, Event.dropped, hw] using ih

/-! ## 2. What the registry holds -/

theorem Log.drained_eq {es : List (Event α)} {r : Registry α} (h : Log es r) :
    r.drained = es.any Event.drains := by
  induction h with
  | start => rfl
  | register _ _ ih | idle _ _ _ ih => simp [← ih, Event.drains]
  | deregister _ _ ih =>
    rw [drained_deregister]
    simp [← ih, Event.drains]
  | drain => simp [Event.drains]

/-- A sealed registry is empty. -/
theorem Log.hooks_of_drained {es : List (Event α)} {r : Registry α} (h : Log es r)
    (hr : r.drained = true) : r.hooks = [] := by
  induction h with
  | start | drain => rfl
  | @register es r k _ ih =>
    rw [drained_register] at hr
    rw [hooks_register, if_pos hr, ih hr]
  | deregister id _ ih => simp [Registry.deregister, ih hr]
  | idle _ _ _ ih => exact ih hr

/-- A log up to some event ends with the registry that this event finds. -/
theorem Log.last {es pre : List (Event α)} {e : Event α} {r : Registry α} (h : Log es r)
    (hs : es = pre ++ [e]) : Log pre e.before := by
  cases h with
  | start => simp at hs
  | register k h | deregister id h | drain a _ h | idle a _ h =>
    obtain ⟨rfl, he⟩ := List.append_inj' hs rfl
    cases he
    exact h

theorem Log.split {pre post : List (Event α)} {e : Event α} {r : Registry α}
    (h : Log (pre ++ e :: post) r) : ∃ r', Log (pre ++ [e]) r' := by
  induction post using List.reverseRecOn generalizing r with
  | nil => exact ⟨r, h⟩
  | append_singleton post x ih => exact ih (h.last (List.append_assoc pre (e :: post) [x]).symm)

/-- What one event does to the registry, given what was before it. -/
theorem Log.event {pre post : List (Event α)} {e : Event α} {r : Registry α}
    (h : Log (pre ++ e :: post) r) :
    Log pre e.before ∧
      (∀ hooks, e.answer = .handed hooks → hooks = e.before.hooks.reverse) ∧
      (∀ id, e.access = .deregister id →
        e.answer = .removed (e.before.deregister id).1 ∧ e.after = (e.before.deregister id).2) := by
  obtain ⟨r', h'⟩ := h.split
  refine ⟨h'.last rfl, ?_⟩
  generalize hs : pre ++ [e] = es at h'
  cases h' with
  | start => simp at hs
  | register k _ | deregister id _ =>
    obtain ⟨rfl, he⟩ := List.append_inj' hs rfl
    cases he
    simp
  | drain a ha _ | idle a ha _ =>
    obtain ⟨rfl, he⟩ := List.append_inj' hs rfl
    cases he
    constructor
    · intro hooks ho
      cases ho <;> rfl
    · intro id hid
      rcases hid with rfl
      simp at ha

theorem mem_offered_of_mem {es : List (Event α)} {r : Registry α} (h : Log es r) {k : Hook α}
    (hk : k ∈ r.hooks ++ (handed es ++ (withdrawn es ++ dropped es))) : k ∈ offered es :=
  (offered_perm h).mem_iff.mpr hk

/-- A withdrawal that succeeds finds its hook. -/
theorem mem_withdrawn_of_withdraws {es : List (Event α)} {r : Registry α} (h : Log es r)
    {e : Event α} (he : e ∈ es) {id : Nat} (hw : e.withdraws id = true) :
    ∃ k ∈ e.withdrawn, k.id = id := by
  induction h with
  | start => cases he
  | @deregister es r i _ ih =>
    rcases List.mem_append.mp he with he | he
    · exact ih he
    · rw [List.mem_singleton.mp he] at hw ⊢
      rw [withdrawn_deregister]
      cases hany : r.hooks.any (·.id == i) with
      | false => simp [Event.withdraws, Registry.deregister, hany] at hw
      | true =>
        have hid : id = i := by
          simpa [Event.withdraws, Registry.deregister, hany] using hw
        obtain ⟨k, hk⟩ := Option.isSome_iff_exists.mp
          (List.find?_isSome.mpr (List.any_eq_true.mp hany))
        exact ⟨k, by simp [hk], by simpa [hid] using List.find?_some hk⟩
  | register k _ ih | drain a ha _ ih | idle a ha _ ih =>
    rcases List.mem_append.mp he with he | he
    · exact ih he
    · rw [List.mem_singleton.mp he] at hw
      simp [Event.withdraws] at hw

theorem offered_nodup_of_concat {es : List (Event α)} {e : Event α}
    (hn : ((offered (es ++ [e])).map Hook.id).Nodup) : ((offered es).map Hook.id).Nodup := by
  rw [offered_concat, List.map_append] at hn
  exact (List.nodup_append.mp hn).1

theorem Log.ids_nodup {es : List (Event α)} {r : Registry α} (h : Log es r)
    (hn : ((offered es).map Hook.id).Nodup) : (r.hooks.map Hook.id).Nodup := by
  have hall := ((offered_perm h).map Hook.id).nodup_iff.mp hn
  rw [List.map_append] at hall
  exact (List.nodup_append.mp hall).1

/-- Nothing is withdrawn under an identity before it is offered. -/
theorem Log.withdraws_fresh {es : List (Event α)} {r : Registry α} (h : Log es r) {id : Nat}
    (hid : id ∉ (offered es).map Hook.id) : es.any (·.withdraws id) = false := by
  rw [List.any_eq_false]
  intro e he hw
  obtain ⟨k, hk, rfl⟩ := mem_withdrawn_of_withdraws h he hw
  have hmem : k ∈ withdrawn es := List.mem_flatMap.mpr ⟨e, he, hk⟩
  exact hid (List.mem_map_of_mem (mem_offered_of_mem h (by simp [hmem])))

/-- Up to the first drain, the registry holds what was offered and not withdrawn, in the order in
which it was offered. -/
theorem hooks_eq_kept {es : List (Event α)} {r : Registry α} (h : Log es r)
    (hn : ((offered es).map Hook.id).Nodup) (hr : r.drained = false) : r.hooks = kept es := by
  induction h with
  | start => rfl
  | drain => cases hr
  | @register es r k h ih =>
    rw [drained_register] at hr
    -- A withdrawal before the offer would have found a hook of the same identity.
    have hfresh : es.any (·.withdraws k.id) = false := by
      refine h.withdraws_fresh fun hmem => ?_
      rw [offered_concat, List.map_append, List.nodup_append] at hn
      exact hn.2.2 k.id hmem k.id (by simp [Event.offered]) rfl
    have hnew : ∀ id, (Event.mk r (.register k) (.offered k.id) (r.register k)).withdraws id =
        false := fun _ => rfl
    rw [hooks_register, if_neg (by simp [hr]), ih (offered_nodup_of_concat hn) hr]
    simp [kept, Event.offered, List.filter_append, hfresh, hnew]
  | @deregister es r id h ih =>
    have hold := offered_nodup_of_concat hn
    have hkept := ih hold hr
    rw [hooks_deregister (h.ids_nodup hold)]
    cases hany : r.hooks.any (·.id == id) with
    | true =>
      rw [hkept]
      simp [kept, Event.offered, Event.withdraws, Registry.deregister, hany, List.filter_filter,
        Bool.and_comm]
    | false =>
      rw [List.filter_eq_self.mpr fun k hk => by simpa using List.any_eq_false.mp hany k hk, hkept]
      simp [kept, Event.offered, Event.withdraws, Registry.deregister, hany]
  | @idle es r a ha h ih =>
    rw [ih (offered_nodup_of_concat hn) hr]
    rcases ha with rfl | ⟨n, rfl⟩ | ⟨n, rfl⟩ <;> simp [kept, Event.offered, Event.withdraws]

/-! ## 3. One fate for every hook -/

/-- What a step hands out of a list without repetitions is handed out by this step alone. -/
theorem step_unique {f : Event α → List (Hook α)} {es : List (Event α)}
    (hn : (es.flatMap f).Nodup) {m n : Nat} {e e' : Event α} {h : Hook α}
    (hm : es[m]? = some e) (hm' : es[n]? = some e') (he : h ∈ f e) (he' : h ∈ f e') : m = n := by
  obtain ⟨_, hpair⟩ := List.nodup_flatMap.mp hn
  rw [List.pairwise_iff_getElem] at hpair
  obtain ⟨hlt, rfl⟩ := List.getElem?_eq_some_iff.mp hm
  obtain ⟨hlt', rfl⟩ := List.getElem?_eq_some_iff.mp hm'
  rcases Nat.lt_trichotomy m n with h | h | h
  · exact absurd he' (List.disjoint_left.mp (hpair m n hlt hlt' h) he)
  · exact h
  · exact absurd he (List.disjoint_left.mp (hpair n m hlt' hlt h) he')

/-- The list in which a hook of the given fate stands. -/
def pool (es : List (Event α)) (r : Registry α) : Fate → List (Hook α)
  | .waiting => r.hooks
  | .handedOut _ => handed es
  | .withdrawn _ => withdrawn es
  | .dropped _ => dropped es

theorem eq_of_id_eq {es : List (Event α)} (hn : ((offered es).map Hook.id).Nodup) {h k : Hook α}
    (hh : h ∈ offered es) (hk : k ∈ offered es) (hid : h.id = k.id) : h = k :=
  List.inj_on_of_nodup_map hn hh hk hid

/-- A withdrawal under the identity of a hook takes out this hook. -/
theorem Log.mem_withdrawn {es : List (Event α)} {r : Registry α} (h : Log es r)
    (hn : ((offered es).map Hook.id).Nodup) {k : Hook α} (hk : k ∈ offered es) {e : Event α}
    (he : e ∈ es) (hw : e.withdraws k.id = true) : k ∈ e.withdrawn := by
  obtain ⟨k', hk', hid⟩ := mem_withdrawn_of_withdraws h he hw
  have hmem : k' ∈ withdrawn es := List.mem_flatMap.mpr ⟨e, he, hk'⟩
  have hoff : k' ∈ offered es := mem_offered_of_mem h (by simp [hmem])
  rwa [← eq_of_id_eq hn hoff hk hid]

theorem Log.mem_pool {es : List (Event α)} {r : Registry α} (h : Log es r)
    (hn : ((offered es).map Hook.id).Nodup) {k : Hook α} (hk : k ∈ offered es) {f : Fate}
    (hf : HasFate es r k f) : k ∈ pool es r f := by
  cases f with
  | waiting => exact hf
  | handedOut n | dropped n =>
    obtain ⟨e, he, hmem⟩ := hf
    exact List.mem_flatMap.mpr ⟨e, List.mem_of_getElem? he, hmem⟩
  | withdrawn n =>
    obtain ⟨e, he, hw⟩ := hf
    have hes := List.mem_of_getElem? he
    exact List.mem_flatMap.mpr ⟨e, hes, h.mem_withdrawn hn hk hes hw⟩

/-- Every hook that was ever offered has a fate. -/
theorem Log.exists_fate {es : List (Event α)} {r : Registry α} (h : Log es r) {k : Hook α}
    (hk : k ∈ offered es) : ∃ f, HasFate es r k f := by
  have hmem := (offered_perm h).mem_iff.mp hk
  simp only [List.mem_append, handed, withdrawn, dropped, List.mem_flatMap] at hmem
  rcases hmem with hmem | ⟨e, he, hmem⟩ | ⟨e, he, hmem⟩ | ⟨e, he, hmem⟩
  · exact ⟨.waiting, hmem⟩
  · obtain ⟨n, hn⟩ := List.mem_iff_getElem?.mp he
    exact ⟨.handedOut n, e, hn, hmem⟩
  · obtain ⟨n, hn⟩ := List.mem_iff_getElem?.mp he
    have hw : e.withdraws k.id = true := by
      rw [Event.withdrawn, Option.mem_toList] at hmem
      simpa using List.find?_some hmem
    exact ⟨.withdrawn n, e, hn, hw⟩
  · obtain ⟨n, hn⟩ := List.mem_iff_getElem?.mp he
    exact ⟨.dropped n, e, hn, hmem⟩

theorem Log.fate_unique {es : List (Event α)} {r : Registry α} (h : Log es r)
    (hn : ((offered es).map Hook.id).Nodup) {k : Hook α} (hk : k ∈ offered es) {f f' : Fate}
    (hf : HasFate es r k f) (hf' : HasFate es r k f') : f = f' := by
  have hall := (offered_perm h).nodup_iff.mp (.of_map _ hn)
  obtain ⟨_, hrest, hwait⟩ := List.nodup_append'.mp hall
  obtain ⟨hhanded, hrest', hout⟩ := List.nodup_append'.mp hrest
  obtain ⟨hwithdrawn, hdropped, hwith⟩ := List.nodup_append'.mp hrest'
  have hp := h.mem_pool hn hk hf
  have hp' := h.mem_pool hn hk hf'
  have hw := @hwait k
  have ho := @hout k
  have hi := @hwith k
  simp only [List.mem_append, imp_false, not_or] at hw ho hi
  -- Fates of two kinds stand in pools without a common hook; within a pool, the event tells.
  cases f with
  | waiting => cases f' <;> simp only [pool] at hp hp' <;> grind
  | handedOut m =>
    cases f' with
    | handedOut n =>
      obtain ⟨e, he, hmem⟩ := hf
      obtain ⟨e', he', hmem'⟩ := hf'
      rw [step_unique hhanded he he' hmem hmem']
    | waiting | withdrawn _ | dropped _ =>
      simp only [pool] at hp hp'
      grind
  | withdrawn m =>
    cases f' with
    | withdrawn n =>
      obtain ⟨e, he, hmem⟩ := hf
      obtain ⟨e', he', hmem'⟩ := hf'
      rw [step_unique hwithdrawn he he' (h.mem_withdrawn hn hk (List.mem_of_getElem? he) hmem)
        (h.mem_withdrawn hn hk (List.mem_of_getElem? he') hmem')]
    | waiting | handedOut _ | dropped _ =>
      simp only [pool] at hp hp'
      grind
  | dropped m =>
    cases f' with
    | dropped n =>
      obtain ⟨e, he, hmem⟩ := hf
      obtain ⟨e', he', hmem'⟩ := hf'
      rw [step_unique hdropped he he' hmem hmem']
    | waiting | handedOut _ | withdrawn _ =>
      simp only [pool] at hp hp'
      grind

/-- Whatever threads and guards do with one registry and in whatever order, every hook that was
offered waits, or was handed out by one drain, or was withdrawn by one withdrawal, or was dropped by
a sealed registry. Only the first drain hands anything out: what was offered and not withdrawn, the
last first. A withdrawal finds its hook exactly if it waits, and moves no other. -/
theorem one_fate_for_every_hook {es : List (Event α)} {s : Shared α} (h : History es s)
    (hn : ((offered es).map Hook.id).Nodup) :
    (∀ k ∈ offered es, ∃! f, HasFate es s.registry k f) ∧
    (handed es).Nodup ∧
    ∀ pre e post, es = pre ++ e :: post →
      e.before.drained = pre.any Event.drains ∧
      (∀ hooks, e.answer = .handed hooks →
        hooks = if pre.any Event.drains then [] else (kept pre).reverse) ∧
      (∀ id, e.access = .deregister id →
        (e.answer = .removed true ↔ ∃ k ∈ e.before.hooks, k.id = id) ∧
        e.after = { e.before with hooks := e.before.hooks.filter (·.id != id) }) := by
  have hl := h.log
  refine ⟨?_, ?_, ?_⟩
  · intro k hk
    obtain ⟨f, hf⟩ := hl.exists_fate hk
    exact ⟨f, hf, fun f' hf' => hl.fate_unique hn hk hf' hf⟩
  · have hall := (offered_perm hl).nodup_iff.mp (.of_map _ hn)
    exact (List.nodup_append'.mp (List.nodup_append'.mp hall).2.1).1
  · rintro pre e post rfl
    obtain ⟨hpre, hdrain, hderegister⟩ := hl.event
    have hnpre : ((offered pre).map Hook.id).Nodup := by
      rw [offered, List.flatMap_append, List.map_append] at hn
      exact (List.nodup_append.mp hn).1
    refine ⟨hpre.drained_eq, ?_, ?_⟩
    · intro hooks ho
      rw [hdrain hooks ho, ← hpre.drained_eq]
      cases hd : e.before.drained with
      | true => rw [hpre.hooks_of_drained hd]; rfl
      | false => rw [hooks_eq_kept hpre hnpre hd]; rfl
    · intro id hid
      obtain ⟨hanswer, hafter⟩ := hderegister id hid
      constructor
      · simp [hanswer, Registry.deregister]
      · have hhooks := hooks_deregister (hpre.ids_nodup hnpre) id
        rw [hafter]
        simp only [Registry.deregister] at hhooks ⊢
        rw [hhooks]
        rfl

/-- Two guards find the registry open, the first of two hooks is withdrawn before either of them
drains, and a third hook comes too late. -/
def guardsBetween : List (Access Unit) :=
  [.register ⟨0, "first", ()⟩, .register ⟨1, "second", ()⟩, .newGuard, .newGuard, .look 0, .look 1,
    .deregister 0, .follow 0, .follow 1, .register ⟨2, "late", ()⟩]

theorem one_fate_for_guardsBetween : ∃ es s, Shared.start.run guardsBetween = some (es, s) ∧
    ((offered es).map Hook.id).Nodup ∧ handed es = [⟨1, "second", ()⟩] ∧
    (∀ k ∈ offered es, ∃! f, HasFate es s.registry k f) :=
  ⟨_, _, rfl, by decide, rfl, (one_fate_for_every_hook (.ofRun guardsBetween rfl) (by decide)).1⟩

end Registry

end SupervisedWorker
