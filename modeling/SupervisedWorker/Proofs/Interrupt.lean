import Mathlib.Data.List.GetD
import Mathlib.Data.List.Induction
import Mathlib.Data.List.Nodup
import SupervisedWorker.Interrupt

/-!
# An interrupt in many hands

Any number of threads hold handles of one interrupt. They hand out tokens, cancel them and trigger
the interrupt; a trigger takes two steps, and anybody may come in between. The tokens are those of a
library, of which only this is used: a token is cancelled with the one that it was derived from, and
never the other way round.

Results:
1. `Serves.access`: the tokens of every such library stand as the interrupt says.
2. `Told.access`: where an interrupt stands, read off what was done with it.
3. `interrupt_follows_history`: which tokens are cancelled after what was done, and which reason is
   there.
4. `Forest.library_lawful`: a library of this kind.
-/

namespace SupervisedWorker

namespace Interrupt

/-! ## Libraries of tokens -/

/-- A library of cancellation tokens. -/
structure TokenLibrary (σ τ : Type) where
  /-- Derives a token from another one. -/
  child : σ → τ → τ × σ
  cancel : σ → τ → σ
  isCancelled : σ → τ → Bool
  Issued : σ → τ → Prop
  /-- The second token was derived from the first one, or from another below it. -/
  Below : σ → τ → τ → Prop

/-- What a library documents. A derived token is new and begins in the state of the one that it is
derived from. Cancelling a token cancels it and the tokens below it, and no others. -/
structure TokenLibrary.Lawful {σ τ : Type} (L : TokenLibrary σ τ) : Prop where
  issued_of_below {s : σ} {a b : τ} : L.Below s a b → L.Issued s a ∧ L.Issued s b
  child_fresh {s : σ} {t : τ} : L.Issued s t → ¬L.Issued s (L.child s t).1
  issued_child {s : σ} {t u : τ} : L.Issued s t →
    (L.Issued (L.child s t).2 u ↔ L.Issued s u ∨ u = (L.child s t).1)
  below_child {s : σ} {t a b : τ} : L.Issued s t →
    (L.Below (L.child s t).2 a b ↔
      L.Below s a b ∨ (b = (L.child s t).1 ∧ (a = t ∨ L.Below s a t)))
  child_begins {s : σ} {t : τ} : L.Issued s t →
    L.isCancelled (L.child s t).2 (L.child s t).1 = L.isCancelled s t
  child_keeps {s : σ} {t u : τ} : L.Issued s t → L.Issued s u →
    L.isCancelled (L.child s t).2 u = L.isCancelled s u
  issued_cancel {s : σ} {t u : τ} : L.Issued s t → (L.Issued (L.cancel s t) u ↔ L.Issued s u)
  below_cancel {s : σ} {t a b : τ} : L.Issued s t → (L.Below (L.cancel s t) a b ↔ L.Below s a b)
  cancel_iff {s : σ} {t u : τ} : L.Issued s t → L.Issued s u →
    (L.isCancelled (L.cancel s t) u = true ↔
      L.isCancelled s u = true ∨ u = t ∨ L.Below s t u)

/-! ## Accesses -/

/-- One step of somebody who has a handle or a token. Handles and tokens are numbered in the order
of their making, and triggers in the order in which they begin. -/
inductive Access
  /-- Makes another handle. -/
  | clone (handle : Nat)
  | subscribe (handle : Nat)
  /-- The first step of a trigger. -/
  | record (handle : Nat) (reason : String)
  /-- The second step of a trigger. -/
  | raise (trigger : Nat)
  /-- Cancels a token on its own. -/
  | cancel (token : Nat)
deriving DecidableEq, Repr

/-- The reason that a step brings. -/
def Access.reason? : Access → Option String
  | .record _ reason => some reason
  | _ => none

/-- An interrupt, and what its tokens are in a library. -/
structure Shared (σ τ : Type) where
  interrupt : Interrupt
  library : σ
  /-- The tokens that were handed out. -/
  tokens : List τ
  handles : Nat
  /-- For every trigger, whether it is through. -/
  triggers : List Bool

namespace Shared

variable {σ τ : Type}

/-- An interrupt with one handle, which nobody has triggered. -/
def start (library : σ) : Shared σ τ := ⟨.fresh, library, [], 1, []⟩

/-- One access; `none` where the handle, the token or the trigger is not there or the trigger is
through. -/
def access (L : TokenLibrary σ τ) (root : τ) (s : Shared σ τ) : Access → Option (Shared σ τ)
  | .clone handle => if handle < s.handles then some { s with handles := s.handles + 1 } else none
  | .subscribe handle =>
    if handle < s.handles then
      let (t, library) := L.child s.library root
      some { s with interrupt := s.interrupt.subscribe.2, library, tokens := s.tokens ++ [t] }
    else none
  | .record handle reason =>
    if handle < s.handles then
      some { s with
        interrupt := s.interrupt.recordReason reason
        triggers := s.triggers ++ [false] }
    else none
  | .raise trigger =>
    match s.triggers[trigger]? with
    | some false =>
      some { s with
        interrupt := s.interrupt.raise
        library := L.cancel s.library root
        triggers := s.triggers.set trigger true }
    | _ => none
  | .cancel token =>
    match s.tokens[token]? with
    | some t =>
      some { s with
        interrupt := s.interrupt.cancelToken token
        library := L.cancel s.library t }
    | none => none

/-- Makes one access after the other. -/
def run (L : TokenLibrary σ τ) (root : τ) (s : Shared σ τ) (accesses : List Access) :
    Option (Shared σ τ) :=
  accesses.foldlM (access L root) s

variable {L : TokenLibrary σ τ} {root : τ} {s s' : Shared σ τ} {accesses : List Access}
  {a : Access}

theorem run_append (before after : List Access) : s.run L root (before ++ after) =
    (s.run L root before).bind fun s' => s'.run L root after :=
  List.foldlM_append

theorem run_concat_some : s.run L root (accesses ++ [a]) = some s' ↔
    ∃ s₁, s.run L root accesses = some s₁ ∧ s₁.access L root a = some s' := by
  rw [run_append, Option.bind_eq_some_iff]
  simp only [run, List.foldlM_cons, List.foldlM_nil, Option.pure_def, Option.bind_eq_bind,
    Option.bind_fun_some]

/-- What an access does that is possible. -/
theorem access_cases (h : s.access L root a = some s') :
    (∃ handle, a = .clone handle ∧ s' = { s with handles := s.handles + 1 }) ∨
    (∃ handle, a = .subscribe handle ∧ s' = { s with
      interrupt := s.interrupt.subscribe.2
      library := (L.child s.library root).2
      tokens := s.tokens ++ [(L.child s.library root).1] }) ∨
    (∃ handle reason, a = .record handle reason ∧ s' = { s with
      interrupt := s.interrupt.recordReason reason
      triggers := s.triggers ++ [false] }) ∨
    (∃ trigger, a = .raise trigger ∧ s.triggers ≠ [] ∧ s' = { s with
      interrupt := s.interrupt.raise
      library := L.cancel s.library root
      triggers := s.triggers.set trigger true }) ∨
    ∃ token t, a = .cancel token ∧ s.tokens[token]? = some t ∧ s' = { s with
      interrupt := s.interrupt.cancelToken token
      library := L.cancel s.library t } := by
  cases a with
  | clone handle =>
    simp only [access, Option.ite_none_right_eq_some, Option.some.injEq] at h
    exact .inl ⟨handle, rfl, h.2.symm⟩
  | subscribe handle =>
    simp only [access, Option.ite_none_right_eq_some, Option.some.injEq] at h
    exact .inr (.inl ⟨handle, rfl, h.2.symm⟩)
  | record handle reason =>
    simp only [access, Option.ite_none_right_eq_some, Option.some.injEq] at h
    exact .inr (.inr (.inl ⟨handle, reason, rfl, h.2.symm⟩))
  | raise trigger =>
    simp only [access] at h
    split at h
    · rename_i hbegun
      refine .inr (.inr (.inr (.inl ⟨trigger, rfl, ?_, (Option.some.inj h).symm⟩)))
      rintro hnil
      rw [hnil] at hbegun
      cases hbegun
    · cases h
  | cancel token =>
    simp only [access] at h
    split at h
    · rename_i t ht
      exact .inr (.inr (.inr (.inr ⟨token, t, rfl, ht, (Option.some.inj h).symm⟩)))
    · cases h

end Shared

variable {σ τ : Type} {L : TokenLibrary σ τ} {root : τ} {s s' : Shared σ τ} {a : Access}

/-! ## 1. Tokens of a library -/

/-- The tokens that were handed out are below the root, and nothing is below them. -/
structure Placed (L : TokenLibrary σ τ) (root : τ) (library : σ) (tokens : List τ) : Prop where
  root_issued : L.Issued library root
  below : ∀ t ∈ tokens, L.Below library root t
  lowest : ∀ t ∈ tokens, ∀ u, ¬L.Below library t u
  distinct : (root :: tokens).Nodup

namespace Placed

variable {library : σ} {tokens : List τ} {t : τ}

theorem issued (hL : L.Lawful) (h : Placed L root library tokens) (ht : t ∈ root :: tokens) :
    L.Issued library t := by
  rcases List.mem_cons.mp ht with rfl | ht
  · exact h.root_issued
  · exact (hL.issued_of_below (h.below t ht)).2

theorem fresh (hL : L.Lawful) (h : Placed L root library tokens) :
    (L.child library root).1 ∉ root :: tokens :=
  fun hmem => hL.child_fresh h.root_issued (h.issued hL hmem)

theorem child (hL : L.Lawful) (h : Placed L root library tokens) :
    Placed L root (L.child library root).2 (tokens ++ [(L.child library root).1]) where
  root_issued := (hL.issued_child h.root_issued).mpr (.inl h.root_issued)
  below u hu := by
    rw [hL.below_child h.root_issued]
    rcases List.mem_append.mp hu with hu | hu
    · exact .inl (h.below u hu)
    · exact .inr ⟨List.mem_singleton.mp hu, .inl rfl⟩
  lowest u hu v := by
    -- The new token is below the root only, which is none of the tokens.
    have hroot : u ≠ root ∧ ∀ v, ¬L.Below library u v := by
      rcases List.mem_append.mp hu with hu | hu
      · exact ⟨fun heq => (List.nodup_cons.mp h.distinct).1 (heq ▸ hu), h.lowest u hu⟩
      · rw [List.mem_singleton.mp hu]
        exact ⟨fun heq => h.fresh hL (List.mem_cons.mpr (.inl heq)),
          fun v hv => hL.child_fresh h.root_issued (hL.issued_of_below hv).1⟩
    rw [hL.below_child h.root_issued]
    rintro (hv | ⟨-, heq | hv⟩)
    · exact hroot.2 v hv
    · exact hroot.1 heq
    · exact hroot.2 root hv
  distinct := by
    rw [← List.cons_append, List.nodup_append]
    refine ⟨h.distinct, List.nodup_singleton _, ?_⟩
    rintro u hu v hv rfl
    exact h.fresh hL (List.mem_singleton.mp hv ▸ hu)

theorem cancel (hL : L.Lawful) (h : Placed L root library tokens) (ht : L.Issued library t) :
    Placed L root (L.cancel library t) tokens where
  root_issued := (hL.issued_cancel ht).mpr h.root_issued
  below u hu := (hL.below_cancel ht).mpr (h.below u hu)
  lowest u hu v := fun hv => h.lowest u hu v ((hL.below_cancel ht).mp hv)
  distinct := h.distinct

end Placed

/-- The library's tokens stand as the interrupt says. -/
structure Serves (L : TokenLibrary σ τ) (root : τ) (s : Shared σ τ) : Prop where
  placed : Placed L root s.library s.tokens
  length : s.interrupt.tokens.length = s.tokens.length
  raised : L.isCancelled s.library root = s.interrupt.raised
  state : ∀ n t, s.tokens[n]? = some t → L.isCancelled s.library t = s.interrupt.isCancelled n

theorem serves_start {library : σ} (hissued : L.Issued library root)
    (hfresh : L.isCancelled library root = false) : Serves L root (.start library) where
  placed := ⟨hissued, nofun, nofun, List.nodup_singleton root⟩
  length := rfl
  raised := hfresh
  state _ _ h := by simp [Shared.start] at h

theorem getD_subscribe (i : Interrupt) (n : Nat) :
    i.subscribe.2.tokens.getD n false = i.tokens.getD n false := by
  rcases Nat.lt_or_ge n i.tokens.length with hn | hn
  · exact List.getD_append _ _ _ _ hn
  · rw [subscribe, List.getD_append_right _ _ _ _ hn, List.getD_eq_default _ _ hn]
    cases n - i.tokens.length <;> rfl

theorem getD_cancelToken {i : Interrupt} {n : Nat} (hn : n < i.tokens.length) (m : Nat) :
    (i.cancelToken n).tokens.getD m false = (i.tokens.getD m false || decide (m = n)) := by
  simp only [cancelToken, List.getD_eq_getElem?_getD, List.getElem?_set]
  by_cases h : n = m
  · subst h
    simp [hn]
  · simp [h, Ne.symm h]

theorem isCancelled_subscribe (i : Interrupt) (n : Nat) :
    i.subscribe.2.isCancelled n = i.isCancelled n := by
  rw [isCancelled, getD_subscribe]
  rfl

theorem isCancelled_cancelToken {i : Interrupt} {n : Nat} (hn : n < i.tokens.length) (m : Nat) :
    (i.cancelToken n).isCancelled m = (i.isCancelled m || decide (m = n)) := by
  rw [isCancelled, getD_cancelToken hn, ← Bool.or_assoc]
  rfl

namespace Serves

theorem subscribe (hL : L.Lawful) (h : Serves L root s) :
    Serves L root { s with
      interrupt := s.interrupt.subscribe.2
      library := (L.child s.library root).2
      tokens := s.tokens ++ [(L.child s.library root).1] } where
  placed := h.placed.child hL
  length := by simp [Interrupt.subscribe, h.length]
  raised := (hL.child_keeps h.placed.root_issued h.placed.root_issued).trans h.raised
  state n u hu := by
    rw [isCancelled_subscribe]
    dsimp only at hu ⊢
    rcases Nat.lt_trichotomy n s.tokens.length with hn | rfl | hn
    · rw [List.getElem?_append_left hn] at hu
      have hissued := h.placed.issued hL (List.mem_cons_of_mem root (List.mem_of_getElem? hu))
      rw [hL.child_keeps h.placed.root_issued hissued, h.state n u hu]
    · rw [List.getElem?_concat_length] at hu
      obtain rfl := Option.some.inj hu
      rw [hL.child_begins h.placed.root_issued, h.raised, isCancelled, ← h.length]
      simp
    · rw [List.getElem?_eq_none (by simpa using Nat.succ_le_of_lt hn)] at hu
      cases hu

theorem raise (hL : L.Lawful) (h : Serves L root s) (triggers : List Bool) :
    Serves L root { s with
      interrupt := s.interrupt.raise
      library := L.cancel s.library root
      triggers } where
  placed := h.placed.cancel hL h.placed.root_issued
  length := h.length
  raised := (hL.cancel_iff h.placed.root_issued h.placed.root_issued).mpr (.inr (.inl rfl))
  state n u hu := by
    have hmem := List.mem_of_getElem? hu
    have hissued := h.placed.issued hL (List.mem_cons_of_mem root hmem)
    exact (hL.cancel_iff h.placed.root_issued hissued).mpr (.inr (.inr (h.placed.below u hmem)))

theorem token_lt (h : Serves L root s) {token : Nat} {t : τ} (ht : s.tokens[token]? = some t) :
    token < s.interrupt.tokens.length := by
  rw [h.length]
  exact (List.getElem?_eq_some_iff.mp ht).1

theorem cancel (hL : L.Lawful) (h : Serves L root s) {token : Nat} {t : τ}
    (ht : s.tokens[token]? = some t) :
    Serves L root { s with
      interrupt := s.interrupt.cancelToken token
      library := L.cancel s.library t } := by
  have hmem := List.mem_of_getElem? ht
  have hissued := h.placed.issued hL (List.mem_cons_of_mem root hmem)
  -- Nothing is below a token, so cancelling one reaches no other.
  have hkeeps : ∀ u ∈ root :: s.tokens, L.isCancelled (L.cancel s.library t) u = true ↔
      L.isCancelled s.library u = true ∨ u = t := by
    intro u hu
    rw [hL.cancel_iff hissued (h.placed.issued hL hu)]
    simp [h.placed.lowest t hmem u]
  obtain ⟨hroot, hnodup⟩ := List.nodup_cons.mp h.placed.distinct
  refine ⟨h.placed.cancel hL hissued, ?_, ?_, ?_⟩
  · simp [cancelToken, h.length]
  · rw [Bool.eq_iff_iff, hkeeps root List.mem_cons_self, h.raised]
    simp [cancelToken, show root ≠ t from fun heq => hroot (heq ▸ hmem)]
  · intro n u hu
    have hn := h.token_lt ht
    rw [Bool.eq_iff_iff, hkeeps u (List.mem_cons_of_mem root (List.mem_of_getElem? hu)),
      isCancelled_cancelToken hn, h.state n u hu, Bool.or_eq_true, decide_eq_true_iff]
    refine or_congr_right ⟨?_, ?_⟩
    · rintro rfl
      obtain ⟨hlt, heq⟩ := List.getElem?_eq_some_iff.mp hu
      obtain ⟨hlt', heq'⟩ := List.getElem?_eq_some_iff.mp ht
      exact hnodup.getElem_inj_iff.mp (heq.trans heq'.symm)
    · rintro rfl
      exact Option.some.inj (hu.symm.trans ht)

/-- Every access keeps the library's tokens and the interrupt in step. -/
theorem access (hL : L.Lawful) (h : Serves L root s) (ha : s.access L root a = some s') :
    Serves L root s' := by
  rcases Shared.access_cases ha with ⟨_, -, rfl⟩ | ⟨_, -, rfl⟩ | ⟨_, _, -, rfl⟩ | ⟨_, -, -, rfl⟩ |
    ⟨_, t, -, ht, rfl⟩
  · exact ⟨h.placed, h.length, h.raised, h.state⟩
  · exact h.subscribe hL
  · exact ⟨h.placed, h.length, h.raised, h.state⟩
  · exact h.raise hL _
  · exact h.cancel hL ht

end Serves

/-! ## 2. What was done -/

/-- Where an interrupt stands, given what was done with it. -/
structure Told (accesses : List Access) (s : Shared σ τ) : Prop where
  raised : s.interrupt.raised = true ↔ ∃ trigger, .raise trigger ∈ accesses
  own : ∀ n, s.interrupt.tokens.getD n false = true ↔ .cancel n ∈ accesses
  reason : s.interrupt.reason = accesses.findSome? Access.reason?
  begun : s.interrupt.raised = true → s.triggers ≠ []
  recorded : s.triggers ≠ [] → s.interrupt.reason.isSome = true

theorem told_start (library : σ) : Told [] (Shared.start library : Shared σ τ) where
  raised := by simp [Shared.start, fresh]
  own := by simp [Shared.start, fresh]
  reason := rfl
  begun := nofun
  recorded h := absurd rfl h

theorem findSome?_reason_concat (accesses : List Access) (h : a.reason? = none) :
    (accesses ++ [a]).findSome? Access.reason? = accesses.findSome? Access.reason? := by
  simp [List.findSome?_append, h]

/-- What is told after an access, given what was told before. -/
theorem Told.access {accesses : List Access} (h : Told accesses s) (hs : Serves L root s)
    (ha : s.access L root a = some s') : Told (accesses ++ [a]) s' := by
  rcases Shared.access_cases ha with ⟨_, rfl, rfl⟩ | ⟨_, rfl, rfl⟩ | ⟨_, reason, rfl, rfl⟩ |
    ⟨_, rfl, hbegun, rfl⟩ | ⟨token, t, rfl, ht, rfl⟩
  · exact ⟨by simpa using h.raised, by simpa using h.own,
      h.reason.trans (findSome?_reason_concat _ rfl).symm, h.begun, h.recorded⟩
  · refine ⟨by simpa [subscribe] using h.raised, fun n => ?_,
      h.reason.trans (findSome?_reason_concat _ rfl).symm, h.begun, h.recorded⟩
    rw [getD_subscribe, h.own]
    simp
  · refine ⟨by simpa [recordReason] using h.raised, by simpa [recordReason] using h.own, ?_,
      fun _ => by simp, fun _ => rfl⟩
    simp only [recordReason, h.reason, List.findSome?_append]
    cases accesses.findSome? Access.reason? <;> rfl
  · exact ⟨by simp [Interrupt.raise], by simpa [Interrupt.raise] using h.own,
      h.reason.trans (findSome?_reason_concat _ rfl).symm, fun _ => by simpa using hbegun,
      fun _ => h.recorded hbegun⟩
  · refine ⟨by simpa [cancelToken] using h.raised, fun n => ?_,
      h.reason.trans (findSome?_reason_concat _ rfl).symm, h.begun, h.recorded⟩
    rw [getD_cancelToken (hs.token_lt ht), Bool.or_eq_true, h.own, decide_eq_true_iff]
    simp

/-! ## 3. Whole runs -/

/-- After every run the library's tokens and the interrupt are in step, and both stand as what was
done says. The induction is on the run from its end. -/
theorem run_told (hL : L.Lawful) {library : σ} (hissued : L.Issued library root)
    (hfresh : L.isCancelled library root = false) {accesses : List Access}
    (h : (Shared.start library).run L root accesses = some s) :
    Serves L root s ∧ Told accesses s := by
  induction accesses using List.reverseRecOn generalizing s with
  | nil =>
    obtain rfl : Shared.start library = s := Option.some.inj h
    exact ⟨serves_start hissued hfresh, told_start library⟩
  | append_singleton accesses a ih =>
    obtain ⟨s₁, hrun, ha⟩ := Shared.run_concat_some.mp h
    obtain ⟨hserves, htold⟩ := ih hrun
    exact ⟨hserves.access hL ha, htold.access hserves ha⟩

theorem Told.isCancelled_iff {accesses : List Access} (h : Told accesses s) (n : Nat) :
    s.interrupt.isCancelled n = true ↔
      .cancel n ∈ accesses ∨ ∃ trigger, .raise trigger ∈ accesses := by
  rw [isCancelled, Bool.or_eq_true, h.raised, h.own, or_comm]

/-- A reason stays the first one, whatever comes later. -/
theorem reason_stays {before after : List Access} {r : String}
    (h : before.findSome? Access.reason? = some r) :
    (before ++ after).findSome? Access.reason? = some r := by
  rw [List.findSome?_append, h, Option.some_or]

/-- Whatever is done with one interrupt and in whatever order, the two steps of a trigger apart, and
whatever library its tokens are of: a token is cancelled exactly if it was cancelled on its own or
some trigger has raised the interrupt, and only triggers raise it. Cancelling a token changes no
other one and not the interrupt. The reason is the first one recorded and never changes, and it is
there when the interrupt is raised. -/
theorem interrupt_follows_history (hL : L.Lawful) {library : σ} (hissued : L.Issued library root)
    (hfresh : L.isCancelled library root = false) {accesses : List Access}
    (h : (Shared.start library).run L root accesses = some s) :
    (∀ n t, s.tokens[n]? = some t →
      (L.isCancelled s.library t = true ↔
        .cancel n ∈ accesses ∨ ∃ trigger, .raise trigger ∈ accesses) ∧
      L.isCancelled s.library t = s.interrupt.isCancelled n) ∧
    (L.isCancelled s.library root = true ↔ ∃ trigger, .raise trigger ∈ accesses) ∧
    L.isCancelled s.library root = s.interrupt.raised ∧
    (∀ n s', s.access L root (.cancel n) = some s' →
      L.isCancelled s'.library root = L.isCancelled s.library root ∧
      s'.interrupt.reason = s.interrupt.reason ∧
      ∀ m t, m ≠ n → s.tokens[m]? = some t →
        L.isCancelled s'.library t = L.isCancelled s.library t) ∧
    s.interrupt.reason = accesses.findSome? Access.reason? ∧
    (∀ after s' r, s.run L root after = some s' → s.interrupt.reason = some r →
      s'.interrupt.reason = some r) ∧
    (s.interrupt.raised = true → ∃ r, s.interrupt.reason = some r) := by
  obtain ⟨hserves, htold⟩ := run_told hL hissued hfresh h
  refine ⟨?_, ?_, hserves.raised, ?_, htold.reason, ?_, ?_⟩
  · intro n t ht
    rw [hserves.state n t ht, htold.isCancelled_iff]
    exact ⟨Iff.rfl, rfl⟩
  · rw [hserves.raised, htold.raised]
  · intro n s' ha
    have hserves' := hserves.access hL ha
    rcases Shared.access_cases ha with ⟨_, ⟨⟩, -⟩ | ⟨_, ⟨⟩, -⟩ | ⟨_, _, ⟨⟩, -⟩ | ⟨_, ⟨⟩, -⟩ |
      ⟨_, t, ⟨⟩, ht, rfl⟩
    refine ⟨hserves'.raised.trans hserves.raised.symm, rfl, fun m u hne hu => ?_⟩
    have hstate := hserves'.state m u hu
    rw [hstate, isCancelled_cancelToken (hserves.token_lt ht), hserves.state m u hu,
      decide_eq_false hne, Bool.or_false]
  · intro after s' r hafter hr
    have hrun : (Shared.start library).run L root (accesses ++ after) = some s' := by
      rw [Shared.run_append, h, Option.bind_some, hafter]
    rw [(run_told hL hissued hfresh hrun).2.reason, reason_stays (htold.reason ▸ hr)]
  · exact fun hraised => Option.isSome_iff_exists.mp (htold.recorded (htold.begun hraised))

/-! ## 4. A library -/

/-- Tokens, each with all that it was derived from and with whether it is cancelled. -/
structure Forest where
  nodes : List (List Nat × Bool)
  closed : ∀ node ∈ nodes, ∀ a ∈ node.1, a < nodes.length

namespace Forest

/-- A single token. -/
def single : Forest := ⟨[([], false)], by simp⟩

/-- What a token was derived from. -/
def above (f : Forest) (t : Nat) : List Nat := (f.nodes[t]?.map Prod.fst).getD []

def isCancelled (f : Forest) (t : Nat) : Bool := (f.nodes[t]?.map Prod.snd).getD false

variable {f : Forest} {t u a b : Nat}

theorem lt_of_mem_above (h : a ∈ f.above b) : a < f.nodes.length ∧ b < f.nodes.length := by
  rw [above] at h
  rcases hb : f.nodes[b]? with _ | node
  · simp [hb] at h
  · rw [hb, Option.map_some, Option.getD_some] at h
    exact ⟨f.closed node (List.mem_of_getElem? hb) a h, (List.getElem?_eq_some_iff.mp hb).1⟩

/-- Derives a token. -/
def child (f : Forest) (t : Fin f.nodes.length) : Forest where
  nodes := f.nodes ++ [(t.val :: f.above t, f.isCancelled t)]
  closed node hnode a ha := by
    rw [List.length_append]
    refine Nat.lt_add_right _ ?_
    rcases List.mem_append.mp hnode with hnode | hnode
    · exact f.closed node hnode a ha
    · rw [List.mem_singleton.mp hnode] at ha
      rcases List.mem_cons.mp ha with rfl | ha
      · exact t.isLt
      · exact (lt_of_mem_above ha).1

/-- Cancels a token and all tokens that were derived from it. -/
def cancel (f : Forest) (t : Nat) : Forest where
  nodes := f.nodes.mapIdx fun n node => (node.1, node.2 || n == t || node.1.contains t)
  closed node hnode a ha := by
    rw [List.length_mapIdx]
    obtain ⟨n, hn, rfl⟩ := List.mem_mapIdx.mp hnode
    exact f.closed f.nodes[n] (List.getElem_mem hn) a ha

/-- The tokens of a forest, by their numbers; deriving from a number that is not one does
nothing. -/
def library : TokenLibrary Forest Nat where
  child f t := (f.nodes.length, if h : t < f.nodes.length then f.child ⟨t, h⟩ else f)
  cancel := cancel
  isCancelled := isCancelled
  Issued f t := t < f.nodes.length
  Below f a b := a ∈ f.above b

theorem above_child_of_lt (t : Fin f.nodes.length) (h : u < f.nodes.length) :
    (f.child t).above u = f.above u := by
  rw [above, child, List.getElem?_append_left h, above]

theorem above_child_new (t : Fin f.nodes.length) :
    (f.child t).above f.nodes.length = t.val :: f.above t := by
  simp [above, child]

theorem isCancelled_child_of_lt (t : Fin f.nodes.length) (h : u < f.nodes.length) :
    (f.child t).isCancelled u = f.isCancelled u := by
  rw [isCancelled, child, List.getElem?_append_left h, isCancelled]

theorem isCancelled_child_new (t : Fin f.nodes.length) :
    (f.child t).isCancelled f.nodes.length = f.isCancelled t := by
  simp [isCancelled, child]

theorem length_child (t : Fin f.nodes.length) :
    (f.child t).nodes.length = f.nodes.length + 1 := by
  simp [child]

theorem length_cancel : (f.cancel t).nodes.length = f.nodes.length := List.length_mapIdx

theorem above_cancel : (f.cancel t).above u = f.above u := by
  rw [above, cancel, List.getElem?_mapIdx, Option.map_map, above]
  rfl

theorem isCancelled_cancel (h : u < f.nodes.length) :
    (f.cancel t).isCancelled u = (f.isCancelled u || u == t || (f.above u).contains t) := by
  simp [isCancelled, cancel, above, List.getElem?_mapIdx, List.getElem?_eq_getElem h]

theorem library_lawful : library.Lawful where
  issued_of_below h := lt_of_mem_above h
  child_fresh _ := Nat.lt_irrefl _
  issued_child {f t u} ht := by
    have hlt : t < f.nodes.length := ht
    simp only [library, hlt, dif_pos, length_child]
    omega
  below_child {f t a b} ht := by
    have hlt : t < f.nodes.length := ht
    simp only [library, hlt, dif_pos]
    rcases Nat.lt_trichotomy b f.nodes.length with hb | rfl | hb
    · rw [above_child_of_lt _ hb]
      exact ⟨.inl, fun h => h.resolve_right fun hnew => (Nat.ne_of_lt hb) hnew.1⟩
    · rw [above_child_new, List.mem_cons]
      refine ⟨fun h => .inr ⟨rfl, h⟩, ?_⟩
      rintro (h | ⟨-, h⟩)
      · exact absurd (lt_of_mem_above h).2 (Nat.lt_irrefl _)
      · exact h
    · refine ⟨fun h => ?_, ?_⟩
      · have := (lt_of_mem_above h).2
        rw [length_child] at this
        omega
      · rintro (h | ⟨rfl, -⟩)
        · exact absurd (lt_of_mem_above h).2 (Nat.lt_asymm hb)
        · exact absurd hb (Nat.lt_irrefl _)
  child_begins {f t} ht := by
    have hlt : t < f.nodes.length := ht
    simp only [library, hlt, dif_pos, isCancelled_child_new]
  child_keeps {f t u} ht hu := by
    have hlt : t < f.nodes.length := ht
    simp only [library, hlt, dif_pos]
    exact isCancelled_child_of_lt _ hu
  issued_cancel _ := by simp only [library, length_cancel]
  below_cancel _ := by simp only [library, above_cancel]
  cancel_iff {f t u} _ hu := by
    simp only [library]
    rw [isCancelled_cancel hu]
    simp [or_assoc]

/-- Two triggers, each by a handle of its own. The second one raises the interrupt before the first
one does, and a token cancelled before that changes nothing else. -/
def twoTriggers : List Access :=
  [.clone 0, .subscribe 1, .subscribe 0, .cancel 0, .record 0 "signal", .record 1 "later",
    .subscribe 1, .raise 1]

/-- Where the two triggers leave the interrupt and its tokens. -/
def afterTwoTriggers : Shared Forest Nat :=
  ((Shared.start single).run library 0 twoTriggers).getD (.start single)

end Forest

/-- With two triggers whose steps interleave, all tokens are cancelled and the reason is that of the
trigger that came to record one first. -/
theorem interrupt_follows_history_two_triggers :
    (∀ n t, Forest.afterTwoTriggers.tokens[n]? = some t →
      (Forest.library.isCancelled Forest.afterTwoTriggers.library t = true ↔
        .cancel n ∈ Forest.twoTriggers ∨ ∃ trigger, .raise trigger ∈ Forest.twoTriggers)) ∧
    Forest.afterTwoTriggers.tokens = [1, 2, 3] ∧
    Forest.afterTwoTriggers.interrupt.reason = some "signal" := by
  have hrun : (Shared.start Forest.single).run Forest.library 0 Forest.twoTriggers =
      some Forest.afterTwoTriggers := rfl
  have hissued : Forest.library.Issued Forest.single 0 := Nat.zero_lt_one
  have h := interrupt_follows_history Forest.library_lawful hissued rfl hrun
  exact ⟨fun n t ht => (h.1 n t ht).1, rfl, h.2.2.2.2.1⟩

end Interrupt

end SupervisedWorker
