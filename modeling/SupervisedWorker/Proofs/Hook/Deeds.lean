import Mathlib.Data.List.Nodup
import SupervisedWorker.Hook.Progress

/-!
# What a sweep does to its hooks

A sweep under way shares its time with others. Its workers start on their hooks at moments of their
own, also when the wait for the hook is over; a hook that was left alone may answer at any moment;
and threads of the process, such hooks among them, may change the state between any two steps. A
`Turn` is one thing that happens, and `play` lets one turn after the other happen, in any order. What
is done to the hooks on the way is taken down.

Result: `Tracks.goesOn`, whatever happens, a sweep has handed over its hooks so far one after the
other, to the worker that the overruns before ask for, and has cancelled what overran. Those on which
the threads started within the wait were called in this order, the others later or not at all.
-/

namespace SupervisedWorker

namespace Sweep

variable {α σ : Type}

/-! ## 1. Turns -/

/-- One thing that happens while a sweep is under way. -/
inductive Turn (σ : Type)
  /-- The sweep takes its next step. -/
  | sweep
  /-- The thread of a worker starts on the hook with the given number, if it can. -/
  | begin (hook : Nat) (delay : Duration)
  /-- A hook that overran its limit answers; other hooks cannot do so. -/
  | answer (hook : Nat) (outcome : Outcome)
  /-- Somebody changes the state. -/
  | outside (change : σ → σ)

namespace Turn

def isSweep : Turn σ → Bool
  | .sweep => true
  | _ => false

def isAnswer : Turn σ → Bool
  | .answer .. => true
  | _ => false

def isOutside : Turn σ → Bool
  | .outside _ => true
  | _ => false

/-- Lets one thing happen to a sweep and the state. -/
def take (around : Surroundings α σ) (call : Call α σ) (x : Progress α × σ) :
    Turn σ → Progress α × σ
  | .sweep => x.1.step around x.2
  | .begin hook delay => (x.1.begin call hook delay x.2).getD x
  | .answer hook outcome => ((x.1.deliver hook outcome).getD x.1, x.2)
  | .outside change => (x.1, change x.2)

end Turn

/-- Lets one thing happen after the other. -/
def play (around : Surroundings α σ) (call : Call α σ) :
    List (Turn σ) → Progress α × σ → Progress α × σ
  | [], x => x
  | t :: turns, x => play around call turns (t.take around call x)

/-! ## 2. Deeds -/

/-- What is done to a hook. -/
inductive Deed (α : Type)
  | called (worker : HookThread) (hook : Hook α) (reply : Reply)
  /-- The interrupt of the hook is cancelled. -/
  | interrupted (hook : Hook α)

/-- The call of a hook on a worker, if the deed is one. -/
def Deed.call? : Deed α → Option (HookThread × Hook α)
  | .called worker hook _ => some (worker, hook)
  | .interrupted _ => none

/-- A hook that was handed over: to which worker, and, if the thread started on it while the sweep
waited for it, after how long and how the hook replied. -/
structure Handed (α : Type) where
  worker : HookThread
  hook : Hook α
  begun : Option (Duration × Reply)

/-- A hook that was called when the sweep no longer waited for it. -/
structure LateCall (α : Type) where
  number : Nat
  worker : HookThread
  hook : Hook α
  reply : Reply

/-- The call, as the worker found it in its queue. -/
def LateCall.job (c : LateCall α) : HookThread × Hook α := (c.worker, c.hook)

/-- What becomes of a hook that replies in the given way. -/
def verdict (limit : Duration) (reply : Reply) : Outcome :=
  match reply.after with
  | none => .timedOut
  | some time =>
    if limit < time then .timedOut
    else
      match reply.attempt with
      | .succeeded => .completed
      | .failed cause => .failed cause.fullText
      | .panicked payload => .failed (Panic.describe payload reply.slot).1

namespace Handed

/-- The reply as the sweep sees it, for which the wait began when the hook was handed over. -/
def reply (c : Handed α) : Option Reply := c.begun.map fun x => x.2.delayed x.1

/-- What becomes of the hook: one that no thread starts on overruns its limit. -/
def outcome (limit : Duration) (c : Handed α) : Outcome := c.reply.elim .timedOut (verdict limit)

def overran (limit : Duration) (c : Handed α) : Bool := c.outcome limit == .timedOut

/-- How long the sweep waits for the hook. -/
def waited (limit : Duration) (c : Handed α) : Duration := c.reply.elim limit (·.waited limit)

def record (limit : Duration) (c : Handed α) : HookRecord :=
  ⟨c.hook.name, c.outcome limit, c.waited limit⟩

/-- The call, if it began within the wait. -/
def calls (c : Handed α) : List (Deed α) := c.begun.toList.map fun x => .called c.worker c.hook x.2

/-- The call, and the cancelled interrupt of a hook that overran. -/
def deeds (limit : Duration) (c : Handed α) : List (Deed α) :=
  c.calls ++ if c.overran limit then [.interrupted c.hook] else []

/-- What the worker finds in its queue. -/
def job (c : Handed α) : HookThread × Hook α := (c.worker, c.hook)

/-- The hook and the start of its thread. -/
def start (c : Handed α) : Hook α × Start := (c.hook, c.begun.map Prod.fst)

/-- What lies in the hook's box when the wait for it is over. -/
def box (limit : Duration) (c : Handed α) : Option Outcome :=
  c.reply.bind fun reply => (reply.box limit).1

end Handed

/-- How many of the hooks overran. -/
def overruns (limit : Duration) (handed : List (Handed α)) : Nat :=
  handed.countP (Handed.overran limit)

/-- The deeds of a sweep and the late calls among them. -/
abbrev Log (α : Type) := List (Deed α ⊕ LateCall α)

namespace Log

/-- All deeds, in the order in which they happened. -/
def all (log : Log α) : List (Deed α) := log.map (Sum.elim id fun c => .called c.worker c.hook c.reply)

/-- All calls, in the order in which they were made. -/
def calls (log : Log α) : List (HookThread × Hook α) := log.all.filterMap Deed.call?

/-- What the sweep does to the hooks that it waits for. -/
def inWait (log : Log α) : List (Deed α) := log.filterMap Sum.getLeft?

/-- The calls of hooks that the sweep no longer waits for. -/
def late (log : Log α) : List (LateCall α) := log.filterMap Sum.getRight?

variable (log log' : Log α)

@[simp] theorem all_append : all (log ++ log') = all log ++ all log' := List.map_append

@[simp] theorem calls_append : calls (log ++ log') = calls log ++ calls log' := by
  rw [calls, all_append, List.filterMap_append, ← calls, ← calls]

@[simp] theorem inWait_append : inWait (log ++ log') = inWait log ++ inWait log' :=
  List.filterMap_append

@[simp] theorem late_append : late (log ++ log') = late log ++ late log' := List.filterMap_append

@[simp] theorem inWait_inl (d : Deed α) : inWait [.inl d] = [d] := rfl

@[simp] theorem inWait_inr (c : LateCall α) : inWait [.inr c] = ([] : List (Deed α)) := rfl

@[simp] theorem late_inl (d : Deed α) : late [.inl d] = ([] : List (LateCall α)) := rfl

@[simp] theorem late_inr (c : LateCall α) : late [.inr c] = [c] := rfl

@[simp] theorem inWait_map_inl (deeds : List (Deed α)) : inWait (deeds.map Sum.inl) = deeds := by
  simp [inWait, List.filterMap_map, Function.comp_def]

@[simp] theorem late_map_inl (deeds : List (Deed α)) : late (deeds.map Sum.inl) = [] := by
  simp [late, List.filterMap_map, Function.comp_def]

end Log

/-! The deeds of a sweep are taken down beside the state, which they do not touch. -/

/-- Surroundings that take down which interrupts are cancelled. -/
def Surroundings.noting (around : Surroundings α σ) : Surroundings α (σ × List (Deed α)) where
  interrupt h x := (around.interrupt h x.1, x.2 ++ [.interrupted h])
  write e x := (around.write e x.1, x.2)

/-- Calls that take down that they are made. -/
def noting (call : Call α σ) : Call α (σ × List (Deed α)) := fun w h x =>
  let (reply, s) := call w h x.1
  (reply, s, x.2 ++ [.called w h reply])

def Turn.noting : Turn σ → Turn (σ × List (Deed α))
  | .sweep => .sweep
  | .begin hook delay => .begin hook delay
  | .answer hook outcome => .answer hook outcome
  | .outside change => .outside fun x => (change x.1, x.2)

/-! ## 3. The steps of a sweep -/

variable {around : Surroundings α σ} {call : Call α σ}

/-- The box of a hook holds its verdict, and nothing if it overran. -/
theorem verdict_eq (limit : Duration) (reply : Reply) :
    verdict limit reply = (reply.box limit).1.getD .timedOut := by
  rw [verdict, Reply.box, Reply.inTime]
  cases reply.after with
  | none => rfl
  | some time =>
    by_cases hlate : limit < time
    · have hnot : ¬time ≤ limit := Nat.not_le.mpr hlate
      simp [hlate, hnot]
    · have hle : time ≤ limit := Nat.not_lt.mp hlate
      simp only [hlate, hle, decide_true, if_true, if_false, Reply.outcome]
      cases reply.attempt <;> rfl

section

variable {limit : Duration} {start : Start}

theorem handOne_none (hd : start.filter (· ≤ limit) = none) (w : HookThread) (h : Hook α) (s : σ) :
    handOne around call limit w h start s = settle around limit w h limit none s := by
  rw [handOne, hd]

theorem handOne_some {delay : Duration} (hd : start.filter (· ≤ limit) = some delay)
    (w : HookThread) (h : Hook α) (s : σ) :
    handOne around call limit w h start s =
      let reply := (call w h s).1.delayed delay
      settle around limit { w with slot := (reply.box limit).2 } h (reply.waited limit)
        (reply.box limit).1 (call w h s).2 := by
  rw [handOne, hd]

end

namespace Handed

theorem outcome_eq (limit : Duration) (c : Handed α) :
    c.outcome limit = (c.box limit).getD .timedOut := by
  rw [outcome, box]
  cases c.reply with
  | none => rfl
  | some reply => exact verdict_eq limit reply

theorem overran_eq (limit : Duration) (c : Handed α) :
    c.overran limit = (c.box limit).isNone := by
  rw [overran, outcome_eq, box]
  cases c.reply with
  | none => rfl
  | some reply =>
    rw [Option.bind_some, Reply.box]
    cases reply.inTime limit with
    | false => rfl
    | true =>
      simp only [if_true, Reply.outcome]
      cases reply.attempt <;> rfl

theorem deeds_eq (limit : Duration) (c : Handed α) :
    c.deeds limit = c.calls ++ if (c.box limit).isNone then [.interrupted c.hook] else [] := by
  rw [deeds, overran_eq]

end Handed

namespace Progress

theorem step_settle {p : Progress α} {h : Hook α} {waited : Duration}
    (hc : p.current = some (h, waited)) (s : σ) :
    p.step around s =
      let x := settle around p.limit p.worker h waited (p.box p.records.length) s
      ({ p with worker := x.2.1, current := none, records := p.records ++ [x.1] }, x.2.2) := by
  simp only [step, hc]

theorem step_hand {p : Progress α} {h : Hook α} {rest : List (Hook α)}
    (hc : p.current = none) (hw : p.waiting = h :: rest) (s : σ) :
    p.step around s =
      ({ p with
          waiting := rest
          current := some (h, p.limit)
          boxes := p.boxes ++ [none]
          queued := p.queued ++ [some (p.worker, h)] }, s) := by
  simp only [step, hc, hw]

theorem step_over {p : Progress α} (hc : p.current = none) (hw : p.waiting = []) (s : σ) :
    p.step around s = (p, s) := by
  simp only [step, hc, hw]

theorem isOver_iff {p : Progress α} : p.isOver = true ↔ p.waiting = [] ∧ p.current = none := by
  simp [isOver]

theorem begin_wait {p : Progress α} {hook : Nat} {w : HookThread} {h : Hook α}
    (hjob : p.job? hook = some (w, h)) (hwait : p.records.length ≤ hook) {delay : Duration}
    (hdelay : delay ≤ p.limit) (s : σ) :
    p.begin call hook delay s =
      some (p.answered hook h ((call w h s).1.delayed delay), (call w h s).2) := by
  simp only [begin, hjob, Nat.not_lt.mpr hwait, if_false, hdelay, if_true]

/-- A thread starts on a hook that lies in its queue, late or while the sweep waits for it. -/
theorem begin_cases {p q : Progress α} {hook : Nat} {delay : Duration} {s s' : σ}
    (hb : p.begin call hook delay s = some (q, s')) : ∃ w h, p.job? hook = some (w, h) ∧
      s' = (call w h s).2 ∧
      (hook < p.records.length ∧ q = p.forsaken hook ∨
        p.records.length ≤ hook ∧ delay ≤ p.limit ∧
          q = p.answered hook h ((call w h s).1.delayed delay)) := by
  rw [begin] at hb
  rcases hjob : p.job? hook with _ | ⟨w, h⟩
  · simp [hjob] at hb
  simp only [hjob] at hb
  refine ⟨w, h, rfl, ?_⟩
  split at hb
  · rename_i hlate
    cases hb
    exact ⟨rfl, .inl ⟨hlate, rfl⟩⟩
  · rename_i hwait
    split at hb
    · rename_i hdelay
      cases hb
      exact ⟨rfl, .inr ⟨Nat.not_lt.mp hwait, hdelay, rfl⟩⟩
    · cases hb

/-- An answer changes nothing but a box of a hook that the sweep is done with. -/
theorem deliver_eq {p q : Progress α} {hook : Nat} {outcome : Outcome}
    (h : p.deliver hook outcome = some q) :
    hook < p.records.length ∧ q = { p with boxes := p.boxes.set hook (some outcome) } := by
  rw [deliver] at h
  split at h
  · rename_i hover
    rw [isOverdue, Bool.and_eq_true, Bool.and_eq_true, Option.any_eq_true] at hover
    obtain ⟨⟨⟨record, hrecord, _⟩, _⟩, _⟩ := hover
    exact ⟨(List.getElem?_eq_some_iff.mp hrecord).1, (Option.some.inj h).symm⟩
  · cases h

theorem deliver_over {p q : Progress α} {hook : Nat} {outcome : Outcome}
    (h : p.deliver hook outcome = some q) : q.isOver = p.isOver ∧ q.report = p.report := by
  obtain ⟨_, rfl⟩ := deliver_eq h
  exact ⟨rfl, rfl⟩

end Progress

/-- What a turn does to hooks. -/
def Turn.log (call : Call α σ) (p : Progress α) (s : σ) : Turn σ → Log α
  | .sweep =>
    match p.current with
    | some (h, _) => if (p.box p.records.length).isNone then [.inl (.interrupted h)] else []
    | none => []
  | .begin hook delay =>
    match p.job? hook, p.begin call hook delay s with
    | some (w, h), some _ =>
      if hook < p.records.length then [.inr ⟨hook, w, h, (call w h s).1⟩]
      else [.inl (.called w h (call w h s).1)]
    | _, _ => []
  | .answer .. => []
  | .outside _ => []

/-! Taking down the deeds changes nothing else. -/

theorem note_noting (limit : Duration) (name : String) (o : Outcome) (s : σ)
    (ds : List (Deed α)) :
    note around.noting limit name o (s, ds) = (note around limit name o s, ds) := by
  rw [note, note]
  cases entry limit name o <;> rfl

theorem settle_noting (limit waited : Duration) (w : HookThread) (h : Hook α)
    (box : Option Outcome) (s : σ) (ds : List (Deed α)) :
    settle around.noting limit w h waited box (s, ds) =
      let x := settle around limit w h waited box s
      (x.1, x.2.1, x.2.2, ds ++ if box.isNone then [.interrupted h] else []) := by
  cases box with
  | none => simp [settle, Surroundings.noting, ← note_noting]
  | some o => simp [settle, note_noting]

theorem begin_noting (p : Progress α) (hook : Nat) (delay : Duration) (s : σ)
    (ds : List (Deed α)) :
    p.begin (noting call) hook delay (s, ds) = (p.begin call hook delay s).map fun x =>
      (x.1, x.2, ds ++ ((Turn.begin hook delay : Turn σ).log call p s).all) := by
  rw [Progress.begin, Turn.log, Progress.begin]
  rcases p.job? hook with _ | ⟨w, h⟩
  · rfl
  · by_cases hlate : hook < p.records.length
    · simp [hlate, noting, Log.all]
    · by_cases hdelay : delay ≤ p.limit <;> simp [hlate, hdelay, noting, Log.all]

theorem take_noting (t : Turn σ) (p : Progress α) (s : σ) (ds : List (Deed α)) :
    (t.noting : Turn (σ × List (Deed α))).take around.noting (noting call) (p, s, ds) =
      let x := t.take around call (p, s)
      (x.1, x.2, ds ++ (t.log call p s).all) := by
  cases t with
  | sweep =>
    rcases hc : p.current with _ | ⟨h, waited⟩
    · rcases hw : p.waiting with _ | ⟨h, rest⟩ <;>
        simp [Turn.noting, Turn.take, Turn.log, Progress.step, hc, hw, Log.all]
    · simp only [Turn.noting, Turn.take, Turn.log, Progress.step_settle hc, hc, settle_noting]
      split <;> simp [Log.all]
  | begin hook delay =>
    simp only [Turn.noting, Turn.take, begin_noting]
    rcases hb : p.begin call hook delay s with _ | x
    · simp only [Turn.log, hb]
      cases p.job? hook <;> simp [Log.all]
    · rfl
  | answer | outside => simp [Turn.noting, Turn.take, Turn.log, Log.all]

/-! ## 4. What a sweep has done so far -/

/-- What a sweep under way has done: it is done with some hooks, and may wait for one more. -/
structure Tracks (limit : Duration) (hooks : List (Hook α)) (p : Progress α) (log : Log α)
    (done : List (Handed α)) (last : Option (Handed α)) : Prop where
  limit_eq : p.limit = limit
  order : (done ++ last.toList).map Handed.hook ++ p.waiting = hooks
  records : p.records = done.map (Handed.record limit)
  current : p.current = last.map fun c => (c.hook, c.waited limit)
  boxes : p.boxes.length = done.length + last.toList.length
  box : ∀ c ∈ last, p.box done.length = c.box limit
  queued : p.queued.length = done.length + last.toList.length
  /-- A hook lies in its worker's queue until the thread starts on it, in time or late. -/
  job : ∀ n x, p.job? n = some x ↔ ∃ c, (done ++ last.toList)[n]? = some c ∧ c.begun = none ∧
    n ∉ log.late.map LateCall.number ∧ x = c.job
  delays : ∀ c ∈ done ++ last.toList, ∀ x ∈ c.begun, x.1 ≤ limit
  inWait : log.inWait = done.flatMap (Handed.deeds limit) ++ last.toList.flatMap Handed.calls
  late : ∀ l ∈ log.late, ∃ c, done[l.number]? = some c ∧ c.begun = none ∧ l.worker = c.worker ∧
    l.hook = c.hook
  once : (log.late.map LateCall.number).Nodup
  worker : p.worker.number = 1 + overruns limit done
  numbers : ∀ n c, (done ++ last.toList)[n]? = some c →
    c.worker.number = 1 + overruns limit (done.take n)

variable (around call) {limit : Duration} {hooks : List (Hook α)} {p q : Progress α}
  {log : Log α} {done : List (Handed α)}

theorem tracks_start (started : Timestamp) (limit : Duration) (hooks : List (Hook α)) :
    Tracks limit hooks (.start started limit hooks) [] [] none where
  limit_eq := rfl
  order := rfl
  records := rfl
  current := rfl
  boxes := rfl
  box := by simp
  queued := rfl
  job := by simp [Progress.start, Progress.job?]
  delays := by simp
  inWait := rfl
  late := by simp [Log.late]
  once := by simp [Log.late]
  worker := rfl
  numbers := by simp

theorem join_set_none {β : Type} (l : List (Option β)) (k n : Nat) (x : β) :
    (l.set k none)[n]?.join = some x ↔ n ≠ k ∧ l[n]?.join = some x := by
  rw [List.getElem?_set]
  by_cases hk : k = n
  · simp only [hk, if_true, ne_eq, not_true_eq_false, false_and, iff_false]
    split <;> simp
  · simp [hk, Ne.symm hk]

theorem getElem?_concat {β : Type} (l : List β) (b : β) (n : Nat) (c : β) :
    (l ++ [b])[n]? = some c ↔ l[n]? = some c ∨ n = l.length ∧ c = b := by
  rcases Nat.lt_trichotomy n l.length with hlt | rfl | hgt
  · simp [List.getElem?_append_left hlt, Nat.ne_of_lt hlt]
  · simp [eq_comm]
  · simp [List.getElem?_append_right (Nat.le_of_lt hgt), List.getElem?_eq_none (Nat.le_of_lt hgt),
      Nat.ne_of_gt hgt, Nat.sub_ne_zero_of_lt hgt]

theorem join_concat {β : Type} (l : List (Option β)) (n : Nat) (x y : β) :
    (l ++ [some y])[n]?.join = some x ↔ l[n]?.join = some x ∨ n = l.length ∧ x = y := by
  simp [Option.join_eq_some_iff, getElem?_concat]

/-- Late calls are of hooks that the sweep is done with. -/
theorem Tracks.not_late {last : Option (Handed α)} (ht : Tracks limit hooks p log done last) :
    done.length ∉ log.late.map LateCall.number := by
  intro hmem
  obtain ⟨l, hl, hnumber⟩ := List.mem_map.mp hmem
  obtain ⟨c, hc, _⟩ := ht.late l hl
  rw [hnumber] at hc
  simp at hc

/-- The sweep hands over its next hook. -/
theorem Tracks.hand (ht : Tracks limit hooks p log done none) {h : Hook α}
    {rest : List (Hook α)} (hw : p.waiting = h :: rest) (s : σ) :
    Tracks limit hooks (p.step around s).1 log done (some ⟨p.worker, h, none⟩) := by
  have hc : p.current = none := ht.current
  have hlen : p.queued.length = done.length := by simpa using ht.queued
  rw [Progress.step_hand hc hw]
  refine ⟨ht.limit_eq, ?_, ht.records, ?_, ?_, ?_, ?_, ?_, ?_, ?_, ht.late, ht.once, ht.worker, ?_⟩
  · simpa [hw] using ht.order
  · simp [ht.limit_eq, Handed.waited, Handed.reply]
  · simpa using ht.boxes
  · have hboxes : p.boxes.length = done.length := by simpa using ht.boxes
    simp [Progress.box, ← hboxes, Handed.box, Handed.reply]
  · simpa using ht.queued
  · intro n x
    have hold := ht.job n x
    simp only [Option.toList_none, List.append_nil] at hold
    refine (join_concat p.queued n x (p.worker, h)).trans ?_
    rw [show p.queued[n]?.join = p.job? n from rfl, hold]
    simp only [Option.toList_some, getElem?_concat]
    constructor
    · rintro (⟨c, hcn, hrest⟩ | ⟨rfl, rfl⟩)
      · exact ⟨c, .inl hcn, hrest⟩
      · exact ⟨_, .inr ⟨hlen, rfl⟩, rfl, hlen ▸ ht.not_late, rfl⟩
    · rintro ⟨c, hcn | ⟨rfl, rfl⟩, hbegun, hlate, rfl⟩
      · exact .inl ⟨c, hcn, hbegun, hlate, rfl⟩
      · exact .inr ⟨hlen.symm, rfl⟩
  · intro c hcm x hx
    rcases List.mem_append.mp hcm with hcm | hcm
    · exact ht.delays c (by simpa using hcm) x hx
    · obtain rfl : c = ⟨p.worker, h, none⟩ := by simpa using hcm
      cases hx
  · simpa [Handed.calls] using ht.inWait
  · intro n c hn
    rcases (getElem?_concat done _ n c).mp (by simpa using hn) with hold | ⟨rfl, rfl⟩
    · exact ht.numbers n c (by simpa using hold)
    · -- The worker for the hook that comes last has counted the overruns before it.
      simpa using ht.worker

/-- The sweep ends its wait for a hook. -/
theorem Tracks.settle {c : Handed α} (ht : Tracks limit hooks p log done (some c)) (s : σ) :
    Tracks limit hooks (p.step around s).1
      (log ++ (Turn.sweep : Turn σ).log call p s) (done ++ [c]) none := by
  have hc : p.current = some (c.hook, c.waited limit) := ht.current
  have hbox : p.box p.records.length = c.box limit := by
    rw [ht.records, List.length_map]
    exact ht.box c rfl
  have hlog : (Turn.sweep : Turn σ).log call p s =
      (if (c.box limit).isNone then [.interrupted c.hook] else []).map Sum.inl := by
    simp only [Turn.log, hc, hbox]
    split <;> rfl
  rw [Progress.step_settle hc, hbox, hlog]
  refine ⟨ht.limit_eq, ?_, ?_, rfl, ?_, ?_, ?_, ?_, ?_, ?_, ?_, ?_, ?_, ?_⟩
  · simpa using ht.order
  · cases hb : c.box limit with
    | none => simp [Sweep.settle, ht.records, Handed.record, Handed.outcome_eq, hb]
    | some o => simp [Sweep.settle, ht.records, Handed.record, Handed.outcome_eq, hb]
  · simpa using ht.boxes
  · simp
  · simpa using ht.queued
  · simpa [Progress.job?] using ht.job
  · simpa using ht.delays
  · simp [ht.inWait, Handed.deeds_eq]
  · intro l hl
    rw [Log.late_append, Log.late_map_inl, List.append_nil] at hl
    obtain ⟨c', hc', hrest⟩ := ht.late l hl
    exact ⟨c', (getElem?_concat _ _ _ _).mpr (.inl hc'), hrest⟩
  · simpa using ht.once
  · have hcount : overruns limit (done ++ [c]) =
        overruns limit done + if (c.box limit).isNone then 1 else 0 := by
      rw [overruns, List.countP_append, List.countP_singleton, ← Handed.overran_eq, overruns]
    rw [hcount]
    cases c.box limit with
    | none => simp [Sweep.settle, HookThread.next, ht.worker, Nat.add_assoc]
    | some o => simp [Sweep.settle, ht.worker]
  · intro n c' hn
    have hlt := (List.getElem?_eq_some_iff.mp hn).1
    rw [List.take_append_of_le_length (by simpa [Nat.lt_succ_iff] using hlt)]
    exact ht.numbers n c' (by simpa using hn)

/-- A late answer leaves alone what the sweep has done. -/
theorem Tracks.answer {last : Option (Handed α)} (ht : Tracks limit hooks p log done last)
    {hook : Nat} {outcome : Outcome} (h : p.deliver hook outcome = some q) :
    Tracks limit hooks q log done last := by
  obtain ⟨hlt, rfl⟩ := Progress.deliver_eq h
  rw [ht.records, List.length_map] at hlt
  refine { ht with boxes := ?_, box := ?_ }
  · simpa using ht.boxes
  -- The answer goes to a hook with a record, and the last one has none yet.
  · intro c hc
    rw [← ht.box c hc, Progress.box, Progress.box, List.getElem?_set_ne (Nat.ne_of_lt hlt)]

/-- A thread that was left alone starts on its hook. -/
theorem Tracks.forsake {last : Option (Handed α)} (ht : Tracks limit hooks p log done last)
    {hook : Nat} {w : HookThread} {h : Hook α} (hjob : p.job? hook = some (w, h))
    (hlate : hook < p.records.length) (reply : Reply) :
    Tracks limit hooks (p.forsaken hook) (log ++ [.inr ⟨hook, w, h, reply⟩]) done last := by
  obtain ⟨c, hc, hbegun, hnot, hx⟩ := (ht.job hook (w, h)).mp hjob
  obtain ⟨rfl, rfl⟩ := Prod.mk.inj hx
  have hlt : hook < done.length := by simpa [ht.records] using hlate
  refine { ht with queued := ?_, job := ?_, inWait := ?_, late := ?_, once := ?_ }
  · simpa [Progress.forsaken] using ht.queued
  · intro n x
    refine (join_set_none p.queued hook n x).trans ?_
    rw [show p.queued[n]?.join = p.job? n from rfl, ht.job n x]
    simp only [Log.late_append, Log.late_inr, List.map_append, List.map_cons, List.map_nil,
      List.mem_append, List.mem_singleton, not_or]
    constructor
    · rintro ⟨hne, c', hcn, hb, hl, rfl⟩
      exact ⟨c', hcn, hb, ⟨hl, hne⟩, rfl⟩
    · rintro ⟨c', hcn, hb, ⟨hl, hne⟩, rfl⟩
      exact ⟨hne, c', hcn, hb, hl, rfl⟩
  · rw [Log.inWait_append, Log.inWait_inr, List.append_nil, ht.inWait]
  · intro l hl
    rw [Log.late_append, Log.late_inr, List.mem_append, List.mem_singleton] at hl
    rcases hl with hl | rfl
    · exact ht.late l hl
    · exact ⟨c, by rwa [List.getElem?_append_left hlt] at hc, hbegun, rfl, rfl⟩
  · rw [Log.late_append, Log.late_inr, List.map_append, List.map_singleton, List.nodup_append_comm,
      List.singleton_append, List.nodup_cons]
    exact ⟨hnot, ht.once⟩

/-- The thread starts on the hook that the sweep waits for. -/
theorem Tracks.begin {last : Option (Handed α)} (ht : Tracks limit hooks p log done last)
    {hook : Nat} {w : HookThread} {h : Hook α} (hjob : p.job? hook = some (w, h))
    (hwait : p.records.length ≤ hook) {delay : Duration} (hdelay : delay ≤ p.limit)
    (reply : Reply) :
    last = some ⟨w, h, none⟩ ∧
    Tracks limit hooks (p.answered hook h (reply.delayed delay))
      (log ++ [.inl (.called w h reply)]) done (some ⟨w, h, some (delay, reply)⟩) := by
  obtain ⟨c, hc, hbegun, hnot, hx⟩ := (ht.job hook (w, h)).mp hjob
  obtain ⟨rfl, rfl⟩ := Prod.mk.inj hx
  have hge : done.length ≤ hook := by simpa [ht.records] using hwait
  -- Of the hooks that were handed over, only the last one has no record.
  obtain ⟨rfl, rfl⟩ : last = some c ∧ hook = done.length := by
    cases last with
    | none =>
      rw [Option.toList_none, List.append_nil, List.getElem?_eq_none hge] at hc
      cases hc
    | some c' =>
      rcases (getElem?_concat done c' hook c).mp hc with hold | ⟨rfl, rfl⟩
      · rw [List.getElem?_eq_none hge] at hold
        cases hold
      · exact ⟨rfl, rfl⟩
  have hbegun' : c = ⟨c.worker, c.hook, none⟩ := by
    rw [← hbegun]
  have hboxes : done.length < p.boxes.length := by
    rw [ht.boxes]
    simp
  refine ⟨by rw [← hbegun'], ?_⟩
  refine { ht with
    order := ?_, current := ?_, boxes := ?_, box := ?_, queued := ?_, job := ?_, delays := ?_
    inWait := ?_, late := ?_, once := ?_, numbers := ?_ }
  · simpa [Progress.answered] using ht.order
  · simp [Progress.answered, Handed.waited, Handed.reply, ht.limit_eq]
  · simpa [Progress.answered] using ht.boxes
  · simp [Progress.answered, Progress.box, hboxes, Handed.box, Handed.reply, ht.limit_eq]
  · simpa [Progress.answered] using ht.queued
  · intro n x
    refine (join_set_none p.queued done.length n x).trans ?_
    rw [show p.queued[n]?.join = p.job? n from rfl, ht.job n x]
    simp only [Option.toList_some, getElem?_concat, Log.late_append, Log.late_inl, List.append_nil]
    constructor
    · rintro ⟨hne, c', hcn | ⟨heq, _⟩, hrest⟩
      · exact ⟨c', .inl hcn, hrest⟩
      · exact absurd heq hne
    · rintro ⟨c', hcn | ⟨rfl, rfl⟩, hb, hrest⟩
      · exact ⟨Nat.ne_of_lt (List.getElem?_eq_some_iff.mp hcn).1, c', .inl hcn, hb, hrest⟩
      · cases hb
  · intro c' hc' x hx
    rcases List.mem_append.mp hc' with hc' | hc'
    · exact ht.delays c' (List.mem_append_left _ hc') x hx
    · obtain rfl : c' = ⟨c.worker, c.hook, some (delay, reply)⟩ := by simpa using hc'
      obtain rfl : x = (delay, reply) := by simpa [eq_comm] using hx
      exact ht.limit_eq ▸ hdelay
  · rw [Log.inWait_append, ht.inWait, hbegun']
    simp [Handed.calls]
  · rw [Log.late_append, Log.late_inl, List.append_nil]
    exact ht.late
  · rw [Log.late_append, Log.late_inl, List.append_nil]
    exact ht.once
  · intro n c' hn
    rcases (getElem?_concat done _ n c').mp (by simpa using hn) with hold | ⟨rfl, rfl⟩
    · exact ht.numbers n c' ((getElem?_concat _ _ _ _).mpr (.inl hold))
    · exact ht.numbers done.length c (by simp)

/-- How many steps a sweep has made that is done with some hooks and may wait for one more. -/
def stepsOf (done : List (Handed α)) (last : Option (Handed α)) : Nat :=
  2 * done.length + last.toList.length

theorem Tracks.hooks_length {last : Option (Handed α)} (ht : Tracks limit hooks p log done last) :
    hooks.length = done.length + last.toList.length + p.waiting.length := by
  rw [← ht.order]
  simp [Nat.add_assoc]

theorem Tracks.steps_le {last : Option (Handed α)} (ht : Tracks limit hooks p log done last) :
    stepsOf done last ≤ 2 * hooks.length := by
  have hlen := ht.hooks_length
  rw [stepsOf]
  omega

end Sweep

end SupervisedWorker
