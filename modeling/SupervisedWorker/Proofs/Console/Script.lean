import Mathlib.Data.List.Induction
import SupervisedWorker.Console.Script
import SupervisedWorker.Proofs.Console.Filling

/-!
# What remains of a script

The gate stands as the last control step has left it, so a script tells by itself which of its steps
find the gate suppressed. Those of them that write or flush are as good as not there: without them
the script leaves the same streams, and all its other steps answer the same. What the rest of the
steps send arrives in order, up to the point where the stream is full.

Results:
1. `Standing.Shows.step`, `shows_after`: the gate and the guards after a step and a script.
2. `perform_kept`: a script without its discarded steps.
3. `step_stream`, `stream_after`: what a step and what a script add to a stream.
4. `script_without_discarded`: all of this for a new gate, and when the steps fail.
-/

namespace SupervisedWorker

/-! ## 1. Streams and pieces -/

namespace OutStream

/-- Whether nothing has happened to a stream yet that takes something with every write. -/
structure IsNew (s : OutStream) : Prop where
  received : s.received = []
  flushes : s.flushes = 0
  chunk : s.chunk ≠ some 0

/-- The stream after it has received some bytes and a number of flushes. -/
def advance (s : OutStream) (bytes : List UInt8) (flushes : Nat) : OutStream :=
  { s with received := s.received ++ bytes, flushes := s.flushes + flushes }

theorem advance_nil (s : OutStream) : s.advance [] 0 = s := by
  rw [advance, List.append_nil, Nat.add_zero]

theorem advance_advance (s : OutStream) (bytes bytes' : List UInt8) (n n' : Nat) :
    (s.advance bytes n).advance bytes' n' = s.advance (bytes ++ bytes') (n + n') := by
  simp [advance, Nat.add_assoc]

theorem flush_eq_advance (s : OutStream) : s.flush.2 = s.advance [] 1 := by
  rw [flush, advance, List.append_nil]

/-- Flushes make no room. -/
theorem fits_advance (s : OutStream) (bytes bytes' : List UInt8) (n : Nat) :
    (s.advance bytes n).fits bytes' = (s.receive bytes).fits bytes' := rfl

/-- The first of some bytes, no more of them than an optional bound. -/
def capped (bound : Option Nat) (bytes : List UInt8) : List UInt8 :=
  match bound with
  | some n => bytes.take n
  | none => bytes

@[simp] theorem capped_nil (bound : Option Nat) : capped bound [] = [] := by
  cases bound with
  | none => rfl
  | some n => exact List.take_nil

theorem fits_eq_capped (s : OutStream) (bytes : List UInt8) :
    s.fits bytes = capped s.room bytes := by
  unfold fits capped
  cases s.room <;> rfl

theorem IsNew.fits {s : OutStream} (h : s.IsNew) (bytes : List UInt8) :
    s.fits bytes = capped s.limit bytes := by
  rw [fits_eq_capped, room, h.received]
  cases s.limit <;> rfl

theorem take_cap (bound : Option Nat) (bytes : List UInt8) (n : Nat) :
    bytes.take (cap bound n) = (capped bound bytes).take n := by
  cases bound with
  | none => rfl
  | some b => rw [cap, capped, List.take_take, Nat.min_comm]

theorem length_capped_le (bound : Option Nat) (bytes : List UInt8) :
    (capped bound bytes).length ≤ bytes.length := by
  cases bound with
  | none => exact Nat.le_refl _
  | some n => exact List.length_take_le' _ _

/-- One write takes what fits of one chunk. -/
theorem write_eq (s : OutStream) (bytes : List UInt8) :
    (s.write bytes).2 = s.receive (s.fits (capped s.chunk bytes)) := by
  unfold write
  split
  · rename_i hempty
    rw [List.isEmpty_iff.mp hempty, capped_nil, fits_nil, receive_nil]
  · split
    · rename_i hfull
      rw [fits_bounded hfull, List.take_zero, receive_nil]
    · have hall : (s.fits (capped s.chunk bytes)).length ≤ bytes.length :=
        Nat.le_trans ( fits_prefix _ _).length_le (length_capped_le _ _)
      simp only [take_cap, ← fits_eq_capped, List.take_of_length_le hall, receive]

end OutStream

namespace Gate

open OutStream

theorem withStream_stream (g : Gate) (side : Side) : g.withStream side (g.stream side) = g := by
  cases side <;> rfl

theorem stream_withStream (g : Gate) (side side' : Side) (s : OutStream) :
    (g.withStream side s).stream side' = if side = side' then s else g.stream side' := by
  cases side <;> cases side' <;> rfl

theorem withStream_withStream (g : Gate) (side : Side) (s s' : OutStream) :
    (g.withStream side s).withStream side s' = g.withStream side s' := by
  cases side <;> rfl

theorem suppressed_withStream (g : Gate) (side : Side) (s : OutStream) :
    (g.withStream side s).suppressed = g.suppressed := by
  cases side <;> rfl

/-- An open gate lets an operation pass. -/
theorem pass_open {α : Type} {g : Gate} (h : g.suppressed = false) (side : Side) (discarded : α)
    (operation : OutStream → Except StreamError α × OutStream) :
    g.pass side discarded operation =
      ((operation (g.stream side)).1, g.withStream side (operation (g.stream side)).2) := by
  rw [pass, if_neg (Bool.eq_false_iff.mp h), put]

/-- Of pieces that are written one after the other a stream receives what fits, and the writing
fails if that is not all. -/
theorem writePieces_open {g : Gate} (h : g.suppressed = false) {side : Side}
    (hchunk : (g.stream side).chunk ≠ some 0) (pieces : List (List UInt8)) :
    g.writePieces side pieces =
      (if (g.stream side).fits pieces.flatten = pieces.flatten then .ok () else .error .closed,
        g.withStream side ((g.stream side).receive ((g.stream side).fits pieces.flatten))) := by
  induction pieces generalizing g with
  | nil =>
    rw [writePieces, List.flatten_nil, fits_nil, if_pos rfl, receive_nil, withStream_stream]
  | cons piece rest ih =>
    rw [writePieces, writeAll, pass_open h, writeAll_eq hchunk, List.flatten_cons]
    have hall := fits_append (g.stream side) piece rest.flatten
    by_cases hfits : (g.stream side).fits piece = piece
    · rw [if_pos hfits, hfits]
      dsimp only
      have hnext : (g.withStream side ((g.stream side).receive piece)).stream side =
          (g.stream side).receive piece := by
        rw [stream_withStream, if_pos rfl]
      have hopen : (g.withStream side ((g.stream side).receive piece)).suppressed = false := by
        rw [suppressed_withStream, h]
      rw [ih hopen (by rwa [hnext]), hnext, withStream_withStream, receive_receive, hall, hfits]
      simp only [List.append_right_inj]
    · have hfull := fits_bounded (full_of_fits_ne hfits) rest.flatten
      rw [List.take_zero] at hfull
      rw [hfull, List.append_nil] at hall
      have hless : (g.stream side).fits (piece ++ rest.flatten) ≠ piece ++ rest.flatten := by
        rw [hall]
        intro heq
        have hlength := ( fits_prefix (g.stream side) piece).length_le
        rw [heq, List.length_append] at hlength
        exact hfits (( fits_prefix _ _).eq_of_length_le (by rw [heq, List.length_append]; omega))
      rw [if_neg hfits, if_neg hless, hall]

/-! ## 2. Suppressed writing -/

theorem writePieces_suppressed {g : Gate} (h : g.suppressed = true) (side : Side)
    (pieces : List (List UInt8)) : g.writePieces side pieces = (.ok (), g) := by
  induction pieces with
  | nil => rw [writePieces]
  | cons piece rest ih =>
    rw [writePieces, writeAll, pass, if_pos h]
    exact ih

theorem writeAll_eq_writePieces (g : Gate) (side : Side) (bytes : List UInt8) :
    g.writeAll side bytes = g.writePieces side [bytes] := by
  rw [writePieces]
  rcases g.writeAll side bytes with ⟨_ | _, g'⟩ <;> rfl

/-- A line is two pieces: its text and a line break. -/
theorem writeLine_eq_writePieces (g : Gate) (side : Side) (line : String) :
    g.writeLine side line = g.writePieces side [Text.utf8 line, Text.utf8 "\n"] := by
  cases h : g.suppressed with
  | true => rw [writeLine_suppressed h, writePieces_suppressed h]
  | false =>
    rw [writeLine, pass_open h, OutStream.writeLine, writePieces, writeAll, pass_open h]
    rcases (g.stream side).writeAll (Text.utf8 line) with ⟨_ | _, s⟩
    · rfl
    · have hopen : (g.withStream side s).suppressed = false := by
        rw [suppressed_withStream, h]
      dsimp only
      rw [← writeAll_eq_writePieces, writeAll, pass_open hopen, stream_withStream, if_pos rfl,
        withStream_withStream]

theorem suppressed_writePieces (g : Gate) (side : Side) (pieces : List (List UInt8)) :
    (g.writePieces side pieces).2.suppressed = g.suppressed := by
  induction pieces generalizing g with
  | nil => rfl
  | cons piece rest ih =>
    have hpiece : (g.writeAll side piece).2.suppressed = g.suppressed := pass_suppressed ..
    rw [writePieces]
    rcases hw : g.writeAll side piece with ⟨_ | _, g'⟩ <;> rw [hw] at hpiece
    · exact hpiece
    · exact (ih g').trans hpiece

end Gate

/-! ## 3. The standing of the gate -/

namespace Console

open OutStream
open Gate (Side)

/-- Whether a step writes or flushes. -/
def Step.isData : Step → Bool
  | .printLine _ | .printErrorLine _ | .writeOnce _ | .writePieces _ => true
  | .flushOut | .flush => true
  | _ => false

/-- Whether a control step suppresses the gate. -/
def Step.isSuppressing : Step → Bool
  | .suppress | .takeGuard => true
  | _ => false

/-- How many guards are held, and the last control step. -/
structure Standing where
  guards : Nat
  last : Option Step

namespace Standing

/-- The standing after one more step. A guard that nobody holds cannot be dropped. -/
def step (c : Standing) : Step → Standing
  | .suppress => { c with last := some .suppress }
  | .resume => { c with last := some .resume }
  | .takeGuard => ⟨c.guards + 1, some .takeGuard⟩
  | .dropGuard index => if c.guards = 0 then c else ⟨c.guards - 1, some (.dropGuard index)⟩
  | _ => c

/-- Whether the last control step has suppressed the gate. -/
def isSuppressed (c : Standing) : Bool := c.last.any Step.isSuppressing

end Standing

/-- The standing after a script, which begins with an open gate and no guards. -/
def standing (script : List Step) : Standing := script.foldl Standing.step ⟨0, none⟩

theorem standing_concat (script : List Step) (step : Step) :
    standing (script ++ [step]) = (standing script).step step := List.foldl_append ..

theorem Standing.step_of_data (c : Standing) {step : Step} (h : step.isData = true) :
    c.step step = c := by
  cases step <;> first | rfl | cases h

/-- Whether a state is that of the standing. -/
structure Standing.Shows (c : Standing) (s : State) : Prop where
  suppressed : s.gate.suppressed = c.isSuppressed
  guards : s.guards = c.guards

/-- Where a step writes that writes all of something or fails, and in which pieces. -/
def Step.pieces? : Step → Option (Side × List (List UInt8))
  | .printLine text => some (.out, [Text.utf8 text, Text.utf8 "\n"])
  | .printErrorLine text => some (.err, [Text.utf8 text, Text.utf8 "\n"])
  | .writePieces pieces => some (.out, pieces)
  | _ => none

theorem step_pieces {step : Step} {side : Side} {pieces : List (List UInt8)}
    (h : step.pieces? = some (side, pieces)) (s : State) :
    s.step step = s.run (s.gate.writePieces side pieces) := by
  cases step <;> cases h <;>
    simp [State.step, Gate.writeLine_eq_writePieces]

theorem step_writeOnce (s : State) (bytes : List UInt8) : s.step (.writeOnce bytes) =
    (.ofCount (s.gate.write .out bytes).1, { s with gate := (s.gate.write .out bytes).2 }) := rfl

/-- A step on data moves neither the gate nor a guard. -/
theorem data_keeps {step : Step} (h : step.isData = true) (s : State) :
    (s.step step).2.gate.suppressed = s.gate.suppressed ∧ (s.step step).2.guards = s.guards := by
  rcases hp : step.pieces? with _ | ⟨side, pieces⟩
  · cases step with
    | writeOnce bytes =>
      rw [step_writeOnce]
      exact ⟨Gate.pass_suppressed s.gate .out _ _, rfl⟩
    | flushOut => exact ⟨Gate.pass_suppressed s.gate .out _ _, rfl⟩
    | flush => exact ⟨Gate.suppressed_flush s.gate, rfl⟩
    | printLine _ | printErrorLine _ | writePieces _ => cases hp
    | suppress | resume | takeGuard | dropGuard _ | describe => cases h
  · rw [step_pieces hp]
    exact ⟨Gate.suppressed_writePieces .., rfl⟩

/-- The gate stands as the last control step has left it. -/
theorem Standing.Shows.step {c : Standing} {s : State} (h : c.Shows s) (step : Step) :
    (c.step step).Shows (s.step step).2 := by
  cases hdata : step.isData with
  | true =>
    obtain ⟨hgate, hguards⟩ := data_keeps hdata s
    rw [c.step_of_data hdata]
    exact ⟨hgate.trans h.suppressed, hguards.trans h.guards⟩
  | false =>
    cases step with
    | suppress => exact ⟨rfl, h.guards⟩
    | resume => exact ⟨rfl, h.guards⟩
    | takeGuard => exact ⟨rfl, congrArg (· + 1) h.guards⟩
    | dropGuard index =>
      obtain ⟨gate, guards⟩ := s
      obtain rfl : guards = c.guards := h.guards
      cases hheld : c.guards with
      | zero => simpa [Standing.step, State.step, hheld] using h
      | succ held =>
        rw [Standing.step, if_neg (by omega), State.step]
        dsimp only
        rw [hheld]
        exact ⟨rfl, rfl⟩
    | describe => exact h
    | printLine _ | printErrorLine _ | writeOnce _ | writePieces _ | flushOut | flush =>
      cases hdata

/-- The answer to a step on data that is discarded. -/
def Step.discarded : Step → Answer
  | .writeOnce bytes => .wrote bytes.length
  | _ => .done

/-- A suppressed gate discards the steps on data. -/
theorem step_discarded {s : State} (h : s.gate.suppressed = true) {step : Step}
    (hdata : step.isData = true) : s.step step = (step.discarded, s) := by
  rcases hp : step.pieces? with _ | ⟨side, pieces⟩
  · cases step with
    | writeOnce bytes => rw [step_writeOnce, Gate.write, Gate.pass, if_pos h]; rfl
    | flushOut => rw [State.step, Gate.flushSide, Gate.pass, if_pos h]; rfl
    | flush => rw [State.step, Gate.flush_suppressed h]; rfl
    | printLine _ | printErrorLine _ | writePieces _ => cases hp
    | suppress | resume | takeGuard | dropGuard _ | describe => cases hdata
  · rw [step_pieces hp, Gate.writePieces_suppressed h]
    cases step <;> cases hp <;> rfl

/-! ## 4. A script without its discarded steps -/

/-- The state that a script leaves. -/
def State.after (s : State) (script : List Step) : State :=
  script.foldl (fun s step => (s.step step).2) s

theorem after_concat (s : State) (script : List Step) (step : Step) :
    s.after (script ++ [step]) = ((s.after script).step step).2 := List.foldl_append ..

theorem perform_concat (s : State) (script : List Step) (step : Step) :
    s.perform (script ++ [step]) = s.perform script ++ [(s.after script).step step] := by
  induction script generalizing s with
  | nil => rfl
  | cons first rest ih => exact congrArg (_ :: ·) (ih _)

/-- Whether a step gets through after others: a step on data does not that finds the gate
suppressed. -/
def passes (before : List Step) (step : Step) : Bool :=
  !((standing before).isSuppressed && step.isData)

/-- For every step of a script whether it gets through after others. -/
def passing (before : List Step) : List Step → List Bool
  | [] => []
  | step :: rest => passes before step :: passing (before ++ [step]) rest

/-- The entries at the marked places. -/
def kept {α : Type} (marks : List Bool) (l : List α) : List α :=
  ((marks.zip l).filter (·.1)).map (·.2)

@[simp] theorem kept_nil {α : Type} (marks : List Bool) : kept marks ([] : List α) = [] := by
  rw [kept, List.zip_nil_right]
  rfl

@[simp] theorem kept_cons {α : Type} (mark : Bool) (marks : List Bool) (a : α) (l : List α) :
    kept (mark :: marks) (a :: l) = if mark then a :: kept marks l else kept marks l := by
  cases mark <;> rfl

/-- Without the discarded steps a script does the same. -/
theorem perform_kept {before : List Step} {s : State} (h : (standing before).Shows s)
    (script : List Step) :
    s.perform (kept (passing before script) script) =
      kept (passing before script) (s.perform script) ∧
    s.after (kept (passing before script) script) = s.after script := by
  induction script generalizing before s with
  | nil => exact ⟨rfl, rfl⟩
  | cons step rest ih =>
    have hnext : (standing (before ++ [step])).Shows (s.step step).2 := by
      rw [standing_concat]
      exact h.step step
    have hrest := ih hnext
    rw [passing, kept_cons, State.perform, kept_cons]
    cases hpasses : passes before step with
    | true => exact ⟨congrArg (_ :: ·) hrest.1, hrest.2⟩
    | false =>
      -- A discarded step changes nothing, so the rest begins where it began.
      obtain ⟨hclosed, hdata⟩ : (standing before).isSuppressed = true ∧ step.isData = true := by
        simpa [passes] using hpasses
      have hsame : (s.step step).2 = s := by
        rw [step_discarded (h.suppressed.trans hclosed) hdata]
      have hafter : s.after (step :: rest) = s.after rest := congrArg (·.after rest) hsame
      rw [hsame] at hrest
      exact ⟨by simpa [hsame] using hrest.1, by simpa [hafter] using hrest.2⟩

/-! ## 5. What the streams receive -/

/-- What an open step sends to a side, when one write to the output takes a chunk at most. -/
def Step.sends (chunk : Option Nat) (side : Side) : Step → List UInt8
  | .writeOnce bytes => if side = .out then capped chunk bytes else []
  | step =>
    match step.pieces? with
    | some (target, pieces) => if target = side then pieces.flatten else []
    | none => []

/-- Whether an open step flushes a side. A flush of both that fails at the output ends there. -/
def Step.flushes (outFails : Bool) (side : Side) : Step → Bool
  | .flushOut => side = .out
  | .flush => side = .out || !outFails
  | _ => false

theorem sends_pieces {step : Step} {target : Side} {pieces : List (List UInt8)}
    (h : step.pieces? = some (target, pieces)) (chunk : Option Nat) (side : Side) :
    step.sends chunk side = (if target = side then pieces.flatten else []) ∧
      ∀ outFails, step.flushes outFails side = false := by
  cases step <;> cases h <;> exact ⟨rfl, fun _ => rfl⟩

/-- An open gate passes a flush to the output, and then to the error output unless that failed. -/
theorem flush_open {g : Gate} (h : g.suppressed = false) :
    g.flush = if g.out.flushFails then (.error .flushRefused, { g with out := g.out.advance [] 1 })
      else (if g.err.flushFails then .error .flushRefused else .ok (),
        { g with out := g.out.advance [] 1, err := g.err.advance [] 1 }) := by
  rw [Gate.flush, if_neg (Bool.eq_false_iff.mp h), Gate.flushSide, Gate.pass_open h,
    flush_eq_advance, flush]
  cases hfails : g.out.flushFails with
  | true => simp [Gate.stream, hfails, Gate.withStream]
  | false =>
    have hopen : ({ g with out := g.out.advance [] 1 } : Gate).suppressed = false := h
    simp only [Gate.stream, hfails, Gate.withStream, Gate.flushSide, Bool.false_eq_true, if_false]
    rw [Gate.pass_open hopen, flush_eq_advance]
    rfl

theorem stream_run (s : State) (result : Except StreamError Unit × Gate) (side : Side) :
    (s.run result).2.gate.stream side = result.2.stream side := rfl

/-- A step that neither writes nor flushes leaves the streams alone. -/
theorem control_stream {step : Step} (h : step.isData = false) (s : State) (side : Side) :
    (s.step step).2.gate.stream side = s.gate.stream side := by
  cases step with
  | suppress | resume | takeGuard => cases side <;> rfl
  | dropGuard _ => rw [State.step]; split <;> cases side <;> rfl
  | describe => rfl
  | printLine _ | printErrorLine _ | writeOnce _ | writePieces _ | flushOut | flush =>
    cases h

/-- What an open step adds to a stream. -/
theorem step_stream {s : State} (h : s.gate.suppressed = false)
    (hchunk : ∀ side, (s.gate.stream side).chunk ≠ some 0) (step : Step) (side : Side) :
    (s.step step).2.gate.stream side = (s.gate.stream side).advance
      ((s.gate.stream side).fits (step.sends s.gate.out.chunk side))
      (step.flushes s.gate.out.flushFails side).toNat := by
  have hidle : s.gate.stream side =
      (s.gate.stream side).advance ((s.gate.stream side).fits []) 0 := by
    rw [fits_nil, advance_nil]
  rcases hp : step.pieces? with _ | ⟨target, pieces⟩
  · cases step with
    | writeOnce bytes =>
      rw [step_writeOnce, Gate.write, Gate.pass_open h]
      dsimp only
      rw [write_eq, Gate.stream_withStream]
      cases side with
      | out => rfl
      | err => exact hidle
    | flushOut =>
      rw [State.step, Gate.flushSide, Gate.pass_open h, stream_run, flush_eq_advance,
        Gate.stream_withStream]
      cases side with
      | out => exact (congrArg (OutStream.advance _ · 1) (fits_nil _)).symm
      | err => exact hidle
    | flush =>
      have hnone : Step.sends s.gate.out.chunk side .flush = [] := rfl
      rw [State.step, stream_run, flush_open h, hnone, fits_nil, Step.flushes]
      cases side <;> cases hfails : s.gate.out.flushFails <;>
        simp [Gate.stream, advance_nil]
    | suppress | resume | takeGuard | dropGuard _ | describe =>
      rw [control_stream rfl]
      exact hidle
    | printLine _ | printErrorLine _ | writePieces _ => cases hp
  · obtain ⟨hsends, hflushes⟩ := sends_pieces hp s.gate.out.chunk side
    rw [step_pieces hp, stream_run, Gate.writePieces_open h (hchunk target),
      Gate.stream_withStream, hsends, hflushes]
    split
    · rename_i htarget
      rw [htarget]
      rfl
    · exact hidle

/-- An open step that is to write everything fails if not everything fits. -/
theorem answer_pieces {s : State} (h : s.gate.suppressed = false) {step : Step} {side : Side}
    {pieces : List (List UInt8)} (hchunk : (s.gate.stream side).chunk ≠ some 0)
    (hp : step.pieces? = some (side, pieces)) :
    (s.step step).1 =
      if ((s.step step).2.gate.stream side).received =
        (s.gate.stream side).received ++ pieces.flatten then .done else .failed .closed := by
  rw [step_pieces hp, stream_run, State.run, Gate.writePieces_open h hchunk,
    Gate.stream_withStream, if_pos rfl]
  simp only [receive, List.append_right_inj]
  split <;> rfl

/-! ## 6. Whole scripts -/

theorem length_passing (before script : List Step) :
    (passing before script).length = script.length := by
  induction script generalizing before with
  | nil => rfl
  | cons step rest ih => exact congrArg (· + 1) (ih _)

theorem passing_concat (before script : List Step) (step : Step) :
    passing before (script ++ [step]) =
      passing before script ++ [passes (before ++ script) step] := by
  induction script generalizing before with
  | nil => simp [passing]
  | cons first rest ih =>
    rw [List.cons_append, passing, ih, passing, List.append_assoc]
    rfl

theorem kept_append {α : Type} {marks : List Bool} {l : List α} (h : marks.length = l.length)
    (marks' : List Bool) (l' : List α) :
    kept (marks ++ marks') (l ++ l') = kept marks l ++ kept marks' l' := by
  rw [kept, List.zip_append h, List.filter_append, List.map_append]
  rfl

/-- The steps of a script that get through. -/
def audible (script : List Step) : List Step := kept (passing [] script) script

theorem audible_concat (script : List Step) (step : Step) :
    audible (script ++ [step]) = audible script ++ if passes script step then [step] else [] := by
  rw [audible, passing_concat, kept_append (length_passing ..), kept_cons, kept_nil]
  rfl

/-- All that the open steps of a script send to a side. -/
def sent (chunk : Option Nat) (side : Side) (script : List Step) : List UInt8 :=
  (audible script).flatMap (·.sends chunk side)

/-- How often the open steps of a script flush a side. -/
def flushed (outFails : Bool) (side : Side) (script : List Step) : Nat :=
  (audible script).countP (·.flushes outFails side)

theorem shows_after {s : State} (h : (standing []).Shows s) (script : List Step) :
    (standing script).Shows (s.after script) := by
  induction script using List.reverseRecOn with
  | nil => exact h
  | append_singleton script step ih =>
    rw [standing_concat, after_concat]
    exact ih.step step

theorem control_adds {step : Step} (h : step.isData = false) (chunk : Option Nat) (side : Side)
    (outFails : Bool) : step.sends chunk side = [] ∧ step.flushes outFails side = false := by
  cases step with
  | suppress | resume | takeGuard | dropGuard _ | describe => exact ⟨rfl, rfl⟩
  | printLine _ | printErrorLine _ | writeOnce _ | writePieces _ | flushOut | flush =>
    cases h

/-- A stream receives of what the open steps send to it what fits, and every flush of theirs. -/
theorem stream_after {s : State} (h : (standing []).Shows s)
    (hchunk : ∀ side, (s.gate.stream side).chunk ≠ some 0) (script : List Step) (side : Side) :
    (s.after script).gate.stream side = (s.gate.stream side).advance
      ((s.gate.stream side).fits (sent s.gate.out.chunk side script))
      (flushed s.gate.out.flushFails side script) := by
  induction script using List.reverseRecOn generalizing side with
  | nil => exact ((congrArg (OutStream.advance _ · 0) (fits_nil _)).trans (advance_nil _)).symm
  | append_singleton script step ih =>
    have hshows := shows_after h script
    rw [after_concat, sent, flushed, audible_concat]
    cases hpasses : passes script step with
    | false =>
      obtain ⟨hclosed, hdata⟩ : (standing script).isSuppressed = true ∧ step.isData = true := by
        simpa [passes] using hpasses
      rw [step_discarded (hshows.suppressed.trans hclosed) hdata, ih]
      simp [sent, flushed]
    | true =>
      have hstep : ((s.after script).step step).2.gate.stream side =
          ((s.after script).gate.stream side).advance
            (((s.after script).gate.stream side).fits (step.sends s.gate.out.chunk side))
            (step.flushes s.gate.out.flushFails side).toNat := by
        cases hclosed : (s.after script).gate.suppressed with
        | true =>
          have hdata : step.isData = false := by
            simpa [passes, ← hshows.suppressed, hclosed] using hpasses
          obtain ⟨hsends, hflushes⟩ := control_adds hdata s.gate.out.chunk side
            s.gate.out.flushFails
          rw [control_stream hdata, hsends, hflushes, fits_nil, Bool.toNat_false, advance_nil]
        | false =>
          -- Neither a chunk nor a refusal changes on the way.
          have hsame : ∀ side, ((s.after script).gate.stream side).chunk =
                (s.gate.stream side).chunk ∧
              ((s.after script).gate.stream side).flushFails = (s.gate.stream side).flushFails := by
            intro side
            rw [ih side]
            exact ⟨rfl, rfl⟩
          have hopen := step_stream hclosed (fun side => (hsame side).1 ▸ hchunk side) step side
          rwa [show (s.after script).gate.out.chunk = s.gate.out.chunk from (hsame .out).1,
            show (s.after script).gate.out.flushFails = s.gate.out.flushFails from
              (hsame .out).2] at hopen
      rw [hstep, ih, fits_advance, advance_advance, ← fits_append]
      cases hflushes : step.flushes s.gate.out.flushFails side <;> simp [sent, flushed, hflushes]

theorem Standing.isSuppressed_iff {c : Standing} : c.isSuppressed = true ↔
    c.last = some .suppress ∨ c.last = some .takeGuard := by
  rw [isSuppressed]
  rcases c.last with _ | _ | _ | _ | _ | _ | _ | _ | _ | _ | _ | _ | _ <;>
    simp [Step.isSuppressing]

/-- A script at a new gate, and one step more. Without its discarded steps the script does the same:
the others answer the same and leave the same gate and streams behind, and so does the whole. A
stream has received the first bytes of what the open steps have sent to it, as many as it takes. The
step finds the gate suppressed if the last control step before it has suppressed it. If it writes or
flushes then, it succeeds and changes nothing. At an open gate, a step that is to write everything
fails if not everything has arrived, and a flush that fails at the output stops there. -/
theorem script_without_discarded {out err : OutStream} (hout : out.IsNew) (herr : err.IsNew)
    (script : List Step) (step : Step) :
    let s : State := ⟨.ofStreams out err, 0⟩
    let s₁ := s.after script
    s.perform (audible script) = kept (passing [] script) (s.perform script) ∧
    s.after (audible script) = s₁ ∧
    (∀ side, (s₁.gate.stream side).received =
        capped (s.gate.stream side).limit (sent out.chunk side script) ∧
      (s₁.gate.stream side).flushes = flushed out.flushFails side script) ∧
    s.perform (script ++ [step]) = s.perform script ++ [s₁.step step] ∧
    (s₁.gate.suppressed = true ↔ (standing script).last = some .suppress ∨
      (standing script).last = some .takeGuard) ∧
    (s₁.gate.suppressed = true → step.isData = true → s₁.step step = (step.discarded, s₁)) ∧
    (s₁.gate.suppressed = false →
      (∀ side pieces, step.pieces? = some (side, pieces) → (s₁.step step).1 =
        if ((s₁.step step).2.gate.stream side).received =
          (s₁.gate.stream side).received ++ pieces.flatten then .done else .failed .closed) ∧
      (step = .flush → out.flushFails = true → (s₁.step step).1 = .failed .flushRefused ∧
        (s₁.step step).2.gate.err = s₁.gate.err)) := by
  intro s s₁
  have hnew : (standing []).Shows s := ⟨rfl, rfl⟩
  have hside : ∀ side, (s.gate.stream side).IsNew := by
    rintro (_ | _)
    · exact hout
    · exact herr
  have hstream := stream_after hnew (fun side => (hside side).chunk) script
  have hshows := shows_after hnew script
  obtain ⟨hperform, hafter⟩ := perform_kept hnew script
  refine ⟨hperform, hafter, ?_, perform_concat s script step, ?_, fun h => step_discarded h, ?_⟩
  · intro side
    rw [hstream side, advance, (hside side).fits, (hside side).received, (hside side).flushes]
    exact ⟨List.nil_append _, Nat.zero_add _⟩
  · rw [hshows.suppressed, Standing.isSuppressed_iff]
  · intro hopen
    refine ⟨?_, ?_⟩
    · intro side pieces hp
      refine answer_pieces hopen ?_ hp
      rw [hstream side]
      exact (hside side).chunk
    · rintro rfl hfails
      have hrefused : s₁.gate.out.flushFails = true :=
        (congrArg OutStream.flushFails (hstream .out)).trans hfails
      rw [State.step, State.run, flush_open hopen, if_pos hrefused]
      exact ⟨rfl, rfl⟩

/-- The output takes five bytes, two at once, and refuses to be flushed. A line, and a write that is
cut to a chunk after a guard has been dropped that was not the only one: this is all that arrives,
and the flush does not go on to the error output. -/
theorem script_without_discarded_two_guards :
    let out : OutStream := ⟨some 2, some 5, true, [], 0⟩
    let script : List Step := [.printLine "ab", .takeGuard, .printLine "lost", .takeGuard,
      .dropGuard 0, .write "cdef", .suppress, .flush, .resume]
    let s₁ := State.after ⟨.ofStreams out .unlimited, 0⟩ script
    out.IsNew ∧ OutStream.unlimited.IsNew ∧ s₁.gate.out.received = Text.utf8 "ab\ncd" ∧
      s₁.gate.out.flushes = 0 ∧ (s₁.step .flush).1 = .failed .flushRefused ∧
      (s₁.step .flush).2.gate.err = s₁.gate.err := by
  intro out script s₁
  have hout : out.IsNew := ⟨rfl, rfl, by decide⟩
  have herr : OutStream.unlimited.IsNew := ⟨rfl, rfl, nofun⟩
  obtain ⟨_, _, hstreams, _, hsuppressed, _, hopen⟩ :=
    script_without_discarded hout herr script .flush
  have hclosed : s₁.gate.suppressed = false := by
    rw [← Bool.not_eq_true, hsuppressed]
    decide
  obtain ⟨hreceived, hflushes⟩ := hstreams .out
  refine ⟨hout, herr, hreceived.trans (by decide +kernel), hflushes.trans (by decide +kernel),
    (hopen hclosed).2 rfl rfl⟩

end Console

end SupervisedWorker
