import SupervisedWorker.Console.Gate

/-!
# What gets through the gate

A suppressed gate lets nothing through and says that everything went well. An open gate before
streams that accept everything lets every line through.

Results:
1. `writeAll_accepts`: a stream that accepts everything has received what was written to it.
2. `writeLine_suppressed`, `writeLine_open`: a line before either position of the gate.
-/

namespace SupervisedWorker

/-! ## 1. Streams -/

namespace OutStream

/-- Whether a stream accepts everything: it never fills up, and takes something with every
write. -/
structure AcceptsAll (s : OutStream) : Prop where
  limit : s.limit = none
  chunk : s.chunk ≠ some 0

theorem acceptsAll_unlimited : unlimited.AcceptsAll := ⟨rfl, nofun⟩

/-- The stream after it has received some bytes. -/
def receive (s : OutStream) (bytes : List UInt8) : OutStream :=
  { s with received := s.received ++ bytes }

theorem receive_nil (s : OutStream) : s.receive [] = s := by
  rw [receive, List.append_nil]

theorem receive_receive (s : OutStream) (bytes bytes' : List UInt8) :
    (s.receive bytes).receive bytes' = s.receive (bytes ++ bytes') := by
  simp [receive]

theorem AcceptsAll.receive {s : OutStream} (h : s.AcceptsAll) (bytes : List UInt8) :
    (s.receive bytes).AcceptsAll := ⟨h.limit, h.chunk⟩

theorem cap_pos {bound : Option Nat} (h : bound ≠ some 0) (n : Nat) :
    ∃ k, cap bound (n + 1) = k + 1 ∧ k ≤ n := by
  cases bound with
  | none => exact ⟨n, rfl, Nat.le_refl n⟩
  | some b =>
    cases b with
    | zero => exact absurd rfl h
    | succ b => exact ⟨min b n, Nat.succ_min_succ b n, Nat.min_le_right b n⟩

/-- One write takes something, unless there is nothing to write. -/
theorem write_accepts {s : OutStream} (h : s.AcceptsAll) (byte : UInt8) (rest : List UInt8) :
    ∃ n, s.write (byte :: rest) = (.ok (n + 1), s.receive (byte :: rest.take n)) := by
  obtain ⟨n, hcap, _⟩ := cap_pos h.chunk rest.length
  refine ⟨n, ?_⟩
  have hroom : s.room = none := by
    rw [room, h.limit]
    rfl
  simp [write, hroom, cap.eq_def none, hcap, receive]

/-- A stream that accepts everything has received what was written to it. -/
theorem writeAll_accepts {s : OutStream} (h : s.AcceptsAll) (bytes : List UInt8) :
    s.writeAll bytes = (.ok (), s.receive bytes) := by
  induction hlen : bytes.length using Nat.strongRecOn generalizing s bytes with
  | ind len ih =>
    cases bytes with
    | nil => rw [writeAll, receive_nil]
    | cons byte rest =>
      obtain ⟨n, hwrite⟩ := write_accepts h byte rest
      have hshorter : (rest.drop n).length < len := by
        rw [← hlen, List.length_drop, List.length_cons]
        exact Nat.lt_succ_of_le (Nat.sub_le _ _)
      rw [writeAll, hwrite]
      dsimp only
      rw [ih _ hshorter (h.receive _) _ rfl, receive_receive, List.cons_append,
        List.take_append_drop]

end OutStream

/-! ## 2. The gate -/

namespace Gate

/-- A line as bytes, with its line break. -/
def lineBytes (line : String) : List UInt8 := Text.utf8 line ++ Text.utf8 "\n"

/-- Whether both streams behind the gate accept everything. -/
structure Accepts (g : Gate) : Prop where
  out : g.out.AcceptsAll
  err : g.err.AcceptsAll

theorem Accepts.stream {g : Gate} (h : g.Accepts) (side : Side) : (g.stream side).AcceptsAll := by
  cases side with
  | out => exact h.out
  | err => exact h.err

theorem writeLine_suppressed {g : Gate} (h : g.suppressed = true) (side : Side) (line : String) :
    g.writeLine side line = (.ok (), g) := by
  rw [writeLine, pass, if_pos h]

theorem flush_suppressed {g : Gate} (h : g.suppressed = true) : g.flush = (.ok (), g) := by
  rw [flush, if_pos h]

/-- No operation on a stream moves the gate. -/
theorem pass_suppressed {α : Type} (g : Gate) (side : Side) (discarded : α)
    (operation : OutStream → Except StreamError α × OutStream) :
    (g.pass side discarded operation).2.suppressed = g.suppressed := by
  unfold pass
  split
  · rfl
  · cases side <;> rfl

theorem suppressed_flush (g : Gate) : g.flush.2.suppressed = g.suppressed := by
  have hout : (g.flushSide .out).2.suppressed = g.suppressed := pass_suppressed ..
  unfold flush
  split
  · rfl
  · split <;> rename_i heq <;> rw [heq] at hout
    · exact hout
    · exact (pass_suppressed ..).trans hout

/-- An open gate lets a line through. -/
theorem writeLine_open {g : Gate} (h : g.suppressed = false) {side : Side}
    (hs : (g.stream side).AcceptsAll) (line : String) :
    g.writeLine side line =
      (.ok (), g.withStream side ((g.stream side).receive (lineBytes line))) := by
  have hopen : ¬g.suppressed = true := by
    rw [h]
    exact Bool.false_ne_true
  rw [writeLine, pass, if_neg hopen, put, OutStream.writeLine, OutStream.writeAll_accepts hs]
  dsimp only
  rw [OutStream.writeAll_accepts (hs.receive _), OutStream.receive_receive]
  rfl

/-- Lines as bytes. -/
def linesBytes (lines : List String) : List UInt8 := lines.flatMap lineBytes

@[simp] theorem linesBytes_nil : linesBytes [] = [] := rfl

@[simp] theorem linesBytes_append (lines lines' : List String) :
    linesBytes (lines ++ lines') = linesBytes lines ++ linesBytes lines' :=
  List.flatMap_append

@[simp] theorem linesBytes_singleton (line : String) : linesBytes [line] = lineBytes line :=
  List.flatMap_singleton ..

/-! ## 3. Lines that reach the streams -/

/-- What a gate in its position lets through. -/
def passed (g : Gate) (lines : List String) : List UInt8 :=
  if g.suppressed then [] else linesBytes lines

theorem passed_suppressed {g : Gate} (h : g.suppressed = true) (lines : List String) :
    g.passed lines = [] := if_pos h

theorem passed_open {g : Gate} (h : g.suppressed = false) (lines : List String) :
    g.passed lines = linesBytes lines := by
  rw [passed, h]
  rfl

theorem passed_eq (g : Gate) (lines : List String) :
    g.passed lines = linesBytes (if g.suppressed then [] else lines) := by
  unfold passed
  split <;> rfl

/-- What the streams behind a gate have received when lines were written to them. -/
structure Takes (g g' : Gate) (out err : List String) : Prop where
  suppressed : g'.suppressed = g.suppressed
  accepts : g'.Accepts
  out : g'.out.received = g.out.received ++ g.passed out
  err : g'.err.received = g.err.received ++ g.passed err

theorem Takes.refl {g : Gate} (h : g.Accepts) : g.Takes g [] [] := by
  refine ⟨rfl, h, ?_, ?_⟩ <;> simp [passed]

theorem Takes.trans {g g' g'' : Gate} {out out' err err' : List String} (h : g.Takes g' out err)
    (h' : g'.Takes g'' out' err') : g.Takes g'' (out ++ out') (err ++ err') := by
  have hpassed : ∀ lines lines', g.passed (lines ++ lines') =
      g.passed lines ++ g'.passed lines' := by
    intro lines lines'
    rw [passed, passed, passed, h.suppressed]
    split
    · rfl
    · exact linesBytes_append lines lines'
  refine ⟨h'.suppressed.trans h.suppressed, h'.accepts, ?_, ?_⟩
  · rw [h'.out, h.out, hpassed, List.append_assoc]
  · rw [h'.err, h.err, hpassed, List.append_assoc]

/-- A line that is written to one side reaches that side only. -/
theorem writeLine_takes {g : Gate} (h : g.Accepts) (side : Side) (line : String) :
    ∃ g', g.writeLine side line = (.ok (), g') ∧
      g.Takes g' (if side = .out then [line] else []) (if side = .err then [line] else []) := by
  cases hs : g.suppressed with
  | true =>
    refine ⟨g, writeLine_suppressed hs side line, rfl, h, ?_, ?_⟩ <;>
      rw [passed_suppressed hs, List.append_nil]
  | false =>
    refine ⟨_, writeLine_open hs (h.stream side) line, ?_⟩
    cases side with
    | out =>
      refine ⟨rfl, ⟨h.out.receive _, h.err⟩, ?_, ?_⟩
      · rw [passed_open hs, if_pos rfl, linesBytes_singleton]
        rfl
      · rw [passed_open hs, if_neg nofun, linesBytes_nil, List.append_nil]
        rfl
    | err =>
      refine ⟨rfl, ⟨h.out, h.err.receive _⟩, ?_, ?_⟩
      · rw [passed_open hs, if_neg nofun, linesBytes_nil, List.append_nil]
        rfl
      · rw [passed_open hs, if_pos rfl, linesBytes_singleton]
        rfl

theorem flushSide_takes {g : Gate} (h : g.Accepts) (side : Side) :
    g.Takes (g.flushSide side).2 [] [] := by
  cases hs : g.suppressed with
  | true =>
    rw [flushSide, pass, if_pos hs]
    exact .refl h
  | false =>
    rw [flushSide, pass, hs]
    cases side with
    | out =>
      refine ⟨rfl, ⟨⟨h.out.limit, h.out.chunk⟩, h.err⟩, ?_, ?_⟩ <;>
        rw [passed_open hs, linesBytes_nil, List.append_nil] <;> rfl
    | err =>
      refine ⟨rfl, ⟨h.out, ⟨h.err.limit, h.err.chunk⟩⟩, ?_, ?_⟩ <;>
        rw [passed_open hs, linesBytes_nil, List.append_nil] <;> rfl

/-- A flush adds nothing to what the streams have received, whether they refuse it or not. -/
theorem flush_takes {g : Gate} (h : g.Accepts) : g.Takes g.flush.2 [] [] := by
  have hout := flushSide_takes h .out
  rw [flush]
  split
  · exact .refl h
  · split <;> rename_i heq <;> rw [heq] at hout
    · exact hout
    · exact hout.trans (flushSide_takes hout.accepts .err)

end Gate

end SupervisedWorker
