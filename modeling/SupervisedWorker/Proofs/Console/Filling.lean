import SupervisedWorker.Proofs.Console.Gate

/-!
# Streams that fill up

A stream may take only little at a time, only so much in all, and refuse to be flushed. What is
written to it still arrives up to the point where the stream is full, and nothing else does.

Results:
1. `fits_append`: what fits of two texts, one after the other.
2. `writeAll_eq`: a stream receives of what is written to it what fits, and fails if that is not
   all.
3. `writeLine_fills`, `flush_fills`: the same for the output behind the gate.
-/

namespace SupervisedWorker

namespace OutStream

/-! ## 1. What fits -/

/-- What of some bytes fits into a stream. -/
def fits (s : OutStream) (bytes : List UInt8) : List UInt8 :=
  match s.room with
  | none => bytes
  | some n => bytes.take n

theorem fits_unbounded {s : OutStream} (h : s.room = none) (bytes : List UInt8) :
    s.fits bytes = bytes := by
  rw [fits, h]

theorem fits_bounded {s : OutStream} {n : Nat} (h : s.room = some n) (bytes : List UInt8) :
    s.fits bytes = bytes.take n := by
  rw [fits, h]

@[simp] theorem fits_nil (s : OutStream) : s.fits [] = [] := by
  unfold fits
  split
  · rfl
  · exact List.take_nil

theorem fits_prefix (s : OutStream) (bytes : List UInt8) : s.fits bytes <+: bytes := by
  unfold fits
  split
  · exact List.prefix_refl _
  · exact List.take_prefix _ _

theorem room_receive (s : OutStream) (bytes : List UInt8) :
    (s.receive bytes).room = s.room.map (· - bytes.length) := by
  rw [room, room, receive, Option.map_map, List.length_append]
  congr 1
  funext limit
  exact Nat.sub_add_eq limit _ _

/-- A second text gets the room that the first one leaves. -/
theorem fits_append (s : OutStream) (bytes bytes' : List UInt8) :
    s.fits (bytes ++ bytes') = s.fits bytes ++ (s.receive (s.fits bytes)).fits bytes' := by
  cases hroom : s.room with
  | none =>
    rw [fits_unbounded hroom, fits_unbounded hroom, fits_unbounded]
    rw [room_receive, hroom]
    rfl
  | some n =>
    have hleft : (s.receive (bytes.take n)).room = some (n - (bytes.take n).length) := by
      rw [room_receive, hroom]
      rfl
    have hsame : n - (bytes.take n).length = n - bytes.length := by
      rw [List.length_take]
      omega
    rw [fits_bounded hroom, fits_bounded hroom, fits_bounded hleft, hsame, List.take_append]

/-! ## 2. Writing -/

/-- One write takes something that fits, unless the stream is full. -/
theorem write_fits {s : OutStream} (hchunk : s.chunk ≠ some 0) (byte : UInt8)
    (rest : List UInt8) : s.room = some 0 ∧ s.write (byte :: rest) = (.error .closed, s) ∨
      ∃ n, s.write (byte :: rest) = (.ok (n + 1), s.receive (byte :: rest.take n)) ∧
        s.fits (byte :: rest.take n) = byte :: rest.take n := by
  cases hroom : s.room with
  | none =>
    obtain ⟨n, hcap, _⟩ := cap_pos hchunk rest.length
    refine .inr ⟨n, ?_, fits_unbounded hroom _⟩
    simp [write, hroom, cap.eq_def none, hcap, receive]
  | some room =>
    cases room with
    | zero => exact .inl ⟨rfl, by simp [write, hroom]⟩
    | succ room =>
      obtain ⟨n, hcap, hle⟩ := cap_pos hchunk (min room rest.length)
      refine .inr ⟨n, ?_, ?_⟩
      · simp [write, hroom, cap.eq_def (some (room + 1)), Nat.succ_min_succ, hcap, receive]
      · rw [fits_bounded hroom, List.take_succ_cons, List.take_take]
        congr 2
        omega

/-- A stream receives of what is written to it what fits, and fails if that is not all. -/
theorem writeAll_eq {s : OutStream} (hchunk : s.chunk ≠ some 0) (bytes : List UInt8) :
    s.writeAll bytes = (if s.fits bytes = bytes then .ok () else .error .closed,
      s.receive (s.fits bytes)) := by
  induction hlen : bytes.length using Nat.strongRecOn generalizing s bytes with
  | ind len ih =>
    cases bytes with
    | nil => rw [writeAll, fits_nil, if_pos rfl, receive_nil]
    | cons byte rest =>
      rw [writeAll]
      obtain ⟨hfull, hwrite⟩ | ⟨n, hwrite, hfits⟩ := write_fits hchunk byte rest
      · rw [hwrite, fits_bounded hfull, List.take_zero, if_neg (List.cons_ne_nil _ _).symm,
          receive_nil]
      · have hshorter : (rest.drop n).length < len := by
          rw [← hlen, List.length_drop, List.length_cons]
          exact Nat.lt_succ_of_le (Nat.sub_le _ _)
        have hchunk' : (s.receive (byte :: rest.take n)).chunk ≠ some 0 := hchunk
        have hsplit : byte :: rest = (byte :: rest.take n) ++ rest.drop n := by
          rw [List.cons_append, List.take_append_drop]
        have hall := fits_append s (byte :: rest.take n) (rest.drop n)
        rw [← hsplit, hfits] at hall
        have hwhole : s.fits (byte :: rest) = byte :: rest ↔
            (s.receive (byte :: rest.take n)).fits (rest.drop n) = rest.drop n := by
          rw [hall, hsplit]
          exact List.append_right_inj _
        rw [hwrite]
        dsimp only
        rw [ih _ hshorter hchunk' _ rfl, receive_receive, ← hall]
        simp only [hwhole]

/-- A stream that does not take all of some bytes is full then. -/
theorem full_of_fits_ne {s : OutStream} {bytes : List UInt8} (h : s.fits bytes ≠ bytes) :
    (s.receive (s.fits bytes)).room = some 0 := by
  cases hroom : s.room with
  | none => exact absurd (fits_unbounded hroom bytes) h
  | some n =>
    rw [fits_bounded hroom] at h ⊢
    have hshort : n < bytes.length := Nat.lt_of_not_le (mt List.take_of_length_le h)
    rw [room_receive, hroom, List.length_take, Nat.min_eq_left (Nat.le_of_lt hshort),
      Option.map_some, Nat.sub_self]

/-- A stream receives of what is written to it what fits, and fails only when it is full. -/
theorem writeAll_fits {s : OutStream} (hchunk : s.chunk ≠ some 0) (bytes : List UInt8) :
    (s.writeAll bytes).2 = s.receive (s.fits bytes) ∧
      ((s.writeAll bytes).1 = .ok () ∨ (s.writeAll bytes).2.room = some 0) := by
  rw [writeAll_eq hchunk]
  refine ⟨rfl, ?_⟩
  by_cases h : s.fits bytes = bytes
  · exact .inl (if_pos h)
  · exact .inr (full_of_fits_ne h)

/-! ## 3. The output behind the gate -/

/-- A stream that has received of some bytes what fits. -/
structure Fills (s s' : OutStream) (bytes : List UInt8) : Prop where
  limit : s'.limit = s.limit
  chunk : s'.chunk = s.chunk
  received : s'.received = s.received ++ s.fits bytes

theorem Fills.of_received {s s' : OutStream} (hlimit : s'.limit = s.limit)
    (hchunk : s'.chunk = s.chunk) (hreceived : s'.received = s.received) : s.Fills s' [] :=
  ⟨hlimit, hchunk, by rw [hreceived, fits_nil, List.append_nil]⟩

theorem Fills.refl (s : OutStream) : s.Fills s [] := .of_received rfl rfl rfl

theorem Fills.trans {s s' s'' : OutStream} {bytes bytes' : List UInt8} (h : s.Fills s' bytes)
    (h' : s'.Fills s'' bytes') : s.Fills s'' (bytes ++ bytes') := by
  have hroom : s'.room = (s.receive (s.fits bytes)).room := by
    rw [room, room, h.limit, h.received]
    rfl
  have hfits : s'.fits bytes' = (s.receive (s.fits bytes)).fits bytes' := by
    simp only [fits, hroom]
  refine ⟨h'.limit.trans h.limit, h'.chunk.trans h.chunk, ?_⟩
  rw [h'.received, h.received, fits_append, List.append_assoc, hfits]

theorem writeAll_fills {s : OutStream} (hchunk : s.chunk ≠ some 0) (bytes : List UInt8) :
    s.Fills (s.writeAll bytes).2 bytes := by
  rw [(writeAll_fits hchunk bytes).1]
  exact ⟨rfl, rfl, rfl⟩

/-- A stream that is full receives nothing. -/
theorem Fills.full {s s' : OutStream} {bytes : List UInt8} (h : s.Fills s' bytes)
    (hfull : s'.room = some 0) (bytes' : List UInt8) : s.Fills s' (bytes ++ bytes') := by
  refine h.trans ⟨rfl, rfl, ?_⟩
  rw [fits_bounded hfull, List.take_zero, List.append_nil]

/-- Of a line with its line break a stream receives what fits. -/
theorem writeLine_fills {s : OutStream} (hchunk : s.chunk ≠ some 0) (line : String) :
    s.Fills (s.writeLine line).2 (Gate.lineBytes line) := by
  have htext := writeAll_fills hchunk (Text.utf8 line)
  have hfull := (writeAll_fits hchunk (Text.utf8 line)).2
  rw [writeLine, Gate.lineBytes]
  rcases hw : s.writeAll (Text.utf8 line) with ⟨e | _, s'⟩ <;> rw [hw] at htext hfull
  · have hroom : s'.room = some 0 := by simpa using hfull
    exact htext.full hroom _
  · exact htext.trans (writeAll_fills (htext.chunk ▸ hchunk) _)

end OutStream

namespace Gate

open OutStream

/-- Of a line that the gate has let pass the output receives what fits. -/
theorem putLine_fills {g : Gate} (hchunk : g.out.chunk ≠ some 0) (line : String) :
    g.out.Fills (g.putLine .out line).2.out (lineBytes line) :=
  OutStream.writeLine_fills hchunk line

/-- The output receives of a line what fits, if the gate lets it through. -/
theorem writeLine_fills {g : Gate} (hchunk : g.out.chunk ≠ some 0) (line : String) :
    g.out.Fills (g.writeLine .out line).2.out (g.passed [line]) := by
  cases hs : g.suppressed with
  | true =>
    rw [writeLine_suppressed hs, passed_suppressed hs]
    exact .refl _
  | false =>
    have hopen : ¬g.suppressed = true := Bool.eq_false_iff.mp hs
    rw [passed_open hs, linesBytes_singleton, writeLine, pass, if_neg hopen]
    exact putLine_fills hchunk line

theorem flushSide_fills (g : Gate) (side : Side) : g.out.Fills (g.flushSide side).2.out [] := by
  unfold flushSide pass
  split
  · exact .refl _
  · cases side <;> exact .of_received rfl rfl rfl

/-- A flush adds nothing to what the output has received. -/
theorem flush_fills (g : Gate) : g.out.Fills g.flush.2.out [] := by
  have hout := flushSide_fills g .out
  unfold flush
  split
  · exact .refl _
  · split <;> rename_i heq <;> rw [heq] at hout
    · exact hout
    · exact hout.trans (flushSide_fills _ .err)

end Gate

end SupervisedWorker
