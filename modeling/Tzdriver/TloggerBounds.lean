import Tzdriver.ActionSystem
import Tzdriver.TloggerRead

/-!
# The memory a log read accesses

`process_tlogger_read` checks a copy of the flag and then fetches `max_len` again from the
log memory, and `parse_log_item` fetches `buffer_len` again after the check of the item. The
reads stay inside the log memory as long as the TEE does not enlarge these two in between.
-/

namespace Tlogger

/-- The access lies in the log memory, behind its `log_buffer`. -/
def Inside (logMemLen : Nat) (a : Access) : Prop := a.pos + a.len + sizeofLogBuffer ≤ logMemLen

instance (logMemLen : Nat) (a : Access) : Decidable (Inside logMemLen a) :=
  inferInstanceAs (Decidable (_ ≤ _))

/-- One call of `process_tlogger_read`, with the log memory at each of its fetches. -/
structure ReadCall where
  mem : Nat → Mem
  count : Nat

/-- A reader and what its calls have accessed. -/
structure Reading where
  reader : Reader := {}
  accesses : List Access := []

def readStep (logMemLen : Nat) (s : Reading) (call : ReadCall) : Option Reading :=
  let out := processTloggerRead call.mem logMemLen call.count s.reader
  some ⟨out.2.1, out.2.2.accesses ++ s.accesses⟩

/-- When the read gets to `trigger_parse_log` with another loop than the writer's, the `max_len`
fetched as the end of the area to read is inside the log memory, or larger than what
`get_next_log_item` compares it with. -/
def MaxLenKept (logMemLen : Nat) (call : ReadCall) (reader : Reader) : Prop :=
  logItemMaxLen ≤ call.count →
    (getLastReadPos logMemLen (getBufferInfo call.mem 0) reader).2.2 = true →
    (call.mem 3).flag.writeLoops ≠ reader.rLoops →
    (call.mem 7).flag.maxLen < (call.mem 8).flag.maxLen ∨
      (call.mem 8).flag.maxLen.toNat + sizeofLogBuffer ≤ logMemLen

/-- After each check that was made and passed, the item still ends inside the log memory at the
next fetch of its `buffer_len`. -/
def BufferLenKept (logMemLen : Nat) (mem : Nat → Mem) (checks : List Check) : Prop :=
  ∀ c ∈ checks, checkLogItemValidite mem c.time c.pos c.itemMaxSize = true →
    Inside logMemLen ⟨c.pos, bufferLen (mem (c.time + 9)).bytes c.pos + sizeofLogItem⟩

instance (logMemLen : Nat) (mem : Nat → Mem) (checks : List Check) :
    Decidable (BufferLenKept logMemLen mem checks) :=
  inferInstanceAs (Decidable (∀ c ∈ checks, _ → _))

def Kept (logMemLen : Nat) (s : Reading) (call : ReadCall) : Prop :=
  MaxLenKept logMemLen call s.reader ∧
    BufferLenKept logMemLen call.mem
      (processTloggerRead call.mem logMemLen call.count s.reader).2.2.checks

section Inside

variable {mem : Nat → Mem} {logMemLen : Nat}

/-- What a section of the read does: the new accesses are inside, and it forgets no check. -/
structure Adds (logMemLen : Nat) (io io' : Io) : Prop where
  accesses : ∀ a ∈ io'.accesses, a ∈ io.accesses ∨ Inside logMemLen a
  checks : io.checks ⊆ io'.checks

theorem Adds.refl (io : Io) : Adds logMemLen io io :=
  ⟨fun _ h => .inl h, List.Subset.refl _⟩

theorem Adds.tick {io io' : Io} (adds : Adds logMemLen io io') : Adds logMemLen io io'.tick :=
  ⟨adds.accesses, adds.checks⟩

theorem Adds.trans {io io' io'' : Io} (first : Adds logMemLen io io')
    (second : Adds logMemLen io' io'') : Adds logMemLen io io'' := by
  refine ⟨?_, List.Subset.trans first.checks second.checks⟩
  intro a ha
  rcases second.accesses a ha with h | h
  · exact first.accesses a h
  · exact .inr h

theorem Adds.one {io io' : Io} {a : Access} (new : io'.accesses = a :: io.accesses)
    (checks : io.checks ⊆ io'.checks) (inside : Inside logMemLen a) : Adds logMemLen io io' := by
  refine ⟨?_, checks⟩
  intro b hb
  rw [new] at hb
  rcases List.mem_cons.1 hb with rfl | h
  · exact .inr inside
  · exact .inl h

/-- An item that was found passed its check, the last nine fetches. -/
structure Found (mem : Nat → Mem) (pos : Nat) (io : Io) : Prop where
  checked : ∃ c ∈ io.checks, c.pos = pos ∧ io.clock = c.time + 9 ∧
    checkLogItemValidite mem c.time c.pos c.itemMaxSize = true

theorem scanItems_inside (mem : Nat → Mem) (readPos scopeLen i pos : Nat) (io : Io)
    (inside : readPos + scopeLen + sizeofLogBuffer ≤ logMemLen) :
    Adds logMemLen io (scanItems mem readPos scopeLen i pos io).2.2 ∧
      ((scanItems mem readPos scopeLen i pos io).1 = true →
        Found mem (scanItems mem readPos scopeLen i pos io).2.1
          (scanItems mem readPos scopeLen i pos io).2.2) := by
  have header : ∀ i, i + sizeofLogItem + logItemLenAlign ≤ scopeLen →
      Inside logMemLen ⟨readPos + i, sizeofLogItem⟩ := by
    intro i room
    unfold Inside
    dsimp only
    omega
  fun_induction scanItems mem readPos scopeLen i pos io with
  | case1 i pos io room maxSize valid =>
    refine ⟨Adds.one rfl (List.subset_cons_self _ _) (header i room), fun _ => ?_⟩
    exact ⟨⟨io.clock, readPos + i, maxSize⟩, List.mem_cons_self, rfl, rfl, valid⟩
  | case2 i pos io room maxSize invalid ih =>
    have inspected : Adds logMemLen io (io.inspect (readPos + i) maxSize) :=
      Adds.one rfl (List.subset_cons_self _ _) (header i room)
    exact ⟨inspected.trans ih.1, ih.2⟩
  | case3 i pos io full => exact ⟨Adds.refl io, by simp⟩

theorem getNextLogItem_inside {maxLen startPos endPos : Nat} (io : Io) (ahead : startPos < endPos)
    (inside : endPos + sizeofLogBuffer ≤ logMemLen) {found : Bool} {pos : Nat} {io' : Io}
    (h : getNextLogItem mem maxLen startPos (endPos - startPos) startPos io = (found, pos, io')) :
    Adds logMemLen io io' ∧ (found = true → Found mem pos io') := by
  have sum : startPos + (endPos - startPos) = endPos := by omega
  unfold getNextLogItem at h
  split at h
  · simp only [Prod.mk.injEq] at h
    obtain ⟨rfl, rfl, rfl⟩ := h
    exact ⟨Adds.refl io, by simp⟩
  · have area : startPos + (endPos - startPos) + sizeofLogBuffer ≤ logMemLen := by
      rwa [sum]
    have scan := scanItems_inside mem startPos (endPos - startPos) 0 startPos io area
    rw [h] at scan
    exact scan

theorem scanItems_checks (readPos scopeLen i pos : Nat) (io : Io) :
    io.checks ⊆ (scanItems mem readPos scopeLen i pos io).2.2.checks := by
  fun_induction scanItems mem readPos scopeLen i pos io with
  | case1 => exact List.subset_cons_self _ _
  | case2 =>
    rename_i ih
    exact List.Subset.trans (List.subset_cons_self _ _) ih
  | case3 i pos io full => exact List.Subset.refl _

theorem getNextLogItem_checks {maxLen readPos scopeLen pos : Nat} {io io' : Io} {found : Bool}
    {pos' : Nat} (h : getNextLogItem mem maxLen readPos scopeLen pos io = (found, pos', io')) :
    io.checks ⊆ io'.checks := by
  unfold getNextLogItem at h
  split at h
  · simp only [Prod.mk.injEq] at h
    rw [h.2.2]
    exact List.Subset.refl _
  · have more : io.checks ⊆ (scanItems mem readPos scopeLen 0 pos io).2.2.checks :=
      scanItems_checks readPos scopeLen 0 pos io
    rw [h] at more
    exact more

theorem parseItems_checks {position : ReaderPosition} (startPos bufLeft bufWritten : Nat) (io : Io) :
    io.checks ⊆ (parseItems mem position startPos bufLeft bufWritten io).io.checks := by
  fun_induction parseItems mem position startPos bufLeft bufWritten io with
  | case1 startPos bufLeft bufWritten io ahead pos io' h => exact getNextLogItem_checks h
  | case2 startPos bufLeft bufWritten io ahead pos io' h =>
    show io.checks ⊆ io'.checks
    exact getNextLogItem_checks h
  | case3 startPos bufLeft bufWritten io ahead pos io' h =>
    rename_i ih
    exact List.Subset.trans (getNextLogItem_checks h) ih
  | case4 startPos bufLeft bufWritten io closed => exact List.Subset.refl _

/-- The lengths are kept for the checks of the whole loop, so for each item it finds. -/
theorem parseItems_inside {position : ReaderPosition}
    (inside : position.endPos + sizeofLogBuffer ≤ logMemLen) (startPos bufLeft bufWritten : Nat)
    (io : Io)
    (kept : BufferLenKept logMemLen mem
      (parseItems mem position startPos bufLeft bufWritten io).io.checks) :
    Adds logMemLen io (parseItems mem position startPos bufLeft bufWritten io).io := by
  fun_induction parseItems mem position startPos bufLeft bufWritten io with
  | case1 startPos bufLeft bufWritten io ahead pos io' h =>
    exact (getNextLogItem_inside io ahead inside h).1
  | case2 startPos bufLeft bufWritten io ahead pos io' h itemLen short =>
    exact (getNextLogItem_inside io ahead inside h).1.tick
  | case3 startPos bufLeft bufWritten io ahead pos io' h itemLen room ih =>
    obtain ⟨scan, found⟩ := getNextLogItem_inside io ahead inside h
    obtain ⟨c, checked, rfl, clock, valid⟩ := (found rfl).checked
    have listed : c ∈ (parseItems mem position ((c.pos + itemLen) % 2 ^ 32) (bufLeft - itemLen)
        (bufWritten + itemLen)
        (io'.tick.copy (mem (io'.clock + 1)).bytes c.pos itemLen)).io.checks :=
      parseItems_checks _ _ _ _ checked
    have item : Inside logMemLen ⟨c.pos, itemLen⟩ := by
      simp only [itemLen, clock]
      exact kept c listed valid
    have copied : Adds logMemLen io' (io'.tick.copy (mem (io'.clock + 1)).bytes c.pos itemLen) :=
      Adds.one rfl (List.Subset.refl _) item
    exact (scan.trans copied).trans (ih kept)
  | case4 startPos bufLeft bufWritten io closed => exact Adds.refl io

/-- `get_next_log_item` refuses an area that ends behind `max_len`. -/
theorem parseItems_refused {position : ReaderPosition} (small : position.endPos < 2 ^ 32)
    (refused : position.maxLen < position.endPos) (startPos bufLeft bufWritten : Nat) (io : Io) :
    (parseItems mem position startPos bufLeft bufWritten io).io = io := by
  rw [parseItems]
  split
  · rename_i ahead
    have sum : startPos + (position.endPos - startPos) = position.endPos := by omega
    have next : getNextLogItem mem position.maxLen startPos (position.endPos - startPos) startPos io =
        (false, startPos, io) := by
      rw [getNextLogItem, sum, Nat.mod_eq_of_lt small, if_pos refused]
    rw [next]
  · rfl

/-- What `get_last_read_pos` has checked when there is something to read. -/
theorem getLastReadPos_checked {flag : LogBufferFlag} {reader : Reader} {ret : Int} {lastPos : Nat}
    (h : getLastReadPos logMemLen flag reader = (ret, lastPos, true)) :
    lastPos + sizeofLogBuffer ≤ logMemLen := by
  unfold getLastReadPos at h
  simp only at h
  split at h
  · simp at h
  · rename_i small
    split at h
    · simp at h
    · split at h
      · simp at h
      · split at h
        · simp at h
        · simp only [Prod.mk.injEq] at h
          obtain ⟨-, rfl, -⟩ := h
          simp only [sizeofLogBuffer, logBufferMaxLen] at *
          omega

theorem parseLogItem_inside (count : Nat)
    {position : ReaderPosition} (inside : position.endPos + sizeofLogBuffer ≤ logMemLen) (io : Io)
    (kept : BufferLenKept logMemLen mem (parseLogItem mem count position io).io.checks) :
    Adds logMemLen io (parseLogItem mem count position io).io :=
  parseItems_inside inside _ _ _ io kept

theorem BufferLenKept.mono {checks checks' : List Check} (fewer : checks ⊆ checks')
    (kept : BufferLenKept logMemLen mem checks') : BufferLenKept logMemLen mem checks :=
  fun c listed => kept c (fewer listed)

/-- The clock is 4 here: the fetches of `max_len` are the ones at 7 and 8. -/
theorem parseBehind_inside {count lastPos : Nat}
    {reader : Reader} {io : Io} (clock : io.clock = 4)
    (behind : (mem 7).flag.maxLen < (mem 8).flag.maxLen ∨
      (mem 8).flag.maxLen.toNat + sizeofLogBuffer ≤ logMemLen)
    (inside : lastPos + sizeofLogBuffer ≤ logMemLen)
    (kept : BufferLenKept logMemLen mem (parseBehind mem count lastPos reader io).2.2.checks) :
    Adds logMemLen io (parseBehind mem count lastPos reader io).2.2 := by
  have first : ∀ start, BufferLenKept logMemLen mem (parseLogItem mem count
        ⟨(mem (io.clock + 3)).flag.maxLen.toNat, start, (mem (io.clock + 4)).flag.maxLen.toNat⟩
        { io with clock := io.clock + 5 }).io.checks →
      Adds logMemLen io (parseLogItem mem count
        ⟨(mem (io.clock + 3)).flag.maxLen.toNat, start, (mem (io.clock + 4)).flag.maxLen.toNat⟩
        { io with clock := io.clock + 5 }).io := by
    intro start kept
    rw [clock] at kept ⊢
    rcases behind with refused | bound
    · unfold parseLogItem
      rw [parseItems_refused (BitVec.isLt _) (BitVec.lt_def.1 refused)]
      exact ⟨fun _ h => .inl h, List.Subset.refl _⟩
    · exact ⟨(parseLogItem_inside count bound _ kept).accesses,
        (parseLogItem_inside count bound _ kept).checks⟩
  unfold parseBehind at kept ⊢
  dsimp only at kept ⊢
  split
  · rename_i room
    rw [if_pos room] at kept
    have second := parseLogItem_inside _ inside (Io.tick _) kept
    exact (first _ (kept.mono (parseItems_checks _ _ _ (Io.tick _)))).trans
      ⟨second.accesses, second.checks⟩
  · rename_i full
    rw [if_neg full] at kept
    exact first _ kept

theorem processTloggerRead_inside {call : ReadCall} {reader : Reader}
    (maxLen : MaxLenKept logMemLen call reader)
    (items : BufferLenKept logMemLen call.mem
      (processTloggerRead call.mem logMemLen call.count reader).2.2.checks) (a : Access)
    (accessed : a ∈ (processTloggerRead call.mem logMemLen call.count reader).2.2.accesses) :
    Inside logMemLen a := by
  suffices adds : Adds logMemLen {} (processTloggerRead call.mem logMemLen call.count reader).2.2 by
    rcases adds.accesses a accessed with h | h
    · simp at h
    · exact h
  unfold processTloggerRead at items ⊢
  split
  · exact Adds.refl _
  · rename_i enough
    rw [if_neg enough] at items
    split
    · exact ⟨fun _ h => .inl h, List.Subset.refl _⟩
    · rename_i ret lastPos checked
      rw [checked] at items
      have inside := getLastReadPos_checked checked
      unfold triggerParseLog at items ⊢
      dsimp only at items ⊢
      split
      · rename_i same
        rw [if_pos same] at items
        have read := parseLogItem_inside call.count inside { clock := 3 + 2 } items
        exact ⟨read.accesses, read.checks⟩
      · rename_i other
        rw [if_neg other] at items
        have behind := maxLen (Nat.le_of_not_lt enough) (by rw [checked]) other
        have clock : ({ clock := 3 + 1 } : Io).clock = 4 := rfl
        have read := parseBehind_inside clock behind inside items
        exact ⟨read.accesses, read.checks⟩

/-- Every access of every read is inside the log memory, in every run in which the TEE keeps to
the lengths that were checked. -/
theorem reads_inside {s : Reading}
    (run : ActionSystem.Reach (readStep logMemLen) (Kept logMemLen) {} s) :
    ∀ a ∈ s.accesses, Inside logMemLen a := by
  refine run.invariant (P := fun s => ∀ a ∈ s.accesses, Inside logMemLen a) (by simp) ?_
  intro s call s' inside kept moved a accessed
  rw [readStep, Option.some.injEq] at moved
  rw [← moved] at accessed
  rcases List.mem_append.1 accessed with new | old
  · exact processTloggerRead_inside kept.1 kept.2 a new
  · exact inside a old

end Inside

/-- Memory with an item of 128 bytes at the offset `pos`; `high` is the high byte of its
`buffer_len`. -/
def oneItem (pos : Nat) (high : UInt8) : Nat → UInt8 := fun i =>
  if i = pos + 32 ∨ i = pos + 33 then 0x5A
  else if i = pos + 40 ∨ i = pos + 42 then 64
  else if i = pos + 43 then high
  else 0

theorem reads_inside_one_item :
    ∃ s : Reading, ActionSystem.Reach (readStep 262144) (Kept 262144) {} s ∧
      s.accesses = [⟨0, 128⟩, ⟨0, 64⟩] ∧ ∀ a ∈ s.accesses, Inside 262144 a := by
  let m : Mem := ⟨⟨128, 0, 261924⟩, oneItem 0 0⟩
  let out := processTloggerRead (fun _ => m) 262144 1024 {}
  have run : ActionSystem.Reach (readStep 262144) (Kept 262144) {} ⟨out.2.1, out.2.2.accesses ++ []⟩ :=
    .single ⟨⟨fun _ => m, 1024⟩, ⟨fun _ _ other => absurd rfl other, by decide +kernel⟩, rfl⟩
  exact ⟨_, run, by decide +kernel, reads_inside run⟩

/-- `max_len` grows between its check and its use, and so does the `buffer_len` of the item at
the end of the memory. -/
theorem lengths_fetched_twice :
    (∃ s : Reading, ActionSystem.Reach (readStep 262144) (fun _ _ => True) {} s ∧
      ∃ a ∈ s.accesses, a = ⟨261888, 64⟩ ∧ ¬ Inside 262144 a) ∧
    (∃ s : Reading, ActionSystem.Reach (readStep 262144) (fun _ _ => True) {} s ∧
      ∃ a ∈ s.accesses, a = ⟨261760, 1152⟩ ∧ ¬ Inside 262144 a) := by
  refine ⟨?_, ?_⟩
  · obtain ⟨s, run, passed⟩ := ActionSystem.reach_of_play (readStep 262144) (fun _ _ => True)
      (fun s => s.accesses.contains ⟨261888, 64⟩) {}
      [⟨fun t => ⟨⟨261888, 1, if t < 7 then 261924 else if t < 9 then 262016 else 0⟩, fun _ => 0⟩,
        1024⟩] (by decide +kernel)
    exact ⟨s, run, _, by simpa using passed, rfl, by decide⟩
  · obtain ⟨s, run, passed⟩ := ActionSystem.reach_of_play (readStep 262144) (fun _ _ => True)
      (fun s => s.accesses.contains ⟨261760, 1152⟩) {}
      [⟨fun t => ⟨⟨261760, 1, if t < 20 then 261924 else 0⟩, oneItem 261760 (if t < 18 then 0 else 4)⟩,
        2048⟩] (by decide +kernel)
    exact ⟨s, run, _, by simpa using passed, rfl, by decide⟩

end Tlogger
