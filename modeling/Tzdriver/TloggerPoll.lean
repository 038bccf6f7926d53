import Tzdriver.TloggerDelivery

/-!
# Polling the log

`tlogger/tlogger.c`: `process_tlogger_poll` tells a reader whether there is something to read, and
`tz_log_write` wakes the readers in the wait queue after the TEE wrote. A read decides with
`get_last_read_pos`, by the offset and the loop of the reader. The other two look at an offset
only: poll at the one of the reader, the wakeup at `g_last_read_offset`, where the last read that
copied something stopped.

After one lap of the ring the writer can stand at the offset at which it was left.
-/

namespace Tlogger

def pollIn : Nat := 0x1
def pollOut : Nat := 0x4
def pollRdnorm : Nat := 0x40
def pollWrnorm : Nat := 0x100

/-! ## The files; `none` is a pointer that is NULL -/

structure TloggerLog where
  bufferInfo : Option LogBufferFlag

structure TloggerReader where
  log : Option TloggerLog
  pos : Reader

structure File where
  privateData : Option TloggerReader

structure Poll where
  ret : Nat
  /-- `poll_wait` was called, on the wait queue of the log. -/
  waits : Bool
  deriving DecidableEq, Repr

/-- `process_tlogger_poll`. -/
def processTloggerPoll (file : Option File) : Poll :=
  let ret := pollOut ||| pollWrnorm
  match file with
  | some ⟨some ⟨some ⟨some flag⟩, reader⟩⟩ =>
    { ret := if flag.lastPos.toNat ≠ reader.rOff then ret ||| (pollIn ||| pollRdnorm) else ret
      waits := true }
  | _ => ⟨ret, false⟩

/-- `tz_log_write`: whether the wait queue is woken up. -/
def tzLogWrite (gLog : Option TloggerLog) (gLastReadOffset : Nat) : Bool :=
  match gLog with
  | some ⟨some flag⟩ => gLastReadOffset != flag.lastPos.toNat
  | _ => false

/-- The file of a reader whose log has this flag. -/
def openFile (flag : LogBufferFlag) (reader : Reader) : File := ⟨some ⟨some ⟨some flag⟩, reader⟩⟩

def Poll.Readable (p : Poll) : Prop := p.ret &&& (pollIn ||| pollRdnorm) = pollIn ||| pollRdnorm

instance (p : Poll) : Decidable p.Readable := inferInstanceAs (Decidable (_ = _))

/-- `get_last_read_pos` sets `is_read`: the read goes on to parse. -/
def IsRead (logMemLen : Nat) (flag : LogBufferFlag) (reader : Reader) : Prop :=
  (getLastReadPos logMemLen flag reader).2.2 = true

instance (logMemLen : Nat) (flag : LogBufferFlag) (reader : Reader) :
    Decidable (IsRead logMemLen flag reader) := inferInstanceAs (Decidable (_ = _))

/-- The flag passes the checks of `get_last_read_pos`. -/
structure FlagValid (logMemLen : Nat) (flag : LogBufferFlag) : Prop where
  lastPos : flag.lastPos.toNat ≤ flag.maxLen.toNat
  maxLen : flag.maxLen.toNat ≤ (2 ^ 32 + logMemLen - sizeofLogBuffer) % 2 ^ 32
  small : (2 ^ 32 + logMemLen - sizeofLogBuffer) % 2 ^ 32 ≤ logBufferMaxLen

/-- What the three places say about the readers of a log. -/
structure PollAgrees (logMemLen : Nat) (flag : LogBufferFlag) (readers : List Reader)
    (gLastReadOffset : Nat) : Prop where
  poll : ∀ reader ∈ readers,
    (processTloggerPoll (some (openFile flag reader))).Readable ↔ IsRead logMemLen flag reader
  wake : (∃ reader ∈ readers, reader.rOff = gLastReadOffset ∧ IsRead logMemLen flag reader) →
    tzLogWrite (some ⟨some flag⟩) gLastReadOffset = true

section Agreement

variable {logMemLen : Nat} {flag : LogBufferFlag} {reader : Reader}

theorem readable_iff : (processTloggerPoll (some (openFile flag reader))).Readable ↔
    flag.lastPos.toNat ≠ reader.rOff := by
  unfold Poll.Readable
  by_cases same : flag.lastPos.toNat = reader.rOff
  · simp [processTloggerPoll, openFile, same, pollIn, pollOut, pollRdnorm, pollWrnorm]
  · simp [processTloggerPoll, openFile, same, pollIn, pollOut, pollRdnorm, pollWrnorm]

theorem isRead_iff (valid : FlagValid logMemLen flag) : IsRead logMemLen flag reader ↔
    ¬ (flag.lastPos.toNat = reader.rOff ∧ flag.writeLoops = reader.rLoops) ∧
      reader.rOff ≤ flag.maxLen.toNat := by
  have lastPos := valid.lastPos
  have maxLen := valid.maxLen
  have small := valid.small
  simp only [IsRead, getLastReadPos]
  rw [if_neg (by omega)]
  by_cases done : flag.lastPos.toNat = reader.rOff ∧ flag.writeLoops = reader.rLoops
  · simp [done]
  · rw [if_neg done, if_neg (by omega)]
    by_cases far : reader.rOff > flag.maxLen.toNat
    · simp only [far, if_true, done, not_false_eq_true, true_and, Bool.false_eq_true, false_iff]
      omega
    · simp only [far, if_false, done, not_false_eq_true, true_and, true_iff]
      omega

/-- Poll and read agree about a reader whose offset is inside the memory, and which is in the
loop of the writer when it has its offset. -/
theorem readable_iff_isRead (valid : FlagValid logMemLen flag) :
    ((processTloggerPoll (some (openFile flag reader))).Readable ↔ IsRead logMemLen flag reader) ↔
      reader.rOff ≤ flag.maxLen.toNat ∧
        (reader.rOff = flag.lastPos.toNat → reader.rLoops = flag.writeLoops) := by
  have lastPos := valid.lastPos
  rw [readable_iff, isRead_iff valid]
  by_cases same : flag.lastPos.toNat = reader.rOff
  · have inside : reader.rOff ≤ flag.maxLen.toNat := by omega
    simp [same, inside, eq_comm]
  · have other : ¬ reader.rOff = flag.lastPos.toNat := by omega
    simp [same, other]

theorem tzLogWrite_iff {gLastReadOffset : Nat} :
    tzLogWrite (some ⟨some flag⟩) gLastReadOffset = true ↔ gLastReadOffset ≠ flag.lastPos.toNat := by
  simp [tzLogWrite]

/-- The wakeup goes wrong only where poll does: the offset of the last read is then the one of the
reader, and the writer is back at it. -/
theorem poll_agrees_iff (valid : FlagValid logMemLen flag) (readers : List Reader)
    (gLastReadOffset : Nat) :
    PollAgrees logMemLen flag readers gLastReadOffset ↔
      ∀ reader ∈ readers, reader.rOff ≤ flag.maxLen.toNat ∧
        (reader.rOff = flag.lastPos.toNat → reader.rLoops = flag.writeLoops) := by
  constructor
  · intro agrees reader mem
    exact (readable_iff_isRead valid).1 (agrees.poll reader mem)
  · intro told
    refine ⟨fun reader mem => (readable_iff_isRead valid).2 (told reader mem), ?_⟩
    rintro ⟨reader, mem, stopped, unread⟩
    rw [tzLogWrite_iff]
    intro back
    have loops := (told reader mem).2 (stopped.trans back)
    exact ((isRead_iff valid).1 unread).1 ⟨by omega, loops.symm⟩

end Agreement

/-- A reader that has read everything and one that is still at the beginning. -/
theorem poll_agrees_two_readers : PollAgrees 348 ⟨128, 1, 128⟩ [⟨128, 1⟩, ⟨0, 1⟩] 0 :=
  (poll_agrees_iff ⟨by decide, by decide, by decide⟩ _ _).2 (by decide)

/-! ## In the runs of the ring log -/

section Runs

variable {c : Config} {s : LogState}

theorem FlagOk.valid {m : Mem} (ok : FlagOk c m) : FlagValid c.logMemLen m.flag := by
  have fits := c.fits
  have small := c.small
  have maxLen := ok.maxLen
  have lastPos := ok.lastPos
  simp only [sizeofLogBuffer, logBufferMaxLen] at fits small
  constructor
  · omega
  · simp only [sizeofLogBuffer]
    omega
  · simp only [sizeofLogBuffer, logBufferMaxLen]
    omega

theorem Unread.rOff_le {m : Mem} {reader : Reader} {unread : List (Nat × LogItem)} (ok : FlagOk c m)
    (h : Unread m reader unread) : reader.rOff ≤ m.flag.maxLen.toNat := by
  have maxLen := ok.maxLen
  have lastPos := ok.lastPos
  cases h with
  | same same =>
    have ends := same.ends
    omega
  | behind behind =>
    have bound := behind.bound
    omega

theorem Unread.isRead_iff {m : Mem} {reader : Reader} {unread : List (Nat × LogItem)}
    (ok : FlagOk c m) (h : Unread m reader unread) :
    IsRead c.logMemLen m.flag reader ↔ unread ≠ [] := by
  have inside := h.rOff_le ok
  rw [Tlogger.isRead_iff ok.valid]
  cases h with
  | @same pending same =>
    have ends := same.ends
    simp only [same.loops, and_true, inside, placed_ne_nil]
    constructor
    · rintro further rfl
      exact further (by simpa using ends.symm)
    · intro ne back
      have := bytesOf_length_pos ne
      omega
  | @behind old cur behind =>
    have otherLoop : m.flag.writeLoops ≠ reader.rLoops := by
      rw [behind.loops]
      bv_omega
    have more : placed 0 cur ≠ [] := placed_ne_nil.2 behind.nonempty
    simp [otherLoop, inside, more]

/-- `is_read` says that there is an item that was not read. -/
theorem isRead_iff_unread {bytes : Nat → UInt8}
    (run : ActionSystem.Reach (logStep c) NoOverwrite (opened c bytes) s) :
    IsRead c.logMemLen s.mem.flag s.reader ↔ s.unread ≠ [] := by
  obtain ⟨seen, unread, inv⟩ := Inv.reach run
  rw [inv.unread_eq]
  exact inv.unread.isRead_iff inv.flag

/-- Poll is right about the items that were not read, unless the writer is back at the offset of
the reader. -/
theorem readable_iff_unread {bytes : Nat → UInt8}
    (run : ActionSystem.Reach (logStep c) NoOverwrite (opened c bytes) s) :
    ((processTloggerPoll (some (openFile s.mem.flag s.reader))).Readable ↔ s.unread ≠ []) ↔
      (s.reader.rOff = s.mem.flag.lastPos.toNat → s.unread = []) := by
  have isRead := isRead_iff_unread run
  obtain ⟨seen, unread, inv⟩ := Inv.reach run
  have valid := inv.flag.valid
  have inside := inv.unread.rOff_le inv.flag
  rw [← isRead, readable_iff_isRead valid]
  constructor
  · rintro ⟨-, told⟩ back
    by_contra more
    have further := ((isRead_iff valid).1 (isRead.2 more)).1
    exact further ⟨back.symm, (told back).symm⟩
  · intro told
    refine ⟨inside, fun back => ?_⟩
    by_contra otherLoop
    have more := isRead.1 ((isRead_iff valid).2 ⟨fun done => otherLoop done.2.symm, inside⟩)
    exact more (told back)

end Runs

/-- An item fills the ring and is read; the next one goes over it. The reader is neither woken nor
told. -/
theorem lap_unnoticed :
    ∃ s, ActionSystem.Reach (logStep ⟨348, 128, by decide, by decide⟩) NoOverwrite
        (opened ⟨348, 128, by decide, by decide⟩ fun _ => 0) s ∧
      s.mem.flag = ⟨128, 1, 128⟩ ∧ s.reader = ⟨128, 0⟩ ∧
      FlagValid 348 s.mem.flag ∧ s.unread.length = 1 ∧
      tzLogWrite (some ⟨some s.mem.flag⟩) s.reader.rOff = false ∧
      ¬ PollAgrees 348 s.mem.flag [s.reader] s.reader.rOff := by
  obtain ⟨s, run, passed⟩ := ActionSystem.reach_of_play (logStep ⟨348, 128, by decide, by decide⟩)
    NoOverwrite (fun s => s.unread.length == 1 && decide (s.mem.flag = ⟨128, 1, 128⟩) &&
      decide (s.reader = ⟨128, 0⟩))
    (opened ⟨348, 128, by decide, by decide⟩ fun _ => 0)
    [.append shortItem, .read 1024, .append shortItem] (by decide +kernel)
  simp only [Bool.and_eq_true, beq_iff_eq, decide_eq_true_iff] at passed
  obtain ⟨⟨unread, flag⟩, reader⟩ := passed
  refine ⟨s, run, flag, reader, ?_, unread, ?_, ?_⟩
  · rw [flag]
    exact ⟨by decide, by decide, by decide⟩
  · rw [flag, reader]
    decide
  · rw [flag, reader]
    intro agrees
    have told := agrees.poll ⟨128, 0⟩ (by simp)
    exact absurd (told.2 (by decide)) (by decide)

end Tlogger
