import Tzdriver.ActionSystem
import Tzdriver.MemoryCells
import Tzdriver.TloggerRead

/-!
# The ring log

The TEE appends items to the log memory and starts again at the beginning when an item
does not fit before `max_len`. The writer is not part of the driver: `appendItem` is what the
driver relies on. A reader that was opened before the first item reads the log; appends and
reads are whole, in any order.

`log` has every item that was appended with its offset, and `delivered` the bytes that the
reads have copied to the user.
-/

namespace Tlogger

open MemoryCells

/-- `vfs_read` passes at most this `count`. -/
def maxRwCount : Nat := 0x7ffff000

/-- A string as the start of a memory. -/
def look (bytes : List UInt8) : Nat → UInt8 := fun i => bytes.getD i 0

/-- A well-formed item: the head of 64 bytes and `buffer_len` bytes of text. -/
structure LogItem where
  bytes : List UInt8
  magic_eq : magic (look bytes) 0 = logItemMagic
  length_eq : bytes.length = sizeofLogItem + bufferLen (look bytes) 0
  length_le : bytes.length ≤ logItemMaxLen
  aligned : bufferLen (look bytes) 0 % logItemLenAlign = 0
  realLen_pos : 0 < realLen (look bytes) 0
  realLen_le : realLen (look bytes) 0 ≤ bufferLen (look bytes) 0
  padding : (bufferLen (look bytes) 0 : Int) - realLen (look bytes) 0 < logItemLenAlign

/-- The log memory as the driver sets it up. -/
structure Config where
  logMemLen : Nat
  maxLen : Nat
  fits : maxLen + sizeofLogBuffer ≤ logMemLen
  small : logMemLen ≤ sizeofLogBuffer + logBufferMaxLen

/-! ## The writer -/

/-- The item fits before `max_len`. -/
def Fits (m : Mem) (x : LogItem) : Prop :=
  m.flag.lastPos.toNat + x.bytes.length ≤ m.flag.maxLen.toNat

instance (m : Mem) (x : LogItem) : Decidable (Fits m x) := inferInstanceAs (Decidable (_ ≤ _))

def itemPos (m : Mem) (x : LogItem) : Nat := if Fits m x then m.flag.lastPos.toNat else 0

def appendItem (m : Mem) (x : LogItem) : Mem :=
  let lastPos := m.flag.lastPos.toNat
  if Fits m x then
    { flag := { m.flag with lastPos := .ofNat 32 (lastPos + x.bytes.length) }
      bytes := write m.bytes lastPos x.bytes }
  else
    { flag := { m.flag with
        lastPos := .ofNat 32 x.bytes.length
        writeLoops := m.flag.writeLoops + 1 }
      bytes := write (write m.bytes lastPos (List.replicate (m.flag.maxLen.toNat - lastPos) 0)) 0
        x.bytes }

/-- The areas that `appendItem` writes: start and length. -/
def written (m : Mem) (x : LogItem) : List (Nat × Nat) :=
  let lastPos := m.flag.lastPos.toNat
  if Fits m x then [(lastPos, x.bytes.length)]
  else [(lastPos, m.flag.maxLen.toNat - lastPos), (0, x.bytes.length)]

/-! ## The system -/

structure LogState where
  mem : Mem
  reader : Reader := {}
  log : List (Nat × LogItem) := []
  delivered : List UInt8 := []

def opened (c : Config) (bytes : Nat → UInt8) : LogState :=
  { mem := ⟨⟨0, 0, .ofNat 32 c.maxLen⟩, bytes⟩ }

/-- The bytes of all items that were appended. -/
def LogState.appended (s : LogState) : List UInt8 := s.log.flatMap fun e => e.2.bytes

/-- What remains of the items behind the first `n` bytes. -/
def unreadFrom : List (Nat × LogItem) → Nat → List (Nat × LogItem)
  | [], _ => []
  | e :: rest, n =>
    if e.2.bytes.length ≤ n then unreadFrom rest (n - e.2.bytes.length) else e :: rest

def LogState.unread (s : LogState) : List (Nat × LogItem) := unreadFrom s.log s.delivered.length

inductive LogAct where
  | append (x : LogItem)
  | read (count : Nat)

def readOnce (c : Config) (s : LogState) (count : Nat) : LogState :=
  let out := processTloggerRead (fun _ => s.mem) c.logMemLen count s.reader
  { s with
    reader := out.2.1
    delivered := s.delivered ++ out.2.2.user }

def logStep (c : Config) (s : LogState) : LogAct → Option LogState
  | .append x =>
    if x.bytes.length ≤ c.maxLen then
      some { s with
        mem := appendItem s.mem x
        log := s.log ++ [(itemPos s.mem x, x)] }
    else none
  | .read count => some (readOnce c s count)

/-- The writer does not write over an item that the reader has not read. -/
def NoOverwrite (s : LogState) : LogAct → Prop
  | .append x => ∀ w ∈ written s.mem x, ∀ e ∈ s.unread,
      w.1 + w.2 ≤ e.1 ∨ e.1 + e.2.bytes.length ≤ w.1
  | .read _ => True

end Tlogger
