import Mathlib.Algebra.Group.Int.Defs
import Mathlib.Algebra.Group.Nat.Defs
import Mathlib.Data.Nat.Notation

/-!
# Reading the TEE's log

`tlogger/tlogger.c`: the TEE writes log items into memory that the driver reads at the same time.
`mem t` is this memory at the `t`-th fetch of the driver, so that the TEE may change it between
any two fetches; a field that the source names twice is fetched twice. Offsets count from
`buffer_start`. A reader keeps its position as an offset and the number of the loop it is in.

`Io` records, next to the clock of fetches, the ranges that were accessed, the headers that were
checked and the bytes that were copied to the user.
-/

namespace Tlogger

def logItemMagic : Nat := 0x5A5A
def logItemLenAlign : Nat := 64
def logItemMaxLen : Nat := 1024
def logReadStatusError : Int := 0x000FFFF
def logBufferMaxLen : Nat := 0x100000
/-- `sizeof(struct log_item)`. -/
def sizeofLogItem : Nat := 64
/-- `sizeof(struct log_buffer)`. -/
def sizeofLogBuffer : Nat := 220
def eINVAL : Int := 22
def eFAULT : Int := 14

structure LogBufferFlag where
  lastPos : BitVec 32
  writeLoops : BitVec 32
  maxLen : BitVec 32
  deriving DecidableEq, Repr

structure Mem where
  flag : LogBufferFlag
  bytes : Nat → UInt8

def u16 (bytes : Nat → UInt8) (pos : Nat) : Nat := (bytes pos).toNat + 256 * (bytes (pos + 1)).toNat

def s16 (bytes : Nat → UInt8) (pos : Nat) : Int :=
  if u16 bytes pos < 2 ^ 15 then u16 bytes pos else u16 bytes pos - 2 ^ 16

/-! The fields of the `log_item` at an offset. -/

def magic (bytes : Nat → UInt8) (pos : Nat) : Nat := u16 bytes (pos + 32)
def realLen (bytes : Nat → UInt8) (pos : Nat) : Int := s16 bytes (pos + 40)
def bufferLen (bytes : Nat → UInt8) (pos : Nat) : Nat := u16 bytes (pos + 42)

structure Reader where
  rOff : Nat := 0
  rLoops : BitVec 32 := 0
  deriving DecidableEq, Repr

structure Access where
  pos : Nat
  len : Nat
  deriving DecidableEq, Repr

/-- A call of `check_log_item_validite`: when, where and for which `item_max_size`. -/
structure Check where
  time : Nat
  pos : Nat
  itemMaxSize : Nat
  deriving DecidableEq, Repr

structure Io where
  clock : Nat := 0
  accesses : List Access := []
  checks : List Check := []
  user : List UInt8 := []

def Io.tick (io : Io) : Io := { io with clock := io.clock + 1 }

/-- One call of `check_log_item_validite`, with its nine fetches. -/
def Io.inspect (io : Io) (pos itemMaxSize : Nat) : Io :=
  { io with
    clock := io.clock + 9
    accesses := ⟨pos, sizeofLogItem⟩ :: io.accesses
    checks := ⟨io.clock, pos, itemMaxSize⟩ :: io.checks }

/-- `copy_to_user`. -/
def Io.copy (io : Io) (bytes : Nat → UInt8) (pos len : Nat) : Io :=
  { io with
    clock := io.clock + 1
    accesses := ⟨pos, len⟩ :: io.accesses
    user := io.user ++ (List.range len).map fun i => bytes (pos + i) }

section Read

variable (mem : Nat → Mem)

/-- `check_log_item_validite` at the time `t`. -/
def checkLogItemValidite (t pos itemMaxSize : Nat) : Bool :=
  (magic (mem t).bytes pos == logItemMagic) &&
  decide (0 < bufferLen (mem (t + 1)).bytes pos) &&
  decide (0 < realLen (mem (t + 2)).bytes pos) &&
  (bufferLen (mem (t + 3)).bytes pos % logItemLenAlign == 0) &&
  decide (realLen (mem (t + 4)).bytes pos ≤ bufferLen (mem (t + 5)).bytes pos) &&
  decide ((bufferLen (mem (t + 6)).bytes pos : Int) - realLen (mem (t + 7)).bytes pos < logItemLenAlign) &&
  decide (bufferLen (mem (t + 8)).bytes pos + sizeofLogItem ≤ itemMaxSize)

/-- The loop of `get_next_log_item`: whether an item was found, and `*pos`. -/
def scanItems (readPos scopeLen i pos : Nat) (io : Io) : Bool × Nat × Io :=
  if i + sizeofLogItem + logItemLenAlign ≤ scopeLen then
    let maxSize := if scopeLen - i > logItemMaxLen then logItemMaxLen else scopeLen - i
    if checkLogItemValidite mem io.clock (readPos + i) maxSize then
      (true, readPos + i, io.inspect (readPos + i) maxSize)
    else
      scanItems readPos scopeLen (i + logItemLenAlign) (readPos + i)
        (io.inspect (readPos + i) maxSize)
  else (false, pos, io)
termination_by scopeLen - i
decreasing_by
  have : 0 < logItemLenAlign := by decide
  omega

/-- `get_next_log_item`. -/
def getNextLogItem (maxLen readPos scopeLen pos : Nat) (io : Io) : Bool × Nat × Io :=
  if (readPos + scopeLen) % 2 ^ 32 > maxLen then (false, pos, io)
  else scanItems mem readPos scopeLen 0 pos io

structure ReaderPosition where
  maxLen : Nat
  startPos : Nat
  endPos : Nat

structure Parsed where
  bufWritten : Nat
  readOff : Nat
  userBufferLeft : Bool
  io : Io

/-- The loop of `parse_log_item`. -/
def parseItems (position : ReaderPosition) (startPos bufLeft bufWritten : Nat) (io : Io) : Parsed :=
  if startPos < position.endPos then
    match getNextLogItem mem position.maxLen startPos (position.endPos - startPos) startPos io with
    | (false, pos, io) => ⟨bufWritten, pos, true, io⟩
    | (true, pos, io) =>
      let itemLen := bufferLen (mem io.clock).bytes pos + sizeofLogItem
      if bufLeft < itemLen then ⟨bufWritten, pos, false, io.tick⟩
      else
        parseItems position ((pos + itemLen) % 2 ^ 32) (bufLeft - itemLen) (bufWritten + itemLen)
          (io.tick.copy (mem (io.clock + 1)).bytes pos itemLen)
  else ⟨bufWritten, startPos, true, io⟩
termination_by bufLeft
decreasing_by
  have : 0 < sizeofLogItem := by decide
  omega

/-- `parse_log_item`; `count` is cut to 32 bits. -/
def parseLogItem (count : Nat) (position : ReaderPosition) (io : Io) : Parsed :=
  parseItems mem position position.startPos (count % 2 ^ 32) 0 io

/-- `get_last_read_pos`: the return code, `*log_last_pos` and `*is_read`. -/
def getLastReadPos (logMemLen : Nat) (flag : LogBufferFlag) (reader : Reader) : Int × Nat × Bool :=
  let bufferMaxLen := (2 ^ 32 + logMemLen - sizeofLogBuffer) % 2 ^ 32
  let logLastPos := flag.lastPos.toNat
  if bufferMaxLen > logBufferMaxLen then (-eINVAL, 0, false)
  else if logLastPos = reader.rOff ∧ flag.writeLoops = reader.rLoops then (0, logLastPos, false)
  else if flag.maxLen.toNat < logLastPos ∨ flag.maxLen.toNat > bufferMaxLen then
    (-eFAULT, logLastPos, false)
  else if reader.rOff > flag.maxLen.toNat then (-eFAULT, logLastPos, false)
  else (0, logLastPos, true)

/-- `proc_read_ret`. -/
def procReadRet (bufWritten : Nat) : Int :=
  if bufWritten = 0 then logReadStatusError else bufWritten

/-- A reader whose position was overwritten goes on at the oldest item. -/
def skipOverwritten (t logLastPos : Nat) (reader : Reader) : Reader :=
  if (mem t).flag.writeLoops > reader.rLoops + 1 ∨
      ((mem (t + 1)).flag.writeLoops = reader.rLoops + 1 ∧ reader.rOff < logLastPos) then
    ⟨logLastPos, (mem (t + 2)).flag.writeLoops - 1⟩
  else reader

/-- The second part of `trigger_parse_log`: the reader is not in the loop of the writer. -/
def parseBehind (count logLastPos : Nat) (reader : Reader) (io : Io) : Int × Reader × Io :=
  let t := io.clock
  let reader := skipOverwritten mem t logLastPos reader
  let first := parseLogItem mem count
    ⟨(mem (t + 3)).flag.maxLen.toNat, reader.rOff, (mem (t + 4)).flag.maxLen.toNat⟩
    { io with clock := t + 5 }
  if count > first.bufWritten ∧ first.userBufferLeft then
    let t := first.io.clock
    let second := parseLogItem mem (count - first.bufWritten)
      ⟨(mem t).flag.maxLen.toNat, 0, logLastPos⟩ first.io.tick
    (procReadRet (first.bufWritten + second.bufWritten),
      ⟨second.readOff, (mem second.io.clock).flag.writeLoops⟩, second.io.tick)
  else (procReadRet first.bufWritten, { reader with rOff := first.readOff }, first.io)

/-- `trigger_parse_log`. -/
def triggerParseLog (count logLastPos : Nat) (reader : Reader) (io : Io) : Int × Reader × Io :=
  let t := io.clock
  if (mem t).flag.writeLoops = reader.rLoops then
    let parsed := parseLogItem mem count
      ⟨(mem (t + 1)).flag.maxLen.toNat, reader.rOff, logLastPos⟩ { io with clock := t + 2 }
    (procReadRet parsed.bufWritten, { reader with rOff := parsed.readOff }, parsed.io)
  else parseBehind mem count logLastPos reader { io with clock := t + 1 }

/-- `get_buffer_info`: the snapshot of the flag. -/
def getBufferInfo (t : Nat) : LogBufferFlag :=
  ⟨(mem t).flag.lastPos, (mem (t + 1)).flag.writeLoops, (mem (t + 2)).flag.maxLen⟩

/-- `process_tlogger_read`. -/
def processTloggerRead (logMemLen count : Nat) (reader : Reader) : Int × Reader × Io :=
  if count < logItemMaxLen then (-eINVAL, reader, {})
  else
    match getLastReadPos logMemLen (getBufferInfo mem 0) reader with
    | (ret, _, false) => (ret, reader, { clock := 3 })
    | (_, lastPos, true) => triggerParseLog mem count lastPos reader { clock := 3 }

end Read

end Tlogger
