import Tzdriver.TloggerRing

/-!
# Reading items from memory that does not change

An area of the log memory has some items and then zeros up to its end. The loop of
`parse_log_item` copies items from the front until the user's buffer is too short for the next
one; at the zeros it stops, somewhere between the last item and the end of the area.
-/

namespace Tlogger

open MemoryCells

/-- The bytes of a list of items. -/
def bytesOf (items : List LogItem) : List UInt8 := items.flatMap LogItem.bytes

@[simp]
theorem bytesOf_nil : bytesOf [] = [] := rfl

@[simp]
theorem bytesOf_cons (x : LogItem) (items : List LogItem) :
    bytesOf (x :: items) = x.bytes ++ bytesOf items := rfl

@[simp]
theorem bytesOf_append (xs ys : List LogItem) : bytesOf (xs ++ ys) = bytesOf xs ++ bytesOf ys :=
  List.flatMap_append

section Fields

variable {bytes : Nat → UInt8} {p : Nat} {x : LogItem}

theorem LogItem.bufferLen_pos (x : LogItem) : 0 < bufferLen (look x.bytes) 0 := by
  have := x.realLen_pos
  have := x.realLen_le
  omega

/-- The smallest item has 128 bytes. -/
theorem LogItem.length_ge (x : LogItem) : sizeofLogItem + logItemLenAlign ≤ x.bytes.length := by
  have pos := x.bufferLen_pos
  have aligned := x.aligned
  have len := x.length_eq
  simp only [logItemLenAlign] at *
  omega

theorem holds_u16 {xs : List UInt8} (holds : Holds bytes p xs) {k : Nat} (inside : k + 1 < xs.length) :
    u16 bytes (p + k) = u16 (look xs) k := by
  have low : bytes (p + k) = look xs k := by
    rw [holds k (by omega)]
    simp [look, show k < xs.length by omega]
  have high : bytes (p + k + 1) = look xs (k + 1) := by
    rw [Nat.add_assoc, holds (k + 1) inside]
    simp [look, inside]
  rw [u16, u16, low, high]

theorem LogItem.head (x : LogItem) : 64 < x.bytes.length := by
  have := x.length_ge
  simp only [sizeofLogItem, logItemLenAlign] at this
  omega

theorem holds_magic (holds : Holds bytes p x.bytes) : magic bytes p = magic (look x.bytes) 0 := by
  have := x.head
  simpa [magic] using holds_u16 holds (k := 32) (by omega)

theorem holds_bufferLen (holds : Holds bytes p x.bytes) :
    bufferLen bytes p = bufferLen (look x.bytes) 0 := by
  have := x.head
  simpa [bufferLen] using holds_u16 holds (k := 42) (by omega)

theorem holds_realLen (holds : Holds bytes p x.bytes) :
    realLen bytes p = realLen (look x.bytes) 0 := by
  have := x.head
  have len := holds_u16 holds (k := 40) (by omega)
  simp only [realLen, s16, len, Nat.zero_add]

theorem holds_itemLen (holds : Holds bytes p x.bytes) :
    bufferLen bytes p + sizeofLogItem = x.bytes.length := by
  rw [holds_bufferLen holds, x.length_eq]
  omega

theorem valid_of_holds (m : Mem) (t size : Nat) (holds : Holds m.bytes p x.bytes)
    (room : x.bytes.length ≤ size) : checkLogItemValidite (fun _ => m) t p size = true := by
  have len := holds_itemLen holds
  simp only [checkLogItemValidite, Bool.and_eq_true, decide_eq_true_eq, beq_iff_eq, holds_magic holds,
    holds_realLen holds]
  rw [holds_bufferLen holds] at len ⊢
  exact ⟨⟨⟨⟨⟨⟨x.magic_eq, x.bufferLen_pos⟩, x.realLen_pos⟩, x.aligned⟩, x.realLen_le⟩, x.padding⟩,
    by omega⟩

theorem invalid_of_zero (m : Mem) (t size : Nat) {a b : Nat} (zeros : Filled m.bytes 0 a b)
    (low : a ≤ p) (high : p + 64 ≤ b) : checkLogItemValidite (fun _ => m) t p size = false := by
  have zero : magic m.bytes p = 0 := by
    rw [magic, u16, zeros (p + 32) (by omega) (by omega), zeros (p + 32 + 1) (by omega) (by omega)]
    rfl
  simp [checkLogItemValidite, zero, logItemMagic]

end Fields

section Scan

variable {m : Mem} {readPos scopeLen : Nat}

theorem scanItems_found {x : LogItem} (holds : Holds m.bytes readPos x.bytes)
    (room : x.bytes.length ≤ scopeLen) (pos : Nat) (io : Io) :
    ∃ maxSize, scanItems (fun _ => m) readPos scopeLen 0 pos io =
      (true, readPos, io.inspect readPos maxSize) := by
  have size : x.bytes.length ≤
      if scopeLen - 0 > logItemMaxLen then logItemMaxLen else scopeLen - 0 := by
    split
    · exact x.length_le
    · exact room
  have first : 0 + sizeofLogItem + logItemLenAlign ≤ scopeLen := by
    have := x.length_ge
    omega
  rw [scanItems, if_pos first]
  refine ⟨if scopeLen - 0 > logItemMaxLen then logItemMaxLen else scopeLen - 0, ?_⟩
  simp only [Nat.add_zero, valid_of_holds m io.clock _ holds size, if_true]

/-- The scan of zeros finds nothing, but it moves the position. -/
theorem scanItems_zero (readPos scopeLen : Nat)
    (zeros : Filled m.bytes 0 readPos (readPos + scopeLen)) (i pos : Nat) (io : Io) (low : readPos ≤ pos) (high : pos ≤ readPos + scopeLen) :
    ∃ pos' io', scanItems (fun _ => m) readPos scopeLen i pos io = (false, pos', io') ∧
      readPos ≤ pos' ∧ pos' ≤ readPos + scopeLen ∧ io'.user = io.user := by
  fun_induction scanItems (fun _ => m) readPos scopeLen i pos io with
  | case1 i pos io room maxSize valid =>
    simp only [sizeofLogItem, logItemLenAlign] at room
    have := invalid_of_zero m io.clock maxSize zeros (p := readPos + i) (by omega) (by omega)
    simp [this] at valid
  | case2 i pos io room maxSize invalid ih =>
    simp only [sizeofLogItem, logItemLenAlign] at room
    exact ih (by omega) (by omega)
  | case3 i pos io full => exact ⟨pos, io, rfl, low, high, rfl⟩

end Scan

section Parse

variable {m : Mem} {position : ReaderPosition}

/-- Inside the area `get_next_log_item` only scans. -/
theorem getNextLogItem_scan (small : position.endPos < 2 ^ 32) (le : position.endPos ≤ position.maxLen)
    {startPos : Nat} (ahead : startPos ≤ position.endPos) (io : Io) :
    getNextLogItem (fun _ => m) position.maxLen startPos (position.endPos - startPos) startPos io =
      scanItems (fun _ => m) startPos (position.endPos - startPos) 0 startPos io := by
  have sum : startPos + (position.endPos - startPos) = position.endPos := by omega
  rw [getNextLogItem, sum, Nat.mod_eq_of_lt small, if_neg (by omega)]

/-- `taken` was copied and `rest` was not. -/
structure Took (startPos bufLeft bufWritten : Nat) (io : Io) (position : ReaderPosition)
    (taken rest : List LogItem) (out : Parsed) : Prop where
  written : out.bufWritten = bufWritten + (bytesOf taken).length
  user : out.io.user = io.user ++ bytesOf taken
  short : ∀ x xs, rest = x :: xs → bufLeft < (bytesOf taken).length + x.bytes.length ∧
    out.userBufferLeft = false ∧ out.readOff = startPos + (bytesOf taken).length
  finished : rest = [] → out.userBufferLeft = true ∧
    startPos + (bytesOf taken).length ≤ out.readOff ∧ out.readOff ≤ position.endPos

theorem parseItems_none (small : position.endPos < 2 ^ 32) (le : position.endPos ≤ position.maxLen)
    {startPos : Nat} (bound : startPos ≤ position.endPos)
    (zeros : Filled m.bytes 0 startPos position.endPos) (bufLeft bufWritten : Nat) (io : Io) :
    Took startPos bufLeft bufWritten io position [] []
      (parseItems (fun _ => m) position startPos bufLeft bufWritten io) := by
  rw [parseItems]
  by_cases ahead : startPos < position.endPos
  · rw [if_pos ahead, getNextLogItem_scan small le bound]
    have sum : startPos + (position.endPos - startPos) = position.endPos := by omega
    obtain ⟨pos, io', scan, low, high, user⟩ := scanItems_zero startPos
      (position.endPos - startPos) (sum ▸ zeros) 0 startPos io (Nat.le_refl _) (by omega)
    rw [scan]
    exact ⟨by simp, by simp [user], by simp, fun _ => ⟨rfl, by simpa using low, by simp; omega⟩⟩
  · rw [if_neg ahead]
    exact ⟨by simp, by simp, by simp, fun _ => ⟨rfl, by simp, bound⟩⟩

theorem parseItems_took (small : position.endPos < 2 ^ 32) (le : position.endPos ≤ position.maxLen)
    (items : List LogItem) {startPos : Nat} (bound : startPos + (bytesOf items).length ≤ position.endPos)
    (holds : Holds m.bytes startPos (bytesOf items))
    (zeros : Filled m.bytes 0 (startPos + (bytesOf items).length) position.endPos)
    (bufLeft bufWritten : Nat) (io : Io) :
    ∃ taken rest, items = taken ++ rest ∧ Took startPos bufLeft bufWritten io position taken rest
      (parseItems (fun _ => m) position startPos bufLeft bufWritten io) := by
  induction items generalizing startPos bufLeft bufWritten io with
  | nil =>
    simp only [bytesOf_nil, List.length_nil, Nat.add_zero] at bound zeros
    exact ⟨[], [], rfl, parseItems_none small le bound zeros bufLeft bufWritten io⟩
  | cons x items ih =>
    simp only [bytesOf_cons, List.length_append] at bound zeros
    rw [bytesOf_cons, holds_append] at holds
    have len := x.head
    obtain ⟨maxSize, next⟩ : ∃ maxSize, getNextLogItem (fun _ => m) position.maxLen startPos
        (position.endPos - startPos) startPos io = (true, startPos, io.inspect startPos maxSize) := by
      rw [getNextLogItem_scan small le (by omega)]
      exact scanItems_found holds.1 (by omega) startPos io
    rw [parseItems, if_pos (by omega), next]
    simp only [holds_itemLen holds.1]
    by_cases short : bufLeft < x.bytes.length
    · rw [if_pos short]
      refine ⟨[], x :: items, rfl, by simp, by simp [Io.inspect, Io.tick], ?_, by simp⟩
      rintro y ys ⟨rfl, rfl⟩
      simpa using short
    · rw [if_neg short, Nat.mod_eq_of_lt (by omega)]
      obtain ⟨taken, rest, split, took⟩ := ih (by omega)
        holds.2 (by rwa [Nat.add_assoc]) (bufLeft - x.bytes.length) (bufWritten + x.bytes.length)
        ((io.inspect startPos maxSize).tick.copy m.bytes startPos x.bytes.length)
      refine ⟨x :: taken, rest, by rw [split]; rfl, ?_, ?_, ?_, ?_⟩
      · rw [took.written, bytesOf_cons, List.length_append, Nat.add_assoc]
      · rw [took.user, bytesOf_cons, Io.copy, holds.1.read, List.append_assoc]
        rfl
      · intro y ys hrest
        obtain ⟨left, full, off⟩ := took.short y ys hrest
        simp only [bytesOf_cons, List.length_append]
        exact ⟨by omega, full, by omega⟩
      · intro hrest
        obtain ⟨left, low, high⟩ := took.finished hrest
        simp only [bytesOf_cons, List.length_append]
        exact ⟨left, by omega, high⟩

theorem parseLogItem_took (position : ReaderPosition) (small : position.endPos < 2 ^ 32)
    (le : position.endPos ≤ position.maxLen) (items : List LogItem)
    (bound : position.startPos + (bytesOf items).length ≤ position.endPos)
    (holds : Holds m.bytes position.startPos (bytesOf items))
    (zeros : Filled m.bytes 0 (position.startPos + (bytesOf items).length) position.endPos)
    (count : Nat) (io : Io) :
    ∃ taken rest, items = taken ++ rest ∧
      Took position.startPos (count % 2 ^ 32) 0 io position taken rest
        (parseLogItem (fun _ => m) count position io) :=
  parseItems_took small le items bound holds zeros (count % 2 ^ 32) 0 io

end Parse

end Tlogger
