import Tzdriver.TloggerParse

/-!
# Every item is delivered once and in order

The items that a reader has not read are either all in the loop of the writer, up to its end
(`Same`), or the reader has still to read the rest of the loop before it (`Behind`): then come
zeros up to the end of the memory, and then the items of the writer's loop from the beginning. When
nothing is left of the earlier loop, the position of the reader may be anywhere behind its
last item, and the writer may be ahead of it.
-/

namespace Tlogger

open MemoryCells

/-- Items at consecutive offsets. -/
def placed : Nat → List LogItem → List (Nat × LogItem)
  | _, [] => []
  | p, x :: xs => (p, x) :: placed (p + x.bytes.length) xs

/-- The bytes of items with their offsets. -/
def entryBytes (entries : List (Nat × LogItem)) : List UInt8 := entries.flatMap fun e => e.2.bytes

theorem placed_append (p : Nat) (xs ys : List LogItem) :
    placed p (xs ++ ys) = placed p xs ++ placed (p + (bytesOf xs).length) ys := by
  induction xs generalizing p with
  | nil => simp [placed]
  | cons x xs ih => simp [placed, ih, Nat.add_assoc]

theorem entryBytes_placed (p : Nat) (xs : List LogItem) : entryBytes (placed p xs) = bytesOf xs := by
  induction xs generalizing p with
  | nil => rfl
  | cons x xs ih =>
    have rest := ih (p + x.bytes.length)
    simp only [entryBytes, placed, List.flatMap_cons, bytesOf_cons] at rest ⊢
    rw [rest]

theorem entryBytes_append (xs ys : List (Nat × LogItem)) :
    entryBytes (xs ++ ys) = entryBytes xs ++ entryBytes ys := List.flatMap_append

theorem placed_ne_nil {p : Nat} {xs : List LogItem} : placed p xs ≠ [] ↔ xs ≠ [] := by
  cases xs <;> simp [placed]

theorem bytesOf_length_pos {xs : List LogItem} (ne : xs ≠ []) : 0 < (bytesOf xs).length := by
  cases xs with
  | nil => exact absurd rfl ne
  | cons x xs =>
    have := x.head
    simp only [bytesOf_cons, List.length_append]
    omega

/-! ## Where the unread items are -/

structure Same (m : Mem) (reader : Reader) (pending : List LogItem) : Prop where
  loops : m.flag.writeLoops = reader.rLoops
  holds : Holds m.bytes reader.rOff (bytesOf pending)
  ends : reader.rOff + (bytesOf pending).length = m.flag.lastPos.toNat

structure Behind (m : Mem) (reader : Reader) (old cur : List LogItem) : Prop where
  loops : m.flag.writeLoops = reader.rLoops + 1
  first : Holds m.bytes reader.rOff (bytesOf old)
  bound : reader.rOff + (bytesOf old).length ≤ m.flag.maxLen.toNat
  zeros : Filled m.bytes 0 (max (reader.rOff + (bytesOf old).length) m.flag.lastPos.toNat)
    m.flag.maxLen.toNat
  free : old ≠ [] → m.flag.lastPos.toNat ≤ reader.rOff
  second : Holds m.bytes 0 (bytesOf cur)
  ends : (bytesOf cur).length = m.flag.lastPos.toNat
  nonempty : cur ≠ []

/-- The unread items, in order, with their offsets. -/
inductive Unread (m : Mem) (reader : Reader) : List (Nat × LogItem) → Prop
  | same {pending : List LogItem} (h : Same m reader pending) :
      Unread m reader (placed reader.rOff pending)
  | behind {old cur : List LogItem} (h : Behind m reader old cur) :
      Unread m reader (placed reader.rOff old ++ placed 0 cur)

/-- The flag is as the driver expects it. -/
structure FlagOk (c : Config) (m : Mem) : Prop where
  maxLen : m.flag.maxLen.toNat = c.maxLen
  lastPos : m.flag.lastPos.toNat ≤ c.maxLen

/-! ## A read -/

/-- There is room for an item in the user's buffer. -/
def Room (count : Nat) : Prop := logItemMaxLen ≤ count ∧ count ≤ maxRwCount

theorem Room.mod {count : Nat} (room : Room count) : count % 2 ^ 32 = count := by
  have := room.2
  simp only [maxRwCount] at this
  exact Nat.mod_eq_of_lt (by omega)

section Read

variable {c : Config} {m : Mem} {reader : Reader} {count : Nat}

theorem getLastReadPos_static (ok : FlagOk c m) (off : reader.rOff ≤ c.maxLen) :
    getLastReadPos c.logMemLen m.flag reader =
      (0, m.flag.lastPos.toNat,
        !decide (m.flag.lastPos.toNat = reader.rOff ∧ m.flag.writeLoops = reader.rLoops)) := by
  have fits := c.fits
  have small := c.small
  have maxLen := ok.maxLen
  have lastPos := ok.lastPos
  simp only [sizeofLogBuffer, logBufferMaxLen] at fits small
  have len : (2 ^ 32 + c.logMemLen - sizeofLogBuffer) % 2 ^ 32 = c.logMemLen - 220 := by
    simp only [sizeofLogBuffer]
    omega
  simp only [getLastReadPos, len, logBufferMaxLen]
  rw [if_neg (by omega)]
  by_cases done : m.flag.lastPos.toNat = reader.rOff ∧ m.flag.writeLoops = reader.rLoops
  · simp [done]
  · rw [if_neg done, if_neg (by omega), if_neg (by omega)]
    simp [done]

/-- A read does nothing, or the flag has something to read. -/
theorem processTloggerRead_static (count : Nat) (ok : FlagOk c m) (off : reader.rOff ≤ c.maxLen) :
    (¬ Room count ∧ processTloggerRead (fun _ => m) c.logMemLen count reader = (-eINVAL, reader, {})) ∨
    (m.flag.lastPos.toNat = reader.rOff ∧ m.flag.writeLoops = reader.rLoops ∧
      processTloggerRead (fun _ => m) c.logMemLen count reader = (0, reader, { clock := 3 })) ∨
    (¬ (m.flag.lastPos.toNat = reader.rOff ∧ m.flag.writeLoops = reader.rLoops) ∧
      processTloggerRead (fun _ => m) c.logMemLen count reader =
        triggerParseLog (fun _ => m) count m.flag.lastPos.toNat reader { clock := 3 }) := by
  unfold processTloggerRead
  by_cases short : count < logItemMaxLen
  · rw [if_pos short]
    exact .inl ⟨fun room => absurd room.1 (by omega), rfl⟩
  · have snapshot : getBufferInfo (fun _ => m) 0 = m.flag := rfl
    rw [if_neg short, snapshot, getLastReadPos_static ok off]
    by_cases done : m.flag.lastPos.toNat = reader.rOff ∧ m.flag.writeLoops = reader.rLoops
    · simp [done]
    · simp [done]

/-- The first parse of a read takes at least one item when there is room. -/
theorem Took.ne_nil {startPos bufWritten : Nat} {io : Io} {position : ReaderPosition}
    {taken rest : List LogItem} {out : Parsed}
    (took : Took startPos (count % 2 ^ 32) bufWritten io position taken rest out) (room : Room count)
    (ne : taken ++ rest ≠ []) : taken ≠ [] := by
  rintro rfl
  cases rest with
  | nil => exact ne rfl
  | cons x xs =>
    have short := (took.short x xs rfl).1
    have len := x.length_le
    have enough := room.1
    rw [room.mod] at short
    simp only [bytesOf_nil, List.length_nil] at short
    omega

/-- Without zeros the parse stops at the end of the last item it took. -/
theorem Took.readOff_eq {startPos bufLeft bufWritten : Nat} {io : Io} {position : ReaderPosition}
    {taken rest : List LogItem} {out : Parsed}
    (took : Took startPos bufLeft bufWritten io position taken rest out)
    (ends : position.endPos = startPos + (bytesOf (taken ++ rest)).length) :
    out.readOff = startPos + (bytesOf taken).length := by
  cases rest with
  | nil =>
    obtain ⟨-, low, high⟩ := took.finished rfl
    rw [List.append_nil] at ends
    omega
  | cons x xs => exact (took.short x xs rfl).2.2

/-- What one read does to the unread items. -/
structure Advanced (m : Mem) (count : Nat) (unread : List (Nat × LogItem))
    (out : Int × Reader × Io) (taken rest : List (Nat × LogItem)) : Prop where
  split : unread = taken ++ rest
  user : out.2.2.user = entryBytes taken
  left : Unread m out.2.1 rest
  progress : Room count → unread ≠ [] → taken ≠ []

theorem Same.read (ok : FlagOk c m) {pending : List LogItem} (same : Same m reader pending) :
    ∃ taken rest, Advanced m count (placed reader.rOff pending)
      (processTloggerRead (fun _ => m) c.logMemLen count reader) taken rest := by
  have ends := same.ends
  have lastPos := ok.lastPos
  have maxLen := ok.maxLen
  rcases processTloggerRead_static count ok (by omega : reader.rOff ≤ c.maxLen) with
    ⟨noRoom, read⟩ | ⟨done, -, read⟩ | ⟨more, read⟩
  · rw [read]
    exact ⟨[], _, rfl, rfl, .same same, fun room => absurd room noRoom⟩
  · rw [read]
    refine ⟨[], _, rfl, rfl, .same same, ?_⟩
    intro _ ne
    have := bytesOf_length_pos (placed_ne_nil.1 ne)
    omega
  · obtain ⟨taken, rest, split, took⟩ := parseLogItem_took
      ⟨m.flag.maxLen.toNat, reader.rOff, m.flag.lastPos.toNat⟩ m.flag.lastPos.isLt
      (by rw [maxLen]; exact lastPos) pending (Nat.le_of_eq ends) same.holds
      (fun i low high => absurd low (by simp only at high ⊢; omega)) count { clock := 3 + 2 }
    have off := took.readOff_eq (by rw [← split]; exact ends.symm)
    dsimp only at off
    have holds := same.holds
    rw [split, bytesOf_append, holds_append] at holds
    rw [split, bytesOf_append, List.length_append] at ends
    rw [read, triggerParseLog]
    simp only [same.loops, if_true]
    refine ⟨placed reader.rOff taken, placed (reader.rOff + (bytesOf taken).length) rest,
      by rw [split, placed_append], by rw [took.user, entryBytes_placed]; rfl, ?_, ?_⟩
    · rw [← off] at holds ⊢
      exact .same ⟨same.loops, holds.2, by simp only [off]; omega⟩
    · intro room ne
      rw [placed_ne_nil, split] at ne
      exact placed_ne_nil.2 (took.ne_nil room ne)

/-- A reader that the writer has passed has nothing left of the earlier loop; it goes on behind
the writer, where only zeros are. -/
theorem Behind.skip (ok : FlagOk c m) {old cur : List LogItem} (behind : Behind m reader old cur)
    (t : Nat) : ∃ off, skipOverwritten (fun _ => m) t m.flag.lastPos.toNat reader =
      { reader with rOff := off } ∧ m.flag.lastPos.toNat ≤ off ∧
      Behind m { reader with rOff := off } old cur ∧ placed off old = placed reader.rOff old := by
  have notAhead : ¬ m.flag.writeLoops > reader.rLoops + 1 := by
    rw [behind.loops]
    exact BitVec.lt_irrefl _
  by_cases passed : reader.rOff < m.flag.lastPos.toNat
  · have nothing : old = [] := by
      by_contra ne
      have := behind.free ne
      omega
    subst nothing
    refine ⟨m.flag.lastPos.toNat, ?_, Nat.le_refl _, ?_, rfl⟩
    · have back : m.flag.writeLoops - 1 = reader.rLoops := by
        rw [behind.loops]
        exact BitVec.add_sub_cancel _ _
      rw [skipOverwritten, if_pos (.inr ⟨behind.loops, passed⟩), back]
    · have zeros := behind.zeros
      simp only [bytesOf_nil, List.length_nil, Nat.add_zero] at zeros
      refine ⟨behind.loops, holds_nil, ?_, ?_, by simp, behind.second, behind.ends, behind.nonempty⟩
      · have := ok.lastPos
        have := ok.maxLen
        simp
        omega
      · refine zeros.shrink ?_ (Nat.le_refl _)
        simp
        omega
  · refine ⟨reader.rOff, ?_, by omega, behind, rfl⟩
    rw [skipOverwritten, if_neg (by rintro (h | ⟨-, h⟩); exacts [notAhead h, passed h])]

/-- The part of the earlier loop that is left when a read stops there. -/
theorem Behind.rest {old cur taken rest : List LogItem} (behind : Behind m reader old cur)
    (ahead : m.flag.lastPos.toNat ≤ reader.rOff) (split : old = taken ++ rest) :
    Behind m { reader with rOff := reader.rOff + (bytesOf taken).length } rest cur := by
  have first := behind.first
  have bound := behind.bound
  have zeros := behind.zeros
  rw [split, bytesOf_append, holds_append] at first
  rw [split, bytesOf_append, List.length_append, ← Nat.add_assoc] at bound zeros
  refine ⟨behind.loops, first.2, bound, zeros, ?_, behind.second, behind.ends, behind.nonempty⟩
  intro _
  show _ ≤ reader.rOff + (bytesOf taken).length
  omega

/-- Nothing is left of the earlier loop. -/
theorem Behind.drained {old cur : List LogItem} (behind : Behind m reader old cur) {off : Nat}
    (low : reader.rOff + (bytesOf old).length ≤ off) (high : off ≤ m.flag.maxLen.toNat) :
    Behind m { reader with rOff := off } [] cur := by
  refine ⟨behind.loops, holds_nil, high, behind.zeros.shrink ?_ (Nat.le_refl _), by simp,
    behind.second, behind.ends, behind.nonempty⟩
  simp
  omega

/-- After the earlier loop the read goes on in the loop of the writer. -/
theorem Behind.parseCur (ok : FlagOk c m) {old cur : List LogItem} (behind : Behind m reader old cur)
    (count : Nat) {bufWritten : Nat} (io : Io) (user : io.user = bytesOf old)
    (written : bufWritten = 0 + (bytesOf old).length) :
    let second := parseLogItem (fun _ => m) (count - bufWritten)
      ⟨m.flag.maxLen.toNat, 0, m.flag.lastPos.toNat⟩ io.tick
    ∃ taken rest, Advanced m count (placed reader.rOff old ++ placed 0 cur)
      (procReadRet (bufWritten + second.bufWritten), ⟨second.readOff, m.flag.writeLoops⟩,
        second.io.tick) taken rest := by
  have maxLen := ok.maxLen
  have lastPos := ok.lastPos
  have ends := behind.ends
  obtain ⟨taken, rest, split, took⟩ := parseLogItem_took (m := m)
    ⟨m.flag.maxLen.toNat, 0, m.flag.lastPos.toNat⟩ m.flag.lastPos.isLt (by simp only; omega) cur
    (by simp only; omega) behind.second (fun i low high => absurd low (by simp only at high ⊢; omega))
    (count - bufWritten) io.tick
  have off := took.readOff_eq (by rw [← split]; simp only; omega)
  dsimp only at off
  have holds := behind.second
  rw [split, bytesOf_append, holds_append] at holds
  rw [split, bytesOf_append, List.length_append] at ends
  refine ⟨placed reader.rOff old ++ placed 0 taken, placed (0 + (bytesOf taken).length) rest,
    by rw [split, placed_append, List.append_assoc], ?_, ?_, ?_⟩
  · rw [entryBytes_append, entryBytes_placed, entryBytes_placed]
    exact took.user.trans (by rw [← user]; rfl)
  · rw [← off] at holds ⊢
    exact .same ⟨rfl, holds.2, by simp only [off]; omega⟩
  · intro room _
    by_cases ne : old = []
    · subst ne
      rw [bytesOf_nil, List.length_nil] at written
      rw [written] at took
      have nonempty := behind.nonempty
      rw [split] at nonempty
      simpa [placed] using placed_ne_nil.2 (took.ne_nil room nonempty)
    · exact List.append_ne_nil_of_left_ne_nil (placed_ne_nil.2 ne) _

theorem Behind.parse (ok : FlagOk c m) {old cur : List LogItem} (behind : Behind m reader old cur)
    (count : Nat) (io : Io) (user : io.user = []) :
    ∃ taken rest, Advanced m count (placed reader.rOff old ++ placed 0 cur)
      (parseBehind (fun _ => m) count m.flag.lastPos.toNat reader io) taken rest := by
  obtain ⟨off, skip, ahead, behind, samePlaced⟩ := behind.skip ok io.clock
  have maxLen := ok.maxLen
  have lastPos := ok.lastPos
  have bound := behind.bound
  obtain ⟨taken, rest, split, took⟩ := parseLogItem_took (m := m)
    ⟨m.flag.maxLen.toNat, off, m.flag.maxLen.toNat⟩ m.flag.maxLen.isLt (Nat.le_refl _) old bound
    behind.first (behind.zeros.shrink (by simp; omega) (Nat.le_refl _)) count
    { io with clock := io.clock + 5 }
  rw [parseBehind, ← samePlaced]
  simp only [skip]
  generalize parseLogItem (fun _ => m) count ⟨m.flag.maxLen.toNat, off, m.flag.maxLen.toNat⟩
    { io with clock := io.clock + 5 } = first at took ⊢
  cases rest with
  | cons x xs =>
    obtain ⟨-, full, readOff⟩ := took.short x xs rfl
    rw [if_neg (by simp [full])]
    refine ⟨placed off taken, placed (off + (bytesOf taken).length) (x :: xs) ++ placed 0 cur,
      by rw [split, placed_append, List.append_assoc], ?_, ?_, ?_⟩
    · rw [entryBytes_placed, took.user, user, List.nil_append]
    · have left := behind.rest ahead split
      rw [← readOff] at left ⊢
      exact .behind left
    · intro room _
      exact placed_ne_nil.2 (took.ne_nil room (by simp))
  | nil =>
    rw [List.append_nil] at split
    subst split
    obtain ⟨left, low, high⟩ := took.finished rfl
    have written := took.written
    by_cases more : count > first.bufWritten
    · rw [if_pos ⟨more, left⟩]
      exact behind.parseCur ok count first.io (by rw [took.user, user, List.nil_append]) written
    · rw [if_neg (by simp [more])]
      refine ⟨placed off old, placed first.readOff [] ++ placed 0 cur, rfl, ?_, ?_, ?_⟩
      · rw [entryBytes_placed, took.user, user, List.nil_append]
      · exact .behind (behind.drained low high)
      · intro room _
        rw [placed_ne_nil]
        rintro rfl
        have := room.1
        simp only [logItemMaxLen] at this
        simp at written
        omega

theorem Behind.read (ok : FlagOk c m) {old cur : List LogItem} (behind : Behind m reader old cur) :
    ∃ taken rest, Advanced m count (placed reader.rOff old ++ placed 0 cur)
      (processTloggerRead (fun _ => m) c.logMemLen count reader) taken rest := by
  have bound := behind.bound
  have maxLen := ok.maxLen
  have otherLoop : m.flag.writeLoops ≠ reader.rLoops := by
    rw [behind.loops]
    bv_omega
  rcases processTloggerRead_static count ok (by omega : reader.rOff ≤ c.maxLen) with
    ⟨noRoom, read⟩ | ⟨-, done, -⟩ | ⟨-, read⟩
  · rw [read]
    exact ⟨[], _, rfl, rfl, .behind behind, fun room => absurd room noRoom⟩
  · exact absurd done otherLoop
  · rw [read, triggerParseLog]
    simp only [otherLoop, if_false]
    exact behind.parse ok count { clock := 3 + 1 } rfl

theorem Unread.read (ok : FlagOk c m) {unread : List (Nat × LogItem)} (h : Unread m reader unread)
    (count : Nat) : ∃ taken rest, Advanced m count unread
      (processTloggerRead (fun _ => m) c.logMemLen count reader) taken rest := by
  cases h with
  | same same => exact same.read ok
  | behind behind => exact behind.read ok

end Read

/-! ## An append -/

section Append

variable {c : Config} {m : Mem} {reader : Reader} {x : LogItem}

theorem Config.maxLen_lt (c : Config) : c.maxLen < 2 ^ 32 := by
  have fits := c.fits
  have small := c.small
  simp only [sizeofLogBuffer, logBufferMaxLen] at fits small
  omega

theorem appendItem_fits (fits : Fits m x) :
    appendItem m x =
      { flag := { m.flag with lastPos := .ofNat 32 (m.flag.lastPos.toNat + x.bytes.length) }
        bytes := write m.bytes m.flag.lastPos.toNat x.bytes } := if_pos fits

theorem appendItem_wraps (wraps : ¬ Fits m x) :
    appendItem m x =
      { flag := { m.flag with
          lastPos := .ofNat 32 x.bytes.length
          writeLoops := m.flag.writeLoops + 1 }
        bytes := write (write m.bytes m.flag.lastPos.toNat
          (List.replicate (m.flag.maxLen.toNat - m.flag.lastPos.toNat) 0)) 0 x.bytes } := if_neg wraps

theorem FlagOk.append (ok : FlagOk c m) (small : x.bytes.length ≤ c.maxLen) :
    FlagOk c (appendItem m x) := by
  have lt := c.maxLen_lt
  have maxLen := ok.maxLen
  by_cases fits : Fits m x
  · have room : m.flag.lastPos.toNat + x.bytes.length ≤ m.flag.maxLen.toNat := fits
    rw [appendItem_fits fits]
    exact ⟨maxLen, by simp only [BitVec.toNat_ofNat]; omega⟩
  · rw [appendItem_wraps fits]
    exact ⟨maxLen, by simp only [BitVec.toNat_ofNat]; omega⟩

/-- The writer writes no unread item over. -/
def Clear (m : Mem) (x : LogItem) (unread : List (Nat × LogItem)) : Prop :=
  ∀ w ∈ written m x, ∀ e ∈ unread, w.1 + w.2 ≤ e.1 ∨ e.1 + e.2.bytes.length ≤ w.1

theorem Same.append (ok : FlagOk c m) {pending : List LogItem} (same : Same m reader pending)
    (fits : Fits m x) : Same (appendItem m x) reader (pending ++ [x]) := by
  have lt := c.maxLen_lt
  have maxLen := ok.maxLen
  have ends := same.ends
  have room : m.flag.lastPos.toNat + x.bytes.length ≤ m.flag.maxLen.toNat := fits
  rw [appendItem_fits fits]
  refine ⟨same.loops, ?_, ?_⟩
  · rw [bytesOf_append, holds_append]
    refine ⟨same.holds.frame (.inr (by omega)), ?_⟩
    rw [ends, bytesOf_cons, bytesOf_nil, List.append_nil]
    exact holds_write
  · simp only [bytesOf_append, bytesOf_cons, bytesOf_nil, List.append_nil, List.length_append,
      BitVec.toNat_ofNat]
    omega

theorem mem_written_fits (fits : Fits m x) :
    (m.flag.lastPos.toNat, x.bytes.length) ∈ written m x := by
  simp [written, fits]

theorem mem_written_wraps (wraps : ¬ Fits m x) : (0, x.bytes.length) ∈ written m x := by
  simp [written, wraps]

/-- An append stays away from the first item of a list that it may not write over. -/
theorem Clear.first {unread : List (Nat × LogItem)} (clear : Clear m x unread) {w : Nat × Nat}
    (area : w ∈ written m x) {p : Nat} {items : List LogItem} (sub : ∀ e ∈ placed p items, e ∈ unread)
    (ne : items ≠ []) : w.1 + w.2 ≤ p ∨ p < w.1 := by
  cases items with
  | nil => exact absurd rfl ne
  | cons y ys =>
    have := y.head
    rcases clear w area (p, y) (sub _ (by simp [placed])) with h | h
    · exact .inl h
    · dsimp only at h
      exact .inr (by omega)

theorem Same.wrap (ok : FlagOk c m) {pending : List LogItem} (same : Same m reader pending)
    (clear : Clear m x (placed reader.rOff pending)) (wraps : ¬ Fits m x)
    (small : x.bytes.length ≤ c.maxLen) : Behind (appendItem m x) reader pending [x] := by
  have lt := c.maxLen_lt
  have maxLen := ok.maxLen
  have lastPos := ok.lastPos
  have ends := same.ends
  have free : pending ≠ [] → x.bytes.length ≤ reader.rOff := by
    intro ne
    have := clear.first (mem_written_wraps wraps) (fun _ h => h) ne
    dsimp only at this
    omega
  have len : x.bytes.length % 2 ^ 32 = x.bytes.length := Nat.mod_eq_of_lt (by omega)
  rw [appendItem_wraps wraps]
  refine ⟨?_, ?_, ?_, ?_, ?_, ?_, ?_, by simp⟩
  · simp only [same.loops]
  · by_cases ne : pending = []
    · rw [ne]
      exact holds_nil
    · have := free ne
      exact (same.holds.frame (.inr (Nat.le_of_eq ends))).frame (.inl (by omega))
  · simp only
    omega
  · refine Filled.frame ?_ (.inl ?_)
    · have zeros : Filled (write m.bytes m.flag.lastPos.toNat
          (List.replicate (m.flag.maxLen.toNat - m.flag.lastPos.toNat) 0)) 0 m.flag.lastPos.toNat _ :=
        filled_write (m.flag.maxLen.toNat - m.flag.lastPos.toNat)
      exact zeros.shrink (by simp only [ends]; omega) (by simp only; omega)
    · simp only [BitVec.toNat_ofNat, len]
      omega
  · intro ne
    simp only [BitVec.toNat_ofNat, len]
    exact free ne
  · rw [bytesOf_cons, bytesOf_nil, List.append_nil]
    exact holds_write
  · rw [bytesOf_cons, bytesOf_nil, List.append_nil, BitVec.toNat_ofNat, len]

theorem Behind.append (ok : FlagOk c m) {old cur : List LogItem} (behind : Behind m reader old cur)
    (clear : Clear m x (placed reader.rOff old ++ placed 0 cur)) (fits : Fits m x) :
    Behind (appendItem m x) reader old (cur ++ [x]) := by
  have lt := c.maxLen_lt
  have maxLen := ok.maxLen
  have ends := behind.ends
  have room : m.flag.lastPos.toNat + x.bytes.length ≤ m.flag.maxLen.toNat := fits
  have free : old ≠ [] → m.flag.lastPos.toNat + x.bytes.length ≤ reader.rOff := by
    intro ne
    have before := behind.free ne
    have := clear.first (mem_written_fits fits)
      (fun e h => List.mem_append_left _ h : ∀ e ∈ placed reader.rOff old, _) ne
    dsimp only at this
    omega
  have len : (m.flag.lastPos.toNat + x.bytes.length) % 2 ^ 32 =
      m.flag.lastPos.toNat + x.bytes.length := Nat.mod_eq_of_lt (by omega)
  rw [appendItem_fits fits]
  refine ⟨behind.loops, ?_, behind.bound, ?_, ?_, ?_, ?_, by simp⟩
  · by_cases ne : old = []
    · rw [ne]
      exact holds_nil
    · exact behind.first.frame (.inl (free ne))
  · simp only [BitVec.toNat_ofNat, len]
    refine (behind.zeros.shrink (by omega) (Nat.le_refl _)).frame (.inl (by omega))
  · intro ne
    simp only [BitVec.toNat_ofNat, len]
    exact free ne
  · rw [bytesOf_append, holds_append]
    refine ⟨behind.second.frame (.inr (by omega)), ?_⟩
    rw [Nat.zero_add, ends, bytesOf_cons, bytesOf_nil, List.append_nil]
    exact holds_write
  · simp only [BitVec.toNat_ofNat, len, bytesOf_append, bytesOf_cons, bytesOf_nil, List.append_nil,
      List.length_append, ends]

/-- The writer cannot start another loop while its own loop is unread. -/
theorem Behind.fits {old cur : List LogItem} (behind : Behind m reader old cur)
    (clear : Clear m x (placed reader.rOff old ++ placed 0 cur)) : Fits m x := by
  by_contra wraps
  have := x.head
  have := clear.first (mem_written_wraps wraps)
    (fun e h => List.mem_append_right _ h : ∀ e ∈ placed 0 cur, _) behind.nonempty
  dsimp only at this
  omega

theorem Unread.append (ok : FlagOk c m) {unread : List (Nat × LogItem)} (h : Unread m reader unread)
    (clear : Clear m x unread) (small : x.bytes.length ≤ c.maxLen) :
    Unread (appendItem m x) reader (unread ++ [(itemPos m x, x)]) := by
  cases h with
  | @same pending same =>
    by_cases fits : Fits m x
    · have next := Unread.same (same.append ok fits)
      rwa [placed_append, same.ends, ← show itemPos m x = _ from if_pos fits] at next
    · have next := Unread.behind (same.wrap ok clear fits small)
      rwa [← show itemPos m x = 0 from if_neg fits] at next
  | @behind old cur behind =>
    have fits := behind.fits clear
    have next := Unread.behind (behind.append ok clear fits)
    rwa [placed_append, Nat.zero_add, behind.ends, ← show itemPos m x = _ from if_pos fits,
      ← List.append_assoc] at next

end Append

/-! ## Runs -/

section Runs

variable {c : Config} {s s' : LogState}

/-- The items that were read, and the unread ones after them. -/
structure Inv (c : Config) (s : LogState) (seen unread : List (Nat × LogItem)) : Prop where
  flag : FlagOk c s.mem
  log : s.log = seen ++ unread
  delivered : s.delivered = entryBytes seen
  unread : Unread s.mem s.reader unread

theorem unreadFrom_append (seen unread : List (Nat × LogItem)) :
    unreadFrom (seen ++ unread) (entryBytes seen).length = unread := by
  induction seen with
  | nil =>
    cases unread with
    | nil => rfl
    | cons e rest =>
      have := e.2.head
      simp only [List.nil_append, unreadFrom, entryBytes, List.flatMap_nil, List.length_nil]
      rw [if_neg (by omega)]
  | cons e seen ih =>
    simp only [entryBytes, List.cons_append, unreadFrom, List.flatMap_cons, List.length_append] at ih ⊢
    rw [if_pos (by omega), Nat.add_sub_cancel_left]
    exact ih

theorem Inv.unread_eq {seen unread : List (Nat × LogItem)} (inv : Inv c s seen unread) :
    s.unread = unread := by
  rw [LogState.unread, inv.log, inv.delivered, unreadFrom_append]

theorem Inv.appended {seen unread : List (Nat × LogItem)} (inv : Inv c s seen unread) :
    s.appended = s.delivered ++ entryBytes unread := by
  rw [inv.delivered, ← entryBytes_append, ← inv.log]
  rfl

theorem Inv.opened (c : Config) (bytes : Nat → UInt8) : Inv c (opened c bytes) [] [] where
  flag := by
    refine ⟨?_, Nat.zero_le _⟩
    rw [Tlogger.opened, BitVec.toNat_ofNat, Nat.mod_eq_of_lt c.maxLen_lt]
  log := rfl
  delivered := rfl
  unread := .same (⟨rfl, holds_nil, rfl⟩ : Same _ _ [])

theorem Inv.read {seen unread : List (Nat × LogItem)} (inv : Inv c s seen unread) (count : Nat) :
    ∃ taken rest, unread = taken ++ rest ∧ Inv c (readOnce c s count) (seen ++ taken) rest ∧
      (Room count → unread ≠ [] → taken ≠ []) := by
  obtain ⟨taken, rest, advanced⟩ := inv.unread.read inv.flag count
  refine ⟨taken, rest, advanced.split, ⟨inv.flag, ?_, ?_, advanced.left⟩, advanced.progress⟩
  · rw [List.append_assoc, ← advanced.split]
    exact inv.log
  · rw [entryBytes_append, ← inv.delivered, ← advanced.user]
    rfl

theorem Inv.step {seen unread : List (Nat × LogItem)} (inv : Inv c s seen unread) {act : LogAct}
    (allowed : NoOverwrite s act) (moved : logStep c s act = some s') :
    ∃ seen unread, Inv c s' seen unread := by
  cases act with
  | append x =>
    rw [logStep] at moved
    split at moved
    · rename_i small
      rw [Option.some.injEq] at moved
      rw [← moved]
      have clear : Clear s.mem x unread := inv.unread_eq ▸ allowed
      exact ⟨seen, _, inv.flag.append small, by simp [inv.log], inv.delivered,
        inv.unread.append inv.flag clear small⟩
    · simp at moved
  | read count =>
    rw [logStep, Option.some.injEq] at moved
    obtain ⟨taken, rest, -, next, -⟩ := inv.read count
    exact ⟨_, _, moved ▸ next⟩

theorem Inv.reach {bytes : Nat → UInt8}
    (run : ActionSystem.Reach (logStep c) NoOverwrite (Tlogger.opened c bytes) s) :
    ∃ seen unread, Inv c s seen unread := by
  refine run.invariant (P := fun s => ∃ seen unread, Inv c s seen unread)
    ⟨[], [], Inv.opened c bytes⟩ ?_
  rintro s act s' ⟨seen, unread, inv⟩ allowed moved
  exact inv.step allowed moved

/-- Some reads after one another. -/
def readAll (c : Config) (s : LogState) (counts : List Nat) : LogState := counts.foldl (readOnce c) s

theorem Inv.readAll {seen unread : List (Nat × LogItem)} (inv : Inv c s seen unread)
    {counts : List Nat} (enough : unread.length ≤ counts.length)
    (room : ∀ count ∈ counts, Room count) :
    Inv c (readAll c s counts) (seen ++ unread) [] := by
  induction counts generalizing s seen unread with
  | nil =>
    have nothing : unread = [] := List.length_eq_zero_iff.1 (Nat.le_zero.1 enough)
    rw [nothing] at inv ⊢
    rw [List.append_nil]
    exact inv
  | cons count counts ih =>
    obtain ⟨taken, rest, split, next, progress⟩ := inv.read count
    have fewer : rest.length ≤ counts.length := by
      by_cases nothing : unread = []
      · rw [nothing] at split
        rw [(List.append_eq_nil_iff.1 split.symm).2]
        exact Nat.zero_le _
      · have := List.length_pos_iff.2 (progress (room count (by simp)) nothing)
        rw [split, List.length_append, List.length_cons] at enough
        omega
    have last := ih next fewer fun n hn => room n (by simp [hn])
    rw [List.append_assoc, ← split] at last
    exact last

/-- What the reads deliver is always a prefix of what was appended, and all of it after enough
reads. -/
theorem items_delivered_in_order {bytes : Nat → UInt8}
    (run : ActionSystem.Reach (logStep c) NoOverwrite (Tlogger.opened c bytes) s) :
    s.delivered <+: s.appended ∧
    ∃ n, ∀ counts : List Nat, n ≤ counts.length →
      (∀ count ∈ counts, logItemMaxLen ≤ count ∧ count ≤ maxRwCount) →
      (readAll c s counts).delivered = s.appended := by
  obtain ⟨seen, unread, inv⟩ := Inv.reach run
  refine ⟨⟨_, inv.appended.symm⟩, unread.length, ?_⟩
  intro counts enough room
  rw [(inv.readAll enough room).delivered, ← inv.log]
  rfl

end Runs

instance (s : LogState) : (act : LogAct) → Decidable (NoOverwrite s act)
  | .append x => inferInstanceAs (Decidable (∀ w ∈ written s.mem x, ∀ e ∈ s.unread,
      w.1 + w.2 ≤ e.1 ∨ e.1 + e.2.bytes.length ≤ w.1))
  | .read _ => .isTrue trivial

/-- An item with 64 bytes of text. -/
def shortItem : LogItem where
  bytes := List.replicate 32 0 ++ [0x5A, 0x5A] ++ List.replicate 6 0 ++ [64, 0, 64, 0] ++
    List.replicate 84 0
  magic_eq := rfl
  length_eq := by decide +kernel
  length_le := by decide +kernel
  aligned := rfl
  realLen_pos := by decide
  realLen_le := by decide
  padding := by decide

/-- The third item does not fit and goes over the first one, which was read. -/
theorem items_delivered_in_order_wrapped :
    ∃ s, ActionSystem.Reach (logStep ⟨540, 320, by decide, by decide⟩) NoOverwrite
        (opened ⟨540, 320, by decide, by decide⟩ fun _ => 0) s ∧
      s.mem.flag.writeLoops = 1 ∧ s.delivered.length = 256 ∧ s.log.length = 3 ∧
      s.delivered <+: s.appended ∧
      ∃ n, ∀ counts : List Nat, n ≤ counts.length →
        (∀ count ∈ counts, logItemMaxLen ≤ count ∧ count ≤ maxRwCount) →
        (readAll ⟨540, 320, by decide, by decide⟩ s counts).delivered = s.appended := by
  obtain ⟨s, run, passed⟩ := ActionSystem.reach_of_play (logStep ⟨540, 320, by decide, by decide⟩)
    NoOverwrite (fun s => s.mem.flag.writeLoops == 1 && s.delivered.length == 256 && s.log.length == 3)
    (opened ⟨540, 320, by decide, by decide⟩ fun _ => 0)
    [.append shortItem, .append shortItem, .read 1024, .append shortItem] (by decide +kernel)
  simp only [Bool.and_eq_true, beq_iff_eq] at passed
  exact ⟨s, run, passed.1.1, passed.1.2, passed.2, items_delivered_in_order run⟩

end Tlogger
