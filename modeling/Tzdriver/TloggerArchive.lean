import Tzdriver.TloggerRead

/-!
# The archive of the log

`tlogger/tlogger.c`: `tlogger_store_msg` copies the log memory and writes the text of its items to
a file. `msg_get_next` looks for the next item in a window of `LOG_ITEM_MAX_LEN` bytes after the
item before, and takes for an item only what also ends in this window; `get_next_log_item`, with
which a reader looks for items, goes on to the end of the buffer. The copy does not change, so
that every fetch gives the same; `write k` tells whether the `k`-th item is written to the file.
-/

namespace Tlogger

/-- Memory that stays as it is. -/
def snapshot (bytes : Nat → UInt8) : Nat → Mem := fun _ => ⟨⟨0, 0, 0⟩, bytes⟩

def itemLen (bytes : Nat → UInt8) (pos : Nat) : Nat := bufferLen bytes pos + sizeofLogItem

/-- An item and what the file gets of it. -/
structure Written where
  pos : Nat
  text : List UInt8
  deriving DecidableEq, Repr

section Archive

variable (bytes : Nat → UInt8)

def logText (pos : Nat) : List UInt8 :=
  (List.range (realLen bytes pos).toNat).map fun i => bytes (pos + sizeofLogItem + i)

def writtenItem (pos : Nat) : Written := ⟨pos, logText bytes pos⟩

/-- The loop of `msg_get_next`; the item is known by its offset. -/
def msgScan (readPos scopeLen maxLen i : Nat) : Option Nat :=
  if i ≤ scopeLen ∧ (readPos + i) % 2 ^ 32 + sizeofLogItem < maxLen then
    let len := scopeLen - i
    let itemMaxSize := if len > logItemMaxLen then logItemMaxLen else len
    if checkLogItemValidite (snapshot bytes) 0 (readPos + i) itemMaxSize then
      if (readPos + i) % 2 ^ 32 + sizeofLogItem + bufferLen bytes (readPos + i) > maxLen then none
      else some (readPos + i)
    else msgScan readPos scopeLen maxLen (i + logItemLenAlign)
  else none
termination_by scopeLen + 1 - i
decreasing_by
  have : 0 < logItemLenAlign := by decide
  omega

def msgGetNext (readPos scopeLen maxLen : Nat) : Option Nat :=
  msgScan bytes readPos scopeLen maxLen 0

/-- The loop of `write_part_log_to_msg` with the item it goes on with. -/
def writeItems (write : Nat → Bool) (bufferMaxLen readOffEnd : Nat) (nextItem : Option Nat)
    (readOff totalLen k : Nat) : Int × List Written :=
  match nextItem with
  | none => (0, [])
  | some pos =>
    if readOff ≤ readOffEnd then
      if write k = false then (-1, [])
      else
        let totalLen' := totalLen + itemLen bytes pos
        let readOff' := pos + itemLen bytes pos
        if totalLen' ≥ bufferMaxLen then (0, [writtenItem bytes pos])
        else
          let rest := writeItems write bufferMaxLen readOffEnd
            (msgGetNext bytes readOff' logItemMaxLen bufferMaxLen) readOff' totalLen' (k + 1)
          (rest.1, writtenItem bytes pos :: rest.2)
    else (0, [])
termination_by bufferMaxLen - totalLen
decreasing_by
  have : 0 < sizeofLogItem := by decide
  unfold itemLen at *
  omega

def writePartLogToMsg (write : Nat → Bool) (bufferMaxLen readOff readOffEnd : Nat) :
    Int × List Written :=
  writeItems bytes write bufferMaxLen readOffEnd
    (msgGetNext bytes readOff logItemMaxLen bufferMaxLen) readOff 0 0

def writeLogToMsg (write : Nat → Bool) (bufferMaxLen readOff readOffEnd : Nat) :
    Int × List Written :=
  if readOff < readOffEnd then writePartLogToMsg bytes write bufferMaxLen readOff readOffEnd
  else
    let first := writePartLogToMsg bytes write bufferMaxLen readOff bufferMaxLen
    if first.1 ≠ 0 then (-1, first.2)
    else
      let second := writePartLogToMsg bytes (fun k => write (first.2.length + k)) bufferMaxLen 0
        readOffEnd
      (second.1, first.2 ++ second.2)

end Archive

section First

/-- The first of the cells from `start` on that `hit` accepts. -/
structure First (hit : Nat → Prop) (start pos : Nat) : Prop where
  cell : ∃ k, pos = start + logItemLenAlign * k
  found : hit pos
  least : ∀ k, start + logItemLenAlign * k < pos → ¬ hit (start + logItemLenAlign * k)

variable {hit : Nat → Prop} {start pos pos' : Nat}

theorem First.here (found : hit start) : First hit start start :=
  ⟨⟨0, rfl⟩, found, fun k before => absurd before (by omega)⟩

theorem First.later (missed : ¬ hit start) (first : First hit (start + logItemLenAlign) pos) :
    First hit start pos := by
  obtain ⟨⟨k, rfl⟩, found, least⟩ := first
  refine ⟨⟨k + 1, by rw [Nat.mul_succ]; omega⟩, found, ?_⟩
  intro j before
  cases j with
  | zero => simpa using missed
  | succ j =>
    have shift : start + logItemLenAlign * (j + 1) =
        start + logItemLenAlign + logItemLenAlign * j := by
      rw [Nat.mul_succ]
      omega
    rw [shift] at before ⊢
    exact least j before

theorem First.next (missed : ¬ hit start) (first : First hit start pos) :
    First hit (start + logItemLenAlign) pos := by
  obtain ⟨⟨k, rfl⟩, found, least⟩ := first
  cases k with
  | zero => exact absurd (by simpa using found) missed
  | succ k =>
    refine ⟨⟨k, by rw [Nat.mul_succ]; omega⟩, found, ?_⟩
    intro j before
    have shift : start + logItemLenAlign + logItemLenAlign * j =
        start + logItemLenAlign * (j + 1) := by
      rw [Nat.mul_succ]
      omega
    rw [shift] at before ⊢
    exact least (j + 1) before

theorem none_later (missed : ¬ hit start)
    (later : ∀ k, ¬ hit (start + logItemLenAlign + logItemLenAlign * k)) (k : Nat) :
    ¬ hit (start + logItemLenAlign * k) := by
  cases k with
  | zero => simpa using missed
  | succ k =>
    have shift : start + logItemLenAlign * (k + 1) =
        start + logItemLenAlign + logItemLenAlign * k := by
      rw [Nat.mul_succ]
      omega
    rw [shift]
    exact later k

theorem First.ge (first : First hit start pos) : start ≤ pos := by
  obtain ⟨⟨k, rfl⟩, _, _⟩ := first
  omega

theorem First.le (first : First hit start pos) (cell : ∃ k, pos' = start + logItemLenAlign * k)
    (found : hit pos') : pos ≤ pos' := by
  obtain ⟨k, rfl⟩ := cell
  by_cases before : start + logItemLenAlign * k < pos
  · exact absurd found (first.least k before)
  · omega

theorem First.unique (first : First hit start pos) (first' : First hit start pos') :
    pos = pos' := by
  have := first.le first'.cell first'.found
  have := first'.le first.cell first.found
  omega

end First

section Scans

variable {bytes : Nat → UInt8} {maxLen start pos pos' : Nat}

/-- What `check_log_item_validite` accepts somewhere: the header of an item of at most
`LOG_ITEM_MAX_LEN` bytes. -/
def Header (bytes : Nat → UInt8) (pos : Nat) : Prop :=
  checkLogItemValidite (snapshot bytes) 0 pos logItemMaxLen = true

instance (bytes : Nat → UInt8) (pos : Nat) : Decidable (Header bytes pos) :=
  inferInstanceAs (Decidable (_ = true))

/-- An item that ends at `stop` or before. -/
def EndsBy (bytes : Nat → UInt8) (stop pos : Nat) : Prop :=
  Header bytes pos ∧ pos + itemLen bytes pos ≤ stop

theorem check_iff {t size : Nat} (small : size ≤ logItemMaxLen) :
    checkLogItemValidite (snapshot bytes) t pos size = true ↔
      Header bytes pos ∧ itemLen bytes pos ≤ size := by
  simp only [Header, checkLogItemValidite, Bool.and_eq_true, decide_eq_true_eq]
  simp only [snapshot, itemLen]
  constructor
  · rintro ⟨fields, short⟩
    exact ⟨⟨fields, by omega⟩, short⟩
  · rintro ⟨⟨fields, _⟩, short⟩
    exact ⟨fields, short⟩

theorem Header.itemLen (header : Header bytes pos) :
    sizeofLogItem + logItemLenAlign ≤ itemLen bytes pos ∧
      Tlogger.itemLen bytes pos ≤ logItemMaxLen := by
  simp only [Header, checkLogItemValidite, Bool.and_eq_true, decide_eq_true_eq,
    beq_iff_eq] at header
  obtain ⟨⟨⟨⟨⟨⟨_, positive⟩, _⟩, aligned⟩, _⟩, _⟩, short⟩ := header
  simp only [snapshot] at positive aligned short
  simp only [Tlogger.itemLen, logItemLenAlign] at *
  omega

theorem EndsBy.room (fits : EndsBy bytes maxLen pos) :
    pos + sizeofLogItem + logItemLenAlign ≤ maxLen := by
  have := fits.1.itemLen.1
  have := fits.2
  omega

/-- A reader finds the first item that fits into the buffer. -/
theorem scanItems_static {i scopeLen : Nat} {io io' : Io} {found : Bool}
    (scan : scanItems (snapshot bytes) start scopeLen i pos io = (found, pos', io')) :
    if found then First (EndsBy bytes (start + scopeLen)) (start + i) pos'
    else ∀ k, ¬ EndsBy bytes (start + scopeLen) (start + i + logItemLenAlign * k) := by
  have accepts : ∀ t i, i + sizeofLogItem + logItemLenAlign ≤ scopeLen →
      (checkLogItemValidite (snapshot bytes) t (start + i)
        (if scopeLen - i > logItemMaxLen then logItemMaxLen else scopeLen - i) = true ↔
      EndsBy bytes (start + scopeLen) (start + i)) := by
    intro t i room
    rw [check_iff (by split <;> omega), EndsBy]
    refine and_congr_right ?_
    intro header
    have := header.itemLen.2
    split <;> omega
  fun_induction scanItems (snapshot bytes) start scopeLen i pos io with
  | case1 i pos io room maxSize valid =>
    cases scan
    exact First.here ((accepts io.clock i room).mp valid)
  | case2 i pos io room maxSize invalid ih =>
    have missed : ¬ EndsBy bytes (start + scopeLen) (start + i) := by
      rw [← accepts io.clock i room]
      exact invalid
    have later := ih scan
    cases found with
    | true => exact First.later missed later
    | false => exact none_later missed later
  | case3 i pos io full =>
    cases scan
    intro k fits
    have := fits.room
    omega

theorem getNextLogItem_found {io io' : Io} (ahead : start < maxLen)
    (next : getNextLogItem (snapshot bytes) maxLen start (maxLen - start) pos io =
      (true, pos', io')) : First (EndsBy bytes maxLen) start pos' := by
  unfold getNextLogItem at next
  split at next
  · cases next
  · have first := scanItems_static next
    rw [if_pos rfl, Nat.add_sub_cancel' (Nat.le_of_lt ahead)] at first
    exact first

theorem getNextLogItem_none {io io' : Io} (small : maxLen < 2 ^ 32) (ahead : start < maxLen)
    (next : getNextLogItem (snapshot bytes) maxLen start (maxLen - start) pos io =
      (false, pos', io')) (k : Nat) : ¬ EndsBy bytes maxLen (start + logItemLenAlign * k) := by
  have sum : start + (maxLen - start) = maxLen := Nat.add_sub_cancel' (Nat.le_of_lt ahead)
  unfold getNextLogItem at next
  rw [sum, Nat.mod_eq_of_lt small, if_neg (Nat.lt_irrefl _)] at next
  have none_ := scanItems_static next
  rw [if_neg (by decide), sum] at none_
  exact none_ k

/-- What `msg_get_next` goes by: an item that ends in the window after `start` and has its header
in the buffer. -/
structure Candidate (bytes : Nat → UInt8) (maxLen start pos : Nat) : Prop where
  near : EndsBy bytes (start + logItemMaxLen) pos
  header : pos + sizeofLogItem < maxLen

theorem candidate_iff {i : Nat} (small : start + logItemMaxLen < 2 ^ 32)
    (inside : i ≤ logItemMaxLen ∧ (start + i) % 2 ^ 32 + sizeofLogItem < maxLen) :
    checkLogItemValidite (snapshot bytes) 0 (start + i)
        (if logItemMaxLen - i > logItemMaxLen then logItemMaxLen else logItemMaxLen - i) = true ↔
      Candidate bytes maxLen start (start + i) := by
  obtain ⟨window, header⟩ := inside
  rw [Nat.mod_eq_of_lt (by omega)] at header
  rw [if_neg (by omega), check_iff (Nat.sub_le _ _)]
  constructor
  · rintro ⟨valid, short⟩
    exact ⟨⟨valid, by omega⟩, header⟩
  · rintro ⟨⟨valid, short⟩, _⟩
    exact ⟨valid, by omega⟩

/-- Past its last round, the loop of `msg_get_next` has no candidate left. -/
theorem not_candidate {i : Nat} (small : start + logItemMaxLen < 2 ^ 32)
    (outside : ¬ (i ≤ logItemMaxLen ∧ (start + i) % 2 ^ 32 + sizeofLogItem < maxLen))
    (later : start + i ≤ pos) : ¬ Candidate bytes maxLen start pos := by
  rintro ⟨near, header⟩
  have := near.room
  refine outside ⟨by omega, ?_⟩
  rw [Nat.mod_eq_of_lt (by omega)]
  omega

theorem msgScan_some {i : Nat} (small : start + logItemMaxLen < 2 ^ 32)
    (scan : msgScan bytes start logItemMaxLen maxLen i = some pos) :
    First (Candidate bytes maxLen start) (start + i) pos ∧
      pos + itemLen bytes pos ≤ maxLen := by
  fun_induction msgScan bytes start logItemMaxLen maxLen i with
  | case1 => cases scan
  | case2 i inside len itemMaxSize valid kept =>
    cases scan
    refine ⟨First.here ((candidate_iff small inside).mp valid), ?_⟩
    rw [Nat.mod_eq_of_lt (by omega)] at kept
    unfold itemLen
    omega
  | case3 i inside len itemMaxSize invalid ih =>
    have missed : ¬ Candidate bytes maxLen start (start + i) := by
      rw [← candidate_iff small inside]
      exact invalid
    obtain ⟨first, fits⟩ := ih scan
    exact ⟨First.later missed first, fits⟩
  | case4 => cases scan

/-- `msg_get_next` gives up where the first candidate ends behind the buffer. -/
theorem msgScan_none {i : Nat} (small : start + logItemMaxLen < 2 ^ 32)
    (scan : msgScan bytes start logItemMaxLen maxLen i = none)
    (first : First (Candidate bytes maxLen start) (start + i) pos) :
    maxLen < pos + itemLen bytes pos := by
  fun_induction msgScan bytes start logItemMaxLen maxLen i with
  | case1 i inside len itemMaxSize valid long =>
    obtain rfl := first.unique (First.here ((candidate_iff small inside).mp valid))
    rw [Nat.mod_eq_of_lt (by omega)] at long
    unfold itemLen
    omega
  | case2 => cases scan
  | case3 i inside len itemMaxSize invalid ih =>
    have missed : ¬ Candidate bytes maxLen start (start + i) := by
      rw [← candidate_iff small inside]
      exact invalid
    exact ih scan (First.next missed first)
  | case4 i outside => exact absurd first.found (not_candidate small outside first.ge)

end Scans

section Compare

variable (bytes : Nat → UInt8)

/-- What a reader finds from `start` on, going past each item. -/
def shownItems (maxLen start : Nat) : List Nat :=
  if _ : start < maxLen then
    match _ : getNextLogItem (snapshot bytes) maxLen start (maxLen - start) start {} with
    | (false, _, _) => []
    | (true, pos, _) => pos :: shownItems maxLen (pos + itemLen bytes pos)
  else []
termination_by maxLen - start
decreasing_by
  have first := getNextLogItem_found ‹start < maxLen› ‹_›
  have := first.ge
  have := first.found.room
  have := first.found.1.itemLen
  have : 0 < sizeofLogItem := by decide
  omega

/-- The header of an item that would end in the window after `start` but behind the buffer. -/
structure Overhang (maxLen start pos : Nat) : Prop where
  candidate : Candidate bytes maxLen start pos
  long : maxLen < pos + itemLen bytes pos

/-- Each item ends in the window after the item before, and nothing between the two looks like an
item that the end of the buffer cuts off. -/
def Dense (maxLen : Nat) : Nat → List Nat → Prop
  | _, [] => True
  | start, pos :: rest =>
    pos + itemLen bytes pos ≤ start + logItemMaxLen ∧
      (∀ k, start + logItemLenAlign * k < pos →
        ¬ Overhang bytes maxLen start (start + logItemLenAlign * k)) ∧
      Dense maxLen (pos + itemLen bytes pos) rest

variable {bytes} {maxLen start pos : Nat}

/-- The archive goes on with the item that a reader is shown next exactly when it is near and
nothing before it is taken for a longer one. -/
theorem msgGetNext_eq_some_iff (small : start + logItemMaxLen < 2 ^ 32)
    (shown : First (EndsBy bytes maxLen) start pos) :
    msgGetNext bytes start logItemMaxLen maxLen = some pos ↔
      pos + itemLen bytes pos ≤ start + logItemMaxLen ∧
        ∀ k, start + logItemLenAlign * k < pos →
          ¬ Overhang bytes maxLen start (start + logItemLenAlign * k) := by
  have room := shown.found.room
  constructor
  · intro next
    obtain ⟨first, _⟩ := msgScan_some small next
    refine ⟨first.found.near.2, ?_⟩
    intro k before hang
    exact first.least k before hang.candidate
  · rintro ⟨near, clear⟩
    have header : pos + sizeofLogItem < maxLen := by
      have : 0 < logItemLenAlign := by decide
      omega
    have first : First (Candidate bytes maxLen start) start pos := by
      refine ⟨shown.cell, ⟨⟨shown.found.1, near⟩, header⟩, ?_⟩
      intro k before candidate
      by_cases long : maxLen < start + logItemLenAlign * k +
          itemLen bytes (start + logItemLenAlign * k)
      · exact clear k before ⟨candidate, long⟩
      · exact shown.least k before ⟨candidate.near.1, by omega⟩
    cases next : msgGetNext bytes start logItemMaxLen maxLen with
    | none =>
      have := msgScan_none small next first
      have := shown.found.2
      omega
    | some pos' =>
      obtain ⟨first', _⟩ := msgScan_some small next
      rw [first.unique first']

/-- The archive has no item that a reader is not shown. -/
theorem msgGetNext_none (small : start + logItemMaxLen < 2 ^ 32)
    (none_ : ∀ k, ¬ EndsBy bytes maxLen (start + logItemLenAlign * k)) :
    msgGetNext bytes start logItemMaxLen maxLen = none := by
  cases next : msgGetNext bytes start logItemMaxLen maxLen with
  | none => rfl
  | some pos =>
    obtain ⟨⟨⟨k, rfl⟩, candidate, _⟩, fits⟩ := msgScan_some small next
    exact absurd ⟨candidate.near.1, fits⟩ (none_ _)

/-- A run of `write_part_log_to_msg` to the end of the buffer, all of whose writes succeed. -/
abbrev archived (bytes : Nat → UInt8) (maxLen start totalLen k : Nat) : List Written :=
  (writeItems bytes (fun _ => true) maxLen maxLen
    (msgGetNext bytes start logItemMaxLen maxLen) start totalLen k).2

theorem archived_none {totalLen k : Nat}
    (next : msgGetNext bytes start logItemMaxLen maxLen = none) :
    archived bytes maxLen start totalLen k = [] := by
  rw [archived, next, writeItems]

theorem archived_some {totalLen k : Nat} (inside : start ≤ maxLen)
    (next : msgGetNext bytes start logItemMaxLen maxLen = some pos) :
    archived bytes maxLen start totalLen k = writtenItem bytes pos ::
      if totalLen + itemLen bytes pos ≥ maxLen then []
      else archived bytes maxLen (pos + itemLen bytes pos) (totalLen + itemLen bytes pos)
        (k + 1) := by
  rw [archived, next, writeItems]
  simp only [inside, if_true, Bool.true_eq_false, if_false]
  split <;> rfl

/-- The induction is on what the reader is shown; `total_len` never gets ahead of the offset, so
that it ends the loop only at the end of the buffer. -/
theorem archived_eq_iff (bytes : Nat → UInt8) (small : maxLen ≤ logBufferMaxLen)
    (inside : start ≤ maxLen) {totalLen : Nat} (total : totalLen ≤ start) (k : Nat) :
    archived bytes maxLen start totalLen k =
        (shownItems bytes maxLen start).map (writtenItem bytes) ↔
      Dense bytes maxLen start (shownItems bytes maxLen start) := by
  have noWrap : ∀ start ≤ maxLen, start + logItemMaxLen < 2 ^ 32 := by
    intro start inside
    simp only [logBufferMaxLen, logItemMaxLen] at *
    omega
  fun_induction shownItems bytes maxLen start generalizing totalLen k with
  | case1 start ahead pos io next =>
    have none_ := getNextLogItem_none (by simp only [logBufferMaxLen] at small; omega) ahead next
    rw [archived_none (msgGetNext_none (noWrap start inside) none_)]
    exact iff_of_true rfl trivial
  | case2 start ahead pos io next ih =>
    have shown := getNextLogItem_found ahead next
    have goesOn := msgGetNext_eq_some_iff (noWrap start inside) shown
    have fits := shown.found.2
    have := shown.ge
    rw [Dense, ← and_assoc, ← goesOn, List.map_cons]
    cases archive : msgGetNext bytes start logItemMaxLen maxLen with
    | none =>
      rw [archived_none archive]
      exact iff_of_false nofun (fun both => nomatch both.1)
    | some pos' =>
      rw [archived_some inside archive]
      by_cases same : pos' = pos
      · subst same
        simp only [List.cons.injEq, true_and]
        split
        · have done : shownItems bytes maxLen (pos' + itemLen bytes pos') = [] := by
            rw [shownItems, dif_neg (by omega)]
          rw [done]
          exact iff_of_true rfl trivial
        · exact ih fits (by omega) (k + 1)
      · refine iff_of_false ?_ ?_
        · intro lists
          exact same (congrArg Written.pos (List.cons.inj lists).1)
        · rintro ⟨goes, _⟩
          exact same (Option.some.inj goes)
  | case3 start done =>
    have none_ : ∀ k, ¬ EndsBy bytes maxLen (start + logItemLenAlign * k) := by
      intro k fits
      have := fits.room
      have : 0 < logItemLenAlign := by decide
      omega
    rw [archived_none (msgGetNext_none (noWrap start inside) none_)]
    exact iff_of_true rfl trivial

/-- The archive has what a reader is shown, in the same order, exactly when the items lie dense
in the buffer. -/
theorem writeLogToMsg_eq_shown_iff (bytes : Nat → UInt8) {maxLen : Nat}
    (small : maxLen ≤ logBufferMaxLen) :
    (writeLogToMsg bytes (fun _ => true) maxLen 0 maxLen).2 =
        (shownItems bytes maxLen 0).map (writtenItem bytes) ↔
      Dense bytes maxLen 0 (shownItems bytes maxLen 0) := by
  have part := archived_eq_iff bytes small (Nat.zero_le maxLen) (Nat.le_refl 0) 0
  unfold writeLogToMsg
  split
  · exact part
  · rename_i empty
    obtain rfl : maxLen = 0 := by omega
    have shown : shownItems bytes 0 0 = [] := by rw [shownItems, dif_neg (by omega)]
    have next : msgGetNext bytes 0 logItemMaxLen 0 = none := by
      rw [msgGetNext, msgScan, if_neg (by omega)]
    have nothing : ∀ write, writePartLogToMsg bytes write 0 0 0 = (0, []) := by
      intro write
      rw [writePartLogToMsg, next, writeItems]
    simp only [nothing, shown]
    exact iff_of_true rfl trivial

/-- Memory with items of 128 bytes at the given offsets. -/
def itemsAt (offsets : List Nat) : Nat → UInt8 := fun i =>
  if offsets.any fun pos => i = pos + 32 ∨ i = pos + 33 then 0x5A
  else if offsets.any fun pos => i = pos + 40 ∨ i = pos + 42 then 64
  else 0

/-- A gap of 512 bytes, as the end of a loop of the writer leaves one, is no harm. -/
theorem writeLogToMsg_eq_shown_gap :
    (writeLogToMsg (itemsAt [0, 640]) (fun _ => true) 768 0 768).2 =
      (shownItems (itemsAt [0, 640]) 768 0).map (writtenItem (itemsAt [0, 640])) := by
  refine (writeLogToMsg_eq_shown_iff (itemsAt [0, 640]) (by decide)).mpr ?_
  have shown : shownItems (itemsAt [0, 640]) 768 0 = [0, 640] := by decide +kernel
  have garbage : ∀ k < 8, ¬ Header (itemsAt [0, 640]) (128 + logItemLenAlign * k) := by
    decide +kernel
  rw [shown]
  refine ⟨by decide +kernel, fun k before => absurd before (by omega), by decide +kernel, ?_,
    trivial⟩
  intro k before hang
  have last : 0 + itemLen (itemsAt [0, 640]) 0 = 128 := by decide +kernel
  rw [last] at before hang
  refine garbage k ?_ hang.candidate.near.1
  simp only [logItemLenAlign] at before
  omega

/-- After a gap of 1024 bytes the archive misses the item that a reader is shown. -/
theorem archive_misses_far :
    ¬ ∀ (bytes : Nat → UInt8) (maxLen : Nat), maxLen ≤ logBufferMaxLen →
      (writeLogToMsg bytes (fun _ => true) maxLen 0 maxLen).2 =
        (shownItems bytes maxLen 0).map (writtenItem bytes) := by
  intro all
  have same := all (itemsAt [1024]) 1152 (by decide)
  have lengths := congrArg List.length same
  rw [List.length_map] at lengths
  revert lengths
  decide +kernel

end Compare

end Tlogger
