import Tzdriver.ActionSystem
import Tzdriver.MailboxPartition

/-!
# The debug interface of the mailbox

Writes to the debugfs file `opt` allocate mailbox blocks, list them under a number and free them
again. The number comes from `g_mb_dbg_entry_count`, and 0 stands for "no entry": the counter is
meant to skip it, but the test looks at the value just handed out, and `reset` sets the counter
to 0. An entry with number 0 is taken for a failure, so that its block is freed while the entry
stays on the list, and a later `free` or `reset` frees the block for whoever has it then.

The other users of the pool are one list of blocks. `kstrtou32` is the kernel's: an optional `+`,
decimal digits and an optional newline at the end.
-/

namespace MailboxPool

open ActionSystem

def mbWriteSize : Nat := 64
def dbgEINVAL : Int := 22
def dbgEFAULT : Int := 14

structure DbgEntry where
  idx : UInt32
  ptr : Nat
  deriving DecidableEq

/-- The pool, the variables of the debug interface, and the blocks of the other users. -/
structure DbgState where
  pool : MbState
  dbgList : List DbgEntry
  entryCount : UInt32
  lastRes : UInt32
  others : List Block

def initDbg (z : MbZone) : DbgState where
  pool := ⟨z, []⟩
  dbgList := []
  entryCount := 1
  lastRes := 0
  others := []

section Interface

variable (memsetS : Nat → Nat → Nat)

/-- `mailbox_free`, called by the debug interface. -/
def DbgState.free (s : DbgState) (ptr : Nat) : DbgState :=
  { s with pool := mbStep memsetS s.pool (.free ptr) }

/-- `mb_dbg_add_entry`. -/
def mbDbgAddEntry (kmallocOk : Bool) (ptr : Nat) (s : DbgState) : UInt32 × DbgState :=
  if kmallocOk = false then (0, s)
  else
    let next := s.entryCount + 1
    (s.entryCount,
      { s with
        entryCount := if s.entryCount = 0 then next + 1 else next
        dbgList := s.dbgList ++ [⟨s.entryCount, ptr⟩] })

/-- `mb_dbg_remove_entry`. -/
def mbDbgRemoveEntry (idx : UInt32) (s : DbgState) : DbgState :=
  match s.dbgList.find? (fun e => e.idx == idx) with
  | none => s
  | some e => { s.free memsetS e.ptr with dbgList := s.dbgList.erase e }

/-- `mb_dbg_reset`. -/
def mbDbgReset (s : DbgState) : DbgState :=
  { (s.dbgList.map DbgEntry.ptr).foldl (DbgState.free memsetS) s with
    dbgList := []
    entryCount := 0 }

/-- `alloc_dbg_entry`. -/
def allocDbgEntry (kmallocOk : Bool) (allocSize : UInt32) (s : DbgState) : DbgState :=
  let after := { s with pool := mbStep memsetS s.pool (.alloc allocSize.toUInt64 0) }
  match (mailboxAlloc memsetS s.pool.zone allocSize.toNat 0).1 with
  | none => after
  | some ptr =>
    match mbDbgAddEntry kmallocOk ptr after with
    | (idx, added) => { (if idx = 0 then added.free memsetS ptr else added) with lastRes := idx }

inductive DbgCommand where
  | reset
  | alloc (size : UInt32)
  | free (idx : UInt32)
  deriving DecidableEq

def ascii (text : List Char) : List UInt8 := text.map fun c => c.toNat.toUInt8

/-- `kstrtou32` with base 10. -/
def kstrtou32 (text : List UInt8) : Option UInt32 :=
  let text := if text.head? = some 43 then text.tail else text
  let digits := text.takeWhile fun b => decide (48 ≤ b ∧ b ≤ 57)
  let value : Nat := digits.foldl (fun v d => 10 * v + (d.toNat - 48)) 0
  if digits = [] then none
  else if value ≥ 2 ^ 32 then none
  else if text.drop digits.length = [] ∨ text.drop digits.length = [10] then some value.toUInt32
  else none

/-- What a text asks for; `none`: it has no `:` and is not `reset`. The inner `none` stands for a
command that is only reported. -/
def parseDbg (buf : List UInt8) : Option (Option DbgCommand) :=
  if (ascii ['r', 'e', 's', 'e', 't']).isPrefixOf buf then some (some .reset)
  else
    let cmd := buf.takeWhile fun b => b ≠ 58
    if cmd.length = buf.length then none
    else
      let value := buf.drop (cmd.length + 1)
      if (ascii ['a', 'l', 'l', 'o', 'c']).isPrefixOf cmd then
        some ((kstrtou32 value).map .alloc)
      else if (ascii ['f', 'r', 'e', 'e']).isPrefixOf cmd then
        some ((kstrtou32 value).map .free)
      else some none

/-- `mb_dbg_opt_write` of the `cnt` bytes `ubuf`; the text ends at a `NUL`. -/
def mbDbgOptWrite (copyOk kmallocOk : Bool) (ubuf : List UInt8) (s : DbgState) : Int × DbgState :=
  if ubuf.length ≥ mbWriteSize ∨ ubuf = [] then (-dbgEINVAL, s)
  else if copyOk = false then (-dbgEFAULT, s)
  else
    match parseDbg (ubuf.takeWhile fun b => b ≠ 0) with
    | none => (-dbgEFAULT, s)
    | some none => (ubuf.length, s)
    | some (some .reset) => (ubuf.length, mbDbgReset memsetS s)
    | some (some (.alloc size)) => (ubuf.length, allocDbgEntry memsetS kmallocOk size s)
    | some (some (.free idx)) => (ubuf.length, mbDbgRemoveEntry memsetS idx s)

/-- A debug write, or another user who allocates a block or frees one of its own. -/
inductive DbgAct where
  | write (copyOk kmallocOk : Bool) (ubuf : List UInt8)
  | userAlloc (size : UInt64) (flag : UInt32)
  | userFree (b : Block)

def dbgStep (s : DbgState) : DbgAct → DbgState
  | .write copyOk kmallocOk ubuf => (mbDbgOptWrite memsetS copyOk kmallocOk ubuf s).2
  | .userAlloc size flag =>
    let after := mbStep memsetS s.pool (.alloc size flag)
    match (mailboxAlloc memsetS s.pool.zone size.toNat flag.toNat).1 with
    | none => { s with pool := after }
    | some addr =>
      { s with
        pool := after
        others := ⟨virtToPage addr - s.pool.zone.allPages, getOrder (align4K size.toNat)⟩ ::
          s.others }
  | .userFree b =>
    if b ∈ s.others then
      { s with
        pool := mbStep memsetS s.pool (.free (blockAddr s.pool b))
        others := s.others.filter (· ≠ b) }
    else s

end Interface

/-- The list has distinct numbers other than 0 for distinct live blocks of the debug interface, and
no block of another user has been freed under it. -/
structure DbgOwned (s : DbgState) : Prop where
  nonzero : ∀ e ∈ s.dbgList, e.idx ≠ 0
  distinct : (s.dbgList.map DbgEntry.idx).Nodup
  pointers : (s.dbgList.map DbgEntry.ptr).Nodup
  live : ∀ e ∈ s.dbgList, ∃ b ∈ s.pool.live, b ∉ s.others ∧ e.ptr = blockAddr s.pool b
  kept : ∀ b ∈ s.others, b ∈ s.pool.live

section Pool

variable {memsetS : Nat → Nat → Nat} {s : MbState}

theorem mbStep_allPages (memsetS : Nat → Nat → Nat) (sound : Sound False s) (call : MbCall) :
    (mbStep memsetS s call).zone.allPages = s.zone.allPages := by
  cases call with
  | free ptr => exact mailboxFree_allPages s.zone ptr
  | alloc size flag =>
    rcases mailboxAlloc_cases memsetS s.zone size.toNat flag.toNat with
      hnone | ⟨pos, z, -, -, found, hsome | ⟨-, hnone⟩⟩
    · simp only [mbStep, hnone]
    · simp only [mbStep, hsome]
      exact (sound.take found).2.2
    · simp only [mbStep, hnone, mailboxFree_allPages]
      exact (sound.take found).2.2

theorem blockAddr_page {b c : Block} (same : blockAddr s b = blockAddr s c) : b.page = c.page := by
  have pages := congrArg virtToPage same
  simp only [blockAddr, virtToPage_pageAddress] at pages
  omega

/-- Freeing a live block takes it, and nothing else, off the live ones. -/
theorem Sound.mem_free (memsetS : Nat → Nat → Nat) (sound : Sound False s) {b : Block}
    (hb : b ∈ s.live) (c : Block) :
    c ∈ (mbStep memsetS s (.free (blockAddr s b))).live ↔ c ∈ s.live ∧ c ≠ b := by
  simp only [mbStep, List.mem_filter, decide_eq_true_iff, blockAddr, virtToPage_pageAddress]
  refine and_congr_right fun hc => ?_
  constructor
  · rintro apart rfl
    exact apart rfl
  · intro other same
    exact other (sound.eq_of_page hc hb (Nat.add_left_cancel same))

/-- A block that is given was not live, and its number is its address. -/
theorem Sound.given (sound : Sound False s) (size : UInt64) (flag : UInt32) {addr : Nat}
    (given : (mailboxAlloc memsetS s.zone size.toNat flag.toNat).1 = some addr) :
    ∃ b : Block, (mbStep memsetS s (.alloc size flag)).live = b :: s.live ∧ b ∉ s.live ∧
      addr = blockAddr s b ∧
      b = ⟨virtToPage addr - s.zone.allPages, getOrder (align4K size.toNat)⟩ := by
  obtain ⟨z, whole⟩ : ∃ z, mailboxAlloc memsetS s.zone size.toNat flag.toNat = (some addr, z) :=
    ⟨_, Prod.ext given rfl⟩
  obtain ⟨b, live, addr_eq, -, apart⟩ := sound.alloc_fresh whole
  refine ⟨b, live, ?_, addr_eq, ?_⟩
  · intro hb
    have pos := Nat.two_pow_pos b.order
    rcases apart b hb with h | h
    · omega
    · omega
  · have pages := mbStep_allPages memsetS sound (.alloc size flag)
    have heads := congrArg List.head? live
    simp only [mbStep, whole] at pages heads
    simp only [List.head?_cons, Option.some.injEq] at heads
    rw [← heads, pages]

theorem not_given (size : UInt64) (flag : UInt32)
    (refused : (mailboxAlloc memsetS s.zone size.toNat flag.toNat).1 = none) :
    (mbStep memsetS s (.alloc size flag)).live = s.live := by
  obtain ⟨z, whole⟩ : ∃ z, mailboxAlloc memsetS s.zone size.toNat flag.toNat = (none, z) :=
    ⟨_, Prod.ext refused rfl⟩
  simp only [mbStep, whole]

end Pool

section Steps

variable (memsetS : Nat → Nat → Nat) {s : DbgState}

/-- The debug interface frees a block of its own. -/
theorem free_own (sound : Sound False s.pool) (kept : ∀ b ∈ s.others, b ∈ s.pool.live) {b : Block}
    (hb : b ∈ s.pool.live) (own : b ∉ s.others) :
    Sound False (s.free memsetS (blockAddr s.pool b)).pool ∧
      (∀ c ∈ s.others, c ∈ (s.free memsetS (blockAddr s.pool b)).pool.live) ∧
      ∀ c ∈ s.pool.live, c ≠ b → c ∈ (s.free memsetS (blockAddr s.pool b)).pool.live ∧
        blockAddr (s.free memsetS (blockAddr s.pool b)).pool c = blockAddr s.pool c := by
  refine ⟨sound.free_live hb (virtToPage_pageAddress _) False.elim memsetS, ?_, ?_⟩
  · intro c hc
    refine (sound.mem_free memsetS hb c).mpr ⟨kept c hc, ?_⟩
    rintro rfl
    exact own hc
  · intro c hc other
    refine ⟨(sound.mem_free memsetS hb c).mpr ⟨hc, other⟩, ?_⟩
    have pages := mbStep_allPages memsetS sound (.free (blockAddr s.pool b))
    simp only [blockAddr, DbgState.free] at pages ⊢
    rw [pages]

/-- `reset` frees what is on the list, one pointer after the other. -/
theorem free_all (sound : Sound False s.pool) (kept : ∀ b ∈ s.others, b ∈ s.pool.live)
    (ptrs : List Nat) (distinct : ptrs.Nodup)
    (own : ∀ ptr ∈ ptrs, ∃ b ∈ s.pool.live, b ∉ s.others ∧ ptr = blockAddr s.pool b) :
    Sound False (ptrs.foldl (DbgState.free memsetS) s).pool ∧
      (ptrs.foldl (DbgState.free memsetS) s).others = s.others ∧
      ∀ b ∈ s.others, b ∈ (ptrs.foldl (DbgState.free memsetS) s).pool.live := by
  induction ptrs generalizing s with
  | nil => exact ⟨sound, rfl, kept⟩
  | cons ptr ptrs ih =>
    obtain ⟨b, hb, mine, rfl⟩ := own ptr List.mem_cons_self
    obtain ⟨sound', kept', rest⟩ := free_own memsetS sound kept hb mine
    have notIn := (List.nodup_cons.mp distinct).1
    obtain ⟨h1, h2, h3⟩ := ih sound' kept' (List.nodup_cons.mp distinct).2 fun ptr hptr => by
      obtain ⟨c, hc, other, rfl⟩ := own ptr (List.mem_cons_of_mem _ hptr)
      have apart : c ≠ b := by
        rintro rfl
        exact notIn hptr
      obtain ⟨live, addr⟩ := rest c hc apart
      exact ⟨c, live, other, addr.symm⟩
    exact ⟨h1, h2, h3⟩

theorem mbDbgReset_owned (sound : Sound False s.pool) (owned : DbgOwned s) :
    Sound False (mbDbgReset memsetS s).pool ∧ DbgOwned (mbDbgReset memsetS s) := by
  have own : ∀ ptr ∈ s.dbgList.map DbgEntry.ptr,
      ∃ b ∈ s.pool.live, b ∉ s.others ∧ ptr = blockAddr s.pool b := by
    intro ptr hptr
    obtain ⟨e, he, rfl⟩ := List.mem_map.mp hptr
    exact owned.live e he
  obtain ⟨h1, h2, h3⟩ := free_all memsetS sound owned.kept _ owned.pointers own
  refine ⟨h1, nofun, List.nodup_nil, List.nodup_nil, nofun, ?_⟩
  intro b hb
  exact h3 b (h2 ▸ hb)

theorem mbDbgRemoveEntry_owned (sound : Sound False s.pool) (owned : DbgOwned s) (idx : UInt32) :
    Sound False (mbDbgRemoveEntry memsetS idx s).pool ∧
      DbgOwned (mbDbgRemoveEntry memsetS idx s) := by
  unfold mbDbgRemoveEntry
  split
  · exact ⟨sound, owned⟩
  · rename_i e found
    have he : e ∈ s.dbgList := List.mem_of_find?_eq_some found
    obtain ⟨b, hb, mine, hptr⟩ := owned.live e he
    obtain ⟨sound', kept', rest⟩ := free_own memsetS sound owned.kept hb mine
    rw [← hptr] at sound' kept' rest
    have fewer : ∀ {e'}, e' ∈ s.dbgList.erase e → e' ∈ s.dbgList := List.mem_of_mem_erase
    have entries : s.dbgList.Nodup := List.Nodup.of_map _ owned.distinct
    refine ⟨sound', fun e' h => owned.nonzero e' (fewer h), ?_, ?_, ?_, kept'⟩
    · exact owned.distinct.sublist (List.erase_sublist.map _)
    · exact owned.pointers.sublist (List.erase_sublist.map _)
    · intro e' h
      obtain ⟨c, hc, other, addr⟩ := owned.live e' (fewer h)
      have apart : c ≠ b := by
        rintro rfl
        have same : e' = e := List.inj_on_of_nodup_map owned.pointers (fewer h) he
          (addr.trans hptr.symm)
        exact (entries.mem_erase_iff.mp h).1 same
      obtain ⟨live, moved⟩ := rest c hc apart
      exact ⟨c, live, other, addr.trans moved.symm⟩

/-- The number `mb_dbg_add_entry` would hand out is not 0 and not in use. -/
def DbgState.Countable (s : DbgState) : Prop :=
  s.entryCount ≠ 0 ∧ ∀ e ∈ s.dbgList, e.idx ≠ s.entryCount

/-- A pool in which the live blocks stay live keeps everything. -/
theorem DbgOwned.mono (owned : DbgOwned s) {pool : MbState}
    (stay : ∀ c ∈ s.pool.live, c ∈ pool.live)
    (pages : pool.zone.allPages = s.pool.zone.allPages) : DbgOwned { s with pool := pool } := by
  refine ⟨owned.nonzero, owned.distinct, owned.pointers, ?_, fun c hc => stay c (owned.kept c hc)⟩
  intro e he
  obtain ⟨c, hc, other, addr⟩ := owned.live e he
  refine ⟨c, stay c hc, other, ?_⟩
  rw [addr, blockAddr, blockAddr, pages]

/-- A new block goes on the list under a new number. -/
theorem DbgOwned.add (owned : DbgOwned s) {b : Block} (hb : b ∈ s.pool.live)
    (other : b ∉ s.others) (unlisted : ∀ e ∈ s.dbgList, e.ptr ≠ blockAddr s.pool b)
    (countable : s.Countable)
    (entryCount lastRes : UInt32) :
    DbgOwned { s with
      dbgList := s.dbgList ++ [⟨s.entryCount, blockAddr s.pool b⟩]
      entryCount := entryCount
      lastRes := lastRes } := by
  have append : ∀ {P : DbgEntry → Prop}, (∀ e ∈ s.dbgList, P e) →
      P ⟨s.entryCount, blockAddr s.pool b⟩ →
      ∀ e ∈ s.dbgList ++ [⟨s.entryCount, blockAddr s.pool b⟩], P e := by
    intro P old new e he
    rcases List.mem_append.mp he with he | he
    · exact old e he
    · rw [List.mem_singleton.mp he]
      exact new
  refine ⟨append owned.nonzero countable.1, ?_, ?_, append owned.live ⟨b, hb, other, rfl⟩,
    owned.kept⟩
  · rw [List.map_append, List.map_singleton]
    refine List.nodup_append.mpr ⟨owned.distinct, List.nodup_singleton _, ?_⟩
    intro idx hidx idx' hidx'
    obtain ⟨e, he, rfl⟩ := List.mem_map.mp hidx
    rw [List.mem_singleton.mp hidx']
    exact countable.2 e he
  · rw [List.map_append, List.map_singleton]
    refine List.nodup_append.mpr ⟨owned.pointers, List.nodup_singleton _, ?_⟩
    intro ptr hptr ptr' hptr'
    obtain ⟨e, he, rfl⟩ := List.mem_map.mp hptr
    rw [List.mem_singleton.mp hptr']
    exact unlisted e he

/-- `alloc_dbg_entry`, unless it gets a block and an entry for a number it must not use. -/
theorem allocDbgEntry_owned (sound : Sound False s.pool) (owned : DbgOwned s) (kmallocOk : Bool)
    (size : UInt32)
    (countable : kmallocOk = true →
      (mailboxAlloc memsetS s.pool.zone size.toNat 0).1.isSome = true → s.Countable) :
    Sound False (allocDbgEntry memsetS kmallocOk size s).pool ∧
      DbgOwned (allocDbgEntry memsetS kmallocOk size s) := by
  have sound' := sound.alloc memsetS size.toUInt64 0 False.elim
  have pages := mbStep_allPages memsetS sound (.alloc size.toUInt64 0)
  have narrow : size.toUInt64.toNat = size.toNat := UInt32.toNat_toUInt64 size
  unfold allocDbgEntry
  cases result : (mailboxAlloc memsetS s.pool.zone size.toNat 0).1 with
  | none =>
    rw [← narrow] at result
    have same := not_given size.toUInt64 0 result
    exact ⟨sound', owned.mono (fun c hc => same ▸ hc) pages⟩
  | some ptr =>
    rw [result] at countable
    rw [← narrow] at result
    obtain ⟨b, live, fresh, rfl, -⟩ := sound.given size.toUInt64 0 result
    have mine : b ∉ s.others := fun hb => fresh (owned.kept b hb)
    have grown : DbgOwned { s with pool := mbStep memsetS s.pool (.alloc size.toUInt64 0) } :=
      owned.mono (fun c hc => live ▸ List.mem_cons_of_mem b hc) pages
    have hb : b ∈ (mbStep memsetS s.pool (.alloc size.toUInt64 0)).live :=
      live ▸ List.mem_cons_self
    have addr : blockAddr s.pool b =
        blockAddr (mbStep memsetS s.pool (.alloc size.toUInt64 0)) b := by
      rw [blockAddr, blockAddr, pages]
    rw [addr]
    cases kmallocOk with
    | true =>
      obtain ⟨nonzero, unused⟩ := countable rfl rfl
      have unlisted : ∀ e ∈ s.dbgList,
          e.ptr ≠ blockAddr (mbStep memsetS s.pool (.alloc size.toUInt64 0)) b := by
        intro e he same
        obtain ⟨c, hc, -, here⟩ := owned.live e he
        have page : c.page = b.page := blockAddr_page (here.symm.trans (same.trans addr.symm))
        have later : c ∈ (mbStep memsetS s.pool (.alloc size.toUInt64 0)).live :=
          live ▸ List.mem_cons_of_mem b hc
        exact fresh (sound'.eq_of_page later hb page ▸ hc)
      simp only [mbDbgAddEntry, Bool.true_eq_false, if_false, if_neg nonzero]
      exact ⟨sound', grown.add hb mine unlisted ⟨nonzero, unused⟩ _ _⟩
    | false =>
      -- no entry: the block goes back at once
      obtain ⟨freed, -, rest⟩ := free_own memsetS sound' grown.kept hb mine
      simp only [mbDbgAddEntry, if_true]
      refine ⟨freed, ?_⟩
      have stay : DbgOwned { s with
          pool := mbStep memsetS (mbStep memsetS s.pool (.alloc size.toUInt64 0))
            (.free (blockAddr (mbStep memsetS s.pool (.alloc size.toUInt64 0)) b)) } := by
        refine owned.mono (fun c hc => ?_) ((mbStep_allPages memsetS sound' _).trans pages)
        have apart : c ≠ b := by
          rintro rfl
          exact fresh hc
        exact (rest c (live ▸ List.mem_cons_of_mem b hc) apart).1
      exact ⟨stay.nonzero, stay.distinct, stay.pointers, stay.live, stay.kept⟩

/-- The command of a write that gets as far as its text. -/
def writtenCommand (copyOk : Bool) (ubuf : List UInt8) : Option DbgCommand :=
  if ubuf.length ≥ mbWriteSize ∨ ubuf = [] then none
  else if copyOk = false then none
  else (parseDbg (ubuf.takeWhile fun b => b ≠ 0)).join

theorem mbDbgOptWrite_state (copyOk kmallocOk : Bool) (ubuf : List UInt8) (s : DbgState) :
    (mbDbgOptWrite memsetS copyOk kmallocOk ubuf s).2 =
      match writtenCommand copyOk ubuf with
      | none => s
      | some .reset => mbDbgReset memsetS s
      | some (.alloc size) => allocDbgEntry memsetS kmallocOk size s
      | some (.free idx) => mbDbgRemoveEntry memsetS idx s := by
  unfold mbDbgOptWrite writtenCommand
  split
  · rfl
  · split
    · rfl
    · cases parseDbg (ubuf.takeWhile fun b => b ≠ 0) with
      | none => rfl
      | some command =>
        cases command with
        | none => rfl
        | some command => cases command <;> rfl

/-- A write that allocates a block and an entry for it finds a number it can use. -/
def DbgAct.Safe (s : DbgState) : DbgAct → Prop
  | .write copyOk kmallocOk ubuf => ∀ size, writtenCommand copyOk ubuf = some (.alloc size) →
      kmallocOk = true → (mailboxAlloc memsetS s.pool.zone size.toNat 0).1.isSome = true →
      s.Countable
  | _ => True

theorem userAlloc_owned (sound : Sound False s.pool) (owned : DbgOwned s) (size : UInt64)
    (flag : UInt32) :
    Sound False (dbgStep memsetS s (.userAlloc size flag)).pool ∧
      DbgOwned (dbgStep memsetS s (.userAlloc size flag)) := by
  have sound' := sound.alloc memsetS size flag False.elim
  have pages := mbStep_allPages memsetS sound (.alloc size flag)
  simp only [dbgStep]
  cases result : (mailboxAlloc memsetS s.pool.zone size.toNat flag.toNat).1 with
  | none =>
    have same := not_given size flag result
    simp only
    exact ⟨sound', owned.mono (fun c hc => same ▸ hc) pages⟩
  | some addr =>
    obtain ⟨b, live, fresh, -, hb⟩ := sound.given size flag result
    simp only
    rw [← hb]
    refine ⟨sound', owned.nonzero, owned.distinct, owned.pointers, ?_, ?_⟩
    · intro e he
      obtain ⟨c, hc, other, here⟩ := owned.live e he
      refine ⟨c, live ▸ List.mem_cons_of_mem b hc, ?_, ?_⟩
      · rintro (_ | ⟨_, taken⟩)
        · exact fresh hc
        · exact other taken
      · rw [here, blockAddr, blockAddr, pages]
    · intro c hc
      rw [live]
      rcases List.mem_cons.mp hc with rfl | hc
      · exact List.mem_cons_self
      · exact List.mem_cons_of_mem b (owned.kept c hc)

/-- What another user frees is not a block of an entry. -/
theorem userFree_owned (sound : Sound False s.pool) (owned : DbgOwned s) (b : Block) :
    Sound False (dbgStep memsetS s (.userFree b)).pool ∧
      DbgOwned (dbgStep memsetS s (.userFree b)) := by
  simp only [dbgStep]
  split
  · rename_i taken
    have hb : b ∈ s.pool.live := owned.kept b taken
    have pages := mbStep_allPages memsetS sound (.free (blockAddr s.pool b))
    refine ⟨sound.free_live hb (virtToPage_pageAddress _) False.elim memsetS, owned.nonzero,
      owned.distinct, owned.pointers, ?_, ?_⟩
    · intro e he
      obtain ⟨c, hc, other, here⟩ := owned.live e he
      have apart : c ≠ b := by
        rintro rfl
        exact other taken
      refine ⟨c, (sound.mem_free memsetS hb c).mpr ⟨hc, apart⟩, ?_, ?_⟩
      · intro left
        exact other (List.mem_filter.mp left).1
      · rw [here, blockAddr, blockAddr, pages]
    · intro c hc
      obtain ⟨old, apart⟩ := List.mem_filter.mp hc
      exact (sound.mem_free memsetS hb c).mpr ⟨owned.kept c old, of_decide_eq_true apart⟩
  · exact ⟨sound, owned⟩

theorem dbgStep_owned (sound : Sound False s.pool) (owned : DbgOwned s) (act : DbgAct)
    (safe : act.Safe memsetS s) :
    Sound False (dbgStep memsetS s act).pool ∧ DbgOwned (dbgStep memsetS s act) := by
  cases act with
  | write copyOk kmallocOk ubuf =>
    rw [dbgStep, mbDbgOptWrite_state]
    cases command : writtenCommand copyOk ubuf with
    | none => exact ⟨sound, owned⟩
    | some command' =>
      cases command' with
      | reset => exact mbDbgReset_owned memsetS sound owned
      | free idx => exact mbDbgRemoveEntry_owned memsetS sound owned idx
      | alloc size =>
        exact allocDbgEntry_owned memsetS sound owned kmallocOk size (safe size command)
  | userAlloc size flag => exact userAlloc_owned memsetS sound owned size flag
  | userFree b => exact userFree_owned memsetS sound owned b

/-- A write that gets a block and an entry hands out the counter, whatever it is. -/
theorem countable_of_owned {kmallocOk : Bool} {size : UInt32} (entry : kmallocOk = true)
    (given : (mailboxAlloc memsetS s.pool.zone size.toNat 0).1.isSome = true)
    (owned : DbgOwned (allocDbgEntry memsetS kmallocOk size s)) : s.Countable := by
  obtain ⟨ptr, result⟩ := Option.isSome_iff_exists.mp given
  have list : (allocDbgEntry memsetS kmallocOk size s).dbgList =
      s.dbgList ++ [⟨s.entryCount, ptr⟩] := by
    simp only [allocDbgEntry, result, mbDbgAddEntry, entry, Bool.true_eq_false, if_false]
    split <;> rfl
  obtain ⟨nonzero, distinct, -, -, -⟩ := owned
  rw [list] at nonzero distinct
  refine ⟨nonzero ⟨s.entryCount, ptr⟩ (by simp), ?_⟩
  intro e he
  rw [List.map_append, List.map_singleton] at distinct
  exact (List.nodup_append.mp distinct).2.2 e.idx (List.mem_map_of_mem he) s.entryCount
    (List.mem_singleton.mpr rfl)

end Steps

/-- From a new pool, the debug interface owns what it lists in every state of a run exactly when no
write allocates an entry while the counter is 0 or the number of an entry on the list. -/
theorem debug_owns_iff (memsetS : Nat → Nat → Nat) {zoneOk registerErr : Bool} {allPages : Nat}
    {z : MbZone} (built : mailboxMempoolInit zoneOk allPages registerErr = some z)
    (acts : List DbgAct) :
    (∀ before, before <+: acts → DbgOwned (before.foldl (dbgStep memsetS) (initDbg z))) ↔
      Along (dbgStep memsetS) (fun s act => act.Safe memsetS s) (initDbg z) acts := by
  have start : Sound False (initDbg z).pool ∧ DbgOwned (initDbg z) :=
    ⟨Sound.init built, nofun, List.nodup_nil, List.nodup_nil, nofun, nofun⟩
  have holds : ∀ s : DbgState, Sound False s.pool ∧ DbgOwned s → DbgOwned s := fun s inv => inv.2
  refine forall_prefix_iff_along holds ?_ ?_ start acts
  · intro s act inv safe
    exact dbgStep_owned memsetS inv.1 inv.2 act safe
  · intro s act inv owned
    cases act with
    | write copyOk kmallocOk ubuf =>
      intro size command entry given
      rw [dbgStep, mbDbgOptWrite_state, command] at owned
      exact countable_of_owned memsetS entry given owned
    | userAlloc size flag => trivial
    | userFree b => trivial

/-- The write of `alloc:4096`. -/
def writeAlloc : DbgAct :=
  .write true true (ascii ['a', 'l', 'l', 'o', 'c', ':', '4', '0', '9', '6'])

/-- The write of `free:1`. -/
def writeFree : DbgAct := .write true true (ascii ['f', 'r', 'e', 'e', ':', '1'])

/-- The write of `reset`. -/
def writeReset : DbgAct := .write true true (ascii ['r', 'e', 's', 'e', 't'])

/-- Two blocks are listed and one of them is freed while another user takes a block. -/
theorem debug_owns_two_blocks :
    DbgOwned ([writeAlloc, .userAlloc 4096 0, writeAlloc, writeFree].foldl
      (dbgStep fun _ _ => 0) (initDbg (initZone 16))) := by
  have built : mailboxMempoolInit true 16 false = some (initZone 16) := rfl
  refine (debug_owns_iff (fun _ _ => 0) built [writeAlloc, .userAlloc 4096 0, writeAlloc,
    writeFree]).mpr ⟨?_, trivial, ?_, ?_, trivial⟩ _ (List.prefix_refl _)
  · intro size _ _ _
    exact ⟨by decide, nofun⟩
  · intro size _ _ _
    exact ⟨by decide +kernel, by decide +kernel⟩
  · intro size command _ _
    have none : writtenCommand true (ascii ['f', 'r', 'e', 'e', ':', '1']) = some (.free 1) := by
      decide +kernel
    rw [none] at command
    cases command

/-- After a reset the next entry gets the number 0 and its block is freed under it; the next user
of the block loses it to another reset. -/
theorem reset_frees_other :
    ¬ DbgOwned ([writeReset, writeAlloc].foldl (dbgStep fun _ _ => 0) (initDbg (initZone 16))) ∧
    ∃ b ∈ ([writeReset, writeAlloc, .userAlloc 4096 0, writeReset].foldl (dbgStep fun _ _ => 0)
      (initDbg (initZone 16))).others,
      b ∉ ([writeReset, writeAlloc, .userAlloc 4096 0, writeReset].foldl (dbgStep fun _ _ => 0)
        (initDbg (initZone 16))).pool.live := by
  refine ⟨fun owned => ?_, by decide +kernel⟩
  have zero : ∃ e ∈ ([writeReset, writeAlloc].foldl (dbgStep fun _ _ => 0)
      (initDbg (initZone 16))).dbgList, e.idx = 0 := by decide +kernel
  obtain ⟨e, he, idx⟩ := zero
  exact owned.nonzero e he idx

end MailboxPool
