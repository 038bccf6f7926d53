import Mathlib.Algebra.Group.Int.Defs
import Mathlib.Algebra.Group.Nat.Defs
import Mathlib.Logic.Function.Basic
import Mathlib.Logic.Relation

/-!
# The mailbox page pool

`core/mailbox_mempool.c`: a buddy allocator over the pages shared with the TEE.
A page descriptor keeps the order of the block it heads (`-1` when it heads
none) and a count that marks the block as handed out. `freeAreas k` holds the
indices of the pages linked on `free_areas[k].page_list`, in list order.

A `struct page *` is its page frame number, so `page_address` and
`virt_to_page` are multiplication and division by the page size, and `NULL` is
`0`. `memset_s` belongs to the bounds-checking library and is a parameter: the
destination size and the count give its return code.
-/

namespace MailboxPool

open Function

def pageShift : Nat := 12

def sz4K : Nat := 4096

def mailboxPoolSize : Nat := 4 * 1024 * 1024

def mailboxPageMax : Nat := mailboxPoolSize >>> pageShift

def mbFlagZero : Nat := 0x1

/-- `get_order` of the 64-bit kernel; order 52 stands for the whole address space. -/
def getOrder (size : Nat) : Nat :=
  if size = 0 then 64 - pageShift
  else if size ≤ 2 ^ pageShift then 0
  else Nat.log2 (size - 1) - pageShift + 1

def gMaxOder : Nat := getOrder mailboxPoolSize

/-- `ALIGN(size, SZ_4K)` on a 64-bit `size_t`: the sum wraps round. -/
def align4K (size : Nat) : Nat := (size + (sz4K - 1)) % 2 ^ 64 / sz4K * sz4K

structure MbPage where
  order : Int
  count : Nat
  deriving DecidableEq, Repr

structure MbZone where
  allPages : Nat
  pages : Nat → MbPage
  freeAreas : Nat → List Nat

def pageAddress (page : Nat) : Nat := page * 2 ^ pageShift

def virtToPage (ptr : Nat) : Nat := ptr / 2 ^ pageShift

namespace MbZone

def setPage (z : MbZone) (p : Nat) (pg : MbPage) : MbZone :=
  { z with pages := update z.pages p pg }

def setOrder (z : MbZone) (p : Nat) (order : Int) : MbZone :=
  z.setPage p ⟨order, (z.pages p).count⟩

def setCount (z : MbZone) (p count : Nat) : MbZone :=
  z.setPage p ⟨(z.pages p).order, count⟩

def listAddTail (z : MbZone) (p k : Nat) : MbZone :=
  { z with freeAreas := update z.freeAreas k (z.freeAreas k ++ [p]) }

/-- `list_del` unlinks a node from the one list it is on. -/
def listDel (z : MbZone) (p : Nat) : MbZone :=
  { z with freeAreas := fun k => (z.freeAreas k).erase p }

end MbZone

/-- The descriptors and lists `mailbox_mempool_init` builds over `allPages`. -/
def initZone (allPages : Nat) : MbZone where
  allPages := allPages
  pages := update (fun _ => ⟨-1, 0⟩) 0 ⟨gMaxOder, 0⟩
  freeAreas := update (fun _ => []) gMaxOder [0]

/-- `mailbox_mempool_init`; the arguments are the outcomes of `kzalloc`,
`koadpt_alloc_pages` and `mailbox_register`. -/
def mailboxMempoolInit (zoneOk : Bool) (allPages : Nat) (registerErr : Bool) : Option MbZone :=
  if zoneOk = false then none
  else if allPages = 0 then none
  else if registerErr then none
  else some (initZone allPages)

/-- `add_max_order_block`: hang all pages on the last free area. -/
def addMaxOrderBlock (z : MbZone) (idex : Nat) : MbZone :=
  if idex ≠ gMaxOder then z else z.listAddTail 0 gMaxOder

/-- The merge loop of `mailbox_free` from order `i`, with `gMaxOder - i` rounds left. -/
def freeLoop (z : MbZone) (selfIdx i : Nat) : Nat → MbZone
  | 0 => addMaxOrderBlock z i
  | n + 1 =>
    let buddyIdx := selfIdx ^^^ 2 ^ i
    let z := z.setCount selfIdx 0
    if (z.pages buddyIdx).order = i ∧ (z.pages buddyIdx).count = 0 then
      let z := z.listDel buddyIdx
      if selfIdx > buddyIdx then
        freeLoop ((z.setOrder buddyIdx (i + 1)).setOrder selfIdx (-1)) buddyIdx (i + 1) n
      else
        freeLoop ((z.setOrder selfIdx (i + 1)).setOrder buddyIdx (-1)) selfIdx (i + 1) n
    else z.listAddTail selfIdx i

def isPtrValid (z : MbZone) (page : Nat) : Bool :=
  decide (z.allPages ≤ page ∧ page < z.allPages + mailboxPageMax)

/-- `mailbox_free`. The order is read as an `unsigned int`. -/
def mailboxFree (z : MbZone) (ptr : Nat) : MbZone :=
  if ptr = 0 then z
  else if isPtrValid z (virtToPage ptr) = false then z
  else
    let selfIdx := virtToPage ptr - z.allPages
    if (z.pages selfIdx).count = 0 then z
    else
      let i := ((z.pages selfIdx).order % 2 ^ 32).toNat
      freeLoop z selfIdx i (gMaxOder - i)

/-- The split loop of `mailbox_alloc` for the orders `j`, `j + 1`, … -/
def splitFree (z : MbZone) (pos j : Nat) : Nat → MbZone
  | 0 => z
  | n + 1 =>
    splitFree ((z.setPage (pos + 2 ^ j) ⟨j, 0⟩).listAddTail (pos + 2 ^ j) j) pos (j + 1) n

/-- The search loop of `mailbox_alloc` over `free_areas[i]`, `free_areas[i + 1]`, … -/
def takeFrom (z : MbZone) (order i : Nat) : Nat → Option (Nat × MbZone)
  | 0 => none
  | n + 1 =>
    match z.freeAreas i with
    | [] => takeFrom z order (i + 1) n
    | pos :: _ =>
      some (pos, (splitFree (z.setPage pos ⟨order, 1⟩) pos order (i - order)).listDel pos)

/-- `mailbox_alloc`. -/
def mailboxAlloc (memsetS : Nat → Nat → Nat) (z : MbZone) (size flag : Nat) :
    Option Nat × MbZone :=
  let order := getOrder (align4K size)
  if size = 0 then (none, z)
  else if order > gMaxOder then (none, z)
  else
    match takeFrom z order order (gMaxOder + 1 - order) with
    | none => (none, z)
    | some (pos, z) =>
      let addr := pageAddress (z.allPages + pos)
      if addr ≠ 0 ∧ flag &&& mbFlagZero ≠ 0 ∧ memsetS (align4K size) (align4K size) ≠ 0 then
        (none, mailboxFree z addr)
      else (some addr, z)

/-- The usage total printed by `mailbox_show_status`, an `unsigned int`. -/
def mailboxShowStatus (z : MbZone) : Nat :=
  (List.range mailboxPageMax).foldl (fun used i =>
    if (z.pages i).count ≠ 0 then (used + 2 ^ (z.pages i).order.toNat) % 2 ^ 32 else used) 0

/-- A block of `2 ^ order` pages from `page` on. -/
structure Block where
  page : Nat
  order : Nat
  deriving DecidableEq, Repr

/-- The pool together with the blocks its users were given and have not freed. -/
structure MbState where
  zone : MbZone
  live : List Block

inductive MbCall where
  | alloc (size : UInt64) (flag : UInt32)
  | free (ptr : Nat)

def blockAddr (s : MbState) (b : Block) : Nat := pageAddress (s.zone.allPages + b.page)

/-- A returned pointer starts a live block; a freed page is no longer the head of one. -/
def mbStep (memsetS : Nat → Nat → Nat) (s : MbState) : MbCall → MbState
  | .alloc size flag =>
    match mailboxAlloc memsetS s.zone size.toNat flag.toNat with
    | (some addr, z) =>
      ⟨z, ⟨virtToPage addr - z.allPages, getOrder (align4K size.toNat)⟩ :: s.live⟩
    | (none, z) => ⟨z, s.live⟩
  | .free ptr =>
    ⟨mailboxFree s.zone ptr,
      s.live.filter (fun b => decide (s.zone.allPages + b.page ≠ virtToPage ptr))⟩

end MailboxPool
