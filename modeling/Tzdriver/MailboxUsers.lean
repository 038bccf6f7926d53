import Tzdriver.MailboxCoalescing
import Tzdriver.MailboxCommands
import Tzdriver.MailboxDebug
import Tzdriver.OwnedItems

/-!
# The mailbox pool and those who use it

Any number of threads run client calls and the other commands of the driver over one pool, interleaved
at every allocation and every free. What a function does with its blocks is its trace; an allocation
of a trace happens when the pool gives that block for some request. The buffers of agents stay with the
driver when the function that takes them returns: they are the blocks in `kept`.

`own` is bookkeeping, the blocks and references a thread has out, and `fault` is set when one frees a
block that is not its own. The debug interface of the pool is left out.
-/

namespace MailboxUsers

open ActionSystem ClientCall Function MailboxCommands MailboxPool OwnedItems

/-- A function that uses the mailbox, with all it meets. -/
inductive User where
  | tcClientCall (p : CallParams) (env : CallEnv) (tokens : TeecToken.TokenState)
  | tcNsLateInit (uid : Nat) (mbPack : Option Nat) (reply : SmcReply)
  | tcNsSyncSysTime (time : Bool) (uid : Nat) (copy : Bool) (mbPack : Option Nat) (reply : SmcReply)
  | registerAgentToTee (mbPack : Option Nat) (reply : SmcReply)
  | tcNsUnregisterAgent (allowed : List Nat) (uid agentId : Nat) (buffer : Bool)
      (mbPack : Option Nat) (reply : SmcReply)
  | sendNotifyCmd (mbPack : Option Nat) (reply : SmcReply)
  | registerMemToTeeos (mbPack : Option Nat) (reply : SmcReply)
  | tcNsGetTeeVersion (argp isTeecd : Bool) (mbPack : Option Nat) (reply : SmcReply) (copyToUser : Bool)
  | tcNsSetNativeHash (inbuf : Bool) (uid : Nat) (lenRead bufToTee : Option Nat) (copy : Bool)
      (mbPack : Option Nat) (reply : SmcReply)
  | tcNsNeedLoadImage (uuid : Bool) (mbPack mbParam : Option Nat) (reply : SmcReply) (answer : Int)
  | getSessionSecureParams (challenge : Int) (ree : Option Nat) (kzalloc : Bool) (reply : SmcReply)
      (sendRet updateRet : Int)
  | tcNsLoadImage (env : LoadImage.Env) (fileBuffer : Bool) (fileSize : Nat)

/-- Its trace, when it returns. -/
def User.trace : User → Option (List Event)
  | .tcClientCall p env tokens => (ClientCall.tcClientCall p env tokens).map fun res => res.op.trace
  | .tcNsLateInit uid mbPack reply => some (MailboxCommands.tcNsLateInit uid mbPack reply).2
  | .tcNsSyncSysTime time uid copy mbPack reply =>
    some (MailboxCommands.tcNsSyncSysTime time uid copy mbPack reply).2
  | .registerAgentToTee mbPack reply => some (MailboxCommands.registerAgentToTee mbPack reply).2
  | .tcNsUnregisterAgent allowed uid agentId buffer mbPack reply =>
    some (MailboxCommands.tcNsUnregisterAgent allowed uid agentId buffer mbPack reply).2
  | .sendNotifyCmd mbPack reply => some (MailboxCommands.sendNotifyCmd mbPack reply).2
  | .registerMemToTeeos mbPack reply => some (MailboxCommands.registerMemToTeeos mbPack reply).2
  | .tcNsGetTeeVersion argp isTeecd mbPack reply copyToUser =>
    some (MailboxCommands.tcNsGetTeeVersion argp isTeecd mbPack reply copyToUser).2
  | .tcNsSetNativeHash inbuf uid lenRead bufToTee copy mbPack reply =>
    some (MailboxCommands.tcNsSetNativeHash inbuf uid lenRead bufToTee copy mbPack reply).2
  | .tcNsNeedLoadImage uuid mbPack mbParam reply answer =>
    some (MailboxCommands.tcNsNeedLoadImage uuid mbPack mbParam reply answer).2
  | .getSessionSecureParams challenge ree kzalloc reply sendRet updateRet =>
    some (MailboxCommands.getSessionSecureParams challenge ree kzalloc reply sendRet updateRet).2
  | .tcNsLoadImage env fileBuffer fileSize => some (loadImageEvents env fileBuffer fileSize)

theorem User.nets {user : User} {trace : List Event} (returned : user.trace = some trace) :
    Nets trace 0 := by
  cases user with
  | tcClientCall p env tokens =>
    obtain ⟨res, call, rfl⟩ := Option.map_eq_some_iff.1 returned
    exact tcClientCall_nets call
  | tcNsLateInit => exact Option.some.inj returned ▸ tcNsLateInit_nets _
  | tcNsSyncSysTime => exact Option.some.inj returned ▸ tcNsSyncSysTime_nets _ _ _
  | registerAgentToTee => exact Option.some.inj returned ▸ packCommand_nets
  | tcNsUnregisterAgent => exact Option.some.inj returned ▸ tcNsUnregisterAgent_nets _ _ _ _
  | sendNotifyCmd => exact Option.some.inj returned ▸ packCommand_nets
  | registerMemToTeeos => exact Option.some.inj returned ▸ packCommand_nets
  | tcNsGetTeeVersion => exact Option.some.inj returned ▸ tcNsGetTeeVersion_nets _ _ _
  | tcNsSetNativeHash => exact Option.some.inj returned ▸ tcNsSetNativeHash_nets _ _ _ _
  | tcNsNeedLoadImage => exact Option.some.inj returned ▸ tcNsNeedLoadImage_nets _ _
  | getSessionSecureParams => exact Option.some.inj returned ▸ getSessionSecureParams_nets _ _ _ _
  | tcNsLoadImage => exact Option.some.inj returned ▸ loadImageEvents_nets _ _ _

structure Sys (T : Type*) where
  pool : MbState
  todo : T → List Event
  own : T → Multiset Resource
  kept : List Nat
  fault : Bool

inductive Act (T : Type*) where
  | begin (t : T) (user : User)
  | alloc (t : T) (size : UInt64) (flag : UInt32)
  | free (t : T)
  | other (t : T)
  | refused (size : UInt64) (flag : UInt32)
  | keep (size : UInt64) (flag : UInt32)
  | drop (addr : Nat)

section Model

variable {T : Type*} [DecidableEq T] (memsetS : Nat → Nat → Nat)

def Sys.init (z : MbZone) : Sys T := ⟨⟨z, []⟩, fun _ => [], fun _ => 0, [], false⟩

def step (s : Sys T) : Act T → Option (Sys T)
  | .begin t user =>
    if s.todo t = [] then
      user.trace.map fun trace => { s with todo := update s.todo t trace }
    else none
  | .alloc t size flag =>
    match s.todo t with
    | .mbAlloc addr :: rest =>
      if (mailboxAlloc memsetS s.pool.zone size.toNat flag.toNat).1 = some addr then
        some { s with
          pool := mbStep memsetS s.pool (.alloc size flag)
          todo := update s.todo t rest
          own := update s.own t (.block addr ::ₘ s.own t) }
      else none
    | _ => none
  | .free t =>
    match s.todo t with
    | .mbFree addr :: rest =>
      some { s with
        pool := mbStep memsetS s.pool (.free addr)
        todo := update s.todo t rest
        own := update s.own t ((s.own t).erase (.block addr))
        fault := s.fault || !decide (.block addr ∈ s.own t) }
    | _ => none
  | .other t =>
    match s.todo t with
    | .mbAlloc _ :: _ | .mbFree _ :: _ | [] => none
    | e :: rest =>
      (e.apply (s.own t)).map fun out =>
        { s with todo := update s.todo t rest, own := update s.own t out }
  | .refused size flag =>
    if (mailboxAlloc memsetS s.pool.zone size.toNat flag.toNat).1 = none then
      some { s with pool := mbStep memsetS s.pool (.alloc size flag) }
    else none
  | .keep size flag =>
    (mailboxAlloc memsetS s.pool.zone size.toNat flag.toNat).1.map fun addr =>
      { s with pool := mbStep memsetS s.pool (.alloc size flag), kept := addr :: s.kept }
  | .drop addr =>
    if addr ∈ s.kept then
      some { s with pool := mbStep memsetS s.pool (.free addr), kept := s.kept.erase addr }
    else none

end Model

/-! ## Addresses that are handed out -/

section Pool

variable {memsetS : Nat → Nat → Nat} {pool : MbState} {addr a : Nat} {size : UInt64} {flag : UInt32}

def HandedOut (pool : MbState) (a : Nat) : Prop := ∃ b ∈ pool.live, blockAddr pool b = a

/-- The addresses do not move with the pool. -/
theorem blockAddr_mbStep (sound : Sound False pool) (call : MbCall) (b : Block) :
    blockAddr (mbStep memsetS pool call) b = blockAddr pool b := by
  simp only [blockAddr, mbStep_allPages memsetS sound call]

theorem handedOut_given (sound : Sound False pool)
    (given : (mailboxAlloc memsetS pool.zone size.toNat flag.toNat).1 = some addr) :
    ¬ HandedOut pool addr ∧
      ∀ a, HandedOut (mbStep memsetS pool (.alloc size flag)) a ↔ HandedOut pool a ∨ a = addr := by
  obtain ⟨b, live, fresh, rfl, -⟩ := sound.given size flag given
  refine ⟨?_, ?_⟩
  · rintro ⟨c, hc, same⟩
    -- two live blocks would head one page
    have after : Sound False (mbStep memsetS pool (.alloc size flag)) :=
      (LegalStep.alloc pool size flag).sound sound
    have page : c.page = b.page := blockAddr_page same
    have one : c = b := by
      refine after.eq_of_page ?_ ?_ page
      · rw [live]
        exact List.mem_cons_of_mem b hc
      · rw [live]
        exact List.mem_cons_self
    exact fresh (one ▸ hc)
  · intro a
    simp only [HandedOut, live, List.mem_cons, blockAddr_mbStep sound]
    constructor
    · rintro ⟨c, rfl | hc, rfl⟩
      · exact .inr rfl
      · exact .inl ⟨c, hc, rfl⟩
    · rintro (⟨c, hc, rfl⟩ | rfl)
      · exact ⟨c, .inr hc, rfl⟩
      · exact ⟨b, .inl rfl, rfl⟩

theorem handedOut_refused (sound : Sound False pool)
    (refused : (mailboxAlloc memsetS pool.zone size.toNat flag.toNat).1 = none) (a : Nat) :
    HandedOut (mbStep memsetS pool (.alloc size flag)) a ↔ HandedOut pool a := by
  simp only [HandedOut, not_given size flag refused, blockAddr_mbStep sound]

/-- Freeing a block that is out. -/
theorem handedOut_freed (memsetS : Nat → Nat → Nat) (sound : Sound False pool) (out : HandedOut pool addr) :
    LegalStep memsetS pool (mbStep memsetS pool (.free addr)) ∧
      ∀ a, HandedOut (mbStep memsetS pool (.free addr)) a ↔ HandedOut pool a ∧ a ≠ addr := by
  obtain ⟨b, hb, rfl⟩ := out
  refine ⟨.free pool b hb, ?_⟩
  intro a
  simp only [HandedOut, sound.mem_free memsetS hb, blockAddr_mbStep sound]
  constructor
  · rintro ⟨c, ⟨hc, other⟩, rfl⟩
    exact ⟨⟨c, hc, rfl⟩, fun same => other (sound.eq_of_page hc hb (blockAddr_page same))⟩
  · rintro ⟨⟨c, hc, rfl⟩, other⟩
    refine ⟨c, ⟨hc, ?_⟩, rfl⟩
    rintro rfl
    exact other rfl

end Pool

/-! ## Every block has one owner -/

section Run

variable {T : Type*} {memsetS : Nat → Nat → Nat} {s s' : Sys T} {z : MbZone}

/-- The kept blocks belong to nobody's thread. -/
def owns (s : Sys T) : Option T → Nat → Nat
  | none, a => s.kept.count a
  | some t, a => (s.own t).count (.block a)

structure Inv (s : Sys T) : Prop where
  noFault : s.fault = false
  sound : Sound False s.pool
  coalesced : NoFreeBuddies s.pool.zone
  parts : Partition (owns s) (HandedOut s.pool)
  plan : ∀ t, replay (s.own t) (s.todo t) = some 0

theorem init_inv {zoneOk registerErr : Bool} {allPages : Nat}
    (built : mailboxMempoolInit zoneOk allPages registerErr = some z) :
    Inv (Sys.init z : Sys T) where
  noFault := rfl
  sound := Sound.init built
  coalesced := by
    unfold mailboxMempoolInit at built
    split at built
    · cases built
    · split at built
      · cases built
      · split at built
        · cases built
        · obtain rfl := Option.some.inj built
          exact initZone_noFreeBuddies allPages
  parts := by
    refine .empty ?_ ?_
    · intro t a
      cases t <;> rfl
    · rintro a ⟨b, hb, -⟩
      cases hb
  plan _ := rfl

variable [DecidableEq T]

/-- What one thread still does, its own resources with it. -/
theorem Inv.plan_update (inv : Inv s) {t : T} {out : Multiset Resource} {rest : List Event}
    (next : replay out rest = some 0) :
    ∀ u, replay (update s.own t out u) (update s.todo t rest u) = some 0 := by
  intro u
  by_cases hu : u = t
  · rw [hu, update_self, update_self]
    exact next
  · rw [update_of_ne hu, update_of_ne hu]
    exact inv.plan u

theorem Inv.alloc (inv : Inv s) {t : T} {size : UInt64} {flag : UInt32} {addr : Nat}
    {rest : List Event} (todo : s.todo t = .mbAlloc addr :: rest)
    (given : (mailboxAlloc memsetS s.pool.zone size.toNat flag.toNat).1 = some addr) :
    Inv { s with
      pool := mbStep memsetS s.pool (.alloc size flag)
      todo := update s.todo t rest
      own := update s.own t (.block addr ::ₘ s.own t) } := by
  obtain ⟨fresh, more⟩ := handedOut_given inv.sound given
  have legal : LegalStep memsetS s.pool (mbStep memsetS s.pool (.alloc size flag)) := .alloc _ _ _
  have plan := inv.plan t
  rw [todo] at plan
  refine ⟨inv.noFault, legal.sound inv.sound, legal.noFreeBuddies inv.sound inv.coalesced, ?_,
    inv.plan_update plan⟩
  refine inv.parts.take (t := some t) fresh ?_ ?_ more
  · simp [owns]
  · rintro (_ | u) b apart
    · rfl
    · by_cases hu : u = t
      · subst hu
        have other : b ≠ addr := by simpa using apart
        simp [owns, other]
      · simp [owns, hu]

theorem Inv.free (inv : Inv s) {t : T} {addr : Nat} {rest : List Event}
    (todo : s.todo t = .mbFree addr :: rest) :
    .block addr ∈ s.own t ∧ Inv { s with
      pool := mbStep memsetS s.pool (.free addr)
      todo := update s.todo t rest
      own := update s.own t ((s.own t).erase (.block addr))
      fault := s.fault || !decide (.block addr ∈ s.own t) } := by
  have plan := inv.plan t
  rw [todo] at plan
  have mine : Resource.block addr ∈ s.own t := by
    by_contra foreign
    simp [replay, Event.apply, giveBack, foreign] at plan
  have next : replay ((s.own t).erase (.block addr)) rest = some 0 := by
    simpa [replay, Event.apply, giveBack, mine] using plan
  have has : 0 < owns s (some t) addr := Multiset.count_pos.2 mine
  obtain ⟨legal, less⟩ := handedOut_freed memsetS inv.sound
    ((inv.parts.covered addr).2 ⟨some t, has⟩)
  refine ⟨mine, ?_, legal.sound inv.sound, legal.noFreeBuddies inv.sound inv.coalesced, ?_,
    inv.plan_update next⟩
  · simp [inv.noFault, mine]
  · refine inv.parts.give has ?_ ?_ less
    · simp [owns]
    · rintro (_ | u) b apart
      · rfl
      · by_cases hu : u = t
        · subst hu
          have other : b ≠ addr := by simpa using apart
          simp [owns, Multiset.count_erase_of_ne, other]
        · simp [owns, hu]

/-- A reference to shared memory or an SMC. -/
theorem Inv.other (inv : Inv s) {t : T} {e : Event} {rest : List Event} {out : Multiset Resource}
    (todo : s.todo t = e :: rest) (noAlloc : ∀ a, e ≠ .mbAlloc a) (noFree : ∀ a, e ≠ .mbFree a)
    (applied : e.apply (s.own t) = some out) :
    Inv { s with todo := update s.todo t rest, own := update s.own t out } := by
  have plan := inv.plan t
  rw [todo] at plan
  have next : replay out rest = some 0 := by
    simpa [replay, applied] using plan
  have blocks : ∀ a, out.count (.block a) = (s.own t).count (.block a) := by
    intro a
    cases e with
    | mbAlloc b => exact absurd rfl (noAlloc b)
    | mbFree b => exact absurd rfl (noFree b)
    | smc | copyOut =>
      cases applied
      rfl
    | shmGet id =>
      cases applied
      simp
    | shmPut id =>
      simp only [Event.apply, giveBack] at applied
      split at applied
      · cases applied
        simp [Multiset.count_erase_of_ne]
      · cases applied
  refine ⟨inv.noFault, inv.sound, inv.coalesced, ?_, inv.plan_update next⟩
  refine inv.parts.same ?_ fun _ => Iff.rfl
  rintro (_ | u) a
  · rfl
  · by_cases hu : u = t
    · subst hu
      simp [owns, blocks]
    · simp [owns, hu]

theorem step_inv {a : Act T} (inv : Inv s) (moved : step memsetS s a = some s') : Inv s' := by
  cases a with
  | begin t user =>
    simp only [step] at moved
    split at moved
    · rename_i idle
      obtain ⟨trace, returned, rfl⟩ := Option.map_eq_some_iff.1 moved
      have plan := inv.plan t
      rw [idle] at plan
      have nothing : s.own t = 0 := Option.some.inj plan
      have next : replay (s.own t) trace = some 0 := by
        rw [nothing]
        exact user.nets returned 0
      have kept := inv.plan_update (t := t) next
      rw [update_eq_self] at kept
      exact ⟨inv.noFault, inv.sound, inv.coalesced, inv.parts, kept⟩
    · cases moved
  | alloc t size flag =>
    simp only [step] at moved
    split at moved
    · rename_i addr rest todo
      split at moved
      · rename_i given
        cases moved
        exact inv.alloc todo given
      · cases moved
    · cases moved
  | free t =>
    simp only [step] at moved
    split at moved
    · rename_i addr rest todo
      cases moved
      exact (inv.free todo).2
    · cases moved
  | other t =>
    simp only [step] at moved
    split at moved
    · cases moved
    · cases moved
    · cases moved
    · rename_i e rest noAlloc noFree todo
      obtain ⟨out, applied, rfl⟩ := Option.map_eq_some_iff.1 moved
      refine inv.other todo ?_ ?_ applied
      · rintro a rfl
        exact noAlloc a rfl
      · rintro a rfl
        exact noFree a rfl
  | refused size flag =>
    simp only [step] at moved
    split at moved
    · rename_i none_
      cases moved
      have legal : LegalStep memsetS s.pool (mbStep memsetS s.pool (.alloc size flag)) := .alloc _ _ _
      exact ⟨inv.noFault, legal.sound inv.sound, legal.noFreeBuddies inv.sound inv.coalesced,
        inv.parts.same (fun _ _ => rfl) (handedOut_refused inv.sound none_), inv.plan⟩
    · cases moved
  | keep size flag =>
    obtain ⟨addr, given, rfl⟩ := Option.map_eq_some_iff.1 moved
    obtain ⟨fresh, more⟩ := handedOut_given inv.sound given
    have legal : LegalStep memsetS s.pool (mbStep memsetS s.pool (.alloc size flag)) := .alloc _ _ _
    refine ⟨inv.noFault, legal.sound inv.sound, legal.noFreeBuddies inv.sound inv.coalesced, ?_,
      inv.plan⟩
    refine inv.parts.take (t := none) fresh ?_ ?_ more
    · simp [owns]
    · rintro (_ | u) b apart
      · have other : b ≠ addr := by simpa using apart
        simp [owns, Ne.symm other]
      · rfl
  | drop addr =>
    simp only [step] at moved
    split at moved
    · rename_i mine
      cases moved
      have has : 0 < owns s none addr := List.count_pos_iff.2 mine
      obtain ⟨legal, less⟩ := handedOut_freed memsetS inv.sound
        ((inv.parts.covered addr).2 ⟨none, has⟩)
      refine ⟨inv.noFault, legal.sound inv.sound, legal.noFreeBuddies inv.sound inv.coalesced, ?_,
        inv.plan⟩
      refine inv.parts.give has ?_ ?_ less
      · simp [owns]
      · rintro (_ | u) b apart
        · have other : b ≠ addr := by simpa using apart
          simp [owns, List.count_erase_of_ne, other]
        · rfl
    · cases moved

/-- Any number of functions that share the pool, in any interleaving: none frees a block that is not its
own, no block has two owners or is kept beside one, the pool stays partitioned, and when all have
returned and no buffer is kept, the pool is as it was built. -/
theorem pool_shared {zoneOk registerErr : Bool} {allPages : Nat}
    (built : mailboxMempoolInit zoneOk allPages registerErr = some z)
    (run : Reach (step memsetS) (fun _ _ => True) (Sys.init z) s) :
    s.fault = false ∧ Partitioned s.pool ∧
    (∀ t u a, .block a ∈ s.own t → .block a ∈ s.own u → t = u) ∧
    (∀ t, ∀ a ∈ s.kept, .block a ∉ s.own t) ∧
    ((∀ t, s.todo t = []) → s.kept = [] →
      s.pool.live = [] ∧ ∀ k, (s.pool.zone.freeAreas k).Perm (z.freeAreas k)) := by
  have inv : Inv s := run.invariant (init_inv built) fun _ _ _ inv _ moved => step_inv inv moved
  refine ⟨inv.noFault, inv.sound.partitioned, ?_, ?_, ?_⟩
  · intro t u a mine yours
    have same := inv.parts.alone (some t) (some u) a (Multiset.count_pos.2 mine)
      (Multiset.count_pos.2 yours)
    exact Option.some.inj same
  · intro t a kept mine
    have same := inv.parts.alone none (some t) a (List.count_pos_iff.2 kept)
      (Multiset.count_pos.2 mine)
    cases same
  · intro idle noneKept
    have nothing : ∀ t, s.own t = 0 := by
      intro t
      have plan := inv.plan t
      rw [idle t] at plan
      exact Option.some.inj plan
    have empty : s.pool.live = [] := by
      apply List.eq_nil_iff_forall_not_mem.2
      intro b hb
      obtain ⟨t, has⟩ := (inv.parts.covered _).1 ⟨b, hb, rfl⟩
      cases t with
      | none => simp [owns, noneKept] at has
      | some t => simp [owns, nothing] at has
    refine ⟨empty, ?_⟩
    have start := init_inv (T := T) built
    intro k
    refine inv.sound.freeAreas_perm start.sound inv.coalesced start.coalesced ?_ k
    intro b
    rw [empty]
    rfl

end Run

/-! A hash that cannot be read while another thread initialises. -/

section Example

def unreadHash : User := .tcNsSetNativeHash true 0 (some 8) (some (pageAddress 16)) false none
  { ret := 0, cmdId := 0, contextId := 0 }

def lateInit : User := .tcNsLateInit 0 (some (pageAddress 17)) { ret := 0, cmdId := 0, contextId := 0 }

theorem pool_shared_two_threads : ∃ s : Sys Bool,
    Reach (step fun _ _ => 0) (fun _ _ => True) (Sys.init (initZone 16)) s ∧ s.fault = false ∧
      s.pool.live = [] ∧ ∀ k, (s.pool.zone.freeAreas k).Perm ((initZone 16).freeAreas k) := by
  obtain ⟨s, run, left⟩ := reach_of_play (step (T := Bool) fun _ _ => 0) (fun _ _ => True)
    (fun s => decide ((∀ t, s.todo t = []) ∧ s.kept = [])) (Sys.init (initZone 16))
    [.begin false unreadHash, .alloc false 8 0, .begin true lateInit, .alloc true 4096 1,
      .free false, .other true, .free true] (by decide +kernel)
  obtain ⟨idle, noneKept⟩ := of_decide_eq_true left
  have built : mailboxMempoolInit true 16 false = some (initZone 16) := rfl
  obtain ⟨noFault, -, -, -, empty⟩ := pool_shared built run
  exact ⟨s, run, noFault, empty idle noneKept⟩

end Example

end MailboxUsers
