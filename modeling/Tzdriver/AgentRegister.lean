import Mathlib.Data.Finset.Basic
import Tzdriver.AgentList

/-!
# Registering an agent

`core/agent.c`, `tc_ns_register_agent`. The call either restarts the node of an agent whose
process has died or creates a node with a buffer of the mailbox. Here the nodes have their
buffers, which `AgentList` leaves out. The outcomes of the steps that can fail are inputs. A block
of the mailbox has a number that is never used again, and a node is known by its block. The
reference that the call takes on a node it reuses is dropped again on every way out.
-/

namespace AgentRegister

open FirstMatch
open AgentHandshake (Ready)

def ePerm : Int := -1
def eNoMem : Int := -12
def eInval : Int := -22
def sz4K : UInt32 := 4096

/-- `agent_buff_user`. -/
inductive UserBuff where
  | null
  | mapped (addr : Nat)
  | error
  deriving DecidableEq, Repr

/-- What the call stores in `*buffer`. -/
inductive Address where
  | kernel (block : Nat)
  | user (addr : Nat)
  deriving DecidableEq, Repr

/-- `struct smc_event_data`. -/
structure EventData (Dev : Type*) where
  agentId : UInt32
  owner : Option Dev
  agentReady : Ready
  retFlag : Bool
  caRun : Bool
  agentBuffKernel : Nat
  agentBuffSize : UInt32
  agentBuffUser : UserBuff
  deriving DecidableEq, Repr

/-- The agent list and the live blocks of the mailbox. -/
structure Registry (Dev : Type*) where
  list : List (EventData Dev) := []
  blocks : Finset Nat := ∅
  nextBlock : Nat := 0

/-- Every node on the list has a buffer of its own. -/
structure Agents (Dev : Type*) extends Registry Dev where
  distinct : (list.map (·.agentBuffKernel)).Nodup
  live : ∀ n ∈ list, n.agentBuffKernel ∈ blocks
  fresh : ∀ b ∈ blocks, b < nextBlock

/-- The arguments of `tc_ns_register_agent`; `dev` can be null. -/
structure Call (Dev : Type*) where
  devFile : Option Dev
  agentId : UInt32
  bufferSize : UInt32
  buffer : Bool
  userAgent : Bool
  uid : Nat
  deriving DecidableEq, Repr

/-- `register_agent_to_tee` without a command pack, and with the answer of the TEE. -/
inductive Tee where
  | noPack
  | refused
  | accepted
  deriving DecidableEq, Repr

structure Outcome where
  mailbox : Bool
  kzalloc : Bool
  userAddr : Option Nat
  tee : Tee
  deriving DecidableEq, Repr

structure Result (Dev : Type*) where
  ret : Int
  buffer : Option Address
  registry : Registry Dev

section Model

variable {Dev : Type*}

/-- `ALIGN(buffer_size, SZ_4K)` in 32 bits. -/
def align4K (size : UInt32) : UInt32 := (size + (sz4K - 1)) &&& ~~~(sz4K - 1)

/-- `is_valid_agent`; `check_ext_agent_access` turns everybody down. -/
def isValidAgent (c : Call Dev) : Bool :=
  if c.uid ≠ 0 then false
  else if c.userAgent ∧ c.bufferSize > sz4K then false
  else true

def mailboxAlloc (r : Registry Dev) : Registry Dev :=
  { r with blocks := insert r.nextBlock r.blocks, nextBlock := r.nextBlock + 1 }

def mailboxFree (r : Registry Dev) (block : Nat) : Registry Dev :=
  { r with blocks := r.blocks.erase block }

def EventData.initRestartAgentNode (n : EventData Dev) (devFile : Option Dev) : EventData Dev :=
  { n with retFlag := false, owner := devFile, agentReady := .registered, caRun := false }

def findEventControl (r : Registry Dev) (id : UInt32) : Option (EventData Dev) :=
  r.list.find? fun n => n.agentId = id

/-- `reuse_agent_node`; `none` is `-EINVAL`, the node is `*event_data` with `find_flag`. -/
def reuseAgentNode (r : Registry Dev) (id : UInt32) (devFile : Option Dev) :
    Option (Registry Dev × Option (EventData Dev)) :=
  match findEventControl r id with
  | none => some (r, none)
  | some n =>
    if n.agentReady ≠ .crashed then none
    else some ({ r with
      list := updateFirst (fun n => n.agentId = id) (·.initRestartAgentNode devFile) r.list },
      some (n.initRestartAgentNode devFile))

/-- `create_new_agent_node`; no node is `-ENOMEM`. -/
def createNewAgentNode (r : Registry Dev) (c : Call Dev) (mailbox kzalloc : Bool) :
    Registry Dev × Option (EventData Dev) :=
  if mailbox = false then (r, none)
  else
    let agentBuff := r.nextBlock
    let r := mailboxAlloc r
    if kzalloc = false then (mailboxFree r agentBuff, none)
    else
      (r, some {
        agentId := c.agentId, owner := c.devFile, agentReady := .registered, retFlag := false,
        caRun := false, agentBuffKernel := agentBuff, agentBuffSize := align4K c.bufferSize,
        agentBuffUser := .null })

/-- `get_agent_buffer` with what it stores in `*buffer`; nothing is `-EFAULT`. -/
def EventData.getAgentBuffer (n : EventData Dev) (userAgent : Bool) (userAddr : Option Nat) :
    EventData Dev × Option Address :=
  if userAgent then
    match userAddr with
    | some addr => ({ n with agentBuffUser := .mapped addr }, some (.user addr))
    | none => ({ n with agentBuffUser := .error }, none)
  else (n, some (.kernel n.agentBuffKernel))

/-- The write of `get_agent_buffer` to a node on the list. -/
def remap (r : Registry Dev) (block : Nat) (userAgent : Bool) (userAddr : Option Nat) :
    Registry Dev :=
  { r with
    list := updateFirst (fun n => n.agentBuffKernel = block)
      (fun n => (n.getAgentBuffer userAgent userAddr).1) r.list }

def registerAgentToTee : Tee → Int
  | .noPack => eNoMem
  | .refused => ePerm
  | .accepted => 0

def addEventNodeToList (r : Registry Dev) (n : EventData Dev) : Registry Dev :=
  { r with list := r.list ++ [n] }

def tcNsRegisterAgent (r : Registry Dev) (c : Call Dev) (o : Outcome) : Result Dev :=
  if c.buffer = false then ⟨eInval, none, r⟩
  else if isValidAgent c = false then ⟨eInval, none, r⟩
  else
    match reuseAgentNode r c.agentId c.devFile with
    | none => ⟨eInval, none, r⟩
    | some (r, some n) =>
      let r := remap r n.agentBuffKernel c.userAgent o.userAddr
      match (n.getAgentBuffer c.userAgent o.userAddr).2 with
      -- `ret` is what it was set to first
      | none => ⟨eInval, none, r⟩
      | some addr => ⟨0, some addr, r⟩
    | some (r, none) =>
      match createNewAgentNode r c o.mailbox o.kzalloc with
      | (r, none) => ⟨eNoMem, none, r⟩
      | (r, some n) =>
        match n.getAgentBuffer c.userAgent o.userAddr with
        -- `ret` is what `create_new_agent_node` returned
        | (n, none) => ⟨0, none, mailboxFree r n.agentBuffKernel⟩
        | (n, some addr) =>
          let ret := registerAgentToTee o.tee
          if ret ≠ 0 then ⟨ret, some addr, mailboxFree r n.agentBuffKernel⟩
          else ⟨0, some addr, addEventNodeToList r n⟩

/-- The address a caller of this kind gets. -/
def EventData.address (n : EventData Dev) (userAgent : Bool) : Option Address :=
  if userAgent then
    match n.agentBuffUser with
    | .mapped addr => some (.user addr)
    | .null | .error => none
  else some (.kernel n.agentBuffKernel)

/-- A node with its state and its owner. -/
def EventData.shape (n : EventData Dev) : Nat × UInt32 × Ready × Option Dev :=
  (n.agentBuffKernel, n.agentId, n.agentReady, n.owner)

/-- The registration that the caller is told of has happened. -/
structure Registered (c : Call Dev) (res : Result Dev) (n : EventData Dev) : Prop where
  listed : n ∈ res.registry.list
  agentId : n.agentId = c.agentId
  ready : n.agentReady = .registered
  owner : n.owner = c.devFile
  live : n.agentBuffKernel ∈ res.registry.blocks
  buffer : res.buffer = n.address c.userAgent
  mapped : res.buffer ≠ none

structure Unchanged (r r' : Registry Dev) : Prop where
  nodes : r'.list.map EventData.shape = r.list.map EventData.shape
  blocks : r'.blocks = r.blocks

/-- The call tells what it did. -/
structure Reported (r : Registry Dev) (c : Call Dev) (res : Result Dev) : Prop where
  done : res.ret = 0 → ∃ n, Registered c res n
  failed : res.ret ≠ 0 → Unchanged r res.registry

/-- The call gets as far as `get_agent_buffer`. -/
def Maps (r : Registry Dev) (c : Call Dev) (o : Outcome) : Prop :=
  c.buffer = true ∧ isValidAgent c = true ∧
    match findEventControl r c.agentId with
    | some n => n.agentReady = .crashed
    | none => o.mailbox = true ∧ o.kzalloc = true

end Model

section Reuse

variable {Dev : Type*} {r r' : Registry Dev} {n n' : EventData Dev} {c : Call Dev} {o : Outcome}

theorem getAgentBuffer_shape (userAgent : Bool) (userAddr : Option Nat) :
    (n.getAgentBuffer userAgent userAddr).1.shape = n.shape := by
  cases userAgent <;> cases userAddr <;> rfl

theorem getAgentBuffer_none {userAgent : Bool} {userAddr : Option Nat} :
    (n.getAgentBuffer userAgent userAddr).2 = none ↔ userAgent = true ∧ userAddr = none := by
  cases userAgent <;> cases userAddr <;> simp [EventData.getAgentBuffer]

theorem getAgentBuffer_address {userAgent : Bool} {userAddr : Option Nat}
    (given : ¬ (userAgent = true ∧ userAddr = none)) :
    (n.getAgentBuffer userAgent userAddr).2 =
      (n.getAgentBuffer userAgent userAddr).1.address userAgent := by
  cases userAgent <;> cases userAddr <;>
    simp_all [EventData.getAgentBuffer, EventData.address]

theorem remap_shape (block : Nat) (userAgent : Bool) (userAddr : Option Nat) :
    (remap r block userAgent userAddr).list.map EventData.shape = r.list.map EventData.shape :=
  map_updateFirst fun _ => getAgentBuffer_shape userAgent userAddr

theorem reuseAgentNode_eq_some {devFile : Option Dev} {id : UInt32}
    (reused : reuseAgentNode r id devFile = some (r', some n')) :
    ∃ n, findEventControl r id = some n ∧ n.agentReady = .crashed ∧
      n' = n.initRestartAgentNode devFile ∧ r' = { r with
        list := updateFirst (fun n => n.agentId = id) (·.initRestartAgentNode devFile) r.list } := by
  unfold reuseAgentNode at reused
  split at reused
  · cases reused
  · rename_i n found
    split at reused
    · cases reused
    · rename_i crashed
      cases reused
      exact ⟨n, found, not_not.mp crashed, rfl, rfl⟩

theorem restart_blocks {list : List (EventData Dev)} {devFile : Option Dev} {id : UInt32} :
    (updateFirst (fun n => n.agentId = id) (·.initRestartAgentNode devFile) list).map
      (·.agentBuffKernel) = list.map (·.agentBuffKernel) :=
  map_updateFirst fun _ => rfl

/-- The restarted node is found again by its block when the buffer is mapped. -/
theorem remap_mem {r : Agents Dev} {devFile : Option Dev} {id : UInt32}
    (reused : reuseAgentNode r.toRegistry id devFile = some (r', some n))
    (userAgent : Bool) (userAddr : Option Nat) :
    (n.getAgentBuffer userAgent userAddr).1 ∈
      (remap r' n.agentBuffKernel userAgent userAddr).list := by
  obtain ⟨m, found, _, rfl, rfl⟩ := reuseAgentNode_eq_some reused
  have restarted : m.initRestartAgentNode devFile ∈
      updateFirst (fun n => n.agentId = id) (·.initRestartAgentNode devFile) r.list :=
    mem_updateFirst_of_find found
  have distinct : ((updateFirst (fun n => n.agentId = id) (·.initRestartAgentNode devFile)
      r.list).map (·.agentBuffKernel)).Nodup := by
    rw [restart_blocks]
    exact r.distinct
  exact mem_updateFirst_of_find (find_eq_of_nodup distinct restarted)

/-- A restart shows in the state of the node. -/
theorem restart_changes {devFile : Option Dev} {id : UInt32}
    (reused : reuseAgentNode r id devFile = some (r', some n)) :
    r'.list.map EventData.shape ≠ r.list.map EventData.shape := by
  obtain ⟨m, found, crashed, rfl, rfl⟩ := reuseAgentNode_eq_some reused
  intro same
  have before : (r.list.map EventData.shape).find? (fun x => x.2.1 = id) = some m.shape := by
    rw [List.find?_map]
    exact congrArg (Option.map _) found
  have after : (r.list.map EventData.shape).find? (fun x => x.2.1 = id) =
      some (m.initRestartAgentNode devFile).shape := by
    have again : (updateFirst (fun n => n.agentId = id) (·.initRestartAgentNode devFile)
        r.list).find? (fun n => n.agentId = id) = some (m.initRestartAgentNode devFile) :=
      find_updateFirst (fun _ hit => hit) found
    rw [← same, List.find?_map]
    exact congrArg (Option.map _) again
  have ready : (m.initRestartAgentNode devFile).agentReady = m.agentReady := by
    have shapes := Option.some.inj (after.symm.trans before)
    exact congrArg (fun x => x.2.2.1) shapes
  rw [crashed] at ready
  cases ready

end Reuse

section Reported

variable {Dev : Type*} {r : Agents Dev} {c : Call Dev} {o : Outcome}

theorem Unchanged.refl (r : Registry Dev) : Unchanged r r := ⟨rfl, rfl⟩

theorem reported_refused {buffer : Option Address} {ret : Int} {r r' : Registry Dev}
    (error : ret ≠ 0) (same : Unchanged r r') : Reported r c ⟨ret, buffer, r'⟩ :=
  ⟨fun done => absurd done error, fun _ => same⟩

/-- The block of a registration that is given up was not live before. -/
theorem free_alloc {r : Registry Dev} (fresh : ∀ b ∈ r.blocks, b < r.nextBlock) :
    Unchanged r (mailboxFree (mailboxAlloc r) r.nextBlock) where
  nodes := rfl
  blocks := by
    refine Finset.erase_insert ?_
    intro used
    exact Nat.lt_irrefl _ (fresh _ used)

/-- With a node to reuse, the call reports what it did unless the mapping fails. -/
theorem reported_reuse {r' : Registry Dev} {n : EventData Dev}
    (reused : reuseAgentNode r.toRegistry c.agentId c.devFile = some (r', some n))
    (open_ : c.buffer = true) (valid : isValidAgent c = true) :
    Reported r.toRegistry c (tcNsRegisterAgent r.toRegistry c o) ↔
      ¬ (c.userAgent = true ∧ o.userAddr = none) := by
  have changed := restart_changes reused
  have mem := remap_mem reused c.userAgent o.userAddr
  simp only [tcNsRegisterAgent, open_, valid, reused, Bool.true_eq_false, if_false]
  by_cases failed : c.userAgent = true ∧ o.userAddr = none
  · rw [getAgentBuffer_none.mpr failed]
    refine iff_of_false ?_ (not_not.mpr failed)
    intro reported
    have same := (reported.failed (show eInval ≠ 0 by decide)).nodes
    rw [remap_shape] at same
    exact changed same
  · refine iff_of_true ?_ failed
    have address := getAgentBuffer_address (n := n) failed
    have shape := getAgentBuffer_shape (n := n) c.userAgent o.userAddr
    obtain ⟨m, found, _, rfl, rfl⟩ := reuseAgentNode_eq_some reused
    have id : m.agentId = c.agentId := by simpa using List.find?_some found
    have live : m.agentBuffKernel ∈ r.blocks := r.live m (List.mem_of_find?_eq_some found)
    split
    · rename_i none_
      exact absurd (getAgentBuffer_none.mp none_) failed
    · rename_i addr some_
      rw [some_] at address
      obtain ⟨block, agentId, ready, owner⟩ := by simpa [EventData.shape] using shape
      refine ⟨fun _ => ⟨_, mem, ?_, ?_, ?_, ?_, address, nofun⟩, fun error => absurd rfl error⟩
      · exact agentId.trans id
      · exact ready
      · exact owner
      · rw [block]
        exact live

theorem createNewAgentNode_some {r r' : Registry Dev} {n : EventData Dev} {mailbox kzalloc : Bool}
    (created : createNewAgentNode r c mailbox kzalloc = (r', some n)) :
    mailbox = true ∧ kzalloc = true ∧ r' = mailboxAlloc r ∧
      n.shape = (r.nextBlock, c.agentId, .registered, c.devFile) := by
  unfold createNewAgentNode at created
  split at created
  · cases created
  · rename_i allocated
    simp only at created
    split at created
    · cases created
    · rename_i kept
      cases created
      exact ⟨by simpa using allocated, by simpa using kept, rfl, rfl⟩

theorem createNewAgentNode_none {r r' : Registry Dev} {mailbox kzalloc : Bool}
    (fresh : ∀ b ∈ r.blocks, b < r.nextBlock)
    (failed : createNewAgentNode r c mailbox kzalloc = (r', none)) :
    ¬ (mailbox = true ∧ kzalloc = true) ∧ Unchanged r r' := by
  unfold createNewAgentNode at failed
  split at failed
  · rename_i no
    cases failed
    exact ⟨by simp [no], .refl _⟩
  · simp only at failed
    split at failed
    · rename_i no
      cases failed
      exact ⟨by simp [no], free_alloc fresh⟩
    · cases failed

/-- Without a node to reuse, the call reports what it did unless the mapping of its new node
fails, which the caller takes for success. -/
theorem reported_create (absent : findEventControl r.toRegistry c.agentId = none)
    (open_ : c.buffer = true) (valid : isValidAgent c = true) :
    Reported r.toRegistry c (tcNsRegisterAgent r.toRegistry c o) ↔
      ¬ ((o.mailbox = true ∧ o.kzalloc = true) ∧ c.userAgent = true ∧ o.userAddr = none) := by
  have reused : reuseAgentNode r.toRegistry c.agentId c.devFile = some (r.toRegistry, none) := by
    simp only [reuseAgentNode, absent]
  simp only [tcNsRegisterAgent, open_, valid, reused, Bool.true_eq_false, if_false]
  split
  · rename_i r' failed
    obtain ⟨failed, same⟩ := createNewAgentNode_none r.fresh failed
    refine iff_of_true (reported_refused (by decide) same) ?_
    rintro ⟨both, _⟩
    exact failed both
  · rename_i r' n created
    obtain ⟨mailbox, kzalloc, rfl, shape⟩ := createNewAgentNode_some created
    have kept := getAgentBuffer_shape (n := n) c.userAgent o.userAddr
    split
    · rename_i n' unmapped
      have failed : c.userAgent = true ∧ o.userAddr = none :=
        getAgentBuffer_none.mp (congrArg Prod.snd unmapped)
      refine iff_of_false ?_ (not_not.mpr ⟨⟨mailbox, kzalloc⟩, failed⟩)
      intro reported
      obtain ⟨m, registered⟩ := reported.done rfl
      have missed := List.find?_eq_none.mp absent m registered.listed
      exact missed (by simpa using registered.agentId)
    · rename_i n' addr mapped
      have given : ¬ (c.userAgent = true ∧ o.userAddr = none) := by
        intro failed
        rw [← getAgentBuffer_none (n := n), mapped] at failed
        cases failed
      have address := getAgentBuffer_address (n := n) given
      rw [mapped] at address kept
      obtain ⟨block, agentId, ready, owner⟩ : n'.agentBuffKernel = r.nextBlock ∧
          n'.agentId = c.agentId ∧ n'.agentReady = .registered ∧ n'.owner = c.devFile := by
        simpa [EventData.shape] using kept.trans shape
      refine iff_of_true ?_ (fun failed => given failed.2)
      split
      · rename_i error
        rw [block]
        exact reported_refused error (free_alloc r.fresh)
      · refine ⟨fun _ => ⟨n', ?_, agentId, ready, owner, ?_, address, nofun⟩,
          fun error => absurd rfl error⟩
        · exact List.mem_append_right _ (List.mem_singleton_self n')
        · rw [block]
          exact Finset.mem_insert_self _ _

/-- The call tells what it did, in success and in failure, exactly when it does not come to a
mapping that fails. -/
theorem registerAgent_reported_iff (r : Agents Dev) (c : Call Dev) (o : Outcome) :
    Reported r.toRegistry c (tcNsRegisterAgent r.toRegistry c o) ↔
      ¬ (Maps r.toRegistry c o ∧ c.userAgent = true ∧ o.userAddr = none) := by
  by_cases entered : c.buffer = true ∧ isValidAgent c = true
  · obtain ⟨open_, valid⟩ := entered
    cases found : findEventControl r.toRegistry c.agentId with
    | none =>
      rw [reported_create found open_ valid]
      simp only [Maps, open_, valid, found, true_and]
    | some n =>
      by_cases crashed : n.agentReady = .crashed
      · obtain ⟨r', n', reused⟩ : ∃ r' n',
            reuseAgentNode r.toRegistry c.agentId c.devFile = some (r', some n') := by
          simp [reuseAgentNode, found, crashed]
        rw [reported_reuse reused open_ valid]
        simp only [Maps, open_, valid, found, crashed, true_and]
      · have twice : reuseAgentNode r.toRegistry c.agentId c.devFile = none := by
          simp only [reuseAgentNode, found, ne_eq, crashed, not_false_eq_true, if_true]
        refine iff_of_true ?_ ?_
        · simp only [tcNsRegisterAgent, open_, valid, twice, Bool.true_eq_false, if_false]
          exact reported_refused (by decide) (.refl _)
        · rintro ⟨⟨_, _, maps⟩, _⟩
          rw [found] at maps
          exact crashed maps
  · refine iff_of_true ?_ (fun maps => entered ⟨maps.1.1, maps.1.2.1⟩)
    have refused : tcNsRegisterAgent r.toRegistry c o = ⟨eInval, none, r.toRegistry⟩ := by
      unfold tcNsRegisterAgent
      split
      · rfl
      · rename_i open_
        have invalid : isValidAgent c = false := by simpa [open_] using entered
        rw [if_pos invalid]
    rw [refused]
    exact reported_refused (by decide) (.refl _)

/-- The new agent's buffer cannot be mapped and the call returns 0 for an agent that is not
registered; a crashed agent's buffer cannot be mapped and the call fails with the node
restarted. -/
theorem unmapped_misreported :
    ¬ (∀ (r : Agents Nat) (c : Call Nat) (o : Outcome),
      (tcNsRegisterAgent r.toRegistry c o).ret = 0 →
        ∃ n, Registered c (tcNsRegisterAgent r.toRegistry c o) n) ∧
    ¬ (∀ (r : Agents Nat) (c : Call Nat) (o : Outcome),
      (tcNsRegisterAgent r.toRegistry c o).ret ≠ 0 →
        Unchanged r.toRegistry (tcNsRegisterAgent r.toRegistry c o).registry) := by
  constructor
  · intro all
    obtain ⟨n, registered⟩ := all ⟨{}, List.nodup_nil, nofun, nofun⟩
      ⟨some 1, 0x53, 4096, true, true, 0⟩ ⟨true, true, none, .accepted⟩ rfl
    cases registered.listed
  · intro all
    let node : EventData Nat := ⟨0x53, none, .crashed, false, false, 0, 4096, .mapped 7⟩
    have same := all ⟨⟨[node], {0}, 1⟩, List.nodup_singleton 0, by simp [node], by simp⟩
      ⟨some 1, 0x53, 4096, true, true, 0⟩ ⟨true, true, none, .accepted⟩ (by decide +kernel)
    exact absurd same.nodes (by decide +kernel)

end Reported

end AgentRegister
