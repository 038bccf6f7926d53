import Tzdriver.AgentHandshake
import Tzdriver.FirstMatch

/-!
# The list of registered agents

`core/agent.c`: `g_agent_control.agent_list` and the functions that search it. Here a call
of one of these functions is one step, where `AgentHandshake` splits it into accesses to
the flags of one node. `waiting` counts the CAs that sleep in `wait_agent_response` on the
node, and an agent of the driver itself, whose record is not a client's device file, has
owner `none`.

`g_allowed_ext_agent_ca` is empty, so that `check_ext_agent_access` and
`is_third_party_agent` turn everybody down: only a process of root registers an agent, and
`tc_ns_unregister_agent` never removes one. A registration creates its node first and puts
it on the list when the TEE has accepted it, without a lock in between; `pending` has the
nodes in between.
-/

namespace AgentList

open FirstMatch
open AgentHandshake (Ready)

def agentMax : Nat := 32
def sz4K : Nat := 4096

/-- `struct smc_event_data`. -/
structure Agent (Dev : Type*) where
  agentId : Nat
  owner : Option Dev
  agentReady : Ready := .registered
  retFlag : Bool := false
  caRun : Bool := false
  waiting : Nat := 0
  deriving DecidableEq, Repr

inductive Act (Dev : Type*) where
  | register (owner : Option Dev) (agentId : Nat) (uid : Nat) (bufferSize : Nat)
  | registered (i : Nat) (accepted : Bool)
  | waitEvent (agentId : Nat) (uid : Nat)
  | sendResponse (agentId : Nat) (uid : Nat)
  | request (agentId : Nat)
  | caWake (i : Nat)
  | caKilled (i : Nat)
  deriving DecidableEq, Repr

structure Agents (Dev : Type*) where
  list : List (Agent Dev) := []
  pending : List (Agent Dev) := []
  deriving DecidableEq, Repr

section Model

variable {Dev : Type*}

def Agent.processSendEventResponse (n : Agent Dev) : Agent Dev :=
  if n.retFlag then { n with retFlag := false, caRun := true } else n

/-- What `send_event_response` does to the node it finds. -/
def Agent.crash (n : Agent Dev) : Agent Dev :=
  { n with agentReady := .crashed }.processSendEventResponse

def Agent.disown (n : Agent Dev) : Agent Dev := { n with owner := none }

def Agent.initRestartAgentNode (n : Agent Dev) (owner : Option Dev) : Agent Dev :=
  { n with retFlag := false, owner := owner, agentReady := .registered, caRun := false }

def sendEventResponse (id : Nat) (list : List (Agent Dev)) : List (Agent Dev) :=
  updateFirst (fun n => n.agentId = id) (·.crash) list

/-- `is_valid_agent`; a kernel agent's buffer may be larger. -/
def isValidAgent (owner : Option Dev) (uid bufferSize : Nat) : Bool :=
  uid = 0 && (owner.isNone || bufferSize ≤ sz4K)

/-- `tc_ns_register_agent` up to the call to the TEE. -/
def registerAgent (s : Agents Dev) (owner : Option Dev) (id : Nat) : Agents Dev :=
  match s.list.find? fun n => n.agentId = id with
  | none => { s with pending := s.pending ++ [{ agentId := id, owner := owner }] }
  | some n =>
    if n.agentReady ≠ .crashed then s
    else { s with
      list := updateFirst (fun n => n.agentId = id) (·.initRestartAgentNode owner) s.list }

def agentStep (s : Agents Dev) : Act Dev → Option (Agents Dev)
  | .register owner id uid size =>
    if isValidAgent owner uid size then some (registerAgent s owner id) else some s
  | .registered i accepted =>
    match s.pending[i]? with
    | none => none
    | some n =>
      some ⟨if accepted then s.list ++ [n] else s.list, s.pending.eraseIdx i⟩
  | .waitEvent id uid =>
    if uid = 0 then
      some { s with
        list := updateFirst (fun n => n.agentId = id) (fun n => { n with agentReady := .ready })
          s.list }
    else some s
  | .sendResponse id uid =>
    if uid = 0 then
      some { s with
        list := updateFirst (fun n => n.agentId = id) (·.processSendEventResponse) s.list }
    else some s
  -- `agent_process_work` up to the sleep
  | .request id =>
    match s.list.find? fun n => n.agentId = id with
    | none => some s
    | some n =>
      if n.agentReady = .crashed then some s
      else some { s with
        list := updateFirst (fun n => n.agentId = id)
          (fun n => { n with retFlag := true, waiting := n.waiting + 1 }) s.list }
  | .caWake i =>
    match s.list[i]? with
    | none => none
    | some n =>
      if n.waiting = 0 ∨ n.caRun = false then none
      else some { s with list := s.list.set i { n with caRun := false, waiting := n.waiting - 1 } }
  | .caKilled i =>
    match s.list[i]? with
    | none => none
    | some n =>
      if n.waiting = 0 ∨ n.caRun = true then none
      else some { s with
        list := s.list.set i
          { n with retFlag := false, caRun := false, waiting := n.waiting - 1 } }

variable [DecidableEq Dev]

def isSystemAgent (d : Dev) (list : List (Agent Dev)) : Bool :=
  list.any fun n => n.owner = some d

def sendEventResponseSingle (d : Dev) (list : List (Agent Dev)) : List (Agent Dev) :=
  match list.find? fun n => n.owner = some d with
  | some n => sendEventResponse n.agentId list
  | none => sendEventResponse 0 list

/-- The ids that `send_crashed_event_response_all` collects in its array. -/
def ownedIds (d : Dev) (list : List (Agent Dev)) : List Nat :=
  ((list.filter fun n => n.owner = some d).take agentMax).map (·.agentId)

def sendCrashedEventResponseAll (d : Dev) (list : List (Agent Dev)) : List (Agent Dev) :=
  ((ownedIds d list).filter (· ≠ 0)).foldl (fun l id => sendEventResponse id l) list

def teeAgentClearDevOwner (d : Dev) (list : List (Agent Dev)) : List (Agent Dev) :=
  updateFirst (fun n => n.owner = some d) (·.disown) list

/-- The responses that a close sends for the agents of a dead process, before
`free_dev`. -/
def respondFor (single : Bool) (d : Dev) (list : List (Agent Dev)) : List (Agent Dev) :=
  if single then sendEventResponseSingle d list else sendCrashedEventResponseAll d list

end Model

section Responses

variable {Dev : Type*} {d : Dev} {list before after : List (Agent Dev)} {n : Agent Dev} {id : Nat}

@[simp] theorem crash_owner (n : Agent Dev) : n.crash.owner = n.owner := by
  rw [Agent.crash, Agent.processSendEventResponse]
  split <;> rfl

@[simp] theorem crash_agentReady (n : Agent Dev) : n.crash.agentReady = .crashed := by
  rw [Agent.crash, Agent.processSendEventResponse]
  split <;> rfl

@[simp] theorem crash_caRun (n : Agent Dev) : n.crash.caRun = (n.retFlag || n.caRun) := by
  rw [Agent.crash, Agent.processSendEventResponse]
  split <;> simp_all

theorem sendEventResponse_owner :
    (sendEventResponse id list).map (·.owner) = list.map (·.owner) :=
  map_updateFirst fun n => by simp

theorem sendEventResponse_hit (missed : ∀ x ∈ before, x.agentId ≠ n.agentId) :
    sendEventResponse n.agentId (before ++ n :: after) =
      before ++ n.crash :: after := by
  rw [sendEventResponse, updateFirst_append_right fun x hx => by simpa using missed x hx]
  simp [updateFirst]

/-- An earlier node with the same id is the one that gets the response. -/
theorem sendEventResponse_missed (hit : ∃ x ∈ before, x.agentId = id) :
    ∃ other, other.length = before.length ∧
      sendEventResponse id (before ++ n :: after) = other ++ n :: after := by
  refine ⟨sendEventResponse id before, length_updateFirst, ?_⟩
  refine updateFirst_append_left ?_
  simpa using hit

variable [DecidableEq Dev] {single : Bool}

theorem respondFor_owner : (respondFor single d list).map (·.owner) = list.map (·.owner) := by
  have all : ∀ ids : List Nat, ∀ l : List (Agent Dev),
      (ids.foldl (fun l id => sendEventResponse id l) l).map (·.owner) = l.map (·.owner) := by
    intro ids
    induction ids with
    | nil => exact fun _ => rfl
    | cons id ids ih => exact fun l => (ih _).trans sendEventResponse_owner
  rw [respondFor]
  split
  · rw [sendEventResponseSingle]
    split <;> exact sendEventResponse_owner
  · exact all _ _

/-- How often `d` is an owner, as the loops count it. -/
def owned (d : Dev) (list : List (Agent Dev)) : Nat := list.countP fun n => n.owner = some d

theorem owned_respondFor : owned d (respondFor single d list) = owned d list := by
  have count : ∀ l : List (Agent Dev), owned d l = (l.map (·.owner)).countP (· = some d) := by
    intro l
    rw [List.countP_map]
    rfl
  rw [count, count, respondFor_owner]

theorem owned_clear : owned d (teeAgentClearDevOwner d list) = owned d list - 1 :=
  countP_updateFirst fun n => by simp [Agent.disown]

theorem owned_eq_zero : owned d list = 0 ↔ ∀ n ∈ list, n.owner ≠ some d := by
  simp [owned, List.countP_eq_zero]

/-- A node that is the only one of `d` gets its response, unless another node with its id
comes first or its id is 0 in `send_crashed_event_response_all`. -/
theorem respondFor_sole (mine : n.owner = some d) (left : ∀ x ∈ before, x.owner ≠ some d)
    (right : ∀ x ∈ after, x.owner ≠ some d) :
    respondFor single d (before ++ n :: after) =
      if single ∨ n.agentId ≠ 0 then sendEventResponse n.agentId (before ++ n :: after)
      else before ++ n :: after := by
  have found : (before ++ n :: after).find? (fun n => n.owner = some d) = some n := by
    rw [List.find?_append, List.find?_eq_none.2 (by simpa using left)]
    simp [mine]
  have ids : ownedIds d (before ++ n :: after) = [n.agentId] := by
    have none_left : before.filter (fun n => n.owner = some d) = [] := by simpa using left
    have none_right : after.filter (fun n => n.owner = some d) = [] := by simpa using right
    simp [ownedIds, List.filter_append, none_left, none_right, mine, agentMax]
  cases single with
  | true => simp [respondFor, sendEventResponseSingle, found]
  | false =>
    by_cases zero : n.agentId = 0
    · simp [respondFor, sendCrashedEventResponseAll, ids, zero]
    · simp [respondFor, sendCrashedEventResponseAll, ids, zero]

end Responses

section Close

variable {Dev : Type*} [DecidableEq Dev] {d : Dev} {list : List (Agent Dev)} {n : Agent Dev}
  {single : Bool}

/-- `d` owns one agent at most, the loops find it, and whoever sleeps on it has not been
forgotten by a restart. -/
def Releasable (single : Bool) (d : Dev) (list : List (Agent Dev)) : Prop :=
  owned d list ≤ 1 ∧ ∀ n ∈ list, n.owner = some d →
    (single = true ∨ n.agentId ≠ 0) ∧ list.find? (fun x => x.agentId = n.agentId) = some n ∧
      (n.waiting = 0 ∨ n.retFlag = true ∨ n.caRun = true)

instance (single : Bool) (d : Dev) (list : List (Agent Dev)) :
    Decidable (Releasable single d list) :=
  inferInstanceAs (Decidable (_ ∧ _))

/-- No node of `after` belongs to `d`; those that did are crashed and their CAs released. -/
structure Released (d : Dev) (before after : List (Agent Dev)) : Prop where
  owners : ∀ n ∈ after, n.owner ≠ some d
  crashed : ∀ (i : Nat) (n : Agent Dev), before[i]? = some n → n.owner = some d →
    ∃ n' : Agent Dev, after[i]? = some n' ∧ n'.agentReady = .crashed ∧
      (0 < n.waiting → n'.caRun = true)

theorem split_sole (one : owned d list ≤ 1) (mem : n ∈ list) (mine : n.owner = some d) :
    ∃ before after, list = before ++ n :: after ∧ (∀ x ∈ before, x.owner ≠ some d) ∧
      ∀ x ∈ after, x.owner ≠ some d := by
  obtain ⟨before, after, split, left, right⟩ := split_of_countP_le_one one mem (by simpa using mine)
  exact ⟨before, after, split, by simpa using left, by simpa using right⟩

theorem clear_agentReady :
    (teeAgentClearDevOwner d list).map (·.agentReady) = list.map (·.agentReady) :=
  map_updateFirst fun _ => rfl

theorem clear_sole {before after : List (Agent Dev)} (mine : n.owner = some d)
    (left : ∀ x ∈ before, x.owner ≠ some d) :
    teeAgentClearDevOwner d (before ++ n :: after) =
      before ++ n.disown :: after := by
  rw [teeAgentClearDevOwner, updateFirst_append_right fun x hx => by simpa using left x hx]
  simp [updateFirst, mine]

/-- What the close does to the list when `d` owns nothing but a node it can find. -/
theorem close_releasable (releasable : Releasable single d list) (mem : n ∈ list)
    (mine : n.owner = some d) :
    ∃ before after, list = before ++ n :: after ∧ (∀ x ∈ before, x.owner ≠ some d) ∧
      (∀ x ∈ after, x.owner ≠ some d) ∧
      teeAgentClearDevOwner d (respondFor single d list) = before ++ n.crash.disown :: after := by
  obtain ⟨one, found⟩ := releasable
  obtain ⟨reached, first, -⟩ := found n mem mine
  obtain ⟨before, after, rfl, left, right⟩ := split_sole one mem mine
  have missed : ∀ x ∈ before, x.agentId ≠ n.agentId := by
    intro x hx same
    rw [List.find?_append] at first
    cases hit : before.find? (fun x => x.agentId = n.agentId) with
    | none => simpa [same] using List.find?_eq_none.1 hit x hx
    | some y =>
      rw [hit, Option.some_or, Option.some.injEq] at first
      exact left y (List.mem_of_find?_eq_some hit) (first ▸ mine)
  refine ⟨before, after, rfl, left, right, ?_⟩
  rw [respondFor_sole mine left right, if_pos reached, sendEventResponse_hit missed]
  exact clear_sole (by simpa using mine) left

theorem released_of_none (none_ : ∀ n ∈ list, n.owner ≠ some d) :
    Released d list (teeAgentClearDevOwner d (respondFor single d list)) := by
  constructor
  · rw [← owned_eq_zero, owned_clear, owned_respondFor, owned_eq_zero.2 none_]
  · intro i n at_ mine
    exact absurd mine (none_ n (List.mem_of_getElem? at_))

theorem released_of_releasable (releasable : Releasable single d list) :
    Released d list (teeAgentClearDevOwner d (respondFor single d list)) := by
  by_cases some_ : ∃ n ∈ list, n.owner = some d
  · obtain ⟨n, mem, mine⟩ := some_
    have awake := (releasable.2 n mem mine).2.2
    obtain ⟨before, after, rfl, left, right, closed⟩ := close_releasable releasable mem mine
    rw [closed]
    constructor
    · intro x hx
      rcases List.mem_append.1 hx with old | new
      · exact left x old
      · rcases List.mem_cons.1 new with rfl | old
        · simp [Agent.disown]
        · exact right x old
    · intro i x at_ his
      have here : i = before.length := by
        by_contra elsewhere
        rcases Nat.lt_or_gt_of_ne elsewhere with low | high
        · rw [List.getElem?_append_left low] at at_
          exact left x (List.mem_of_getElem? at_) his
        · obtain ⟨k, rfl⟩ : ∃ k, i = before.length + (k + 1) := ⟨i - before.length - 1, by omega⟩
          rw [List.getElem?_append_right (by omega)] at at_
          simp only [Nat.add_sub_cancel_left, List.getElem?_cons_succ] at at_
          exact right x (List.mem_of_getElem? at_) his
      subst here
      obtain rfl : n = x := by simpa using at_
      refine ⟨n.crash.disown, by simp, crash_agentReady n, fun asleep => ?_⟩
      simp only [Agent.disown, crash_caRun, Bool.or_eq_true]
      exact awake.resolve_left (Nat.ne_of_gt asleep)
  · push Not at some_
    exact released_of_none some_

/-- The close touches no node but the one it releases. -/
theorem mem_close (releasable : Releasable single d list)
    (agent : single = true → isSystemAgent d list = true)
    (mem : n ∈ teeAgentClearDevOwner d (respondFor single d list)) :
    n.owner = none ∨ n ∈ list ∧ n.owner ≠ some d := by
  by_cases some_ : ∃ x ∈ list, x.owner = some d
  · obtain ⟨x, old, mine⟩ := some_
    obtain ⟨before, after, rfl, left, right, closed⟩ := close_releasable releasable old mine
    rw [closed] at mem
    rcases List.mem_append.1 mem with there | there
    · exact Or.inr ⟨List.mem_append_left _ there, left n there⟩
    · rcases List.mem_cons.1 there with rfl | later
      · exact Or.inl rfl
      · exact Or.inr ⟨List.mem_append_right _ (List.mem_cons_of_mem x later), right n later⟩
  · push Not at some_
    have notSingle : single = false := by
      cases single with
      | false => rfl
      | true =>
        obtain ⟨x, hx, mine⟩ : ∃ x ∈ list, x.owner = some d := by
          simpa [isSystemAgent] using agent rfl
        exact absurd mine (some_ x hx)
    have unowned : list.filter (fun n => n.owner = some d) = [] := by simpa using some_
    have untouched : respondFor single d list = list := by
      simp [respondFor, notSingle, sendCrashedEventResponseAll, ownedIds, unowned]
    rw [untouched, teeAgentClearDevOwner,
      updateFirst_of_none fun x hx => by simpa using some_ x hx] at mem
    exact Or.inr ⟨mem, some_ n mem⟩

/-- The close sets `d`'s agents right exactly when `Releasable`. -/
theorem released_iff (alive : ∀ n ∈ list, n.owner = some d → n.agentReady ≠ .crashed) :
    Released d list (teeAgentClearDevOwner d (respondFor single d list)) ↔
      Releasable single d list := by
  refine ⟨fun released => ?_, released_of_releasable⟩
  have one : owned d list ≤ 1 := by
    have none_left := owned_eq_zero.2 released.owners
    rw [owned_clear, owned_respondFor] at none_left
    omega
  refine ⟨one, fun n mem mine => ?_⟩
  obtain ⟨before, after, rfl, left, right⟩ := split_sole one mem mine
  obtain ⟨n', at_, crashed, run⟩ := released.crashed before.length n (by simp) mine
  rw [respondFor_sole mine left right] at at_
  by_cases reached : single = true ∨ n.agentId ≠ 0
  · rw [if_pos reached] at at_
    by_cases missed : ∃ x ∈ before, x.agentId = n.agentId
    · obtain ⟨other, same, response⟩ : ∃ other, other.length = before.length ∧
          sendEventResponse n.agentId (before ++ n :: after) = other ++ n :: after :=
        sendEventResponse_missed missed
      have ready := congrArg (Option.map Agent.agentReady) at_
      rw [response, ← List.getElem?_map, clear_agentReady, ← same] at ready
      have still : n.agentReady = n'.agentReady := by simpa using ready
      exact absurd (still.trans crashed) (alive n mem mine)
    · push Not at missed
      rw [sendEventResponse_hit missed, clear_sole (by simpa using mine) left] at at_
      obtain rfl : _ = n' := by simpa using at_
      refine ⟨reached, ?_, ?_⟩
      · rw [List.find?_append, List.find?_eq_none.2 (by simpa using missed)]
        simp
      · by_cases nobody : n.waiting = 0
        · exact Or.inl nobody
        · have set_ := run (Nat.pos_of_ne_zero nobody)
          simp only [Agent.disown, crash_caRun, Bool.or_eq_true] at set_
          exact Or.inr set_
  · rw [if_neg reached, clear_sole mine left] at at_
    obtain rfl : _ = n' := by simpa using at_
    exact absurd crashed (alive n mem mine)

end Close

end AgentList
