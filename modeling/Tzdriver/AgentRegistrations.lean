import Mathlib.Data.Fintype.Basic
import Tzdriver.ActionSystem
import Tzdriver.AgentRegister

/-!
# Registrations at the same time

`core/agent.c`: any number of threads in `tc_ns_register_agent`. The search of
`reuse_agent_node` and the insertion of `add_event_node_to_list` are two critical sections, with
the allocations, the mapping and the call to the TEE between them. A node that was created belongs
to its call until it is on the list. Meanwhile agents crash, wait for requests and lose their
owners.
-/

namespace AgentRegister

open ActionSystem FirstMatch Function

/-- Where a thread is in `tc_ns_register_agent`. -/
inductive Pc (Dev : Type*) where
  | outside
  | creating (c : Call Dev)
  | mapping (c : Call Dev) (n : EventData Dev)
  | remapping (c : Call Dev) (block : Nat)
  | registering (n : EventData Dev)
  | adding (n : EventData Dev)
  deriving DecidableEq, Repr

inductive Act (T Dev : Type*) where
  | reuse (t : T) (c : Call Dev)
  | create (t : T) (mailbox kzalloc : Bool)
  | map (t : T) (userAddr : Option Nat)
  | tee (t : T) (reply : Tee)
  | add (t : T)
  | crash (id : UInt32)
  | waitEvent (id : UInt32)
  | clearOwner (d : Dev)
  deriving DecidableEq, Repr

structure Sys (T Dev : Type*) where
  registry : Registry Dev := {}
  calls : T → Pc Dev := fun _ => .outside

section Model

variable {T Dev : Type*}

/-- The node that a call has created and not yet put on the list. -/
def Pc.node : Pc Dev → Option (EventData Dev)
  | .mapping _ n | .registering n | .adding n => some n
  | .outside | .creating _ | .remapping _ _ => none

/-- The node that `register_agent_to_tee` is about. -/
def Pc.asked : Pc Dev → Option (EventData Dev)
  | .registering n => some n
  | _ => none

/-- The node that the TEE has accepted. -/
def Pc.accepted : Pc Dev → Option (EventData Dev)
  | .adding n => some n
  | _ => none

variable [DecidableEq T] [DecidableEq Dev]

def Sys.go (s : Sys T Dev) (t : T) (registry : Registry Dev) (pc : Pc Dev) : Sys T Dev :=
  ⟨registry, update s.calls t pc⟩

/-- A write to a node that a loop over the list finds first. -/
def Sys.write (s : Sys T Dev) (p : EventData Dev → Bool) (f : EventData Dev → EventData Dev) :
    Sys T Dev :=
  { s with registry := { s.registry with list := updateFirst p f s.registry.list } }

def step (s : Sys T Dev) : Act T Dev → Option (Sys T Dev)
  | .reuse t c =>
    match s.calls t with
    | .outside =>
      if c.buffer = false ∨ isValidAgent c = false then some s
      else
        match reuseAgentNode s.registry c.agentId c.devFile with
        | none => some s
        | some (r, some n) => some (s.go t r (.remapping c n.agentBuffKernel))
        | some (r, none) => some (s.go t r (.creating c))
    | _ => none
  | .create t mailbox kzalloc =>
    match s.calls t with
    | .creating c =>
      match createNewAgentNode s.registry c mailbox kzalloc with
      | (r, none) => some (s.go t r .outside)
      | (r, some n) => some (s.go t r (.mapping c n))
    | _ => none
  | .map t userAddr =>
    match s.calls t with
    | .mapping c n =>
      match n.getAgentBuffer c.userAgent userAddr with
      | (n, none) => some (s.go t (mailboxFree s.registry n.agentBuffKernel) .outside)
      | (n, some _) => some (s.go t s.registry (.registering n))
    | .remapping c block => some (s.go t (remap s.registry block c.userAgent userAddr) .outside)
    | _ => none
  | .tee t reply =>
    match s.calls t with
    | .registering n =>
      if registerAgentToTee reply ≠ 0 then
        some (s.go t (mailboxFree s.registry n.agentBuffKernel) .outside)
      else some (s.go t s.registry (.adding n))
    | _ => none
  | .add t =>
    match s.calls t with
    | .adding n => some (s.go t (addEventNodeToList s.registry n) .outside)
    | _ => none
  -- `send_event_response`
  | .crash id =>
    some (s.write (fun n => n.agentId = id) fun n =>
      { n with agentReady := .crashed, caRun := n.caRun || n.retFlag, retFlag := false })
  -- `tc_ns_wait_event`
  | .waitEvent id =>
    some (s.write (fun n => n.agentId = id) fun n => { n with agentReady := .ready })
  -- `tee_agent_clear_dev_owner`
  | .clearOwner d => some (s.write (fun n => n.owner = some d) fun n => { n with owner := none })

/-- Of the registrations of one id, the TEE accepts one only while no other is on the list or
about to be. -/
def AcceptsOnce (s : Sys T Dev) : Act T Dev → Prop
  | .tee t .accepted => ∀ n ∈ (s.calls t).asked,
      (∀ m ∈ s.registry.list, m.agentId ≠ n.agentId) ∧
        ∀ u, ∀ m ∈ (s.calls u).accepted, m.agentId ≠ n.agentId
  | _ => True

/-- The id for which a call makes a node. -/
def Pc.making : Pc Dev → Option UInt32
  | .creating c => some c.agentId
  | .mapping _ n | .registering n | .adding n => some n.agentId
  | .outside | .remapping _ _ => none

/-- Registrations do not overlap: one begins only while no other call makes a node for its id. -/
def StartsAlone (s : Sys T Dev) : Act T Dev → Prop
  | .reuse t c => ∀ u, u ≠ t → (s.calls u).making ≠ some c.agentId
  | _ => True

instance [Fintype T] (s : Sys T Dev) : (a : Act T Dev) → Decidable (AcceptsOnce s a)
  | .tee t .accepted => inferInstanceAs (Decidable (∀ n ∈ (s.calls t).asked,
      (∀ m ∈ s.registry.list, m.agentId ≠ n.agentId) ∧
        ∀ u, ∀ m ∈ (s.calls u).accepted, m.agentId ≠ n.agentId))
  | .tee _ .noPack | .tee _ .refused | .reuse .. | .create .. | .map .. | .add .. | .crash ..
  | .waitEvent .. | .clearOwner .. => isTrue trivial

end Model

section Moves

variable {T Dev : Type*} {r r' : Registry Dev} {n : EventData Dev}

def Pc.block (pc : Pc Dev) : Option Nat := pc.node.map (·.agentBuffKernel)

def Registry.buffers (r : Registry Dev) : List Nat := r.list.map (·.agentBuffKernel)

/-- The list has the same nodes, perhaps in another state, and the same blocks are live. -/
structure SameNodes (r r' : Registry Dev) : Prop where
  ids : r'.list.map (·.agentId) = r.list.map (·.agentId)
  buffers : r'.buffers = r.buffers
  blocks : (∀ b ∈ r.blocks, b < r.nextBlock) → r'.blocks = r.blocks
  next : r.nextBlock ≤ r'.nextBlock

theorem SameNodes.refl (r : Registry Dev) : SameNodes r r :=
  ⟨rfl, rfl, fun _ => rfl, Nat.le_refl _⟩

theorem sameNodes_of_list {f : EventData Dev → EventData Dev} {p : EventData Dev → Bool}
    (id : ∀ n, (f n).agentId = n.agentId)
    (block : ∀ n, (f n).agentBuffKernel = n.agentBuffKernel) :
    SameNodes r { r with list := updateFirst p f r.list } :=
  ⟨map_updateFirst id, map_updateFirst block, fun _ => rfl, Nat.le_refl _⟩

theorem reuseAgentNode_same {id : UInt32} {devFile : Option Dev} {n : Option (EventData Dev)}
    (reused : reuseAgentNode r id devFile = some (r', n)) : SameNodes r r' := by
  unfold reuseAgentNode at reused
  split at reused
  · cases reused
    exact .refl r
  · split at reused
    · cases reused
    · cases reused
      exact sameNodes_of_list (fun _ => rfl) (fun _ => rfl)

theorem reuseAgentNode_absent {id : UInt32} {devFile : Option Dev}
    (reused : reuseAgentNode r id devFile = some (r', none)) : ∀ m ∈ r.list, m.agentId ≠ id := by
  unfold reuseAgentNode at reused
  split at reused
  · rename_i absent
    intro m mem same
    exact List.find?_eq_none.1 absent m mem (decide_eq_true same)
  · split at reused
    · cases reused
    · cases reused

theorem createNewAgentNode_same {c : Call Dev} {mailbox kzalloc : Bool}
    (failed : createNewAgentNode r c mailbox kzalloc = (r', none)) : SameNodes r r' := by
  unfold createNewAgentNode at failed
  split at failed
  · cases failed
    exact .refl r
  · simp only at failed
    split at failed
    · cases failed
      exact ⟨rfl, rfl, fun fresh => (free_alloc fresh).blocks, Nat.le_succ _⟩
    · cases failed

theorem getAgentBuffer_block (userAgent : Bool) (userAddr : Option Nat) :
    (n.getAgentBuffer userAgent userAddr).1.agentBuffKernel = n.agentBuffKernel :=
  congrArg Prod.fst (getAgentBuffer_shape (n := n) userAgent userAddr)

theorem remap_same (block : Nat) (userAgent : Bool) (userAddr : Option Nat) :
    SameNodes r (remap r block userAgent userAddr) := by
  refine sameNodes_of_list ?_ ?_
  · intro n
    exact congrArg (fun x => x.2.1) (getAgentBuffer_shape (n := n) userAgent userAddr)
  · intro n
    exact getAgentBuffer_block userAgent userAddr

variable [DecidableEq T] [DecidableEq Dev]

/-- What a step can do: nothing, or a thread goes on with the block it has or without one, takes a
block or frees its own, has its node accepted or puts it on the list; or a node changes. -/
inductive Moves (s : Sys T Dev) : Act T Dev → Sys T Dev → Prop
  | idle (a : Act T Dev) : Moves s a s
  | go (a : Act T Dev) (t : T) (r : Registry Dev) (pc : Pc Dev) (same : SameNodes s.registry r)
      (kept : ∀ b, pc.block = some b → (s.calls t).block = some b) (notYet : pc.accepted = none) :
      Moves s a (s.go t r pc)
  | alloc (a : Act T Dev) (t : T) (c : Call Dev) (n : EventData Dev)
      (block : n.agentBuffKernel = s.registry.nextBlock) :
      Moves s a (s.go t (mailboxAlloc s.registry) (.mapping c n))
  | free (a : Act T Dev) (t : T) (b : Nat) (holds : (s.calls t).block = some b) :
      Moves s a (s.go t (mailboxFree s.registry b) .outside)
  | accept (t : T) (n : EventData Dev) (registering : s.calls t = .registering n) :
      Moves s (.tee t .accepted) (s.go t s.registry (.adding n))
  | add (t : T) (n : EventData Dev) (adding : s.calls t = .adding n) :
      Moves s (.add t) (s.go t (addEventNodeToList s.registry n) .outside)
  | write (a : Act T Dev) (p : EventData Dev → Bool) (f : EventData Dev → EventData Dev)
      (id : ∀ n, (f n).agentId = n.agentId)
      (block : ∀ n, (f n).agentBuffKernel = n.agentBuffKernel) : Moves s a (s.write p f)

theorem step_moves {s s' : Sys T Dev} {a : Act T Dev} (moved : step s a = some s') :
    Moves s a s' := by
  cases a with
  | reuse t c =>
    simp only [step] at moved
    split at moved
    · split at moved
      · cases moved
        exact .idle _
      · split at moved
        · cases moved
          exact .idle _
        · rename_i r n reused
          cases moved
          exact .go _ t r _ (reuseAgentNode_same reused) nofun rfl
        · rename_i r reused
          cases moved
          exact .go _ t r _ (reuseAgentNode_same reused) nofun rfl
    · cases moved
  | create t mailbox kzalloc =>
    simp only [step] at moved
    split at moved
    · rename_i c creating
      split at moved
      · rename_i r failed
        cases moved
        exact .go _ t r _ (createNewAgentNode_same failed) nofun rfl
      · rename_i r n created
        cases moved
        obtain ⟨_, _, rfl, shape⟩ := createNewAgentNode_some created
        exact .alloc _ t c n (congrArg Prod.fst shape)
    · cases moved
  | map t userAddr =>
    simp only [step] at moved
    split at moved
    · rename_i c n mapping
      have same := getAgentBuffer_block (n := n) c.userAgent userAddr
      have holds : (s.calls t).block = some n.agentBuffKernel := by rw [mapping]; rfl
      split at moved
      · rename_i n' unmapped
        cases moved
        rw [unmapped] at same
        exact .free _ t _ (by rw [holds, same])
      · rename_i n' addr mapped
        cases moved
        rw [mapped] at same
        refine .go _ t _ _ (.refl _) ?_ rfl
        intro b has
        rw [holds, ← same]
        exact has
    · cases moved
      exact .go _ t _ _ (remap_same _ _ _) nofun rfl
    · cases moved
  | tee t reply =>
    simp only [step] at moved
    split at moved
    · rename_i n registering
      have holds : (s.calls t).block = some n.agentBuffKernel := by rw [registering]; rfl
      cases reply with
      | noPack =>
        cases moved
        exact .free _ t _ holds
      | refused =>
        cases moved
        exact .free _ t _ holds
      | accepted =>
        cases moved
        exact .accept t n registering
    · cases moved
  | add t =>
    simp only [step] at moved
    split at moved
    · rename_i n adding
      cases moved
      exact .add t n adding
    · cases moved
  | crash id =>
    cases moved
    exact .write _ _ _ (fun _ => rfl) (fun _ => rfl)
  | waitEvent id =>
    cases moved
    exact .write _ _ _ (fun _ => rfl) (fun _ => rfl)
  | clearOwner d =>
    cases moved
    exact .write _ _ _ (fun _ => rfl) (fun _ => rfl)

end Moves

section Unique

variable {T Dev : Type*} {s s' : Sys T Dev}

/-- The ids of the list and of the nodes that come to it. -/
structure Unique (s : Sys T Dev) : Prop where
  ids : (s.registry.list.map (·.agentId)).Nodup
  apart : ∀ t n, (s.calls t).accepted = some n →
    ∀ id ∈ s.registry.list.map (·.agentId), id ≠ n.agentId
  exclusive : Exclusive (fun pc : Pc Dev => pc.accepted.map (·.agentId)) s.calls

theorem init_unique : Unique ({} : Sys T Dev) := ⟨List.nodup_nil, nofun, nofun⟩

theorem Unique.write {p : EventData Dev → Bool} {f : EventData Dev → EventData Dev}
    (unique : Unique s) (same : ∀ n, (f n).agentId = n.agentId) : Unique (s.write p f) := by
  have ids : (s.write p f).registry.list.map (·.agentId) =
      s.registry.list.map (·.agentId) := map_updateFirst same
  refine ⟨?_, ?_, unique.exclusive⟩
  · rw [ids]
    exact unique.ids
  · rw [ids]
    exact unique.apart

variable [DecidableEq T]

/-- A step that leaves the ids of the list alone and does not end with a node for it. -/
theorem Unique.go {t : T} {r : Registry Dev} {pc : Pc Dev} (unique : Unique s)
    (same : r.list.map (·.agentId) = s.registry.list.map (·.agentId))
    (none_ : pc.accepted = none) : Unique (s.go t r pc) where
  ids := by
    change (r.list.map _).Nodup
    rw [same]
    exact unique.ids
  apart := by
    intro u n accepted
    change (update s.calls t pc u).accepted = some n at accepted
    change ∀ id ∈ r.list.map _, _
    by_cases mine : u = t
    · rw [mine, update_self, none_] at accepted
      cases accepted
    · rw [update_of_ne mine] at accepted
      rw [same]
      exact unique.apart u n accepted
  exclusive := by
    refine unique.exclusive.shrink ?_
    intro id has
    rw [none_] at has
    cases has

theorem Unique.accept {t : T} {n : EventData Dev} (unique : Unique s)
    (absent : ∀ m ∈ s.registry.list, m.agentId ≠ n.agentId)
    (sole : ∀ u, ∀ m ∈ (s.calls u).accepted, m.agentId ≠ n.agentId) :
    Unique (s.go t s.registry (.adding n)) where
  ids := unique.ids
  apart := by
    intro u m accepted
    change (update s.calls t (.adding n) u).accepted = some m at accepted
    by_cases mine : u = t
    · rw [mine, update_self] at accepted
      obtain rfl := Option.some.inj accepted
      intro id mem
      obtain ⟨m, listed, rfl⟩ := List.mem_map.mp mem
      exact absent m listed
    · rw [update_of_ne mine] at accepted
      exact unique.apart u m accepted
  exclusive := by
    refine unique.exclusive.update ?_
    intro id has u _ other
    obtain rfl : n.agentId = id := Option.some.inj has
    obtain ⟨m, accepted, same⟩ := Option.map_eq_some_iff.mp other
    exact sole u m accepted same

theorem Unique.add {t : T} {n : EventData Dev} (unique : Unique s) (adding : s.calls t = .adding n) :
    Unique (s.go t (addEventNodeToList s.registry n) .outside) := by
  have own : (s.calls t).accepted = some n := by rw [adding]; rfl
  refine ⟨?_, ?_, ?_⟩
  · change ((s.registry.list ++ [n]).map _).Nodup
    rw [List.map_append, List.nodup_append]
    refine ⟨unique.ids, List.nodup_singleton _, ?_⟩
    intro id mem id' mine
    rw [List.map_singleton, List.mem_singleton] at mine
    rw [mine]
    exact unique.apart t n own id mem
  · intro u m accepted
    change (update s.calls t .outside u).accepted = some m at accepted
    change ∀ id ∈ (s.registry.list ++ [n]).map _, _
    by_cases mine : u = t
    · rw [mine, update_self] at accepted
      cases accepted
    · rw [update_of_ne mine] at accepted
      intro id mem
      rw [List.map_append, List.mem_append] at mem
      rcases mem with old | new
      · exact unique.apart u m accepted id old
      · rw [List.map_singleton, List.mem_singleton] at new
        intro same
        have both : n.agentId = m.agentId := new.symm.trans same
        refine mine (unique.exclusive u t m.agentId ?_ ?_)
        · exact congrArg (Option.map _) accepted
        · exact (congrArg (Option.map _) own).trans (congrArg some both)
  · refine unique.exclusive.shrink ?_
    intro id has
    cases has

variable [DecidableEq Dev]

theorem step_unique {a : Act T Dev} (unique : Unique s) (once : AcceptsOnce s a)
    (moved : step s a = some s') : Unique s' := by
  cases step_moves moved with
  | idle => exact unique
  | go _ t r pc same kept notYet => exact unique.go same.ids notYet
  | alloc _ t c n block => exact unique.go rfl rfl
  | free _ t b holds => exact unique.go rfl rfl
  | accept t n registering =>
    obtain ⟨absent, sole⟩ := once n (by rw [registering]; rfl)
    exact unique.accept absent sole
  | add t n adding => exact unique.add adding
  | write _ p f id block => exact unique.write id

/-- Every node on the list is the one that its id finds. -/
structure Found (s : Sys T Dev) : Prop where
  ids : (s.registry.list.map (·.agentId)).Nodup
  found : ∀ n ∈ s.registry.list, findEventControl s.registry n.agentId = some n

theorem step_add {t : T} {n : EventData Dev} (adding : s.calls t = .adding n) :
    step s (.add t) = some (s.go t (addEventNodeToList s.registry n) .outside) := by
  simp only [step, adding]

/-- A node that is accepted while its id is on the list comes to stand there beside it. -/
theorem add_twice {t : T} {m n : EventData Dev} (adding : s.calls t = .adding n)
    (mem : m ∈ s.registry.list) (same : m.agentId = n.agentId) :
    ∃ s', Reach step (fun _ _ => True) s s' ∧ ¬ Found s' := by
  refine ⟨_, .single ⟨_, trivial, step_add adding⟩, ?_⟩
  rintro ⟨ids, _⟩
  change ((s.registry.list ++ [n]).map _).Nodup at ids
  rw [List.map_append, List.nodup_append] at ids
  exact ids.2.2 _ (List.mem_map_of_mem mem) _ (List.mem_singleton_self _) same

/-- A second acceptance puts the id on the list twice. -/
theorem accepted_twice {a : Act T Dev} (again : ¬ AcceptsOnce s a) (moved : step s a = some s') :
    ∃ s'', Reach step (fun _ _ => True) s' s'' ∧ ¬ Found s'' := by
  unfold AcceptsOnce at again
  split at again
  · rename_i t
    simp only [not_forall] at again
    obtain ⟨n, asked, twice⟩ := again
    have registering : s.calls t = .registering n := by
      unfold Pc.asked at asked
      split at asked
      · rename_i pc
        rw [pc, Option.some.inj asked]
      · cases asked
    obtain rfl : s' = s.go t s.registry (.adding n) := by
      simp only [step, registering] at moved
      exact (Option.some.inj moved).symm
    have adding : (s.go t s.registry (.adding n)).calls t = .adding n := update_self ..
    by_cases listed : ∃ m ∈ s.registry.list, m.agentId = n.agentId
    · obtain ⟨m, mem, same⟩ := listed
      exact add_twice adding mem same
    · obtain ⟨u, m, accepted, same⟩ : ∃ u m, (s.calls u).accepted = some m ∧
          m.agentId = n.agentId := by
        by_contra none_
        refine twice ⟨fun m mem same => listed ⟨m, mem, same⟩, ?_⟩
        intro u m accepted same
        exact none_ ⟨u, m, accepted, same⟩
      have other : u ≠ t := by
        rintro rfl
        rw [registering] at accepted
        cases accepted
      have ready : (s.go t s.registry (.adding n)).calls u = .adding m := by
        change update s.calls t _ u = _
        rw [update_of_ne other]
        unfold Pc.accepted at accepted
        split at accepted
        · rename_i pc
          rw [pc, Option.some.inj accepted]
        · cases accepted
      -- the other node is inserted first
      have first := step_add ready
      have still : ((s.go t s.registry (.adding n)).go u
          (addEventNodeToList s.registry m) .outside).calls t = .adding n := by
        change update (update s.calls t _) u _ t = _
        rw [update_of_ne other.symm, update_self]
      have mem : m ∈ (addEventNodeToList s.registry m).list :=
        List.mem_append_right _ (List.mem_singleton_self m)
      obtain ⟨s'', run, lost⟩ := add_twice still mem same
      exact ⟨s'', .head ⟨_, trivial, first⟩ run, lost⟩
  · exact absurd trivial again

/-! ### Registrations that do not overlap -/

/-- An id for which a node is made is not on the list, and one call makes it. -/
structure Separate (s : Sys T Dev) : Prop where
  absent : ∀ t id, (s.calls t).making = some id → ∀ m ∈ s.registry.list, m.agentId ≠ id
  exclusive : Exclusive Pc.making s.calls

omit [DecidableEq T] [DecidableEq Dev] in
theorem init_separate : Separate ({} : Sys T Dev) := ⟨nofun, nofun⟩

omit [DecidableEq T] [DecidableEq Dev] in
theorem Separate.write {p : EventData Dev → Bool} {f : EventData Dev → EventData Dev}
    (separate : Separate s) (same : ∀ n, (f n).agentId = n.agentId) : Separate (s.write p f) := by
  refine ⟨fun t id makes m mem => ?_, separate.exclusive⟩
  have ids : (s.write p f).registry.list.map (·.agentId) = s.registry.list.map (·.agentId) :=
    map_updateFirst same
  have listed : m.agentId ∈ s.registry.list.map (·.agentId) := by
    rw [← ids]
    exact List.mem_map_of_mem mem
  obtain ⟨m', mem', same'⟩ := List.mem_map.1 listed
  rw [← same']
  exact separate.absent t id makes m' mem'

omit [DecidableEq Dev] in
/-- A call goes on with the id it has or without one, or begins with one that nobody has. -/
theorem Separate.go {t : T} {r : Registry Dev} {pc : Pc Dev} (separate : Separate s)
    (same : r.list.map (·.agentId) = s.registry.list.map (·.agentId))
    (kept : ∀ id, pc.making = some id → (s.calls t).making = some id ∨
      (∀ m ∈ s.registry.list, m.agentId ≠ id) ∧ ∀ u, u ≠ t → (s.calls u).making ≠ some id) :
    Separate (s.go t r pc) := by
  have listed : ∀ m ∈ r.list, ∃ m' ∈ s.registry.list, m'.agentId = m.agentId := by
    intro m mem
    have there : m.agentId ∈ s.registry.list.map (·.agentId) := by
      rw [← same]
      exact List.mem_map_of_mem mem
    exact List.mem_map.1 there
  constructor
  · intro u id makes m mem
    change (update s.calls t pc u).making = some id at makes
    obtain ⟨m', mem', same'⟩ := listed m mem
    rw [← same']
    by_cases mine : u = t
    · rw [mine, update_self] at makes
      rcases kept id makes with before | ⟨absent, -⟩
      · exact separate.absent t id before m' mem'
      · exact absent m' mem'
    · rw [update_of_ne mine] at makes
      exact separate.absent u id makes m' mem'
  · refine separate.exclusive.update ?_
    intro id makes u other has
    rcases kept id makes with before | ⟨-, alone⟩
    · exact other (separate.exclusive u t id has before)
    · exact alone u other has

omit [DecidableEq Dev] in
/-- A node that comes to the list takes its id away from its call. -/
theorem Separate.add {t : T} {n : EventData Dev} (separate : Separate s)
    (adding : s.calls t = .adding n) :
    Separate (s.go t (addEventNodeToList s.registry n) .outside) := by
  have own : (s.calls t).making = some n.agentId := by rw [adding]; rfl
  refine ⟨?_, separate.exclusive.shrink nofun⟩
  intro u id makes m mem
  change (update s.calls t .outside u).making = some id at makes
  by_cases mine : u = t
  · rw [mine, update_self] at makes
    cases makes
  · rw [update_of_ne mine] at makes
    rcases List.mem_append.1 mem with old | new
    · exact separate.absent u id makes m old
    · rintro rfl
      rw [List.mem_singleton.1 new] at makes
      exact mine (separate.exclusive u t _ makes own)

theorem step_separate {a : Act T Dev} (separate : Separate s) (alone : StartsAlone s a)
    (moved : step s a = some s') : Separate s' := by
  cases a with
  | reuse t c =>
    simp only [step] at moved
    split at moved
    · split at moved
      · cases moved
        exact separate
      · split at moved
        · cases moved
          exact separate
        · rename_i r n reused
          cases moved
          exact separate.go (reuseAgentNode_same reused).ids nofun
        · rename_i r reused
          cases moved
          refine separate.go (reuseAgentNode_same reused).ids ?_
          rintro _ ⟨⟩
          exact .inr ⟨reuseAgentNode_absent reused, alone⟩
    · cases moved
  | create t mailbox kzalloc =>
    simp only [step] at moved
    split at moved
    · rename_i c creating
      split at moved
      · rename_i r failed
        cases moved
        exact separate.go (createNewAgentNode_same failed).ids nofun
      · rename_i r n created
        cases moved
        obtain ⟨_, _, rfl, shape⟩ := createNewAgentNode_some created
        have id : n.agentId = c.agentId := congrArg (fun x => x.2.1) shape
        refine separate.go rfl ?_
        rintro _ ⟨⟩
        refine .inl ?_
        rw [creating, id]
        rfl
    · cases moved
  | map t userAddr =>
    simp only [step] at moved
    split at moved
    · rename_i c n mapping
      have same : (n.getAgentBuffer c.userAgent userAddr).1.agentId = n.agentId :=
        congrArg (fun x => x.2.1) (getAgentBuffer_shape (n := n) c.userAgent userAddr)
      split at moved
      · cases moved
        exact separate.go rfl nofun
      · rename_i n' addr mapped
        cases moved
        rw [mapped] at same
        refine separate.go rfl ?_
        rintro _ ⟨⟩
        refine .inl ?_
        rw [mapping, same]
        rfl
    · cases moved
      exact separate.go (remap_same _ _ _).ids nofun
    · cases moved
  | tee t reply =>
    simp only [step] at moved
    split at moved
    · rename_i n registering
      split at moved
      · cases moved
        exact separate.go rfl nofun
      · cases moved
        refine separate.go rfl ?_
        intro id makes
        refine .inl ?_
        rw [registering]
        exact makes
    · cases moved
  | add t =>
    simp only [step] at moved
    split at moved
    · rename_i n adding
      cases moved
      exact separate.add adding
    · cases moved
  | crash id =>
    cases moved
    exact separate.write fun _ => rfl
  | waitEvent id =>
    cases moved
    exact separate.write fun _ => rfl
  | clearOwner d =>
    cases moved
    exact separate.write fun _ => rfl

omit [DecidableEq T] [DecidableEq Dev] in
/-- Registrations that do not overlap are accepted one at a time. -/
theorem Separate.acceptsOnce {a : Act T Dev} (separate : Separate s) : AcceptsOnce s a := by
  unfold AcceptsOnce
  split
  · rename_i t
    intro n asked
    have makes : (s.calls t).making = some n.agentId := by
      unfold Pc.asked at asked
      split at asked
      · rename_i pc
        rw [pc, Option.some.inj asked]
        rfl
      · cases asked
    refine ⟨separate.absent t _ makes, fun u m accepted same => ?_⟩
    have other : (s.calls u).making = some n.agentId := by
      unfold Pc.accepted at accepted
      split at accepted
      · rename_i pc
        rw [pc, ← same, Option.some.inj accepted]
        rfl
      · cases accepted
    -- the same thread is not asked about its node and has it accepted
    rw [separate.exclusive u t _ other makes] at accepted
    unfold Pc.accepted at accepted
    unfold Pc.asked at asked
    split at accepted
    · rename_i pc
      rw [pc] at asked
      cases asked
    · cases accepted
  · trivial

/-- Where the TEE accepts one registration of an id at a time, no id is on the list twice. A step
that breaks this leads to a list that has an id twice. Registrations that do not overlap do not
break it. -/
theorem registrations_unique {s : Sys T Dev} (run : Reach step AcceptsOnce {} s) :
    Found s ∧ (∀ a s', step s a = some s' → ¬ AcceptsOnce s a →
      ∃ s'', Reach step (fun _ _ => True) s' s'' ∧ ¬ Found s'') ∧
    ∀ s' : Sys T Dev, Reach step StartsAlone {} s' → Reach step AcceptsOnce {} s' := by
  have unique : Unique s := by
    refine run.invariant init_unique ?_
    intro s a s' unique once moved
    exact step_unique unique once moved
  refine ⟨⟨unique.ids, ?_⟩, ?_, ?_⟩
  · intro n mem
    exact find_eq_of_nodup unique.ids mem
  · intro a s' moved again
    exact accepted_twice again moved
  · intro s' alone
    refine alone.restrict init_separate ?_ fun s a separate _ => separate.acceptsOnce
    intro s a s' separate alone moved
    exact step_separate separate alone moved

/-- Both processes find no node, the TEE accepts the first registration only. -/
theorem registrations_unique_refused : ∃ s : Sys Bool Nat, Reach step AcceptsOnce {} s ∧
    s.registry.list.length = 1 ∧ Found s := by
  let c : Call Nat := ⟨some 1, 0x53, 4096, true, true, 0⟩
  obtain ⟨s, run, last⟩ := reach_of_play step AcceptsOnce
    (fun s : Sys Bool Nat => s.registry.list.length = 1) {}
    [.reuse true c, .reuse false c, .create true true true, .create false true true,
      .map true (some 7), .map false (some 8), .tee true .accepted, .add true,
      .tee false .refused] (by decide +kernel)
  exact ⟨s, run, of_decide_eq_true last, (registrations_unique run).1⟩

/-- Both processes find no node and the TEE accepts both. -/
theorem overlapping_duplicate :
    ¬ ∀ s : Sys Bool Nat, Reach step (fun _ _ => True) {} s →
      (s.registry.list.map (·.agentId)).Nodup := by
  intro all
  let c : Call Nat := ⟨some 1, 0x53, 4096, true, true, 0⟩
  obtain ⟨s, run, last⟩ := reach_of_play step (fun _ _ => True)
    (fun s : Sys Bool Nat => s.registry.list.map (·.agentId) = [0x53, 0x53]) {}
    [.reuse true c, .reuse false c, .create true true true, .create false true true,
      .map true (some 7), .map false (some 8), .tee true .accepted, .tee false .accepted,
      .add true, .add false] (by decide +kernel)
  have unique := all s run
  rw [of_decide_eq_true last] at unique
  revert unique
  decide

end Unique

section Blocks

variable {T Dev : Type*} {s s' : Sys T Dev} {t : T} {r : Registry Dev} {pc : Pc Dev}

/-- Every node, on the list or on its way, has a live block of its own. -/
structure Sound (s : Sys T Dev) : Prop where
  distinct : s.registry.buffers.Nodup
  live : ∀ b ∈ s.registry.buffers, b ∈ s.registry.blocks
  fresh : ∀ b ∈ s.registry.blocks, b < s.registry.nextBlock
  held : ∀ t b, (s.calls t).block = some b →
    b ∈ s.registry.blocks ∧ b ∉ s.registry.buffers
  exclusive : Exclusive Pc.block s.calls

theorem init_sound : Sound ({} : Sys T Dev) :=
  ⟨List.nodup_nil, nofun, by simp, nofun, nofun⟩

theorem Sound.write {p : EventData Dev → Bool} {f : EventData Dev → EventData Dev}
    (sound : Sound s) (same : ∀ n, (f n).agentBuffKernel = n.agentBuffKernel) :
    Sound (s.write p f) := by
  have buffers : (s.write p f).registry.buffers = s.registry.buffers := map_updateFirst same
  refine ⟨?_, ?_, sound.fresh, ?_, sound.exclusive⟩
  · rw [buffers]
    exact sound.distinct
  · rw [buffers]
    exact sound.live
  · rw [buffers]
    exact sound.held

variable [DecidableEq T]

/-- A call goes on with the block it has, or without one. -/
theorem Sound.go (sound : Sound s) (buffers : r.buffers = s.registry.buffers)
    (blocks : r.blocks = s.registry.blocks) (next : s.registry.nextBlock ≤ r.nextBlock)
    (kept : ∀ b, pc.block = some b → (s.calls t).block = some b) : Sound (s.go t r pc) where
  distinct := by
    change r.buffers.Nodup
    rw [buffers]
    exact sound.distinct
  live := by
    change ∀ b ∈ r.buffers, b ∈ r.blocks
    rw [buffers, blocks]
    exact sound.live
  fresh := by
    intro b mem
    change b ∈ r.blocks at mem
    rw [blocks] at mem
    exact (sound.fresh b mem).trans_le next
  held := by
    intro u b has
    change (update s.calls t pc u).block = some b at has
    change b ∈ r.blocks ∧ b ∉ r.buffers
    rw [blocks, buffers]
    by_cases mine : u = t
    · rw [mine, update_self] at has
      exact sound.held t b (kept b has)
    · rw [update_of_ne mine] at has
      exact sound.held u b has
  exclusive := sound.exclusive.shrink kept

theorem Sound.alloc (sound : Sound s) (takes : pc.block = some s.registry.nextBlock) :
    Sound (s.go t (mailboxAlloc s.registry) pc) := by
  have unused : s.registry.nextBlock ∉ s.registry.blocks := by
    intro used
    exact Nat.lt_irrefl _ (sound.fresh _ used)
  refine ⟨sound.distinct, ?_, ?_, ?_, ?_⟩
  · intro b mem
    exact Finset.mem_insert_of_mem (sound.live b mem)
  · intro b mem
    change b < s.registry.nextBlock + 1
    rcases Finset.mem_insert.mp mem with rfl | old
    · omega
    · have := sound.fresh b old
      omega
  · intro u b has
    change (update s.calls t pc u).block = some b at has
    by_cases mine : u = t
    · rw [mine, update_self, takes] at has
      obtain rfl := Option.some.inj has
      exact ⟨Finset.mem_insert_self _ _, fun mem => unused (sound.live _ mem)⟩
    · rw [update_of_ne mine] at has
      obtain ⟨live, apart⟩ := sound.held u b has
      exact ⟨Finset.mem_insert_of_mem live, apart⟩
  · refine sound.exclusive.update ?_
    intro b has u _ other
    rw [takes] at has
    obtain rfl := Option.some.inj has
    exact unused (sound.held u _ other).1

theorem Sound.free {b : Nat} (sound : Sound s) (holds : (s.calls t).block = some b) :
    Sound (s.go t (mailboxFree s.registry b) .outside) := by
  obtain ⟨_, apart⟩ := sound.held t b holds
  refine ⟨sound.distinct, ?_, ?_, ?_, ?_⟩
  · intro b' mem
    refine Finset.mem_erase.mpr ⟨?_, sound.live b' mem⟩
    rintro rfl
    exact apart mem
  · intro b' mem
    exact sound.fresh b' (Finset.mem_of_mem_erase mem)
  · intro u b' has
    change (update s.calls t .outside u).block = some b' at has
    by_cases mine : u = t
    · rw [mine, update_self] at has
      cases has
    · rw [update_of_ne mine] at has
      obtain ⟨live, apart⟩ := sound.held u b' has
      refine ⟨Finset.mem_erase.mpr ⟨?_, live⟩, apart⟩
      rintro rfl
      exact mine (sound.exclusive u t b' has holds)
  · exact sound.exclusive.shrink nofun

theorem Sound.add {n : EventData Dev} (sound : Sound s) (adding : s.calls t = .adding n) :
    Sound (s.go t (addEventNodeToList s.registry n) .outside) := by
  have holds : (s.calls t).block = some n.agentBuffKernel := by rw [adding]; rfl
  obtain ⟨live, apart⟩ := sound.held t _ holds
  have buffers : (addEventNodeToList s.registry n).buffers =
      s.registry.buffers ++ [n.agentBuffKernel] := List.map_append
  refine ⟨?_, ?_, sound.fresh, ?_, ?_⟩
  · change (addEventNodeToList s.registry n).buffers.Nodup
    rw [buffers, List.nodup_append]
    refine ⟨sound.distinct, List.nodup_singleton _, ?_⟩
    rintro b mem b' mine rfl
    rw [List.mem_singleton.mp mine] at mem
    exact apart mem
  · change ∀ b ∈ (addEventNodeToList s.registry n).buffers, _
    rw [buffers]
    intro b mem
    rcases List.mem_append.mp mem with old | new
    · exact sound.live b old
    · rw [List.mem_singleton.mp new]
      exact live
  · intro u b has
    change (update s.calls t .outside u).block = some b at has
    change b ∈ s.registry.blocks ∧ b ∉ (addEventNodeToList s.registry n).buffers
    by_cases mine : u = t
    · rw [mine, update_self] at has
      cases has
    · rw [update_of_ne mine] at has
      obtain ⟨live, apart⟩ := sound.held u b has
      refine ⟨live, ?_⟩
      rw [buffers, List.mem_append, List.mem_singleton]
      rintro (old | rfl)
      · exact apart old
      · exact mine (sound.exclusive u t _ has holds)
  · exact sound.exclusive.shrink nofun

variable [DecidableEq Dev]

theorem step_sound {a : Act T Dev} (sound : Sound s) (moved : step s a = some s') : Sound s' := by
  cases step_moves moved with
  | idle => exact sound
  | go _ t r pc same kept notYet =>
    exact sound.go same.buffers (same.blocks sound.fresh) same.next kept
  | alloc _ t c n block => exact sound.alloc (congrArg some block)
  | free _ t b holds => exact sound.free holds
  | accept t n registering =>
    refine sound.go rfl rfl (Nat.le_refl _) ?_
    intro b has
    rw [registering]
    exact has
  | add t n adding => exact sound.add adding
  | write _ p f id block => exact sound.write block

/-- What any registrations lead to is a list whose nodes have their buffers. -/
theorem reach_agents (run : Reach step (fun _ _ => True) {} s) :
    ∃ r : Agents Dev, r.toRegistry = s.registry := by
  have sound : Sound s := by
    refine run.invariant init_sound ?_
    intro s a s' sound _ moved
    exact step_sound sound moved
  refine ⟨⟨s.registry, sound.distinct, ?_, sound.fresh⟩, rfl⟩
  intro n mem
  exact sound.live _ (List.mem_map_of_mem mem)

end Blocks

section Alone

variable {T Dev : Type*} [DecidableEq T] {s : Sys T Dev} {t : T} {r r' : Registry Dev}
variable {pc pc' : Pc Dev}

@[simp] theorem go_calls : (s.go t r pc).calls t = pc := update_self ..

@[simp] theorem go_registry : (s.go t r pc).registry = r := rfl

@[simp] theorem go_go : (s.go t r pc).go t r' pc' = s.go t r' pc' := by
  simp [Sys.go]

theorem go_self (outside : s.calls t = .outside) : s.go t s.registry .outside = s := by
  rw [Sys.go, ← outside, update_eq_self]

variable [DecidableEq Dev]

/-- Without other threads the steps of a call make up `tc_ns_register_agent`. -/
theorem reach_tcNsRegisterAgent (outside : s.calls t = .outside) (c : Call Dev) (o : Outcome) :
    Reach step (fun _ _ => True) s
      (s.go t (tcNsRegisterAgent s.registry c o).registry .outside) := by
  unfold tcNsRegisterAgent
  split
  · exact (go_self outside).symm ▸ .refl
  · rename_i open_
    split
    · exact (go_self outside).symm ▸ .refl
    · rename_i valid
      split
      · exact (go_self outside).symm ▸ .refl
      · rename_i r n reused
        have first : step s (.reuse t c) = some (s.go t r (.remapping c n.agentBuffKernel)) := by
          simp [step, outside, open_, valid, reused]
        have second : step (s.go t r (.remapping c n.agentBuffKernel)) (.map t o.userAddr) =
            some (s.go t (remap r n.agentBuffKernel c.userAgent o.userAddr) .outside) := by
          simp [step]
        have run : Reach step (fun _ _ => True) s
            (s.go t (remap r n.agentBuffKernel c.userAgent o.userAddr) .outside) :=
          Relation.ReflTransGen.head ⟨_, trivial, first⟩ (.single ⟨_, trivial, second⟩)
        split <;> exact run
      · rename_i r absent
        have first : step s (.reuse t c) = some (s.go t r (.creating c)) := by
          simp [step, outside, open_, valid, absent]
        refine Relation.ReflTransGen.head ⟨_, trivial, first⟩ ?_
        split
        · rename_i r' failed
          have second : step (s.go t r (.creating c)) (.create t o.mailbox o.kzalloc) =
              some (s.go t r' .outside) := by
            simp [step, failed]
          exact .single ⟨_, trivial, second⟩
        · rename_i r' n created
          have second : step (s.go t r (.creating c)) (.create t o.mailbox o.kzalloc) =
              some (s.go t r' (.mapping c n)) := by
            simp [step, created]
          refine Relation.ReflTransGen.head ⟨_, trivial, second⟩ ?_
          split
          · rename_i n' unmapped
            have third : step (s.go t r' (.mapping c n)) (.map t o.userAddr) =
                some (s.go t (mailboxFree r' n'.agentBuffKernel) .outside) := by
              simp [step, unmapped]
            exact .single ⟨_, trivial, third⟩
          · rename_i n' addr mapped
            have third : step (s.go t r' (.mapping c n)) (.map t o.userAddr) =
                some (s.go t r' (.registering n')) := by
              simp [step, mapped]
            refine Relation.ReflTransGen.head ⟨_, trivial, third⟩ ?_
            simp only
            split
            · rename_i refused
              have fourth : step (s.go t r' (.registering n')) (.tee t o.tee) =
                  some (s.go t (mailboxFree r' n'.agentBuffKernel) .outside) := by
                simp [step, refused]
              exact .single ⟨_, trivial, fourth⟩
            · rename_i accepted
              have fourth : step (s.go t r' (.registering n')) (.tee t o.tee) =
                  some (s.go t r' (.adding n')) := by
                simp [step, accepted]
              have fifth : step (s.go t r' (.adding n')) (.add t) =
                  some (s.go t (addEventNodeToList r' n') .outside) := by
                simp [step]
              exact Relation.ReflTransGen.head ⟨_, trivial, fourth⟩ (.single ⟨_, trivial, fifth⟩)

end Alone

end AgentRegister
