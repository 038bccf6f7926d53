import Tzdriver.DeviceClose
import Tzdriver.SessionFrames

/-!
# What a close leaves behind

A close leaves nothing of its device behind when the sessions of the device are closed on
the way, the device owns one agent at most, and the loops of `core/agent.c` reach that
agent; the condition is `Clean`. In a run where every close so far was clean the tables
stay in order, and a further close leaves nothing behind exactly when it is clean itself.
-/

namespace DeviceClose

open Function ActionSystem AgentList RefLedger
open SessionManager hiding Sys Act step

variable {Dev Uuid Tid : Type*}

section Tables

variable {m m' : Heap Dev Uuid Tid} {h : Tid → Held Dev Uuid} {t : Tid} {d : Dev}

/-- A device that is not open owns no session. -/
theorem not_owner_of_gone (inv : Inv m h) (gone : m.calls d = none) {v : ServicePtr}
    {e : SessionPtr} (listed : e ∈ m.sessionList v) : m.owner e ≠ some d := by
  intro mine
  obtain ⟨c, i, owner, slot⟩ := inv.listed_slot listed
  obtain rfl := Option.some.inj (owner.symm.trans mine)
  obtain ⟨steady, empty⟩ := inv.gone c gone
  rw [slot_of_steady steady, empty i] at slot
  cases slot

/-- A table entry of a device without calls has a session. -/
theorem session_of_slot (inv : Inv m h) (quiet : m.calls d = some 0) (steady : m.closing d = none)
    {i : Fin servicesMaxCount} {v : ServicePtr} (slot : m.services d i = some v) :
    ∃ e ∈ m.sessionList v, m.owner e = some d := by
  have counted := inv.dev.exact (d, v) _ (inv.counted steady slot)
  have pos := (inv.refs d i v steady slot).1
  have some_ : {r | devRef m h r = some (d, v)}.Nonempty := by
    rw [← Set.encard_ne_zero, counted]
    exact_mod_cast pos.ne'
  obtain ⟨r, held⟩ := some_
  cases r with
  | call u =>
    have onDev := (inv.threads.shape u).devRef d v held
    exact absurd onDev (inv.call.none_of_zero quiet u)
  | session w e =>
    by_cases listed : e ∈ m.sessionList w
    · simp only [Set.mem_ofPred_eq, devRef, listed, if_true] at held
      obtain ⟨c, owner, same⟩ := Option.map_eq_some_iff.1 held
      obtain ⟨rfl, rfl⟩ := Prod.mk.inj same
      exact ⟨e, listed, (Option.filter_eq_some_iff.1 owner).1⟩
    · simp [devRef, listed] at held

variable [DecidableEq Dev] [DecidableEq Tid]

/-- `close_session_thread_fn` goes through an empty table without a change. -/
theorem scan_empty (inv : Inv m h) (hx : h t = {}) (quiet : m.calls d = some 0)
    (steady : m.closing d = none) (empty : ∀ i, m.services d i = none) (index : Nat)
    (bound : index ≤ servicesMaxCount) :
    Inv (m.setClosing d index) (update h t { fd := some (d, .scan) }) := by
  induction index with
  | zero =>
    exact inv.release hx quiet steady rfl (.of_refs rfl) (by constructor <;> simp)
      (heldOk_fd (update_self _ _ _) trivial (Or.inl rfl))
  | succ index ih =>
    have scanned : (m.setClosing d index).setClosing d (index + 1) = m.setClosing d (index + 1) := by
      simp [Heap.setClosing]
    have next := (ih (Nat.le_of_succ_le bound)).skip (update_self _ _ _) rfl
      (show (m.setClosing d index).closing d = some index from update_self _ _ _)
      (i := ⟨index, bound⟩) rfl (empty _) (.of_refs rfl)
      (y := { fd := some (d, .scan) }) (by constructor <;> simp)
      (heldOk_fd (update_self _ _ _) trivial (Or.inl rfl))
    rw [scanned] at next
    exact next.chain

/-- Freeing a device that refers to nothing. -/
theorem freeDev_inv (inv : Inv m h) (hx : h t = {}) (quiet : m.calls d = some 0)
    (steady : m.closing d = none) (empty : ∀ i, m.services d i = none) : Inv (m.freeDev d) h := by
  have scanned := scan_empty inv hx quiet steady empty servicesMaxCount le_rfl
  have same : (m.setClosing d servicesMaxCount).freeDev d = m.freeDev d := by
    simp [Heap.setClosing, Heap.freeDev]
  have freed := scanned.freeDev (y := {}) (update_self _ _ _) rfl (update_self _ _ _) le_rfl
    (.of_refs rfl) (by constructor <;> simp) heldOk_refs
  rw [same, update_idem, ← hx, update_eq_self] at freed
  exact freed

end Tables

section Open

variable {m m' : Heap Dev Uuid Tid} {t : Tid} {c d : Dev} {v : ServicePtr} {e : SessionPtr}

variable [DecidableEq Dev]

theorem enter_isSome : ((m.enter d).calls c).isSome = (m.calls c).isSome := by
  by_cases hc : c = d
  · subst hc
    simp [Heap.enter]
  · simp [Heap.enter, hc]

theorem leave_isSome : ((m.leave d).calls c).isSome = (m.calls c).isSome := by
  by_cases hc : c = d
  · subst hc
    simp [Heap.leave]
  · simp [Heap.leave, hc]

theorem afterDel_isSome {k : Undo} :
    ((afterDel m d v k : Heap Dev Uuid Tid × Pc Dev Uuid).1.calls c).isSome =
      (m.calls c).isSome := by
  cases k with
  | noSession => exact leave_isSome
  | freeSession | close => rfl

variable [DecidableEq Uuid]

/-- Only the end of `close_session_thread_fn` takes a device away. -/
theorem run_isSome {pc next : Pc Dev Uuid} {env : Env} (moved : run m t env pc = some (m', next))
    (open_ : (m.calls c).isSome)
    (going : pc = .fdSlot c → ∀ index, m.closing c = some index → index < servicesMaxCount) :
    (m'.calls c).isSome := by
  cases pc with
  | fdSlot d =>
    simp only [run] at moved
    split at moved
    · cases moved
    · rename_i index closing
      by_cases last : index < servicesMaxCount
      · rw [dif_pos last] at moved
        grind [Heap.setClosing]
      · rw [dif_neg last, Option.some.injEq, Prod.mk.injEq] at moved
        have other : c ≠ d := by
          rintro rfl
          exact last (going rfl index closing)
        rw [← moved.1]
        simpa [Heap.freeDev, other] using open_
  | _ =>
    simp only [run] at moved
    grind [getService_dev, putServiceStruct_dev, getSession_dev, putSessionStruct_dev,
      leave_isSome, afterDel_isSome, Heap.setServiceLock, Heap.setEntry, Heap.setRef,
      Heap.setOperationLock, Heap.tcNsServiceInit, Heap.newSession, Heap.kfreeSession,
      Heap.initNewSessNode, Heap.listDel, Heap.setClosing]

theorem startOpen_isSome {u : Uuid} :
    ((startOpen m t d u).1.calls c).isSome = (m.calls c).isSome := by
  rw [startOpen]
  grind [enter_isSome, Heap.setRef, Heap.setServiceLock]

theorem startFound_isSome {u : Uuid} {next : ServicePtr → Pc Dev Uuid} :
    ((startFound m d u next).1.calls c).isSome = (m.calls c).isSome := by
  rw [startFound]
  grind [enter_isSome, getService_dev]

variable [DecidableEq Tid] {s s' : SessionManager.Sys Dev Uuid Tid}
  {a : SessionManager.Act Dev Uuid Tid}

theorem step_isSome (moved : SessionManager.step s a = some s') (open_ : (s.heap.calls c).isSome)
    (going : ∀ t env, a = .run t env → finishing s t ≠ some c) : (s'.heap.calls c).isSome := by
  cases a with
  | run t env =>
    have notLast := going t env rfl
    simp only [SessionManager.step] at moved
    split at moved
    · obtain rfl := Option.some.inj moved
      exact open_
    · obtain ⟨⟨m', next⟩, ran, rfl⟩ := Option.map_eq_some_iff.1 moved
      refine run_isSome ran open_ fun at_ index closing => ?_
      by_contra last
      simp [finishing, at_, closing, last] at notLast
  | openDev d =>
    simp only [SessionManager.step] at moved
    split at moved
    · obtain rfl := Option.some.inj moved
      by_cases hc : c = d
      · simp [Heap.openDev, hc]
      · simpa [Heap.openDev, hc] using open_
    · cases moved
  | openSession t d u =>
    simp only [SessionManager.step] at moved
    grind [startOpen_isSome, SessionManager.Sys.go, SessionManager.Sys.setFault]
  | closeSession t d u id | sendCmd t d u id =>
    simp only [SessionManager.step] at moved
    grind [startFound_isSome, SessionManager.Sys.go, SessionManager.Sys.setFault]
  | release t d =>
    simp only [SessionManager.step] at moved
    grind [SessionManager.Sys.go, Heap.setClosing]

omit [DecidableEq Dev] [DecidableEq Uuid] [DecidableEq Tid] in
theorem finishing_closing (last : finishing s t = some d) :
    ∃ index, s.heap.closing d = some index := by
  simp only [finishing] at last
  grind

/-- The last step of `close_session_thread_fn` and the free. -/
theorem finishing_step {env : Env} (inv : Inv s.heap s.held) (last : finishing s t = some d)
    (moved : SessionManager.step s (.run t env) = some s') : s'.heap = s.heap.freeDev d := by
  simp only [SessionManager.step] at moved
  rw [inv.bad_false rfl, if_neg Bool.false_ne_true] at moved
  simp only [finishing] at last
  split at last
  · rename_i c at_
    split at last
    · rename_i index closing
      split at last
      · cases last
      · rename_i done
        obtain rfl := Option.some.inj last
        obtain ⟨⟨m', next⟩, ran, rfl⟩ := Option.map_eq_some_iff.1 moved
        simp only [at_, run, closing, dif_neg done, Option.some.injEq, Prod.mk.injEq] at ran
        exact ran.1.symm
    · cases last
  · cases last

end Open

section Runs

variable [DecidableEq Dev] {s s' : Sys Dev Uuid Tid} {d : Dev} {m : Heap Dev Uuid Tid}

/-- A node belongs to an open device only, and is not crashed then. -/
def NodeOk (m : Heap Dev Uuid Tid) (n : Agent Dev) : Prop :=
  ∀ d, n.owner = some d → (m.calls d).isSome ∧ n.agentReady ≠ .crashed

structure Good (s : Sys Dev Uuid Tid) : Prop where
  inv : Inv s.tables.heap s.tables.held
  list : ∀ n ∈ s.agents.list, NodeOk s.tables.heap n
  pending : ∀ n ∈ s.agents.pending, NodeOk s.tables.heap n
  steady : ∀ n ∈ s.agents.pending, ∀ d, n.owner = some d → s.tables.heap.closing d = none

omit [DecidableEq Dev] in
theorem agentStep_pending {g g' : Agents Dev} {a : AgentList.Act Dev}
    (moved : agentStep g a = some g') {n : Agent Dev} (mem : n ∈ g'.pending) :
    n ∈ g.pending ∨ ∃ id uid size, a = .register n.owner id uid size := by
  cases a with
  | register o id uid size =>
    by_cases mine : n.owner = o
    · exact Or.inr ⟨id, uid, size, by rw [mine]⟩
    · simp only [agentStep, registerAgent] at moved
      grind
  | registered i accepted =>
    simp only [agentStep] at moved
    split at moved
    · cases moved
    · obtain rfl := Option.some.inj moved
      exact Or.inl (List.mem_of_mem_eraseIdx mem)
  | _ =>
    simp only [agentStep] at moved
    grind

omit [DecidableEq Dev] in
theorem agentStep_list {g g' : Agents Dev} {a : AgentList.Act Dev}
    (list : ∀ n ∈ g.list, NodeOk m n) (pending : ∀ n ∈ g.pending, NodeOk m n)
    (owner : ∀ d id uid size, a = .register (some d) id uid size → (m.calls d).isSome)
    (moved : agentStep g a = some g') :
    (∀ n ∈ g'.list, NodeOk m n) ∧ ∀ n ∈ g'.pending, NodeOk m n := by
  have change : ∀ (p : Agent Dev → Bool) (f : Agent Dev → Agent Dev),
      (∀ n, NodeOk m n → NodeOk m (f n)) → ∀ n ∈ FirstMatch.updateFirst p f g.list, NodeOk m n := by
    intro p f kept n mem
    rcases FirstMatch.mem_updateFirst mem with old | ⟨x, old, -, rfl⟩
    · exact list n old
    · exact kept x (list x old)
  have replace : ∀ (i : Nat) (n x : Agent Dev), g.list[i]? = some n → (NodeOk m n → NodeOk m x) →
      ∀ y ∈ g.list.set i x, NodeOk m y := by
    intro i n x at_ kept y mem
    rcases List.mem_or_eq_of_mem_set mem with old | rfl
    · exact list y old
    · exact kept (list n (List.mem_of_getElem? at_))
  cases a with
  | register o id uid size =>
    have new : ∀ n : Agent Dev, n.owner = o → n.agentReady = .registered → NodeOk m n := by
      intro n his ready d hd
      refine ⟨owner d id uid size (by rw [← hd, his]), by simp [ready]⟩
    simp only [agentStep] at moved
    split at moved
    · obtain rfl := Option.some.inj moved
      rw [registerAgent]
      split
      · refine ⟨list, fun n mem => ?_⟩
        rcases List.mem_append.1 mem with old | added
        · exact pending n old
        · obtain rfl := List.mem_singleton.1 added
          exact new _ rfl rfl
      · split
        · exact ⟨list, pending⟩
        · exact ⟨change _ _ fun n _ => new _ rfl rfl, pending⟩
    · obtain rfl := Option.some.inj moved
      exact ⟨list, pending⟩
  | registered i accepted =>
    simp only [agentStep] at moved
    split at moved
    · cases moved
    · rename_i n at_
      obtain rfl := Option.some.inj moved
      refine ⟨fun x mem => ?_, fun x mem => pending x (List.mem_of_mem_eraseIdx mem)⟩
      split at mem
      · rcases List.mem_append.1 mem with old | added
        · exact list x old
        · obtain rfl := List.mem_singleton.1 added
          exact pending x (List.mem_of_getElem? at_)
      · exact list x mem
  | waitEvent id uid =>
    simp only [agentStep] at moved
    split at moved
    · obtain rfl := Option.some.inj moved
      exact ⟨change _ _ fun n ok d hd => ⟨(ok d hd).1, by simp⟩, pending⟩
    · obtain rfl := Option.some.inj moved
      exact ⟨list, pending⟩
  | sendResponse id uid =>
    simp only [agentStep] at moved
    split at moved
    · obtain rfl := Option.some.inj moved
      refine ⟨change _ _ fun n ok => ?_, pending⟩
      rw [Agent.processSendEventResponse]
      split <;> exact ok
    · obtain rfl := Option.some.inj moved
      exact ⟨list, pending⟩
  | request id =>
    simp only [agentStep] at moved
    split at moved
    · obtain rfl := Option.some.inj moved
      exact ⟨list, pending⟩
    · split at moved
      · obtain rfl := Option.some.inj moved
        exact ⟨list, pending⟩
      · obtain rfl := Option.some.inj moved
        exact ⟨change _ _ fun n ok => ok, pending⟩
  | caWake i | caKilled i =>
    simp only [agentStep] at moved
    split at moved
    · cases moved
    · rename_i n at_
      split at moved
      · cases moved
      · obtain rfl := Option.some.inj moved
        exact ⟨replace i n _ at_ id, pending⟩

theorem freeDev_calls_of_ne {c : Dev} (other : c ≠ d) : (m.freeDev d).calls c = m.calls c :=
  update_of_ne other _ _

/-- A node that `d` does not own outlives `d`. -/
theorem NodeOk.freeDev {n : Agent Dev} (ok : NodeOk m n) (other : n.owner ≠ some d) :
    NodeOk (m.freeDev d) n := by
  intro c hc
  have apart : c ≠ d := by
    rintro rfl
    exact other hc
  rw [freeDev_calls_of_ne apart]
  exact ok c hc

/-- The agents after a close that meets `Releasable`. -/
theorem closed_list {single : Bool} {list : List (Agent Dev)} (ok : ∀ n ∈ list, NodeOk m n)
    (releasable : Releasable single d list)
    (agent : single = true → isSystemAgent d list = true) :
    ∀ n ∈ teeAgentClearDevOwner d (respondFor single d list), NodeOk (m.freeDev d) n := by
  intro n mem
  rcases mem_close releasable agent mem with none_ | ⟨old, other⟩
  · intro c hc
    rw [none_] at hc
    cases hc
  · exact (ok n old).freeDev other

variable [DecidableEq Uuid] [DecidableEq Tid] {a : Act Dev Uuid Tid}

omit [DecidableEq Dev] [DecidableEq Uuid] [DecidableEq Tid] in
theorem NodeOk.keep {m' : Heap Dev Uuid Tid} {n : Agent Dev} (ok : NodeOk m n)
    (kept : ∀ c, (m.calls c).isSome → (m'.calls c).isSome) : NodeOk m' n :=
  fun c hc => ⟨kept c (ok c hc).1, (ok c hc).2⟩

/-- A step of the tables that frees nothing and starts no close. -/
theorem table_good {tables : SessionManager.Sys Dev Uuid Tid}
    {b : SessionManager.Act Dev Uuid Tid} (good : Good s)
    (moved : SessionManager.step s.tables b = some tables)
    (going : ∀ t env, b = .run t env → finishing s.tables t = none)
    (notClosed : ∀ t d, b = .release t d → ∀ n ∈ s.agents.pending, n.owner ≠ some d) :
    Good { s with tables := tables } := by
  have kept : ∀ c, (s.tables.heap.calls c).isSome → (tables.heap.calls c).isSome := by
    intro c open_
    refine step_isSome moved open_ fun t env at_ => ?_
    rw [going t env at_]
    simp
  refine ⟨step_inv good.inv moved, fun n mem => (good.list n mem).keep kept,
    fun n mem => (good.pending n mem).keep kept, fun n mem d his => ?_⟩
  exact step_steady moved (good.steady n mem d his) fun t at_ => notClosed t d at_ n mem his

theorem run_good {t : Tid} {env : Env} (good : Good s) (clean : Clean s (.table (.run t env)))
    (moved : step s (.table (.run t env)) = some s') : Good s' := by
  simp only [step] at moved
  obtain ⟨tables, ran, rfl⟩ := Option.map_eq_some_iff.1 moved
  cases last : finishing s.tables t with
  | none =>
    refine table_good good ran (fun u env at_ => ?_) (fun u d at_ => by cases at_)
    obtain ⟨rfl, rfl⟩ := SessionManager.Act.run.inj at_
    exact last
  | some d =>
    obtain ⟨index, closing⟩ := finishing_closing last
    have freed := finishing_step good.inv last ran
    have releasable : Releasable false d s.agents.list := clean d last
    refine ⟨step_inv good.inv ran, ?_, fun n mem => ?_, fun n mem c his => ?_⟩
    · simp only [freed]
      exact closed_list good.list releasable fun h => by cases h
    · simp only [freed]
      refine (good.pending n mem).freeDev fun mine => ?_
      rw [good.steady n mem d mine] at closing
      cases closing
    · exact step_steady ran (good.steady n mem c his) fun u at_ => by cases at_

omit [DecidableEq Uuid] in
/-- A close that frees the device at once. -/
theorem freeDev_good {t : Tid} {list : List (Agent Dev)} (good : Good s)
    (idle : s.tables.threads t = .idle) (quiet : s.tables.heap.calls d = some 0)
    (steady : s.tables.heap.closing d = none)
    (pending : ∀ n ∈ s.agents.pending, n.owner ≠ some d)
    (empty : ∀ i, s.tables.heap.services d i = none)
    (closed : ∀ n ∈ list, NodeOk (s.tables.heap.freeDev d) n) :
    Good ⟨{ s.tables with heap := s.tables.heap.freeDev d }, ⟨list, s.agents.pending⟩⟩ where
  inv := by
    refine freeDev_inv (t := t) good.inv ?_ quiet steady empty
    rw [SessionManager.Sys.held, idle]
    rfl
  list := closed
  pending := fun n mem => (good.pending n mem).freeDev (pending n mem)
  steady := fun n mem c his => freeDev_steady (good.steady n mem c his)

theorem close_good {t : Tid} {closer : Closer} (good : Good s)
    (clean : Clean s (.close t d closer)) (moved : step s (.close t d closer) = some s') :
    Good s' := by
  simp only [step] at moved
  split at moved
  · rename_i may
    obtain ⟨idle, quiet, steady, pending⟩ := may
    simp only [tcClientClose] at moved
    by_cases daemon : closer.daemon = true
    · obtain ⟨empty, releasable⟩ := clean d (by simp [frees, daemon])
      rw [daemon] at releasable
      rw [if_pos daemon] at moved
      split at moved
      · rename_i agent
        obtain rfl := Option.some.inj moved
        exact freeDev_good good idle quiet steady pending empty
          (closed_list good.list releasable fun _ => agent)
      · rename_i noAgent
        obtain rfl := Option.some.inj moved
        refine freeDev_good good idle quiet steady pending empty fun n mem => ?_
        refine (good.list n mem).freeDev fun mine => noAgent ?_
        simpa [isSystemAgent] using ⟨n, mem, mine⟩
    · rw [if_neg daemon] at moved
      split at moved
      · obtain ⟨tables, ran, rfl⟩ := Option.map_eq_some_iff.1 moved
        refine table_good good ran (fun u env at_ => by cases at_) fun u c at_ => ?_
        obtain ⟨rfl, rfl⟩ := SessionManager.Act.release.inj at_
        exact pending
      · rename_i direct
        obtain ⟨empty, releasable⟩ := clean d (by simp [frees, direct])
        obtain rfl := Option.some.inj moved
        simp only [Bool.not_eq_true] at daemon
        rw [daemon] at releasable
        exact freeDev_good good idle quiet steady pending empty
          (closed_list good.list releasable fun h => by cases h)
  · cases moved

theorem agent_step {b : AgentList.Act Dev} (moved : step s (.agent b) = some s') :
    ∃ g, agentStep s.agents b = some g ∧ s' = { s with agents := g } ∧
      ∀ d id uid size, b = .register (some d) id uid size →
        (s.tables.heap.calls d).isSome ∧ s.tables.heap.closing d = none := by
  cases b with
  | register o id uid size =>
    simp only [step] at moved
    split at moved
    · rename_i may
      obtain ⟨g, ran, rfl⟩ := Option.map_eq_some_iff.1 moved
      refine ⟨g, ran, rfl, fun d id uid size same => ?_⟩
      obtain ⟨rfl, -, -, -⟩ := AgentList.Act.register.inj same
      simpa using may
    · cases moved
  | _ =>
    simp only [step] at moved
    obtain ⟨g, ran, rfl⟩ := Option.map_eq_some_iff.1 moved
    exact ⟨g, ran, rfl, fun d id uid size same => by cases same⟩

theorem agent_good {b : AgentList.Act Dev} (good : Good s)
    (moved : step s (.agent b) = some s') : Good s' := by
  obtain ⟨g, ran, rfl, owner⟩ := agent_step moved
  obtain ⟨list, pending⟩ := agentStep_list good.list good.pending
    (fun d id uid size same => (owner d id uid size same).1) ran
  refine ⟨good.inv, list, pending, fun n mem d his => ?_⟩
  rcases agentStep_pending ran mem with old | ⟨id, uid, size, same⟩
  · exact good.steady n old d his
  · exact (owner d id uid size (his ▸ same)).2

theorem step_good (good : Good s) (clean : Clean s a) (moved : step s a = some s') : Good s' := by
  cases a with
  | table b =>
    cases b with
    | run t env => exact run_good good clean moved
    | release t d => cases moved
    | _ =>
      simp only [step] at moved
      obtain ⟨tables, ran, rfl⟩ := Option.map_eq_some_iff.1 moved
      exact table_good good ran (fun u env at_ => by cases at_) fun u c at_ => by cases at_
  | agent b => exact agent_good good moved
  | close t d closer => exact close_good good clean moved

omit [DecidableEq Dev] [DecidableEq Uuid] [DecidableEq Tid] in
theorem init_good : Good (Sys.init : Sys Dev Uuid Tid) where
  inv := init_inv
  list := by simp [Sys.init]
  pending := by simp [Sys.init]
  steady := by simp [Sys.init]

theorem reach_good (run : Reach step Clean Sys.init s) : Good s :=
  run.invariant init_good fun _ _ _ good clean moved => step_good good clean moved

/-- A device that is gone after the step is the one that the step frees. -/
theorem frees_of_gone (moved : step s a = some s') (open_ : (s.tables.heap.calls d).isSome)
    (gone : s'.tables.heap.calls d = none) : frees s a = some d := by
  by_contra other
  suffices (s'.tables.heap.calls d).isSome by simp [gone] at this
  cases a with
  | table b =>
    cases b with
    | run t env =>
      simp only [step] at moved
      obtain ⟨tables, ran, rfl⟩ := Option.map_eq_some_iff.1 moved
      refine step_isSome ran open_ fun u env at_ => ?_
      obtain ⟨rfl, rfl⟩ := SessionManager.Act.run.inj at_
      exact other
    | release t d => cases moved
    | _ =>
      simp only [step] at moved
      obtain ⟨tables, ran, rfl⟩ := Option.map_eq_some_iff.1 moved
      exact step_isSome ran open_ fun u env at_ => by cases at_
  | agent b =>
    obtain ⟨g, -, rfl, -⟩ := agent_step moved
    exact open_
  | close t c closer =>
    simp only [step] at moved
    split at moved
    · have kept : frees s (.close t c closer) = some c →
          ((s.tables.heap.freeDev c).calls d).isSome := by
        intro freed
        have apart : d ≠ c := by
          rintro rfl
          exact other freed
        rwa [freeDev_calls_of_ne apart]
      simp only [tcClientClose] at moved
      split at moved
      · rename_i daemon
        have freed : frees s (.close t c closer) = some c := by simp [frees, daemon]
        split at moved <;> obtain rfl := Option.some.inj moved <;> exact kept freed
      · split at moved
        · obtain ⟨tables, ran, rfl⟩ := Option.map_eq_some_iff.1 moved
          exact step_isSome ran open_ fun u env at_ => by cases at_
        · rename_i direct
          obtain rfl := Option.some.inj moved
          exact kept (by simp [frees, direct])
    · cases moved

/-- Nothing of `d` is left after the step: no session, no table entry, every reference of
its table returned once, no agent, and no CA that sleeps on an agent it had. -/
structure Gone (s s' : Sys Dev Uuid Tid) (d : Dev) : Prop where
  sessions : ∀ v, ∀ e ∈ s'.tables.heap.sessionList v, s'.tables.heap.owner e ≠ some d
  entries : ∀ i, s'.tables.heap.services d i = none
  references : Balanced (svcRef s'.tables.heap s'.tables.held) s'.tables.heap.usage
  agents : Released d s.agents.list s'.agents.list

theorem run_freed {t : Tid} {env : Env} (good : Good s)
    (moved : step s (.table (.run t env)) = some s') (last : finishing s.tables t = some d) :
    s'.tables.heap = s.tables.heap.freeDev d ∧
      (Released d s.agents.list s'.agents.list ↔ Releasable false d s.agents.list) := by
  simp only [step] at moved
  obtain ⟨tables, ran, rfl⟩ := Option.map_eq_some_iff.1 moved
  refine ⟨finishing_step good.inv last ran, ?_⟩
  simp only [last]
  exact released_iff fun n mem mine => (good.list n mem d mine).2

theorem close_freed {t : Tid} {closer : Closer} (good : Good s)
    (moved : step s (.close t d closer) = some s')
    (freed : frees s (.close t d closer) = some d) :
    s.tables.heap.calls d = some 0 ∧ s.tables.heap.closing d = none ∧
      s'.tables.heap = s.tables.heap.freeDev d ∧
      (Released d s.agents.list s'.agents.list ↔ Releasable closer.daemon d s.agents.list) := by
  have alive : ∀ n ∈ s.agents.list, n.owner = some d → n.agentReady ≠ .crashed :=
    fun n mem mine => (good.list n mem d mine).2
  simp only [step] at moved
  split at moved
  · rename_i may
    refine ⟨may.2.1, may.2.2.1, ?_⟩
    simp only [tcClientClose] at moved
    by_cases daemon : closer.daemon = true
    · rw [if_pos daemon] at moved
      rw [daemon]
      split at moved
      · obtain rfl := Option.some.inj moved
        exact ⟨rfl, released_iff alive⟩
      · rename_i noAgent
        obtain rfl := Option.some.inj moved
        have none_ : ∀ n ∈ s.agents.list, n.owner ≠ some d := by simpa [isSystemAgent] using noAgent
        refine ⟨rfl, fun _ => ?_, fun _ => ⟨none_, fun i n at_ mine => ?_⟩⟩
        · exact ⟨(owned_eq_zero.2 none_).le.trans zero_le_one, fun n mem mine =>
            absurd mine (none_ n mem)⟩
        · exact absurd mine (none_ n (List.mem_of_getElem? at_))
    · rw [if_neg daemon] at moved
      split at moved
      · rename_i going
        simp [frees, daemon, going] at freed
      · obtain rfl := Option.some.inj moved
        simp only [Bool.not_eq_true] at daemon
        rw [daemon]
        exact ⟨rfl, released_iff alive⟩
  · cases moved

theorem gone_of_clean (good : Good s) (clean : Clean s a) (moved : step s a = some s')
    (freed : frees s a = some d) (gone : s'.tables.heap.calls d = none) : Gone s s' d := by
  have after := step_good good clean moved
  refine ⟨fun v e listed => not_owner_of_gone after.inv gone listed, (after.inv.gone d gone).2,
    after.inv.svc, ?_⟩
  have here := clean d freed
  cases a with
  | table b =>
    cases b with
    | run t env => exact (run_freed good moved freed).2.2 here
    | _ => cases freed
  | agent b => cases freed
  | close t c closer =>
    obtain rfl : c = d := by
      simp only [frees] at freed
      grind
    exact (close_freed good moved freed).2.2.2.2 here.2

theorem clean_of_gone (good : Good s) (moved : step s a = some s') (freed : frees s a = some d)
    (left : Gone s s' d) : Clean s a := by
  intro c hc
  obtain rfl := Option.some.inj (freed.symm.trans hc)
  cases a with
  | table b =>
    cases b with
    | run t env => exact (run_freed good moved freed).2.1 left.agents
    | _ => cases freed
  | agent b => cases freed
  | close t c closer =>
    obtain rfl : c = d := by
      simp only [frees] at freed
      grind
    obtain ⟨quiet, steady, heap, agents⟩ := close_freed good moved freed
    refine ⟨fun i => ?_, agents.1 left.agents⟩
    cases slot : s.tables.heap.services c i with
    | none => rfl
    | some v =>
      obtain ⟨e, listed, mine⟩ := session_of_slot good.inv quiet steady slot
      have still := left.sessions v e
      rw [heap] at still
      exact absurd mine (still listed)

end Runs

section Result

variable [DecidableEq Dev] [DecidableEq Uuid] [DecidableEq Tid] {s : Sys Dev Uuid Tid}

/-- Along every run whose closes are all clean no session and no agent belongs to a device
that is not open, and every count of a service is the number of references to it. A step
that frees a device then leaves nothing of it behind exactly when it is clean as well. -/
theorem closed_without_trace (run : Reach step Clean Sys.init s) :
    (∀ d, s.tables.heap.calls d = none →
      (∀ v, ∀ e ∈ s.tables.heap.sessionList v, s.tables.heap.owner e ≠ some d) ∧
      ∀ n ∈ s.agents.list, n.owner ≠ some d) ∧
    Balanced (svcRef s.tables.heap s.tables.held) s.tables.heap.usage ∧
    ∀ a s' d, step s a = some s' → s.tables.heap.calls d ≠ none → s'.tables.heap.calls d = none →
      (Gone s s' d ↔ Clean s a) := by
  have good := reach_good run
  refine ⟨fun d gone => ⟨fun v e listed => not_owner_of_gone good.inv gone listed, ?_⟩,
    good.inv.svc, fun a s' d moved open_ gone => ?_⟩
  · intro n mem mine
    have open_ := (good.list n mem d mine).1
    simp [gone] at open_
  · have freed := frees_of_gone moved (Option.isSome_iff_ne_none.2 open_) gone
    exact ⟨clean_of_gone good moved freed, fun clean => gone_of_clean good clean moved freed gone⟩

/-- A client with a session and an agent, on which a CA sleeps, closes its file. -/
def exitActs : List (Act Nat Nat (Fin 1)) :=
  [.table (.openDev 1), .table (.openSession 0 1 7)] ++
    List.replicate 4 (.table (.run 0 {})) ++
    [.table (.run 0 { opened := some 9 }), .table (.run 0 {}),
      .agent (.register (some 1) 5 0 4096), .agent (.registered 0 true), .agent (.request 5),
      .close 0 1 {}] ++
    List.replicate 38 (.table (.run 0 {}))

theorem closed_without_trace_exit :
    ∃ s s' : Sys Nat Nat (Fin 1), Reach step Clean Sys.init s ∧
      s.agents.list = [{ agentId := 5, owner := some 1, retFlag := true, waiting := 1 }] ∧
      step s (.table (.run 0 {})) = some s' ∧ s.tables.heap.calls 1 ≠ none ∧
      s'.tables.heap.calls 1 = none ∧ Gone s s' 1 := by
  obtain ⟨s, run, good⟩ := reach_of_play step Clean
    (fun s : Sys Nat Nat (Fin 1) => decide (
      s.agents.list = [{ agentId := 5, owner := some 1, retFlag := true, waiting := 1 }] ∧
      s.tables.heap.calls 1 ≠ none ∧ Clean s (.table (.run 0 {})) ∧
      (step s (.table (.run 0 {}))).any fun s' => s'.tables.heap.calls 1 = none))
    Sys.init exitActs (by decide +kernel)
  obtain ⟨agents, open_, clean, freed⟩ := of_decide_eq_true good
  obtain ⟨s', moved, gone⟩ := (Option.any_eq_true _ _).1 freed
  have last : s'.tables.heap.calls 1 = none := of_decide_eq_true gone
  exact ⟨s, s', run, agents, moved, open_, last,
    ((closed_without_trace run).2.2 _ s' 1 moved open_ last).2 clean⟩

/-- A file that owns two agents: the second keeps the freed device as its owner. -/
theorem second_agent_keeps_owner :
    ∃ s s' : Sys Nat Nat (Fin 1), Reach step (fun _ _ => True) Sys.init s ∧
      step s (.close 0 1 {}) = some s' ∧ s.tables.heap.calls 1 ≠ none ∧
      s'.tables.heap.calls 1 = none ∧ ¬ Gone s s' 1 := by
  obtain ⟨s, run, good⟩ := reach_of_play step (fun _ _ => True)
    (fun s : Sys Nat Nat (Fin 1) => decide (s.tables.heap.calls 1 ≠ none ∧
      (step s (.close 0 1 {})).any fun s' => s'.tables.heap.calls 1 = none ∧
        ∃ n ∈ s'.agents.list, n.owner = some 1))
    Sys.init
    [.table (.openDev 1), .agent (.register (some 1) 5 0 4096), .agent (.registered 0 true),
      .agent (.register (some 1) 6 0 4096), .agent (.registered 0 true)]
    (by decide +kernel)
  obtain ⟨open_, freed⟩ := of_decide_eq_true good
  obtain ⟨s', moved, gone⟩ := (Option.any_eq_true _ _).1 freed
  obtain ⟨last, n, mem, mine⟩ := of_decide_eq_true gone
  exact ⟨s, s', run, moved, open_, last, fun left => left.agents.owners n mem mine⟩

end Result

end DeviceClose
