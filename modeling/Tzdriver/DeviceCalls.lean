import Tzdriver.DeviceTraces

/-!
# Calls in progress

A device file is freed only when no call on it is in progress, whichever way `tc_client_close`
takes and whatever it leaves behind in the tables. The steps of a call touch the count of the calls
and the mark of a close in four ways, and the ledger of the calls balances in every run, also after
closes that leave traces.
-/

namespace DeviceClose

open Function ActionSystem AgentList RefLedger
open SessionManager hiding Sys Act step

variable {Dev Uuid Tid : Type*} {m : Heap Dev Uuid Tid} {t : Tid} {c d : Dev}

section Step

variable [DecidableEq Dev]

/-- What a step from `pc` does to the calls and to the closes. -/
inductive CallStep (m : Heap Dev Uuid Tid) (pc : Pc Dev Uuid)
    (r : Heap Dev Uuid Tid × Pc Dev Uuid) : Prop
  | inside (calls : r.1.calls = m.calls) (closing : r.1.closing = m.closing)
      (call : r.2.held.callDev = pc.held.callDev) (fd : r.2.held.fdDev = pc.held.fdDev)
  | left (d : Dev) (call : pc.held.callDev = some d) (fd : pc.held.fdDev = none)
      (calls : r.1.calls = (m.leave d).calls) (closing : r.1.closing = m.closing)
      (last : r.2 = .idle)
  | scanned (d : Dev) (index later : Nat) (call : pc.held.callDev = none)
      (call' : r.2.held.callDev = none) (fd : pc.held.fdDev = some d)
      (fd' : r.2.held.fdDev = some d) (closing : m.closing d = some index)
      (calls : r.1.calls = m.calls) (moved : r.1.closing = update m.closing d (some later))
  | freed (d : Dev) (index : Nat) (at_ : pc = .fdSlot d) (closing : m.closing d = some index)
      (heap : r.1 = m.freeDev d) (last : r.2 = .idle)

theorem afterDel_step {m₁ : Heap Dev Uuid Tid} {v : ServicePtr} {k : Undo} {pc : Pc Dev Uuid}
    (call : pc.held.callDev = some d) (fd : pc.held.fdDev = none)
    (calls : m₁.calls = m.calls) (closing : m₁.closing = m.closing) :
    CallStep m pc (afterDel m₁ d v k) := by
  cases k with
  | noSession => exact .left d call fd (by simp [afterDel, Heap.leave, calls]) closing rfl
  | freeSession e => exact .inside calls closing call.symm fd.symm
  | close => exact .inside calls closing call.symm fd.symm

variable [DecidableEq Uuid] {r : Heap Dev Uuid Tid × Pc Dev Uuid} {env : Env}

theorem delService_step {v : ServicePtr} {k : Undo}
    (ran : run m t env (.delService d v k) = some r) : CallStep m (.delService d v k) r := by
  have call : (Pc.delService d v k : Pc Dev Uuid).held.callDev = some d := by cases k <;> rfl
  have fd : (Pc.delService d v k : Pc Dev Uuid).held.fdDev = none := by cases k <;> rfl
  simp only [run] at ran
  split at ran
  · split at ran
    · split at ran
      · cases Option.some.inj ran
        exact afterDel_step call fd rfl rfl
      · split at ran
        · cases Option.some.inj ran
          refine .inside rfl rfl ?_ ?_
          · cases k <;> rfl
          · cases k <;> rfl
        · cases Option.some.inj ran
          exact afterDel_step call fd rfl rfl
    · cases Option.some.inj ran
      exact afterDel_step call fd rfl rfl
  · cases ran

theorem delPut_step {v : ServicePtr} {k : Undo} (ran : run m t env (.delPut d v k) = some r) :
    CallStep m (.delPut d v k) r := by
  have call : (Pc.delPut d v k : Pc Dev Uuid).held.callDev = some d := by cases k <;> rfl
  have fd : (Pc.delPut d v k : Pc Dev Uuid).held.fdDev = none := by cases k <;> rfl
  cases Option.some.inj ran
  exact afterDel_step call fd putServiceStruct_dev.1 putServiceStruct_dev.2

theorem fdSlot_step (ran : run m t env (.fdSlot d) = some r) : CallStep m (.fdSlot d) r := by
  simp only [run] at ran
  split at ran
  · cases ran
  · rename_i index closing
    split at ran
    · split at ran
      · split at ran
        · cases Option.some.inj ran
          exact .scanned d index (index + 1) rfl rfl rfl rfl closing rfl rfl
        · cases Option.some.inj ran
          exact .inside rfl rfl rfl rfl
      · cases Option.some.inj ran
        exact .scanned d index (index + 1) rfl rfl rfl rfl closing rfl rfl
    · cases Option.some.inj ran
      exact .freed d index rfl closing rfl rfl

theorem fdPutService_step {v : ServicePtr} (ran : run m t env (.fdPutService d v) = some r) :
    CallStep m (.fdPutService d v) r := by
  simp only [run] at ran
  split at ran
  · cases ran
  · rename_i index closing
    cases Option.some.inj ran
    refine .scanned d index (index + 1) rfl rfl rfl rfl closing putServiceStruct_dev.1 ?_
    simp [Heap.setClosing, putServiceStruct_dev.2]

theorem run_callStep {pc : Pc Dev Uuid} (ran : run m t env pc = some r) : CallStep m pc r := by
  cases pc with
  | idle => cases ran
  | delService d v k => exact delService_step ran
  | delPut d v k => exact delPut_step ran
  | fdSlot d => exact fdSlot_step ran
  | fdPutService d v => exact fdPutService_step ran
  | openLookup d u =>
    simp only [run] at ran
    split at ran
    · cases Option.some.inj ran
      exact .inside getService_dev.1 getService_dev.2 rfl rfl
    · split at ran
      · cases Option.some.inj ran
        exact .inside rfl rfl rfl rfl
      · cases Option.some.inj ran
        exact .left d rfl rfl rfl rfl rfl
  | openPut d v | closePutService d v =>
    cases Option.some.inj ran
    refine .left d rfl rfl ?_ putServiceStruct_dev.2 rfl
    simp [Heap.leave, putServiceStruct_dev.1]
  | sendPutService d v e =>
    cases e with
    | none =>
      cases Option.some.inj ran
      refine .left d rfl rfl ?_ putServiceStruct_dev.2 rfl
      simp [Heap.leave, putServiceStruct_dev.1]
    | some e =>
      cases Option.some.inj ran
      exact .inside putServiceStruct_dev.1 putServiceStruct_dev.2 rfl rfl
  | sendCall d e =>
    cases Option.some.inj ran
    refine .left d rfl rfl ?_ putSessionStruct_dev.2 rfl
    simp [Heap.leave, putSessionStruct_dev.1]
  | openUnlock d v e | openFree d e =>
    cases Option.some.inj ran
    exact .left d rfl rfl rfl rfl rfl
  | closeFind d v id | sendFind d v id | fdFind d v =>
    simp only [run] at ran
    split at ran
    · cases Option.some.inj ran
      exact .inside getSession_dev.1 getSession_dev.2 rfl rfl
    · cases Option.some.inj ran
      exact .inside rfl rfl rfl rfl
  | closePut d v e | closePutOpen d v e | fdPut d v e | fdPutOpen d v e =>
    cases Option.some.inj ran
    exact .inside putSessionStruct_dev.1 putSessionStruct_dev.2 rfl rfl
  | openLock d v e | closeLock d v id | fdLock d v =>
    simp only [run] at ran
    split at ran
    · cases Option.some.inj ran
      exact .inside rfl rfl rfl rfl
    · cases ran
  | closeCall d v e | closeUnlock d v =>
    cases Option.some.inj ran
    exact .inside rfl rfl rfl rfl
  | openAdd d u v | openAlloc d v | openCall d v e =>
    simp only [run] at ran
    split at ran <;>
    · cases Option.some.inj ran
      exact .inside rfl rfl rfl rfl

/-- Where a call starts. -/
theorem startOpen_calls {u : Uuid} :
    startOpen m t d u = (m, .idle) ∨
      (startOpen m t d u).1.calls = (m.enter d).calls ∧
        (startOpen m t d u).1.closing = m.closing ∧
        (startOpen m t d u).2.held.callDev = some d ∧
        (startOpen m t d u).2.held.fdDev = none := by
  unfold startOpen
  split
  · split
    · exact Or.inl rfl
    · split
      · exact Or.inr ⟨rfl, rfl, rfl, rfl⟩
      · exact Or.inl rfl
  · exact Or.inr ⟨rfl, rfl, rfl, rfl⟩

theorem startFound_calls {u : Uuid} {next : ServicePtr → Pc Dev Uuid}
    (call : ∀ v, (next v).held.callDev = some d) (fd : ∀ v, (next v).held.fdDev = none) :
    startFound m d u next = (m, .idle) ∨
      (startFound m d u next).1.calls = (m.enter d).calls ∧
        (startFound m d u next).1.closing = m.closing ∧
        (startFound m d u next).2.held.callDev = some d ∧
        (startFound m d u next).2.held.fdDev = none := by
  unfold startFound
  split
  · rename_i v found
    refine Or.inr ⟨?_, getService_dev.2, call v, fd v⟩
    simp [Heap.enter, getService_dev.1]
  · exact Or.inl rfl

end Step

section Ledger

variable {calls closing : Dev → Option Nat} {call fd : Tid → Option Dev} {n : Nat}

/-- The calls in progress are counted, a device that is being closed has none, and one thread
closes it. -/
structure Calls (calls closing : Dev → Option Nat) (call fd : Tid → Option Dev) : Prop where
  ledger : Balanced call calls
  quiet : ∀ d index, closing d = some index → calls d = some 0
  closer : ∀ u d, fd u = some d → ∃ index, closing d = some index
  single : ∀ u w d, fd u = some d → fd w = some d → u = w

/-- No call is in progress on a device that is being closed. -/
theorem Calls.steady (ok : Calls calls closing call fd) (inCall : call t = some d) :
    closing d = none := by
  cases marked : closing d with
  | none => rfl
  | some index => exact absurd inCall (ok.ledger.none_of_zero (ok.quiet d index marked) t)

theorem Calls.open_ (ok : Calls calls closing call fd) (inCall : call t = some d) :
    (calls d).isSome := by
  obtain ⟨k, counted⟩ := ok.ledger.valid t d inCall
  simp [counted]

theorem Calls.init : Calls (fun _ : Dev => none) (fun _ => none) (fun _ : Tid => none)
    (fun _ => none) where
  ledger := .empty (fun _ => rfl) (fun _ => rfl)
  quiet := by simp
  closer := by simp
  single := by simp

variable [DecidableEq Dev]

theorem Calls.openDev (ok : Calls calls closing call fd) (free : calls d = none) :
    Calls (update calls d (some 0)) (update closing d none) call fd where
  ledger := ok.ledger.alloc free
  quiet := by
    intro c index marked
    by_cases hc : c = d
    · simp [hc] at marked
    · rw [update_of_ne hc] at marked ⊢
      exact ok.quiet c index marked
  closer := by
    intro u c works
    obtain ⟨index, marked⟩ := ok.closer u c works
    have other : c ≠ d := by
      rintro rfl
      simp [ok.quiet c index marked] at free
    exact ⟨index, by rwa [update_of_ne other]⟩
  single := ok.single

/-- A device is freed at once when nobody calls or closes it. -/
theorem Calls.freeDev (ok : Calls calls closing call fd) (quiet : calls d = some 0)
    (alone : ∀ u, fd u ≠ some d) : Calls (update calls d none) (update closing d none) call fd where
  ledger := ok.ledger.discard quiet
  quiet := by
    intro c index marked
    by_cases hc : c = d
    · simp [hc] at marked
    · rw [update_of_ne hc] at marked ⊢
      exact ok.quiet c index marked
  closer := by
    intro u c works
    obtain ⟨index, marked⟩ := ok.closer u c works
    have other : c ≠ d := by
      rintro rfl
      exact alone u works
    exact ⟨index, by rwa [update_of_ne other]⟩
  single := ok.single

theorem Calls.setClosing (ok : Calls calls closing call fd) (quiet : calls d = some 0) (index : Nat) :
    Calls calls (update closing d (some index)) call fd where
  ledger := ok.ledger
  quiet := by
    intro c later marked
    by_cases hc : c = d
    · rwa [hc]
    · rw [update_of_ne hc] at marked
      exact ok.quiet c later marked
  closer := by
    intro u c works
    by_cases hc : c = d
    · exact ⟨index, by rw [hc, update_self]⟩
    · rw [update_of_ne hc]
      exact ok.closer u c works
  single := ok.single

variable [DecidableEq Tid]

theorem Calls.enter (ok : Calls calls closing call fd) (idle : call t = none)
    (counted : calls d = some n) (steady : closing d = none) :
    Calls (update calls d (some (n + 1))) closing (update call t (some d)) fd where
  ledger := ok.ledger.acquire idle counted
  quiet := by
    intro c index marked
    have other : c ≠ d := by
      rintro rfl
      simp [steady] at marked
    rw [update_of_ne other]
    exact ok.quiet c index marked
  closer := ok.closer
  single := ok.single

theorem Calls.leave (ok : Calls calls closing call fd) (inCall : call t = some d)
    (counted : calls d = some (n + 1)) :
    Calls (update calls d (some n)) closing (update call t none) fd where
  ledger := ok.ledger.drop inCall counted
  quiet := by
    intro c index marked
    have other : c ≠ d := by
      rintro rfl
      simp [ok.steady inCall] at marked
    rw [update_of_ne other]
    exact ok.quiet c index marked
  closer := ok.closer
  single := ok.single

omit [DecidableEq Dev] in
/-- The thread that closes the device. -/
theorem Calls.close (ok : Calls calls closing call fd) (works : closing d ≠ none)
    (alone : ∀ u, fd u ≠ some d) : Calls calls closing call (update fd t (some d)) where
  ledger := ok.ledger
  quiet := ok.quiet
  closer := by
    intro u c at_
    by_cases hu : u = t
    · rw [hu, update_self, Option.some.injEq] at at_
      exact at_ ▸ Option.ne_none_iff_exists'.1 works
    · rw [update_of_ne hu] at at_
      exact ok.closer u c at_
  single := by
    intro u w c hu hw
    have old : ∀ x, x ≠ t → update fd t (some d) x = some c → c ≠ d := by
      rintro x other at_ rfl
      rw [update_of_ne other] at at_
      exact alone x at_
    by_cases ut : u = t
    · by_cases wt : w = t
      · rw [ut, wt]
      · rw [ut, update_self, Option.some.injEq] at hu
        exact absurd hu.symm (old w wt hw)
    · by_cases wt : w = t
      · rw [wt, update_self, Option.some.injEq] at hw
        exact absurd hw.symm (old u ut hu)
      · rw [update_of_ne ut] at hu
        rw [update_of_ne wt] at hw
        exact ok.single u w c hu hw

omit [DecidableEq Dev] in
theorem Calls.closed (ok : Calls calls closing call fd) :
    Calls calls closing call (update fd t none) where
  ledger := ok.ledger
  quiet := ok.quiet
  closer := by
    intro u c at_
    by_cases hu : u = t
    · simp [hu] at at_
    · rw [update_of_ne hu] at at_
      exact ok.closer u c at_
  single := by
    intro u w c hu hw
    by_cases ut : u = t
    · simp [ut] at hu
    · by_cases wt : w = t
      · simp [wt] at hw
      · rw [update_of_ne ut] at hu
        rw [update_of_ne wt] at hw
        exact ok.single u w c hu hw

theorem Calls.step {pc : Pc Dev Uuid} {r : Heap Dev Uuid Tid × Pc Dev Uuid}
    (ok : Calls m.calls m.closing call fd) (atCall : call t = pc.held.callDev)
    (atFd : fd t = pc.held.fdDev) (moved : CallStep m pc r) :
    Calls r.1.calls r.1.closing (update call t r.2.held.callDev)
      (update fd t r.2.held.fdDev) := by
  cases moved with
  | inside calls closing call' fd' =>
    rw [calls, closing, call', fd', ← atCall, ← atFd, update_eq_self, update_eq_self]
    exact ok
  | left d inCall off calls closing last =>
    obtain ⟨k, counted⟩ := ok.ledger.pos (atCall.trans inCall)
    have still : update fd t none = fd := by rw [← off, ← atFd, update_eq_self]
    have calls' : r.1.calls = update m.calls d (some k) := by simp [calls, Heap.leave, counted]
    rw [closing, last, calls']
    exact still.symm ▸ ok.leave (atCall.trans inCall) counted
  | scanned d index later off off' works works' marked calls moved =>
    have still : update call t none = call := by rw [← off, ← atCall, update_eq_self]
    have still' : update fd t (some d) = fd := by rw [← works, ← atFd, update_eq_self]
    rw [calls, moved, off', works', still, still']
    exact ok.setClosing (ok.quiet d index marked) later
  | freed d index at_ marked heap last =>
    have off : pc.held.callDev = none := by rw [at_]; rfl
    have works : fd t = some d := by rw [atFd, at_]; rfl
    have still : update call t none = call := by rw [← off, ← atCall, update_eq_self]
    have alone : ∀ u, update fd t none u ≠ some d := by
      intro u at_
      by_cases hu : u = t
      · simp [hu] at at_
      · rw [update_of_ne hu] at at_
        exact hu (ok.single u t d at_ works)
    rw [heap, last]
    exact still.symm ▸ (ok.closed (t := t)).freeDev (ok.quiet d index marked) alone

end Ledger

section Runs

variable [DecidableEq Dev] [DecidableEq Uuid] [DecidableEq Tid] {s s' : Sys Dev Uuid Tid}
  {tables tables' : SessionManager.Sys Dev Uuid Tid}

/-- The device on which the thread is in a call. -/
def callDev (s : SessionManager.Sys Dev Uuid Tid) (t : Tid) : Option Dev := (s.held t).callDev

/-- The device that the thread closes. -/
def fdDev (s : SessionManager.Sys Dev Uuid Tid) (t : Tid) : Option Dev := (s.held t).fdDev

/-- The ledger of a state of the session manager. -/
def Booked (s : SessionManager.Sys Dev Uuid Tid) : Prop :=
  Calls s.heap.calls s.heap.closing (callDev s) (fdDev s)

omit [DecidableEq Dev] [DecidableEq Uuid] in
theorem go_callDev (next : Heap Dev Uuid Tid × Pc Dev Uuid) :
    callDev (tables.go t next) = update (callDev tables) t next.2.held.callDev := by
  funext u
  rw [callDev, SessionManager.Sys.go_held]
  by_cases hu : u = t
  · rw [hu, update_self, update_self]
  · rw [update_of_ne hu, update_of_ne hu, callDev]

omit [DecidableEq Dev] [DecidableEq Uuid] in
theorem go_fdDev (next : Heap Dev Uuid Tid × Pc Dev Uuid) :
    fdDev (tables.go t next) = update (fdDev tables) t next.2.held.fdDev := by
  funext u
  rw [fdDev, SessionManager.Sys.go_held]
  by_cases hu : u = t
  · rw [hu, update_self, update_self]
  · rw [update_of_ne hu, update_of_ne hu, fdDev]

omit [DecidableEq Dev] [DecidableEq Uuid] [DecidableEq Tid] in
theorem idle_held (idle : tables.threads t = .idle) :
    callDev tables t = none ∧ fdDev tables t = none := by
  constructor
  · rw [callDev, SessionManager.Sys.held, idle]
    rfl
  · rw [fdDev, SessionManager.Sys.held, idle]
    rfl

omit [DecidableEq Dev] [DecidableEq Uuid] in
theorem go_idle (idle : tables.threads t = .idle) :
    tables.go t (tables.heap, .idle) = tables := by
  rw [SessionManager.Sys.go, ← idle, update_eq_self]

omit [DecidableEq Uuid] in
/-- A call that starts, or fails at once. -/
theorem start_booked {next : Heap Dev Uuid Tid × Pc Dev Uuid} (booked : Booked tables)
    (may : tables.mayStart t d)
    (starts : next = (tables.heap, .idle) ∨
      next.1.calls = (tables.heap.enter d).calls ∧ next.1.closing = tables.heap.closing ∧
        next.2.held.callDev = some d ∧ next.2.held.fdDev = none)
    (moved : (if tables.heap.badDev d then some tables.setFault else some (tables.go t next)) =
      some tables') : Booked tables' := by
  obtain ⟨idle, open_, steady, -⟩ := may
  split at moved
  · cases Option.some.inj moved
    exact booked
  · cases Option.some.inj moved
    rcases starts with rfl | ⟨calls, closing, call, fd⟩
    · rwa [go_idle idle]
    · obtain ⟨n, counted⟩ := Option.isSome_iff_exists.1 open_
      obtain ⟨off, off'⟩ := idle_held idle
      have entered := Calls.enter booked off counted steady
      have same : update (fdDev tables) t none = fdDev tables := by rw [← off', update_eq_self]
      have counts : next.1.calls = update tables.heap.calls d (some (n + 1)) := by
        simp [calls, Heap.enter, counted]
      rw [Booked, go_callDev, go_fdDev, call, fd, same]
      simp only [SessionManager.Sys.go]
      rw [counts, closing]
      exact entered

theorem release_booked (booked : Booked tables)
    (moved : SessionManager.step tables (.release t d) = some tables') : Booked tables' := by
  simp only [SessionManager.step] at moved
  split at moved
  · rename_i may
    obtain ⟨idle, quiet, steady⟩ := may
    cases Option.some.inj moved
    obtain ⟨off, -⟩ := idle_held idle
    have alone : ∀ u, fdDev tables u ≠ some d := by
      intro u works
      obtain ⟨index, marked⟩ := booked.closer u d works
      simp [steady] at marked
    have same : update (callDev tables) t none = callDev tables := by rw [← off, update_eq_self]
    rw [Booked, go_callDev, go_fdDev]
    change Calls _ _ (update (callDev tables) t none) _
    rw [same]
    exact (Calls.setClosing booked quiet 0).close (by simp [update_self]) alone
  · cases moved

theorem table_booked {a : SessionManager.Act Dev Uuid Tid} (booked : Booked tables)
    (moved : SessionManager.step tables a = some tables') : Booked tables' := by
  cases a with
  | openDev d =>
    simp only [SessionManager.step] at moved
    split at moved
    · rename_i free
      cases Option.some.inj moved
      exact Calls.openDev booked free
    · cases moved
  | openSession t d u =>
    simp only [SessionManager.step] at moved
    split at moved
    · rename_i may
      exact start_booked booked may startOpen_calls moved
    · cases moved
  | closeSession t d u id | sendCmd t d u id =>
    simp only [SessionManager.step] at moved
    split at moved
    · rename_i may
      exact start_booked booked may (startFound_calls (fun _ => rfl) fun _ => rfl) moved
    · cases moved
  | release t d => exact release_booked booked moved
  | run t env =>
    simp only [SessionManager.step] at moved
    split at moved
    · cases Option.some.inj moved
      exact booked
    · obtain ⟨next, ran, rfl⟩ := Option.map_eq_some_iff.1 moved
      rw [Booked, go_callDev, go_fdDev]
      exact Calls.step booked rfl rfl (run_callStep ran)

omit [DecidableEq Uuid] [DecidableEq Tid] in
/-- A device that is freed at once, in a state in which nothing goes on on it. -/
theorem freeDev_booked (booked : Booked tables) (quiet : tables.heap.calls d = some 0)
    (steady : tables.heap.closing d = none) :
    Booked { tables with heap := tables.heap.freeDev d } := by
  refine Calls.freeDev booked quiet fun u works => ?_
  obtain ⟨index, marked⟩ := booked.closer u d works
  simp [steady] at marked

/-- A close starts `close_session_thread_fn`, or frees the device at once. -/
theorem close_cases {closer : Closer} (moved : step s (.close t d closer) = some s') :
    s.tables.heap.calls d = some 0 ∧ s.tables.heap.closing d = none ∧
      (frees s (.close t d closer) = none ∧
          SessionManager.step s.tables (.release t d) = some s'.tables ∨
        frees s (.close t d closer) = some d ∧
          s'.tables = { s.tables with heap := s.tables.heap.freeDev d }) := by
  simp only [step] at moved
  split at moved
  · rename_i may
    obtain ⟨-, quiet, steady, -⟩ := may
    refine ⟨quiet, steady, ?_⟩
    simp only [tcClientClose] at moved
    split at moved
    · rename_i daemon
      have freed : frees s (.close t d closer) = some d := by simp [frees, daemon]
      split at moved <;>
      · cases Option.some.inj moved
        exact Or.inr ⟨freed, rfl⟩
    · rename_i daemon
      split at moved
      · rename_i inKthread
        obtain ⟨tables, ran, rfl⟩ := Option.map_eq_some_iff.1 moved
        exact Or.inl ⟨by simp_all [frees], ran⟩
      · rename_i direct
        cases Option.some.inj moved
        exact Or.inr ⟨by simp_all [frees], rfl⟩
  · cases moved

theorem step_booked {a : Act Dev Uuid Tid} (booked : Booked s.tables)
    (moved : step s a = some s') : Booked s'.tables := by
  cases a with
  | table b =>
    cases b with
    | release t d => cases moved
    | _ =>
      simp only [step] at moved
      obtain ⟨tables, ran, rfl⟩ := Option.map_eq_some_iff.1 moved
      exact table_booked booked ran
  | agent b =>
    obtain ⟨g, -, rfl, -⟩ := agent_step moved
    exact booked
  | close t d closer =>
    obtain ⟨quiet, steady, ⟨-, ran⟩ | ⟨-, freed⟩⟩ := close_cases moved
    · exact table_booked booked ran
    · rw [freed]
      exact freeDev_booked booked quiet steady

/-- An open device after a step was open before it, and a close never ends without freeing. -/
theorem table_open {a : SessionManager.Act Dev Uuid Tid}
    (moved : SessionManager.step tables a = some tables') (old : a ≠ .openDev d)
    (open_ : (tables'.heap.calls d).isSome) :
    (tables.heap.calls d).isSome ∧
      (tables'.heap.closing d = none → tables.heap.closing d = none) := by
  have starts : ∀ {c next}, (next = (tables.heap, .idle) ∨
      next.1.calls = (tables.heap.enter c).calls ∧ next.1.closing = tables.heap.closing ∧
        next.2.held.callDev = some c ∧ next.2.held.fdDev = none) →
      ∀ {t : Tid}, (if tables.heap.badDev c then some tables.setFault
        else some (tables.go t next)) = some tables' →
      (tables.heap.calls d).isSome ∧
        (tables'.heap.closing d = none → tables.heap.closing d = none) := by
    intro c next starts t moved
    split at moved
    · cases Option.some.inj moved
      exact ⟨open_, id⟩
    · cases Option.some.inj moved
      simp only [SessionManager.Sys.go] at open_ ⊢
      rcases starts with rfl | ⟨calls, closing, -, -⟩
      · exact ⟨open_, id⟩
      · rw [calls, enter_isSome] at open_
        rw [closing]
        exact ⟨open_, id⟩
  cases a with
  | openDev c =>
    simp only [SessionManager.step] at moved
    split at moved
    · have other : d ≠ c := by
        rintro rfl
        exact old rfl
      cases Option.some.inj moved
      simp only [Heap.openDev, update_of_ne other] at open_ ⊢
      exact ⟨open_, id⟩
    · cases moved
  | openSession t c u =>
    simp only [SessionManager.step] at moved
    split at moved
    · exact starts startOpen_calls moved
    · cases moved
  | closeSession t c u id | sendCmd t c u id =>
    simp only [SessionManager.step] at moved
    split at moved
    · exact starts (startFound_calls (fun _ => rfl) fun _ => rfl) moved
    · cases moved
  | release t c =>
    simp only [SessionManager.step] at moved
    split at moved
    · rename_i may
      cases Option.some.inj moved
      refine ⟨open_, fun steady => ?_⟩
      by_cases hd : d = c
      · rw [hd]
        exact may.2.2
      · simpa [SessionManager.Sys.go, Heap.setClosing, hd] using steady
    · cases moved
  | run t env =>
    simp only [SessionManager.step] at moved
    split at moved
    · cases Option.some.inj moved
      exact ⟨open_, id⟩
    · obtain ⟨next, ran, rfl⟩ := Option.map_eq_some_iff.1 moved
      simp only [SessionManager.Sys.go] at open_ ⊢
      cases run_callStep ran with
      | inside calls closing _ _ =>
        rw [calls] at open_
        rw [closing]
        exact ⟨open_, id⟩
      | left c _ _ calls closing _ =>
        rw [calls, leave_isSome] at open_
        rw [closing]
        exact ⟨open_, id⟩
      | scanned c index later _ _ _ _ marked calls moved =>
        rw [calls] at open_
        refine ⟨open_, fun steady => ?_⟩
        have other : d ≠ c := by
          rintro rfl
          simp [moved] at steady
        rwa [moved, update_of_ne other] at steady
      | freed c index _ marked heap _ =>
        have other : d ≠ c := by
          rintro rfl
          simp [heap, Heap.freeDev] at open_
        rw [heap, freeDev_calls_of_ne other] at open_
        rw [heap, freeDev_closing_of_ne other]
        exact ⟨open_, id⟩

/-- What the list of device files relies on. -/
theorem step_open {a : Act Dev Uuid Tid} (moved : step s a = some s')
    (old : a ≠ .table (.openDev d)) (open_ : (s'.tables.heap.calls d).isSome) :
    (s.tables.heap.calls d).isSome ∧
      (s'.tables.heap.closing d = none →
        s.tables.heap.closing d = none ∧ frees s a ≠ some d) := by
  cases a with
  | table b =>
    have ran : SessionManager.step s.tables b = some s'.tables := by
      cases b with
      | release t c => cases moved
      | _ =>
        simp only [step] at moved
        obtain ⟨tables, ran, rfl⟩ := Option.map_eq_some_iff.1 moved
        exact ran
    obtain ⟨before, steady⟩ := table_open ran (fun same => old (congrArg Act.table same)) open_
    refine ⟨before, fun after => ⟨steady after, fun freed => ?_⟩⟩
    cases b with
    | run t env =>
      obtain ⟨index, marked⟩ := finishing_closing freed
      simp [steady after] at marked
    | _ => cases freed
  | agent b =>
    obtain ⟨g, -, rfl, -⟩ := agent_step moved
    exact ⟨open_, fun after => ⟨after, by simp [frees]⟩⟩
  | close t c closer =>
    obtain ⟨-, -, ⟨kept, ran⟩ | ⟨freed, gone⟩⟩ := close_cases moved
    · obtain ⟨before, steady⟩ := table_open ran (by simp) open_
      exact ⟨before, fun after => ⟨steady after, by simp [kept]⟩⟩
    · have other : d ≠ c := by
        rintro rfl
        simp [gone, Heap.freeDev] at open_
      rw [gone] at open_ ⊢
      simp only [freeDev_calls_of_ne other, freeDev_closing_of_ne other] at open_ ⊢
      refine ⟨open_, fun after => ⟨after, ?_⟩⟩
      rw [freed, ne_eq, Option.some.injEq]
      exact other.symm

/-- Only an open device is freed. -/
theorem freed_open {a : Act Dev Uuid Tid} (booked : Booked s.tables) (moved : step s a = some s')
    (freed : frees s a = some d) : s.tables.heap.calls d = some 0 := by
  cases a with
  | table b =>
    cases b with
    | run t env =>
      obtain ⟨index, marked⟩ := finishing_closing freed
      exact booked.quiet d index marked
    | _ => cases freed
  | agent b => cases freed
  | close t c closer =>
    obtain ⟨quiet, -, ⟨kept, -⟩ | ⟨freed', -⟩⟩ := close_cases moved
    · rw [kept] at freed
      cases freed
    · obtain rfl := Option.some.inj (freed'.symm.trans freed)
      exact quiet

end Runs

end DeviceClose
