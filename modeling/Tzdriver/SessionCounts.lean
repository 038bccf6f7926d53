import Tzdriver.SessionRefs

/-!
# Quiescent states of the session tables

The steps of `SessionRefs` and the starts of the calls make up every run. In a state where
no call is in progress the ledgers have only the entries of the tables, which gives the
counters their meaning.
-/

namespace SessionManager

open Function RefLedger ActionSystem

variable {Dev Uuid Tid : Type*} {m m' : Heap Dev Uuid Tid} {h : Tid → Held Dev Uuid} {t : Tid}
  {d : Dev} {u : Uuid} {v : ServicePtr} {e : SessionPtr} {pc : Pc Dev Uuid}

section Pointers

theorem Pc.dev_held (at_ : pc.dev = some d) :
    pc.held.callDev = some d ∨ ∃ st, pc.held.fd = some (d, st) := by
  cases pc with
  | idle => simp [Pc.dev] at at_
  | delService d v k | delPut d v k => cases k <;> simpa [Pc.dev, Pc.held, Undo.held] using at_
  | _ => simpa [Pc.dev, Pc.held] using at_

/-- What keeps the service that a call points to. -/
theorem Pc.service_held (at_ : pc.service = some v) :
    pc.held.service = some v ∨ pc.held.opLock = some v ∨ pc.held.handed = some v ∨
      (∃ d, pc.held.devRef = some (d, v)) ∨
      ∃ d, pc.held.fd = some (d, .chosen v) ∨ pc.held.fd = some (d, .finished v) := by
  cases pc with
  | idle | openLookup _ _ | openFree _ _ | sendCall _ _ | fdSlot _ => simp [Pc.service] at at_
  | _ =>
    obtain rfl := Option.some.inj at_
    simp [Pc.held]

/-- What keeps the session that a call points to. -/
theorem Pc.session_held (at_ : pc.session = some e) :
    pc.held.session = some e ∨ pc.held.taken = some e ∨ pc.held.priv = some e ∨
      ∃ d v, pc.held.listed = some (d, v, e) := by
  cases pc with
  | delService d v k | delPut d v k =>
    cases k <;> simp_all [Pc.session, Pc.held, Undo.held]
  | _ => simp_all [Pc.session, Pc.held]

theorem Inv.badService_false (inv : Inv m h) {n : Nat} (alive : m.usage v = some n) :
    m.badService v = false := by
  have sessions : ∀ e ∈ m.sessionList v, m.sessionUsage e ≠ none := by
    intro e listed
    obtain ⟨k, counted⟩ := inv.listed_session listed
    simp [counted]
  simpa [Heap.badService, alive] using sessions

theorem Inv.badDev_false (inv : Inv m h) {n : Nat} (open_ : m.calls d = some n) :
    m.badDev d = false := by
  have slots : ∀ i v, m.slot d i = some v → m.badService v = false := by
    intro i v slot
    obtain ⟨k, alive⟩ := inv.svc.valid (.slot d i) v slot
    exact inv.badService_false alive
  simp only [Heap.badDev, open_, Option.isNone_some, Bool.false_or, List.any_eq_false]
  intro i _
  cases slot : m.slot d i with
  | none => simp
  | some v => simp [slots i v slot]

theorem Inv.held_service (inv : Inv m h) (hx : h t = pc.held) (at_ : pc.service = some v) :
    ∃ n, m.usage v = some n := by
  rcases Pc.service_held at_ with ref | lock | ref | ⟨d, ref⟩ | ⟨d, ref⟩
  · exact inv.svc.valid (.call t) v (by rw [svcRef, hx, ref])
  · exact inv.locked_service (u := t) (by rw [hx, lock])
  · exact inv.svc.valid (.handed t) v (by rw [svcRef, hx, ref])
  · obtain ⟨steady, i, slot⟩ := inv.counted_slot (r := .call t) (by rw [devRef, hx, ref])
    exact inv.svc.valid (.slot d i) v ((slot_of_steady steady).trans slot)
  · obtain ⟨index, closing, i, hi, slot⟩ : ∃ index, m.closing d = some index ∧
        ∃ i : Fin servicesMaxCount, i.val = index ∧ m.services d i = some v := by
      have mine : HeldOk m t pc.held := hx ▸ inv.threads.held t
      rcases ref with chosen | finished
      · exact mine.fd d _ chosen
      · obtain ⟨index, closing, slot, -⟩ := mine.fd d _ finished
        exact ⟨index, closing, slot⟩
    exact inv.svc.valid (.slot d i) v ((slot_of_index closing hi.ge).trans slot)

theorem Inv.held_session (inv : Inv m h) (hx : h t = pc.held) (at_ : pc.session = some e) :
    ∃ n, m.sessionUsage e = some n := by
  have mine : HeldOk m t pc.held := hx ▸ inv.threads.held t
  rcases Pc.session_held at_ with ref | ref | priv | ⟨d, v, ref⟩
  · exact inv.sess.valid (.call t) e (by rw [sessRef, hx, ref])
  · exact inv.sess.valid (.taken t) e (by rw [sessRef, hx, ref])
  · exact ⟨0, mine.priv e priv⟩
  · obtain ⟨n, counted⟩ := inv.listed_session (mine.listed d v e ref).1
    exact ⟨n + 1, counted⟩

theorem Inv.held_dev (inv : Inv m h) (hx : h t = pc.held) (at_ : pc.dev = some d) :
    ∃ n, m.calls d = some n := by
  rcases Pc.dev_held at_ with call | ⟨st, fd⟩
  · exact inv.call.valid t d (by rw [callRef, hx, call])
  · obtain ⟨index, closing, -⟩ := (inv.threads.held t).fd d st (by rw [hx, fd])
    exact ⟨0, (inv.closing d index closing).1⟩

/-- No call ever points to something that was freed. -/
theorem Inv.bad_false (inv : Inv m h) (hx : h t = pc.held) : m.bad pc = false := by
  have dev : pc.dev.any m.badDev = false := by
    refine (Option.any_eq_false _ _).2 fun d at_ => ?_
    obtain ⟨n, open_⟩ := inv.held_dev hx at_
    exact inv.badDev_false open_
  have service : pc.service.any m.badService = false := by
    refine (Option.any_eq_false _ _).2 fun v at_ => ?_
    obtain ⟨n, alive⟩ := inv.held_service hx at_
    exact inv.badService_false alive
  have session : pc.session.any (fun e => (m.sessionUsage e).isNone) = false := by
    refine (Option.any_eq_false _ _).2 fun e at_ => ?_
    obtain ⟨n, alive⟩ := inv.held_session hx at_
    rw [alive, Option.isNone_some]
  have list : m.serviceList.any m.badService = false := by
    refine List.any_eq_false.2 fun v listed => ?_
    obtain ⟨n, alive⟩ := (inv.services.listed v).1 listed
    simp [inv.badService_false alive]
  rw [Heap.bad, dev, service, session, list]
  rfl

end Pointers

section Starts

variable [DecidableEq Dev] [DecidableEq Tid]

theorem Inv.enter_idle (inv : Inv m h) (hx : h t = {}) (open_ : (m.calls d).isSome)
    (steady : m.closing d = none) : Inv (m.enter d) (update h t { callDev := some d }) := by
  obtain ⟨n, counted⟩ := Option.isSome_iff_exists.1 open_
  exact inv.enter hx rfl counted steady (.of_refs rfl) (by constructor <;> simp) heldOk_refs

theorem startOpen_inv [DecidableEq Uuid] (inv : Inv m h) (hx : h t = {})
    (open_ : (m.calls d).isSome) (steady : m.closing d = none) (free : m.serviceLock d = none) :
    Inv (startOpen m t d u).1 (update h t (startOpen m t d u).2.held) := by
  have entered := inv.enter_idle hx open_ steady
  have unchanged : Inv m (update h t (Pc.idle : Pc Dev Uuid).held) := by
    rwa [show (Pc.idle : Pc Dev Uuid).held = h t from hx.symm, update_eq_self]
  unfold startOpen
  split
  · rename_i i found
    obtain ⟨v, slot, -⟩ := findUuid_some found
    split
    · exact unchanged
    · rename_i room
      simp only [slot]
      have counted : Inv ((m.enter d).setRef d i ((m.serviceRef d i + 1) % 256))
          (update (update h t { callDev := some d }) t (Pc.openAlloc d v : Pc Dev Uuid).held) :=
        entered.refSlot (update_self _ _ _) rfl steady slot room (.of_refs rfl)
          (Pc.held_shape _) heldOk_refs
      exact counted.chain
  · rename_i absent
    have locked : Inv ((m.enter d).setServiceLock d (some t))
        (update (update h t { callDev := some d }) t (Pc.openLookup d u).held) := by
      refine entered.lockDev (update_self _ _ _) free (.of_refs rfl) (Pc.held_shape _) ?_
      have mine : HeldOk ((m.enter d).setServiceLock d (some t)) t
          { callDev := some d, devLock := some d } := heldOk_devLocked (update_self _ _ _)
      refine { mine with absent := ?_ }
      rintro c w hw i
      obtain ⟨rfl, rfl⟩ := Prod.mk.inj (Option.some.inj hw)
      exact findUuid_none absent i
    exact locked.chain

theorem startFound_inv [DecidableEq Uuid] {next : ServicePtr → Pc Dev Uuid} (inv : Inv m h)
    (hx : h t = {}) (open_ : (m.calls d).isSome) (steady : m.closing d = none)
    (held : ∀ v, (next v).held = { callDev := some d, service := some v }) :
    Inv (startFound m d u next).1 (update h t (startFound m d u next).2.held) := by
  have entered := inv.enter_idle hx open_ steady
  unfold startFound
  split
  · rename_i v found
    obtain ⟨i, -, slot⟩ := Option.bind_eq_some_iff.1 found
    obtain ⟨n, counted⟩ := inv.svc.valid (.slot d i) v ((slot_of_steady steady).trans slot)
    have order : (m.getService v).enter d = (m.enter d).getService v := by
      simp [Heap.getService, Heap.enter, counted]
    rw [order, held v]
    have taken : Inv ((m.enter d).getService v) (update (update h t { callDev := some d }) t
        { callDev := some d, service := some v }) :=
      entered.getService (update_self _ _ _) rfl counted (.of_refs rfl)
        (by constructor <;> simp) heldOk_refs
    exact taken.chain
  · rwa [show (Pc.idle : Pc Dev Uuid).held = h t from hx.symm, update_eq_self]

end Starts

section Runs

variable [DecidableEq Dev] [DecidableEq Uuid] [DecidableEq Tid] {s s' : Sys Dev Uuid Tid}
  {a : Act Dev Uuid Tid}

def Sys.held (s : Sys Dev Uuid Tid) (t : Tid) : Held Dev Uuid := (s.threads t).held

omit [DecidableEq Dev] [DecidableEq Uuid] in
theorem Sys.go_held (s : Sys Dev Uuid Tid) (t : Tid) (next : Heap Dev Uuid Tid × Pc Dev Uuid) :
    (s.go t next).held = update s.held t next.2.held := by
  funext w
  by_cases hw : w = t
  · subst hw
    simp [Sys.held, Sys.go]
  · simp [Sys.held, Sys.go, hw]

omit [DecidableEq Dev] [DecidableEq Uuid] in
theorem Sys.go_inv {next : Heap Dev Uuid Tid × Pc Dev Uuid}
    (inv : Inv next.1 (update s.held t next.2.held)) : Inv (s.go t next).heap (s.go t next).held := by
  rwa [Sys.go_held]

theorem startOpenSession_inv (inv : Inv s.heap s.held)
    (moved : step s (.openSession t d u) = some s') : Inv s'.heap s'.held := by
  simp only [step] at moved
  split at moved
  · rename_i may
    obtain ⟨idle, open_, steady, free⟩ := may
    obtain ⟨n, counted⟩ := Option.isSome_iff_exists.1 open_
    rw [inv.badDev_false counted, if_neg Bool.false_ne_true, Option.some.injEq] at moved
    subst moved
    exact Sys.go_inv (startOpen_inv inv (by rw [Sys.held, idle]; rfl) open_ steady free)
  · simp at moved

/-- `tc_ns_close_session` and `tc_ns_send_cmd` begin with `get_service`. -/
theorem startCall_inv {next : ServicePtr → Pc Dev Uuid} (inv : Inv s.heap s.held)
    (held : ∀ v, (next v).held = { callDev := some d, service := some v })
    (moved : (if s.mayStart t d then
      if s.heap.badDev d then some s.setFault
      else some (s.go t (startFound s.heap d u next)) else none) = some s') :
    Inv s'.heap s'.held := by
  split at moved
  · rename_i may
    obtain ⟨idle, open_, steady, free⟩ := may
    obtain ⟨n, counted⟩ := Option.isSome_iff_exists.1 open_
    rw [inv.badDev_false counted, if_neg Bool.false_ne_true, Option.some.injEq] at moved
    subst moved
    exact Sys.go_inv (startFound_inv inv (by rw [Sys.held, idle]; rfl) open_ steady held)
  · simp at moved

theorem release_inv (inv : Inv s.heap s.held) (moved : step s (.release t d) = some s') :
    Inv s'.heap s'.held := by
  simp only [step] at moved
  split at moved
  · rename_i may
    obtain ⟨idle, quiet, steady⟩ := may
    obtain rfl := Option.some.inj moved
    refine Sys.go_inv (inv.release (x := {}) ?_ quiet steady rfl (.of_refs rfl)
      (Pc.held_shape _) (heldOk_fd (update_self _ _ _) trivial (Or.inl rfl)))
    rw [Sys.held, idle]
    rfl
  · simp at moved

theorem step_inv (inv : Inv s.heap s.held) (moved : step s a = some s') :
    Inv s'.heap s'.held := by
  cases a with
  | openDev d =>
    simp only [step] at moved
    split at moved
    · rename_i free
      obtain rfl := Option.some.inj moved
      exact inv.openDev free
    · simp at moved
  | openSession t d u => exact startOpenSession_inv inv moved
  | closeSession t d u id => exact startCall_inv inv (fun _ => rfl) moved
  | sendCmd t d u id => exact startCall_inv inv (fun _ => rfl) moved
  | release t d => exact release_inv inv moved
  | run t env =>
    simp only [step] at moved
    rw [inv.bad_false rfl, if_neg Bool.false_ne_true] at moved
    obtain ⟨⟨m', next⟩, ran, rfl⟩ := Option.map_eq_some_iff.1 moved
    exact Sys.go_inv (run_keeps _ _ m' _ t env next inv rfl ran)

omit [DecidableEq Dev] [DecidableEq Uuid] [DecidableEq Tid] in
theorem init_inv : Inv (Sys.init : Sys Dev Uuid Tid).heap (Sys.init : Sys Dev Uuid Tid).held := by
  constructor
  · rfl
  · refine .empty (fun r => ?_) (fun _ => rfl)
    cases r <;> rfl
  · refine .empty (fun r => ?_) (fun _ => rfl)
    cases r <;> rfl
  · refine .empty (fun r => ?_) (fun k => ?_)
    · cases r <;> rfl
    · simp [devCount, Heap.findService, Sys.init, Heap.init]
  · exact .empty (fun _ => rfl) (fun _ => rfl)
  · refine ⟨fun t => heldOk_refs, fun t => Pc.held_shape _, ?_, ?_⟩
    · intro t u e he
      simp [Sys.held, Sys.init, Pc.held] at he
    · intro t u d hd
      simp [Sys.held, Sys.init, Pc.held, Held.fdDev] at hd
  · constructor <;> simp [Sys.init, Heap.init]
  all_goals simp [Sys.init, Heap.init]

theorem reach_inv (run : Reach step (fun _ _ => True) Sys.init s) : Inv s.heap s.held :=
  run.invariant (P := fun s => Inv s.heap s.held) init_inv
    fun _ _ _ inv _ moved => step_inv inv moved

end Runs

section Quiescent

/-- The counters of the tables, when no call is in progress. -/
structure Accounted (m : Heap Dev Uuid Tid) : Prop where
  usage : ∀ v ∈ m.serviceList, ∃ n, m.usage v = some n ∧
    {p : Dev × Fin servicesMaxCount | m.services p.1 p.2 = some v}.encard = n
  listed : ∀ v, v ∈ m.serviceList ↔ ∃ n, m.usage v = some n ∧ 0 < n
  slots : ∀ d i v, m.services d i = some v → v ∈ m.serviceList
  uuid : ∀ v ∈ m.serviceList, ∀ w ∈ m.serviceList, m.uuid v = m.uuid w → v = w
  distinct : ∀ d i j v, m.services d i = some v → m.services d j = some v → i = j
  refs : ∀ d i v, m.services d i = some v → m.serviceRef d i ≤ 255 ∧
    {e | e ∈ m.sessionList v ∧ m.owner e = some d}.encard = m.serviceRef d i
  once : m.serviceList.Nodup ∧ ∀ v, (m.sessionList v).Nodup
  sessions : ∀ v ∈ m.serviceList, ∀ e ∈ m.sessionList v, m.sessionUsage e = some 1

variable (idle : ∀ t, h t = {})

include idle

theorem Inv.steady_of_idle (inv : Inv m h) (d : Dev) : m.closing d = none := by
  cases closing : m.closing d with
  | none => rfl
  | some index =>
    obtain ⟨-, -, t, st, at_, -⟩ := inv.closing d index closing
    simp [idle t] at at_

theorem Inv.usage_of_idle (inv : Inv m h) {n : Nat} (counted : m.usage v = some n) :
    {p : Dev × Fin servicesMaxCount | m.services p.1 p.2 = some v}.encard = n := by
  rw [← inv.svc.exact v n counted]
  have image : {r | svcRef m h r = some v} =
      (fun p : Dev × Fin servicesMaxCount => SvcRef.slot p.1 p.2) ''
        {p | m.services p.1 p.2 = some v} := by
    ext r
    cases r with
    | slot d i => simp [svcRef, slot_of_steady (inv.steady_of_idle idle d)]
    | call t | handed t => simp [svcRef, idle t]
  rw [image]
  refine (Set.InjOn.encard_image ?_).symm
  rintro ⟨d, i⟩ - ⟨c, j⟩ - same
  simpa using same

theorem Inv.refs_of_idle (inv : Inv m h) {i : Fin servicesMaxCount}
    (slot : m.services d i = some v) :
    {e | e ∈ m.sessionList v ∧ m.owner e = some d}.encard = m.serviceRef d i := by
  have steady := inv.steady_of_idle idle
  rw [← inv.dev.exact (d, v) _ (inv.counted (steady d) slot)]
  have image : {r | devRef m h r = some (d, v)} =
      (DevRef.session v) '' {e | e ∈ m.sessionList v ∧ m.owner e = some d} := by
    ext r
    cases r with
    | session w e =>
      constructor
      · intro held
        by_cases listed : e ∈ m.sessionList w
        · simp only [Set.mem_ofPred_eq, devRef, listed, if_true] at held
          obtain ⟨c, owner, same⟩ := Option.map_eq_some_iff.1 held
          obtain ⟨rfl, rfl⟩ := Prod.mk.inj same
          exact ⟨e, ⟨listed, (Option.filter_eq_some_iff.1 owner).1⟩, rfl⟩
        · simp [devRef, listed] at held
      · rintro ⟨f, ⟨listed, owner⟩, same⟩
        obtain ⟨rfl, rfl⟩ := DevRef.session.inj same
        exact devRef_session listed owner (steady d)
    | call t => simp [devRef, idle t]
  rw [image]
  refine (Set.InjOn.encard_image ?_).symm
  intro e _ f _ same
  simpa using same

theorem Inv.session_of_idle (inv : Inv m h) (listed : e ∈ m.sessionList v) :
    m.sessionUsage e = some 1 := by
  obtain ⟨n, counted⟩ := inv.listed_session listed
  have single : {r | sessRef m h r = some e} = {SessRef.listed v e} := by
    ext r
    cases r with
    | listed w f =>
      by_cases there : f ∈ m.sessionList w
      · simp only [sessRef, there, if_true, Option.some.injEq, Set.mem_ofPred_eq,
          Set.mem_singleton_iff, SessRef.listed.injEq]
        constructor
        · rintro rfl
          exact ⟨inv.apart w v f there listed, rfl⟩
        · exact And.right
      · have other : ¬ (w = v ∧ f = e) := by
          rintro ⟨rfl, rfl⟩
          exact there listed
        simp [sessRef, there, other]
    | call t | taken t => simp [sessRef, idle t]
  have one := inv.sess.exact e (n + 1) counted
  rw [single, Set.encard_singleton] at one
  have last : 1 = n + 1 := by exact_mod_cast one
  rw [counted, ← last]

theorem Inv.accounted (inv : Inv m h) : Accounted m where
  usage := by
    intro v listed
    obtain ⟨n, counted⟩ := (inv.services.listed v).1 listed
    exact ⟨n, counted, inv.usage_of_idle idle counted⟩
  listed := by
    intro v
    rw [inv.services.listed v]
    constructor
    · rintro ⟨n, counted⟩
      refine ⟨n, counted, Nat.pos_of_ne_zero ?_⟩
      rintro rfl
      exact inv.services.used v counted
    · rintro ⟨n, counted, -⟩
      exact ⟨n, counted⟩
  slots := by
    intro d i v slot
    rw [inv.services.listed v]
    exact inv.svc.valid (.slot d i) v ((slot_of_steady (inv.steady_of_idle idle d)).trans slot)
  uuid := by
    intro v hv w hw same
    obtain ⟨n, alive⟩ := (inv.services.listed v).1 hv
    obtain ⟨k, also⟩ := (inv.services.listed w).1 hw
    exact inv.services.uuid v w n k alive also same
  distinct := inv.slots
  refs := by
    intro d i v slot
    exact ⟨(inv.refs d i v (inv.steady_of_idle idle d) slot).2, inv.refs_of_idle idle slot⟩
  once := ⟨inv.services.nodup, inv.nodup⟩
  sessions := fun v _ e listed => inv.session_of_idle idle listed

end Quiescent

section Result

variable [DecidableEq Dev] [DecidableEq Uuid] [DecidableEq Tid] {s : Sys Dev Uuid Tid}

/-- In every run no step reaches a freed object or drops a count that is zero, no pointer of
a table, a list or a call is to a freed object, no `service_ref` of a table entry is zero or
past 255, and whenever no call is in progress the counters are exact. -/
theorem references_counted (run : Reach step (fun _ _ => True) Sys.init s) :
    s.heap.fault = false ∧ (∀ t, s.heap.bad (s.threads t) = false) ∧
      (∀ d, s.heap.calls d ≠ none → s.heap.badDev d = false) ∧
      (∀ d i v, s.heap.closing d = none → s.heap.services d i = some v →
        0 < s.heap.serviceRef d i ∧ s.heap.serviceRef d i ≤ 255) ∧
      ((∀ t, s.threads t = .idle) → Accounted s.heap) := by
  have inv := reach_inv run
  refine ⟨inv.noFault, fun t => inv.bad_false rfl, fun d open_ => ?_, inv.refs, fun idle => ?_⟩
  · obtain ⟨n, counted⟩ := Option.ne_none_iff_exists'.1 open_
    exact inv.badDev_false counted
  · refine inv.accounted fun t => ?_
    rw [Sys.held, idle t]
    rfl

/-- Two clients open a session of one service, and the first closes its device. -/
theorem references_counted_two_clients :
    ∃ s : Sys Nat Nat (Fin 2), Reach step (fun _ _ => True) Sys.init s ∧
      (∀ t, s.threads t = .idle) ∧ s.heap.serviceList = [0] ∧ s.heap.usage 0 = some 1 ∧
      s.heap.services 2 0 = some 0 ∧ s.heap.fault = false ∧ Accounted s.heap := by
  obtain ⟨s, run, good⟩ := reach_of_play step (fun _ _ => True)
    (fun s : Sys Nat Nat (Fin 2) => decide ((∀ t, s.threads t = .idle) ∧
      s.heap.serviceList = [0] ∧ s.heap.usage 0 = some 1 ∧ s.heap.services 2 0 = some 0))
    Sys.init
    ([.openDev 1, .openDev 2, .openSession 0 1 7] ++ List.replicate 3 (.run 0 {}) ++
      [.openSession 1 2 7, .run 0 {}] ++ List.replicate 3 (.run 1 {}) ++
      [.run 0 { opened := some 5 }, .run 0 {}, .run 1 {}, .run 1 { opened := some 6 }, .run 1 {},
       .release 0 1] ++ List.replicate 39 (.run 0 {}))
    (by decide +kernel)
  simp only [decide_eq_true_eq] at good
  obtain ⟨idle, list, usage, slot⟩ := good
  obtain ⟨fault, -, -, -, quiet⟩ := references_counted run
  exact ⟨s, run, idle, list, usage, slot, fault, quiet idle⟩

end Result

end SessionManager
