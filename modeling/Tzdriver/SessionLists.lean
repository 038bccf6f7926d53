import Tzdriver.SessionOps

/-!
# Operations on sessions and session lists

A session is private to the call that allocated it until `init_new_sess_node` puts it on
the list of its service. Only the holder of `operation_lock` takes a session off the list.
-/

namespace SessionManager

open Function RefLedger ActionSystem

variable {Dev Uuid Tid : Type*} [DecidableEq Dev] [DecidableEq Tid] {m : Heap Dev Uuid Tid}
  {h : Tid → Held Dev Uuid} {t : Tid} {x y : Held Dev Uuid}

section Sessions

variable {e : SessionPtr}

omit [DecidableEq Dev] [DecidableEq Tid] in
theorem Inv.used_session (inv : Inv m h) {n : Nat} (used : m.sessionUsage e = some n) :
    e ≠ m.nextSession := (inv.freshSession e n used).ne

omit [DecidableEq Dev] [DecidableEq Tid] in
theorem Inv.newSession_owner (inv : Inv m h) {v : ServicePtr} (listed : e ∈ m.sessionList v) :
    m.newSession.owner e = m.owner e := by
  obtain ⟨n, used⟩ := inv.listed_session listed
  exact update_of_ne (inv.used_session used) _ _

omit [DecidableEq Dev] [DecidableEq Tid] in
theorem Inv.newSession_held (inv : Inv m h) {u : Tid} {z : Held Dev Uuid} (ok : HeldOk m u z) :
    HeldOk m.newSession u z :=
  { ok with
    priv := fun e he =>
      (update_of_ne (inv.used_session (ok.priv e he)) _ _).trans (ok.priv e he)
    listed := fun d v e he =>
      have old := ok.listed d v e he
      ⟨old.1, (inv.newSession_owner old.1).trans old.2⟩
    fd := by
      intro d st at_
      obtain ⟨index, closing, stage⟩ := ok.fd d st at_
      refine ⟨index, closing, ?_⟩
      cases st with
      | scan => trivial
      | chosen v | busy v => exact stage
      | finished v =>
        refine ⟨stage.1, fun e listed => ?_⟩
        rw [inv.newSession_owner listed]
        exact stage.2 e listed }

/-- `kzalloc` of a session, which nobody else knows. -/
theorem Inv.newSession (inv : Inv m h) (hx : h t = x)
    (same : SameRefs { x with priv := some m.nextSession } y) (shape : y.Shape)
    (ok : HeldOk m.newSession t y) : Inv m.newSession (update h t y) :=
  { inv with
    svc := by rw [svcRef_keep hx same.service same.handed]; exact inv.svc
    sess := by
      have gone : m.sessionUsage m.nextSession = none := by
        cases used : m.sessionUsage m.nextSession with
        | none => rfl
        | some n => exact absurd rfl (inv.used_session used)
      rw [sessRef_keep hx same.session same.taken]
      exact inv.sess.alloc gone
    dev := by
      have refs : devRef m.newSession h = devRef m h := by
        funext r
        cases r with
        | call => rfl
        | session v e =>
          simp only [devRef]
          split
          · rename_i listed
            have same := inv.newSession_owner listed
            rw [if_pos (show e ∈ m.sessionList v from listed), openOwner, same]
            rfl
          · rename_i unlisted
            rw [if_neg (show e ∉ m.sessionList v from unlisted)]
      rw [devRef_keep hx same.devRef, refs]
      exact inv.dev
    call := by rw [callRef_keep hx same.callDev]; exact inv.call
    threads :=
      { held := (forall_update_iff h fun u z => HeldOk m.newSession u z).2
          ⟨ok, fun u _ => inv.newSession_held (inv.threads.held u)⟩
        shape := (forall_update_iff h fun _ z => z.Shape).2
          ⟨shape, fun u _ => inv.threads.shape u⟩
        privX := by
          refine inv.threads.privX.update ?_
          intro r hr u _ hu
          rw [same.priv, Option.some.injEq] at hr
          exact inv.used_session ((inv.threads.held u).priv r hu) hr.symm
        fdX := inv.threads.fdX.shrink fun d hd => by rw [hx]; exact same.fdDev ▸ hd }
    freshSession := by
      intro e n used
      by_cases he : e = m.nextSession
      · exact he ▸ Nat.lt_succ_self _
      · have old : m.sessionUsage e = some n := by
          rw [← used]
          exact (update_of_ne he _ _).symm
        exact Nat.lt_succ_of_lt (inv.freshSession e n old)
    owned := by
      intro v e listed
      rw [inv.newSession_owner listed]
      exact inv.owned v e listed
    closing := by
      intro d index hd
      obtain ⟨quiet, bound, u, st, at_, left⟩ := inv.closing d index hd
      have left' : Closing m.newSession h d index := by
        refine ⟨u, st, at_, fun i v late slot => ?_⟩
        rcases left i v late slot with busy | ⟨e, listed, owner⟩
        · exact Or.inl busy
        · exact Or.inr ⟨e, listed, (inv.newSession_owner listed).trans owner⟩
      exact ⟨quiet, bound, left'.thread hx same.fd⟩ }

/-- The session count changes for a session that nobody holds privately. -/
theorem Inv.setSessionUsage (inv : Inv m h) (hx : h t = x) {n : Nat} {c : Option Nat}
    (old : m.sessionUsage e = some (n + 1))
    (sess : Balanced (sessRef m (update h t y)) (update m.sessionUsage e c))
    (callDev : y.callDev = x.callDev) (fd : y.fd = x.fd) (service : y.service = x.service)
    (handed : y.handed = x.handed) (devRef : y.devRef = x.devRef) (priv : y.priv = x.priv)
    (shape : y.Shape) (ok : HeldOk m t y) :
    Inv { m with sessionUsage := update m.sessionUsage e c } (update h t y) := by
  have kept : ∀ u z, HeldOk m u z →
      HeldOk { m with sessionUsage := update m.sessionUsage e c } u z := by
    intro u z ok
    refine { ok with priv := fun e' he' => ?_ }
    have zero := ok.priv e' he'
    have apart : e' ≠ e := by
      rintro rfl
      simp [old] at zero
    exact (update_of_ne apart _ _).trans zero
  exact
  { inv with
    svc := by rw [svcRef_keep hx service handed]; exact inv.svc
    sess := sess
    dev := by rw [devRef_keep hx devRef]; exact inv.dev
    call := by rw [callRef_keep hx callDev]; exact inv.call
    threads := inv.threads.change hx (fun _ he => priv ▸ he)
      (congrArg (Option.map Prod.fst) fd) shape (kept t y ok)
      fun u _ => kept u (h u) (inv.threads.held u)
    freshSession := by
      intro e' k used
      by_cases he : e' = e
      · exact he ▸ inv.freshSession e _ old
      · exact inv.freshSession e' k (by simpa [he] using used)
    closing := fun d index hd =>
      have old := inv.closing d index hd
      ⟨old.1, old.2.1, old.2.2.thread hx fd⟩ }

theorem Inv.getSession (inv : Inv m h) (hx : h t = x) {v : ServicePtr}
    (listed : e ∈ m.sessionList v) (none_ : x.session = none)
    (same : SameRefs { x with session := some e } y) (shape : y.Shape) (ok : HeldOk m t y) :
    Inv (m.getSession e) (update h t y) := by
  obtain ⟨n, counted⟩ := inv.listed_session listed
  have free : sessRef m h (.call t) = none := by rw [sessRef, hx, none_]
  have sess : Balanced (sessRef m (update h t y))
      (update m.sessionUsage e (some (n + 1 + 1))) := by
    rw [sessRef_session hx same.taken, same.session]
    exact inv.sess.acquire free counted
  have heap : m.getSession e =
      { m with sessionUsage := update m.sessionUsage e (some (n + 1 + 1)) } := by
    simp [Heap.getSession, counted]
  rw [heap]
  exact inv.setSessionUsage hx counted sess same.callDev same.fd same.service same.handed
    same.devRef same.priv shape ok

omit [DecidableEq Dev] [DecidableEq Tid] in
theorem putSessionStruct_eq {n : Nat} (counted : m.sessionUsage e = some (n + 1)) :
    m.putSessionStruct e =
      { m with sessionUsage := update m.sessionUsage e (if n = 0 then none else some n) } := by
  simp [Heap.putSessionStruct, counted]

/-- Dropping the reference that a call has taken. -/
theorem Inv.putSession (inv : Inv m h) (hx : h t = x) (mine : x.session = some e)
    (same : SameRefs { x with session := none } y) (shape : y.Shape) (ok : HeldOk m t y) :
    Inv (m.putSessionStruct e) (update h t y) := by
  have held : sessRef m h (.call t) = some e := by rw [sessRef, hx, mine]
  obtain ⟨n, counted⟩ := inv.sess.pos held
  have sess : Balanced (sessRef m (update h t y))
      (update m.sessionUsage e (if n = 0 then none else some n)) := by
    rw [sessRef_session hx same.taken, same.session]
    exact inv.sess.release held counted
  rw [putSessionStruct_eq counted]
  exact inv.setSessionUsage hx counted sess same.callDev same.fd same.service same.handed
    same.devRef same.priv shape ok

/-- Dropping the reference of the session list. -/
theorem Inv.putTaken (inv : Inv m h) (hx : h t = x) (mine : x.taken = some e)
    (same : SameRefs { x with taken := none } y) (shape : y.Shape) (ok : HeldOk m t y) :
    Inv (m.putSessionStruct e) (update h t y) := by
  have held : sessRef m h (.taken t) = some e := by rw [sessRef, hx, mine]
  obtain ⟨n, counted⟩ := inv.sess.pos held
  have sess : Balanced (sessRef m (update h t y))
      (update m.sessionUsage e (if n = 0 then none else some n)) := by
    rw [sessRef_taken hx same.session, same.taken]
    exact inv.sess.release held counted
  rw [putSessionStruct_eq counted]
  exact inv.setSessionUsage hx counted sess same.callDev same.fd same.service same.handed
    same.devRef same.priv shape ok

/-- `kfree` of a session that was never published. -/
theorem Inv.kfreeSession (inv : Inv m h) (hx : h t = x) (mine : x.priv = some e)
    (same : SameRefs { x with priv := none } y) (shape : y.Shape)
    (ok : HeldOk (m.kfreeSession e) t y) : Inv (m.kfreeSession e) (update h t y) := by
  have own : (h t).priv = some e := by rw [hx, mine]
  have zero := (inv.threads.held t).priv e own
  exact
  { inv with
    svc := by rw [svcRef_keep hx same.service same.handed]; exact inv.svc
    sess := by
      rw [sessRef_keep hx same.session same.taken]
      exact inv.sess.discard zero
    dev := by rw [devRef_keep hx same.devRef]; exact inv.dev
    call := by rw [callRef_keep hx same.callDev]; exact inv.call
    threads := inv.threads.change hx (fun _ he => by simp [same.priv] at he) same.fdDev shape ok
      fun u hu =>
        { inv.threads.held u with
          priv := by
            intro e' he'
            have apart : e' ≠ e := by
              rintro rfl
              exact hu (inv.threads.privX u t e' he' own)
            exact (update_of_ne apart _ _).trans ((inv.threads.held u).priv e' he') }
    freshSession := by
      intro e' n used
      by_cases he : e' = e
      · simp [Heap.kfreeSession, he] at used
      · exact inv.freshSession e' n (by simpa [Heap.kfreeSession, he] using used)
    closing := fun d index hd =>
      have old := inv.closing d index hd
      ⟨old.1, old.2.1, old.2.2.thread hx same.fd⟩ }

omit [DecidableEq Dev] [DecidableEq Tid] in
/-- A private session is on no list. -/
theorem Inv.priv_unlisted (inv : Inv m h) {u : Tid} (priv : (h u).priv = some e)
    (v : ServicePtr) : e ∉ m.sessionList v := by
  intro listed
  refine inv.sess.none_of_zero ((inv.threads.held u).priv e priv) (.listed v e) ?_
  simp [sessRef, listed]

end Sessions

section Lists

variable {d : Dev} {v : ServicePtr} {e : SessionPtr} {id : Nat}

omit [DecidableEq Dev] [DecidableEq Tid] in
theorem mem_initNewSessNode {w : ServicePtr} {f : SessionPtr} :
    f ∈ (m.initNewSessNode d v e id).sessionList w ↔
      f ∈ m.sessionList w ∨ w = v ∧ f = e := by
  by_cases hw : w = v
  · subst hw
    simp [Heap.initNewSessNode]
  · simp [Heap.initNewSessNode, hw]

omit [DecidableEq Dev] [DecidableEq Tid] in
theorem initNewSessNode_owner_of_ne {f : SessionPtr} (other : f ≠ e) :
    (m.initNewSessNode d v e id).owner f = m.owner f := update_of_ne other _ _

omit [DecidableEq Dev] [DecidableEq Tid] in
theorem initNewSessNode_owner_self : (m.initNewSessNode d v e id).owner e = some d :=
  update_self _ _ _

omit [DecidableEq Dev] in
theorem sessRef_initNewSessNode :
    sessRef (m.initNewSessNode d v e id) h = update (sessRef m h) (.listed v e) (some e) := by
  funext r
  cases r with
  | listed w f =>
    by_cases hr : w = v ∧ f = e
    · obtain ⟨rfl, rfl⟩ := hr
      simp [sessRef, mem_initNewSessNode]
    · rw [update_of_ne (by simpa using hr)]
      simp [sessRef, mem_initNewSessNode, hr]
  | call | taken => rw [update_of_ne (by simp)]; rfl

omit [DecidableEq Dev] in
theorem devRef_initNewSessNode (unlisted : ∀ w, e ∉ m.sessionList w) (steady : m.closing d = none) :
    devRef (m.initNewSessNode d v e id) h = update (devRef m h) (.session v e) (some (d, v)) := by
  funext r
  cases r with
  | session w f =>
    by_cases hr : w = v ∧ f = e
    · obtain ⟨rfl, rfl⟩ := hr
      rw [update_self]
      exact devRef_session (mem_initNewSessNode.2 (Or.inr ⟨rfl, rfl⟩))
        initNewSessNode_owner_self steady
    · rw [update_of_ne (by simpa using hr)]
      by_cases listed : f ∈ m.sessionList w
      · have same : (m.initNewSessNode d v e id).owner f = m.owner f :=
          initNewSessNode_owner_of_ne fun he => unlisted w (he ▸ listed)
        simp [devRef, mem_initNewSessNode, listed, openOwner, same]
        rfl
      · simp [devRef, mem_initNewSessNode, listed, hr]
  | call => rw [update_of_ne (by simp)]; rfl

omit [DecidableEq Dev] [DecidableEq Tid] in
/-- A call with another private session does not notice that `e` is published. -/
theorem HeldOk.initNewSessNode {u : Tid} {z : Held Dev Uuid} (ok : HeldOk m u z)
    (unlisted : ∀ w, e ∉ m.sessionList w) (steady : m.closing d = none)
    (notMine : z.priv ≠ some e) : HeldOk (m.initNewSessNode d v e id) u z :=
  have listed_ne : ∀ w f, f ∈ m.sessionList w → f ≠ e := by
    rintro w f listed rfl
    exact unlisted w listed
  { ok with
    priv := by
      intro f hf
      have apart : f ≠ e := by
        rintro rfl
        exact notMine hf
      exact (update_of_ne apart _ _).trans (ok.priv f hf)
    listed := by
      intro c w f hf
      obtain ⟨listed, owner⟩ := ok.listed c w f hf
      exact ⟨mem_initNewSessNode.2 (Or.inl listed),
        (initNewSessNode_owner_of_ne (listed_ne w f listed)).trans owner⟩
    fd := by
      intro c st at_
      obtain ⟨index, closing, stage⟩ := ok.fd c st at_
      refine ⟨index, closing, ?_⟩
      cases st with
      | scan => trivial
      | chosen w | busy w => exact stage
      | finished w =>
        refine ⟨stage.1, fun f listed => ?_⟩
        rcases mem_initNewSessNode.1 listed with old | ⟨rfl, rfl⟩
        · rw [initNewSessNode_owner_of_ne (listed_ne w f old)]
          exact stage.2 f old
        · rw [initNewSessNode_owner_self]
          rintro ⟨⟩
          simp [steady] at closing }

/-- `init_new_sess_node` publishes the session, which now stands for the call's reference
in `service_ref`. -/
theorem Inv.publish (inv : Inv m h) (hx : h t = x) (mine : x.priv = some e)
    (ref : x.devRef = some (d, v))
    (same : SameRefs { x with priv := none, devRef := none } y) (shape : y.Shape)
    (ok : HeldOk (m.initNewSessNode d v e id) t y) :
    Inv (m.initNewSessNode d v e id) (update h t y) := by
  have own : (h t).priv = some e := by rw [hx, mine]
  have zero := (inv.threads.held t).priv e own
  have unlisted := inv.priv_unlisted own
  have counted : devRef m h (.call t) = some (d, v) := by rw [devRef, hx, ref]
  have steady := (inv.counted_slot counted).1
  have ownerKept : ∀ w f, f ∈ m.sessionList w →
      (m.initNewSessNode d v e id).owner f = m.owner f := by
    intro w f listed
    exact initNewSessNode_owner_of_ne fun he => unlisted w (he ▸ listed)
  exact
  { inv with
    svc := by rw [svcRef_keep hx same.service same.handed]; exact inv.svc
    sess := by
      have free : sessRef m h (.listed v e) = none := by simp [sessRef, unlisted v]
      rw [sessRef_keep hx same.session same.taken, sessRef_initNewSessNode]
      exact inv.sess.acquire free zero
    dev := by
      have free : devRef m h (.session v e) = none := by simp [devRef, unlisted v]
      have moved := inv.dev.move counted free
      rw [update_comm (by simp)] at moved
      rw [devRef_update, same.devRef, devRef_initNewSessNode unlisted steady]
      exact moved
    call := by rw [callRef_keep hx same.callDev]; exact inv.call
    threads := inv.threads.change hx (fun _ he => by simp [same.priv] at he) same.fdDev shape ok
      fun u hu => (inv.threads.held u).initNewSessNode unlisted steady
        fun his => hu (inv.threads.privX u t e his own)
    freshSession := by
      intro f n used
      by_cases hf : f = e
      · exact hf ▸ inv.freshSession e 0 zero
      · exact inv.freshSession f n (by simpa [Heap.initNewSessNode, hf] using used)
    nodup := by
      intro w
      by_cases hw : w = v
      · subst hw
        simp only [Heap.initNewSessNode, update_self]
        exact (inv.nodup w).append (List.nodup_singleton e) (by simpa using unlisted w)
      · simpa [Heap.initNewSessNode, hw] using inv.nodup w
    apart := by
      intro w z f hw hz
      rcases mem_initNewSessNode.1 hw with old | ⟨rfl, rfl⟩
      · rcases mem_initNewSessNode.1 hz with also | ⟨rfl, rfl⟩
        · exact inv.apart w z f old also
        · exact absurd old (unlisted w)
      · rcases mem_initNewSessNode.1 hz with old | ⟨rfl, -⟩
        · exact absurd old (unlisted z)
        · rfl
    owned := by
      intro w f listed
      rcases mem_initNewSessNode.1 listed with old | ⟨rfl, rfl⟩
      · rw [ownerKept w f old]
        exact inv.owned w f old
      · refine ⟨d, initNewSessNode_owner_self, fun index closing => ?_⟩
        exact absurd closing (by simp [Heap.initNewSessNode, steady])
    closing := by
      intro c index hc
      obtain ⟨quiet, bound, u, st, at_, left⟩ := inv.closing c index hc
      have left' : Closing (m.initNewSessNode d v e id) h c index := by
        refine ⟨u, st, at_, fun i w late slot => ?_⟩
        rcases left i w late slot with busy | ⟨f, listed, owner⟩
        · exact Or.inl busy
        · exact Or.inr ⟨f, mem_initNewSessNode.2 (Or.inl listed),
            (ownerKept w f listed).trans owner⟩
      exact ⟨quiet, bound, left'.thread hx same.fd⟩ }

omit [DecidableEq Dev] [DecidableEq Tid] in
theorem Inv.mem_listDel (inv : Inv m h) {w : ServicePtr} {f : SessionPtr} :
    f ∈ (m.listDel v e).sessionList w ↔ f ∈ m.sessionList w ∧ ¬ (w = v ∧ f = e) := by
  by_cases hw : w = v
  · subst hw
    simp [Heap.listDel, (inv.nodup w).mem_erase_iff, and_comm]
  · simp [Heap.listDel, hw]

omit [DecidableEq Dev] [DecidableEq Tid] in
/-- Under `operation_lock` no other call relies on what is on the list. -/
theorem Inv.listDel_held (inv : Inv m h) {u : Tid} {z : Held Dev Uuid} (ok : HeldOk m u z)
    (apart : ∀ c w f, z.listed = some (c, w, f) → w ≠ v) : HeldOk (m.listDel v e) u z :=
  { ok with
    listed := by
      intro c w f hf
      obtain ⟨listed, owner⟩ := ok.listed c w f hf
      exact ⟨inv.mem_listDel.2 ⟨listed, fun h => apart c w f hf h.1⟩, owner⟩
    fd := by
      intro c st at_
      obtain ⟨index, closing, stage⟩ := ok.fd c st at_
      refine ⟨index, closing, ?_⟩
      cases st with
      | scan => trivial
      | chosen w | busy w => exact stage
      | finished w => exact ⟨stage.1, fun f listed => stage.2 f (inv.mem_listDel.1 listed).1⟩ }

omit [DecidableEq Dev] [DecidableEq Tid] in
theorem Inv.listed_apart (inv : Inv m h) {u w : Tid} (locked : (h w).opLock = some v)
    (other : u ≠ w) {c : Dev} {z : ServicePtr} {f : SessionPtr}
    (listed : (h u).listed = some (c, z, f)) : z ≠ v := by
  rintro rfl
  have his := (inv.threads.held u).op z ((inv.threads.shape u).listed c z f listed).2
  have own := (inv.threads.held w).op z locked
  rw [his, Option.some.injEq] at own
  exact other own

omit [DecidableEq Dev] in
theorem Inv.sessRef_listDel (inv : Inv m h) :
    sessRef (m.listDel v e) h = update (sessRef m h) (.listed v e) none := by
  funext r
  cases r with
  | listed w f =>
    by_cases hr : w = v ∧ f = e
    · obtain ⟨rfl, rfl⟩ := hr
      simp [sessRef, inv.mem_listDel]
    · rw [update_of_ne (by simpa using hr)]
      simp [sessRef, inv.mem_listDel, hr]
  | call | taken => rw [update_of_ne (by simp)]; rfl

omit [DecidableEq Dev] in
theorem Inv.devRef_listDel (inv : Inv m h) :
    devRef (m.listDel v e) h = update (devRef m h) (.session v e) none := by
  funext r
  cases r with
  | session w f =>
    by_cases hr : w = v ∧ f = e
    · obtain ⟨rfl, rfl⟩ := hr
      simp [devRef, inv.mem_listDel]
    · rw [update_of_ne (by simpa using hr)]
      simp [devRef, inv.mem_listDel, hr]
      rfl
  | call => rw [update_of_ne (by simp)]; rfl

/-- `list_del` by the holder of `operation_lock`, who takes the list's reference over. -/
theorem Inv.listDel (inv : Inv m h) (hx : h t = x) (locked : x.opLock = some v)
    (listed : e ∈ m.sessionList v) (none_ : x.taken = none)
    (dev : Balanced (devRef (m.listDel v e) (update h t y)) (devCount m))
    (closing : ∀ c index, m.closing c = some index → Closing (m.listDel v e) h c index)
    (callDev : y.callDev = x.callDev) (fd : y.fd = x.fd) (service : y.service = x.service)
    (handed : y.handed = x.handed) (session : y.session = x.session) (taken : y.taken = some e)
    (priv : y.priv = x.priv) (shape : y.Shape) (ok : HeldOk (m.listDel v e) t y) :
    Inv (m.listDel v e) (update h t y) :=
  { inv with
    svc := by rw [svcRef_keep hx service handed]; exact inv.svc
    sess := by
      have held : sessRef m h (.listed v e) = some e := by simp [sessRef, listed]
      have free : sessRef m h (.taken t) = none := by rw [sessRef, hx, none_]
      rw [sessRef_taken hx session, taken, inv.sessRef_listDel]
      exact inv.sess.move held free
    dev := dev
    call := by rw [callRef_keep hx callDev]; exact inv.call
    threads := inv.threads.change hx (fun _ he => priv ▸ he)
      (congrArg (Option.map Prod.fst) fd) shape ok fun u hu =>
        inv.listDel_held (inv.threads.held u) fun c w f hf =>
          inv.listed_apart (by rw [hx, locked]) hu hf
    nodup := by
      intro w
      by_cases hw : w = v
      · subst hw
        simpa [Heap.listDel] using (inv.nodup w).erase e
      · simpa [Heap.listDel, hw] using inv.nodup w
    apart := fun w z f hw hz => inv.apart w z f (inv.mem_listDel.1 hw).1 (inv.mem_listDel.1 hz).1
    owned := fun w f hf => inv.owned w f (inv.mem_listDel.1 hf).1
    closing := fun c index hc =>
      have old := inv.closing c index hc
      ⟨old.1, old.2.1, (closing c index hc).thread hx fd⟩ }

/-- `tc_ns_close_session` takes the session off the list. -/
theorem Inv.unlist (inv : Inv m h) (hx : h t = x) (at_ : x.listed = some (d, v, e))
    (none_ : x.taken = none) (noRef : x.devRef = none)
    (same : SameRefs { x with taken := some e, devRef := some (d, v) } y) (shape : y.Shape)
    (ok : HeldOk (m.listDel v e) t y) : Inv (m.listDel v e) (update h t y) := by
  have mine : (h t).listed = some (d, v, e) := by rw [hx, at_]
  obtain ⟨listed, owner⟩ := (inv.threads.held t).listed d v e mine
  obtain ⟨onDev, locked⟩ := (inv.threads.shape t).listed d v e mine
  have steady := inv.steady onDev
  rw [hx] at locked
  refine inv.listDel hx locked listed none_ ?_ ?_ same.callDev same.fd same.service same.handed
    same.session same.taken same.priv shape ok
  · have free : devRef m h (.call t) = none := by rw [devRef, hx, noRef]
    rw [devRef_update, same.devRef, inv.devRef_listDel]
    exact inv.dev.move (devRef_session listed owner steady) free
  · intro c index hc
    obtain ⟨-, -, u, st, stage, left⟩ := inv.closing c index hc
    refine ⟨u, st, stage, fun i w late slot => ?_⟩
    rcases left i w late slot with busy | ⟨f, hf, his⟩
    · exact Or.inl busy
    · refine Or.inr ⟨f, inv.mem_listDel.2 ⟨hf, ?_⟩, his⟩
      rintro ⟨rfl, rfl⟩
      rw [owner, Option.some.injEq] at his
      rw [← his, steady] at hc
      cases hc

/-- `close_session_thread_fn` takes a session of its device off the list. -/
theorem Inv.fdUnlist (inv : Inv m h) (hx : h t = x) (stage : x.fd = some (d, .busy v))
    (locked : x.opLock = some v) (listed : e ∈ m.sessionList v) (owner : m.owner e = some d)
    (none_ : x.taken = none) (same : SameRefs { x with taken := some e } y) (shape : y.Shape)
    (ok : HeldOk (m.listDel v e) t y) : Inv (m.listDel v e) (update h t y) := by
  obtain ⟨index₀, closing₀, -⟩ := (inv.threads.held t).fd d (.busy v) (by rw [hx, stage])
  refine inv.listDel hx locked listed none_ ?_ ?_ same.callDev same.fd same.service same.handed
    same.session same.taken same.priv shape ok
  · have unbooked : devRef m h (.session v e) = none := by
      simp [devRef, listed, openOwner, owner, closing₀]
    rw [devRef_keep hx same.devRef, inv.devRef_listDel, ← unbooked, update_eq_self]
    exact inv.dev
  · intro c index hc
    obtain ⟨-, -, u, st, at_, left⟩ := inv.closing c index hc
    by_cases hcd : c = d
    · subst hcd
      have mine : u = t := by
        refine inv.threads.fdX u t c ?_ ?_
        · rw [Held.fdDev, at_]; rfl
        · rw [Held.fdDev, hx, stage]; rfl
      rw [mine, hx, stage] at at_
      obtain ⟨-, rfl⟩ := Prod.mk.inj (Option.some.inj at_)
      refine ⟨t, .busy v, by rw [hx, stage], fun i w late slot => ?_⟩
      by_cases hw : w = v
      · exact Or.inl (Or.inl (by rw [hw]))
      · rcases left i w late slot with busy | ⟨f, hf, his⟩
        · exact Or.inl busy
        · exact Or.inr ⟨f, inv.mem_listDel.2 ⟨hf, fun h => hw h.1⟩, his⟩
    · refine ⟨u, st, at_, fun i w late slot => ?_⟩
      rcases left i w late slot with busy | ⟨f, hf, his⟩
      · exact Or.inl busy
      · refine Or.inr ⟨f, inv.mem_listDel.2 ⟨hf, ?_⟩, his⟩
        rintro ⟨rfl, rfl⟩
        rw [owner, Option.some.injEq] at his
        exact hcd his.symm

end Lists

end SessionManager
