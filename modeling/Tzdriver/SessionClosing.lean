import Tzdriver.SessionLists

/-!
# Closing a device file

`close_session_thread_fn` goes through the table of a device that no call uses any more,
takes the sessions of the device off the lists and drops the reference of each entry.
Opening and freeing a device stand here as well.
-/

namespace SessionManager

open Function RefLedger ActionSystem

variable {Dev Uuid Tid : Type*} [DecidableEq Dev] [DecidableEq Tid] {m : Heap Dev Uuid Tid}
  {h : Tid → Held Dev Uuid} {t : Tid} {x y : Held Dev Uuid}

section Closings

variable {d : Dev} {v : ServicePtr} {st st' : FdStage} {index : Nat}

/-- `close_session_thread_fn` goes on with the entry it looks at. -/
theorem Inv.stage (inv : Inv m h) (hx : h t = x) (old : x.fd = some (d, st))
    (mono : ∀ v, st.worksOn v → st'.worksOn v)
    (same : SameRefs { x with fd := some (d, st') } y) (shape : y.Shape) (ok : HeldOk m t y) :
    Inv m (update h t y) :=
  { inv with
    svc := by rw [svcRef_keep hx same.service same.handed]; exact inv.svc
    sess := by rw [sessRef_keep hx same.session same.taken]; exact inv.sess
    dev := by rw [devRef_keep hx same.devRef]; exact inv.dev
    call := by rw [callRef_keep hx same.callDev]; exact inv.call
    threads := inv.threads.change hx (fun _ he => same.priv ▸ he)
      (by rw [same.fdDev, Held.fdDev, Held.fdDev, old]; rfl) shape ok
      fun u _ => inv.threads.held u
    closing := by
      intro c k hc
      obtain ⟨quiet, bound, u, su, at_, left⟩ := inv.closing c k hc
      refine ⟨quiet, bound, ?_⟩
      by_cases hu : u = t
      · rw [hu, hx, old] at at_
        obtain ⟨rfl, rfl⟩ := Prod.mk.inj (Option.some.inj at_)
        refine ⟨t, st', by rw [update_self, same.fd], fun i w late slot => ?_⟩
        exact (left i w late slot).imp_left (mono w)
      · exact ⟨u, su, by rw [update_of_ne hu, at_], left⟩ }

omit [DecidableEq Tid] in
theorem HeldOk.setClosing {u : Tid} {z : Held Dev Uuid} (ok : HeldOk m u z)
    (other : z.fdDev ≠ some d) : HeldOk (m.setClosing d index) u z :=
  { ok with
    fd := by
      intro c su at_
      have hc : c ≠ d := by
        rintro rfl
        exact other (by rw [Held.fdDev, at_]; rfl)
      obtain ⟨k, closing, stage⟩ := ok.fd c su at_
      refine ⟨k, (update_of_ne hc _ _).trans closing, ?_⟩
      cases su with
      | scan => trivial
      | chosen w | busy w | finished w => exact stage }

omit [DecidableEq Dev] [DecidableEq Tid] in
theorem Inv.fdDev_other (inv : Inv m h) (hx : h t = x) (mine : x.fdDev = some d) {u : Tid}
    (hu : u ≠ t) : (h u).fdDev ≠ some d :=
  fun his => hu (inv.threads.fdX u t d his (by rw [hx, mine]))

omit [DecidableEq Tid] in
theorem setClosing_devRef (closing : m.closing d ≠ none) :
    devRef (m.setClosing d index) h = devRef m h := by
  have same : ∀ c, ((m.setClosing d index).closing c).isNone = (m.closing c).isNone := by
    intro c
    by_cases hc : c = d
    · subst hc
      rw [Option.isNone_eq_false_iff.2 (Option.isSome_iff_ne_none.2 closing)]
      simp [Heap.setClosing]
    · simp [Heap.setClosing, hc]
  funext r
  cases r with
  | session w f =>
    simp only [devRef, openOwner, same]
    rfl
  | call => rfl

omit [DecidableEq Tid] in
theorem setClosing_devCount (closing : m.closing d ≠ none) :
    devCount (m.setClosing d index) = devCount m := by
  funext k
  by_cases hk : k.1 = d
  · have now : ((m.setClosing d index).closing k.1) = some index := by
      simp [Heap.setClosing, hk]
    have before : (m.closing k.1).isNone = false := by
      rw [hk]
      exact Option.isNone_eq_false_iff.2 (Option.isSome_iff_ne_none.2 closing)
    simp [devCount, now, before]
  · have same : (m.setClosing d index).closing k.1 = m.closing k.1 := update_of_ne hk _ _
    simp only [devCount, same]
    rfl

omit [DecidableEq Tid] in
theorem openOwner_release (e : SessionPtr) :
    openOwner (m.setClosing d 0) e = (openOwner m e).filter fun c => decide (c ≠ d) := by
  cases owner : m.owner e with
  | none =>
    have same : (m.setClosing d 0).owner e = none := owner
    simp [openOwner, owner, same]
  | some c =>
    have same : (m.setClosing d 0).owner e = some c := owner
    by_cases hc : c = d
    · subst hc
      have now : (m.setClosing c 0).closing c = some 0 := update_self _ _ _
      cases hm : m.closing c <;> simp [openOwner, owner, same, now, hm, Option.filter]
    · have now : (m.setClosing d 0).closing c = m.closing c := update_of_ne hc _ _
      cases hm : m.closing c <;> simp [openOwner, owner, same, now, hc, hm, Option.filter]

omit [DecidableEq Tid] in
theorem devCount_release :
    devCount (m.setClosing d 0) = fun k => if decide (k.1 ≠ d) then devCount m k else none := by
  funext k
  by_cases hk : k.1 = d
  · have now : (m.setClosing d 0).closing k.1 = some 0 := by rw [hk]; exact update_self _ _ _
    simp only [devCount, now]
    simp [hk]
  · have same : (m.setClosing d 0).closing k.1 = m.closing k.1 := update_of_ne hk _ _
    simp only [devCount, same, hk, ne_eq, not_false_eq_true, decide_true, if_true]
    rfl

omit [DecidableEq Tid] in
theorem Inv.devRef_release (inv : Inv m h) (quiet : m.calls d = some 0) :
    devRef (m.setClosing d 0) h =
      fun r => (devRef m h r).filter fun k => decide (k.1 ≠ d) := by
  funext r
  cases r with
  | session w e =>
    have lists : (m.setClosing d 0).sessionList w = m.sessionList w := rfl
    simp only [devRef, lists, openOwner_release]
    split
    · cases openOwner m e with
      | none => rfl
      | some c => by_cases hc : c = d <;> simp [hc, Option.filter]
    · rfl
  | call u =>
    cases ref : (h u).devRef with
    | none => simp [devRef, ref]
    | some k =>
      have apart : k.1 ≠ d := by
        intro hk
        exact inv.call.none_of_zero quiet u (hk ▸ (inv.threads.shape u).devRef k.1 k.2 ref)
      simp [devRef, ref, apart, Option.filter]

omit [DecidableEq Dev] [DecidableEq Tid] in
/-- With no call in progress every table entry stands for a session on the list. -/
theorem Inv.entry_session (inv : Inv m h) (quiet : m.calls d = some 0)
    (steady : m.closing d = none) {i : Fin servicesMaxCount} (slot : m.services d i = some v) :
    ∃ e ∈ m.sessionList v, m.owner e = some d := by
  have pos := (inv.refs d i v steady slot).1
  have count := inv.dev.exact (d, v) _ (inv.counted steady slot)
  obtain ⟨r, hr⟩ : {r | devRef m h r = some (d, v)}.Nonempty := by
    rw [← Set.encard_pos, count]
    exact_mod_cast pos
  cases r with
  | call u =>
    exact absurd ((inv.threads.shape u).devRef d v hr) (inv.call.none_of_zero quiet u)
  | session w e =>
    have hr : devRef m h (.session w e) = some (d, v) := hr
    simp only [devRef] at hr
    split at hr
    · rename_i listed
      obtain ⟨c, hc, pair⟩ := Option.map_eq_some_iff.1 hr
      obtain ⟨rfl, rfl⟩ := Prod.mk.inj pair
      exact ⟨e, listed, (Option.filter_eq_some_iff.1 hc).1⟩
    · simp at hr

omit [DecidableEq Tid] in
theorem setClosing_of_ne {c : Dev} (other : c ≠ d) :
    (m.setClosing d index).closing c = m.closing c := update_of_ne other _ _

omit [DecidableEq Tid] in
theorem setClosing_self : (m.setClosing d index).closing d = some index := update_self _ _ _

omit [DecidableEq Tid] in
theorem Inv.refs_setClosing (inv : Inv m h) (index : Nat) (c : Dev) (i : Fin servicesMaxCount)
    (w : ServicePtr) (steady : (m.setClosing d index).closing c = none)
    (slot : m.services c i = some w) :
    0 < m.serviceRef c i ∧ m.serviceRef c i ≤ maxRefCount := by
  have apart : c ≠ d := by
    rintro rfl
    rw [setClosing_self] at steady
    cases steady
  rw [setClosing_of_ne apart] at steady
  exact inv.refs c i w steady slot

omit [DecidableEq Tid] in
theorem Inv.gone_setClosing (inv : Inv m h) (quiet : m.calls d = some 0) (index : Nat) (c : Dev)
    (gone : m.calls c = none) :
    (m.setClosing d index).closing c = none ∧ ∀ i, m.services c i = none := by
  have apart : c ≠ d := by
    rintro rfl
    rw [quiet] at gone
    cases gone
  rw [setClosing_of_ne apart]
  exact inv.gone c gone

omit [DecidableEq Dev] in
/-- A thread that does not close `c` has no part in its progress. -/
theorem Closing.other {c : Dev} (hx : h t = x) (off : x.fdDev ≠ some c)
    (closing : Closing m h c index) : Closing m (update h t y) c index := by
  obtain ⟨u, st, at_, left⟩ := closing
  have hu : u ≠ t := by
    rintro rfl
    rw [hx] at at_
    exact off (by rw [Held.fdDev, at_]; rfl)
  exact ⟨u, st, by rw [update_of_ne hu, at_], left⟩

/-- The file of `d` is released: its table is no longer kept up to date. -/
theorem Inv.release (inv : Inv m h) (hx : h t = x) (quiet : m.calls d = some 0)
    (steady : m.closing d = none) (noFd : x.fd = none)
    (same : SameRefs { x with fd := some (d, .scan) } y)
    (shape : y.Shape) (ok : HeldOk (m.setClosing d 0) t y) :
    Inv (m.setClosing d 0) (update h t y) := by
  have notClosing : ∀ u, (h u).fdDev ≠ some d := by
    intro u hu
    obtain ⟨⟨c, su⟩, at_, rfl⟩ := Option.map_eq_some_iff.1 hu
    obtain ⟨k, closing, -⟩ := (inv.threads.held u).fd c su at_
    simp [steady] at closing
  exact
  { inv with
    svc := by
      have refs : svcRef (m.setClosing d 0) h = svcRef m h := by
        funext r
        cases r with
        | slot c i =>
          by_cases hc : c = d
          · subst hc
            have now : (m.setClosing c 0).closing c = some 0 := update_self _ _ _
            simp only [svcRef, slot_of_index now (Nat.zero_le _), slot_of_steady steady]
            rfl
          · simp only [svcRef, Heap.slot, setClosing_of_ne hc]
            rfl
        | call | handed => rfl
      rw [svcRef_keep hx same.service same.handed, refs]
      exact inv.svc
    sess := by rw [sessRef_keep hx same.session same.taken]; exact inv.sess
    dev := by
      rw [devRef_keep hx same.devRef, inv.devRef_release quiet, devCount_release]
      exact inv.dev.retire _
    call := by rw [callRef_keep hx same.callDev]; exact inv.call
    threads :=
      { held := (forall_update_iff h fun u z => HeldOk (m.setClosing d 0) u z).2
          ⟨ok, fun u _ => (inv.threads.held u).setClosing (notClosing u)⟩
        shape := (forall_update_iff h fun _ z => z.Shape).2
          ⟨shape, fun u _ => inv.threads.shape u⟩
        privX := inv.threads.privX.shrink fun e he => by rw [hx]; exact same.priv ▸ he
        fdX := by
          refine inv.threads.fdX.update ?_
          intro c hc u _ hu
          have hc : d = c := Option.some.inj (same.fdDev.symm.trans hc)
          exact notClosing u (hc ▸ hu) }
    refs := inv.refs_setClosing 0
    owned := by
      intro w e listed
      obtain ⟨c, owner, late⟩ := inv.owned w e listed
      refine ⟨c, owner, fun k hk => ?_⟩
      by_cases hc : c = d
      · subst hc
        obtain ⟨-, i, slot⟩ := inv.counted_slot (devRef_session listed owner steady)
        refine ⟨i, ?_, slot⟩
        rw [setClosing_self, Option.some.injEq] at hk
        omega
      · exact late k ((setClosing_of_ne hc) ▸ hk)
    gone := inv.gone_setClosing quiet 0
    closing := by
      intro c k hk
      by_cases hc : c = d
      · subst hc
        rw [setClosing_self, Option.some.injEq] at hk
        refine ⟨quiet, by omega, t, .scan, by rw [update_self, same.fd], fun i w _ slot => ?_⟩
        exact Or.inr (inv.entry_session quiet steady slot)
      · obtain ⟨calls, bound, left⟩ := inv.closing c k ((setClosing_of_ne hc) ▸ hk)
        exact ⟨calls, bound, left.other hx (by simp [Held.fdDev, noFd])⟩ }

theorem svcRef_advance (closing : m.closing d = some index) {i : Fin servicesMaxCount}
    (at_ : i.val = index) :
    svcRef (m.setClosing d (index + 1)) h = update (svcRef m h) (.slot d i) none := by
  funext r
  cases r with
  | slot c j =>
    by_cases hc : c = d
    · subst hc
      have now : (m.setClosing c (index + 1)).closing c = some (index + 1) := update_self _ _ _
      have table : (m.setClosing c (index + 1)).services c j = m.services c j := rfl
      by_cases hj : j = i
      · subst hj
        simp [svcRef, Heap.slot, now, at_]
      · have apart : j.val ≠ index := fun h => hj (Fin.ext (h.trans at_.symm))
        have same : (j.val < index + 1) = (j.val < index) := by
          apply propext
          omega
        rw [update_of_ne (by simp [hj])]
        simp only [svcRef, Heap.slot, now, closing, table, same]
    · have same : (m.setClosing d (index + 1)).closing c = m.closing c := update_of_ne hc _ _
      rw [update_of_ne (by simp [hc])]
      simp only [svcRef, Heap.slot, same]
      rfl
  | call | handed => rw [update_of_ne (by simp)]; rfl

/-- The loop of `close_session_thread_fn` moves on from an entry that does not count. -/
theorem Inv.advance (inv : Inv m h) (hx : h t = x) (old : x.fd = some (d, st))
    (closing : m.closing d = some index) {i : Fin servicesMaxCount} (at_ : i.val = index)
    (unused : ∀ v, m.services d i = some v → (∀ e ∈ m.sessionList v, m.owner e ≠ some d))
    (svc : Balanced (svcRef (m.setClosing d (index + 1)) (update h t y)) m.usage)
    (same : SameRefs { x with fd := some (d, .scan), handed := y.handed } y) (shape : y.Shape)
    (ok : HeldOk (m.setClosing d (index + 1)) t y)
    (done : ∀ v, st.worksOn v → m.services d i = some v) :
    Inv (m.setClosing d (index + 1)) (update h t y) := by
  have mine : x.fdDev = some d := by rw [Held.fdDev, old]; rfl
  have some_ : m.closing d ≠ none := by simp [closing]
  have later : ∀ (j : Fin servicesMaxCount), index ≤ j.val → j ≠ i → index + 1 ≤ j.val := by
    intro j late apart
    have : j.val ≠ i.val := fun hj => apart (Fin.ext hj)
    omega
  exact
  { inv with
    svc := svc
    sess := by rw [sessRef_keep hx same.session same.taken]; exact inv.sess
    dev := by
      rw [devRef_keep hx same.devRef, setClosing_devRef some_, setClosing_devCount some_]
      exact inv.dev
    call := by rw [callRef_keep hx same.callDev]; exact inv.call
    threads := inv.threads.change hx (fun _ he => same.priv ▸ he)
      (by rw [same.fdDev, mine]; rfl) shape ok
      fun u hu => (inv.threads.held u).setClosing (inv.fdDev_other hx mine hu)
    refs := inv.refs_setClosing (index + 1)
    owned := by
      intro w e listed
      obtain ⟨c, owner, late⟩ := inv.owned w e listed
      refine ⟨c, owner, fun k hk => ?_⟩
      by_cases hc : c = d
      · subst hc
        rw [setClosing_self, Option.some.injEq] at hk
        obtain ⟨j, hj, slot⟩ := late index closing
        refine ⟨j, ?_, slot⟩
        rw [← hk]
        refine later j hj ?_
        rintro rfl
        exact unused w slot e listed owner
      · exact late k ((setClosing_of_ne hc) ▸ hk)
    gone := inv.gone_setClosing (inv.closing d index closing).1 (index + 1)
    closing := by
      intro c k hk
      by_cases hc : c = d
      · subst hc
        rw [setClosing_self, Option.some.injEq] at hk
        obtain ⟨quiet, -, u, su, stage, left⟩ := inv.closing c index closing
        have hu : u = t := by
          refine inv.threads.fdX u t c ?_ ?_
          · rw [Held.fdDev, stage]; rfl
          · rw [hx, mine]
        rw [hu, hx, old] at stage
        obtain ⟨-, rfl⟩ := Prod.mk.inj (Option.some.inj stage)
        refine ⟨quiet, ?_, t, .scan, by rw [update_self, same.fd], fun j w late slot => ?_⟩
        · have := i.isLt
          omega
        · rcases left j w (by omega) slot with busy | found
          · have hj : j = i := inv.slots c j i w slot (done w busy)
            rw [hj] at late
            omega
          · exact Or.inr found
      · obtain ⟨quiet, bound, left⟩ := inv.closing c k ((setClosing_of_ne hc) ▸ hk)
        refine ⟨quiet, bound, left.other hx ?_⟩
        rw [mine]
        exact fun same => hc (Option.some.inj same).symm }

omit [DecidableEq Dev] [DecidableEq Tid] in
/-- An entry that the scan reaches has a session of the device. -/
theorem Inv.scan_session (inv : Inv m h) (hx : h t = { fd := some (d, .scan) })
    (closing : m.closing d = some index) {i : Fin servicesMaxCount} (slot : m.services d i = some v)
    (at_ : i.val = index) : ∃ e ∈ m.sessionList v, m.owner e = some d := by
  obtain ⟨-, -, u, st, stage, left⟩ := inv.closing d index closing
  have mine : u = t := by
    refine inv.threads.fdX u t d ?_ ?_
    · rw [Held.fdDev, stage]; rfl
    · rw [Held.fdDev, hx]; rfl
  rw [mine, hx] at stage
  obtain ⟨-, rfl⟩ := Prod.mk.inj (Option.some.inj stage)
  rcases left i v at_.ge slot with (busy | finished) | found
  · cases busy
  · cases finished
  · exact found

/-- An empty entry is skipped. -/
theorem Inv.skip (inv : Inv m h) (hx : h t = x) (old : x.fd = some (d, .scan))
    (closing : m.closing d = some index) {i : Fin servicesMaxCount} (at_ : i.val = index)
    (empty : m.services d i = none) (same : SameRefs x y) (shape : y.Shape)
    (ok : HeldOk (m.setClosing d (index + 1)) t y) :
    Inv (m.setClosing d (index + 1)) (update h t y) := by
  refine inv.advance hx old closing at_ (by simp [empty]) ?_ ?_ shape ok ?_
  · have free : svcRef m h (.slot d i) = none := by
      rw [svcRef, slot_of_index closing at_.ge, empty]
    rw [svcRef_keep hx same.service same.handed, svcRef_advance closing at_, ← free,
      update_eq_self]
    exact inv.svc
  · exact { same with fd := same.fd.trans old, handed := rfl }
  · rintro v (busy | finished)
    · cases busy
    · cases finished

/-- The entry's reference is dropped when no session of the device is left. -/
theorem Inv.fdPut (inv : Inv m h) (hx : h t = x) (old : x.fd = some (d, .finished v))
    (closing : m.closing d = some index) (none_ : x.handed = none) {z : Held Dev Uuid}
    (mid : SameRefs { x with fd := some (d, .scan), handed := some v } z) (midShape : z.Shape)
    (midOk : HeldOk (m.setClosing d (index + 1)) t z) (same : SameRefs { z with handed := none } y)
    (shape : y.Shape) (ok : HeldOk (m.setClosing d (index + 1)) t y) :
    Inv ((m.putServiceStruct v).setClosing d (index + 1)) (update h t y) := by
  obtain ⟨k, hk, ⟨i, at_, slot⟩, left⟩ := (inv.threads.held t).fd d _ (by rw [hx, old])
  rw [closing, Option.some.injEq] at hk
  subst hk
  have ref : svcRef m h (.slot d i) = some v := (slot_of_index closing at_.ge).trans slot
  have moved : Inv (m.setClosing d (index + 1)) (update h t z) := by
    refine inv.advance hx old closing at_ ?_ ?_ ?_ midShape midOk ?_
    · intro w hw
      rw [slot, Option.some.injEq] at hw
      exact hw ▸ left
    · have free : svcRef m h (.handed t) = none := by rw [svcRef, hx, none_]
      rw [svcRef_handed hx mid.service, mid.handed, svcRef_advance closing at_]
      exact inv.svc.move ref free
    · exact { mid with handed := rfl }
    · rintro w (busy | finished)
      · cases busy
      · cases finished
        exact slot
  have put := moved.putHanded (update_self _ _ _) mid.handed same shape ok
  rw [update_idem] at put
  obtain ⟨n, counted⟩ := inv.svc.pos ref
  have swap : (m.putServiceStruct v).setClosing d (index + 1) =
      (m.setClosing d (index + 1)).putServiceStruct v := by
    rw [putServiceStruct_eq counted,
      putServiceStruct_eq (m := m.setClosing d (index + 1)) (n := n) counted]
    rfl
  rw [swap]
  exact put

omit [DecidableEq Tid] in
theorem freeDev_services_of_ne {c : Dev} (other : c ≠ d) :
    (m.freeDev d).services c = m.services c := update_of_ne other _ _

omit [DecidableEq Tid] in
theorem freeDev_services_self (i : Fin servicesMaxCount) : (m.freeDev d).services d i = none :=
  congrFun (update_self (f := m.services) ..) i

omit [DecidableEq Tid] in
theorem freeDev_closing_of_ne {c : Dev} (other : c ≠ d) :
    (m.freeDev d).closing c = m.closing c := update_of_ne other _ _

omit [DecidableEq Tid] in
theorem freeDev_closing_self : (m.freeDev d).closing d = none := update_self _ _ _

omit [DecidableEq Tid] in
theorem HeldOk.freeDev {u : Tid} {z : Held Dev Uuid} (ok : HeldOk m u z) (shape : z.Shape)
    (noCall : z.callDev ≠ some d) (noFd : z.fdDev ≠ some d) : HeldOk (m.freeDev d) u z :=
  { ok with
    lock := by
      intro c hc
      have apart : c ≠ d := by
        rintro rfl
        exact noCall (shape.devLock c hc)
      exact (update_of_ne apart _ _).trans (ok.lock c hc)
    absent := by
      intro c u' hz i w slot
      have apart : c ≠ d := by
        rintro rfl
        exact noCall (shape.devLock c (shape.absent c u' hz))
      rw [freeDev_services_of_ne apart] at slot
      exact ok.absent c u' hz i w slot
    fd := by
      intro c st at_
      have apart : c ≠ d := by
        rintro rfl
        exact noFd (by rw [Held.fdDev, at_]; rfl)
      obtain ⟨k, closing, stage⟩ := ok.fd c st at_
      refine ⟨k, (freeDev_closing_of_ne apart).trans closing, ?_⟩
      cases st with
      | scan => trivial
      | chosen w | busy w | finished w =>
        simp only [FdOk, freeDev_services_of_ne apart]
        exact stage }

omit [DecidableEq Tid] in
/-- The references of the entries that were looked at are gone before the device is. -/
theorem svcRef_freeDev (closing : m.closing d = some index) (last : servicesMaxCount ≤ index) :
    svcRef (m.freeDev d) h = svcRef m h := by
  funext r
  cases r with
  | slot c i =>
    by_cases hc : c = d
    · subst hc
      have dropped : i.val < index := by
        have := i.isLt
        omega
      simp [svcRef, Heap.slot, closing, dropped, freeDev_closing_self, freeDev_services_self]
    · simp only [svcRef, Heap.slot, freeDev_closing_of_ne hc, freeDev_services_of_ne hc]
  | call | handed => rfl

omit [DecidableEq Tid] in
theorem Inv.devRef_freeDev (inv : Inv m h)
    (notOwner : ∀ w e, e ∈ m.sessionList w → m.owner e ≠ some d) :
    devRef (m.freeDev d) h = devRef m h := by
  funext r
  cases r with
  | call => rfl
  | session w e =>
    have lists : (m.freeDev d).sessionList = m.sessionList := rfl
    simp only [devRef, lists]
    split
    · rename_i listed
      obtain ⟨c, owner, -⟩ := inv.owned w e listed
      have hc : c ≠ d := by
        rintro rfl
        exact notOwner w e listed owner
      have same : (m.freeDev d).owner e = some c := owner
      simp only [openOwner, owner, same, Option.filter, freeDev_closing_of_ne hc]
    · rfl

omit [DecidableEq Tid] in
theorem devCount_freeDev (closing : m.closing d = some index) :
    devCount (m.freeDev d) = devCount m := by
  funext k
  by_cases hk : k.1 = d
  · have absent : (m.freeDev d).findService d k.2 = none := by
      rw [findService_eq_none]
      intro i
      simp [freeDev_services_self]
    simp only [devCount, hk, absent, closing]
    simp
  · have refs : (m.freeDev d).serviceRef k.1 = m.serviceRef k.1 := update_of_ne hk _ _
    simp only [devCount, Heap.findService, freeDev_closing_of_ne hk, freeDev_services_of_ne hk, refs]

/-- `free_dev`, when every entry of the table was looked at. -/
theorem Inv.freeDev (inv : Inv m h) (hx : h t = x) (old : x.fd = some (d, .scan))
    (closing : m.closing d = some index) (last : servicesMaxCount ≤ index)
    (same : SameRefs { x with fd := none } y) (shape : y.Shape) (ok : HeldOk (m.freeDev d) t y) :
    Inv (m.freeDev d) (update h t y) := by
  have quiet := (inv.closing d index closing).1
  have mine : x.fdDev = some d := by rw [Held.fdDev, old]; rfl
  have noCall : ∀ u, (h u).callDev ≠ some d := inv.call.none_of_zero quiet
  have notOwner : ∀ w e, e ∈ m.sessionList w → m.owner e ≠ some d := by
    intro w e listed owner
    obtain ⟨c, hc, late⟩ := inv.owned w e listed
    rw [owner, Option.some.injEq] at hc
    subst hc
    obtain ⟨i, hi, -⟩ := late index closing
    have := i.isLt
    omega
  have slot_ne : ∀ c i w, (m.freeDev d).services c i = some w → c ≠ d := by
    rintro c i w slot rfl
    simp [freeDev_services_self] at slot
  exact
  { inv with
    svc := by
      rw [svcRef_keep hx same.service same.handed, svcRef_freeDev closing last]
      exact inv.svc
    sess := by rw [sessRef_keep hx same.session same.taken]; exact inv.sess
    dev := by
      rw [devRef_keep hx same.devRef, inv.devRef_freeDev notOwner, devCount_freeDev closing]
      exact inv.dev
    call := by
      rw [callRef_keep hx same.callDev]
      exact inv.call.discard quiet
    threads :=
      { held := (forall_update_iff h fun u z => HeldOk (m.freeDev d) u z).2
          ⟨ok, fun u hu => (inv.threads.held u).freeDev (inv.threads.shape u) (noCall u)
            (inv.fdDev_other hx mine hu)⟩
        shape := (forall_update_iff h fun _ z => z.Shape).2
          ⟨shape, fun u _ => inv.threads.shape u⟩
        privX := inv.threads.privX.shrink fun e he => by rw [hx]; exact same.priv ▸ he
        fdX := inv.threads.fdX.shrink fun c hc => by
          have none_ : y.fdDev = none := same.fdDev
          simp [none_] at hc }
    slots := by
      intro c i j w hi hj
      have hc := slot_ne c i w hi
      rw [freeDev_services_of_ne hc] at hi hj
      exact inv.slots c i j w hi hj
    refs := by
      intro c i w steady slot
      have hc := slot_ne c i w slot
      have refs : (m.freeDev d).serviceRef c = m.serviceRef c := update_of_ne hc _ _
      rw [freeDev_services_of_ne hc] at slot
      rw [refs]
      exact inv.refs c i w (freeDev_closing_of_ne hc ▸ steady) slot
    owned := by
      intro w e listed
      obtain ⟨c, owner, late⟩ := inv.owned w e listed
      have hc : c ≠ d := by
        rintro rfl
        exact notOwner w e listed owner
      refine ⟨c, owner, fun k hk => ?_⟩
      rw [freeDev_services_of_ne hc]
      exact late k (freeDev_closing_of_ne hc ▸ hk)
    gone := by
      intro c gone
      by_cases hc : c = d
      · exact ⟨hc ▸ freeDev_closing_self, fun i => hc ▸ freeDev_services_self i⟩
      · rw [freeDev_closing_of_ne hc, freeDev_services_of_ne hc]
        exact inv.gone c (by simpa [Heap.freeDev, hc] using gone)
    closing := by
      intro c k hk
      have hc : c ≠ d := by
        rintro rfl
        simp [freeDev_closing_self] at hk
      obtain ⟨calls, bound, left⟩ := inv.closing c k (freeDev_closing_of_ne hc ▸ hk)
      have off : x.fdDev ≠ some c := by
        rw [mine]
        exact fun same => hc (Option.some.inj same).symm
      refine ⟨(update_of_ne hc _ _).trans calls, bound, ?_⟩
      rw [Closing, freeDev_services_of_ne hc]
      exact left.other hx off }

omit [DecidableEq Tid] in
theorem Inv.openDev (inv : Inv m h) (free : m.calls d = none) : Inv (m.openDev d) h := by
  obtain ⟨steady, empty⟩ := inv.gone d free
  have noCall : ∀ u, (h u).callDev ≠ some d := inv.call.none_of_gone free
  have tables : (m.openDev d).services = m.services := by
    have none_ : m.services d = fun _ => none := funext empty
    rw [Heap.openDev, ← none_]
    exact update_eq_self _ _
  have closings : (m.openDev d).closing = m.closing := by
    rw [Heap.openDev, ← steady]
    exact update_eq_self _ _
  have refs : ∀ c i w, m.services c i = some w →
      (m.openDev d).serviceRef c = m.serviceRef c := by
    intro c i w slot
    refine update_of_ne ?_ _ _
    rintro rfl
    simp [empty] at slot
  exact
  { inv with
    svc := by
      have refs : svcRef (m.openDev d) h = svcRef m h := by
        funext r
        cases r with
        | slot c i => simp only [svcRef, Heap.slot, tables, closings]
        | call | handed => rfl
      rw [refs]
      exact inv.svc
    dev := by
      have devRefs : devRef (m.openDev d) h = devRef m h := by
        funext r
        cases r with
        | session w e =>
          simp only [devRef, openOwner, closings]
          rfl
        | call => rfl
      have count : devCount (m.openDev d) = devCount m := by
        funext k
        simp only [devCount, Heap.findService, tables, closings]
        cases found : (List.finRange servicesMaxCount).find? (fun i => m.services k.1 i = some k.2) with
        | none => rfl
        | some i =>
          have slot : m.services k.1 i = some k.2 := findService_some found
          rw [refs k.1 i k.2 slot]
      rw [devRefs, count]
      exact inv.dev
    call := inv.call.alloc free
    threads :=
      { inv.threads with
        held := fun u =>
          { inv.threads.held u with
            lock := by
              intro c hc
              have apart : c ≠ d := by
                rintro rfl
                exact noCall u ((inv.threads.shape u).devLock c hc)
              exact (update_of_ne apart _ _).trans ((inv.threads.held u).lock c hc)
            absent := by rw [tables]; exact (inv.threads.held u).absent
            fd := by
              intro c st at_
              obtain ⟨k, closing, stage⟩ := (inv.threads.held u).fd c st at_
              refine ⟨k, by rw [closings, closing], ?_⟩
              cases st with
              | scan => trivial
              | chosen w | busy w | finished w =>
                simp only [FdOk, tables]
                exact stage } }
    slots := by rw [tables]; exact inv.slots
    refs := by
      intro c i w hc slot
      rw [tables] at slot
      rw [refs c i w slot]
      exact inv.refs c i w (closings ▸ hc) slot
    owned := by rw [tables, closings]; exact inv.owned
    gone := by
      intro c hc
      rw [tables, closings]
      refine inv.gone c ?_
      by_cases hcd : c = d
      · exact hcd ▸ free
      · simpa [Heap.openDev, hcd] using hc
    closing := by
      intro c k hk
      rw [closings] at hk
      have apart : c ≠ d := by
        rintro rfl
        simp [steady] at hk
      obtain ⟨quiet, bound, left⟩ := inv.closing c k hk
      refine ⟨(update_of_ne apart _ _).trans quiet, bound, ?_⟩
      rw [Closing, tables]
      exact left }

end Closings

end SessionManager
