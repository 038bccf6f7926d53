import Tzdriver.SmcQueue

/-!
# Slots belong to one command at a time

A thread owns the slot it works on, and a parked command keeps its slot. The
invariant says of a slot that a reply in it answers the command in it, and that the TEE
holds no unanswered command of an earlier round. The last point is what the releases
rely on: they happen only while the slot is quiet.
-/

namespace SmcQueue

open Function ActionSystem

/-- The slot a thread's command occupies. -/
def Local.owns (l : Local) : Option Nat :=
  match l.pc with
  | .idle => none
  | .occupy => none
  | .clean => if l.cmdUsage = .resend then some l.cmdIndex else none
  | .returned ret => if ret = teecPending then some l.inCmd.eventNr else none
  | _ => some l.cmdIndex

/-- The TEE has answered everything it took from the slot. -/
def Slot.Quiet (s : Slot) : Prop := ∀ r, s.taken = some r → s.replied = some r

structure SlotOk (i : Nat) (s : Slot) : Prop where
  occupied : s.doingBit = true ∨ s.outBit = true → s.inBit = true
  current : s.outBit = true → s.replied = some s.round ∧ s.answers = s.round ∧
    (s.abortTaken = true → s.answersAbort = true) ∧ s.outEntry.eventNr = i
  unanswered : ∀ r, s.taken = some r → s.replied ≠ some r → r = s.round ∧ s.inBit = true

/-- What a thread at `pc` knows of its slot. With `strict` a parked command is marked as
being worked on. -/
def Knows (strict : Prop) : Pc → Slot → Prop
  | .occupyUpdate, s | .occupyClean, s | .occupyPublish, s | .reuseUpdate, s
  | .reusePublish, s => s.doingBit = true ∧ s.outBit = false ∧ s.Quiet
  | .reuse, s | .agentWork, s => s.outBit = false ∧ s.replied = some s.round
  | .clean, s | .returned _, s =>
    s.outBit = false ∧ s.replied = some s.round ∧ (strict → s.doingBit = true)
  | .reuseRelease, s =>
    s.outBit = false ∧ (s.doingBit = true ∧ s.Quiet ∨ s.replied = some s.round)
  | _, _ => True

/-- What a thread at `pc` knows of its own variables. -/
def Sane (l : Local) : Prop :=
  match l.pc with
  | .occupy => l.cmdUsage = .clear
  | .occupyUpdate => l.cmdUsage = .clear
  | .occupyPublish => l.cmdUsage = .clear
  | .reuse => l.cmdUsage = .resend ∧ l.savedIndex = l.cmdIndex
  | .reuseUpdate => l.cmdUsage = .resend ∧ l.savedIndex = l.cmdIndex
  | .reusePublish => l.cmdUsage = .resend ∧ l.savedIndex = l.cmdIndex
  | .send => l.cmdUsage = .clear ∧ l.savedIndex = l.cmdIndex
  | .poll => l.cmdUsage = .clear ∧ l.savedIndex = l.cmdIndex
  | .normalExit => l.cmdUsage = .clear ∧ l.savedIndex = l.cmdIndex
  | .pendingPoll => l.cmdUsage = .clear ∧ l.savedIndex = l.cmdIndex
  | .abort => l.cmdUsage = .clear ∧ l.savedIndex = l.cmdIndex
  | .copyOut => l.cmdUsage = .clear ∧ l.savedIndex = l.cmdIndex
  | .agentWork => l.cmdUsage = .resend ∧ l.savedIndex = l.cmdIndex
  | .clean =>
    if l.cmdUsage = .resend then
      l.cmd.retVal = teecPending ∧ l.inCmd.eventNr = l.cmdIndex
    else l.cmd.retVal ≠ teecPending
  | _ => True

structure ThreadOk (strict : Prop) (l : Local) (s : Slot) : Prop where
  inBit : s.inBit = true
  placed : s.round = l.placed
  knows : Knows strict l.pc s

variable {Thread : Type*} {strict : Prop}

structure Inv (strict : Prop) (s : Sys Thread) : Prop where
  slot : ∀ i, SlotOk i (s.queue.slots i)
  exclusive : Exclusive Local.owns s.threads
  thread : ∀ t i, (s.threads t).owns = some i → ThreadOk strict (s.threads t) (s.queue.slots i)
  sane : ∀ t, Sane (s.threads t)
  owned : strict → ∀ i, (s.queue.slots i).inBit = true → ∃ t, (s.threads t).owns = some i

theorem init_inv : Inv strict (Sys.init : Sys Thread) where
  slot := fun i => ⟨by simp [Sys.init], by simp [Sys.init], by simp [Sys.init]⟩
  exclusive := by
    intro t u r h
    simp [Sys.init, Local.owns] at h
  thread := by
    intro t i h
    simp [Sys.init, Local.owns] at h
  sane := fun t => by simp [Sys.init, Sane]
  owned := by simp [Sys.init]

@[simp] theorem set_slots (q : Queue) (i : Nat) (s : Slot) :
    (q.set i s).slots = update q.slots i s := rfl

theorem SlotOk.quiet_of_free {i : Nat} {s : Slot} (ok : SlotOk i s) (free : s.inBit = false) :
    s.Quiet := by
  intro r taken
  by_contra h
  have := (ok.unanswered r taken h).2
  simp [free] at this

theorem SlotOk.quiet_of_replied {i : Nat} {s : Slot} (ok : SlotOk i s)
    (replied : s.replied = some s.round) : s.Quiet := by
  intro r taken
  by_contra h
  rw [(ok.unanswered r taken h).1] at h
  exact h replied

namespace Inv

variable {s : Sys Thread} {t : Thread} {l : Local}

/-- A slot that is not occupied has no owner. -/
theorem not_owned (inv : Inv strict s) {i : Nat} (free : (s.queue.slots i).inBit = false)
    (u : Thread) : (s.threads u).owns ≠ some i := by
  intro h
  have := (inv.thread u i h).inBit
  simp [free] at this

variable [DecidableEq Thread]

/-- A step of a thread that owns nothing and takes nothing. -/
theorem driver_none (inv : Inv strict s) (before : (s.threads t).owns = none)
    (after : l.owns = none) (sane : Sane l) : Inv strict ⟨s.queue, update s.threads t l⟩ where
  slot := inv.slot
  exclusive := inv.exclusive.update (by simp [after])
  thread := by
    intro u j hj
    by_cases hu : u = t
    · subst hu
      simp [after] at hj
    · simp only [update_of_ne hu] at hj ⊢
      exact inv.thread u j hj
  sane := by
    intro u
    by_cases hu : u = t
    · subst hu; simpa using sane
    · simpa [hu] using inv.sane u
  owned := by
    intro hs i hi
    obtain ⟨u, hu⟩ := inv.owned hs i hi
    have hne : u ≠ t := by
      rintro rfl
      simp [before] at hu
    exact ⟨u, by simpa [hne] using hu⟩

/-- A step of one thread on the slot `i`, which it owns or finds free. -/
theorem driver_slot (inv : Inv strict s) {q : Queue} {i : Nat}
    (mine : (s.threads t).owns = some i ∨
      (s.threads t).owns = none ∧ (s.queue.slots i).inBit = false)
    (others : ∀ j, j ≠ i → q.slots j = s.queue.slots j)
    (slot : SlotOk i (q.slots i))
    (owns : ∀ j, l.owns = some j → j = i ∧ ThreadOk strict l (q.slots i)) (sane : Sane l)
    (kept : strict → (q.slots i).inBit = true → l.owns = some i) :
    Inv strict ⟨q, update s.threads t l⟩ := by
  have apart : ∀ u, u ≠ t → (s.threads u).owns ≠ some i := by
    intro u hu h
    rcases mine with mine | ⟨_, free⟩
    · exact hu (inv.exclusive u t i h mine)
    · exact inv.not_owned free u h
  constructor
  · intro j
    by_cases hj : j = i
    · subst hj; exact slot
    · simp only [others j hj]; exact inv.slot j
  · refine inv.exclusive.update ?_
    intro j hj u hu
    obtain ⟨rfl, _⟩ := owns j hj
    exact apart u hu
  · intro u j hj
    by_cases hu : u = t
    · subst hu
      simp only [update_self] at hj ⊢
      obtain ⟨rfl, ok⟩ := owns j hj
      exact ok
    · simp only [update_of_ne hu] at hj ⊢
      have hne : j ≠ i := by
        rintro rfl
        exact apart u hu hj
      rw [others j hne]
      exact inv.thread u j hj
  · intro u
    by_cases hu : u = t
    · subst hu; simpa using sane
    · simpa [hu] using inv.sane u
  · intro hs j hj
    by_cases hji : j = i
    · subst hji
      exact ⟨t, by simpa using kept hs hj⟩
    · simp only [others j hji] at hj
      obtain ⟨u, hu⟩ := inv.owned hs j hj
      have hne : u ≠ t := by
        rintro rfl
        rcases mine with mine | ⟨mine, _⟩
        · exact hji (Option.some.inj (hu.symm.trans mine))
        · simp [mine] at hu
      exact ⟨u, by simpa [hne] using hu⟩

/-- A step of the owner of slot `i` that leaves the queue alone and keeps the slot. -/
theorem driver_keep (inv : Inv strict s) {i : Nat} (mine : (s.threads t).owns = some i)
    (owns : l.owns = some i) (placed : l.placed = (s.threads t).placed)
    (knows : Knows strict (s.threads t).pc (s.queue.slots i) → Knows strict l.pc (s.queue.slots i))
    (sane : Sane l) : Inv strict ⟨s.queue, update s.threads t l⟩ := by
  have ok := inv.thread t i mine
  refine inv.driver_slot (Or.inl mine) (fun _ _ => rfl) (inv.slot i) ?_ sane (fun _ _ => owns)
  intro j hj
  exact ⟨Option.some.inj (hj.symm.trans owns),
    ok.inBit, ok.placed.trans placed.symm, knows ok.knows⟩

end Inv

/-- The actions after which a command is neither running nor parked nor released: an
unknown exit reason before the reply, a reply dropped by the TEE between the poll and the
copy, a `TEEC_PENDING` reply copied over an abort the TEE has not taken, a resend that
cannot start, and a crash. -/
def LeakFree (s : Sys Thread) : Act Thread → Prop
  | .driver t .run =>
    let l := s.threads t
    let slot := s.queue.slots l.cmdIndex
    (l.pc = .poll → slot.outBit = false → l.exit = smcExitNormal ∨ l.exit = smcExitAbort) ∧
    (l.pc = .copyOut → slot.outBit = true ∧
      (slot.outEntry.retVal = teecPending → slot.doingBit = true))
  | .driver _ (.resume _ peOk) => peOk = true
  | .driver _ (.send .crash) => False
  | _ => True

section Sections

variable [DecidableEq Thread] {s : Sys Thread} {t : Thread} {maxSmcCmd : Nat}

theorem freeEntry_free {q : Queue} {i : Nat} (found : freeEntry maxSmcCmd q = some i) :
    (q.slots i).inBit = false := by
  simpa using List.find?_some found

theorem SlotOk.occupied_clear {i : Nat} {s : Slot} (ok : SlotOk i s) (free : s.inBit = false) :
    s.doingBit = false ∧ s.outBit = false := by
  constructor
  · by_contra h
    simpa [free] using ok.occupied (Or.inl (by simpa using h))
  · by_contra h
    simpa [free] using ok.occupied (Or.inr (by simpa using h))

/-- Clearing every bit of a quiet slot. -/
theorem SlotOk.release {i : Nat} {s s' : Slot} (quiet : s.Quiet)
    (taken : s'.taken = s.taken) (replied : s'.replied = s.replied) (doing : s'.doingBit = false)
    (out : s'.outBit = false) : SlotOk i s' where
  occupied := by simp [doing, out]
  current := by simp [out]
  unanswered := by
    intro r h h'
    rw [taken] at h
    rw [replied] at h'
    exact False.elim (h' (quiet r h))

/-- A new command in a quiet slot. -/
theorem SlotOk.place {i : Nat} {s s' : Slot} (quiet : s.Quiet) (taken : s'.taken = s.taken)
    (replied : s'.replied = s.replied) (out : s'.outBit = false) (occupied : s'.inBit = true) :
    SlotOk i s' where
  occupied := fun _ => occupied
  current := by simp [out]
  unanswered := by
    intro r h h'
    rw [taken] at h
    rw [replied] at h'
    exact False.elim (h' (quiet r h))

theorem occupy_inv (inv : Inv strict s) (hpc : (s.threads t).pc = .occupy) {i : Nat}
    (found : freeEntry maxSmcCmd s.queue = some i) :
    Inv strict ⟨occupySetbit s.queue i (s.threads t).cmd, update s.threads t
      { s.threads t with cmdIndex := i, pc := .occupyUpdate, placed := s.queue.nextRound }⟩ := by
  have free := freeEntry_free found
  have quiet := (inv.slot i).quiet_of_free free
  obtain ⟨_, out⟩ := (inv.slot i).occupied_clear free
  have sane := inv.sane t
  simp only [Sane, hpc] at sane
  refine inv.driver_slot (Or.inr ⟨by simp [Local.owns, hpc], free⟩) ?_ ?_ ?_ ?_ ?_
  · intro j hj
    simp [occupySetbit, hj]
  · simp only [occupySetbit, set_slots, update_self]
    exact SlotOk.place quiet rfl rfl out rfl
  · intro j hj
    simp only [Local.owns, Option.some.injEq] at hj
    refine ⟨hj.symm, ?_, ?_, ?_⟩
    · simp [occupySetbit]
    · simp [occupySetbit]
    · simp only [Knows, occupySetbit, set_slots, update_self]
      exact ⟨trivial, out, quiet⟩
  · simpa [Sane] using sane
  · intro _ _
    simp [Local.owns]

/-- The owner of a quiet slot gives it back. -/
theorem release_inv (inv : Inv strict s) {i : Nat} (mine : (s.threads t).owns = some i)
    (quiet : (s.queue.slots i).Quiet) {slot : Slot} {l : Local}
    (taken : slot.taken = (s.queue.slots i).taken)
    (replied : slot.replied = (s.queue.slots i).replied)
    (bits : slot.inBit = false ∧ slot.doingBit = false ∧ slot.outBit = false)
    (after : l.owns = none) (sane : Sane l) :
    Inv strict ⟨s.queue.set i slot, update s.threads t l⟩ := by
  refine inv.driver_slot (Or.inl mine) ?_ ?_ ?_ sane ?_
  · intro j hj
    simp [hj]
  · rw [set_slots, update_self]
    exact SlotOk.release quiet taken replied bits.2.1 bits.2.2
  · intro j hj
    simp [after] at hj
  · intro _ h
    simp [bits.1] at h

/-- A thread that loses track of its slot; the slot stays occupied. -/
theorem forget_inv (inv : Inv strict s) {i : Nat} (mine : (s.threads t).owns = some i)
    (lax : ¬ strict) {l : Local} (after : l.owns = none) (sane : Sane l) :
    Inv strict ⟨s.queue, update s.threads t l⟩ := by
  refine inv.driver_slot (Or.inl mine) (fun _ _ => rfl) (inv.slot i) ?_ sane
    (fun hs => False.elim (lax hs))
  intro j hj
  simp [after] at hj

theorem owns_returned {l : Local} {ret : Nat} (h : ret ≠ teecPending) :
    (l.ret ret).owns = none := by
  simp [Local.ret, Local.owns, h]

theorem generic_ne_pending : teecErrorGeneric ≠ teecPending := by decide

theorem sane_ret (l : Local) (ret : Nat) : Sane (l.ret ret) := by simp [Local.ret, Sane]

theorem occupyClean_inv (inv : Inv strict s) (hpc : (s.threads t).pc = .occupyClean) :
    Inv strict ⟨occupyCleanInDoingEntry s.queue (s.threads t).cmdIndex,
      update s.threads t ((s.threads t).ret teecErrorGeneric)⟩ := by
  have mine : (s.threads t).owns = some (s.threads t).cmdIndex := by simp [Local.owns, hpc]
  have knows := (inv.thread t _ mine).knows
  simp only [Knows, hpc] at knows
  exact release_inv inv mine knows.2.2 rfl rfl ⟨rfl, rfl, knows.2.1⟩
    (owns_returned generic_ne_pending) (sane_ret _ _)

theorem reuseRelease_inv (inv : Inv strict s) (hpc : (s.threads t).pc = .reuseRelease) :
    Inv strict ⟨releaseSmcEntry s.queue (s.threads t).cmdIndex,
      update s.threads t ((s.threads t).ret teecErrorGeneric)⟩ := by
  have mine : (s.threads t).owns = some (s.threads t).cmdIndex := by simp [Local.owns, hpc]
  have knows := (inv.thread t _ mine).knows
  simp only [Knows, hpc] at knows
  have quiet : (s.queue.slots (s.threads t).cmdIndex).Quiet :=
    knows.2.elim And.right (inv.slot _).quiet_of_replied
  exact release_inv inv mine quiet rfl rfl ⟨rfl, rfl, rfl⟩
    (owns_returned generic_ne_pending) (sane_ret _ _)

/-- Letting the TEE see the command: the slot stays with its thread. -/
theorem publish_inv (inv : Inv strict s)
    (hpc : (s.threads t).pc = .occupyPublish ∨ (s.threads t).pc = .reusePublish) :
    Inv strict ⟨clearDoing s.queue (s.threads t).cmdIndex,
      update s.threads t (s.threads t).submit⟩ := by
  have mine : (s.threads t).owns = some (s.threads t).cmdIndex := by
    rcases hpc with hpc | hpc <;> simp [Local.owns, hpc]
  have ok := inv.thread t _ mine
  have knows : (s.queue.slots (s.threads t).cmdIndex).outBit = false ∧
      (s.queue.slots (s.threads t).cmdIndex).Quiet := by
    have knows := ok.knows
    rcases hpc with hpc | hpc <;> simp only [Knows, hpc] at knows <;> exact knows.2
  have sane := inv.sane t
  have index : (s.threads t).submit.pc = .send ∧
      (s.threads t).submit.cmdIndex = (s.threads t).cmdIndex ∧
      (s.threads t).submit.savedIndex = (s.threads t).cmdIndex ∧
      (s.threads t).submit.cmdUsage = .clear ∧
      (s.threads t).submit.placed = (s.threads t).placed := by
    rcases hpc with hpc | hpc
    · simp only [Sane, hpc] at sane
      simp [Local.submit, sane]
    · simp only [Sane, hpc] at sane
      simp [Local.submit, sane.1, sane.2]
  obtain ⟨hsend, hindex, hsaved, husage, hplaced⟩ := index
  have owns : (s.threads t).submit.owns = some (s.threads t).cmdIndex := by
    simp [Local.owns, hsend, hindex]
  refine inv.driver_slot (Or.inl mine) ?_ ?_ ?_ ?_ (fun _ _ => owns)
  · intro j hj
    simp [clearDoing, hj]
  · rw [clearDoing, set_slots, update_self]
    exact SlotOk.place knows.2 rfl rfl knows.1 ok.inBit
  · intro j hj
    refine ⟨Option.some.inj (hj.symm.trans owns), ?_⟩
    rw [clearDoing, set_slots, update_self]
    exact ⟨ok.inBit, ok.placed.trans hplaced.symm, by rw [hsend]; trivial⟩
  · simp [Sane, hsend, husage, hsaved, hindex]

theorem reuse_inv (inv : Inv strict s) (hpc : (s.threads t).pc = .reuse) {q : Queue}
    (reused : reuseSmcInEntry s.queue (s.threads t).cmdIndex = some q) :
    Inv strict ⟨q, update s.threads t
      { s.threads t with pc := .reuseUpdate, placed := s.queue.nextRound }⟩ := by
  have mine : (s.threads t).owns = some (s.threads t).cmdIndex := by simp [Local.owns, hpc]
  have ok := inv.thread t _ mine
  have knows := ok.knows
  have sane := inv.sane t
  simp only [Knows, hpc] at knows
  simp only [Sane, hpc] at sane
  have quiet := (inv.slot _).quiet_of_replied knows.2
  unfold reuseSmcInEntry at reused
  split at reused
  · rename_i bits
    simp only [Bool.and_eq_true] at bits
    obtain rfl := Option.some.inj reused
    refine inv.driver_slot (Or.inl mine) ?_ ?_ ?_ ?_ ?_
    · intro j hj
      simp [hj]
    · simp only [set_slots, update_self]
      exact SlotOk.place quiet rfl rfl knows.1 bits.1
    · intro j hj
      simp only [Local.owns, Option.some.injEq] at hj
      refine ⟨hj.symm, ?_⟩
      simp only [set_slots, update_self]
      exact ⟨bits.1, rfl, bits.2, knows.1, quiet⟩
    · simpa [Sane] using sane
    · intro _ _
      simp [Local.owns]
  · cases reused

theorem reuse_fails_inv (inv : Inv strict s) (hpc : (s.threads t).pc = .reuse) :
    Inv strict ⟨s.queue, update s.threads t { s.threads t with pc := .reuseRelease }⟩ := by
  have mine : (s.threads t).owns = some (s.threads t).cmdIndex := by simp [Local.owns, hpc]
  refine inv.driver_keep mine (by simp [Local.owns]) rfl ?_ (by simp [Sane])
  intro knows
  simp only [Knows, hpc] at knows
  exact ⟨knows.1, Or.inr knows.2⟩

/-- The phases between submitting a command and copying its reply. -/
def Waiting (pc : Pc) : Prop :=
  pc = .send ∨ pc = .poll ∨ pc = .normalExit ∨ pc = .pendingPoll ∨ pc = .abort ∨ pc = .copyOut

theorem Waiting.spec (strict : Prop) {l : Local} (h : Waiting l.pc) :
    l.owns = some l.cmdIndex ∧ (∀ s, Knows strict l.pc s) ∧
      (Sane l ↔ l.cmdUsage = .clear ∧ l.savedIndex = l.cmdIndex) := by
  rcases h with h | h | h | h | h | h <;> simp [Local.owns, Knows, Sane, h]

/-- Moving between those phases without touching the queue. -/
theorem waiting_inv (inv : Inv strict s) (h : Waiting (s.threads t).pc) {l : Local}
    (h' : Waiting l.pc) (index : l.cmdIndex = (s.threads t).cmdIndex)
    (saved : l.savedIndex = (s.threads t).savedIndex)
    (usage : l.cmdUsage = (s.threads t).cmdUsage) (placed : l.placed = (s.threads t).placed) :
    Inv strict ⟨s.queue, update s.threads t l⟩ := by
  obtain ⟨mine, _, sane⟩ := h.spec strict
  obtain ⟨owns, knows, sane'⟩ := h'.spec strict
  refine inv.driver_keep mine (owns.trans (by rw [index])) placed (fun _ => knows _) ?_
  rw [sane', index, saved, usage]
  exact sane.mp (inv.sane t)

/-- `set_abort_cmd` rewrites the command in place; the round goes on. -/
theorem abort_inv (inv : Inv strict s) (hpc : (s.threads t).pc = .abort) {q : Queue}
    (aborted : setAbortCmd s.queue (s.threads t).cmdIndex = some q) :
    Inv strict ⟨q, update s.threads t { s.threads t with ops := .abortTask, pc := .send }⟩ := by
  have waiting : Waiting (s.threads t).pc := by simp [Waiting, hpc]
  obtain ⟨mine, _, sane⟩ := waiting.spec strict
  have ok := inv.thread t _ mine
  have slot := inv.slot (s.threads t).cmdIndex
  unfold setAbortCmd at aborted
  split at aborted
  · cases aborted
  · obtain rfl := Option.some.inj aborted
    refine inv.driver_slot (Or.inl mine) ?_ ?_ ?_ ?_ ?_
    · intro j hj
      simp [hj]
    · rw [set_slots, update_self]
      exact ⟨fun _ => ok.inBit, slot.current, slot.unanswered⟩
    · intro j hj
      simp only [Local.owns, Option.some.injEq] at hj
      refine ⟨hj.symm, ?_⟩
      rw [set_slots, update_self]
      exact ⟨ok.inBit, ok.placed, trivial⟩
    · simpa [Sane] using sane.mp (inv.sane t)
    · intro _ _
      simp [Local.owns]

/-- What `copy_smc_out_entry` does to a slot with a reply. -/
theorem copySmcOutEntry_cases {q : Queue} {i : Nat} {cmd : SmcCmd} {usage : CmdReuse} {q' : Queue}
    (copied : copySmcOutEntry q i = some (cmd, usage, q')) :
    (q.slots i).outBit = true ∧ cmd = (q.slots i).outEntry ∧
      ((cmd.retVal = teecPending2 ∨ cmd.retVal = teecPending) ∧ usage = .resend ∧
          q' = q.set i { q.slots i with outBit := false } ∨
        cmd.retVal ≠ teecPending2 ∧ cmd.retVal ≠ teecPending ∧ usage = .clear ∧
          q' = q.set i { q.slots i with inBit := false, doingBit := false, outBit := false }) := by
  unfold copySmcOutEntry at copied
  split at copied
  · cases copied
  · rename_i out
    split at copied
    · rename_i pending
      simp only [Option.some.injEq, Prod.mk.injEq] at copied
      obtain ⟨rfl, rfl, rfl⟩ := copied
      exact ⟨by simpa using out, rfl, Or.inl ⟨pending, rfl, rfl⟩⟩
    · rename_i final
      simp only [Option.some.injEq, Prod.mk.injEq] at copied
      obtain ⟨rfl, rfl, rfl⟩ := copied
      rw [not_or] at final
      exact ⟨by simpa using out, rfl, Or.inr ⟨final.1, final.2, rfl, rfl⟩⟩

/-- Keeping the slot after a pending reply: for the agent or parked. -/
theorem copy_pending_inv (inv : Inv strict s) (hpc : (s.threads t).pc = .copyOut) {l : Local}
    (out : (s.queue.slots (s.threads t).cmdIndex).outBit = true)
    (owns : l.owns = some (s.threads t).cmdIndex)
    (placed : l.placed = (s.threads t).placed)
    (pc : l.pc = .agentWork ∨ l.pc = .clean ∧
      (strict → (s.queue.slots (s.threads t).cmdIndex).doingBit = true))
    (sane : Sane l) :
    Inv strict ⟨s.queue.set (s.threads t).cmdIndex
      { s.queue.slots (s.threads t).cmdIndex with outBit := false }, update s.threads t l⟩ := by
  have waiting : Waiting (s.threads t).pc := by simp [Waiting, hpc]
  obtain ⟨mine, _, _⟩ := waiting.spec strict
  have ok := inv.thread t _ mine
  have slot := inv.slot (s.threads t).cmdIndex
  have replied := (slot.current out).1
  refine inv.driver_slot (Or.inl mine) ?_ ?_ ?_ sane (fun _ _ => owns)
  · intro j hj
    simp [hj]
  · rw [set_slots, update_self]
    exact SlotOk.place (slot.quiet_of_replied replied) rfl rfl rfl ok.inBit
  · intro j hj
    refine ⟨Option.some.inj (hj.symm.trans owns), ?_⟩
    rw [set_slots, update_self]
    refine ⟨ok.inBit, ok.placed.trans placed.symm, ?_⟩
    rcases pc with pc | ⟨pc, doing⟩
    · rw [pc]; exact ⟨rfl, replied⟩
    · rw [pc]; exact ⟨rfl, replied, doing⟩

theorem copyOut_inv (inv : Inv strict s) (hpc : (s.threads t).pc = .copyOut)
    (allowed : strict → LeakFree s (.driver t .run)) {q : Queue} {l : Local}
    (moved : runSection maxSmcCmd s.queue (s.threads t) = some (q, l)) :
    Inv strict ⟨q, update s.threads t l⟩ := by
  have waiting : Waiting (s.threads t).pc := by simp [Waiting, hpc]
  obtain ⟨mine, _, saneIff⟩ := waiting.spec strict
  have sane := saneIff.mp (inv.sane t)
  have slot := inv.slot (s.threads t).cmdIndex
  simp only [runSection, hpc] at moved
  cases copied : copySmcOutEntry s.queue (s.threads t).cmdIndex with
  | none =>
    -- the reply is gone: only a run that may leak gets here
    simp only [copied, Option.some.injEq, Prod.mk.injEq] at moved
    obtain ⟨rfl, rfl⟩ := moved
    have lax : ¬ strict := by
      intro hs
      have out := ((allowed hs).2 hpc).1
      unfold copySmcOutEntry at copied
      rw [if_neg (by simp [out])] at copied
      split at copied <;> cases copied
    exact forget_inv inv mine lax (by simp [Local.owns, sane.1])
      (by simp [Sane, sane.1, generic_ne_pending])
  | some result =>
    obtain ⟨cmd, usage, q'⟩ := result
    simp only [copied] at moved
    obtain ⟨out, rfl, final⟩ := copySmcOutEntry_cases copied
    have event := (slot.current out).2.2.2
    have parked : ∀ hs : strict, (s.queue.slots (s.threads t).cmdIndex).outEntry.retVal =
        teecPending → (s.queue.slots (s.threads t).cmdIndex).doingBit = true :=
      fun hs => ((allowed hs).2 hpc).2
    split at moved
    · rename_i agent
      simp only [Option.some.injEq, Prod.mk.injEq] at moved
      obtain ⟨rfl, rfl⟩ := moved
      rcases final with ⟨_, rfl, rfl⟩ | ⟨h, _⟩
      · exact copy_pending_inv inv hpc out (by simp [Local.owns]) rfl (Or.inl rfl)
          (by simpa [Sane] using sane.2)
      · exact False.elim (h agent)
    · rename_i agent
      simp only [Option.some.injEq, Prod.mk.injEq] at moved
      obtain ⟨rfl, rfl⟩ := moved
      rcases final with ⟨pending, rfl, rfl⟩ | ⟨_, final, rfl, rfl⟩
      · have pending := pending.resolve_left agent
        exact copy_pending_inv inv hpc out (by simp [Local.owns]) rfl
          (Or.inr ⟨rfl, fun hs => parked hs pending⟩) (by simp [Sane, pending, event])
      · exact release_inv inv mine (slot.quiet_of_replied (slot.current out).1) rfl rfl
          ⟨rfl, rfl, rfl⟩ (by simp [Local.owns]) (by simpa [Sane] using final)

theorem clean_inv (inv : Inv strict s) (hpc : (s.threads t).pc = .clean) {q : Queue} {l : Local}
    (moved : runSection maxSmcCmd s.queue (s.threads t) = some (q, l)) :
    Inv strict ⟨q, update s.threads t l⟩ := by
  have sane := inv.sane t
  simp only [Sane, hpc] at sane
  simp only [runSection, hpc] at moved
  by_cases usage : (s.threads t).cmdUsage = .resend
  · rw [if_pos usage] at sane
    rw [if_neg (by simp [sane.1])] at moved
    simp only [Option.some.injEq, Prod.mk.injEq] at moved
    obtain ⟨rfl, rfl⟩ := moved
    have mine : (s.threads t).owns = some (s.threads t).cmdIndex := by
      simp [Local.owns, hpc, usage]
    refine inv.driver_keep mine ?_ rfl ?_ (sane_ret _ _)
    · simp [Local.owns, Local.ret, sane.1, sane.2]
    · simp only [hpc, Knows, Local.ret]
      exact id
  · have clear : (s.threads t).cmdUsage = .clear := by
      cases h : (s.threads t).cmdUsage with
      | clear => rfl
      | resend => exact False.elim (usage h)
    rw [if_neg usage] at sane
    rw [if_neg (by simp [clear])] at moved
    simp only [Option.some.injEq, Prod.mk.injEq] at moved
    obtain ⟨rfl, rfl⟩ := moved
    exact inv.driver_none (by simp [Local.owns, hpc, usage]) (owns_returned sane) (sane_ret _ _)

theorem poll_inv (inv : Inv strict s) (hpc : (s.threads t).pc = .poll)
    (allowed : strict → LeakFree s (.driver t .run)) {q : Queue} {l : Local}
    (moved : runSection maxSmcCmd s.queue (s.threads t) = some (q, l)) :
    Inv strict ⟨q, update s.threads t l⟩ := by
  have waiting : Waiting (s.threads t).pc := by simp [Waiting, hpc]
  obtain ⟨mine, _, saneIff⟩ := waiting.spec strict
  have usage := (saneIff.mp (inv.sane t)).1
  simp only [runSection, hpc] at moved
  split at moved
  · simp only [Option.some.injEq, Prod.mk.injEq] at moved
    obtain ⟨rfl, rfl⟩ := moved
    exact waiting_inv inv waiting (by simp [Waiting]) rfl rfl rfl rfl
  · rename_i out
    split at moved
    · simp only [Option.some.injEq, Prod.mk.injEq] at moved
      obtain ⟨rfl, rfl⟩ := moved
      exact waiting_inv inv waiting (by simp [Waiting]) rfl rfl rfl rfl
    · rename_i normal
      split at moved
      · simp only [Option.some.injEq, Prod.mk.injEq] at moved
        obtain ⟨rfl, rfl⟩ := moved
        exact waiting_inv inv waiting (by simp [Waiting]) rfl rfl rfl rfl
      · rename_i aborted
        simp only [Option.some.injEq, Prod.mk.injEq] at moved
        obtain ⟨rfl, rfl⟩ := moved
        have lax : ¬ strict := by
          intro hs
          have known := (allowed hs).1 hpc (by simpa [isCmdWorkingDone] using out)
          exact known.elim normal aborted
        exact forget_inv inv mine lax (by simp [Local.owns, usage])
          (by simp [Sane, usage, generic_ne_pending])

theorem runSection_inv (inv : Inv strict s) (allowed : strict → LeakFree s (.driver t .run))
    {q : Queue} {l : Local} (moved : runSection maxSmcCmd s.queue (s.threads t) = some (q, l)) :
    Inv strict ⟨q, update s.threads t l⟩ := by
  have sane := inv.sane t
  cases hpc : (s.threads t).pc with
  | poll => exact poll_inv inv hpc allowed moved
  | copyOut => exact copyOut_inv inv hpc allowed moved
  | clean => exact clean_inv inv hpc moved
  | occupy =>
    simp only [Sane, hpc] at sane
    simp only [runSection, hpc] at moved
    split at moved
    · rename_i i found
      simp only [Option.some.injEq, Prod.mk.injEq] at moved
      obtain ⟨rfl, rfl⟩ := moved
      exact occupy_inv inv hpc found
    · have before : (s.threads t).owns = none := by simp [Local.owns, hpc]
      split at moved
      · simp only [Option.some.injEq, Prod.mk.injEq] at moved
        obtain ⟨rfl, rfl⟩ := moved
        exact inv.driver_none before (by simp [Local.owns]) (by simpa [Sane, hpc] using sane)
      · simp only [Option.some.injEq, Prod.mk.injEq] at moved
        obtain ⟨rfl, rfl⟩ := moved
        exact inv.driver_none before (owns_returned generic_ne_pending) (sane_ret _ _)
  | occupyClean =>
    simp only [runSection, hpc, Option.some.injEq, Prod.mk.injEq] at moved
    obtain ⟨rfl, rfl⟩ := moved
    exact occupyClean_inv inv hpc
  | occupyPublish =>
    simp only [runSection, hpc, Option.some.injEq, Prod.mk.injEq] at moved
    obtain ⟨rfl, rfl⟩ := moved
    exact publish_inv inv (Or.inl hpc)
  | reuse =>
    simp only [runSection, hpc] at moved
    split at moved
    · rename_i q' reused
      simp only [Option.some.injEq, Prod.mk.injEq] at moved
      obtain ⟨rfl, rfl⟩ := moved
      exact reuse_inv inv hpc reused
    · simp only [Option.some.injEq, Prod.mk.injEq] at moved
      obtain ⟨rfl, rfl⟩ := moved
      exact reuse_fails_inv inv hpc
  | reusePublish =>
    simp only [runSection, hpc, Option.some.injEq, Prod.mk.injEq] at moved
    obtain ⟨rfl, rfl⟩ := moved
    exact publish_inv inv (Or.inr hpc)
  | reuseRelease =>
    simp only [runSection, hpc, Option.some.injEq, Prod.mk.injEq] at moved
    obtain ⟨rfl, rfl⟩ := moved
    exact reuseRelease_inv inv hpc
  | pendingPoll =>
    have waiting : Waiting (s.threads t).pc := by simp [Waiting, hpc]
    simp only [runSection, hpc] at moved
    split at moved
    · simp only [Option.some.injEq, Prod.mk.injEq] at moved
      obtain ⟨rfl, rfl⟩ := moved
      exact waiting_inv inv waiting (by simp [Waiting]) rfl rfl rfl rfl
    · simp only [Option.some.injEq, Prod.mk.injEq] at moved
      obtain ⟨rfl, rfl⟩ := moved
      exact waiting_inv inv waiting (by simp [Waiting, Local.retry]) rfl rfl rfl rfl
  | abort =>
    have waiting : Waiting (s.threads t).pc := by simp [Waiting, hpc]
    simp only [runSection, hpc] at moved
    split at moved
    · rename_i q' aborted
      simp only [Option.some.injEq, Prod.mk.injEq] at moved
      obtain ⟨rfl, rfl⟩ := moved
      exact abort_inv inv hpc aborted
    · simp only [Option.some.injEq, Prod.mk.injEq] at moved
      obtain ⟨rfl, rfl⟩ := moved
      exact waiting_inv inv waiting (by simp [Waiting, Local.retry]) rfl rfl rfl rfl
  | agentWork =>
    simp only [Sane, hpc] at sane
    simp only [runSection, hpc, Option.some.injEq, Prod.mk.injEq] at moved
    obtain ⟨rfl, rfl⟩ := moved
    have mine : (s.threads t).owns = some (s.threads t).cmdIndex := by simp [Local.owns, hpc]
    refine inv.driver_keep mine ?_ ?_ ?_ ?_
    · simp [Local.retry, Local.owns, sane.1]
    · simp [Local.retry, sane.1]
    · simp only [Local.retry, hpc, Knows, sane.1]
      exact id
    · simp [Local.retry, Sane, sane.1, sane.2]
  | _ => simp [runSection, hpc] at moved

/-- `update_chksum` rewrites the entry while the TEE must not look at it. -/
theorem updateChksum_inv (inv : Inv strict s) {l : Local} {scrambler : Nat}
    (hpc : (s.threads t).pc = .occupyUpdate ∧ l.pc = .occupyPublish ∨
      (s.threads t).pc = .reuseUpdate ∧ l.pc = .reusePublish)
    (index : l.cmdIndex = (s.threads t).cmdIndex) (placed : l.placed = (s.threads t).placed)
    (sane : Sane l) :
    Inv strict ⟨updateChksum s.queue (s.threads t).cmdIndex scrambler, update s.threads t l⟩ := by
  have mine : (s.threads t).owns = some (s.threads t).cmdIndex := by
    rcases hpc with ⟨h, _⟩ | ⟨h, _⟩ <;> simp [Local.owns, h]
  have owns : l.owns = some (s.threads t).cmdIndex := by
    rcases hpc with ⟨_, h⟩ | ⟨_, h⟩ <;> simp [Local.owns, h, index]
  have ok := inv.thread t _ mine
  have slot := inv.slot (s.threads t).cmdIndex
  refine inv.driver_slot (Or.inl mine) ?_ ?_ ?_ sane (fun _ _ => owns)
  · intro j hj
    simp [updateChksum, hj]
  · rw [updateChksum, set_slots, update_self]
    exact ⟨slot.occupied, slot.current, slot.unanswered⟩
  · intro j hj
    refine ⟨Option.some.inj (hj.symm.trans owns), ?_⟩
    rw [updateChksum, set_slots, update_self]
    refine ⟨ok.inBit, ok.placed.trans placed.symm, ?_⟩
    have knows := ok.knows
    rcases hpc with ⟨h, h'⟩ | ⟨h, h'⟩
    · rw [h] at knows; rw [h']; exact knows
    · rw [h] at knows; rw [h']; exact knows

theorem updateSection_inv (inv : Inv strict s) {scrambler : Option Nat} {q : Queue} {l : Local}
    (moved : updateSection s.queue (s.threads t) scrambler = some (q, l)) :
    Inv strict ⟨q, update s.threads t l⟩ := by
  have sane := inv.sane t
  unfold updateSection at moved
  split at moved
  · rename_i hpc
    simp only [Option.some.injEq, Prod.mk.injEq] at moved
    obtain ⟨rfl, rfl⟩ := moved
    exact updateChksum_inv inv (Or.inl ⟨hpc, rfl⟩) rfl rfl
      (by simpa [Sane, hpc] using sane)
  · rename_i hpc
    simp only [Option.some.injEq, Prod.mk.injEq] at moved
    obtain ⟨rfl, rfl⟩ := moved
    exact inv.driver_keep (i := (s.threads t).cmdIndex) (by simp [Local.owns, hpc])
      (by simp [Local.owns]) rfl (by simp only [hpc, Knows]; exact id) (by simp [Sane])
  · rename_i hpc
    simp only [Option.some.injEq, Prod.mk.injEq] at moved
    obtain ⟨rfl, rfl⟩ := moved
    exact updateChksum_inv inv (Or.inr ⟨hpc, rfl⟩) rfl rfl
      (by simpa [Sane, hpc] using sane)
  · rename_i hpc
    simp only [Option.some.injEq, Prod.mk.injEq] at moved
    obtain ⟨rfl, rfl⟩ := moved
    exact inv.driver_keep (i := (s.threads t).cmdIndex) (by simp [Local.owns, hpc])
      (by simp [Local.owns]) rfl
      (by simp only [hpc, Knows]; exact fun h => ⟨h.2.1, Or.inl ⟨h.1, h.2.2⟩⟩) (by simp [Sane])
  · cases moved

theorem sendSection_inv (inv : Inv strict s) {result : SendResult} {l : Local}
    (allowed : strict → LeakFree s (.driver t (.send result)))
    (moved : sendSection (s.threads t) result = some l) :
    Inv strict ⟨s.queue, update s.threads t l⟩ := by
  cases result with
  | done exit =>
    simp only [sendSection] at moved
    split at moved
    · rename_i h
      obtain rfl := Option.some.inj moved
      exact waiting_inv inv (by simp [Waiting, h.1]) (by simp [Waiting]) rfl rfl rfl rfl
    · cases moved
  | crash =>
    simp only [sendSection] at moved
    split at moved
    · rename_i hpc
      obtain rfl := Option.some.inj moved
      have waiting : Waiting (s.threads t).pc := by simp [Waiting, hpc]
      obtain ⟨mine, _, saneIff⟩ := waiting.spec strict
      have usage := (saneIff.mp (inv.sane t)).1
      exact forget_inv inv mine (fun hs => allowed hs) (by simp [Local.owns, usage])
        (by simp [Sane, usage, teecPending])
    · cases moved

theorem waitSection_inv (inv : Inv strict s) {result : WaitResult} {l : Local}
    (moved : waitSection (s.threads t) result = some l) :
    Inv strict ⟨s.queue, update s.threads t l⟩ := by
  unfold waitSection at moved
  split at moved
  · rename_i hpc
    have waiting : Waiting (s.threads t).pc := by simp [Waiting, hpc]
    cases result with
    | affinity | timeout =>
      obtain rfl := Option.some.inj moved
      exact waiting_inv inv waiting (by simp [Waiting, Local.retry]) rfl rfl rfl rfl
    | killed | woken =>
      obtain rfl := Option.some.inj moved
      exact waiting_inv inv waiting (by simp [Waiting]) rfl rfl rfl rfl
  · cases moved

theorem start_owns (l : Local) (cmd : SmcCmd) (pid : Nat) (peOk : Bool) :
    (l.start cmd pid peOk).owns = none ∧ Sane (l.start cmd pid peOk) := by
  cases peOk <;> simp [Local.start, Local.retry, Local.owns, Sane, generic_ne_pending]

theorem startSection_inv (inv : Inv strict s) {cmd : SmcCmd} {pid : Nat} {peOk : Bool} {l : Local}
    (moved : startSection (s.threads t) cmd pid peOk = some l) :
    Inv strict ⟨s.queue, update s.threads t l⟩ := by
  obtain ⟨after, sane⟩ := start_owns (s.threads t) cmd pid peOk
  unfold startSection at moved
  split at moved
  · rename_i hpc
    obtain rfl := Option.some.inj moved
    exact inv.driver_none (by simp [Local.owns, hpc]) after sane
  · rename_i ret hpc
    split at moved
    · cases moved
    · rename_i final
      obtain rfl := Option.some.inj moved
      exact inv.driver_none (by simp [Local.owns, hpc, final]) after sane
  · cases moved

theorem resumeSection_inv (inv : Inv strict s) {pid : Nat} {peOk : Bool} {l : Local}
    (allowed : strict → LeakFree s (.driver t (.resume pid peOk)))
    (moved : resumeSection (s.threads t) pid peOk = some l) :
    Inv strict ⟨s.queue, update s.threads t l⟩ := by
  unfold resumeSection at moved
  split at moved
  · rename_i ret hpc
    split at moved
    · rename_i pending
      obtain rfl := Option.some.inj moved
      have mine : (s.threads t).owns = some (s.threads t).inCmd.eventNr := by
        simp [Local.owns, hpc, pending]
      cases peOk with
      | true =>
        refine inv.driver_keep mine ?_ ?_ ?_ ?_
        · simp [Local.resume, Local.retry, Local.owns]
        · simp [Local.resume, Local.retry]
        · simp only [hpc, Knows, Local.resume, Local.retry]
          intro knows
          exact ⟨knows.1, knows.2.1⟩
        · simp [Local.resume, Local.retry, Sane]
      | false =>
        have lax : ¬ strict := fun hs => by simpa [LeakFree] using allowed hs
        exact forget_inv inv mine lax (owns_returned generic_ne_pending) (sane_ret _ _)
    · cases moved
  · cases moved

omit [DecidableEq Thread] in
/-- A step of the TEE on slot `i` that keeps what the slot's owner knows. -/
theorem Inv.tee (inv : Inv strict s) {q : Queue} {i : Nat} {slot : Slot}
    (slots : q.slots = update s.queue.slots i slot) (ok : SlotOk i slot)
    (occupied : (s.queue.slots i).inBit = true) (inBit : slot.inBit = true)
    (round : slot.round = (s.queue.slots i).round)
    (knows : ∀ pc, Knows strict pc (s.queue.slots i) → Knows strict pc slot) :
    Inv strict ⟨q, s.threads⟩ where
  slot := by
    intro j
    rw [slots]
    by_cases hj : j = i
    · subst hj; simpa using ok
    · simpa [hj] using inv.slot j
  exclusive := inv.exclusive
  thread := by
    intro t j hj
    have old := inv.thread t j hj
    rw [slots]
    by_cases hji : j = i
    · subst hji
      rw [update_self]
      exact ⟨inBit, round.trans old.placed, knows _ old.knows⟩
    · simpa [hji] using old
  sane := inv.sane
  owned := by
    intro hs j hj
    rw [slots] at hj
    by_cases hji : j = i
    · subst hji; exact inv.owned hs j occupied
    · exact inv.owned hs j (by simpa [hji] using hj)

omit [DecidableEq Thread] in
/-- Taking a command: a slot its owner knows to be unready or answered is left alone,
because `doing` is set or nothing is published. -/
theorem teeTake_inv (inv : Inv strict s) {i : Nat} {q : Queue}
    (taken : teeTake s.queue i = some q) : Inv strict ⟨q, s.threads⟩ := by
  have slot := inv.slot i
  simp only [teeTake] at taken
  split at taken
  · rename_i bits
    simp only [Bool.and_eq_true, Bool.not_eq_true'] at bits
    split at taken
    · obtain rfl := Option.some.inj taken
      refine inv.tee rfl ⟨fun _ => bits.1, by simp, ?_⟩ bits.1 bits.1 rfl ?_
      · intro r h _
        exact ⟨(Option.some.inj h).symm, bits.1⟩
      · intro pc knows
        cases pc <;> simp_all [Knows]
    · obtain rfl := Option.some.inj taken
      refine inv.tee rfl ⟨fun _ => bits.1, slot.current, ?_⟩ bits.1 bits.1 rfl ?_
      · intro r h _
        exact ⟨(Option.some.inj h).symm, bits.1⟩
      · intro pc knows
        cases pc <;> simp_all [Knows]
  · cases taken

omit [DecidableEq Thread] in
/-- Answering a command: its owner is waiting, because an unready or answered slot holds
no unanswered command. -/
theorem teeReply_inv (inv : Inv strict s) {i : Nat} {reply : SmcCmd} {q : Queue}
    (replied : teeReply s.queue i reply = some q) : Inv strict ⟨q, s.threads⟩ := by
  have slot := inv.slot i
  simp only [teeReply] at replied
  split at replied
  · rename_i bits
    simp only [Bool.and_eq_true] at bits
    split at replied
    · rename_i r taken
      split at replied
      · cases replied
      · rename_i unanswered
        obtain rfl := Option.some.inj replied
        obtain ⟨rfl, _⟩ := slot.unanswered r taken unanswered
        have noisy : ¬ (s.queue.slots i).Quiet := fun quiet => unanswered (quiet _ taken)
        refine inv.tee rfl ⟨fun _ => bits.1, fun _ => ⟨rfl, rfl, id, rfl⟩, ?_⟩ bits.1 bits.1 rfl ?_
        · intro r h h'
          exact False.elim (h' (taken.symm.trans h))
        · intro pc knows
          cases pc <;> simp_all [Knows]
    · cases replied
  · cases replied

end Sections

theorem step_inv [DecidableEq Thread] {s s' : Sys Thread} {a : Act Thread} {maxSmcCmd : Nat}
    (inv : Inv strict s) (allowed : strict → LeakFree s a)
    (moved : step maxSmcCmd s a = some s') : Inv strict s' := by
  cases a with
  | driver t a =>
    simp only [step, Option.map_eq_some_iff] at moved
    obtain ⟨⟨q, l⟩, moved, rfl⟩ := moved
    cases a with
    | start cmd pid peOk =>
      simp only [driverStep, Option.map_eq_some_iff, Prod.mk.injEq] at moved
      obtain ⟨l, moved, rfl, rfl⟩ := moved
      exact startSection_inv inv moved
    | resume pid peOk =>
      simp only [driverStep, Option.map_eq_some_iff, Prod.mk.injEq] at moved
      obtain ⟨l, moved, rfl, rfl⟩ := moved
      exact resumeSection_inv inv allowed moved
    | update scrambler => exact updateSection_inv inv moved
    | send result =>
      simp only [driverStep, Option.map_eq_some_iff, Prod.mk.injEq] at moved
      obtain ⟨l, moved, rfl, rfl⟩ := moved
      exact sendSection_inv inv allowed moved
    | wait result =>
      simp only [driverStep, Option.map_eq_some_iff, Prod.mk.injEq] at moved
      obtain ⟨l, moved, rfl, rfl⟩ := moved
      exact waitSection_inv inv moved
    | run => exact runSection_inv inv allowed moved
  | take i =>
    simp only [step, Option.map_eq_some_iff] at moved
    obtain ⟨q, moved, rfl⟩ := moved
    exact teeTake_inv inv moved
  | reply i r =>
    simp only [step, Option.map_eq_some_iff] at moved
    obtain ⟨q, moved, rfl⟩ := moved
    exact teeReply_inv inv moved

end SmcQueue
