import Mathlib.Data.List.Nodup
import Tzdriver.ActionSystem
import Tzdriver.PendingEntries
import Tzdriver.RefLedger

/-!
# Who counts for a pending entry

The counter of an entry is the number of frames that have it and will put it, in any interleaving, so
the last of them frees it, once, and nobody else reaches it then. Each entry keeps one reference to
its task.
-/

namespace PendingEntries

open Function RefLedger ActionSystem

/-! ## The books -/

section Books

variable {Thread : Type*}

def refs (s : Sys Thread) : Thread × Frame → Option EntryPtr := Use.ref ∘ s.uses

/-- The frames that have an entry: those that count, or the one that frees it. -/
def Entry.frames (x : Entry Thread) : Nat := max x.users 1

def framesOf (s : Sys Thread) : EntryPtr → Option Nat := Option.map Entry.frames ∘ s.entries

def taskOf (s : Sys Thread) : EntryPtr → Option Thread := Option.map Entry.task ∘ s.entries

def usageOf (s : Sys Thread) : Thread → Option Nat := some ∘ s.taskUsage

/-- What holds of the entry a frame has. -/
def UseOk (pid : Thread → Int) (s : Sys Thread) (r : Thread × Frame) : Use → Prop
  | .idle => True
  | .linked pe => r.2 = .own ∧ pe ∈ s.gPendingHead ∧
      ∃ x, s.entries pe = some x ∧ 0 < x.users ∧ x.task = r.1
  | .unlinked pe => ∃ x, s.entries pe = some x ∧ 0 < x.users
  | .found pe p => ∃ x, s.entries pe = some x ∧ 0 < x.users ∧ pid x.task = p
  | .freeing pe => ∃ x, s.entries pe = some x ∧ x.users = 0

/-- The counters of entries and tasks are right, and the list has the entries of the threads that
are inside. -/
structure Inv (pid : Thread → Int) (s : Sys Thread) : Prop where
  noFault : s.fault = false
  entries : Balanced (refs s) (framesOf s)
  tasks : Balanced (taskOf s) (usageOf s)
  nodup : s.gPendingHead.Nodup
  listed : ∀ pe ∈ s.gPendingHead, ∃ t, s.uses (t, .own) = .linked pe
  frames : ∀ r, UseOk pid s r (s.uses r)

variable {pid : Thread → Int} {s s' : Sys Thread} {t : Thread} {r q : Thread × Frame} {u : Use}
  {pe : EntryPtr} {x y : Entry Thread} {wanted : Int} {n which : Nat}

theorem framesOf_eq (here : s.entries pe = some x) : framesOf s pe = some x.frames := by
  simp [framesOf, here]

theorem taskOf_eq (here : s.entries pe = some x) : taskOf s pe = some x.task := by
  simp [taskOf, here]

theorem init_inv : Inv pid (Sys.init : Sys Thread) where
  noFault := rfl
  entries := .empty (fun _ => rfl) (fun _ => rfl)
  tasks := by
    refine ⟨?_, nofun⟩
    intro t k counted
    obtain rfl : 0 = k := Option.some.inj counted
    simp [taskOf, Sys.init]
  nodup := .nil
  listed := nofun
  frames _ := trivial

/-- The task of an entry has not been given back. -/
theorem Inv.usage (inv : Inv pid s) (here : s.entries pe = some x) :
    ∃ n, s.taskUsage x.task = n + 1 := by
  obtain ⟨k, counted⟩ := inv.tasks.pos (taskOf_eq here)
  exact ⟨k, Option.some.inj counted⟩

theorem Inv.linked (inv : Inv pid s) (at_ : s.uses r = .linked pe) :
    r.2 = .own ∧ pe ∈ s.gPendingHead ∧ ∃ x, s.entries pe = some x ∧ 0 < x.users ∧ x.task = r.1 := by
  have ok := inv.frames r
  rwa [at_] at ok

/-- A thread is inside with one entry, and an entry is of one thread. -/
theorem Inv.linked_unique (inv : Inv pid s) (at_ : s.uses r = .linked pe)
    (also : s.uses q = .linked pe) : q = r := by
  obtain ⟨own, -, x, here, -, task⟩ := inv.linked at_
  obtain ⟨own', -, y, there, -, task'⟩ := inv.linked also
  obtain rfl : x = y := Option.some.inj (here.symm.trans there)
  exact Prod.ext (task'.symm.trans task) (own'.trans own.symm)

/-- What holds of a frame goes on to hold when its entry keeps its task and the sign of its counter. -/
theorem UseOk.mono (ok : UseOk pid s r u)
    (entry : ∀ e x, u.ref = some e → s.entries e = some x →
      ∃ y, s'.entries e = some y ∧ y.task = x.task ∧ (0 < y.users ↔ 0 < x.users))
    (head : ∀ e, u = .linked e → e ∈ s.gPendingHead → e ∈ s'.gPendingHead) : UseOk pid s' r u := by
  cases u with
  | idle => trivial
  | linked e =>
    obtain ⟨own, inside, x, here, pos, mine⟩ := ok
    obtain ⟨y, there, task, sign⟩ := entry e x rfl here
    exact ⟨own, head e rfl inside, y, there, sign.2 pos, task.trans mine⟩
  | unlinked e =>
    obtain ⟨x, here, pos⟩ := ok
    obtain ⟨y, there, -, sign⟩ := entry e x rfl here
    exact ⟨y, there, sign.2 pos⟩
  | found e p =>
    obtain ⟨x, here, pos, named⟩ := ok
    obtain ⟨y, there, task, sign⟩ := entry e x rfl here
    exact ⟨y, there, sign.2 pos, by rw [task, named]⟩
  | freeing e =>
    obtain ⟨x, here, zero⟩ := ok
    obtain ⟨y, there, -, sign⟩ := entry e x rfl here
    exact ⟨y, there, by omega⟩

/-- The case that one entry is rewritten. -/
theorem UseOk.rewrite (ok : UseOk pid s r u) (here : s.entries pe = some x)
    (there : s'.entries = update s.entries pe (some y)) (task : y.task = x.task)
    (sign : 0 < y.users ↔ 0 < x.users) (head : s'.gPendingHead = s.gPendingHead) :
    UseOk pid s' r u := by
  refine ok.mono ?_ ?_
  · intro e z _ found
    rw [there]
    by_cases he : e = pe
    · subst he
      obtain rfl : x = z := Option.some.inj (here.symm.trans found)
      exact ⟨y, update_self .., task, sign⟩
    · exact ⟨z, by rw [update_of_ne he, found], rfl, Iff.rfl⟩
  · intro e _ inside
    rwa [head]

/-- The case that the entry is no entry of this frame. -/
theorem UseOk.elsewhere {v : Option (Entry Thread)} (ok : UseOk pid s r u)
    (other : u.ref ≠ some pe) (there : s'.entries = update s.entries pe v)
    (head : ∀ e ∈ s.gPendingHead, e ∈ s'.gPendingHead) : UseOk pid s' r u := by
  refine ok.mono ?_ (fun e _ inside => head e inside)
  intro e z mine found
  have away : e ≠ pe := by
    rintro rfl
    exact other mine
  exact ⟨z, by rw [there, update_of_ne away, found], rfl, Iff.rfl⟩

/-! ## Each step keeps the books -/

/-- A store to an entry changes nothing that is counted. -/
theorem Inv.setRun (inv : Inv pid s) (which : Nat) (here : s.entries pe = some x) :
    Inv pid (s.setRun which pe) ∧
      ∀ q, ((s.setRun which pe).entries q).isSome = (s.entries q).isSome := by
  have changed : s.setRun which pe = s.setEntry pe (some { x with run := which }) := by
    simp [Sys.setRun, here]
  have frames : framesOf (s.setRun which pe) = framesOf s := by
    rw [changed, framesOf, Sys.setEntry, comp_update]
    exact update_eq_self_iff.2 (framesOf_eq here).symm
  have tasks : taskOf (s.setRun which pe) = taskOf s := by
    rw [changed, taskOf, Sys.setEntry, comp_update]
    exact update_eq_self_iff.2 (taskOf_eq here).symm
  refine ⟨⟨?_, ?_, ?_, ?_, ?_, ?_⟩, ?_⟩
  · rw [changed]
    exact inv.noFault
  · rw [frames, changed]
    exact inv.entries
  · rw [tasks, changed]
    exact inv.tasks
  · rw [changed]
    exact inv.nodup
  · rw [changed]
    exact inv.listed
  · intro r
    have ok := inv.frames r
    rw [changed]
    exact ok.rewrite here rfl rfl Iff.rfl rfl
  · intro q
    rw [changed, Sys.setEntry]
    by_cases hq : q = pe
    · simp [hq, here]
    · simp [hq]

/-- A frame that has the only reference is the only one with the entry. -/
theorem Inv.alone (inv : Inv pid s) (has : (s.uses r).ref = some pe) (here : s.entries pe = some x)
    (one : x.frames = 1) (other : q ≠ r) : (s.uses q).ref ≠ some pe := by
  intro also
  have counted := framesOf_eq here
  rw [one] at counted
  exact other (inv.entries.unique counted has also)

/-- A listed entry is there, and so is its task. -/
theorem Inv.inside (inv : Inv pid s) (listed : pe ∈ s.gPendingHead) :
    ∃ x, s.entries pe = some x ∧ 0 < x.users ∧ s.taskUsage x.task ≠ 0 ∧
      s.uses (x.task, .own) = .linked pe := by
  obtain ⟨t, at_⟩ := inv.listed pe listed
  obtain ⟨-, -, x, here, pos, rfl⟩ := inv.linked at_
  obtain ⟨n, usage⟩ := inv.usage here
  exact ⟨x, here, pos, by omega, at_⟩

/-- The search reads what is there, and ends at the first entry of a thread with the wanted id. -/
theorem Inv.search (inv : Inv pid s) (wanted : Int) {list : List EntryPtr}
    (listed : ∀ pe ∈ list, pe ∈ s.gPendingHead) :
    (∃ pe ∈ list, ∃ x, s.search pid wanted list = some (some pe) ∧ s.entries pe = some x ∧
      0 < x.users ∧ pid x.task = wanted) ∨
    (s.search pid wanted list = some none ∧
      ∀ pe ∈ list, ∀ x, s.entries pe = some x → pid x.task ≠ wanted) := by
  induction list with
  | nil => exact .inr ⟨rfl, nofun⟩
  | cons e rest ih =>
    obtain ⟨x, here, pos, usage, -⟩ := inv.inside (listed e List.mem_cons_self)
    have unfolded : s.search pid wanted (e :: rest) =
        if pid x.task = wanted then some (some e) else s.search pid wanted rest := by
      simp [Sys.search, here, usage]
    rw [unfolded]
    by_cases named : pid x.task = wanted
    · rw [if_pos named]
      exact .inl ⟨e, List.mem_cons_self, x, rfl, here, pos, named⟩
    · rw [if_neg named]
      rcases ih fun pe below => listed pe (List.mem_cons_of_mem e below) with
        ⟨pe, below, y, found, there, counted, same⟩ | ⟨missed, others⟩
      · exact .inl ⟨pe, List.mem_cons_of_mem e below, y, found, there, counted, same⟩
      · refine .inr ⟨missed, ?_⟩
        intro pe inside y there
        rcases List.mem_cons.1 inside with rfl | below
        · obtain rfl : x = y := Option.some.inj (here.symm.trans there)
          exact named
        · exact others pe below y there

theorem Inv.setRunAll (inv : Inv pid s) {list : List EntryPtr}
    (here : ∀ pe ∈ list, (s.entries pe).isSome = true) :
    Inv pid (list.foldl (fun s pe => s.setRun which pe) s) := by
  induction list generalizing s with
  | nil => exact inv
  | cons pe list ih =>
    obtain ⟨x, found⟩ := Option.isSome_iff_exists.1 (here pe List.mem_cons_self)
    obtain ⟨kept, same⟩ := inv.setRun which found
    apply ih kept
    intro q hq
    rw [same]
    exact here q (List.mem_cons_of_mem _ hq)

section Run

variable [DecidableEq Thread]

theorem Inv.initPendingEntry (inv : Inv pid s) (idle : s.uses (t, .own) = .idle)
    (gone : s.entries pe = none) : Inv pid (s.initPendingEntry t pe) := by
  have frames : framesOf (s.initPendingEntry t pe) = update (framesOf s) pe (some 1) := by
    rw [framesOf, Sys.initPendingEntry, comp_update]
    rfl
  have tasks : taskOf (s.initPendingEntry t pe) = update (taskOf s) pe (some t) := by
    rw [taskOf, Sys.initPendingEntry, comp_update]
    rfl
  have unused : framesOf s pe = none := by simp [framesOf, gone]
  have fresh := inv.entries.none_of_gone unused
  refine ⟨inv.noFault, ?_, ?_, ?_, ?_, ?_⟩
  · have opened := (inv.entries.alloc unused).acquire (r := (t, .own)) (v := pe)
      (by simp [refs, idle, Use.ref]) (update_self ..)
    rw [update_idem] at opened
    rw [frames, refs, Sys.initPendingEntry, comp_update]
    exact opened
  · have taken := inv.tasks.acquire (r := pe) (v := t) (by simp [taskOf, gone]) rfl
    rw [tasks, usageOf, Sys.initPendingEntry, comp_update]
    exact taken
  · refine List.nodup_append.2 ⟨inv.nodup, List.nodup_singleton pe, ?_⟩
    rintro a inside b last rfl
    obtain rfl := List.mem_singleton.1 last
    obtain ⟨u, at_⟩ := inv.listed a inside
    exact fresh (u, .own) (by simp [refs, at_, Use.ref])
  · intro e inside
    rcases List.mem_append.1 inside with old | new
    · obtain ⟨u, at_⟩ := inv.listed e old
      refine ⟨u, ?_⟩
      show update s.uses (t, .own) _ (u, .own) = _
      rw [update_of_ne]
      · exact at_
      · intro same
        rw [same, idle] at at_
        cases at_
    · obtain rfl := List.mem_singleton.1 new
      exact ⟨t, update_self ..⟩
  · intro q
    show UseOk pid _ q (update s.uses (t, .own) _ q)
    by_cases hq : q = (t, .own)
    · subst hq
      rw [update_self]
      exact ⟨rfl, List.mem_append_right _ List.mem_cons_self, _, update_self .., Nat.one_pos, rfl⟩
    · rw [update_of_ne hq]
      exact (inv.frames q).elsewhere (fresh q) rfl fun e inside => List.mem_append_left _ inside

/-- Leaving the list: the entry stays. -/
theorem Inv.listDel (inv : Inv pid s) (at_ : s.uses (t, .own) = .linked pe) :
    Inv pid { s.setUse (t, .own) (.unlinked pe) with
      gPendingHead := s.gPendingHead.erase pe } := by
  have same : refs { s.setUse (t, .own) (.unlinked pe) with
      gPendingHead := s.gPendingHead.erase pe } = refs s := by
    rw [refs, Sys.setUse, comp_update]
    exact update_eq_self_iff.2 (by simp [at_, Use.ref])
  obtain ⟨-, -, x, here, pos, -⟩ := inv.linked at_
  refine ⟨inv.noFault, ?_, inv.tasks, inv.nodup.erase pe, ?_, ?_⟩
  · rw [same]
    exact inv.entries
  · intro e inside
    obtain ⟨away, old⟩ := inv.nodup.mem_erase_iff.1 inside
    obtain ⟨u, linked⟩ := inv.listed e old
    refine ⟨u, ?_⟩
    show update s.uses (t, .own) _ (u, .own) = _
    rw [update_of_ne]
    · exact linked
    · intro same
      rw [same, at_] at linked
      cases linked
      exact away rfl
  · intro q
    show UseOk pid _ q (update s.uses (t, .own) _ q)
    by_cases hq : q = (t, .own)
    · subst hq
      rw [update_self]
      exact ⟨x, here, pos⟩
    · rw [update_of_ne hq]
      refine (inv.frames q).mono (fun e z _ found => ⟨z, found, rfl, Iff.rfl⟩) ?_
      intro e linked inside
      refine inv.nodup.mem_erase_iff.2 ⟨?_, inside⟩
      rintro rfl
      exact hq (inv.linked_unique at_ linked)

/-- One more frame counts for an entry. -/
theorem Inv.find (inv : Inv pid s) (idle : s.uses r = .idle) (here : s.entries pe = some x)
    (pos : 0 < x.users) (named : pid x.task = wanted) :
    Inv pid ((s.setEntry pe (some { x with users := x.users + 1 })).setUse r (.found pe wanted)) := by
  have frames : framesOf ((s.setEntry pe (some { x with users := x.users + 1 })).setUse r
      (.found pe wanted)) = update (framesOf s) pe (some (x.frames + 1)) := by
    have one : Entry.frames { x with users := x.users + 1 } = x.frames + 1 := by
      show max (x.users + 1) 1 = max x.users 1 + 1
      omega
    rw [framesOf, Sys.setUse, Sys.setEntry, comp_update, Option.map_some, one]
    rfl
  have tasks : taskOf ((s.setEntry pe (some { x with users := x.users + 1 })).setUse r
      (.found pe wanted)) = taskOf s := by
    rw [taskOf, Sys.setUse, Sys.setEntry, comp_update]
    exact update_eq_self_iff.2 (taskOf_eq here).symm
  refine ⟨inv.noFault, ?_, ?_, inv.nodup, ?_, ?_⟩
  · rw [frames, refs, Sys.setUse, comp_update]
    exact inv.entries.acquire (by simp [refs, idle, Use.ref]) (framesOf_eq here)
  · rw [tasks]
    exact inv.tasks
  · intro e inside
    obtain ⟨t, at_⟩ := inv.listed e inside
    refine ⟨t, ?_⟩
    show update s.uses r _ (t, .own) = _
    rw [update_of_ne]
    · exact at_
    · rintro rfl
      rw [idle] at at_
      cases at_
  · intro q
    show UseOk pid _ q (update s.uses r _ q)
    by_cases hq : q = r
    · subst hq
      rw [update_self]
      exact ⟨_, update_self .., Nat.succ_pos _, named⟩
    · rw [update_of_ne hq]
      exact (inv.frames q).rewrite here rfl rfl (by simp only; omega) rfl

theorem Inv.putPendingEntry (inv : Inv pid s) (has : (s.uses r).ref = some pe)
    (unlinked : s.uses r ≠ .linked pe) (here : s.entries pe = some x) (users : x.users = n + 1) :
    Inv pid ((s.setEntry pe (some { x with users := n })).setUse r
        (if n = 0 then .freeing pe else .idle)) := by
  have tasks : taskOf ((s.setEntry pe (some { x with users := n })).setUse r
      (if n = 0 then .freeing pe else .idle)) = taskOf s := by
    rw [taskOf, Sys.setUse, Sys.setEntry, comp_update]
    exact update_eq_self_iff.2 (taskOf_eq here).symm
  refine ⟨inv.noFault, ?_, ?_, inv.nodup, ?_, ?_⟩
  · rw [framesOf, refs, Sys.setUse, Sys.setEntry, comp_update, comp_update]
    by_cases zero : n = 0
    · have kept : x.frames = 1 := by simp [Entry.frames, users, zero]
      have same : update (Option.map Entry.frames ∘ s.entries) pe
          (Option.map Entry.frames (some { x with users := n })) = framesOf s := by
        refine update_eq_self_iff.2 ?_
        simp [here, Entry.frames, users, zero]
      have same' : update (Use.ref ∘ s.uses) r (if n = 0 then Use.freeing pe else .idle).ref =
          refs s := by
        refine update_eq_self_iff.2 ?_
        rw [if_pos zero]
        exact has.symm
      rw [same, same']
      exact inv.entries
    · have counted : framesOf s pe = some (n + 1) := by
        rw [framesOf_eq here, Entry.frames, users, max_eq_left (by omega)]
      have dropped := inv.entries.drop (r := r) has counted
      rw [if_neg zero]
      have frames : Entry.frames { x with users := n } = n := by
        show max n 1 = n
        omega
      rw [Option.map_some, frames]
      exact dropped
  · rw [tasks]
    exact inv.tasks
  · intro e inside
    obtain ⟨t, at_⟩ := inv.listed e inside
    refine ⟨t, ?_⟩
    show update s.uses r _ (t, .own) = _
    rw [update_of_ne]
    · exact at_
    · rintro rfl
      rw [at_] at has unlinked
      cases has
      exact unlinked rfl
  · intro q
    show UseOk pid _ q (update s.uses r _ q)
    by_cases hq : q = r
    · subst hq
      rw [update_self]
      split
      · rename_i zero
        exact ⟨_, update_self .., zero⟩
      · trivial
    · rw [update_of_ne hq]
      by_cases zero : n = 0
      · have kept : x.frames = 1 := by simp [Entry.frames, users, zero]
        exact (inv.frames q).elsewhere (inv.alone has here kept hq) rfl fun _ inside => inside
      · exact (inv.frames q).rewrite here rfl rfl (by simp only; omega) rfl

theorem Inv.kfree (inv : Inv pid s) (at_ : s.uses r = .freeing pe) (here : s.entries pe = some x)
    (usage : s.taskUsage x.task = n + 1) :
    Inv pid { (s.setEntry pe none).setUse r .idle with
        taskUsage := update s.taskUsage x.task n } := by
  have has : (s.uses r).ref = some pe := by rw [at_]; rfl
  have one : x.frames = 1 := by
    have ok := inv.frames r
    rw [at_] at ok
    obtain ⟨y, found, zero⟩ := ok
    obtain rfl : x = y := Option.some.inj (here.symm.trans found)
    simp [Entry.frames, zero]
  refine ⟨inv.noFault, ?_, ?_, inv.nodup, ?_, ?_⟩
  · have released := inv.entries.release (r := r) (k := 0) has (by rw [framesOf_eq here, one])
    rw [framesOf, refs, Sys.setUse, Sys.setEntry, comp_update, comp_update]
    exact released
  · have dropped := inv.tasks.drop (r := pe) (k := n) (taskOf_eq here) (by simp [usageOf, usage])
    rw [taskOf, usageOf, Sys.setUse, Sys.setEntry, comp_update, comp_update]
    exact dropped
  · intro e inside
    obtain ⟨t, linked⟩ := inv.listed e inside
    refine ⟨t, ?_⟩
    show update s.uses r _ (t, .own) = _
    rw [update_of_ne]
    · exact linked
    · rintro rfl
      rw [at_] at linked
      cases linked
  · intro q
    show UseOk pid _ q (update s.uses r _ q)
    by_cases hq : q = r
    · rw [hq, update_self]
      trivial
    · rw [update_of_ne hq]
      exact (inv.frames q).elsewhere (inv.alone has here one hq) rfl fun _ inside => inside

theorem step_inv {a : Act Thread} (inv : Inv pid s) (moved : step pid s a = some s') :
    Inv pid s' := by
  cases a with
  | initPendingEntry t pe =>
    simp only [step] at moved
    split at moved
    · rename_i free
      cases moved
      exact inv.initPendingEntry free.1 free.2
    · cases moved
  | clearRun t =>
    simp only [step] at moved
    split at moved
    · rename_i pe at_
      cases moved
      obtain ⟨-, -, x, here, -⟩ := inv.linked at_
      exact (inv.setRun _ here).1
    · cases moved
  | listDel t =>
    simp only [step] at moved
    split at moved
    · rename_i pe at_
      obtain ⟨-, inside, x, here, -⟩ := inv.linked at_
      rw [if_pos ⟨by rw [here]; rfl, inside⟩] at moved
      cases moved
      exact inv.listDel at_
    · cases moved
  | findPendingEntry r wanted =>
    simp only [step] at moved
    split at moved
    · rename_i free
      cases moved
      rcases inv.search wanted (fun _ (inside : _ ∈ s.gPendingHead) => inside) with
        ⟨pe, -, x, found, here, pos, named⟩ | ⟨missed, -⟩
      · have moved : s.findPendingEntry pid r wanted =
            (s.setEntry pe (some { x with users := x.users + 1 })).setUse r (.found pe wanted) := by
          simp [Sys.findPendingEntry, found, here]
        rw [moved]
        exact inv.find free.2 here pos named
      · have still : s.findPendingEntry pid r wanted = s := by simp [Sys.findPendingEntry, missed]
        rwa [still]
    · cases moved
  | wake r which =>
    simp only [step] at moved
    split at moved
    · rename_i pe p at_
      cases moved
      have ok := inv.frames r
      rw [at_] at ok
      obtain ⟨x, here, -⟩ := ok
      exact (inv.setRun _ here).1
    · cases moved
  | putPendingEntry r =>
    have put : ∀ pe, (s.uses r).ref = some pe → s.uses r ≠ .linked pe →
        (∃ x, s.entries pe = some x ∧ 0 < x.users) → Inv pid (s.putPendingEntry r pe) := by
      rintro pe has unlinked ⟨x, here, pos⟩
      obtain ⟨n, users⟩ : ∃ n, x.users = n + 1 := ⟨x.users - 1, by omega⟩
      have moved : s.putPendingEntry r pe = (s.setEntry pe (some { x with users := n })).setUse r
          (if n = 0 then .freeing pe else .idle) := by
        simp [Sys.putPendingEntry, here, users]
      rw [moved]
      exact inv.putPendingEntry has unlinked here users
    have ok := inv.frames r
    simp only [step] at moved
    split at moved
    · rename_i pe p at_
      cases moved
      rw [at_] at ok
      obtain ⟨x, here, pos, -⟩ := ok
      exact put pe (by rw [at_]; rfl) (by rw [at_]; nofun) ⟨x, here, pos⟩
    · rename_i pe at_
      cases moved
      rw [at_] at ok
      exact put pe (by rw [at_]; rfl) (by rw [at_]; nofun) ok
    · cases moved
  | kfree r =>
    have ok := inv.frames r
    simp only [step] at moved
    split at moved
    · rename_i pe at_
      cases moved
      rw [at_] at ok
      obtain ⟨x, here, -⟩ := ok
      obtain ⟨n, usage⟩ := inv.usage here
      have moved : s.kfree r pe = { (s.setEntry pe none).setUse r .idle with
          taskUsage := update s.taskUsage x.task n } := by
        simp [Sys.kfree, here, usage]
      rw [moved]
      exact inv.kfree at_ here usage
    · cases moved
  | foreachPendingEntry word =>
    cases moved
    apply inv.setRunAll
    intro pe inside
    obtain ⟨x, here, -⟩ := inv.inside inside
    rw [here]
    rfl

/-! ## Runs -/

/-- The frames that count in `users`. -/
def Use.counts : Use → Option EntryPtr
  | .linked pe | .unlinked pe | .found pe _ => some pe
  | .idle | .freeing _ => none

omit [DecidableEq Thread] in
/-- A counter is the number of frames that count, and at zero one frame frees the entry. -/
theorem Inv.counted (inv : Inv pid s) (here : s.entries pe = some x) :
    {r | (s.uses r).counts = some pe}.encard = x.users ∧
      (x.users = 0 → ∃! r, s.uses r = .freeing pe) := by
  have all : {r | (s.uses r).ref = some pe}.encard = x.frames := inv.entries.exact pe _ (framesOf_eq here)
  have kinds : ∀ r, (s.uses r).ref = some pe →
      ((s.uses r).counts = some pe ∧ 0 < x.users) ∨ (s.uses r = .freeing pe ∧ x.users = 0) := by
    intro r has
    have ok := inv.frames r
    generalize s.uses r = u at has ok
    cases u with
    | idle => cases has
    | freeing e =>
      cases has
      obtain ⟨y, found, zero⟩ := ok
      obtain rfl : x = y := Option.some.inj (here.symm.trans found)
      exact .inr ⟨rfl, zero⟩
    | linked e =>
      cases has
      obtain ⟨-, -, y, found, pos, -⟩ := ok
      obtain rfl : x = y := Option.some.inj (here.symm.trans found)
      exact .inl ⟨rfl, pos⟩
    | unlinked e =>
      cases has
      obtain ⟨y, found, pos⟩ := ok
      obtain rfl : x = y := Option.some.inj (here.symm.trans found)
      exact .inl ⟨rfl, pos⟩
    | found e p =>
      cases has
      obtain ⟨y, found, pos, -⟩ := ok
      obtain rfl : x = y := Option.some.inj (here.symm.trans found)
      exact .inl ⟨rfl, pos⟩
  have counting : ∀ r, (s.uses r).counts = some pe → (s.uses r).ref = some pe := by
    intro r counts
    generalize s.uses r = u at counts ⊢
    cases u <;> simp_all [Use.counts, Use.ref]
  by_cases zero : x.users = 0
  · have one : x.frames = 1 := by simp [Entry.frames, zero]
    refine ⟨?_, fun _ => ?_⟩
    · rw [zero, Nat.cast_zero, Set.encard_eq_zero]
      refine Set.eq_empty_iff_forall_notMem.2 ?_
      intro r counts
      rcases kinds r (counting r counts) with ⟨-, pos⟩ | ⟨at_, -⟩
      · omega
      · simp [at_, Use.counts] at counts
    · rw [one, Nat.cast_one, Set.encard_eq_one] at all
      obtain ⟨r, only⟩ := all
      have has : (s.uses r).ref = some pe := by
        have : r ∈ ({r} : Set (Thread × Frame)) := rfl
        rwa [← only] at this
      rcases kinds r has with ⟨-, pos⟩ | ⟨at_, -⟩
      · omega
      · refine ⟨r, at_, ?_⟩
        intro q also
        have : q ∈ {r | (s.uses r).ref = some pe} := by
          show (s.uses q).ref = some pe
          rw [also]
          rfl
        rwa [only] at this
  · refine ⟨?_, fun bad => absurd bad zero⟩
    have same : {r | (s.uses r).counts = some pe} = {r | (s.uses r).ref = some pe} := by
      ext r
      refine ⟨counting r, fun has => ?_⟩
      rcases kinds r has with ⟨counts, -⟩ | ⟨-, bad⟩
      · exact counts
      · exact absurd bad zero
    rw [same, all, Entry.frames, max_eq_left (by omega)]

/-- Whatever frames and tasks count, in any order of the steps of any number of threads. -/
structure Accounted (s : Sys Thread) : Prop where
  noFault : s.fault = false
  allocated : ∀ r pe, (s.uses r).ref = some pe → (s.entries pe).isSome = true
  users : ∀ pe x, s.entries pe = some x → {r | (s.uses r).counts = some pe}.encard = x.users
  lastOne : ∀ pe x, s.entries pe = some x → x.users = 0 → ∃! r, s.uses r = .freeing pe
  tasks : ∀ t, {pe | (s.entries pe).map Entry.task = some t}.encard = s.taskUsage t

/-- No thread reaches an entry that is freed, and when all threads are out everything is given
back. -/
theorem entries_accounted (run : Reach (step pid) (fun _ _ => True) Sys.init s) :
    Accounted s ∧ ((∀ r, s.uses r = .idle) →
      (∀ pe, s.entries pe = none) ∧ s.gPendingHead = [] ∧ ∀ t, s.taskUsage t = 0) := by
  have inv : Inv pid s := run.invariant init_inv fun _ _ _ inv _ moved => step_inv inv moved
  have tasks : ∀ t, {pe | (s.entries pe).map Entry.task = some t}.encard = s.taskUsage t :=
    fun t => inv.tasks.exact t _ rfl
  refine ⟨⟨inv.noFault, ?_, ?_, ?_, tasks⟩, ?_⟩
  · intro r pe has
    obtain ⟨k, counted⟩ := inv.entries.valid r pe has
    obtain ⟨x, here, -⟩ := Option.map_eq_some_iff.1 counted
    rw [here]
    rfl
  · intro pe x here
    exact (inv.counted here).1
  · intro pe x here
    exact (inv.counted here).2
  · intro out
    have gone : ∀ pe, s.entries pe = none := by
      intro pe
      cases here : s.entries pe with
      | none => rfl
      | some x =>
        have users := (inv.counted here).1
        have zero : x.users = 0 := by
          have none_ : {r | (s.uses r).counts = some pe} = ∅ := by
            simp [out, Use.counts]
          rw [none_, Set.encard_empty] at users
          exact_mod_cast users.symm
        obtain ⟨r, at_, -⟩ := (inv.counted here).2 zero
        rw [out r] at at_
        cases at_
    refine ⟨gone, ?_, ?_⟩
    · apply List.eq_nil_iff_forall_not_mem.2
      intro pe inside
      obtain ⟨x, here, -⟩ := inv.inside inside
      rw [gone] at here
      cases here
    · intro t
      have count := tasks t
      simp only [gone, Option.map_none] at count
      simpa using count.symm

end Run

end Books

/-! A worker finds the entry of a thread that leaves before it is woken. -/

section Example

def threadId : Bool → Int := fun t => if t then 11 else 10

theorem entries_accounted_late_wake : ∃ s, (Accounted s ∧ ((∀ r, s.uses r = .idle) →
      (∀ pe, s.entries pe = none) ∧ s.gPendingHead = [] ∧ ∀ t : Bool, s.taskUsage t = 0)) ∧
    (s.entries 64).isSome = true ∧ s.uses (false, .own) = .idle := by
  obtain ⟨s, run, left⟩ := reach_of_play (step threadId) (fun _ _ => True)
    (fun s => (s.entries 64).isSome && decide (s.uses (false, .own) = .idle)) Sys.init
    [.initPendingEntry false 64, .findPendingEntry (true, .outer) 10, .listDel false,
      .putPendingEntry (false, .own), .wake (true, .outer) 1] (by decide +kernel)
  simp only [Bool.and_eq_true, decide_eq_true_eq] at left
  exact ⟨s, entries_accounted run, left⟩

end Example

end PendingEntries
