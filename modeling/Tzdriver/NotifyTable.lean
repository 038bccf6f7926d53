import Mathlib.Data.List.Basic
import Mathlib.Logic.Function.Basic
import Tzdriver.ActionSystem

/-!
# The notify table

`core/tz_spi_notify.c`: the TEE fills entries of a table that it shares with the driver, and
workers drain it. A worker takes the first filled entry under `g_notify_lock`, hands a copy of
it to the handler of its type and looks again. An entry whose type has no handler is not taken:
the search stops there, for every worker and every time, and the entries behind it wait.

A worker that has run to its end can be queued again. `CONFIG_TA_AFFINITY` is the argument
`affinity`. The index kept with a copy is bookkeeping.
-/

namespace NotifyTable

open Function

inductive Handler where
  | timer
  | wakeup
  | shadow
  | fiqshd
  | shadowExit
  | setAffinity
  deriving DecidableEq, Repr

/-- The cases of the two `switch` statements on `entry_type`. -/
def handlerOf (affinity : Bool) : Nat → Option Handler
  | 1 | 2 => some .timer
  | 3 => some .wakeup
  | 4 => some .shadow
  | 5 => some .fiqshd
  | 6 => some .shadowExit
  | 7 => if affinity then some .setAffinity else none
  | _ => none

structure Entry (Ctx : Type*) where
  entryType : Nat
  filled : Bool
  context : Ctx
  deriving DecidableEq, Repr

/-- The counters of the entry `meta`. -/
structure Meta where
  recvS : UInt32 := 0
  recvW : UInt32 := 0
  recvAf : UInt32 := 0
  missed : Nat := 0
  deriving DecidableEq, Repr

def Meta.received (m : Meta) : Handler → Meta
  | .timer => m
  | .shadow | .shadowExit | .fiqshd => { m with recvS := m.recvS + 1 }
  | .wakeup => { m with recvW := m.recvW + 1 }
  | .setAffinity => { m with recvAf := m.recvAf + 1 }

section Search

variable {Ctx : Type*} (affinity : Bool) (count : Nat)

/-- `get_notify_data_entry`: the entry it copies, with the table and the counters after it. -/
def getNotifyDataEntry (table : Nat → Entry Ctx) (m : Meta) :
    Option (Nat × Entry Ctx × (Nat → Entry Ctx) × Meta) :=
  match (List.range count).find? (fun i => (table i).filled) with
  | none => none
  | some i =>
    match handlerOf affinity (table i).entryType with
    | none => none
    | some h =>
      some (i, table i, update table i { table i with filled := false }, m.received h)

end Search

/-- Where a worker stands in `tc_notify_fn`. -/
inductive Worker (Ctx : Type*) where
  | idle
  | draining
  | holding (index : Nat) (copy : Entry Ctx)
  | drained
  | ended
  deriving DecidableEq, Repr

inductive Event (Ctx : Type*) where
  | dispatched (index : Nat) (handler : Handler) (context : Ctx)
  | wakeupBroadcast
  | fiqshdMissed
  deriving DecidableEq, Repr

structure State (W Ctx : Type*) where
  table : Nat → Entry Ctx
  counters : Meta
  workers : W → Worker Ctx
  log : List (Event Ctx)

inductive Act (W : Type*) where
  | start (w : W)
  | get (w : W)
  | dispatch (w : W)
  | broadcast (w : W)
  deriving DecidableEq, Repr

/-- `spi_broadcast_notifications`: the notifications the TEE could not put into the table. -/
def missedEvents (Ctx : Type*) (missed : Nat) : List (Event Ctx) :=
  (if missed.testBit 3 then [.wakeupBroadcast] else []) ++
    (if missed.testBit 5 then [.fiqshdMissed] else [])

section Steps

variable {W Ctx : Type*} [DecidableEq W] (affinity : Bool) (count : Nat)

def State.setWorker (s : State W Ctx) (w : W) (x : Worker Ctx) : State W Ctx :=
  { s with workers := update s.workers w x }

def step (s : State W Ctx) : Act W → Option (State W Ctx)
  | .start w =>
    match s.workers w with
    | .idle | .ended => some (s.setWorker w .draining)
    | _ => none
  | .get w =>
    match s.workers w with
    | .draining =>
      match getNotifyDataEntry affinity count s.table s.counters with
      | none => some (s.setWorker w .drained)
      | some (i, copy, table, counters) =>
        some { s.setWorker w (.holding i copy) with table := table, counters := counters }
    | _ => none
  | .dispatch w =>
    match s.workers w with
    | .holding i copy =>
      match handlerOf affinity copy.entryType with
      | some h =>
        some { s.setWorker w .draining with log := s.log ++ [.dispatched i h copy.context] }
      | none => some (s.setWorker w .draining)
    | _ => none
  | .broadcast w =>
    match s.workers w with
    | .drained =>
      some { s.setWorker w .ended with
        counters := { s.counters with missed := 0 }
        log := s.log ++ missedEvents Ctx s.counters.missed }
    | _ => none

def init (table : Nat → Entry Ctx) (counters : Meta) : State W Ctx :=
  ⟨table, counters, fun _ => .idle, []⟩

end Steps

/-! ## One entry -/

section Entries

variable {W Ctx : Type*}

/-- The copy of entry `i` that a worker has. -/
def Worker.copyOf (i : Nat) : Worker Ctx → Option (Entry Ctx)
  | .holding j copy => if j = i then some copy else none
  | _ => none

def copies (s : State W Ctx) (i : Nat) : W → Option (Entry Ctx) := fun w => (s.workers w).copyOf i

def Event.of (i : Nat) : Event Ctx → Option (Handler × Ctx)
  | .dispatched j h ctx => if j = i then some (h, ctx) else none
  | _ => none

/-- What was dispatched from entry `i`. -/
def dispatchesOf (i : Nat) (log : List (Event Ctx)) : List (Handler × Ctx) := log.filterMap (Event.of i)

theorem dispatchesOf_append (i : Nat) (log more : List (Event Ctx)) :
    dispatchesOf i (log ++ more) = dispatchesOf i log ++ dispatchesOf i more :=
  List.filterMap_append

variable (affinity : Bool) (count : Nat) (T : Nat → Entry Ctx)

/-- A filled entry with a type that has no handler. -/
def Bad (b : Nat) : Prop := b < count ∧ (T b).filled = true ∧ handlerOf affinity (T b).entryType = none

/-- A filled entry with a handler. -/
def Due (i : Nat) (h : Handler) : Prop :=
  i < count ∧ (T i).filled = true ∧ handlerOf affinity (T i).entryType = some h

/-- Entry `i` of the table with the copies of it and what was dispatched from it: it is as it
was, or it was taken once and its copy is with one worker or was dispatched. It is taken only
when no bad entry stands before it. -/
def EntryOk (i : Nat) (e : Entry Ctx) (held : W → Option (Entry Ctx)) (log : List (Handler × Ctx)) :
    Prop :=
  (e = T i ∧ (∀ w, held w = none) ∧ log = []) ∨
  ∃ h, Due affinity count T i h ∧ (∀ b, b < i → ¬ Bad affinity count T b) ∧
    e = { T i with filled := false } ∧
    ((∃ w, held w = some (T i) ∧ (∀ u, u ≠ w → held u = none) ∧ log = []) ∨
      ((∀ w, held w = none) ∧ log = [(h, (T i).context)]))

def Inv (s : State W Ctx) : Prop :=
  ∀ i, EntryOk affinity count T i (s.table i) (copies s i) (dispatchesOf i s.log)

variable {affinity count T}

theorem EntryOk.of_filled {i : Nat} {e : Entry Ctx} {held : W → Option (Entry Ctx)}
    {log : List (Handler × Ctx)} (ok : EntryOk affinity count T i e held log) (filled : e.filled = true) :
    e = T i ∧ (∀ w, held w = none) ∧ log = [] := by
  rcases ok with untouched | ⟨h, -, -, cleared, -⟩
  · exact untouched
  · simp [cleared] at filled

theorem EntryOk.of_bad {i : Nat} {e : Entry Ctx} {held : W → Option (Entry Ctx)}
    {log : List (Handler × Ctx)} (ok : EntryOk affinity count T i e held log)
    (bad : Bad affinity count T i) : e = T i := by
  rcases ok with untouched | ⟨h, due, -⟩
  · exact untouched.1
  · exact absurd (bad.2.2.symm.trans due.2.2) (by simp)

/-- A worker has a copy of the entry: it is the only one, and nothing was dispatched yet. -/
theorem EntryOk.of_held {i : Nat} {e copy : Entry Ctx} {held : W → Option (Entry Ctx)}
    {log : List (Handler × Ctx)} (ok : EntryOk affinity count T i e held log) {w : W}
    (mine : held w = some copy) :
    ∃ h, Due affinity count T i h ∧ (∀ b, b < i → ¬ Bad affinity count T b) ∧
      e = { T i with filled := false } ∧ copy = T i ∧ (∀ u, u ≠ w → held u = none) ∧ log = [] := by
  rcases ok with ⟨-, nobody, -⟩ | ⟨h, due, first, cleared, ⟨v, his, others, none_⟩ | ⟨nobody, -⟩⟩
  · simp [nobody] at mine
  · have same : v = w := by
      by_contra other
      simp [others w (Ne.symm other)] at mine
    subst same
    exact ⟨h, due, first, cleared, Option.some.inj (mine.symm.trans his), others, none_⟩
  · simp [nobody] at mine

end Entries

/-! ## Runs -/

section Runs

variable {W Ctx : Type*} [DecidableEq W] {affinity : Bool} {count : Nat} {T : Nat → Entry Ctx}
  {s s' : State W Ctx} {w : W}

theorem copies_setWorker (x : Worker Ctx) (i : Nat) :
    copies (s.setWorker w x) i = update (copies s i) w (x.copyOf i) := by
  funext u
  by_cases same : u = w
  · subst same
    simp [copies, State.setWorker]
  · simp [copies, State.setWorker, same]

/-- The worker has no copy of entry `i`, before and after the step. -/
theorem copies_same {x : Worker Ctx} {i : Nat} (before : (s.workers w).copyOf i = none)
    (after : x.copyOf i = none) : copies (s.setWorker w x) i = copies s i := by
  rw [copies_setWorker, after]
  exact update_eq_self_iff.2 before.symm

/-- The two outcomes of the search: it takes the first filled entry, or there is none before
the first one without a handler. -/
theorem getNotifyDataEntry_some {table table' : Nat → Entry Ctx} {m m' : Meta} {i : Nat}
    {copy : Entry Ctx} (got : getNotifyDataEntry affinity count table m = some (i, copy, table', m')) :
    copy = table i ∧ table' = update table i { table i with filled := false } ∧ i < count ∧
      (table i).filled = true ∧ (∃ h, handlerOf affinity (table i).entryType = some h) ∧
      ∀ b, b < i → (table b).filled = false := by
  unfold getNotifyDataEntry at got
  split at got
  · cases got
  · rename_i k first
    rw [List.find?_range_eq_some] at first
    obtain ⟨filled, bound, before⟩ := first
    split at got
    · cases got
    · rename_i h handled
      cases got
      refine ⟨rfl, rfl, List.mem_range.1 bound, filled, ⟨h, handled⟩, ?_⟩
      intro b hb
      simpa using before b hb

theorem getNotifyDataEntry_none {table : Nat → Entry Ctx} {m : Meta}
    (got : getNotifyDataEntry affinity count table m = none) {i : Nat} {h : Handler} (bound : i < count)
    (filled : (table i).filled = true) (handled : handlerOf affinity (table i).entryType = some h) :
    ∃ b, b < i ∧ (table b).filled = true ∧ handlerOf affinity (table b).entryType = none := by
  unfold getNotifyDataEntry at got
  split at got
  · rename_i empty
    rw [List.find?_eq_none] at empty
    exact absurd filled (empty i (List.mem_range.2 bound))
  · rename_i k first
    rw [List.find?_range_eq_some] at first
    obtain ⟨filled', -, before⟩ := first
    split at got
    · rename_i unhandled
      refine ⟨k, ?_, filled', unhandled⟩
      rcases Nat.lt_trichotomy k i with less | rfl | more
      · exact less
      · simp [handled] at unhandled
      · simpa [filled] using before i more
    · cases got

theorem get_inv (inv : Inv affinity count T s) {i : Nat} {copy : Entry Ctx} {table : Nat → Entry Ctx}
    {counters : Meta} (free : s.workers w = .draining)
    (got : getNotifyDataEntry affinity count s.table s.counters = some (i, copy, table, counters)) :
    Inv affinity count T { s.setWorker w (.holding i copy) with table := table, counters := counters } := by
  obtain ⟨rfl, rfl, bound, filled, ⟨h, handled⟩, first⟩ := getNotifyDataEntry_some got
  intro j
  by_cases same : j = i
  · subst same
    obtain ⟨old, nobody, none_⟩ := (inv j).of_filled filled
    refine .inr ⟨h, ⟨bound, old ▸ filled, old ▸ handled⟩, ?_, ?_, .inl ⟨w, ?_, ?_, none_⟩⟩
    · intro b hb bad
      have still := (inv b).of_bad bad
      simpa [still, bad.2.1] using first b hb
    · simp [old]
    · change copies (s.setWorker w _) j w = _
      rw [copies_setWorker, update_self, ← old]
      exact if_pos rfl
    · intro u other
      change copies (s.setWorker w _) j u = _
      rw [copies_setWorker, update_of_ne other]
      exact nobody u
  · have kept : copies (s.setWorker w (.holding i (s.table i))) j = copies s j :=
      copies_same (by rw [free]; rfl) (if_neg (Ne.symm same))
    change EntryOk affinity count T j (update s.table i _ j) (copies (s.setWorker w _) j) _
    rw [kept, update_of_ne same]
    exact inv j

theorem dispatch_inv (inv : Inv affinity count T s) {i : Nat} {copy : Entry Ctx} {h : Handler}
    (mine : s.workers w = .holding i copy) (handled : handlerOf affinity copy.entryType = some h) :
    Inv affinity count T
      { s.setWorker w .draining with log := s.log ++ [.dispatched i h copy.context] } := by
  intro j
  change EntryOk affinity count T j (s.table j) (copies (s.setWorker w .draining) j) _
  simp only [dispatchesOf_append]
  by_cases same : j = i
  · subst same
    have held : copies s j w = some copy := by
      simp [copies, mine, Worker.copyOf]
    obtain ⟨h', due, first, cleared, rfl, others, none_⟩ := (inv j).of_held held
    obtain rfl : h = h' := Option.some.inj (handled.symm.trans due.2.2)
    refine .inr ⟨h, due, first, cleared, .inr ⟨?_, ?_⟩⟩
    · intro u
      rw [copies_setWorker]
      by_cases here : u = w
      · subst here
        exact update_self ..
      · rw [update_of_ne here]
        exact others u here
    · rw [none_]
      simp [dispatchesOf, Event.of]
  · have kept : copies (s.setWorker w .draining) j = copies s j :=
      copies_same (by rw [mine]; exact if_neg (Ne.symm same)) rfl
    rw [kept]
    have quiet : dispatchesOf j [Event.dispatched i h copy.context] = [] := by
      simp [dispatchesOf, Event.of, Ne.symm same]
    rw [quiet, List.append_nil]
    exact inv j

omit [DecidableEq W] in
theorem missedEvents_quiet (i missed : Nat) : dispatchesOf i (missedEvents Ctx missed) = [] := by
  unfold missedEvents
  split <;> split <;> rfl

theorem step_inv {a : Act W} (inv : Inv affinity count T s)
    (moved : step affinity count s a = some s') : Inv affinity count T s' := by
  have idle : ∀ w x, (∀ i, (s.workers w).copyOf i = none) → (∀ i, Worker.copyOf i x = none) →
      Inv affinity count T (s.setWorker w x) := by
    intro w x before after i
    rw [copies_same (before i) (after i)]
    exact inv i
  cases a with
  | start w =>
    simp only [step] at moved
    split at moved
    · rename_i pos
      cases moved
      exact idle w _ (fun i => by rw [pos]; rfl) fun _ => rfl
    · rename_i pos
      cases moved
      exact idle w _ (fun i => by rw [pos]; rfl) fun _ => rfl
    · cases moved
  | get w =>
    simp only [step] at moved
    split at moved
    · rename_i pos
      split at moved
      · cases moved
        exact idle w _ (fun i => by rw [pos]; rfl) fun _ => rfl
      · rename_i got
        cases moved
        exact get_inv inv pos got
    · cases moved
  | dispatch w =>
    simp only [step] at moved
    split at moved
    · rename_i i copy mine
      split at moved
      · rename_i h handled
        cases moved
        exact dispatch_inv inv mine handled
      · rename_i unhandled
        -- a copy was taken because its type has a handler
        have held : copies s i w = some copy := by
          simp [copies, mine, Worker.copyOf]
        obtain ⟨h, due, -, -, rfl, -⟩ := (inv i).of_held held
        exact absurd (unhandled.symm.trans due.2.2) (by simp)
    · cases moved
  | broadcast w =>
    simp only [step] at moved
    split at moved
    · rename_i pos
      cases moved
      intro i
      have entry := idle w .ended (fun i => by rw [pos]; rfl) (fun _ => rfl) i
      change EntryOk affinity count T i (s.table i) (copies (s.setWorker w .ended) i)
        (dispatchesOf i (s.log ++ missedEvents Ctx s.counters.missed))
      rw [dispatchesOf_append, missedEvents_quiet, List.append_nil]
      exact entry
    · cases moved

/-- The drain loop of the worker is over. -/
def Worker.loopOver : Worker Ctx → Prop
  | .drained | .ended => True
  | _ => False

/-- What is still filled and has a handler stands behind a bad entry. -/
def Emptied (affinity : Bool) (count : Nat) (T : Nat → Entry Ctx) (s : State W Ctx) : Prop :=
  ∀ i h, Due affinity count T i h → (s.table i).filled = true →
    ∃ b, b < i ∧ Bad affinity count T b

/-- Filled bits are only cleared. -/
theorem step_filled {a : Act W} (moved : step affinity count s a = some s') {i : Nat}
    (filled : (s'.table i).filled = true) : (s.table i).filled = true := by
  cases a with
  | start w =>
    simp only [step] at moved
    split at moved <;> cases moved <;> exact filled
  | get w =>
    simp only [step] at moved
    split at moved
    · split at moved
      · cases moved
        exact filled
      · rename_i k copy table counters got
        cases moved
        obtain ⟨-, rfl, -⟩ := getNotifyDataEntry_some got
        by_cases same : i = k
        · subst same
          simp at filled
        · simpa [update_of_ne same] using filled
    · cases moved
  | dispatch w =>
    simp only [step] at moved
    split at moved
    · split at moved <;> cases moved <;> exact filled
    · cases moved
  | broadcast w =>
    simp only [step] at moved
    split at moved <;> cases moved
    exact filled

theorem loopOver_setWorker {x : Worker Ctx} (ended : ∃ u, ((s.setWorker w x).workers u).loopOver) :
    x.loopOver ∨ ∃ u, (s.workers u).loopOver := by
  obtain ⟨u, ended⟩ := ended
  by_cases same : u = w
  · subst same
    exact .inl (by simpa [State.setWorker] using ended)
  · exact .inr ⟨u, by simpa [State.setWorker, same] using ended⟩

/-- A loop ends because the search failed, and what was left then stands behind a bad entry. -/
theorem step_emptied {a : Act W} (inv : Inv affinity count T s)
    (emptied : (∃ u, (s.workers u).loopOver) → Emptied affinity count T s)
    (moved : step affinity count s a = some s') (ended : ∃ u, (s'.workers u).loopOver) :
    Emptied affinity count T s' := by
  have before : (∃ u, (s.workers u).loopOver) → Emptied affinity count T s' :=
    fun h i k due filled => emptied h i k due (step_filled moved filled)
  cases a with
  | start w =>
    simp only [step] at moved
    split at moved
    · cases moved
      exact before ((loopOver_setWorker ended).resolve_left id)
    · cases moved
      exact before ((loopOver_setWorker ended).resolve_left id)
    · cases moved
  | get w =>
    simp only [step] at moved
    split at moved
    · split at moved
      · rename_i got
        cases moved
        intro i h due filled
        have same := ((inv i).of_filled filled).1
        obtain ⟨b, less, filled', unhandled⟩ := getNotifyDataEntry_none got due.1 filled
          (same ▸ due.2.2)
        have same' := ((inv b).of_filled filled').1
        exact ⟨b, less, Nat.lt_trans less due.1, same' ▸ filled', same' ▸ unhandled⟩
      · cases moved
        exact before ((loopOver_setWorker ended).resolve_left id)
    · cases moved
  | dispatch w =>
    simp only [step] at moved
    split at moved
    · split at moved <;> cases moved <;> exact before ((loopOver_setWorker ended).resolve_left id)
    · cases moved
  | broadcast w =>
    simp only [step] at moved
    split at moved
    · rename_i pos
      exact before ⟨w, by rw [pos]; trivial⟩
    · cases moved

/-- The drain loops have ended: some worker ran and none is in its loop. -/
structure Finished (s : State W Ctx) : Prop where
  ran : ∃ w, (s.workers w).loopOver
  quiet : ∀ w, s.workers w = .idle ∨ (s.workers w).loopOver

/-- Entry `i` was dispatched once, to the handler `h` and with its context, and is clear. -/
def Dispatched (T : Nat → Entry Ctx) (s : State W Ctx) (i : Nat) (h : Handler) : Prop :=
  dispatchesOf i s.log = [(h, (T i).context)] ∧ (s.table i).filled = false

omit [DecidableEq W] in
theorem Finished.no_copies (done : Finished s) (i : Nat) (w : W) : copies s i w = none := by
  unfold copies
  rcases done.quiet w with pos | ended
  · rw [pos]
    rfl
  · cases pos : s.workers w with
    | holding => simp [pos, Worker.loopOver] at ended
    | idle | draining | drained | ended => rfl

omit [DecidableEq W] in
/-- A filled entry with a handler has been dispatched when the loops have ended, unless a bad
entry stands before it. -/
theorem dispatched_iff (inv : Inv affinity count T s) (emptied : Emptied affinity count T s)
    (done : Finished s) {i : Nat} {h : Handler} (due : Due affinity count T i h) :
    Dispatched T s i h ↔ ∀ b, b < i → ¬ Bad affinity count T b := by
  rcases inv i with ⟨same, -, -⟩ | ⟨h', due', first, cleared, ⟨w, held, -⟩ | ⟨-, logged⟩⟩
  · have filled : (s.table i).filled = true := same ▸ due.2.1
    obtain ⟨b, less, bad⟩ := emptied i h due filled
    refine iff_of_false (fun dispatched => ?_) (fun none_ => none_ b less bad)
    exact absurd dispatched.2 (by simp [filled])
  · simp [done.no_copies i w] at held
  · obtain rfl : h' = h := Option.some.inj (due'.2.2.symm.trans due.2.2)
    exact iff_of_true ⟨logged, by rw [cleared]⟩ first

open ActionSystem in
/-- For every content of the table and every interleaving of the workers: when the loops have
ended, all filled entries with a handler have been dispatched, each once, exactly when none of
them stands behind a filled entry that has no handler. -/
theorem drain_complete_iff (table : Nat → Entry Ctx) (counters : Meta) (s : State W Ctx)
    (run : Reach (step affinity count) (fun _ _ => True) (init table counters) s)
    (done : Finished s) :
    (∀ i h, Due affinity count table i h → Dispatched table s i h) ↔
      ∀ i h, Due affinity count table i h → ∀ b, b < i → ¬ Bad affinity count table b := by
  have both : Inv affinity count table s ∧
      ((∃ w, (s.workers w).loopOver) → Emptied affinity count table s) := by
    refine run.invariant (P := fun s => Inv affinity count table s ∧
      ((∃ w, (s.workers w).loopOver) → Emptied affinity count table s)) ⟨?_, ?_⟩ ?_
    · intro i
      exact .inl ⟨rfl, fun _ => rfl, rfl⟩
    · rintro ⟨w, ended⟩
      exact absurd ended id
    · rintro s a s' ⟨inv, emptied⟩ - moved
      exact ⟨step_inv inv moved, step_emptied inv emptied moved⟩
  have each := fun i h (due : Due affinity count table i h) =>
    dispatched_iff both.1 (both.2 done.ran) done due
  constructor
  · intro all i h due
    exact (each i h due).1 (all i h due)
  · intro clean i h due
    exact (each i h due).2 (clean i h due)

end Runs

/-- A table of four entries, the last ones empty. -/
def tableOf (first second third : Entry Nat) : Nat → Entry Nat
  | 0 => first
  | 1 => second
  | 2 => third
  | _ => ⟨0, false, 0⟩

/-- Two workers take a wake-up and a shadow exit at the same time; an entry without a handler
stands behind them. -/
theorem drain_complete_two_workers :
    ∃ s : State Bool Nat, ActionSystem.Reach (step false 4) (fun _ _ => True)
        (init (tableOf ⟨3, true, 42⟩ ⟨6, true, 43⟩ ⟨9, true, 44⟩) {}) s ∧ Finished s ∧
      ∀ i h, Due false 4 (tableOf ⟨3, true, 42⟩ ⟨6, true, 43⟩ ⟨9, true, 44⟩) i h →
        Dispatched (tableOf ⟨3, true, 42⟩ ⟨6, true, 43⟩ ⟨9, true, 44⟩) s i h := by
  obtain ⟨s, run, test⟩ := ActionSystem.reach_of_play (step false 4) (fun _ _ => True)
    (fun s : State Bool Nat => s.workers true = .drained ∧ s.workers false = .ended)
    (init (tableOf ⟨3, true, 42⟩ ⟨6, true, 43⟩ ⟨9, true, 44⟩) {})
    [.start true, .start false, .get true, .get false, .dispatch false, .get false, .broadcast false,
      .dispatch true, .get true] (by decide +kernel)
  rw [decide_eq_true_iff] at test
  have done : Finished s := by
    refine ⟨⟨true, by rw [test.1]; trivial⟩, ?_⟩
    rintro (_ | _)
    · exact .inr (by rw [test.2]; trivial)
    · exact .inr (by rw [test.1]; trivial)
  refine ⟨s, run, done, (drain_complete_iff _ _ s run done).2 ?_⟩
  rintro i h ⟨bound, filled, handled⟩ b less ⟨-, -, unhandled⟩
  match i, b with
  | 0, _ => omega
  | 1, 0 => simp [tableOf, handlerOf] at unhandled
  | 2, _ => simp [tableOf, handlerOf] at handled
  | 3, _ => simp [tableOf] at filled

/-- A bad entry at index 0: the only worker ends its loop at once and the wake-up at index 1
stays in the table. -/
theorem bad_entry_starves_wakeup :
    ∃ s : State Unit Nat, ActionSystem.Reach (step false 4) (fun _ _ => True)
        (init (tableOf ⟨9, true, 41⟩ ⟨3, true, 42⟩ ⟨0, false, 0⟩) {}) s ∧ Finished s ∧
      Due false 4 (tableOf ⟨9, true, 41⟩ ⟨3, true, 42⟩ ⟨0, false, 0⟩) 1 .wakeup ∧
      (s.table 1).filled = true ∧
      ¬ Dispatched (tableOf ⟨9, true, 41⟩ ⟨3, true, 42⟩ ⟨0, false, 0⟩) s 1 .wakeup := by
  obtain ⟨s, run, test⟩ := ActionSystem.reach_of_play (step false 4) (fun _ _ => True)
    (fun s : State Unit Nat => s.workers () = .ended ∧ (s.table 1).filled = true)
    (init (tableOf ⟨9, true, 41⟩ ⟨3, true, 42⟩ ⟨0, false, 0⟩) {})
    [.start (), .get (), .broadcast ()] (by decide +kernel)
  rw [decide_eq_true_iff] at test
  refine ⟨s, run, ⟨⟨(), by rw [test.1]; trivial⟩, fun _ => .inr (by rw [test.1]; trivial)⟩,
    ⟨by decide, rfl, rfl⟩, test.2, ?_⟩
  intro dispatched
  exact absurd dispatched.2 (by simp [test.2])

end NotifyTable
