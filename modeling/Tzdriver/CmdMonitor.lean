import Mathlib.Data.List.Nodup
import Tzdriver.ActionSystem
import Tzdriver.FirstMatch

/-!
# The command monitor

`core/cmdmonitor.c`. `proc_tc_ns_smc` logs a command before it sends it to the TEE and logs its
end afterwards. A delayed work looks at the list every second, frees the entries whose command
has returned and reports those that take too long. `cmd_monitor_log` and
`cmd_monitor_reset_context` hold the lock throughout and are one step each. The tick holds it over
its scan, where every entry is a step of its own, because `cmd_monitor_logend` writes its entry
without the lock, in two steps.

`item` is the address of an entry, an allocation that is never handed out again. The names of
process and thread are printed only: the white table of thread names is empty.
-/

namespace CmdMonitor

open ActionSystem FirstMatch Function

def cmdMaxExecuteTime : Int := 25
def sToMs : Int := 1000
def sToUs : Int := 1000000
def maxCmdMonitorList : Int := 200

structure TimeSpec where
  sec : Int
  nsec : Int
  deriving DecidableEq, Repr

/-- `current->tgid` and `current->pid`. -/
structure Thread where
  pid : Nat
  tid : Nat
  deriving DecidableEq, Repr

/-- `struct cmd_monitor`. -/
structure Monitor where
  item : Nat
  thread : Thread
  sendtime : TimeSpec
  count : Int32
  returned : Bool
  isReported : Bool
  lastcmdid : UInt32
  timetotal : Int
  agentCallCount : Int32
  deriving DecidableEq, Repr

/-- Where `cmd_monitor_tickfn` is. -/
inductive Tick where
  | idle
  | started
  | scanning (i : Nat)
  | logWrite
  deriving DecidableEq, Repr

/-- The scan is still to come or under way. -/
def Tick.pending : Tick → Bool
  | .started | .scanning _ => true
  | .idle | .logWrite => false

/-- The command of a thread in `proc_tc_ns_smc`, with what `cmd_monitor_log` returned for it. -/
inductive Command where
  | none
  | sent (item : Option Nat)
  | ending (item : Nat)
  deriving DecidableEq, Repr

def Command.item : Command → Option Nat
  | .none => Option.none
  | .sent item => item
  | .ending item => some item

structure State where
  list : List Monitor := []
  size : Int := 0
  queued : Bool := false
  tick : Tick := .idle
  commands : Thread → Command := fun _ => .none
  needArchivelog : Bool := false
  archiveQueued : Bool := false
  nextItem : Nat := 0

inductive Act where
  | log (t : Thread) (cmdId : UInt32) (now : TimeSpec) (kzalloc : Bool)
  | logendTimetotal (t : Thread) (now : TimeSpec)
  | logendReturned (t : Thread)
  | resetContext (t : Thread) (now : TimeSpec)
  | tickStart
  | tickLock
  | tickVisit (now : TimeSpec)
  | tickUnlock
  | tickEnd
  | doCmdNeedArchivelog
  | archivefn
  deriving DecidableEq, Repr

section Model

def Monitor.restart (m : Monitor) (cmdId : UInt32) (now : TimeSpec) : Monitor :=
  { m with
    sendtime := now, count := m.count + 1, returned := false, isReported := false,
    lastcmdid := cmdId, agentCallCount := 0 }

def Monitor.resetContext (m : Monitor) (now : TimeSpec) : Monitor :=
  if m.agentCallCount + 1 < 0 then { m with sendtime := now }
  else { m with sendtime := now, agentCallCount := m.agentCallCount + 1 }

def Monitor.addTimetotal (m : Monitor) (now : TimeSpec) : Monitor :=
  let timedif := sToUs * (now.sec - m.sendtime.sec) + (now.nsec - m.sendtime.nsec).tdiv sToMs
  { m with timetotal := m.timetotal + timedif }

def Monitor.setReturned (m : Monitor) : Monitor := { m with returned := true }

/-- `show_timeout_cmd_info` less its messages; whether it asks for an archive of the log. -/
def Monitor.showTimeoutCmdInfo (m : Monitor) (now : TimeSpec) : Monitor × Bool :=
  let timedif := sToMs * (now.sec - m.sendtime.sec) + (now.nsec - m.sendtime.nsec).tdiv sToUs
  if timedif > cmdMaxExecuteTime * sToMs ∧ m.isReported = false then
    ({ m with isReported := true }, true)
  else (m, false)

def initMonitorLocked (s : State) (t : Thread) (cmdId : UInt32) (now : TimeSpec) : State :=
  { s with
    list := s.list ++ [{
      item := s.nextItem, thread := t, sendtime := now, count := 1, returned := false,
      isReported := false, lastcmdid := cmdId, timetotal := 0, agentCallCount := 0 }]
    size := s.size + 1
    nextItem := s.nextItem + 1 }

/-- `cmd_monitor_log` with the address it returns. -/
def cmdMonitorLog (bigSession : Bool) (s : State) (t : Thread) (cmdId : UInt32) (now : TimeSpec)
    (kzalloc : Bool) : State × Option Nat :=
  match s.list.find? fun m => m.thread = t with
  | some m =>
    ({ s with list := updateFirst (fun m => m.thread = t) (·.restart cmdId now) s.list },
      some m.item)
  | none =>
    if bigSession = false ∧ s.size > maxCmdMonitorList - 1 then (s, none)
    else if kzalloc = false then (s, none)
    else
      let s' := initMonitorLocked s t cmdId now
      -- the first cmd will cause timer
      ({ s' with queued := s.queued || s'.size = 1 }, some s.nextItem)

def writeItem (s : State) (item : Nat) (f : Monitor → Monitor) : List Monitor :=
  updateFirst (fun m => m.item = item) f s.list

/-- One round of the loop of `cmd_monitor_tick`. -/
def tickVisit (s : State) (i : Nat) (m : Monitor) (now : TimeSpec) : State :=
  if m.returned then { s with list := s.list.eraseIdx i, size := s.size - 1 }
  else
    let shown := m.showTimeoutCmdInfo now
    { s with
      list := s.list.set i shown.1, needArchivelog := s.needArchivelog || shown.2
      tick := .scanning (i + 1) }

def locked (s : State) : Bool :=
  match s.tick with
  | .scanning _ => true
  | _ => false

def step (bigSession : Bool) (s : State) : Act → Option State
  | .log t cmdId now kzalloc =>
    if locked s ∨ s.commands t ≠ .none then none
    else
      let (s', item) := cmdMonitorLog bigSession s t cmdId now kzalloc
      some { s' with commands := update s.commands t (.sent item) }
  | .logendTimetotal t now =>
    match s.commands t with
    | .sent none => some { s with commands := update s.commands t .none }
    | .sent (some item) =>
      some { s with
        list := writeItem s item (·.addTimetotal now)
        commands := update s.commands t (.ending item) }
    | _ => none
  | .logendReturned t =>
    match s.commands t with
    | .ending item =>
      some { s with
        list := writeItem s item (·.setReturned)
        commands := update s.commands t .none }
    | _ => none
  | .resetContext t now =>
    if locked s then none
    else some { s with
      list := updateFirst (fun m => m.thread = t) (·.resetContext now) s.list }
  | .tickStart =>
    if s.queued ∧ s.tick = .idle then some { s with queued := false, tick := .started } else none
  | .tickLock => if s.tick = .started then some { s with tick := .scanning 0 } else none
  | .tickVisit now =>
    match s.tick with
    | .scanning i =>
      match s.list[i]? with
      | some m => some (tickVisit s i m now)
      | none => none
    | _ => none
  | .tickUnlock =>
    match s.tick with
    | .scanning i =>
      if s.list[i]? = none then
        -- if have cmd in monitor list, we need tick
        some { s with queued := s.queued || s.size > 0, tick := .logWrite }
      else none
    | _ => none
  | .tickEnd => if s.tick = .logWrite then some { s with tick := .idle } else none
  | .doCmdNeedArchivelog =>
    if s.needArchivelog then some { s with needArchivelog := false, archiveQueued := true }
    else some s
  | .archivefn => if s.archiveQueued then some { s with archiveQueued := false } else none

end Model

section Entries

/-- The list and the counters kept beside it. -/
structure Entries (list : List Monitor) (size : Int) (nextItem : Nat) : Prop where
  size_eq : size = list.length
  threads : (list.map (·.thread)).Nodup
  items : (list.map (·.item)).Nodup
  fresh : ∀ item ∈ list.map (·.item), item < nextItem

/-- What `cmd_monitor_log` returned is an entry of the thread until the end is logged. -/
def Held (list : List Monitor) (commands : Thread → Command) : Prop :=
  ∀ t item, (commands t).item = some item →
    ∃ m ∈ list, m.item = item ∧ m.thread = t ∧ m.returned = false

variable {list list' : List Monitor} {size : Int} {nextItem i : Nat} {m : Monitor}
variable {commands commands' : Thread → Command} {t : Thread} {f : Monitor → Monitor}

theorem Entries.rewrite (entries : Entries list size nextItem)
    (threads : list'.map (·.thread) = list.map (·.thread))
    (items : list'.map (·.item) = list.map (·.item)) : Entries list' size nextItem := by
  have length : list'.length = list.length := by simpa using congrArg List.length items
  exact {
    size_eq := by rw [length]; exact entries.size_eq
    threads := by rw [threads]; exact entries.threads
    items := by rw [items]; exact entries.items
    fresh := by rw [items]; exact entries.fresh }

theorem Entries.updateFirst {p : Monitor → Bool} (entries : Entries list size nextItem)
    (thread : ∀ m, (f m).thread = m.thread) (item : ∀ m, (f m).item = m.item) :
    Entries (updateFirst p f list) size nextItem :=
  entries.rewrite (map_updateFirst thread) (map_updateFirst item)

theorem Entries.init (entries : Entries list size nextItem)
    (absent : ∀ m ∈ list, m.thread ≠ t) (thread : m.thread = t) (item : m.item = nextItem) :
    Entries (list ++ [m]) (size + 1) (nextItem + 1) := by
  refine ⟨?_, ?_, ?_, ?_⟩
  · have := entries.size_eq
    simp only [List.length_append, List.length_singleton]
    omega
  · rw [List.map_append, List.nodup_append']
    refine ⟨entries.threads, List.nodup_singleton _, ?_⟩
    simpa [thread] using absent
  · rw [List.map_append, List.nodup_append']
    refine ⟨entries.items, List.nodup_singleton _, ?_⟩
    have unused : nextItem ∉ list.map (·.item) := by
      intro used
      exact Nat.lt_irrefl _ (entries.fresh _ used)
    simpa [item] using unused
  · intro old used
    rw [List.map_append, List.mem_append] at used
    rcases used with used | used
    · have := entries.fresh old used
      omega
    · have : old = nextItem := by simpa [item] using used
      omega

theorem Entries.eraseIdx (entries : Entries list size nextItem) (here : list[i]? = some m) :
    Entries (list.eraseIdx i) (size - 1) nextItem := by
  have inside : i < list.length := (List.getElem?_eq_some_iff.mp here).1
  have shorter : (list.eraseIdx i).Sublist list := List.eraseIdx_sublist list i
  refine ⟨?_, ?_, ?_, ?_⟩
  · have := entries.size_eq
    rw [List.length_eraseIdx_of_lt inside]
    omega
  · exact entries.threads.sublist (shorter.map _)
  · exact entries.items.sublist (shorter.map _)
  · intro item used
    exact entries.fresh item ((shorter.map _).subset used)

theorem map_set_same {β : Type*} {g : Monitor → β} {m' : Monitor} (here : list[i]? = some m)
    (same : g m' = g m) : (list.set i m').map g = list.map g := by
  obtain ⟨inside, rfl⟩ := List.getElem?_eq_some_iff.mp here
  have inside' : i < (list.map g).length := by simpa using inside
  have value : g list[i] = (list.map g)[i] := (List.getElem_map g).symm
  rw [List.map_set, same, value, List.set_getElem_self]

theorem Entries.set {m' : Monitor} (entries : Entries list size nextItem)
    (here : list[i]? = some m) (thread : m'.thread = m.thread) (item : m'.item = m.item) :
    Entries (list.set i m') size nextItem :=
  entries.rewrite (map_set_same here thread) (map_set_same here item)

theorem Entries.eq_of_item (entries : Entries list size nextItem) {m' : Monitor}
    (mem : m ∈ list) (mem' : m' ∈ list) (same : m.item = m'.item) : m = m' :=
  List.inj_on_of_nodup_map entries.items mem mem' same

/-- The commands may go on with the entry they have, or give it up. -/
theorem Held.weaken (held : Held list commands)
    (kept : ∀ u item, (commands' u).item = some item → (commands u).item = some item) :
    Held list commands' := by
  intro u item has
  exact held u item (kept u item has)

/-- A write to the entries of one kind keeps what the commands hold. -/
theorem Held.updateFirst {p : Monitor → Bool} (held : Held list commands)
    (thread : ∀ m, (f m).thread = m.thread) (item : ∀ m, (f m).item = m.item)
    (returned : ∀ m ∈ list, p m = true → (commands m.thread).item = some m.item →
      m.returned = false → (f m).returned = false) :
    Held (updateFirst p f list) commands := by
  intro t item' has
  obtain ⟨m, mem, rfl, rfl, running⟩ := held t item' has
  rcases mem_or_mem_updateFirst (p := p) (f := f) mem with same | ⟨hit, changed⟩
  · exact ⟨m, same, rfl, rfl, running⟩
  · exact ⟨f m, changed, item m, thread m, returned m mem hit has running⟩

theorem Held.take (held : Held list commands) (mem : m ∈ list) (mine : m.thread = t)
    (running : m.returned = false) :
    Held list (update commands t (.sent (some m.item))) := by
  intro u item has
  by_cases other : u = t
  · subst other
    rw [update_self] at has
    exact ⟨m, mem, Option.some.inj has, mine, running⟩
  · rw [update_of_ne other] at has
    exact held u item has

theorem Held.append (held : Held list commands) : Held (list ++ [m]) commands := by
  intro t item has
  obtain ⟨m', mem, facts⟩ := held t item has
  exact ⟨m', List.mem_append_left _ mem, facts⟩

/-- The tick frees what has returned, which nobody holds. -/
theorem Held.eraseIdx (held : Held list commands) (here : list[i]? = some m)
    (returned : m.returned = true) : Held (list.eraseIdx i) commands := by
  intro t item has
  obtain ⟨m', mem, item_eq, thread_eq, running⟩ := held t item has
  obtain ⟨j, there⟩ := List.mem_iff_getElem?.mp mem
  have other : j ≠ i := by
    rintro rfl
    obtain rfl : m = m' := Option.some.inj (here.symm.trans there)
    rw [returned] at running
    cases running
  exact ⟨m', List.mem_eraseIdx_iff_getElem?.mpr ⟨j, other, there⟩, item_eq, thread_eq, running⟩

theorem Held.set {m' : Monitor} (held : Held list commands) (here : list[i]? = some m)
    (thread : m'.thread = m.thread) (item : m'.item = m.item)
    (returned : m'.returned = m.returned) : Held (list.set i m') commands := by
  intro t item' has
  obtain ⟨m₁, mem, item_eq, thread_eq, running⟩ := held t item' has
  obtain ⟨j, there⟩ := List.mem_iff_getElem?.mp mem
  have inside : j < list.length := (List.getElem?_eq_some_iff.mp there).1
  by_cases same : j = i
  · subst same
    obtain rfl : m = m₁ := Option.some.inj (here.symm.trans there)
    exact ⟨m', List.mem_set inside m', by rw [item, item_eq], by rw [thread, thread_eq],
      by rw [returned, running]⟩
  · have stays : (list.set i m')[j]? = some m₁ := by
      rw [List.getElem?_set_ne (Ne.symm same)]
      exact there
    exact ⟨m₁, List.mem_of_getElem? stays, item_eq, thread_eq, running⟩

end Entries

section Writes

variable (m : Monitor) (now : TimeSpec)

@[simp] theorem resetContext_thread : (m.resetContext now).thread = m.thread := by
  unfold Monitor.resetContext
  split <;> rfl

@[simp] theorem resetContext_item : (m.resetContext now).item = m.item := by
  unfold Monitor.resetContext
  split <;> rfl

@[simp] theorem resetContext_returned : (m.resetContext now).returned = m.returned := by
  unfold Monitor.resetContext
  split <;> rfl

@[simp] theorem showTimeoutCmdInfo_thread :
    (m.showTimeoutCmdInfo now).1.thread = m.thread := by
  simp only [Monitor.showTimeoutCmdInfo]
  split <;> rfl

@[simp] theorem showTimeoutCmdInfo_item : (m.showTimeoutCmdInfo now).1.item = m.item := by
  simp only [Monitor.showTimeoutCmdInfo]
  split <;> rfl

@[simp] theorem showTimeoutCmdInfo_returned :
    (m.showTimeoutCmdInfo now).1.returned = m.returned := by
  simp only [Monitor.showTimeoutCmdInfo]
  split <;> rfl

end Writes

section Invariant

structure Inv (s : State) : Prop where
  entries : Entries s.list s.size s.nextItem
  held : Held s.list s.commands
  armed : s.list ≠ [] → s.queued = true ∨ s.tick.pending = true

variable {bigSession : Bool} {s s' : State}

theorem init_inv : Inv {} where
  entries := ⟨rfl, List.nodup_nil, List.nodup_nil, nofun⟩
  held := nofun
  armed := fun nonempty => absurd rfl nonempty

/-- A thread goes on with the entry it has, or without one. -/
theorem Inv.goOn {t : Thread} {command : Command} (inv : Inv s)
    (kept : ∀ item, command.item = some item → (s.commands t).item = some item) :
    Inv { s with commands := update s.commands t command } where
  entries := inv.entries
  held := by
    refine inv.held.weaken ?_
    intro u item has
    change (update s.commands t command u).item = some item at has
    by_cases mine : u = t
    · subst mine
      rw [update_self] at has
      exact kept item has
    · rwa [update_of_ne mine] at has
  armed := inv.armed

/-- A write that leaves the thread, the address and `returned` of all entries alone. -/
theorem Inv.write {p : Monitor → Bool} {f : Monitor → Monitor} (inv : Inv s)
    (thread : ∀ m, (f m).thread = m.thread) (item : ∀ m, (f m).item = m.item)
    (returned : ∀ m ∈ s.list, p m = true → (s.commands m.thread).item = some m.item →
      m.returned = false → (f m).returned = false) :
    Inv { s with list := updateFirst p f s.list } where
  entries := inv.entries.updateFirst thread item
  held := inv.held.updateFirst thread item returned
  armed := by
    intro nonempty
    refine inv.armed ?_
    intro empty
    exact nonempty (by simp only [empty]; rfl)

theorem Inv.log {t : Thread} {cmdId : UInt32} {now : TimeSpec} {kzalloc : Bool} (inv : Inv s)
    (logged : cmdMonitorLog bigSession s t cmdId now kzalloc = (s', item)) :
    Inv { s' with commands := update s.commands t (.sent item) } := by
  unfold cmdMonitorLog at logged
  split at logged
  · rename_i m found
    obtain ⟨rfl, rfl⟩ := Prod.mk.inj logged
    have mine : m.thread = t := by simpa using List.find?_some found
    have written : Inv { s with
        list := updateFirst (fun m => m.thread = t) (·.restart cmdId now) s.list } :=
      inv.write (fun _ => rfl) (fun _ => rfl) (fun _ _ _ _ _ => rfl)
    have restarted : m.restart cmdId now ∈
        updateFirst (fun m => m.thread = t) (·.restart cmdId now) s.list :=
      mem_updateFirst_of_find found
    have taken := written.held.take restarted mine rfl
    exact ⟨written.entries, taken, written.armed⟩
  · rename_i missed
    have absent : ∀ m ∈ s.list, m.thread ≠ t := by simpa using missed
    split at logged
    · obtain ⟨rfl, rfl⟩ := Prod.mk.inj logged
      exact inv.goOn nofun
    · split at logged
      · obtain ⟨rfl, rfl⟩ := Prod.mk.inj logged
        exact inv.goOn nofun
      · obtain ⟨rfl, rfl⟩ := Prod.mk.inj logged
        refine ⟨inv.entries.init absent rfl rfl, ?_, ?_⟩
        · exact inv.held.append.take (List.mem_append_right _ (List.mem_singleton_self _)) rfl rfl
        · intro _
          have size := inv.entries.size_eq
          by_cases first : s.list = []
          · refine Or.inl ?_
            have one : s.size + 1 = 1 := by simp [size, first]
            simp [initMonitorLocked, one]
          · rcases inv.armed first with queued | pending
            · exact Or.inl (by simp [queued])
            · exact Or.inr pending

theorem Inv.logendTimetotal {t : Thread} {item : Nat} {now : TimeSpec} (inv : Inv s)
    (sent : s.commands t = .sent (some item)) :
    Inv { s with
      list := writeItem s item (·.addTimetotal now)
      commands := update s.commands t (.ending item) } := by
  have written : Inv { s with list := writeItem s item (·.addTimetotal now) } :=
    inv.write (fun _ => rfl) (fun _ => rfl) (fun _ _ _ _ running => running)
  refine written.goOn ?_
  intro item' same
  rw [sent]
  exact same

/-- The thread has given up the entry when the write of `returned` has landed. -/
theorem Inv.logendReturned {t : Thread} {item : Nat} (inv : Inv s)
    (ending : s.commands t = .ending item) :
    Inv { s with
      list := writeItem s item (·.setReturned)
      commands := update s.commands t .none } := by
  have gone : Inv { s with commands := update s.commands t .none } := inv.goOn nofun
  refine gone.write (fun _ => rfl) (fun _ => rfl) ?_
  intro m mem hit has _
  obtain ⟨own, own_mem, own_item, own_thread, _⟩ := inv.held t item (by rw [ending]; rfl)
  have same : m = own := by
    refine inv.entries.eq_of_item mem own_mem ?_
    rw [own_item]
    simpa using hit
  rw [same, own_thread] at has
  simp [Command.item] at has

theorem Inv.tickVisit {i : Nat} {m : Monitor} {now : TimeSpec} (inv : Inv s)
    (scanning : s.tick = .scanning i) (here : s.list[i]? = some m) :
    Inv (tickVisit s i m now) := by
  unfold CmdMonitor.tickVisit
  split
  · rename_i returned
    refine ⟨inv.entries.eraseIdx here, inv.held.eraseIdx here returned, ?_⟩
    intro _
    exact Or.inr (by rw [scanning]; rfl)
  · refine ⟨inv.entries.set here (by simp) (by simp), inv.held.set here (by simp) (by simp)
      (by simp), ?_⟩
    intro _
    exact Or.inr rfl

theorem Inv.tickUnlock (inv : Inv s) :
    Inv { s with queued := s.queued || s.size > 0, tick := .logWrite } := by
  refine ⟨inv.entries, inv.held, ?_⟩
  intro nonempty
  have positive : 0 < s.list.length := List.length_pos_iff.mpr nonempty
  have size : s.size > 0 := by
    rw [inv.entries.size_eq]
    omega
  exact Or.inl (by simp [size])

theorem step_inv {a : Act} (inv : Inv s) (moved : step bigSession s a = some s') : Inv s' := by
  cases a with
  | log t cmdId now kzalloc =>
    simp only [step] at moved
    split at moved
    · cases moved
    · cases moved
      exact inv.log rfl
  | logendTimetotal t now =>
    simp only [step] at moved
    split at moved
    · cases moved
      exact inv.goOn nofun
    · rename_i item sent
      cases moved
      exact inv.logendTimetotal sent
    · cases moved
  | logendReturned t =>
    simp only [step] at moved
    split at moved
    · rename_i item ending
      cases moved
      exact inv.logendReturned ending
    · cases moved
  | resetContext t now =>
    simp only [step] at moved
    split at moved
    · cases moved
    · cases moved
      exact inv.write (by simp) (by simp) (by simp)
  | tickStart =>
    simp only [step] at moved
    split at moved
    · cases moved
      exact ⟨inv.entries, inv.held, fun _ => Or.inr rfl⟩
    · cases moved
  | tickLock =>
    simp only [step] at moved
    split at moved
    · cases moved
      exact ⟨inv.entries, inv.held, fun _ => Or.inr rfl⟩
    · cases moved
  | tickVisit now =>
    simp only [step] at moved
    split at moved
    · rename_i i scanning
      split at moved
      · rename_i m here
        cases moved
        exact inv.tickVisit scanning here
      · cases moved
    · cases moved
  | tickUnlock =>
    simp only [step] at moved
    split at moved
    · split at moved
      · cases moved
        exact inv.tickUnlock
      · cases moved
    · cases moved
  | tickEnd =>
    simp only [step] at moved
    split at moved
    · rename_i written
      cases moved
      refine ⟨inv.entries, inv.held, ?_⟩
      intro nonempty
      have armed := inv.armed nonempty
      rw [written] at armed
      exact armed
    · cases moved
  | doCmdNeedArchivelog =>
    simp only [step] at moved
    split at moved
    · cases moved
      exact ⟨inv.entries, inv.held, inv.armed⟩
    · cases moved
      exact inv
  | archivefn =>
    simp only [step] at moved
    split at moved
    · cases moved
      exact ⟨inv.entries, inv.held, inv.armed⟩
    · cases moved

/-- Any number of threads, any order of the steps. -/
abbrev Run (bigSession : Bool) : State → Prop := Reach (step bigSession) (fun _ _ => True) {}

theorem run_inv (run : Run bigSession s) : Inv s := by
  refine run.invariant init_inv ?_
  intro s a s' inv _ moved
  exact step_inv inv moved

end Invariant

section Monitored

variable {bigSession : Bool} {s : State}

/-- `cmd_monitor_log` gives no entry to a thread that has none on a full list, or when the
allocation fails. -/
theorem cmdMonitorLog_none {t : Thread} {cmdId : UInt32} {now : TimeSpec} {kzalloc : Bool} :
    (cmdMonitorLog bigSession s t cmdId now kzalloc).2 = none ↔
      (∀ m ∈ s.list, m.thread ≠ t) ∧
        (bigSession = false ∧ s.size > maxCmdMonitorList - 1 ∨ kzalloc = false) := by
  unfold cmdMonitorLog
  split
  · rename_i m found
    refine iff_of_false nofun ?_
    rintro ⟨absent, _⟩
    exact absent m (List.mem_of_find?_eq_some found) (by simpa using List.find?_some found)
  · rename_i missed
    have absent : ∀ m ∈ s.list, m.thread ≠ t := by simpa using missed
    split
    · rename_i full
      exact iff_of_true rfl ⟨absent, Or.inl full⟩
    · rename_i room
      split
      · rename_i failed
        exact iff_of_true rfl ⟨absent, Or.inr failed⟩
      · rename_i allocated
        refine iff_of_false nofun ?_
        rintro ⟨_, full | failed⟩
        · exact room full
        · exact allocated failed

/-- A command is without an entry only since `cmd_monitor_log` gave it none. -/
theorem step_sent_none {s' : State} {a : Act} {t : Thread}
    (moved : step bigSession s a = some s') (unwatched : s'.commands t = .sent none) :
    s.commands t = .sent none ∨ ∃ cmdId now kzalloc, a = .log t cmdId now kzalloc ∧
      (cmdMonitorLog bigSession s t cmdId now kzalloc).2 = none := by
  have other : ∀ (u : Thread) (command : Command), command ≠ .sent none →
      update s.commands u command t = .sent none → s.commands t = .sent none := by
    intro u command entry now
    by_cases mine : t = u
    · rw [mine, update_self] at now
      exact absurd now entry
    · rwa [update_of_ne mine] at now
  cases a with
  | log u cmdId now kzalloc =>
    simp only [step] at moved
    split at moved
    · cases moved
    · cases moved
      by_cases mine : t = u
      · subst mine
        refine Or.inr ⟨cmdId, now, kzalloc, rfl, ?_⟩
        simpa using unwatched
      · refine Or.inl ?_
        change update s.commands u _ t = _ at unwatched
        rwa [update_of_ne mine] at unwatched
  | logendTimetotal u now =>
    simp only [step] at moved
    split at moved
    · cases moved
      exact Or.inl (other u .none nofun unwatched)
    · rename_i item _
      cases moved
      exact Or.inl (other u (.ending item) nofun unwatched)
    · cases moved
  | logendReturned u =>
    simp only [step] at moved
    split at moved
    · cases moved
      exact Or.inl (other u .none nofun unwatched)
    · cases moved
  | _ =>
    have same : s'.commands = s.commands := by
      simp only [step] at moved
      grind [CmdMonitor.tickVisit]
    exact Or.inl (by rw [← same]; exact unwatched)

/-- What holds between any two steps of the threads and the tick. -/
structure Monitored (bigSession : Bool) (s : State) : Prop where
  size : s.size = s.list.length
  threads : (s.list.map fun m => (m.thread.pid, m.thread.tid)).Nodup
  /-- No entry is freed before the end of its command is logged. -/
  alive : ∀ t item, (s.commands t).item = some item →
    ∃ m ∈ s.list, m.item = item ∧ m.thread = t ∧ m.returned = false
  armed : s.list ≠ [] → s.queued = true ∨ s.tick.pending = true
  watched : ∀ t item, (s.commands t).item = some item →
    s.queued = true ∨ s.tick.pending = true
  unwatched : ∀ a s' t, step bigSession s a = some s' → s'.commands t = .sent none →
    s.commands t = .sent none ∨ ∃ cmdId now kzalloc, a = .log t cmdId now kzalloc ∧
      (∀ m ∈ s.list, m.thread ≠ t) ∧
      (bigSession = false ∧ s.size > maxCmdMonitorList - 1 ∨ kzalloc = false)

theorem run_monitored (run : Run bigSession s) : Monitored bigSession s := by
  have inv : Inv s := run_inv run
  have pairs : (s.list.map fun m => (m.thread.pid, m.thread.tid)) =
      (s.list.map (·.thread)).map fun t => (t.pid, t.tid) := by
    rw [List.map_map]
    rfl
  refine ⟨inv.entries.size_eq, ?_, inv.held, inv.armed, ?_, ?_⟩
  · rw [pairs]
    refine inv.entries.threads.map ?_
    intro t u same
    obtain ⟨pid, tid⟩ := Prod.mk.inj same
    cases t
    cases u
    simp_all
  · intro t item has
    obtain ⟨m, mem, _⟩ := inv.held t item has
    exact inv.armed (List.ne_nil_of_mem mem)
  · intro a s' t moved unwatched
    rcases step_sent_none moved unwatched with before | ⟨cmdId, now, kzalloc, rfl, refused⟩
    · exact Or.inl before
    · exact Or.inr ⟨cmdId, now, kzalloc, rfl, cmdMonitorLog_none.mp refused⟩

/-- One thread reuses its entry, the other one's is freed by a scan that its end overtakes. -/
theorem run_monitored_reuse : ∃ s, Run false s ∧
    s.list.map (fun m => (m.item, m.count, m.isReported)) = [(0, 2, true)] ∧
    (s.commands ⟨1, 1⟩).item = some 0 ∧ Monitored false s := by
  obtain ⟨s, run, last⟩ := reach_of_play (step false) (fun _ _ => True)
    (fun s => s.list.map (fun m => (m.item, m.count, m.isReported)) = [(0, 2, true)] ∧
      (s.commands ⟨1, 1⟩).item = some 0) {}
    [.log ⟨1, 1⟩ 7 ⟨0, 0⟩ true, .log ⟨1, 2⟩ 8 ⟨1, 0⟩ true, .logendTimetotal ⟨1, 1⟩ ⟨2, 0⟩,
      .logendReturned ⟨1, 1⟩, .log ⟨1, 1⟩ 9 ⟨3, 0⟩ true, .tickStart, .tickLock,
      .logendTimetotal ⟨1, 2⟩ ⟨29, 0⟩, .tickVisit ⟨29, 0⟩, .logendReturned ⟨1, 2⟩,
      .tickVisit ⟨29, 0⟩] (by decide +kernel)
  obtain ⟨entries, holds⟩ := of_decide_eq_true last
  exact ⟨s, run, entries, holds, run_monitored run⟩

theorem step_log {t : Thread} {cmdId : UInt32} {now : TimeSpec} {kzalloc : Bool} {s' : State}
    {item : Option Nat} (free : s.tick = .idle) (silent : s.commands t = .none)
    (logged : cmdMonitorLog bigSession s t cmdId now kzalloc = (s', item)) :
    step bigSession s (.log t cmdId now kzalloc) =
      some { s' with commands := update s.commands t (.sent item) } := by
  simp [step, locked, free, silent, logged]

theorem find_none_of_tid_lt {n : Nat} (older : ∀ m ∈ s.list, m.thread.tid < n) :
    (s.list.find? fun m => m.thread = ⟨1, n⟩) = none := by
  rw [List.find?_eq_none]
  intro m mem
  have := older m mem
  grind

/-- Threads that log one command each. -/
theorem crowd_run (n : Nat) (room : n ≤ 200) : ∃ s, Run false s ∧ s.size = n ∧ s.tick = .idle ∧
    (∀ m ∈ s.list, m.thread.tid < n) ∧ ∀ tid, n ≤ tid → s.commands ⟨1, tid⟩ = .none := by
  induction n with
  | zero => exact ⟨{}, .refl, rfl, rfl, nofun, fun _ _ => rfl⟩
  | succ n ih =>
    obtain ⟨s, run, size, idle, older, silent⟩ := ih (by omega)
    have notFull : ¬ s.size > maxCmdMonitorList - 1 := by
      rw [size, maxCmdMonitorList]
      omega
    have logged : cmdMonitorLog false s ⟨1, n⟩ 0 ⟨0, 0⟩ true =
        ({ initMonitorLocked s ⟨1, n⟩ 0 ⟨0, 0⟩ with queued := s.queued || s.size + 1 = 1 },
          some s.nextItem) := by
      simp only [cmdMonitorLog, find_none_of_tid_lt older, notFull, and_false, if_false]
      rfl
    have moved := step_log idle (silent n (Nat.le_refl n)) logged
    refine ⟨_, run.tail ⟨_, trivial, moved⟩, ?_, idle, ?_, ?_⟩
    · change s.size + 1 = _
      omega
    · intro m mem
      rcases List.mem_append.mp mem with old | new
      · have := older m old
        omega
      · rw [List.mem_singleton.mp new]
        exact Nat.lt_succ_self n
    · intro tid later
      have other : (⟨1, tid⟩ : Thread) ≠ ⟨1, n⟩ := by grind
      change update s.commands _ _ _ = _
      rw [update_of_ne other]
      exact silent tid (by omega)

/-- The command of the 201st thread is sent without an entry. -/
theorem crowd_unmonitored : ¬ ∀ s, Run false s →
    ∀ t, s.commands t ≠ .none → ∃ m ∈ s.list, m.thread = t := by
  intro all
  obtain ⟨s, run, size, idle, older, silent⟩ := crowd_run 200 (Nat.le_refl 200)
  have full : s.size > maxCmdMonitorList - 1 := by
    rw [size, maxCmdMonitorList]
    omega
  have logged : cmdMonitorLog false s ⟨1, 200⟩ 0 ⟨0, 0⟩ true = (s, none) := by
    simp [cmdMonitorLog, find_none_of_tid_lt older, full]
  have moved := step_log idle (silent 200 (Nat.le_refl 200)) logged
  obtain ⟨m, mem, mine⟩ := all _ (run.tail ⟨_, trivial, moved⟩) ⟨1, 200⟩ (by simp)
  have earlier : m.thread.tid < 200 := older m mem
  rw [mine] at earlier
  exact Nat.lt_irrefl 200 earlier

end Monitored

end CmdMonitor
