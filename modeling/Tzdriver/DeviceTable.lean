import Tzdriver.DeviceCalls
import Tzdriver.FirstMatch

/-!
# The list of device files

`core/tc_client_driver.c` names each open file by a number. `tc_ns_client_open` puts the record on
`g_tc_ns_dev_list` before the record has its number from `g_device_file_cnt`, under two locks, and
hands it to the caller last. A command carries the number of its file, and every
`tc_find_session_by_uuid` goes back from the number to a record without taking a reference to it.

`del_dev_node` and the free of the record are one step, since between the two no lookup finds
the record either.
-/

namespace DeviceTable

open Function ActionSystem DeviceClose
open SessionManager (Heap ServicePtr SessionPtr)

variable {Dev Uuid Tid : Type*}

section Model

/-- What `tc_ns_client_open` does next. -/
inductive Opening where
  | listAdd
  | number
  | finish
  deriving DecidableEq, Repr

structure Sys (Dev Uuid Tid : Type*) where
  files : DeviceClose.Sys Dev Uuid Tid
  devFileList : List Dev
  devFileId : Dev → UInt32
  deviceFileCnt : UInt32
  opening : Dev → Option Opening

def Sys.init : Sys Dev Uuid Tid where
  files := DeviceClose.Sys.init
  devFileList := []
  devFileId := fun _ => 0
  deviceFileCnt := 1
  opening := fun _ => none

def Sys.heap (s : Sys Dev Uuid Tid) : Heap Dev Uuid Tid := s.files.tables.heap

inductive Act (Dev Uuid Tid : Type*) where
  | kzalloc (d : Dev)
  | listAdd (d : Dev)
  | number (d : Dev)
  | finish (d : Dev)
  | file (a : DeviceClose.Act Dev Uuid Tid)
  deriving DecidableEq, Repr

variable [DecidableEq Dev] [DecidableEq Uuid] [DecidableEq Tid]

/-- The steps of `tc_ns_client_open`, and those of the open files; `free_dev` and
`teec_daemon_close` take the record off the list. -/
def step (s : Sys Dev Uuid Tid) : Act Dev Uuid Tid → Option (Sys Dev Uuid Tid)
  | .kzalloc d =>
    if s.heap.calls d = none ∧ s.opening d = none then
      some { s with
        devFileId := update s.devFileId d 0
        opening := update s.opening d (some .listAdd) }
    else none
  | .listAdd d =>
    if s.opening d = some .listAdd then
      some { s with
        devFileList := s.devFileList ++ [d]
        opening := update s.opening d (some .number) }
    else none
  | .number d =>
    if s.opening d = some .number then
      some { s with
        devFileId := update s.devFileId d s.deviceFileCnt
        deviceFileCnt := s.deviceFileCnt + 1
        opening := update s.opening d (some .finish) }
    else none
  | .finish d =>
    if s.opening d = some .finish then
      (DeviceClose.step s.files (.table (.openDev d))).map fun files =>
        { s with files := files, opening := update s.opening d none }
    else none
  | .file (.table (.openDev _)) => none
  | .file a =>
    (DeviceClose.step s.files a).map fun files =>
      { s with
        files := files
        devFileList := match frees s.files a with
          | some d => s.devFileList.erase d
          | none => s.devFileList }

omit [DecidableEq Dev] [DecidableEq Uuid] [DecidableEq Tid] in
/-- `tc_find_dev_file`. -/
def tcFindDevFile (s : Sys Dev Uuid Tid) (devFileId : UInt32) : Option Dev :=
  s.devFileList.find? fun d => s.devFileId d = devFileId

omit [DecidableEq Tid] in
/-- The session of the file `d` with this uuid and this id. -/
def sessionOf (m : Heap Dev Uuid Tid) (d : Dev) (uuid : Uuid) (contextId : Nat) :
    Option SessionPtr :=
  ((m.findUuid d uuid).bind (m.services d)).bind fun v => m.tcFindSessionWithowner v contextId d

omit [DecidableEq Tid] in
/-- `tc_find_session_by_uuid`; the references it takes are those of `Pc.sendFind`. -/
def tcFindSessionByUuid (s : Sys Dev Uuid Tid) (devFileId : UInt32) (uuid : Uuid)
    (contextId : Nat) : Option SessionPtr :=
  (tcFindDevFile s devFileId).bind fun d => sessionOf s.heap d uuid contextId

omit [DecidableEq Dev] [DecidableEq Uuid] [DecidableEq Tid] in
/-- The counter of the files has not come round to 0 when a file takes its number. -/
def Unwrapped (s : Sys Dev Uuid Tid) : Act Dev Uuid Tid → Prop
  | .number _ => s.deviceFileCnt ≠ 0
  | _ => True

omit [DecidableEq Dev] [DecidableEq Uuid] [DecidableEq Tid] in
instance (s : Sys Dev Uuid Tid) (a : Act Dev Uuid Tid) : Decidable (Unwrapped s a) :=
  match a with
  | .number _ => inferInstanceAs (Decidable (_ ≠ _))
  | .kzalloc _ | .listAdd _ | .finish _ | .file _ => inferInstanceAs (Decidable True)

omit [DecidableEq Dev] [DecidableEq Uuid] [DecidableEq Tid] in
/-- The thread is in a call on the file. -/
def InCall (s : Sys Dev Uuid Tid) (t : Tid) (d : Dev) : Prop := callDev s.files.tables t = some d

omit [DecidableEq Uuid] [DecidableEq Tid] in
instance (s : Sys Dev Uuid Tid) (t : Tid) (d : Dev) : Decidable (InCall s t d) :=
  inferInstanceAs (Decidable (_ = _))

end Model

section Numbers

/-- The numbers given out so far are those below the counter, until it comes round to 0. -/
def Given (cnt id : UInt32) : Prop := id ≠ 0 ∧ (cnt = 0 ∨ id < cnt)

theorem lt_next {cnt : UInt32} (round : cnt + 1 ≠ 0) : cnt < cnt + 1 := by
  have bound := cnt.toNat_lt
  rw [ne_eq, ← UInt32.toNat_inj, UInt32.toNat_add] at round
  rw [UInt32.lt_iff_toNat_lt, UInt32.toNat_add]
  simp only [UInt32.reduceToNat] at round ⊢
  omega

theorem given_next {cnt id : UInt32} (given : Given cnt id) (left : cnt ≠ 0) :
    Given (cnt + 1) id := by
  refine ⟨given.1, or_iff_not_imp_left.2 fun round => ?_⟩
  exact UInt32.lt_trans (given.2.resolve_left left) (lt_next round)

theorem given_self {cnt : UInt32} (left : cnt ≠ 0) : Given (cnt + 1) cnt :=
  ⟨left, or_iff_not_imp_left.2 lt_next⟩

theorem given_ne {cnt id : UInt32} (given : Given cnt id) (left : cnt ≠ 0) : id ≠ cnt :=
  UInt32.ne_of_lt (given.2.resolve_left left)

end Numbers

section Invariant

/-- The record is on the list and has its number. -/
def Numbered (s : Sys Dev Uuid Tid) (d : Dev) : Prop :=
  d ∈ s.devFileList ∧ s.opening d ≠ some .number

structure Table (s : Sys Dev Uuid Tid) : Prop where
  booked : Booked s.files.tables
  unique : s.devFileList.Nodup
  opening : ∀ d o, s.opening d = some o → s.heap.calls d = none
  listed : ∀ d ∈ s.devFileList,
    s.opening d = some .number ∨ s.opening d = some .finish ∨
      s.opening d = none ∧ (s.heap.calls d).isSome
  added : ∀ d, s.opening d = some .number ∨ s.opening d = some .finish → d ∈ s.devFileList
  open_ : ∀ d, (s.heap.calls d).isSome → s.heap.closing d = none → d ∈ s.devFileList
  blank : ∀ d, s.opening d = some .listAdd ∨ s.opening d = some .number → s.devFileId d = 0
  given : ∀ d, Numbered s d → Given s.deviceFileCnt (s.devFileId d)
  distinct : ∀ c d, Numbered s c → Numbered s d → s.devFileId c = s.devFileId d → c = d

theorem init_table : Table (Sys.init : Sys Dev Uuid Tid) where
  booked := Calls.init
  unique := List.nodup_nil
  opening := by simp [Sys.init]
  listed := by simp [Sys.init]
  added := by simp [Sys.init]
  open_ := by simp [Sys.init, Sys.heap, DeviceClose.Sys.init, SessionManager.Sys.init, Heap.init]
  blank := by simp [Sys.init]
  given := by simp [Sys.init, Numbered]
  distinct := by simp [Sys.init, Numbered]

variable [DecidableEq Dev] {s s' : Sys Dev Uuid Tid} {c d : Dev}

theorem Table.kzalloc (table : Table s) (free : s.heap.calls d = none) (idle : s.opening d = none) :
    Table { s with
      devFileId := update s.devFileId d 0
      opening := update s.opening d (some .listAdd) } := by
  have off : d ∉ s.devFileList := by
    intro listed
    rcases table.listed d listed with at_ | at_ | ⟨-, open_⟩
    · simp [idle] at at_
    · simp [idle] at at_
    · simp [free] at open_
  have numbered : ∀ {c : Dev}, Numbered { s with
      devFileId := update s.devFileId d 0
      opening := update s.opening d (some .listAdd) } c → c ≠ d ∧ Numbered s c := by
    rintro c ⟨listed, at_⟩
    have other : c ≠ d := by
      rintro rfl
      exact off listed
    exact ⟨other, listed, by simpa [other] using at_⟩
  refine ⟨table.booked, table.unique, ?_, ?_, ?_, table.open_, ?_, ?_, ?_⟩
  · intro c o at_
    by_cases hc : c = d
    · rw [hc]
      exact free
    · exact table.opening c o (by simpa [hc] using at_)
  · intro c listed
    have other : c ≠ d := by
      rintro rfl
      exact off listed
    simpa [other, Sys.heap] using table.listed c listed
  · intro c at_
    by_cases hc : c = d
    · simp [hc] at at_
    · exact table.added c (by simpa [hc] using at_)
  · intro c at_
    by_cases hc : c = d
    · simp [hc]
    · simpa [hc] using table.blank c (by simpa [hc] using at_)
  · intro c here
    obtain ⟨other, old⟩ := numbered here
    simpa [other] using table.given c old
  · intro c e here there same
    obtain ⟨other, old⟩ := numbered here
    obtain ⟨other', old'⟩ := numbered there
    exact table.distinct c e old old' (by simpa [other, other'] using same)

theorem Table.listAdd (table : Table s) (at_ : s.opening d = some .listAdd) :
    Table { s with
      devFileList := s.devFileList ++ [d]
      opening := update s.opening d (some .number) } := by
  have off : d ∉ s.devFileList := by
    intro listed
    rcases table.listed d listed with other | other | ⟨other, -⟩
    all_goals simp [at_] at other
  have numbered : ∀ {c : Dev}, Numbered { s with
      devFileList := s.devFileList ++ [d]
      opening := update s.opening d (some .number) } c → Numbered s c := by
    rintro c ⟨listed, at_'⟩
    have other : c ≠ d := by
      rintro rfl
      simp at at_'
    simp only [List.mem_append, List.mem_singleton, other, or_false] at listed
    exact ⟨listed, by simpa [other] using at_'⟩
  refine ⟨table.booked, ?_, ?_, ?_, ?_, ?_, ?_, ?_, ?_⟩
  · exact table.unique.append (List.nodup_singleton d) (by simpa using off)
  · intro c o here
    by_cases hc : c = d
    · rw [hc]
      exact table.opening d _ at_
    · exact table.opening c o (by simpa [hc] using here)
  · intro c listed
    by_cases hc : c = d
    · simp [hc]
    · simp only [List.mem_append, List.mem_singleton, hc, or_false] at listed
      simpa [hc, Sys.heap] using table.listed c listed
  · intro c here
    by_cases hc : c = d
    · simp [hc]
    · exact List.mem_append_left _ (table.added c (by simpa [hc] using here))
  · exact fun c here steady => List.mem_append_left _ (table.open_ c here steady)
  · intro c here
    by_cases hc : c = d
    · rw [hc]
      exact table.blank d (Or.inl at_)
    · exact table.blank c (by simpa [hc] using here)
  · exact fun c here => table.given c (numbered here)
  · exact fun c e here there => table.distinct c e (numbered here) (numbered there)

theorem Table.number (table : Table s) (at_ : s.opening d = some .number)
    (left : s.deviceFileCnt ≠ 0) :
    Table { s with
      devFileId := update s.devFileId d s.deviceFileCnt
      deviceFileCnt := s.deviceFileCnt + 1
      opening := update s.opening d (some .finish) } := by
  have numbered : ∀ {c : Dev}, c ≠ d → Numbered { s with
      devFileId := update s.devFileId d s.deviceFileCnt
      deviceFileCnt := s.deviceFileCnt + 1
      opening := update s.opening d (some .finish) } c → Numbered s c := by
    rintro c other ⟨listed, at_'⟩
    exact ⟨listed, by simpa [other] using at_'⟩
  refine ⟨table.booked, table.unique, ?_, ?_, ?_, table.open_, ?_, ?_, ?_⟩
  · intro c o here
    by_cases hc : c = d
    · rw [hc]
      exact table.opening d _ at_
    · exact table.opening c o (by simpa [hc] using here)
  · intro c listed
    by_cases hc : c = d
    · simp [hc]
    · simpa [hc, Sys.heap] using table.listed c listed
  · intro c here
    by_cases hc : c = d
    · rw [hc]
      exact table.added d (Or.inl at_)
    · exact table.added c (by simpa [hc] using here)
  · intro c here
    by_cases hc : c = d
    · simp [hc] at here
    · simpa [hc] using table.blank c (by simpa [hc] using here)
  · intro c here
    by_cases hc : c = d
    · simpa [hc] using given_self left
    · simpa [hc] using given_next (table.given c (numbered hc here)) left
  · intro c e here there same
    by_cases hc : c = d
    · by_cases he : e = d
      · rw [hc, he]
      · have old := given_ne (table.given e (numbered he there)) left
        simp only [hc, he, update_self, ne_eq, not_false_eq_true, update_of_ne] at same
        exact absurd same.symm old
    · by_cases he : e = d
      · have old := given_ne (table.given c (numbered hc here)) left
        simp only [hc, he, update_self, ne_eq, not_false_eq_true, update_of_ne] at same
        exact absurd same old
      · exact table.distinct c e (numbered hc here) (numbered he there)
          (by simpa [hc, he] using same)

theorem Table.finish [DecidableEq Uuid] [DecidableEq Tid] {files : DeviceClose.Sys Dev Uuid Tid}
    (table : Table s) (at_ : s.opening d = some .finish)
    (moved : DeviceClose.step s.files (.table (.openDev d)) = some files) :
    Table { s with files := files, opening := update s.opening d none } := by
  have booked := step_booked table.booked moved
  have free : s.heap.calls d = none := table.opening d _ at_
  have on_ : d ∈ s.devFileList := table.added d (Or.inr at_)
  obtain ⟨tables, ran, rfl⟩ := Option.map_eq_some_iff.1 moved
  rw [SessionManager.step, if_pos (show s.files.tables.heap.calls d = none from free)] at ran
  cases Option.some.inj ran
  have numbered : ∀ {c : Dev}, Numbered { s with
      files := ⟨{ s.files.tables with heap := s.files.tables.heap.openDev d }, s.files.agents⟩
      opening := update s.opening d none } c → Numbered s c := by
    rintro c ⟨listed, here⟩
    by_cases hc : c = d
    · rw [hc]
      exact ⟨on_, by simp [at_]⟩
    · exact ⟨listed, by simpa [hc] using here⟩
  refine ⟨booked, table.unique, ?_, ?_, ?_, ?_, ?_, ?_, ?_⟩
  · intro c o here
    by_cases hc : c = d
    · simp [hc] at here
    · simpa [Sys.heap, Heap.openDev, hc] using table.opening c o (by simpa [hc] using here)
  · intro c listed
    by_cases hc : c = d
    · simp [hc, Sys.heap, Heap.openDev]
    · simpa [hc, Sys.heap, Heap.openDev] using table.listed c listed
  · intro c here
    by_cases hc : c = d
    · simp [hc] at here
    · exact table.added c (by simpa [hc] using here)
  · intro c here steady
    by_cases hc : c = d
    · rw [hc]
      exact on_
    · refine table.open_ c ?_ ?_
      · simpa [Sys.heap, Heap.openDev, hc] using here
      · simpa [Sys.heap, Heap.openDev, hc] using steady
  · intro c here
    by_cases hc : c = d
    · simp [hc] at here
    · exact table.blank c (by simpa [hc] using here)
  · exact fun c here => table.given c (numbered here)
  · exact fun c e here there => table.distinct c e (numbered here) (numbered there)

/-- A step of the open files: at most one record leaves the list. -/
theorem Table.file [DecidableEq Uuid] [DecidableEq Tid] {files : DeviceClose.Sys Dev Uuid Tid}
    {a : DeviceClose.Act Dev Uuid Tid} (table : Table s) (old : ∀ d, a ≠ .table (.openDev d))
    (moved : DeviceClose.step s.files a = some files) :
    Table { s with
      files := files
      devFileList := match frees s.files a with
        | some d => s.devFileList.erase d
        | none => s.devFileList } := by
  set list := match frees s.files a with
    | some d => s.devFileList.erase d
    | none => s.devFileList with hlist
  have kept : ∀ c, frees s.files a ≠ some c → (c ∈ list ↔ c ∈ s.devFileList) := by
    intro c other
    rw [hlist]
    split
    · rename_i d freed
      refine List.mem_erase_of_ne ?_
      rintro rfl
      exact other freed
    · rfl
  have gone : ∀ c, frees s.files a = some c → c ∉ list := by
    intro c freed
    rw [hlist, freed]
    exact table.unique.not_mem_erase
  have less : ∀ c ∈ list, c ∈ s.devFileList := by
    intro c listed
    by_cases freed : frees s.files a = some c
    · exact absurd listed (gone c freed)
    · exact (kept c freed).1 listed
  have numbered : ∀ {c : Dev}, Numbered { s with files := files, devFileList := list } c →
      Numbered s c := fun ⟨listed, here⟩ => ⟨less _ listed, here⟩
  refine ⟨step_booked table.booked moved, ?_, ?_, ?_, ?_, ?_, table.blank, ?_, ?_⟩
  · change list.Nodup
    rw [hlist]
    split
    · exact table.unique.erase _
    · exact table.unique
  · intro c o here
    cases open_ : files.tables.heap.calls c with
    | none => exact open_
    | some n =>
      have before := (step_open moved (old c) (by simp [open_])).1
      have free := table.opening c o here
      rw [Sys.heap] at free
      simp [free] at before
  · intro c listed
    rcases table.listed c (less c listed) with at_ | at_ | ⟨at_, open_⟩
    · exact Or.inl at_
    · exact Or.inr (Or.inl at_)
    · refine Or.inr (Or.inr ⟨at_, ?_⟩)
      by_contra closed
      have freed := frees_of_gone moved open_ (by simpa [Sys.heap] using closed)
      exact gone c freed listed
  · intro c here
    have free : s.heap.calls c = none := by
      rcases here with at_ | at_
      · exact table.opening c _ at_
      · exact table.opening c _ at_
    refine (kept c fun freed => ?_).2 (table.added c here)
    rw [Sys.heap, freed_open table.booked moved freed] at free
    cases free
  · intro c open_ steady
    obtain ⟨before, alive⟩ := step_open moved (old c) open_
    obtain ⟨steady', other⟩ := alive steady
    exact (kept c other).2 (table.open_ c before steady')
  · exact fun c here => table.given c (numbered here)
  · exact fun c e here there => table.distinct c e (numbered here) (numbered there)

variable [DecidableEq Uuid] [DecidableEq Tid] {a : Act Dev Uuid Tid} {t : Tid}

/-- A step of an open file is a step of the system below. -/
theorem file_step {b : DeviceClose.Act Dev Uuid Tid} (moved : step s (.file b) = some s') :
    ∃ files, DeviceClose.step s.files b = some files ∧ (∀ d, b ≠ .table (.openDev d)) ∧
      s' = { s with
        files := files
        devFileList := match frees s.files b with
          | some d => s.devFileList.erase d
          | none => s.devFileList } := by
  cases b with
  | table b =>
    cases b with
    | openDev d => cases moved
    | release t d => cases moved
    | _ =>
      obtain ⟨files, ran, rfl⟩ := Option.map_eq_some_iff.1 moved
      exact ⟨files, ran, by simp, rfl⟩
  | agent b | close t d closer =>
    obtain ⟨files, ran, rfl⟩ := Option.map_eq_some_iff.1 moved
    exact ⟨files, ran, by simp, rfl⟩

theorem step_table (table : Table s) (unwrapped : Unwrapped s a) (moved : step s a = some s') :
    Table s' := by
  cases a with
  | kzalloc d =>
    simp only [step] at moved
    split at moved
    · rename_i may
      cases Option.some.inj moved
      exact table.kzalloc may.1 may.2
    · cases moved
  | listAdd d =>
    simp only [step] at moved
    split at moved
    · rename_i at_
      cases Option.some.inj moved
      exact table.listAdd at_
    · cases moved
  | number d =>
    simp only [step] at moved
    split at moved
    · rename_i at_
      cases Option.some.inj moved
      exact table.number at_ unwrapped
    · cases moved
  | finish d =>
    simp only [step] at moved
    split at moved
    · rename_i at_
      obtain ⟨files, ran, rfl⟩ := Option.map_eq_some_iff.1 moved
      exact table.finish at_ ran
    · cases moved
  | file b =>
    obtain ⟨files, ran, old, rfl⟩ := file_step moved
    exact table.file old ran

theorem reach_table (run : Reach step Unwrapped (Sys.init : Sys Dev Uuid Tid) s) : Table s :=
  run.invariant init_table fun _ _ _ table unwrapped moved => step_table table unwrapped moved

/-- An open file keeps its number. -/
theorem step_devFileId (table : Table s) (moved : step s a = some s')
    (open_ : (s.heap.calls d).isSome) : s'.devFileId d = s.devFileId d := by
  have other : ∀ {c o}, s.heap.calls c = none ∧ o = s.opening c ∨ s.opening c = some .number →
      d ≠ c := by
    rintro c o here rfl
    rcases here with ⟨free, -⟩ | at_
    · simp [free] at open_
    · simp [table.opening d _ at_] at open_
  cases a with
  | kzalloc c =>
    simp only [step] at moved
    split at moved
    · rename_i may
      cases Option.some.inj moved
      exact update_of_ne (other (Or.inl ⟨may.1, rfl⟩)) _ _
    · cases moved
  | listAdd c =>
    simp only [step] at moved
    split at moved
    · cases Option.some.inj moved
      rfl
    · cases moved
  | number c =>
    simp only [step] at moved
    split at moved
    · rename_i at_
      cases Option.some.inj moved
      exact update_of_ne (other (o := none) (Or.inr at_)) _ _
    · cases moved
  | finish c =>
    simp only [step] at moved
    split at moved
    · obtain ⟨files, -, rfl⟩ := Option.map_eq_some_iff.1 moved
      rfl
    · cases moved
  | file b =>
    obtain ⟨files, -, -, rfl⟩ := file_step moved
    rfl

omit [DecidableEq Dev] [DecidableEq Uuid] [DecidableEq Tid] in
/-- The number of an open file leads to that file. -/
theorem Table.find (table : Table s) (open_ : (s.heap.calls d).isSome)
    (steady : s.heap.closing d = none) :
    tcFindDevFile s (s.devFileId d) = some d ∧
      ∀ c ∈ s.devFileList, s.devFileId c = s.devFileId d → c = d := by
  have numbered : Numbered s d := by
    refine ⟨table.open_ d open_ steady, fun at_ => ?_⟩
    simp [table.opening d _ at_] at open_
  have alone : ∀ c ∈ s.devFileList, s.devFileId c = s.devFileId d → c = d := by
    intro c listed same
    by_cases at_ : s.opening c = some .number
    · have zero := table.blank c (Or.inr at_)
      exact absurd (same.symm.trans zero) (table.given d numbered).1
    · exact table.distinct c d ⟨listed, at_⟩ numbered same
  refine ⟨?_, alone⟩
  rw [tcFindDevFile]
  cases found : s.devFileList.find? fun c => s.devFileId c = s.devFileId d with
  | none =>
    have missed := List.find?_eq_none.1 found d numbered.1
    simp at missed
  | some c =>
    have same := List.find?_some found
    rw [alone c (List.mem_of_find?_eq_some found) (by simpa using same)]

end Invariant

section Calls

variable [DecidableEq Dev] [DecidableEq Uuid] [DecidableEq Tid] {s s' : Sys Dev Uuid Tid} {t : Tid}
  {d : Dev}

/-- While a thread is in one call on a file, the file keeps its number. -/
theorem call_devFileId (table : Table s)
    (during : Reach step (fun s a => Unwrapped s a ∧ InCall s t d) s s') :
    s'.devFileId d = s.devFileId d ∧ Table s' :=
  during.invariant (P := fun s' => s'.devFileId d = s.devFileId d ∧ Table s') ⟨rfl, table⟩
    fun _ _ _ ⟨same, table⟩ ⟨unwrapped, inCall⟩ moved =>
      ⟨(step_devFileId table moved (table.booked.open_ inCall)).trans same,
        step_table table unwrapped moved⟩

omit [DecidableEq Tid] in
theorem sessionOf_owner {m : Heap Dev Uuid Tid} {uuid : Uuid} {id : Nat} {e : SessionPtr}
    (found : sessionOf m d uuid id = some e) : m.owner e = some d ∧ m.sessionId e = id := by
  obtain ⟨v, -, there⟩ := Option.bind_eq_some_iff.1 found
  have matches_ := List.find?_some there
  simp only [decide_eq_true_eq] at matches_
  exact ⟨matches_.2, matches_.1⟩

/-- A command that carries the number of its file is looked up while its call goes on, whatever
other files are opened and closed meanwhile: the walk meets allocated records only and ends at the
file of the call, and the sessions it can find are those of that file. -/
theorem command_finds_caller (boot : Reach step Unwrapped Sys.init s)
    (during : Reach step (fun s a => Unwrapped s a ∧ InCall s t d) s s') (still : InCall s' t d) :
    tcFindDevFile s' (s.devFileId d) = some d ∧
      (∀ c ∈ s'.devFileList, s'.devFileId c = s.devFileId d → c = d) ∧
      (∀ c ∈ s'.devFileList, (s'.heap.calls c).isSome ∨ s'.opening c ≠ none) ∧
      (s'.heap.calls d).isSome ∧
      ∀ uuid id,
        tcFindSessionByUuid s' (s.devFileId d) uuid id = sessionOf s'.heap d uuid id ∧
          ∀ e ∈ tcFindSessionByUuid s' (s.devFileId d) uuid id,
            s'.heap.owner e = some d ∧ s'.heap.sessionId e = id := by
  obtain ⟨same, table⟩ := call_devFileId (reach_table boot) during
  have open_ := table.booked.open_ still
  obtain ⟨found, alone⟩ := table.find open_ (table.booked.steady still)
  rw [same] at found alone
  have session : ∀ uuid id,
      tcFindSessionByUuid s' (s.devFileId d) uuid id = sessionOf s'.heap d uuid id := by
    intro uuid id
    rw [tcFindSessionByUuid, found, Option.bind_some]
  refine ⟨found, alone, ?_, open_, fun uuid id => ⟨session uuid id, fun e here => ?_⟩⟩
  · intro c listed
    rcases table.listed c listed with at_ | at_ | ⟨-, open_⟩
    · exact Or.inr (by simp [at_])
    · exact Or.inr (by simp [at_])
    · exact Or.inl open_
  · rw [Option.mem_def, session uuid id] at here
    exact sessionOf_owner here

/-- Two files whose opens overlap take their numbers in the other order. -/
def openActs : List (Act Nat Nat Bool) :=
  [.kzalloc 1, .kzalloc 2, .listAdd 1, .listAdd 2, .number 2, .number 1, .finish 2, .finish 1,
    .file (.table (.openSession false 1 7))] ++
    List.replicate 4 (.file (.table (.run false {}))) ++
    [.file (.table (.run false { opened := some 9 })), .file (.table (.run false {})),
      .file (.table (.sendCmd false 1 7 9))]

theorem command_finds_caller_two_files :
    ∃ s s' : Sys Nat Nat Bool, s.devFileList = [1, 2] ∧ s.devFileId 1 = 2 ∧
      s'.devFileList = [1, 3] ∧ s'.devFileId 3 = 0 ∧ tcFindDevFile s' 2 = some 1 ∧
      tcFindSessionByUuid s' 2 7 9 = sessionOf s'.heap 1 7 9 := by
  obtain ⟨s, boot, good⟩ := reach_of_play step Unwrapped
    (fun s : Sys Nat Nat Bool => decide (s.devFileList = [1, 2] ∧ s.devFileId 1 = 2 ∧
      (play step (fun s a => Unwrapped s a ∧ InCall s false 1) s
        [.file (.table (.run false {})), .kzalloc 3, .listAdd 3, .file (.close true 2 {})]).any
        fun s' => InCall s' false 1 ∧ s'.devFileList = [1, 3] ∧ s'.devFileId 3 = 0))
    Sys.init openActs (by decide +kernel)
  obtain ⟨list, number, later⟩ := of_decide_eq_true good
  obtain ⟨s', during, still⟩ := reach_of_play _ _ _ _ _ later
  obtain ⟨still, list', number'⟩ := of_decide_eq_true still
  obtain ⟨found, -, -, -, session⟩ := command_finds_caller boot during still
  rw [number] at found session
  exact ⟨s, s', list, number, list', number', found, (session 7 9).1⟩

end Calls

end DeviceTable
