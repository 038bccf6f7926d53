import Tzdriver.HibernationRestore

/-!
# The resources of a hibernation

Suspends and resumes in any order, with any outcome of their steps. Nothing is released that is not
out, and no transfer hangs. A suspend does not look at what an earlier one has left: it drops a mapping
that is still recorded, and an image once it has a new one. These are the only leaks.
-/

namespace Hibernation

/-- A state with the numbers of mappings and images that nothing records any more. -/
structure SleepAudit where
  s4 : S4State
  lostMaps : Nat := 0
  lostImages : Nat := 0

inductive PmCall where
  | suspend (env : PmEnv)
  | resume (env : PmEnv)

def pmCall (s : SleepAudit) : PmCall → Option SleepAudit
  | .suspend env => (tcS4PmSuspend env s.s4).map fun result =>
    { s4 := result.2
      lostMaps := s.lostMaps + if s.s4.gS4BufferVaddr.isSome then 1 else 0
      lostImages := s.lostImages +
        if (tcS4AllocCryptoBuffer env s.s4).1 = 0 ∧ s.s4.gS4KernelMemAddr.isSome then 1 else 0 }
  | .resume env => (tcS4PmResume env s.s4).map fun result => { s with s4 := result.2 }

/-- The books: `lostMaps` and `lostImages` areas are out that nothing records. -/
structure Booked (lostMaps lostImages : Nat) (s : S4State) : Prop where
  noFault : s.fault = false
  buffer : ∀ a, s.gS4BufferVaddr = some a → a ∈ s.mapped
  image : ∀ a, s.gS4KernelMemAddr = some a → a ∈ s.images
  maps : s.mapped.length = s.gS4BufferVaddr.toList.length + lostMaps
  images : s.images.length = s.gS4KernelMemAddr.toList.length + lostImages

section Steps

variable {env : PmEnv} {s s' : S4State} {lostMaps lostImages : Nat} {ret : Int}
  {crypto : Crypto} {cryptOp : CryptOp} {powerOp : PowerOp} {kernelMemAddr : Option Nat}
  {copied index : Nat}

/-- A round that returns 0 has copied something. -/
theorem transferRound_pos
    (round : transferRound crypto cryptOp kernelMemAddr copied index s = (0, s')) :
    0 < s.gS4BufferSize := by
  by_contra nothing
  have zero : s.gS4BufferSize = 0 := by omega
  have refused : ∀ dest src, memcpyOk dest src 0 0 = false := by
    intro dest src
    rw [← Bool.not_eq_true, memcpyOk_iff]
    omega
  unfold transferRound at round
  simp only [zero, refused] at round
  split at round
  · cases round
  · rename_i other
    split at round
    · cases round
    · cases cryptOp with
      | encryptAndCopy =>
        rw [if_pos rfl] at round
        cases round
      | decryptAndCopy => exact other ⟨rfl, trivial⟩

/-- The loop ends in every state, whatever the TEE answers. -/
theorem transferFrom_ends (crypto : Crypto) (cryptOp : CryptOp) (kernelMemAddr : Option Nat)
    (copied index : Nat) (s : S4State) :
    (transferFrom crypto cryptOp kernelMemAddr copied index s).isSome = true := by
  induction left : reservedSecosPhymemSize - copied using Nat.strongRecOn
    generalizing copied index s with
  | ind left ih =>
    rw [transferFrom]
    split
    · rename_i more
      generalize round : transferRound crypto cryptOp kernelMemAddr copied index s = r
      obtain ⟨code, mid⟩ := r
      simp only
      split
      · rfl
      · rename_i done
        obtain rfl : code = 0 := not_not.1 done
        have same := transferRound_onlyMemory crypto cryptOp kernelMemAddr copied index s
        have pos : 0 < mid.gS4BufferSize := by
          have kept : mid.gS4BufferSize = s.gS4BufferSize := by
            rw [round] at same
            rw [show mid = { s with phys := mid.phys, kernel := mid.kernel } from same]
          rw [kept]
          exact transferRound_pos round
        rw [if_pos pos]
        exact ih _ (by omega) _ _ _ rfl
    · rfl

theorem Booked.memory (books : Booked lostMaps lostImages s) (same : OnlyMemory s s') :
    Booked lostMaps lostImages s' := by
  rw [same]
  exact ⟨books.noFault, books.buffer, books.image, books.maps, books.images⟩

theorem vunmap_recorded {area : Option Nat} {n : Nat} (out : ∀ a, area = some a → a ∈ s.mapped)
    (long : s.mapped.length = area.toList.length + n) :
    (s.vunmap area).mapped.length = n ∧ (s.vunmap area).fault = s.fault ∧
      (s.vunmap area).images = s.images := by
  cases area with
  | none =>
    rw [Option.toList_none, List.length_nil, Nat.zero_add] at long
    exact ⟨long, rfl, rfl⟩
  | some a =>
    have shorter := List.length_erase_of_mem (out a rfl)
    rw [Option.toList_some, List.length_singleton] at long
    refine ⟨?_, ?_, rfl⟩
    · show (s.mapped.erase a).length = n
      omega
    · simp [S4State.vunmap, out a rfl]

theorem vfree_recorded (addr : Option Nat) {n : Nat} (out : ∀ a, addr = some a → a ∈ s.images)
    (long : s.images.length = addr.toList.length + n) :
    (s.vfree addr).images.length = n ∧ (s.vfree addr).fault = s.fault ∧
      (s.vfree addr).mapped = s.mapped := by
  cases addr with
  | none =>
    rw [Option.toList_none, List.length_nil, Nat.zero_add] at long
    exact ⟨long, rfl, rfl⟩
  | some a =>
    have shorter := List.length_erase_of_mem (out a rfl)
    rw [Option.toList_some, List.length_singleton] at long
    refine ⟨?_, ?_, rfl⟩
    · show (s.images.erase a).length = n
      omega
    · simp [S4State.vfree, out a rfl]

/-- What is recorded is out, and is released once. -/
theorem Booked.free (books : Booked lostMaps lostImages s) :
    Booked lostMaps lostImages (freeResource s.gS4KernelMemAddr s) := by
  obtain ⟨maps, fault, same⟩ := vunmap_recorded books.buffer books.maps
  obtain ⟨images, fault', same'⟩ := vfree_recorded (s := s.vunmap s.gS4BufferVaddr)
    s.gS4KernelMemAddr (n := lostImages) (by rw [same]; exact books.image)
    (by rw [same]; exact books.images)
  refine ⟨?_, nofun, nofun, ?_, ?_⟩
  · exact fault'.trans (fault.trans books.noFault)
  · exact (congrArg List.length same').trans (maps.trans (Nat.zero_add _).symm)
  · exact images.trans (Nat.zero_add _).symm

/-- The part behind the allocation keeps the books, and a resume leaves nothing recorded. -/
theorem Booked.transferAndNotify (books : Booked lostMaps lostImages s)
    (done : transferAndNotify env powerOp cryptOp s.gS4KernelMemAddr s = some (ret, s')) :
    Booked lostMaps lostImages s' := by
  unfold Hibernation.transferAndNotify tcS4TransferData at done
  split at done
  · cases done
    exact books.free
  · split at done
    · cases done
    · rename_i code t ended
      have same := transferFrom_onlyMemory ended
      have kept : t.gS4KernelMemAddr = s.gS4KernelMemAddr := by
        rw [same]
      have after := (books.memory same).free
      rw [kept] at after
      split at done
      · cases done
        exact after
      · split at done
        · simp only [Option.some.injEq, Prod.mk.injEq] at done
          rw [← done.2]
          exact after
        · cases done
          exact books.memory same

theorem transferAndNotify_ends :
    (transferAndNotify env powerOp cryptOp kernelMemAddr s).isSome = true := by
  unfold transferAndNotify tcS4TransferData
  split
  · rfl
  · split
    · rename_i hangs
      have ends := transferFrom_ends env.crypto cryptOp kernelMemAddr 0 0 s
      rw [hangs] at ends
      cases ends
    · repeat' split
      all_goals rfl

theorem tcS4PmResume_eq : tcS4PmResume env s =
    transferAndNotify env .resume .decryptAndCopy s.gS4KernelMemAddr s := rfl

/-- A mapping that was recorded is lost, in every case. With a new image the old one is lost too, and
without one no mapping is recorded. -/
theorem Booked.alloc (books : Booked lostMaps lostImages s) {addr : Option Nat} {t : S4State}
    (allocated : tcS4AllocCryptoBuffer env s = (ret, addr, t)) :
    (ret ≠ 0 →
      Booked (lostMaps + if s.gS4BufferVaddr.isSome then 1 else 0) lostImages t) ∧
    (ret = 0 → Booked (lostMaps + if s.gS4BufferVaddr.isSome then 1 else 0)
      (lostImages + if s.gS4KernelMemAddr.isSome then 1 else 0)
      { t with gS4KernelMemAddr := addr }) := by
  have maps : s.mapped.length = lostMaps + if s.gS4BufferVaddr.isSome then 1 else 0 := by
    have long := books.maps
    cases found : s.gS4BufferVaddr with
    | none => simpa [found] using long
    | some a => simpa [found, Nat.add_comm] using long
  have images : s.images.length = lostImages + if s.gS4KernelMemAddr.isSome then 1 else 0 := by
    have long := books.images
    cases found : s.gS4KernelMemAddr with
    | none => simpa [found] using long
    | some a => simpa [found, Nat.add_comm] using long
  unfold tcS4AllocCryptoBuffer at allocated
  rw [if_neg (by decide)] at allocated
  split at allocated
  · cases allocated
    refine ⟨fun _ => ⟨books.noFault, nofun, books.image, ?_, books.images⟩, fun ok => ?_⟩
    · exact maps.trans (Nat.zero_add _).symm
    · cases ok
  · rename_i area vaddr mapping
    obtain rfl : vaddr = area := tcVmap_aligned mapping
    split at allocated
    · cases allocated
      refine ⟨fun _ => ⟨?_, nofun, books.image, ?_, books.images⟩, fun ok => ?_⟩
      · simp [S4State.vunmap, books.noFault]
      · simp [S4State.vunmap, maps]
      · cases ok
    · rename_i given
      cases allocated
      refine ⟨fun bad => absurd rfl bad, fun _ => ⟨books.noFault, ?_, ?_, ?_, ?_⟩⟩
      · intro a found
        cases found
        exact List.mem_cons_self
      · intro a found
        cases found
        exact List.mem_cons_self
      · exact (congrArg (· + 1) maps).trans (Nat.add_comm _ 1)
      · exact (congrArg (· + 1) images).trans (Nat.add_comm _ 1)

/-- Each call returns and keeps the books. -/
theorem pmCall_booked (audit : SleepAudit) (call : PmCall)
    (books : Booked audit.lostMaps audit.lostImages audit.s4) :
    ∃ audit', pmCall audit call = some audit' ∧
      Booked audit'.lostMaps audit'.lostImages audit'.s4 := by
  cases call with
  | resume env =>
    have returns : (tcS4PmResume env audit.s4).isSome = true := by
      rw [tcS4PmResume_eq]
      exact transferAndNotify_ends
    obtain ⟨⟨ret, t⟩, done⟩ := Option.isSome_iff_exists.1 returns
    refine ⟨{ audit with s4 := t }, by simp [pmCall, done], ?_⟩
    rw [tcS4PmResume_eq] at done
    exact books.transferAndNotify done
  | suspend env =>
    generalize allocated : tcS4AllocCryptoBuffer env audit.s4 = result
    obtain ⟨ret, addr, t⟩ := result
    obtain ⟨failed, passed⟩ := books.alloc allocated
    by_cases ok : ret = 0
    · have kept := passed ok
      have returns : (transferAndNotify env .suspend .encryptAndCopy addr
          { t with gS4KernelMemAddr := addr }).isSome = true := transferAndNotify_ends
      obtain ⟨⟨code, t'⟩, done⟩ := Option.isSome_iff_exists.1 returns
      refine ⟨⟨t', _, _⟩, ?_, kept.transferAndNotify done⟩
      simp [pmCall, tcS4PmSuspend, tcS4PmOps, allocated, ok, done]
    · refine ⟨⟨t, _, _⟩, ?_, failed ok⟩
      simp [pmCall, tcS4PmSuspend, tcS4PmOps, allocated, ok]

end Steps

/-- Nothing is recorded yet. -/
def boot (phys kernel : Nat → UInt8) : SleepAudit where
  s4 := { phys := phys, kernel := kernel }

theorem boot_booked (phys kernel : Nat → UInt8) :
    Booked (boot phys kernel).lostMaps (boot phys kernel).lostImages (boot phys kernel).s4 :=
  ⟨rfl, nofun, nofun, rfl, rfl⟩

/-- Suspends and resumes in any order all return. What is out after them is what the state records
and, one each, what suspends dropped that found a mapping or an image recorded. -/
theorem sleeps_booked (phys kernel : Nat → UInt8) (calls : List PmCall) :
    ∃ audit, calls.foldlM pmCall (boot phys kernel) = some audit ∧ audit.s4.fault = false ∧
      audit.s4.mapped.length = audit.s4.gS4BufferVaddr.toList.length + audit.lostMaps ∧
      audit.s4.images.length = audit.s4.gS4KernelMemAddr.toList.length + audit.lostImages := by
  have run : ∀ start : SleepAudit, Booked start.lostMaps start.lostImages start.s4 →
      ∃ audit, calls.foldlM pmCall start = some audit ∧
        Booked audit.lostMaps audit.lostImages audit.s4 := by
    induction calls with
    | nil => exact fun start books => ⟨start, rfl, books⟩
    | cons call calls ih =>
      intro start books
      obtain ⟨mid, moved, kept⟩ := pmCall_booked start call books
      obtain ⟨audit, rest, last⟩ := ih mid kept
      exact ⟨audit, by rw [List.foldlM_cons, moved]; exact rest, last⟩
  obtain ⟨audit, ended, books⟩ := run (boot phys kernel) (boot_booked phys kernel)
  exact ⟨audit, ended, books.noFault, books.maps, books.images⟩

end Hibernation
