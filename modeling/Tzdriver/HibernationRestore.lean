import Tzdriver.Hibernation
import Tzdriver.MemoryPieces

/-!
# The secure memory comes back

A suspend that returns 0 has left all pieces of the secure memory in kernel memory, each encrypted
under its index, and a later resume that returns 0 has put every piece back, whatever the secure memory
and the shared buffer hold by then.
-/

namespace Hibernation

open ByteRange MemoryCells MemoryPieces

/-- The encryption of the TEE: a piece is encrypted under its index. -/
structure S4Cipher where
  encrypt : Nat → List UInt8 → List UInt8
  decrypt : Nat → List UInt8 → List UInt8
  length_encrypt : ∀ index piece, (encrypt index piece).length = piece.length
  decrypt_encrypt : ∀ index piece, decrypt index (encrypt index piece) = piece

/-- What the two commands do when they return 0. -/
structure Documented (cipher : S4Cipher) (crypto : Crypto) : Prop where
  encrypt : ∀ middle secos size index mem mem',
    crypto .encryptAndCopy middle secos size index mem = (true, mem') →
      mem' = write mem middle (cipher.encrypt index (slice mem secos size))
  decrypt : ∀ middle secos size index mem mem',
    crypto .decryptAndCopy middle secos size index mem = (true, mem') →
      mem' = write mem secos (cipher.decrypt index (slice mem middle size))

/-- The buffer as `tc_s4_alloc_crypto_buffer` leaves it. -/
structure Ready (s : S4State) : Prop where
  vaddr : s.gS4BufferVaddr.isSome = true
  paddr : s.gS4BufferPaddr = reservedSecosS4Base
  size : s.gS4BufferSize = reservedSecosS4Size

def pieces : Nat := 48

theorem pieces_mul : pieces * reservedSecosS4Size = reservedSecosPhymemSize := by decide

/-- The pieces of the secure memory. -/
def securePiece (phys : Nat → UInt8) (k : Nat) : List UInt8 :=
  slice phys (reservedSecosPhymemBase + k * reservedSecosS4Size) reservedSecosS4Size

/-- The pieces of an image in kernel memory. -/
def imagePiece (kernel : Nat → UInt8) (addr k : Nat) : List UInt8 :=
  slice kernel (addr + k * reservedSecosS4Size) reservedSecosS4Size

/-! ## Pieces under a write -/

section Pieces

variable {phys kernel : Nat → UInt8} {text : List UInt8} {addr j k : Nat}

theorem piece_le (less : j < k) :
    j * reservedSecosS4Size + reservedSecosS4Size ≤ k * reservedSecosS4Size := by
  have grown := Nat.mul_le_mul_right reservedSecosS4Size less
  rwa [Nat.succ_mul] at grown

theorem imagePiece_write (long : text.length = reservedSecosS4Size) :
    imagePiece (write kernel (addr + k * reservedSecosS4Size) text) addr k = text := by
  unfold imagePiece
  rw [← long]
  exact slice_write

theorem imagePiece_write_other (long : text.length = reservedSecosS4Size) (other : j ≠ k) :
    imagePiece (write kernel (addr + k * reservedSecosS4Size) text) addr j =
      imagePiece kernel addr j := by
  apply slice_write_apart
  rcases Nat.lt_or_gt_of_ne other with less | more
  · have := piece_le less
    omega
  · have := piece_le more
    omega

theorem securePiece_write (long : text.length = reservedSecosS4Size) :
    securePiece (write phys (reservedSecosPhymemBase + k * reservedSecosS4Size) text) k = text :=
  imagePiece_write long

theorem securePiece_write_other (long : text.length = reservedSecosS4Size) (other : j ≠ k) :
    securePiece (write phys (reservedSecosPhymemBase + k * reservedSecosS4Size) text) j =
      securePiece phys j :=
  imagePiece_write_other long other

/-- The shared buffer lies behind the secure memory. -/
theorem securePiece_write_buffer (inside : j < pieces) :
    securePiece (write phys reservedSecosS4Base text) j = securePiece phys j := by
  apply slice_write_apart
  have last := piece_le inside
  have behind : reservedSecosPhymemBase + pieces * reservedSecosS4Size ≤ reservedSecosS4Base := by
    decide
  omega

theorem secure_le (inside : j < pieces) :
    reservedSecosPhymemBase + (j * reservedSecosS4Size + reservedSecosS4Size) ≤
      reservedSecosPhymemBase + reservedSecosPhymemSize := by
  have last := piece_le inside
  rw [pieces_mul] at last
  omega

end Pieces

/-- The addresses of neither the secure memory nor the shared buffer. -/
structure Untouched (p : Nat) : Prop where
  buffer : p < reservedSecosS4Base ∨ reservedSecosS4Base + reservedSecosS4Size ≤ p
  secure : p < reservedSecosPhymemBase ∨ reservedSecosPhymemBase + reservedSecosPhymemSize ≤ p

/-- A transfer changes memory only. -/
def OnlyMemory (s s' : S4State) : Prop := s' = { s with phys := s'.phys, kernel := s'.kernel }

theorem OnlyMemory.refl (s : S4State) : OnlyMemory s s := rfl

theorem OnlyMemory.trans {s t u : S4State} (first : OnlyMemory s t) (second : OnlyMemory t u) :
    OnlyMemory s u := by
  unfold OnlyMemory at *
  rw [second, first]

theorem OnlyMemory.ready {s s' : S4State} (same : OnlyMemory s s') (ready : Ready s) : Ready s' := by
  rw [same]
  exact ⟨ready.vaddr, ready.paddr, ready.size⟩

section Transfers

variable {crypto : Crypto} {cipher : S4Cipher} {cryptOp : CryptOp} {s s' : S4State}
  {kernelMemAddr : Option Nat} {addr copied index k n : Nat} {ret : Int} {saved : Nat → List UInt8}

theorem transferRound_onlyMemory (crypto : Crypto) (cryptOp : CryptOp)
    (kernelMemAddr : Option Nat) (copied index : Nat) (s : S4State) :
    OnlyMemory s (transferRound crypto cryptOp kernelMemAddr copied index s).2 := by
  unfold transferRound
  simp only
  split
  · exact .refl s
  · split
    · rfl
    · split
      · split <;> rfl
      · rfl

/-- The rounds before the last one are followed by the rest of the loop. -/
theorem transferFrom_cases
    (ended : transferFrom crypto cryptOp kernelMemAddr copied index s = some (ret, s')) :
    (reservedSecosPhymemSize ≤ copied ∧ ret = 0 ∧ s' = s) ∨
    ((ret, s') = transferRound crypto cryptOp kernelMemAddr copied index s ∧ ret ≠ 0) ∨
    ∃ mid, transferRound crypto cryptOp kernelMemAddr copied index s = (0, mid) ∧
      copied < reservedSecosPhymemSize ∧ 0 < mid.gS4BufferSize ∧
      transferFrom crypto cryptOp kernelMemAddr (copied + mid.gS4BufferSize) (index + 1) mid =
        some (ret, s') := by
  rw [transferFrom] at ended
  split at ended
  · rename_i more
    generalize round : transferRound crypto cryptOp kernelMemAddr copied index s = r at ended
    obtain ⟨code, mid⟩ := r
    simp only at ended
    split at ended
    · rename_i failed
      cases ended
      exact .inr (.inl ⟨rfl, failed⟩)
    · rename_i done
      obtain rfl : code = 0 := not_not.1 done
      split at ended
      · rename_i pos
        exact .inr (.inr ⟨mid, rfl, more, pos, ended⟩)
      · cases ended
  · rename_i past
    cases ended
    exact .inl ⟨Nat.le_of_not_lt past, rfl, rfl⟩

theorem transferFrom_onlyMemory
    (ended : transferFrom crypto cryptOp kernelMemAddr copied index s = some (ret, s')) :
    OnlyMemory s s' := by
  induction left : reservedSecosPhymemSize - copied using Nat.strongRecOn
    generalizing copied index s with
  | ind left ih =>
    rcases transferFrom_cases ended with ⟨-, -, rfl⟩ | ⟨round, -⟩ | ⟨mid, round, more, pos, rest⟩
    · exact .refl s'
    · have last := transferRound_onlyMemory crypto cryptOp kernelMemAddr copied index s
      rwa [← round] at last
    · have first := transferRound_onlyMemory crypto cryptOp kernelMemAddr copied index s
      rw [round] at first
      exact first.trans (ih _ (by omega) rest rfl)

/-! ## One round -/

theorem encryptRound (documented : Documented cipher crypto) (ready : Ready s)
    (round : transferRound crypto .encryptAndCopy (some addr) copied index s = (0, s')) :
    let text := cipher.encrypt index
      (slice s.phys (reservedSecosPhymemBase + copied) reservedSecosS4Size)
    s'.phys = write s.phys reservedSecosS4Base text ∧
      s'.kernel = write s.kernel (addr + copied) text := by
  intro text
  have long : text.length = reservedSecosS4Size := by
    rw [cipher.length_encrypt, length_slice]
  unfold transferRound at round
  simp only [ready.size, ready.paddr] at round
  rw [if_neg (by simp), if_neg (by simp)] at round
  split at round
  · cases round
  · rename_i phys sent
    rw [if_pos trivial] at round
    split at round
    · cases round
    · cases round
      obtain rfl := documented.encrypt _ _ _ _ _ _ sent
      refine ⟨rfl, ?_⟩
      have shown : slice (write s.phys reservedSecosS4Base text) reservedSecosS4Base text.length =
          text := slice_write
      rw [long] at shown
      simp only [Option.getD_some]
      rw [shown]

theorem decryptRound (documented : Documented cipher crypto) (ready : Ready s)
    (round : transferRound crypto .decryptAndCopy (some addr) copied index s = (0, s')) :
    let text := slice s.kernel (addr + copied) reservedSecosS4Size
    s'.kernel = s.kernel ∧
      s'.phys = write (write s.phys reservedSecosS4Base text) (reservedSecosPhymemBase + copied)
        (cipher.decrypt index text) := by
  intro text
  have long : text.length = reservedSecosS4Size := length_slice
  unfold transferRound at round
  simp only [ready.size, ready.paddr, Option.getD_some] at round
  split at round
  · cases round
  · rw [if_pos trivial] at round
    split at round
    · cases round
    · rename_i phys sent
      rw [if_neg (by simp)] at round
      cases round
      obtain rfl := documented.decrypt _ _ _ _ _ _ sent
      refine ⟨rfl, ?_⟩
      have shown : slice (write s.phys reservedSecosS4Base text) reservedSecosS4Base text.length =
          text := slice_write
      rw [long] at shown
      rw [shown]

/-! ## All rounds -/

/-- The pieces from `k` on are now in the image, each encrypted under its index. -/
theorem encryptFrom (documented : Documented cipher crypto) (left : k + n = pieces)
    (ready : Ready s)
    (ended : transferFrom crypto .encryptAndCopy (some addr) (k * reservedSecosS4Size) k s =
      some (0, s')) :
    (∀ p, (p < reservedSecosS4Base ∨ reservedSecosS4Base + reservedSecosS4Size ≤ p) →
      s'.phys p = s.phys p) ∧
    (∀ j, j < k → imagePiece s'.kernel addr j = imagePiece s.kernel addr j) ∧
    ∀ j, k ≤ j → j < pieces →
      imagePiece s'.kernel addr j = cipher.encrypt j (securePiece s.phys j) := by
  induction n generalizing k s with
  | zero =>
    have past : reservedSecosPhymemSize ≤ k * reservedSecosS4Size := by
      rw [← pieces_mul, ← left, Nat.add_zero]
    rcases transferFrom_cases ended with ⟨-, -, rfl⟩ | ⟨-, failed⟩ | ⟨-, -, more, -⟩
    · refine ⟨fun _ _ => rfl, fun _ _ => rfl, ?_⟩
      intro j low high
      omega
    · exact absurd rfl failed
    · omega
  | succ n ih =>
    have more : k * reservedSecosS4Size < reservedSecosPhymemSize := by
      rw [← pieces_mul]
      exact Nat.mul_lt_mul_of_pos_right (by omega) (by decide)
    rcases transferFrom_cases ended with ⟨past, -, -⟩ | ⟨-, failed⟩ | ⟨mid, round, -, -, rest⟩
    · omega
    · exact absurd rfl failed
    · have same : OnlyMemory s mid := by
        have first := transferRound_onlyMemory crypto .encryptAndCopy (some addr)
          (k * reservedSecosS4Size) k s
        rwa [round] at first
      have midReady := same.ready ready
      rw [midReady.size, ← Nat.succ_mul] at rest
      obtain ⟨outside, before, after⟩ := ih (by omega) midReady rest
      obtain ⟨phys, kernel⟩ := encryptRound documented ready round
      have long : (cipher.encrypt k (securePiece s.phys k)).length = reservedSecosS4Size := by
        rw [cipher.length_encrypt, securePiece, length_slice]
      have now : mid.phys = write s.phys reservedSecosS4Base
          (cipher.encrypt k (securePiece s.phys k)) := phys
      have kept : mid.kernel = write s.kernel (addr + k * reservedSecosS4Size)
          (cipher.encrypt k (securePiece s.phys k)) := kernel
      refine ⟨?_, ?_, ?_⟩
      · intro p apart
        rw [outside p apart, now]
        apply write_outside
        omega
      · intro j less
        rw [before j (by omega), kept]
        exact imagePiece_write_other long (by omega)
      · intro j low high
        rcases Nat.eq_or_lt_of_le low with rfl | low
        · rw [before k (by omega), kept]
          exact imagePiece_write long
        · rw [after j low high, now, securePiece_write_buffer high]

/-- The pieces from `k` on are back in the secure memory. -/
theorem decryptFrom (documented : Documented cipher crypto) (saved : Nat → List UInt8)
    (left : k + n = pieces) (ready : Ready s) (image : ∀ j, k ≤ j → j < pieces → imagePiece s.kernel addr j =
      cipher.encrypt j (saved j)) (long : ∀ j, (saved j).length = reservedSecosS4Size)
    (ended : transferFrom crypto .decryptAndCopy (some addr) (k * reservedSecosS4Size) k s =
      some (0, s')) :
    s'.kernel = s.kernel ∧
    (∀ p, Untouched p → s'.phys p = s.phys p) ∧
    (∀ j, j < k → securePiece s'.phys j = securePiece s.phys j) ∧
    ∀ j, k ≤ j → j < pieces → securePiece s'.phys j = saved j := by
  induction n generalizing k s with
  | zero =>
    have past : reservedSecosPhymemSize ≤ k * reservedSecosS4Size := by
      rw [← pieces_mul, ← left, Nat.add_zero]
    rcases transferFrom_cases ended with ⟨-, -, rfl⟩ | ⟨-, failed⟩ | ⟨-, -, more, -⟩
    · refine ⟨rfl, fun _ _ => rfl, fun _ _ => rfl, ?_⟩
      intro j low high
      omega
    · exact absurd rfl failed
    · omega
  | succ n ih =>
    have inside : k < pieces := by omega
    have more : k * reservedSecosS4Size < reservedSecosPhymemSize := by
      rw [← pieces_mul]
      exact Nat.mul_lt_mul_of_pos_right inside (by decide)
    rcases transferFrom_cases ended with ⟨past, -, -⟩ | ⟨-, failed⟩ | ⟨mid, round, -, -, rest⟩
    · omega
    · exact absurd rfl failed
    · have same : OnlyMemory s mid := by
        have first := transferRound_onlyMemory crypto .decryptAndCopy (some addr)
          (k * reservedSecosS4Size) k s
        rwa [round] at first
      have midReady := same.ready ready
      rw [midReady.size, ← Nat.succ_mul] at rest
      obtain ⟨kernel, phys⟩ := decryptRound documented ready round
      have text : slice s.kernel (addr + k * reservedSecosS4Size) reservedSecosS4Size =
          cipher.encrypt k (saved k) := image k (Nat.le_refl k) inside
      rw [text, cipher.decrypt_encrypt] at phys
      have cover : (cipher.encrypt k (saved k)).length = reservedSecosS4Size := by
        rw [cipher.length_encrypt, long]
      obtain ⟨still, outside, before, after⟩ := ih (by omega) midReady
        (fun j low high => by rw [kernel]; exact image j (by omega) high) rest
      refine ⟨still.trans kernel, ?_, ?_, ?_⟩
      · intro p apart
        have end_le := secure_le inside
        rw [outside p apart, phys, write_outside, write_outside]
        · rw [cover]
          exact apart.buffer
        · rw [long]
          have := apart.secure
          omega
      · intro j less
        rw [before j (by omega), phys, securePiece_write_other (long k) (by omega),
          securePiece_write_buffer (by omega)]
      · intro j low high
        rcases Nat.eq_or_lt_of_le low with rfl | low
        · rw [before k (by omega), phys, securePiece_write (long k)]
        · exact after j low high

/-- Where every SMC returns 0, a transfer does. -/
theorem transferFrom_ok (addr : Nat) (accepts : ∀ a b c d mem, (crypto cryptOp a b c d mem).1 = true)
    (ready : Ready s) (left : k + n = pieces) :
    ∃ s', transferFrom crypto cryptOp (some addr) (k * reservedSecosS4Size) k s = some (0, s') := by
  induction n generalizing k s with
  | zero =>
    have past : ¬ k * reservedSecosS4Size < reservedSecosPhymemSize := by
      rw [← pieces_mul, ← left, Nat.add_zero]
      omega
    refine ⟨s, ?_⟩
    rw [transferFrom, if_neg past]
  | succ n ih =>
    have more : k * reservedSecosS4Size < reservedSecosPhymemSize := by
      rw [← pieces_mul]
      exact Nat.mul_lt_mul_of_pos_right (by omega) (by decide)
    have passed : (transferRound crypto cryptOp (some addr) (k * reservedSecosS4Size) k s).1 = 0 := by
      obtain ⟨vaddr, mapped⟩ := Option.isSome_iff_exists.1 ready.vaddr
      have copies : ∀ a b, memcpyOk (some a) (some b) reservedSecosS4Size reservedSecosS4Size = true :=
        fun _ _ => memcpyOk_iff.2 ⟨rfl, rfl, by decide, by decide, Nat.le_refl _⟩
      unfold transferRound
      simp only [ready.size, ready.paddr, mapped, copies]
      rw [if_neg (by simp)]
      split
      · rename_i refused
        have := accepts reservedSecosS4Base (reservedSecosPhymemBase + k * reservedSecosS4Size)
          reservedSecosS4Size k (if cryptOp = .decryptAndCopy then write s.phys reservedSecosS4Base
            (slice s.kernel ((some addr).getD 0 + k * reservedSecosS4Size) reservedSecosS4Size)
            else s.phys)
        rw [refused] at this
        cases this
      · split <;> simp
    have same := transferRound_onlyMemory crypto cryptOp (some addr) (k * reservedSecosS4Size) k s
    generalize round : transferRound crypto cryptOp (some addr) (k * reservedSecosS4Size) k s = r
      at passed same
    obtain ⟨code, mid⟩ := r
    obtain rfl : code = 0 := passed
    have midReady : Ready mid := same.ready ready
    obtain ⟨s', rest⟩ := ih midReady (show k + 1 + n = pieces by omega)
    refine ⟨s', ?_⟩
    rw [transferFrom, if_pos more, round]
    simp only [midReady.size, ← Nat.succ_mul]
    rw [if_neg (by simp), if_pos (by decide)]
    exact rest

end Transfers

section Sleep

variable {env env' : PmEnv} {cipher : S4Cipher} {s s₁ s₂ s₃ : S4State}

/-- The shared buffer starts with a page, so its mapping does. -/
theorem tcVmap_aligned {area vaddr : Nat}
    (mapping : tcVmap env reservedSecosS4Base = some (area, vaddr)) : vaddr = area := by
  unfold tcVmap at mapping
  split at mapping
  · cases mapping
  · obtain ⟨a, -, pair⟩ := Option.map_eq_some_iff.1 mapping
    cases pair
    simp [reservedSecosS4Base, pageSize]

/-- What a suspend that returns 0 has done. -/
theorem suspend_cases (suspended : tcS4PmSuspend env s = some (0, s₁)) :
    ∃ area addr start,
      start = { s with
        gS4KernelMemAddr := some addr
        gS4BufferVaddr := some area
        gS4BufferPaddr := reservedSecosS4Base
        gS4BufferSize := reservedSecosS4Size
        mapped := area :: s.mapped
        images := addr :: s.images } ∧
      transferFrom env.crypto .encryptAndCopy (some addr) 0 0 start = some (0, s₁) := by
  unfold tcS4PmSuspend tcS4PmOps at suspended
  generalize alloc : tcS4AllocCryptoBuffer env s = r at suspended
  obtain ⟨code, kernelMemAddr, t⟩ := r
  simp only at suspended
  split at suspended
  · cases suspended
    contradiction
  unfold tcS4AllocCryptoBuffer at alloc
  rw [if_neg (by decide)] at alloc
  split at alloc
  · cases alloc
    contradiction
  rename_i area vaddr mapping
  split at alloc
  · cases alloc
    contradiction
  rename_i addr given
  cases alloc
  obtain rfl : vaddr = area := tcVmap_aligned mapping
  refine ⟨vaddr, addr, _, rfl, ?_⟩
  unfold transferAndNotify tcS4TransferData at suspended
  split at suspended
  · simp [eFAULT] at suspended
  · split at suspended
    · cases suspended
    · rename_i ret t ended
      split at suspended
      · cases suspended
        contradiction
      · rename_i passed
        obtain rfl : ret = 0 := not_not.1 passed
        rw [if_neg (by simp)] at suspended
        cases suspended
        exact ended

/-- What a resume that returns 0 has done. -/
theorem resume_cases (resumed : tcS4PmResume env s = some (0, s₁)) :
    ∃ t, transferFrom env.crypto .decryptAndCopy s.gS4KernelMemAddr 0 0 s = some (0, t) ∧
      s₁ = freeResource s.gS4KernelMemAddr t := by
  unfold tcS4PmResume tcS4PmOps transferAndNotify tcS4TransferData at resumed
  simp only at resumed
  rw [if_neg (by simp)] at resumed
  split at resumed
  · cases resumed
  · rename_i ret t ended
    split at resumed
    · cases resumed
      contradiction
    · rename_i passed
      obtain rfl : ret = 0 := not_not.1 passed
      rw [if_pos trivial] at resumed
      simp only [Option.some.injEq, Prod.mk.injEq] at resumed
      exact ⟨t, ended, resumed.2.symm⟩

/-- A suspend that returns 0 has put every piece of the secure memory into the image, each encrypted
under its index, and has written to the shared buffer only. -/
theorem suspend_saves (documented : Documented cipher env.crypto)
    (suspended : tcS4PmSuspend env s = some (0, s₁)) :
    ∃ addr, s₁.gS4KernelMemAddr = some addr ∧
      (∀ j, j < pieces → imagePiece s₁.kernel addr j = cipher.encrypt j (securePiece s.phys j)) ∧
      ∀ p, (p < reservedSecosS4Base ∨ reservedSecosS4Base + reservedSecosS4Size ≤ p) →
        s₁.phys p = s.phys p := by
  obtain ⟨area, addr, start, rfl, ended⟩ := suspend_cases suspended
  have same := transferFrom_onlyMemory ended
  obtain ⟨outside, -, image⟩ := encryptFrom documented (k := 0) (n := pieces) (Nat.zero_add _)
    ⟨rfl, rfl, rfl⟩ (by rw [Nat.zero_mul]; exact ended)
  refine ⟨addr, ?_, fun j => image j (Nat.zero_le j), outside⟩
  rw [same]

/-- What a suspend that returns 0 saved is what a later resume that returns 0 puts back, whatever the
physical memory holds in between. Nothing outside the secure memory and the buffer is written, and the
buffer and the image are given back. -/
theorem resume_restores (documented : Documented cipher env.crypto)
    (documented' : Documented cipher env'.crypto)
    (suspended : tcS4PmSuspend env s = some (0, s₁))
    (slept : s₂ = { s₁ with phys := s₂.phys })
    (resumed : tcS4PmResume env' s₂ = some (0, s₃)) :
    (∀ i, i < reservedSecosPhymemSize →
      s₃.phys (reservedSecosPhymemBase + i) = s.phys (reservedSecosPhymemBase + i)) ∧
    (∀ p, Untouched p → s₃.phys p = s₂.phys p) ∧
    s₃.gS4BufferVaddr = none ∧ s₃.gS4KernelMemAddr = none ∧
    s₃.mapped = s.mapped ∧ s₃.images = s.images ∧ s₃.fault = s.fault := by
  obtain ⟨addr', found, image, -⟩ := suspend_saves documented suspended
  obtain ⟨area, addr, start, rfl, ended⟩ := suspend_cases suspended
  have same := transferFrom_onlyMemory ended
  obtain rfl : addr = addr' := by
    rw [same] at found
    exact Option.some.inj found
  have fixed : s₂.gS4KernelMemAddr = some addr ∧ s₂.gS4BufferVaddr = some area ∧
      s₂.gS4BufferPaddr = reservedSecosS4Base ∧ s₂.gS4BufferSize = reservedSecosS4Size ∧
      s₂.mapped = area :: s.mapped ∧ s₂.images = addr :: s.images ∧ s₂.fault = s.fault ∧
      s₂.kernel = s₁.kernel := by
    rw [slept]
    rw [same]
    exact ⟨rfl, rfl, rfl, rfl, rfl, rfl, rfl, rfl⟩
  obtain ⟨kept, vaddr, paddr, size, mapped, images, fault, kernel⟩ := fixed
  obtain ⟨t, run, rfl⟩ := resume_cases resumed
  rw [kept] at run
  have only := transferFrom_onlyMemory run
  obtain ⟨-, outside, -, back⟩ := decryptFrom documented' (k := 0) (n := pieces)
    (securePiece s.phys) (Nat.zero_add _) ⟨by rw [vaddr]; rfl, paddr, size⟩
    (fun j _ high => by rw [kernel]; exact image j high) (fun _ => length_slice)
    (by rw [Nat.zero_mul]; exact run)
  have freed : freeResource s₂.gS4KernelMemAddr t =
      { s₂ with
        phys := t.phys, kernel := t.kernel, mapped := s.mapped, images := s.images
        gS4KernelMemAddr := none, gS4BufferPaddr := 0, gS4BufferVaddr := none, gS4BufferSize := 0 } := by
    rw [only, freeResource, kept, vaddr]
    simp [S4State.vunmap, S4State.vfree, mapped, images]
  rw [freed]
  refine ⟨?_, outside, rfl, rfl, rfl, rfl, fault⟩
  intro i inside
  rw [← pieces_mul] at inside
  exact eq_of_pieces (fun j high => back j (Nat.zero_le j) high) inside

theorem suspend_ok {area addr : Nat} (pages : env.pages = true) (vmap : env.vmap = some area)
    (vmalloc : env.vmalloc = some addr) (power : env.powerSmc = true)
    (accepts : ∀ a b c d mem, (env.crypto .encryptAndCopy a b c d mem).1 = true) :
    ∃ s₁, tcS4PmSuspend env s = some (0, s₁) := by
  have mapping : tcVmap env reservedSecosS4Base = some (area, area) := by
    simp [tcVmap, pages, vmap, reservedSecosS4Base, pageSize]
  obtain ⟨s₁, ended⟩ := transferFrom_ok (k := 0) (n := pieces)
    (s := { s with
      gS4KernelMemAddr := some addr
      gS4BufferVaddr := some area
      gS4BufferPaddr := reservedSecosS4Base
      gS4BufferSize := reservedSecosS4Size
      mapped := area :: s.mapped
      images := addr :: s.images }) addr accepts ⟨rfl, rfl, rfl⟩ (Nat.zero_add _)
  rw [Nat.zero_mul] at ended
  refine ⟨s₁, ?_⟩
  unfold tcS4PmSuspend tcS4PmOps tcS4AllocCryptoBuffer transferAndNotify tcS4TransferData
  rw [if_neg (by decide), mapping]
  simp [vmalloc, power, ended]

theorem resume_ok {addr : Nat} (ready : Ready s) (kept : s.gS4KernelMemAddr = some addr)
    (power : env.powerSmc = true)
    (accepts : ∀ a b c d mem, (env.crypto .decryptAndCopy a b c d mem).1 = true) :
    ∃ s₁, tcS4PmResume env s = some (0, s₁) := by
  obtain ⟨t, ended⟩ := transferFrom_ok (k := 0) (n := pieces) addr accepts ready
    (Nat.zero_add _)
  rw [Nat.zero_mul] at ended
  refine ⟨freeResource (some addr) t, ?_⟩
  unfold tcS4PmResume tcS4PmOps transferAndNotify tcS4TransferData
  simp [kept, power, ended]

/-! ## A night's sleep

A TEE that adds the index to every byte, and a physical memory that is lost in between. -/

def addingCipher : S4Cipher where
  encrypt index piece := piece.map (· + UInt8.ofNat index)
  decrypt index piece := piece.map (· - UInt8.ofNat index)
  length_encrypt _ _ := List.length_map ..
  decrypt_encrypt index piece := by
    simp [Function.comp_def]

def addingTee : Crypto
  | .encryptAndCopy, middle, secos, size, index, mem =>
    (true, write mem middle (addingCipher.encrypt index (slice mem secos size)))
  | .decryptAndCopy, middle, secos, size, index, mem =>
    (true, write mem secos (addingCipher.decrypt index (slice mem middle size)))

theorem addingTee_documented : Documented addingCipher addingTee where
  encrypt _ _ _ _ _ _ done := (Prod.mk.inj done).2.symm
  decrypt _ _ _ _ _ _ done := (Prod.mk.inj done).2.symm

def sleepEnv : PmEnv where
  vmap := some 0x1000
  vmalloc := some 0x2000
  crypto := addingTee

def awake : S4State where
  phys := fun p => UInt8.ofNat (p % 7)
  kernel := fun _ => 0

theorem resume_restores_awake :
    ∃ s₁ s₃, tcS4PmSuspend sleepEnv awake = some (0, s₁) ∧
      tcS4PmResume sleepEnv { s₁ with phys := fun _ => 0 } = some (0, s₃) ∧
      ∀ i, i < reservedSecosPhymemSize → s₃.phys (reservedSecosPhymemBase + i) =
        UInt8.ofNat ((reservedSecosPhymemBase + i) % 7) := by
  have falls : ∃ s₁, tcS4PmSuspend sleepEnv awake = some (0, s₁) := suspend_ok rfl rfl rfl rfl
    fun _ _ _ _ _ => rfl
  obtain ⟨s₁, suspended⟩ := falls
  obtain ⟨area, addr, start, rfl, ended⟩ := suspend_cases suspended
  have same := transferFrom_onlyMemory ended
  have ready : Ready { s₁ with phys := fun _ => 0 } := by
    rw [same]
    exact ⟨rfl, rfl, rfl⟩
  have image : s₁.gS4KernelMemAddr = some addr := by
    rw [same]
  have wakes : ∃ s₃, tcS4PmResume sleepEnv { s₁ with phys := fun _ => 0 } = some (0, s₃) :=
    resume_ok ready image rfl fun _ _ _ _ _ => rfl
  obtain ⟨s₃, resumed⟩ := wakes
  exact ⟨s₁, s₃, suspended, resumed, (resume_restores addingTee_documented addingTee_documented
    suspended rfl resumed).1⟩

end Sleep

end Hibernation
