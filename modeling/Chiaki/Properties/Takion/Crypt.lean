import Mathlib.Data.List.Nodup
import Chiaki.Takion.Crypt
import Chiaki.Properties.GKCrypt.UsedStream

/-!
# Local key positions are not used twice

* `cryptReserved` — in every interleaving of the senders the reserved ranges follow each other
  without a gap and without an overflow, and the payload of a feedback packet is encrypted at
  positions inside the range of that packet
* `cryptKeyStream_neverReused` — the stream of the code begins again after `2 ^ 36` bytes, so every
  payload byte gets a byte of its own exactly as long as no payload is encrypted at a position from
  `2 ^ 35` on
-/

namespace Chiaki

open Infra CryptState

variable {aes : Block → Equiv.Perm Block} {keyBase iv : Block} {n : Nat}

/-! ## The property -/

/-- The ranges that were reserved, newest first: position and size. -/
def CryptState.reservations (s : CryptState n) : List (Nat × Nat) :=
  s.log.filterMap fun
    | .reserved _ keyPos size => some (keyPos, size)
    | _ => none

/-- The positions at which a byte of a payload was encrypted. -/
def CryptState.positions (s : CryptState n) : List Nat :=
  s.log.flatMap fun
    | .encrypted _ keyPos payload _ =>
      (List.range payload.length).map fun i => keyPos + gkcryptBlockSize + i
    | _ => []

/-- What holds in every interleaving. -/
structure KeyPosReserved (aes : Block → Equiv.Perm Block) (s : CryptState n) : Prop where
  /-- A range lies behind all ranges that were reserved before it. -/
  ordered : s.reservations.Pairwise fun newer older => older.1 + older.2 ≤ newer.1
  bounded : ∀ r ∈ s.reservations, r.1 + r.2 < 2 ^ 64
  /-- Nothing but a reservation moves the counter. -/
  total : s.keyPosLocal = (s.reservations.map Prod.snd).sum
  refused : ∀ t keyPosLocal size, .refused t keyPosLocal size ∈ s.log → 2 ^ 64 ≤ keyPosLocal + size
  /-- A payload is encrypted inside the range that the same thread reserved for its packet. -/
  encrypted : ∀ t keyPos payload out, .encrypted t keyPos payload out ∈ s.log →
    .reserved t keyPos (payload.length + gkcryptBlockSize) ∈ s.log ∧
      out = xorBytes payload
        (usedKeyStream aes s.keyBase s.iv (keyPos + gkcryptBlockSize) payload.length)
  /-- No position is used for two bytes. -/
  positions : s.positions.Nodup

/-- The bytes that the code uses are those of the key stream, and none of them is used twice. -/
structure KeyStreamOwn (s : CryptState n) : Prop where
  own : ∀ p ∈ s.positions, usedByte s.iv p = streamByte s.iv p
  unique : (s.positions.map (usedByte s.iv)).Nodup

/-! ## The mutex -/

/-- How many times a thread has the mutex outside of `chiaki_takion_crypt_advance_key_pos`. -/
def CryptSend.depth : CryptSend → Nat
  | .feedback _ => 1
  | _ => 0

def CryptPc.depth : CryptPc → Nat
  | .idle => 0
  | .feedback _ => 0
  | .advance send => send.depth
  | .checking send => send.depth + 1
  | .adding send _ _ => send.depth + 1
  | .advanced send _ => send.depth
  | .sending => 1
  | .beach => 1
  | .fault _ => 1

theorem CryptPc.depth_locked {pc pc' : CryptPc} (h : pc.locked = some pc') :
    pc'.depth = pc.depth + 1 := by
  cases pc with
  | feedback =>
    cases h
    rfl
  | advance =>
    cases h
    rfl
  | advanced send =>
    cases send with
    | feedback => cases h
    | messageData =>
      cases h
      rfl
    | messageDataAck =>
      cases h
      rfl
    | congestion =>
      cases h
      rfl
  | idle => cases h
  | checking => cases h
  | adding => cases h
  | sending => cases h
  | beach => cases h
  | fault => cases h

theorem CryptSend.depth_failed (send : CryptSend) : send.failed.depth = send.depth := by
  cases send <;> rfl

/-! ## The invariant -/

/-- What is known where a thread stands. -/
def CryptPcOk (s : CryptState n) (t : Fin n) : CryptPc → Prop
  | .adding send keyPos next =>
    keyPos = s.keyPosLocal ∧ next = keyPos + send.dataSize ∧ next < 2 ^ 64
  | .advanced (.feedback payload) keyPos =>
    .reserved t keyPos (payload.val.length + gkcryptBlockSize) ∈ s.log ∧
      ∀ p ∈ s.positions, p < keyPos
  | _ => True

structure CryptInvariant (aes : Block → Equiv.Perm Block) (s : CryptState n) : Prop where
  reserved : KeyPosReserved aes s
  depth : ∀ t, s.mutex.depth t = (s.threads t).depth
  keyPosLocal_lt : s.keyPosLocal < 2 ^ 64
  reserved_le : ∀ r ∈ s.reservations, r.1 + r.2 ≤ s.keyPosLocal
  positions_lt : ∀ p ∈ s.positions, p < s.keyPosLocal
  threads : ∀ t, CryptPcOk s t (s.threads t)

variable {s s' : CryptState n} {t : Fin n} {l : CryptLabel n}

/-- Only one thread has the mutex. -/
theorem CryptInvariant.owner (h : CryptInvariant aes s) {u : Fin n} (ht : 0 < (s.threads t).depth)
    (hu : 0 < (s.threads u).depth) : u = t :=
  RecMutex.owner_unique (h.depth u ▸ hu) (h.depth t ▸ ht)

/-- What is known of a thread is known under the mutex, so of no other thread while one has it. -/
theorem CryptInvariant.other (h : CryptInvariant aes s) {u : Fin n} (ht : 0 < (s.threads t).depth) (hu : u ≠ t)
    (s' : CryptState n) : CryptPcOk s' u (s.threads u) := by
  have hfree : (s.threads u).depth = 0 := by
    by_contra hne
    exact hu (h.owner ht (Nat.pos_of_ne_zero hne))
  cases hpc : s.threads u with
  | adding send =>
    rw [hpc] at hfree
    exact absurd hfree (Nat.succ_ne_zero _)
  | advanced send =>
    cases send with
    | feedback =>
      rw [hpc] at hfree
      exact absurd hfree Nat.one_ne_zero
    | _ => trivial
  | _ => trivial

/-- Where the threads are does not matter for what was reserved. -/
theorem KeyPosReserved.moved (h : KeyPosReserved aes s) (mutex : RecMutex (Fin n)) (pc : CryptPc) :
    KeyPosReserved aes ({ s with mutex := mutex }.setThread t pc) :=
  ⟨h.ordered, h.bounded, h.total, h.refused, h.encrypted, h.positions⟩

/-- A thread moves on, and nothing is reserved or encrypted. -/
theorem CryptInvariant.move (h : CryptInvariant aes s) {mutex : RecMutex (Fin n)} {pc : CryptPc}
    (hmutex : ∀ u, mutex.depth u = if u = t then pc.depth else (s.threads u).depth)
    (hpc : CryptPcOk s t pc) : CryptInvariant aes ({ s with mutex := mutex }.setThread t pc) where
  reserved := h.reserved.moved mutex pc
  depth := by
    intro u
    show mutex.depth u = (if u = t then pc else s.threads u).depth
    rw [hmutex u]
    split <;> rfl
  keyPosLocal_lt := h.keyPosLocal_lt
  reserved_le := h.reserved_le
  positions_lt := h.positions_lt
  threads := by
    intro u
    show CryptPcOk s u (if u = t then pc else s.threads u)
    split
    · next hu => exact hu ▸ hpc
    · exact h.threads u

/-- A thread moves on without the mutex. -/
theorem CryptInvariant.setThread (h : CryptInvariant aes s) {pc : CryptPc}
    (hdepth : pc.depth = (s.threads t).depth) (hpc : CryptPcOk s t pc) :
    CryptInvariant aes (s.setThread t pc) := by
  refine h.move (fun u => ?_) hpc
  rw [h.depth u]
  split
  · next hu => rw [hu, hdepth]
  · rfl

/-- The depths after an unlock. -/
theorem CryptInvariant.depth_unlock (h : CryptInvariant aes s) {pc : CryptPc}
    (hdepth : (s.threads t).depth = pc.depth + 1) (u : Fin n) :
    s.mutex.unlock.depth u = if u = t then pc.depth else (s.threads u).depth := by
  have hpos : 0 < s.mutex.depth t := by
    rw [h.depth t, hdepth]
    exact Nat.succ_pos _
  rw [RecMutex.depth_unlock hpos u, h.depth u]
  split
  · next hu =>
    rw [hu, hdepth]
    rfl
  · rfl

theorem CryptInvariant.lock (h : CryptInvariant aes s) {pc : CryptPc} {mutex : RecMutex (Fin n)}
    (hpc : (s.threads t).locked = some pc) (hmutex : s.mutex.lock t = some mutex) :
    CryptInvariant aes ({ s with mutex := mutex }.setThread t pc) := by
  refine h.move (fun u => ?_) ?_
  · rw [RecMutex.depth_lock hmutex u, h.depth u]
    split
    · next hu => rw [hu, CryptPc.depth_locked hpc]
    · rfl
  · cases hold : s.threads t with
    | advanced send =>
      rw [hold] at hpc
      cases send <;> cases hpc <;> trivial
    | feedback =>
      rw [hold] at hpc
      cases hpc
      trivial
    | advance =>
      rw [hold] at hpc
      cases hpc
      trivial
    | _ =>
      rw [hold] at hpc
      cases hpc

/-- A refusal is recorded. -/
theorem CryptInvariant.emit_refused (h : CryptInvariant aes s) {size : Nat}
    (hsize : 2 ^ 64 ≤ s.keyPosLocal + size) :
    CryptInvariant aes (s.emit (.refused t s.keyPosLocal size)) where
  reserved := by
    refine ⟨h.reserved.ordered, h.reserved.bounded, h.reserved.total, ?_, ?_, h.reserved.positions⟩
    · intro u keyPosLocal size' hmem
      rcases List.mem_cons.mp hmem with heq | hold
      · cases heq
        exact hsize
      · exact h.reserved.refused u _ _ hold
    · intro u keyPos payload out hmem
      rcases List.mem_cons.mp hmem with heq | hold
      · cases heq
      · obtain ⟨hres, hout⟩ := h.reserved.encrypted u _ _ _ hold
        exact ⟨List.mem_cons_of_mem _ hres, hout⟩
  depth := h.depth
  keyPosLocal_lt := h.keyPosLocal_lt
  reserved_le := h.reserved_le
  positions_lt := h.positions_lt
  threads := by
    intro u
    have hu := h.threads u
    show CryptPcOk (s.emit _) u (s.threads u)
    cases hpc : s.threads u with
    | adding =>
      rw [hpc] at hu
      exact hu
    | advanced send =>
      rw [hpc] at hu
      cases send with
      | feedback payload => exact ⟨List.mem_cons_of_mem _ hu.1, hu.2⟩
      | _ => trivial
    | _ => trivial

/-- A range is reserved behind the others. -/
theorem KeyPosReserved.add (h : KeyPosReserved aes s) (hle : ∀ r ∈ s.reservations, r.1 + r.2 ≤ s.keyPosLocal)
    {size : Nat} (hlt : s.keyPosLocal + size < 2 ^ 64) :
    KeyPosReserved aes ({ s with keyPosLocal := s.keyPosLocal + size }.emit (.reserved t s.keyPosLocal size)) where
  ordered := List.pairwise_cons.mpr ⟨fun r hr => hle r hr, h.ordered⟩
  bounded := by
    intro r hr
    rcases List.mem_cons.mp hr with heq | hold
    · rw [heq]
      exact hlt
    · exact h.bounded r hold
  total := by
    show s.keyPosLocal + size = size + (s.reservations.map Prod.snd).sum
    rw [← h.total, Nat.add_comm]
  refused := by
    intro u keyPosLocal size' hmem
    rcases List.mem_cons.mp hmem with heq | hold
    · cases heq
    · exact h.refused u _ _ hold
  encrypted := by
    intro u keyPos payload out hmem
    rcases List.mem_cons.mp hmem with heq | hold
    · cases heq
    · obtain ⟨hres, hout⟩ := h.encrypted u _ _ _ hold
      exact ⟨List.mem_cons_of_mem _ hres, hout⟩
  positions := h.positions

/-- A payload is encrypted behind all others. -/
theorem KeyPosReserved.encrypt (h : KeyPosReserved aes s) {keyPos : Nat} {payload out : Bytes}
    (hres : .reserved t keyPos (payload.length + gkcryptBlockSize) ∈ s.log) (hnew : ∀ p ∈ s.positions, p < keyPos)
    (hout : out = xorBytes payload (usedKeyStream aes s.keyBase s.iv (keyPos + gkcryptBlockSize) payload.length)) :
    KeyPosReserved aes (s.emit (.encrypted t keyPos payload out)) where
  ordered := h.ordered
  bounded := h.bounded
  total := h.total
  refused := by
    intro u keyPosLocal size hmem
    rcases List.mem_cons.mp hmem with heq | hold
    · cases heq
    · exact h.refused u _ _ hold
  encrypted := by
    intro u keyPos' payload' out' hmem
    rcases List.mem_cons.mp hmem with heq | hold
    · cases heq
      exact ⟨List.mem_cons_of_mem _ hres, hout⟩
    · obtain ⟨hres', hout'⟩ := h.encrypted u _ _ _ hold
      exact ⟨List.mem_cons_of_mem _ hres', hout'⟩
  positions := by
    show ((List.range _).map _ ++ s.positions).Nodup
    refine List.nodup_append.mpr ⟨?_, h.positions, ?_⟩
    · exact List.nodup_range.map fun i j hij => Nat.add_left_cancel hij
    · rintro p hp q hq rfl
      obtain ⟨i, -, rfl⟩ := List.mem_map.mp hp
      have hlt := hnew _ hq
      omega

/-- The position is reserved, and the thread leaves `chiaki_takion_crypt_advance_key_pos`. -/
theorem CryptInvariant.add (h : CryptInvariant aes s) {send : CryptSend} {keyPos next : Nat}
    (hpc : s.threads t = .adding send keyPos next) :
    CryptInvariant aes (cryptAdd s t send keyPos next) := by
  have hok := h.threads t
  have hdepth : (s.threads t).depth = send.depth + 1 := by
    rw [hpc]
    rfl
  rw [hpc] at hok
  obtain ⟨rfl, rfl, hlt⟩ := hok
  constructor
  · exact (h.reserved.add h.reserved_le hlt).moved _ _
  · intro u
    show s.mutex.unlock.depth u = (if u = t then CryptPc.advanced send _ else s.threads u).depth
    rw [h.depth_unlock (show (s.threads t).depth = (CryptPc.advanced send s.keyPosLocal).depth + 1
      from hdepth) u]
    split <;> rfl
  · exact hlt
  · intro r hr
    rcases List.mem_cons.mp hr with heq | hold
    · rw [heq]
      exact Nat.le_refl _
    · exact Nat.le_trans (h.reserved_le r hold) (Nat.le_add_right _ _)
  · intro p hp
    exact Nat.lt_of_lt_of_le (h.positions_lt p hp) (Nat.le_add_right _ _)
  · intro u
    show CryptPcOk _ u (if u = t then CryptPc.advanced send s.keyPosLocal else s.threads u)
    split
    · next hu =>
      cases send with
      | feedback payload =>
        have hsize : CryptSend.dataSize (.feedback payload)
            = payload.val.length + gkcryptBlockSize := by
          have hlen := payload.property
          show (payload.val.length + 16) % 2 ^ 64 = payload.val.length + 16
          omega
        refine ⟨?_, h.positions_lt⟩
        rw [hu, ← hsize]
        exact List.mem_cons_self
      | _ => trivial
    · next hu =>
      refine h.other ?_ hu _
      rw [hdepth]
      exact Nat.succ_pos _

theorem mem_positions {keyPos i : Nat} {payload out : Bytes}
    (hmem : .encrypted t keyPos payload out ∈ s.log) (hi : i < payload.length) :
    keyPos + gkcryptBlockSize + i ∈ s.positions :=
  List.mem_flatMap.mpr ⟨_, hmem, List.mem_map.mpr ⟨i, List.mem_range.mpr hi, rfl⟩⟩

/-- The payload of a feedback packet is encrypted. -/
theorem CryptInvariant.emit_encrypted (h : CryptInvariant aes s) {payload : CBuffer} {keyPos : Nat}
    {out : Bytes} (hpc : s.threads t = .advanced (.feedback payload) keyPos)
    (hout : out = xorBytes payload.val
      (usedKeyStream aes s.keyBase s.iv (keyPos + gkcryptBlockSize) payload.val.length)) :
    CryptInvariant aes ((s.emit (.encrypted t keyPos payload.val out)).setThread t .beach) := by
  have hok := h.threads t
  rw [hpc] at hok
  obtain ⟨hres, hold⟩ := hok
  have hend := h.reserved_le _ (List.mem_filterMap.mpr ⟨_, hres, rfl⟩)
  have hnew : ∀ p ∈ (List.range payload.val.length).map fun i => keyPos + gkcryptBlockSize + i,
      p < s.keyPosLocal := by
    intro p hp
    obtain ⟨i, hi, rfl⟩ := List.mem_map.mp hp
    have hlt := List.mem_range.mp hi
    simp only at hend
    omega
  constructor
  · exact (h.reserved.encrypt hres hold hout).moved s.mutex _
  · intro u
    show s.mutex.depth u = (if u = t then CryptPc.beach else s.threads u).depth
    rw [h.depth u]
    split
    · next hu =>
      rw [hu, hpc]
      rfl
    · rfl
  · exact h.keyPosLocal_lt
  · exact h.reserved_le
  · intro p hp
    rcases List.mem_append.mp hp with hp | hp
    · exact hnew p hp
    · exact h.positions_lt p hp
  · intro u
    show CryptPcOk _ u (if u = t then CryptPc.beach else s.threads u)
    split
    · trivial
    · next hu =>
      refine h.other ?_ hu _
      rw [hpc]
      exact Nat.one_pos

/-! ## Steps -/

theorem CryptInvariant.call (h : CryptInvariant aes s) (hpc : s.threads t = .idle)
    (send : CryptSend) : CryptInvariant aes (cryptCall s t send) := by
  have hdepth : (s.threads t).depth = 0 := by
    rw [hpc]
    rfl
  cases send <;> exact h.setThread hdepth.symm trivial

theorem CryptInvariant.check (h : CryptInvariant aes s) {send : CryptSend}
    (hpc : s.threads t = .checking send) : CryptInvariant aes (cryptCheck s t send) := by
  have hdepth : (s.threads t).depth = send.depth + 1 := by
    rw [hpc]
    rfl
  have hlt := h.keyPosLocal_lt
  unfold cryptCheck takionCryptAdvanceKeyPos
  simp only
  by_cases hsize : 2 ^ 64 - 1 - s.keyPosLocal < send.dataSize
  · rw [if_pos hsize]
    have hrefused : CryptInvariant aes (s.emit (.refused t s.keyPosLocal send.dataSize)) :=
      h.emit_refused (by omega)
    refine hrefused.move (hrefused.depth_unlock ?_) ?_
    · rw [CryptSend.depth_failed]
      exact hdepth
    · cases send <;> trivial
  · rw [if_neg hsize]
    refine h.setThread ?_ ⟨rfl, rfl, by omega⟩
    rw [hdepth]
    rfl

theorem CryptInvariant.encrypt (h : CryptInvariant aes s) {payload : CBuffer} {keyPos : Nat}
    (hpc : s.threads t = .advanced (.feedback payload) keyPos) (malloc evp : Bool) :
    CryptInvariant aes (cryptEncrypt aes s t payload keyPos malloc evp) := by
  have hok := h.threads t
  rw [hpc] at hok
  have hend := h.reserved.bounded _ (List.mem_filterMap.mpr ⟨_, hok.1, rfl⟩)
  have hmod : (keyPos + gkcryptBlockSize) % 2 ^ 64 = keyPos + gkcryptBlockSize := by
    simp only at hend
    exact Nat.mod_eq_of_lt (by omega)
  unfold cryptEncrypt
  rw [hmod]
  rcases @gkcryptDecrypt_cases aes s.keyBase s.iv malloc evp (keyPos + gkcryptBlockSize) _
      payload.property with ⟨err, herr⟩ | hout
  · rw [herr]
    refine h.setThread ?_ trivial
    rw [hpc]
    rfl
  · rw [hout]
    exact h.emit_encrypted hpc rfl

theorem CryptInvariant.unlock (h : CryptInvariant aes s) (hdepth : (s.threads t).depth = 1) :
    CryptInvariant aes (s.unlock.setThread t .idle) :=
  h.move (h.depth_unlock hdepth) trivial

theorem cryptInvariant_step (h : CryptInvariant aes s) (hs : cryptStep aes s l = some s') :
    CryptInvariant aes s' := by
  cases l with
  | call t send =>
    simp only [cryptStep] at hs
    split at hs
    · next hpc =>
      cases hs
      exact h.call hpc send
    · cases hs
  | lock t =>
    simp only [cryptStep] at hs
    split at hs
    · next hpc hmutex =>
      cases hs
      exact h.lock hpc hmutex
    · cases hs
  | check t =>
    simp only [cryptStep] at hs
    split at hs
    · next hpc =>
      cases hs
      exact h.check hpc
    · cases hs
  | add t =>
    simp only [cryptStep] at hs
    split at hs
    · next hpc =>
      cases hs
      exact h.add hpc
    · cases hs
  | abandon t =>
    simp only [cryptStep] at hs
    split at hs
    · cases hs
    · next send keyPos hsend hpc =>
      cases hs
      refine h.setThread ?_ trivial
      rw [hpc]
      cases send with
      | feedback => exact (hsend _ rfl).elim
      | _ => rfl
    · cases hs
  | encrypt t malloc evp =>
    simp only [cryptStep] at hs
    split at hs
    · next hpc =>
      cases hs
      exact h.encrypt hpc malloc evp
    · cases hs
  | unlock t =>
    simp only [cryptStep] at hs
    split at hs
    · next hpc =>
      cases hs
      refine h.unlock ?_
      rw [hpc]
      rfl
    · next hpc =>
      cases hs
      refine h.unlock ?_
      rw [hpc]
      rfl
    · cases hs

theorem cryptInvariant_init (keyBase iv : Block) :
    CryptInvariant aes (cryptInit keyBase iv : CryptState n) where
  reserved := by
    refine ⟨List.Pairwise.nil, ?_, rfl, ?_, ?_, List.nodup_nil⟩
    · rintro r ⟨⟩
    · rintro t keyPosLocal size ⟨⟩
    · rintro t keyPos payload out ⟨⟩
  depth := fun _ => rfl
  keyPosLocal_lt := by
    show 0 < 2 ^ 64
    decide
  reserved_le := by rintro r ⟨⟩
  positions_lt := by rintro p ⟨⟩
  threads := fun _ => trivial

theorem cryptInvariant_invariant (aes : Block → Equiv.Perm Block) (n : Nat) :
    (cryptLts aes n).Invariant (CryptInvariant aes) where
  init := by
    rintro s ⟨keyBase, iv, rfl⟩
    exact cryptInvariant_init keyBase iv
  step := fun _ _ _ h hs => cryptInvariant_step h hs

/-! ## Every interleaving -/

/-- **The reserved ranges are disjoint and in order, and every payload is encrypted in its own.** -/
theorem cryptReserved (hr : (cryptLts aes n).Reachable s) : KeyPosReserved aes s :=
  ((cryptInvariant_invariant aes n).reachable hr).reserved

theorem CryptInvariant.position_lt (h : CryptInvariant aes s) {p : Nat} (hp : p ∈ s.positions) :
    p < 2 ^ 64 :=
  Nat.lt_trans (h.positions_lt p hp) h.keyPosLocal_lt

theorem CryptInvariant.keyStreamOwn_iff (h : CryptInvariant aes s) :
    KeyStreamOwn s ↔ ∀ p ∈ s.positions, p < 2 ^ 35 := by
  constructor
  · intro hown p hp
    exact (usedByte_eq_streamByte_iff (h.position_lt hp)).mp (hown.own p hp)
  · intro hlt
    refine ⟨fun p hp => (usedByte_eq_streamByte_iff (h.position_lt hp)).mpr (hlt p hp), ?_⟩
    refine List.Nodup.map_on (fun p hp q hq heq => ?_) h.reserved.positions
    have hp := hlt p hp
    have hq := hlt q hq
    have hmod := usedByte_eq_iff.mp heq
    omega

theorem nodup_usedByte_iff (iv : Block) (positions : List Nat) :
    (positions.map (usedByte iv)).Nodup ↔ (positions.map (· % 2 ^ 36)).Nodup := by
  simp only [List.Nodup, List.pairwise_map, ne_eq, usedByte_eq_iff]

theorem not_keyStreamOwn {keyPos i : Nat} {payload out : Bytes}
    (hmem : .encrypted t keyPos payload out ∈ s.log) (hi : i < payload.length)
    (hge : 2 ^ 35 ≤ keyPos + gkcryptBlockSize + i) (hlt : keyPos + gkcryptBlockSize + i < 2 ^ 64) :
    ¬ KeyStreamOwn s := by
  intro hown
  have hbound := (usedByte_eq_streamByte_iff hlt).mp (hown.own _ (mem_positions hmem hi))
  exact absurd hbound (Nat.not_lt.mpr hge)

/-- No payload is encrypted beyond the range of the counter: a condition on the position that the
packet has got. -/
def encryptsBelow (s : CryptState n) : CryptLabel n → Bool
  | .encrypt t _ _ =>
    match s.threads t with
    | .advanced (.feedback payload) keyPos =>
      payload.val.isEmpty || keyPos + gkcryptBlockSize + payload.val.length ≤ 2 ^ 35
    | _ => true
  | _ => true

/-- Only the encryption of a payload adds positions. -/
theorem cryptStep_positions (hs : cryptStep aes s l = some s') :
    s'.positions = s.positions ∨
      ∃ t malloc evp payload keyPos, l = .encrypt t malloc evp ∧
        s.threads t = .advanced (.feedback payload) keyPos ∧
        s'.positions = (List.range payload.val.length).map (fun i => keyPos + gkcryptBlockSize + i)
          ++ s.positions := by
  cases l with
  | encrypt t malloc evp =>
    simp only [cryptStep] at hs
    split at hs
    · next payload keyPos hpc =>
      cases hs
      unfold cryptEncrypt
      split
      · exact .inl rfl
      · exact .inl rfl
      · exact .inr ⟨t, malloc, evp, payload, keyPos, rfl, hpc, rfl⟩
    · cases hs
  | call t send =>
    simp only [cryptStep] at hs
    split at hs
    · cases hs
      cases send <;> exact .inl rfl
    · cases hs
  | check t =>
    simp only [cryptStep] at hs
    split at hs
    · cases hs
      unfold cryptCheck
      split <;> exact .inl rfl
    · cases hs
  | _ =>
    simp only [cryptStep] at hs
    split at hs <;> cases hs <;> exact .inl rfl

theorem positions_lt_of_below
    (hr : ((cryptLts aes n).restrict fun s l => encryptsBelow s l = true).Reachable s) :
    ∀ p ∈ s.positions, p < 2 ^ 35 := by
  induction hr with
  | init hi =>
    obtain ⟨keyBase, iv, rfl⟩ := hi
    rintro p ⟨⟩
  | step _ hs ih =>
    obtain ⟨hG, hs⟩ := hs
    rcases cryptStep_positions hs with hsame | ⟨t, malloc, evp, payload, keyPos, rfl, hpc, hnew⟩
    · rw [hsame]
      exact ih
    · rw [hnew]
      intro p hp
      rcases List.mem_append.mp hp with hp | hp
      · obtain ⟨i, hi, rfl⟩ := List.mem_map.mp hp
        have hlt := List.mem_range.mp hi
        unfold encryptsBelow at hG
        simp only [hpc, Bool.or_eq_true, List.isEmpty_iff, decide_eq_true_eq] at hG
        rcases hG with hempty | hle
        · rw [hempty] at hlt
          exact absurd hlt (Nat.not_lt_zero i)
        · omega
      · exact ih p hp

/--
**Key positions are never reused, and the bytes of the key stream are not either as long as every
payload is encrypted below position `2 ^ 35`.** In every run: the reservations are right, the bytes
are the packet's own exactly if all positions are below `2 ^ 35`, and one of them is used twice
exactly if two positions are a multiple of `2 ^ 36` apart.
-/
theorem cryptKeyStream_neverReused (aes : Block → Equiv.Perm Block) (n : Nat) :
    (∀ s, (cryptLts aes n).Reachable s → KeyPosReserved aes s ∧
      (KeyStreamOwn s ↔ ∀ p ∈ s.positions, p < 2 ^ 35) ∧
      ((s.positions.map (usedByte s.iv)).Nodup ↔ (s.positions.map (· % 2 ^ 36)).Nodup)) ∧
    ∀ s, ((cryptLts aes n).restrict fun s l => encryptsBelow s l = true).Reachable s →
      KeyPosReserved aes s ∧ KeyStreamOwn s := by
  constructor
  · intro s hr
    have h := (cryptInvariant_invariant aes n).reachable hr
    exact ⟨h.reserved, h.keyStreamOwn_iff, nodup_usedByte_iff _ _⟩
  · intro s hr
    have h := (cryptInvariant_invariant aes n).reachable hr.of_restrict
    exact ⟨h.reserved, h.keyStreamOwn_iff.mpr (positions_lt_of_below hr)⟩

/-! ### Two threads, and the end of the counter's range -/

/-- The payload of a feedback state of version 12, all zeros. -/
def zeroPayload : CBuffer := ⟨List.replicate 28 0, by decide⟩

/-- A feedback packet as a run of its thread. -/
def feedbackRun (t : Fin n) : List (CryptLabel n) :=
  [.call t (.feedback zeroPayload), .lock t, .lock t, .check t, .add t, .encrypt t true true, .unlock t]

/-- Thread 1 takes its position while thread 0 has one that it has not used yet. -/
def twoSenders : List (CryptLabel 2) :=
  let t0 : Fin 2 := ⟨0, Nat.two_pos⟩
  let t1 : Fin 2 := ⟨1, Nat.one_lt_two⟩
  [.call t0 (.messageData 100), .lock t0, .check t0, .add t0] ++ feedbackRun t1
    ++ [.lock t0, .unlock t0, .call t1 .congestion, .lock t1, .check t1, .add t1]

theorem twoSenders_run :
    (Lts.runFun (Lts.guarded (cryptStep plainAes) fun s l => encryptsBelow s l = true)
        (cryptInit zeroBlock zeroBlock) twoSenders).map (fun s => (s.reservations, s.positions.length))
      = some ([(144, 15), (100, 44), (0, 100)], 28) := by
  decide +kernel

theorem cryptKeyStream_neverReused_twoSenders : ∃ s : CryptState 2,
    s.reservations = [(144, 15), (100, 44), (0, 100)] ∧ s.positions.length = 28 ∧
      KeyPosReserved plainAes s ∧ KeyStreamOwn s := by
  obtain ⟨s, hrun, hobs⟩ := Option.map_eq_some_iff.mp twoSenders_run
  simp only [Prod.mk.injEq] at hobs
  refine ⟨s, hobs.1, hobs.2, (cryptKeyStream_neverReused plainAes 2).2 s ?_⟩
  exact Lts.Reachable.runGuarded (.init ⟨zeroBlock, zeroBlock, rfl⟩) hrun

/-- A single sender between two packets. -/
def senderIdle (keyPosLocal : Nat) (log : List (CryptEvent 1)) : CryptState 1 :=
  { cryptInit zeroBlock zeroBlock with keyPosLocal := keyPosLocal, log := log }

theorem CryptState.setThread_one (s : CryptState 1) (pc : CryptPc) :
    s.setThread 0 pc = { s with threads := fun _ => pc } := by
  unfold CryptState.setThread
  congr 1
  funext u
  rw [if_pos (Subsingleton.elim u 0)]

theorem takionCryptAdvanceKeyPos_ok {keyPosLocal size : Nat} (h : keyPosLocal + size < 2 ^ 64) :
    takionCryptAdvanceKeyPos (some ()) keyPosLocal size = .ok (keyPosLocal, keyPosLocal + size) :=
  if_neg (by omega)

/-- A data message moves the counter. -/
theorem senderIdle_messageData {keyPosLocal size : Nat} {log : List (CryptEvent 1)}
    (hsize : keyPosLocal + size < 2 ^ 64)
    (hr : (cryptLts plainAes 1).Reachable (senderIdle keyPosLocal log)) :
    (cryptLts plainAes 1).Reachable
      (senderIdle (keyPosLocal + size) (.reserved 0 keyPosLocal size :: log)) := by
  have hrun : Lts.runFun (cryptStep plainAes) (senderIdle keyPosLocal log)
      [.call 0 (.messageData size), .lock 0, .check 0, .add 0, .lock 0, .unlock 0]
        = some (senderIdle (keyPosLocal + size) (.reserved 0 keyPosLocal size :: log)) := by
    simp [Lts.runFun, cryptStep, cryptCall, cryptCheck, cryptAdd, senderIdle, cryptInit, setThread_one,
      emit, unlock, CryptPc.locked, RecMutex.lock, RecMutex.unlock, CryptSend.dataSize,
      takionCryptAdvanceKeyPos_ok hsize]
  exact Lts.Reachable.runFun hr hrun

/-- Any number of data messages of one size. -/
theorem senderIdle_messages {keyPosLocal size : Nat} {log : List (CryptEvent 1)} (count : Nat)
    (hsize : keyPosLocal + count * size < 2 ^ 64)
    (hr : (cryptLts plainAes 1).Reachable (senderIdle keyPosLocal log)) :
    ∃ messages, (cryptLts plainAes 1).Reachable
      (senderIdle (keyPosLocal + count * size) (messages ++ log)) := by
  induction count with
  | zero => exact ⟨[], by simpa using hr⟩
  | succ count ih =>
    rw [Nat.succ_mul, ← Nat.add_assoc] at hsize ⊢
    obtain ⟨messages, hmessages⟩ := ih (by omega)
    exact ⟨_ :: messages, senderIdle_messageData hsize hmessages⟩

/-- What a feedback packet contains, from the beginning of the key stream. -/
def zeroPayloadOut : Bytes :=
  xorBytes zeroPayload.val (usedKeyStream plainAes zeroBlock zeroBlock 16 28)

/-- A feedback packet at the beginning, or where the key stream begins again. -/
theorem senderIdle_feedback {keyPosLocal : Nat} {log : List (CryptEvent 1)}
    (hpos : keyPosLocal = 0 ∨ keyPosLocal = 2 ^ 36)
    (hr : (cryptLts plainAes 1).Reachable (senderIdle keyPosLocal log)) :
    (cryptLts plainAes 1).Reachable (senderIdle (keyPosLocal + 44)
      (.encrypted 0 keyPosLocal zeroPayload.val zeroPayloadOut :: .reserved 0 keyPosLocal 44 :: log)) := by
  have hencrypt : gkcryptDecrypt plainAes zeroBlock zeroBlock true true
      ((keyPosLocal + gkcryptBlockSize) % 2 ^ 64) zeroPayload.val = .ok (.ok zeroPayloadOut) := by
    rcases hpos with rfl | rfl <;> decide +kernel
  simp only [Nat.reducePow] at hencrypt
  have hsize : (CryptSend.feedback zeroPayload).dataSize = 44 := rfl
  have hadvance := @takionCryptAdvanceKeyPos_ok keyPosLocal 44 (by omega)
  have hrun : Lts.runFun (cryptStep plainAes) (senderIdle keyPosLocal log) (feedbackRun 0)
      = some (senderIdle (keyPosLocal + 44) (.encrypted 0 keyPosLocal zeroPayload.val zeroPayloadOut
          :: .reserved 0 keyPosLocal 44 :: log)) := by
    simp [Lts.runFun, feedbackRun, cryptStep, cryptCall, cryptCheck, cryptAdd, cryptEncrypt, senderIdle,
      cryptInit, setThread_one, emit, unlock, CryptPc.locked, RecMutex.lock, RecMutex.unlock, hsize,
      hadvance, hencrypt]
  exact Lts.Reachable.runFun hr hrun

/--
A feedback packet at position 0, data messages up to position `2 ^ 36`, and a feedback packet there:
both payloads are encrypted with the same bytes of the key stream.
-/
theorem not_cryptKeyStream_neverReused : ∃ s : CryptState 1, (cryptLts plainAes 1).Reachable s ∧
    .encrypted 0 0 zeroPayload.val zeroPayloadOut ∈ s.log ∧
    .encrypted 0 (2 ^ 36) zeroPayload.val zeroPayloadOut ∈ s.log ∧
    usedByte s.iv (2 ^ 36 + 16) = usedByte s.iv 16 ∧ ¬ KeyStreamOwn s := by
  have hinit : (cryptLts plainAes 1).Reachable (senderIdle 0 []) := .init ⟨zeroBlock, zeroBlock, rfl⟩
  have hfirst := senderIdle_feedback (.inl rfl) hinit
  have hfill := @senderIdle_messageData _ 4052 _ (by omega) hfirst
  obtain ⟨messages, hmessages⟩ := @senderIdle_messages _ 4096 _ (2 ^ 24 - 1) (by omega) hfill
  have hsecond := senderIdle_feedback (.inr rfl) hmessages
  have hbyte : usedByte zeroBlock (2 ^ 36 + 16) = usedByte zeroBlock 16 :=
    usedByte_eq_iff.mpr (by decide)
  refine ⟨_, hsecond, by simp [senderIdle], List.mem_cons_self, hbyte, ?_⟩
  exact not_keyStreamOwn (show _ ∈ (senderIdle _ (_ :: _)).log from List.mem_cons_self)
    (show 0 < zeroPayload.val.length by decide) (by decide) (by decide)

end Chiaki
