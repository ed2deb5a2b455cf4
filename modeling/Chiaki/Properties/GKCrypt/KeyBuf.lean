import Chiaki.Infra.Ring
import Chiaki.Properties.GKCrypt.UsedStream

/-!
# The ring buffer of the key stream

Every request of `chiaki_gkcrypt_get_key_stream` gets the bytes of the key stream, from the ring
buffer or past it, while the thread moves the buffer and writes its next chunk without the mutex
(`keyBufRight_of_bounded`). The chunk that is written lies behind what is populated, and what is
populated only changes under the mutex; so a copy that is under way reads cells that stay.
-/

namespace Chiaki

open Infra

variable {n : Nat} {aes : Block → Equiv.Perm Block} {keyBase iv : Block}
  {s s' : GKCrypt n} {l : GKCryptLabel n} {keyPos bufSize : Nat}

/-! ## Bytes of the stream -/

/-- The byte of the key stream at a position. -/
def keyStreamByte (aes : Block → Equiv.Perm Block) (keyBase iv : Block) (pos : Nat) : UInt8 :=
  (keyStreamBlock aes keyBase iv (pos / gkcryptBlockSize)).toList.getD (pos % gkcryptBlockSize) 0

def keyStream (aes : Block → Equiv.Perm Block) (keyBase iv : Block) (pos size : Nat) : Bytes :=
  (List.range size).map fun i => keyStreamByte aes keyBase iv (pos + i)

theorem usedKeyStream_succ (pos size : Nat) : usedKeyStream aes keyBase iv pos (size + 1)
    = usedKeyStream aes keyBase iv pos size ++ [usedStreamByte aes keyBase iv (pos + size)] := by
  rw [usedKeyStream, List.range_succ, List.map_append]
  rfl

theorem usedStreamByte_eq {pos : Nat} (hpos : pos < 2 ^ 35) :
    usedStreamByte aes keyBase iv pos = keyStreamByte aes keyBase iv pos := by
  rw [usedStreamByte, (usedByte_eq_streamByte_iff (by omega)).mpr hpos]
  rfl

theorem usedKeyStream_eq (hbound : keyPos + bufSize ≤ 2 ^ 35) :
    usedKeyStream aes keyBase iv keyPos bufSize = keyStream aes keyBase iv keyPos bufSize := by
  refine List.map_congr_left fun i hi => ?_
  exact usedStreamByte_eq (Nat.lt_of_lt_of_le (Nat.add_lt_add_left (List.mem_range.mp hi) _) hbound)

/-! ## The property -/

/-- Requests are for whole blocks, and neither they nor the buffer go past position `2 ^ 35`. -/
def windowBounded (s : GKCrypt n) : GKCryptLabel n → Bool
  | .get _ keyPos bufSize => keyPos % gkcryptBlockSize = 0 && bufSize % gkcryptBlockSize = 0
      && keyPos + bufSize ≤ 2 ^ 35
  | .generate _ =>
    match s.thread with
    | .generating _ keyPos => keyPos + keyBufChunkSize ≤ 2 ^ 35
    | _ => true
  | _ => true

/-- A call returned what direct generation returns, if that succeeds, and nothing but the stream. -/
structure KeyStreamCallOk (aes : Block → Equiv.Perm Block) (keyBase iv : Block)
    (call : KeyStreamCall) : Prop where
  generated : ∀ bytes,
    gkcryptGenKeyStream aes keyBase iv call.evp call.keyPos call.bufSize = .ok (.ok bytes) →
      call.result = .ok bytes
  stream : ∀ bytes, call.result = .ok bytes →
    bytes = keyStream aes keyBase iv call.keyPos call.bufSize

/--
The buffer is populated in whole chunks with the stream from `key_buf_key_pos_min` on, no
assertion has failed, and every call has returned what direct generation returns.
-/
structure KeyBufRight (aes : Block → Equiv.Perm Block) (s : GKCrypt n) : Prop where
  populated_mod : s.keyBufPopulated % keyBufChunkSize = 0
  populated_le : s.keyBufPopulated ≤ s.keyBufSize
  content : ∀ off, off < s.keyBufPopulated →
    s.keyBuf ((s.keyBufStartOffset + off) % s.keyBufSize)
      = keyStreamByte aes s.keyBase s.iv (s.keyBufKeyPosMin + off)
  thread : ∀ f, s.thread ≠ .fault f
  callers : ∀ t f, s.callers t ≠ .fault f
  log : ∀ call ∈ s.log, KeyStreamCallOk aes s.keyBase s.iv call

/-! ## The invariant -/

/-- How far requests go, and how far the buffer goes; and what is requested past the buffer is smaller
than `direct`. -/
structure KeyBufLimits where
  last : Nat
  window : Nat
  direct : Nat
  last_mod : last % keyBufChunkSize = 0
  last_le : last ≤ window
  window_lt : window < 2 ^ 64

/-- The request is served from the buffer. -/
def GKCrypt.inKeyBuf (s : GKCrypt n) (keyPos bufSize : Nat) : Prop :=
  s.keyBufKeyPosMin ≤ keyPos ∧
    (keyPos + bufSize) % 2 ^ 64 < (s.keyBufKeyPosMin + s.keyBufPopulated) % 2 ^ 64

/-- Requests are for whole blocks and within the limits, and so is the next chunk. -/
def KeyBufLimits.Within (L : KeyBufLimits) (s : GKCrypt n) : GKCryptLabel n → Prop
  | .get _ keyPos bufSize => keyPos % gkcryptBlockSize = 0 ∧ bufSize % gkcryptBlockSize = 0 ∧
      keyPos + bufSize ≤ L.last ∧ (bufSize < L.direct ∨ s.inKeyBuf keyPos bufSize)
  | .generate _ => ∀ bufOffset keyPos, s.thread = .generating bufOffset keyPos →
      keyPos + keyBufChunkSize ≤ L.window
  | _ => True

/-- A call returned what is generated, or OpenSSL failed. -/
structure KeyBufCallOk (L : KeyBufLimits) (aes : Block → Equiv.Perm Block) (keyBase iv : Block)
    (call : KeyStreamCall) : Prop where
  pos_mod : call.keyPos % gkcryptBlockSize = 0
  size_mod : call.bufSize % gkcryptBlockSize = 0
  bound : call.keyPos + call.bufSize ≤ L.last
  result : call.result = .ok (usedKeyStream aes keyBase iv call.keyPos call.bufSize) ∨
    call.result = .error .unknown ∧
      (call.evp = false ∨ 2 ^ 31 ≤ call.bufSize ∧ call.bufSize < L.direct)

/-- What the mutex protects, but for the content of the buffer and `last_key_pos`. -/
structure KeyBufView where
  keyBase : Block
  iv : Block
  size : Nat
  populated : Nat
  min : Nat
  start : Nat

def GKCrypt.view (s : GKCrypt n) : KeyBufView where
  keyBase := s.keyBase
  iv := s.iv
  size := s.keyBufSize
  populated := s.keyBufPopulated
  min := s.keyBufKeyPosMin
  start := s.keyBufStartOffset

variable {v v' : KeyBufView} {L : KeyBufLimits}

/-- The cell that the next chunk begins at. -/
def KeyBufView.next (v : KeyBufView) : Nat := (v.start + v.populated) % v.size

/-- Everything is whole chunks, and nothing overflows. -/
structure KeyBufShape (L : KeyBufLimits) (v : KeyBufView) : Prop where
  size_mod : v.size % keyBufChunkSize = 0
  size_pos : 0 < v.size
  size_lt : v.size < 2 ^ 63
  populated_mod : v.populated % keyBufChunkSize = 0
  populated_le : v.populated ≤ v.size
  start_mod : v.start % keyBufChunkSize = 0
  start_lt : v.start < v.size
  min_mod : v.min % keyBufChunkSize = 0
  min_le : v.min ≤ L.last
  window : v.min + v.populated ≤ L.window

/-- What the thread relies on where it stands. -/
def KeyBufThreadOk (L : KeyBufLimits) (aes : Block → Equiv.Perm Block) (v : KeyBufView)
    (keyBuf : Nat → UInt8) : KeyBufThreadPc → Prop
  | .generating bufOffset keyPos => v.populated + keyBufChunkSize ≤ v.size ∧
      bufOffset = v.next ∧ keyPos = v.min + v.populated
  | .generated err => v.populated + keyBufChunkSize ≤ v.size ∧
      (err = .success → v.min + v.populated + keyBufChunkSize ≤ L.window ∧
        ∀ i, i < keyBufChunkSize →
          keyBuf (v.next + i) = usedStreamByte aes v.keyBase v.iv (v.min + v.populated + i))
  | .fault _ => False
  | _ => True

/-- What a caller relies on where it stands. -/
def KeyStreamOk (L : KeyBufLimits) (aes : Block → Equiv.Perm Block) (v : KeyBufView) :
    KeyStreamPc → Prop
  | .idle => True
  | .direct keyPos bufSize => keyPos % gkcryptBlockSize = 0 ∧ bufSize % gkcryptBlockSize = 0 ∧
      keyPos + bufSize ≤ L.last ∧ bufSize < L.direct
  | .copying keyPos bufSize offsetInBuf buf =>
      keyPos % gkcryptBlockSize = 0 ∧ bufSize % gkcryptBlockSize = 0 ∧
      keyPos + bufSize ≤ L.last ∧ v.min ≤ keyPos ∧ keyPos + bufSize < v.min + v.populated ∧
      offsetInBuf = (v.start + (keyPos - v.min)) % v.size ∧
      buf.length ≤ bufSize ∧ buf = usedKeyStream aes v.keyBase v.iv keyPos buf.length
  | .fault _ => False

/-- The caller holds the mutex. -/
def KeyStreamPc.isCopying : KeyStreamPc → Bool
  | .copying .. => true
  | _ => false

structure KeyBufInvariant (L : KeyBufLimits) (aes : Block → Equiv.Perm Block) (s : GKCrypt n) :
    Prop where
  shape : KeyBufShape L s.view
  last : s.lastKeyPos ≤ L.last
  content : Ring.Holds s.keyBuf s.view.size s.view.start s.view.populated
    (usedStreamByte aes s.view.keyBase s.view.iv) s.view.min
  thread : KeyBufThreadOk L aes s.view s.keyBuf s.thread
  callers : ∀ t, KeyStreamOk L aes s.view (s.callers t)
  loop : s.thread = .loop → s.mutexLocked = true
  copying : ∀ t, (s.callers t).isCopying = true → s.mutexLocked = true ∧ s.thread ≠ .loop ∧
    ∀ u, (s.callers u).isCopying = true → u = t
  log : ∀ call ∈ s.log, KeyBufCallOk L aes s.keyBase s.iv call

/-! ### Chunks -/

/-- Between multiples of the chunk size there is room for a chunk. -/
theorem chunk_le {a b : Nat} (ha : a % keyBufChunkSize = 0) (hb : b % keyBufChunkSize = 0)
    (h : a < b) : a + keyBufChunkSize ≤ b := by
  unfold keyBufChunkSize at *
  omega

theorem block_of_chunk {a : Nat} (h : a % keyBufChunkSize = 0) : a % gkcryptBlockSize = 0 := by
  unfold keyBufChunkSize at h
  unfold gkcryptBlockSize
  omega

theorem add_chunk_mod {a b : Nat} (ha : a % keyBufChunkSize = 0) (hb : b % keyBufChunkSize = 0) :
    (a + b) % keyBufChunkSize = 0 := by
  rw [Nat.add_mod, ha, hb]
  rfl

theorem next_chunk_mod {a : Nat} (ha : a % keyBufChunkSize = 0) :
    (a + keyBufChunkSize) % keyBufChunkSize = 0 := by
  rw [Nat.add_mod_right, ha]

theorem mod_chunk_mod {a b : Nat} (ha : a % keyBufChunkSize = 0) (hb : b % keyBufChunkSize = 0) :
    a % b % keyBufChunkSize = 0 := by
  rw [Nat.mod_mod_of_dvd _ (Nat.dvd_of_mod_eq_zero hb), ha]

theorem KeyBufShape.next_fits (h : KeyBufShape L v) : v.next + keyBufChunkSize ≤ v.size :=
  chunk_le (mod_chunk_mod (add_chunk_mod h.start_mod h.populated_mod) h.size_mod) h.size_mod
    (Nat.mod_lt _ h.size_pos)

/-- Who does not copy does not care where the buffer is. -/
theorem KeyStreamOk.of_not_copying {pc : KeyStreamPc} (h : KeyStreamOk L aes v pc)
    (hpc : pc.isCopying = false) : KeyStreamOk L aes v' pc := by
  cases pc with
  | copying => cases hpc
  | idle => exact h
  | direct => exact h
  | fault => exact h

/-- While the mutex is free, or the thread has it, nobody copies. -/
theorem KeyBufInvariant.not_copying (h : KeyBufInvariant L aes s)
    (hfree : s.mutexLocked = false ∨ s.thread = .loop) (t : Fin n) :
    (s.callers t).isCopying = false := by
  cases hc : (s.callers t).isCopying with
  | false => rfl
  | true =>
    obtain ⟨hlocked, hloop, -⟩ := h.copying t hc
    rcases hfree with hfree | hfree
    · rw [hlocked] at hfree
      cases hfree
    · exact absurd hfree hloop

/-! ### The thread -/

/-- The thread moves on, and keeps what the mutex protects. -/
theorem KeyBufInvariant.of_thread (h : KeyBufInvariant L aes s) {pc : KeyBufThreadPc} {locked : Bool}
    (hpc : KeyBufThreadOk L aes s.view s.keyBuf pc)
    (hnone : ∀ t, (s.callers t).isCopying = false) (hloop : pc = .loop → locked = true) :
    KeyBufInvariant L aes { s with mutexLocked := locked, thread := pc } where
  shape := h.shape
  last := h.last
  content := h.content
  thread := hpc
  callers := h.callers
  loop := hloop
  copying := fun t ht => by
    have := hnone t
    rw [show (s.callers t).isCopying = true from ht] at this
    cases this
  log := h.log

theorem KeyBufInvariant.lock (h : KeyBufInvariant L aes s) (hs : keyBufLock s = some s') :
    KeyBufInvariant L aes s' := by
  unfold keyBufLock at hs
  split at hs
  · cases hs
  · next hfree =>
    have hnone := h.not_copying (Or.inl (Bool.not_eq_true _ ▸ hfree))
    have hthread := h.thread
    split at hs
    · cases hs
      exact h.of_thread trivial hnone fun _ => rfl
    · -- the chunk becomes part of the contents
      next hpc =>
      cases hs
      rw [hpc] at hthread
      obtain ⟨hfit, hsuccess⟩ := hthread
      obtain ⟨hwindow, hchunk⟩ := hsuccess rfl
      have hsize : s.keyBufSize < 2 ^ 63 := h.shape.size_lt
      replace hfit : s.keyBufPopulated + keyBufChunkSize ≤ s.keyBufSize := hfit
      rw [Nat.mod_eq_of_lt (show s.keyBufPopulated + keyBufChunkSize < 2 ^ 64 by omega)]
      rw [Nat.add_assoc] at hwindow
      have hcontent := h.content.append h.shape.next_fits hchunk
      refine ⟨?_, h.last, hcontent, trivial, ?_, fun _ => rfl, ?_, h.log⟩
      · exact ⟨h.shape.size_mod, h.shape.size_pos, hsize,
          next_chunk_mod h.shape.populated_mod, hfit, h.shape.start_mod, h.shape.start_lt,
          h.shape.min_mod, h.shape.min_le, hwindow⟩
      · exact fun t => (h.callers t).of_not_copying (hnone t)
      · intro t ht
        rw [show (s.callers t).isCopying = false from hnone t] at ht
        cases ht
    · cases hs
      exact h.of_thread trivial hnone fun hc => by cases hc
    · cases hs

/-- Skipping ahead or giving up the oldest chunk makes room for the next one. The oldest chunk is only
given up when a request went past the middle of the buffer. -/
theorem gkcryptAdvance_shape (h : KeyBufInvariant L aes s)
    (hdue : s.keyBufPopulated < s.keyBufSize ∨ gkcryptKeyBufShouldGenerate s = true) :
    KeyBufShape L (gkcryptAdvance s).view ∧
      Ring.Holds s.keyBuf (gkcryptAdvance s).view.size (gkcryptAdvance s).view.start
        (gkcryptAdvance s).view.populated (usedStreamByte aes s.keyBase s.iv)
        (gkcryptAdvance s).view.min ∧
      (gkcryptAdvance s).keyBufPopulated + keyBufChunkSize ≤ (gkcryptAdvance s).keyBufSize := by
  obtain ⟨hsizemod, hpos, hsize, hpopmod, hpople, hstartmod, hstart, hminmod, hminle, hwindow⟩ := h.shape
  have hlast := h.last
  have hlimit := L.window_lt
  simp only [GKCrypt.view] at hsizemod hpos hsize hpopmod hpople hstartmod hstart hminmod hminle hwindow
  unfold gkcryptAdvance
  rw [Nat.mod_eq_of_lt (show s.keyBufKeyPosMin + s.keyBufPopulated < 2 ^ 64 by omega)]
  split
  · -- nothing that is in the buffer is needed any more
    have hdiv := Nat.div_mul_le_self s.lastKeyPos keyBufChunkSize
    refine ⟨⟨hsizemod, hpos, hsize, Nat.zero_mod _, Nat.zero_le _, Nat.zero_mod _, hpos,
      Nat.mul_mod_left _ _, ?_, ?_⟩, Ring.holds_zero _ _ _ _ _, ?_⟩
    · exact Nat.le_trans hdiv hlast
    · rw [← Nat.add_zero (s.lastKeyPos / keyBufChunkSize * keyBufChunkSize)] at hdiv
      exact Nat.le_trans hdiv (Nat.le_trans hlast L.last_le)
    · exact chunk_le (Nat.zero_mod _) hsizemod hpos
  · split
    · next hfull =>
      have hle : keyBufChunkSize ≤ s.keyBufPopulated := by
        rw [hfull, ← Nat.zero_add keyBufChunkSize]
        exact chunk_le (Nat.zero_mod _) hsizemod hpos
      -- a full buffer is only moved when a request went past its middle
      have hneeded : s.keyBufKeyPosMin < L.last := by
        rcases hdue with hlt | hgen
        · omega
        · rw [gkcryptKeyBufShouldGenerate, Nat.mod_eq_of_lt (by omega), decide_eq_true_eq] at hgen
          omega
      have hmin : s.keyBufKeyPosMin + keyBufChunkSize ≤ L.last := chunk_le hminmod L.last_mod hneeded
      have hlastle := L.last_le
      have hsum : s.keyBufStartOffset + keyBufChunkSize < 2 ^ 64 := by
        rw [hfull] at hle
        omega
      rw [Nat.mod_eq_of_lt hsum,
        Nat.mod_eq_of_lt (show s.keyBufKeyPosMin + keyBufChunkSize < 2 ^ 64 by omega)]
      refine ⟨⟨hsizemod, hpos, hsize, ?_, ?_, ?_, Nat.mod_lt _ hpos, ?_, hmin, ?_⟩, ?_, ?_⟩
      · show (s.keyBufPopulated - keyBufChunkSize) % keyBufChunkSize = 0
        rw [← Nat.mod_eq_sub_mod hle, hpopmod]
      · exact Nat.le_trans (Nat.sub_le _ _) hpople
      · exact mod_chunk_mod (next_chunk_mod hstartmod) hsizemod
      · exact next_chunk_mod hminmod
      · show s.keyBufKeyPosMin + keyBufChunkSize + (s.keyBufPopulated - keyBufChunkSize) ≤ L.window
        omega
      · have hadvance := h.content.advance hle
        simp only [GKCrypt.view] at hadvance ⊢
        exact hadvance
      · show s.keyBufPopulated - keyBufChunkSize + keyBufChunkSize ≤ s.keyBufSize
        omega
    · next hfull =>
      refine ⟨⟨hsizemod, hpos, hsize, hpopmod, hpople, hstartmod, hstart, hminmod, hminle, hwindow⟩,
        h.content, ?_⟩
      exact chunk_le hpopmod hsizemod (Nat.lt_of_le_of_ne hpople hfull)

theorem gkcryptAdvance_frame (s : GKCrypt n) :
    gkcryptAdvance s = { s with
      keyBufKeyPosMin := (gkcryptAdvance s).keyBufKeyPosMin
      keyBufStartOffset := (gkcryptAdvance s).keyBufStartOffset
      keyBufPopulated := (gkcryptAdvance s).keyBufPopulated } := by
  unfold gkcryptAdvance
  split
  · rfl
  · split <;> rfl

theorem KeyBufInvariant.threadLoop (h : KeyBufInvariant L aes s) (hpc : s.thread = .loop)
    (condOk : Bool) : KeyBufInvariant L aes (gkcryptThreadLoop s condOk) := by
  have hnone := h.not_copying (Or.inr hpc)
  unfold gkcryptThreadLoop
  split
  · split
    · exact h.of_thread trivial hnone fun hc => by cases hc
    · exact h.of_thread trivial hnone fun hc => by cases hc
  · next hpred =>
    split
    · exact h.of_thread trivial hnone fun hc => by cases hc
    · next hstop =>
      have hdue : s.keyBufPopulated < s.keyBufSize ∨ gkcryptKeyBufShouldGenerate s = true := by
        rw [or_iff_not_imp_left]
        simpa [keyBufMutexPred, hstop] using hpred
      obtain ⟨hshape, hcontent, hfit⟩ := gkcryptAdvance_shape h hdue
      have hframe := gkcryptAdvance_frame s
      generalize gkcryptAdvance s = a at hshape hcontent hfit hframe
      have hsize : a.keyBufSize < 2 ^ 63 := hshape.size_lt
      have hstart : a.keyBufStartOffset < a.keyBufSize := hshape.start_lt
      have hpop : a.keyBufPopulated ≤ a.keyBufSize := hshape.populated_le
      have hwindow : a.keyBufKeyPosMin + a.keyBufPopulated ≤ L.window := hshape.window
      have hlimit := L.window_lt
      unfold gkcryptGenerateNextChunk
      rw [Nat.mod_eq_of_lt (show a.keyBufPopulated + keyBufChunkSize < 2 ^ 64 by omega),
        if_neg (Nat.not_lt.mpr hfit),
        Nat.mod_eq_of_lt (show a.keyBufStartOffset + a.keyBufPopulated < 2 ^ 64 by omega),
        Nat.mod_eq_of_lt (show a.keyBufKeyPosMin + a.keyBufPopulated < 2 ^ 64 by omega)]
      have hnone' : ∀ t, (a.callers t).isCopying = false := by
        rw [hframe]
        exact hnone
      have ha : KeyBufInvariant L aes { a with mutexLocked := false, thread := .wait } := by
        refine ⟨hshape, ?_, ?_, trivial, ?_, fun hc => absurd hc (by simp), ?_, ?_⟩
        · rw [hframe]
          exact h.last
        · have hbuf : a.keyBuf = s.keyBuf := by rw [hframe]
          have hbase : a.keyBase = s.keyBase := by rw [hframe]
          have hiv : a.iv = s.iv := by rw [hframe]
          show Ring.Holds a.keyBuf _ _ _ (usedStreamByte aes a.keyBase a.iv) _
          rw [hbuf, hbase, hiv]
          exact hcontent
        · intro t
          refine KeyStreamOk.of_not_copying (v := s.view) ?_ (hnone' t)
          rw [hframe]
          exact h.callers t
        · intro t ht
          rw [show (a.callers t).isCopying = false from hnone' t] at ht
          cases ht
        · rw [hframe]
          exact h.log
      exact ha.of_thread ⟨hfit, rfl, rfl⟩ hnone' fun hc => by cases hc

/-- The chunk that is generated is written, in whatever way. -/
theorem KeyBufInvariant.of_chunk (h : KeyBufInvariant L aes s) {bufOffset keyPos : Nat}
    (hpc : s.thread = .generating bufOffset keyPos) {keyBuf : Nat → UInt8} {pc : KeyBufThreadPc}
    (hsame : ∀ j, (∀ i, i < keyBufChunkSize → j ≠ bufOffset + i) → keyBuf j = s.keyBuf j)
    (hok : KeyBufThreadOk L aes s.view keyBuf pc) (hloop : pc ≠ .loop) :
    KeyBufInvariant L aes { s with keyBuf := keyBuf, thread := pc } := by
  have hthread := h.thread
  rw [hpc] at hthread
  obtain ⟨hfit, hoff, -⟩ := hthread
  rw [hoff] at hsame
  exact ⟨h.shape, h.last, h.content.of_free hfit h.shape.next_fits hsame, hok, h.callers,
    fun hc => absurd hc hloop, fun t ht => ⟨(h.copying t ht).1, hloop, (h.copying t ht).2.2⟩, h.log⟩

theorem KeyBufInvariant.generate (h : KeyBufInvariant L aes s) {bufOffset keyPos : Nat}
    (hpc : s.thread = .generating bufOffset keyPos) (hbound : keyPos + keyBufChunkSize ≤ L.window)
    (evp : Bool) : KeyBufInvariant L aes (keyBufGenerate aes s bufOffset keyPos evp) := by
  have hthread := h.thread
  rw [hpc] at hthread
  obtain ⟨hfit, hoff, hkey⟩ := hthread
  have hpos : keyPos % gkcryptBlockSize = 0 := by
    rw [hkey]
    exact block_of_chunk (add_chunk_mod h.shape.min_mod h.shape.populated_mod)
  have hsize : keyBufChunkSize % gkcryptBlockSize = 0 := rfl
  unfold keyBufGenerate
  cases evp with
  | false =>
    have hgen : gkcryptGenKeyStream aes s.keyBase s.iv false keyPos keyBufChunkSize
        = .ok (.error .unknown) := by
      unfold gkcryptGenKeyStream
      rw [if_neg (by simpa using hpos), if_neg (by simpa using hsize)]
      rfl
    rw [hgen]
    exact h.of_chunk hpc (fun _ _ => rfl) ⟨hfit, fun hc => (by cases hc)⟩ (by simp)
  | true =>
    rw [gkcryptGenKeyStream_used hpos hsize, if_pos (by decide)]
    refine h.of_chunk hpc (fun j hj => if_neg fun hin => ?_) ⟨hfit, fun _ => ⟨?_, fun i hi => ?_⟩⟩ (by simp)
    · exact hj (j - bufOffset) (by omega) (by omega)
    · rw [← hkey]
      exact hbound
    · rw [← hoff, ← hkey]
      simp only
      rw [if_pos ⟨Nat.le_add_right _ _, Nat.add_lt_add_left hi _⟩, Nat.add_sub_cancel_left,
        usedKeyStream, List.getD_eq_getElem?_getD, List.getElem?_map, List.getElem?_range hi]
      rfl

/-! ### The callers -/

/-- A caller that has the mutex, or does not take it, goes on. -/
theorem KeyBufInvariant.of_caller (h : KeyBufInvariant L aes s) {t : Fin n} {pc : KeyStreamPc}
    (hok : KeyStreamOk L aes s.view pc)
    (hcopy : pc.isCopying = true → (s.callers t).isCopying = true) :
    KeyBufInvariant L aes (s.setCaller t pc) where
  shape := h.shape
  last := h.last
  content := h.content
  thread := h.thread
  callers := fun u => by
    show KeyStreamOk L aes s.view (if u = t then pc else s.callers u)
    split
    · exact hok
    · exact h.callers u
  loop := h.loop
  copying := by
    have hold : ∀ u, ((s.setCaller t pc).callers u).isCopying = true →
        (s.callers u).isCopying = true := by
      intro u hu
      by_cases hut : u = t
      · subst hut
        exact hcopy (by simpa [GKCrypt.setCaller] using hu)
      · simpa [GKCrypt.setCaller, hut] using hu
    intro u hu
    obtain ⟨hlocked, hloop, honly⟩ := h.copying u (hold u hu)
    exact ⟨hlocked, hloop, fun w hw => honly w (hold w hw)⟩
  log := h.log

/-- A call returns, and the mutex is free if the caller had it. -/
theorem KeyBufInvariant.return (h : KeyBufInvariant L aes s) {t : Fin n} {locked : Bool}
    {call : KeyStreamCall} (hcall : KeyBufCallOk L aes s.keyBase s.iv call)
    (hlocked : locked = s.mutexLocked ∨ (s.callers t).isCopying = true) :
    KeyBufInvariant L aes ({ s with mutexLocked := locked }.return t call) := by
  -- who else copies, or has the mutex, is as before
  have hother : ∀ u, (({ s with mutexLocked := locked }.return t call).callers u).isCopying = true →
      u ≠ t ∧ (s.callers u).isCopying = true := by
    intro u hu
    by_cases hut : u = t
    · simp [GKCrypt.return, GKCrypt.setCaller, hut, KeyStreamPc.isCopying] at hu
    · exact ⟨hut, by simpa [GKCrypt.return, GKCrypt.setCaller, hut] using hu⟩
  refine ⟨h.shape, h.last, h.content, h.thread, fun u => ?_, fun hloop => ?_, fun u hu => ?_, ?_⟩
  · show KeyStreamOk L aes s.view (if u = t then .idle else s.callers u)
    split
    · trivial
    · exact h.callers u
  · show locked = true
    rcases hlocked with hlocked | hcopy
    · rw [hlocked]
      exact h.loop hloop
    · exact absurd hloop (h.copying t hcopy).2.1
  · obtain ⟨hut, hu⟩ := hother u hu
    obtain ⟨hmutex, hloop, honly⟩ := h.copying u hu
    refine ⟨?_, hloop, fun w hw => honly w (hother w hw).2⟩
    show locked = true
    rcases hlocked with hlocked | hcopy
    · rw [hlocked, hmutex]
    · exact absurd (honly t hcopy).symm hut
  · intro c hc
    rcases List.mem_cons.mp hc with rfl | hc
    · exact hcall
    · exact h.log c hc

theorem KeyBufInvariant.get (h : KeyBufInvariant L aes s) (hfree : s.mutexLocked = false) {t : Fin n}
    (hpos : keyPos % gkcryptBlockSize = 0)
    (hsize : bufSize % gkcryptBlockSize = 0) (hbound : keyPos + bufSize ≤ L.last)
    (hdirect : bufSize < L.direct ∨ s.inKeyBuf keyPos bufSize) :
    KeyBufInvariant L aes (gkcryptGetKeyStream s t keyPos bufSize) := by
  have hnone := h.not_copying (Or.inl hfree)
  have hwindow : s.keyBufKeyPosMin + s.keyBufPopulated ≤ L.window := h.shape.window
  have hlimit := L.window_lt
  have hlastle := L.last_le
  have hpople : s.keyBufPopulated ≤ s.keyBufSize := h.shape.populated_le
  have hstart : s.keyBufStartOffset < s.keyBufSize := h.shape.start_lt
  have hsizelt : s.keyBufSize < 2 ^ 63 := h.shape.size_lt
  unfold GKCrypt.inKeyBuf at hdirect
  unfold gkcryptGetKeyStream
  simp only
  rw [Nat.mod_eq_of_lt (show keyPos + bufSize < 2 ^ 64 by omega),
    Nat.mod_eq_of_lt (show s.keyBufKeyPosMin + s.keyBufPopulated < 2 ^ 64 by omega)] at hdirect
  rw [Nat.mod_eq_of_lt (show keyPos + bufSize < 2 ^ 64 by omega),
    Nat.mod_eq_of_lt (show s.keyBufKeyPosMin + s.keyBufPopulated < 2 ^ 64 by omega)]
  have hlast : (if keyPos + bufSize > s.lastKeyPos then keyPos + bufSize else s.lastKeyPos) ≤ L.last := by
    split
    · exact hbound
    · exact h.last
  generalize (if keyPos + bufSize > s.lastKeyPos then keyPos + bufSize else s.lastKeyPos) = last at hlast ⊢
  have h1 : KeyBufInvariant L aes { s with lastKeyPos := last } :=
    ⟨h.shape, hlast, h.content, h.thread, h.callers, h.loop, h.copying, h.log⟩
  split
  · next hout =>
    exact h1.of_caller ⟨hpos, hsize, hbound, by omega⟩ fun hc => by cases hc
  · next hin =>
    rw [not_or, Nat.not_lt, Nat.not_le] at hin
    rw [Nat.mod_eq_of_lt (show keyPos - s.keyBufKeyPosMin + s.keyBufStartOffset < 2 ^ 64 by omega)]
    refine ⟨h.shape, hlast, h.content, h.thread, fun u => ?_, fun _ => rfl, fun u hu => ?_, h.log⟩
    · show KeyStreamOk L aes s.view (if u = t then _ else s.callers u)
      split
      · exact ⟨hpos, hsize, hbound, hin.1, hin.2, by rw [Nat.add_comm]; rfl, Nat.zero_le _, rfl⟩
      · exact h.callers u
    · -- nobody else has the mutex
      have honly : ∀ w pc, ((s.setCaller t pc).callers w).isCopying = true → w = t := by
        intro w pc hw
        by_contra hwt
        have hcopy : (s.callers w).isCopying = true := by
          simpa [GKCrypt.setCaller, hwt] using hw
        rw [hnone w] at hcopy
        cases hcopy
      have hut := honly u _ hu
      refine ⟨rfl, fun hloop => ?_, fun w hw => (honly w _ hw).trans hut.symm⟩
      rw [h.loop hloop] at hfree
      cases hfree

/-- The bytes come from one turn around the ring. -/
theorem keyBufSource_eq {offsetInBuf i : Nat} (hsize : s.keyBufSize < 2 ^ 63)
    (hoff : offsetInBuf < s.keyBufSize) (hfit : bufSize ≤ s.keyBufSize) (hi : i < bufSize) :
    keyBufSource s bufSize offsetInBuf i = (offsetInBuf + i) % s.keyBufSize := by
  unfold keyBufSource
  simp only
  rw [Nat.mod_eq_of_lt (show offsetInBuf + bufSize < 2 ^ 64 by omega)]
  split
  · next hwrap =>
    rw [Nat.mod_eq_sub_mod (by omega), Nat.mod_eq_of_lt (by omega)]
    omega
  · next hwrap =>
    rw [Nat.mod_eq_of_lt (by omega)]

theorem KeyBufInvariant.copy (h : KeyBufInvariant L aes s) {t : Fin n} {offsetInBuf : Nat} {buf : Bytes}
    (hpc : s.callers t = .copying keyPos bufSize offsetInBuf buf) :
    KeyBufInvariant L aes (keyBufCopy s t keyPos bufSize offsetInBuf buf) := by
  have hcaller := h.callers t
  rw [hpc] at hcaller
  obtain ⟨hpos, hsize, hbound, hmin, hend, hoff, hlen, hbuf⟩ := hcaller
  have hcopy : (s.callers t).isCopying = true := by rw [hpc]; rfl
  have hpop : s.view.populated ≤ s.view.size := h.shape.populated_le
  unfold keyBufCopy
  split
  · next hmore =>
    -- the next byte is in the part of the ring that is populated
    have hoffset : keyPos - s.view.min + buf.length < s.view.populated := by omega
    have hsource : keyBufSource s bufSize offsetInBuf buf.length
        = (s.view.start + (keyPos - s.view.min + buf.length)) % s.view.size := by
      have hofflt : offsetInBuf < s.keyBufSize := by
        rw [hoff]
        exact Nat.mod_lt _ h.shape.size_pos
      have hfit : bufSize ≤ s.keyBufSize := by
        show bufSize ≤ s.view.size
        omega
      rw [keyBufSource_eq h.shape.size_lt hofflt hfit hmore, hoff, ← Nat.add_assoc]
      exact Nat.mod_add_mod _ _ _
    have hbyte : s.keyBuf (keyBufSource s bufSize offsetInBuf buf.length)
        = usedStreamByte aes s.view.keyBase s.view.iv (keyPos + buf.length) := by
      rw [hsource, h.content _ hoffset]
      congr 1
      omega
    have hin : keyBufSource s bufSize offsetInBuf buf.length < s.keyBufSize := by
      rw [hsource]
      exact Nat.mod_lt _ h.shape.size_pos
    simp only [if_pos hin]
    refine h.of_caller ⟨hpos, hsize, hbound, hmin, hend, hoff, ?_, ?_⟩ fun _ => hcopy
    · rw [List.length_append]
      exact hmore
    · rw [List.length_append, List.length_singleton, usedKeyStream_succ, ← hbuf, hbyte]
  · next hdone =>
    have hfull : buf.length = bufSize := by omega
    rw [hfull] at hbuf
    exact h.return ⟨hpos, hsize, hbound, Or.inl (congrArg Except.ok hbuf)⟩ (Or.inr hcopy)

theorem KeyBufInvariant.direct (h : KeyBufInvariant L aes s) {t : Fin n}
    (hpc : s.callers t = .direct keyPos bufSize) (evp : Bool) :
    KeyBufInvariant L aes (keyBufDirect aes s t keyPos bufSize evp) := by
  have hcaller := h.callers t
  rw [hpc] at hcaller
  obtain ⟨hpos, hsize, hbound, hdirect⟩ := hcaller
  unfold keyBufDirect
  cases hgen : gkcryptGenKeyStream aes s.keyBase s.iv evp keyPos bufSize with
  | error f =>
    -- only a position or a size that is not aligned fails
    unfold gkcryptGenKeyStream at hgen
    rw [if_neg (by simpa using hpos), if_neg (by simpa using hsize)] at hgen
    split at hgen
    · cases hgen
    · simp only at hgen
      split at hgen <;> cases hgen
  | ok result =>
    simp only
    have hlocked : s.mutexLocked = s.mutexLocked ∨ (s.callers t).isCopying = true := Or.inl rfl
    refine h.return ⟨hpos, hsize, hbound, ?_⟩ hlocked
    cases evp with
    | false =>
      unfold gkcryptGenKeyStream at hgen
      rw [if_neg (by simpa using hpos), if_neg (by simpa using hsize)] at hgen
      cases hgen
      exact Or.inr ⟨rfl, Or.inl rfl⟩
    | true =>
      rw [gkcryptGenKeyStream_used hpos hsize] at hgen
      split at hgen
      · cases hgen
        exact Or.inl rfl
      · next hbig =>
        cases hgen
        exact Or.inr ⟨rfl, Or.inr ⟨Nat.not_lt.mp hbig, hdirect⟩⟩

/-! ## Every run -/

theorem keyBufInvariant_init (h : GKCryptInitial s) : KeyBufInvariant L aes s := by
  obtain ⟨keyBufChunks, keyBuf, keyBase, iv, hchunks, hsize, rfl⟩ := h
  have hmod : keyBufChunks * keyBufChunkSize % 2 ^ 64 = keyBufChunks * keyBufChunkSize :=
    Nat.mod_eq_of_lt (by omega)
  have hpos : 0 < keyBufChunks * keyBufChunkSize := Nat.mul_pos hchunks (by decide)
  refine ⟨?_, Nat.zero_le _, Ring.holds_zero _ _ _ _ _, trivial, fun _ => trivial, fun hc => (by cases hc),
    fun t ht => (by cases ht), fun c hc => (by cases hc)⟩
  have hview : (gkcryptInit keyBufChunks keyBuf keyBase iv : GKCrypt n).view
      = ⟨keyBase, iv, keyBufChunks * keyBufChunkSize, 0, 0, 0⟩ := by
    unfold gkcryptInit GKCrypt.view
    rw [hmod]
  rw [hview]
  exact ⟨Nat.mul_mod_left _ _, hpos, hsize, Nat.zero_mod _, Nat.zero_le _, Nat.zero_mod _, hpos,
    Nat.zero_mod _, Nat.zero_le _, Nat.zero_le _⟩

theorem keyBufInvariant_step (h : KeyBufInvariant L aes s) (hG : L.Within s l)
    (hs : (gkcryptLts aes n).step s l s') : KeyBufInvariant L aes s' := by
  replace hs : gkcryptStep aes s l = some s' := hs
  cases l with
  | lock => exact h.lock hs
  | loop condOk =>
    simp only [gkcryptStep] at hs
    split at hs
    · next hpc =>
      cases hs
      exact h.threadLoop hpc condOk
    · cases hs
  | scribble i b =>
    simp only [gkcryptStep] at hs
    split at hs
    · next bufOffset pos hpc =>
      split at hs
      · next hi =>
        cases hs
        have hthread : KeyBufThreadOk L aes s.view (fun j => if j = bufOffset + i then b else s.keyBuf j)
            (.generating bufOffset pos) := by
          have hthread := h.thread
          rw [hpc] at hthread
          exact hthread
        have hsame : ∀ j, (∀ i, i < keyBufChunkSize → j ≠ bufOffset + i) →
            (if j = bufOffset + i then b else s.keyBuf j) = s.keyBuf j :=
          fun j hj => if_neg (hj i hi)
        have hchunk := h.of_chunk hpc hsame hthread KeyBufThreadPc.noConfusion
        rw [← hpc] at hchunk
        exact hchunk
      · cases hs
    · cases hs
  | generate evp =>
    simp only [gkcryptStep] at hs
    split at hs
    · next bufOffset pos hpc =>
      cases hs
      exact h.generate hpc (hG bufOffset pos hpc) evp
    · cases hs
  | get t pos size =>
    obtain ⟨hpos, hsize, hbound, hdirect⟩ := hG
    simp only [gkcryptStep] at hs
    split at hs
    · next hfree _ =>
      cases hs
      exact h.get hfree hpos hsize hbound hdirect
    · cases hs
  | copy t =>
    simp only [gkcryptStep] at hs
    split at hs
    · next hpc =>
      cases hs
      exact h.copy hpc
    · cases hs
  | direct t evp =>
    simp only [gkcryptStep] at hs
    split at hs
    · next hpc =>
      cases hs
      exact h.direct hpc evp
    · cases hs
  | fini =>
    simp only [gkcryptStep] at hs
    split at hs
    · cases hs
    · cases hs
      exact ⟨h.shape, h.last, h.content, h.thread, h.callers, h.loop, h.copying, h.log⟩

theorem keyBufInvariant_invariant (L : KeyBufLimits) (aes : Block → Equiv.Perm Block) (n : Nat) :
    ((gkcryptLts aes n).restrict L.Within).Invariant (KeyBufInvariant L aes) where
  init := fun _ h => keyBufInvariant_init h
  step := fun _ _ _ h hs => keyBufInvariant_step h hs.1 hs.2

/-- The limits up to which the counters of the key stream fit into an `int`. -/
def counterLimits : KeyBufLimits := ⟨2 ^ 35, 2 ^ 35, 2 ^ 35 + 1, by decide, le_refl _, by decide⟩

theorem within_of_windowBounded (h : windowBounded s l = true) : counterLimits.Within s l := by
  cases l with
  | get t keyPos bufSize =>
    simp only [windowBounded, Bool.and_eq_true, decide_eq_true_eq] at h
    exact ⟨h.1.1, h.1.2, h.2, Or.inl (show bufSize < 2 ^ 35 + 1 by omega)⟩
  | generate evp =>
    intro bufOffset keyPos hpc
    simp only [windowBounded, hpc, decide_eq_true_eq] at h
    exact h
  | _ => trivial

/-- A call within these limits returned what direct generation returns, and nothing but the stream. -/
theorem KeyBufCallOk.streamCall {call : KeyStreamCall} (h : KeyBufCallOk counterLimits aes keyBase iv call) :
    KeyStreamCallOk aes keyBase iv call := by
  have hstream : usedKeyStream aes keyBase iv call.keyPos call.bufSize = _ := usedKeyStream_eq h.bound
  constructor
  · intro bytes hgen
    cases hevp : call.evp with
    | false =>
      rw [hevp, gkcryptGenKeyStream, if_neg (by simpa using h.pos_mod),
        if_neg (by simpa using h.size_mod)] at hgen
      cases hgen
    | true =>
      rw [hevp, gkcryptGenKeyStream_used h.pos_mod h.size_mod] at hgen
      split at hgen
      · cases hgen
        rcases h.result with hok | ⟨-, hfailed | ⟨hbig, -⟩⟩
        · exact hok
        · rw [hevp] at hfailed
          cases hfailed
        · omega
      · cases hgen
  · intro bytes hres
    rcases h.result with hok | ⟨herr, -⟩
    · rw [hok, hstream] at hres
      exact (Except.ok.inj hres).symm
    · rw [herr] at hres
      cases hres

/-- **The ring buffer agrees with direct generation**, in every interleaving of its thread and any
number of callers. -/
theorem keyBufRight_of_bounded (aes : Block → Equiv.Perm Block)
    (hr : ((gkcryptLts aes n).restrict fun s l => windowBounded s l = true).Reachable s) :
    KeyBufRight aes s := by
  have h := (keyBufInvariant_invariant counterLimits aes n).reachable
    (hr.mono fun _ _ => within_of_windowBounded)
  have hwindow : s.keyBufKeyPosMin + s.keyBufPopulated ≤ 2 ^ 35 := h.shape.window
  refine ⟨h.shape.populated_mod, h.shape.populated_le, fun off hoff => ?_, fun f hf => ?_,
    fun t f hf => ?_, fun call hcall => (h.log call hcall).streamCall⟩
  · -- the window ends where the counters stop to fit
    have hpos : s.keyBufKeyPosMin + off < 2 ^ 35 := by omega
    exact (h.content off hoff).trans (usedStreamByte_eq hpos)
  · have hthread := h.thread
    rw [hf] at hthread
    exact hthread
  · have hcaller := h.callers t
    rw [hf] at hcaller
    exact hcaller

/-- A block is requested while the only chunk is generated, and another one that is then in it. -/
def requestedTwice : List (GKCryptLabel 1) :=
  [.lock, .loop true, .get 0 0 0x10, .direct 0 true, .generate true, .lock, .loop true,
    .get 0 0x10 0x10] ++ List.replicate 0x11 (.copy 0)

theorem requestedTwice_run :
    (Lts.runFun (Lts.guarded (gkcryptStep plainAes) fun s l => windowBounded s l = true)
        (gkcryptInit 1 (fun _ => 0) zeroBlock zeroBlock) requestedTwice).map
        (fun s => (s.keyBufPopulated, s.log.map fun call => call.keyPos))
      = some (0x1000, [0x10, 0]) := by
  decide +kernel

theorem keyBufRight_requestedTwice : ∃ s : GKCrypt 1,
    s.keyBufPopulated = 0x1000 ∧ (s.log.map fun call => call.keyPos) = [0x10, 0] ∧
      KeyBufRight plainAes s := by
  obtain ⟨s, hrun, hobs⟩ := Option.map_eq_some_iff.mp requestedTwice_run
  simp only [Prod.mk.injEq] at hobs
  refine ⟨s, hobs.1, hobs.2, keyBufRight_of_bounded plainAes ?_⟩
  exact Lts.Reachable.runGuarded
    (.init ⟨1, fun _ => 0, zeroBlock, zeroBlock, le_refl _, by decide, rfl⟩) hrun

end Chiaki
