import Mathlib.Logic.Equiv.Basic
import Chiaki.Infra.LittleEndian
import Chiaki.Infra.Transition
import Chiaki.Common

/-!
# Key streams (`gkcrypt.c`)

The counter mode key stream of a `ChiakiGKCrypt`, and the ring buffer that a thread of its own
fills ahead of what is requested.

AES is a parameter: for every key a permutation of the blocks. The flag `evp` says whether
OpenSSL can set up its context. What a thread does while it holds the mutex is one step, apart
from the copy out of the ring: it goes byte by byte, because the other thread writes its chunk
without the mutex. `uint64_t` and `size_t` are naturals below `2 ^ 64`, and an `int` is a
`BitVec 32`; that an `int` wraps around is what compilers do, not what C defines.
-/

namespace Chiaki

open Infra

/-- `CHIAKI_GKCRYPT_BLOCK_SIZE` -/
def gkcryptBlockSize : Nat := 0x10

/-- `KEY_BUF_CHUNK_SIZE` -/
def keyBufChunkSize : Nat := 0x1000

abbrev Block := Vector UInt8 gkcryptBlockSize

/-! ## The key stream -/

/-- The loop of `counter_add`, from the byte that it has reached. -/
def counterAddLoop : Bytes → Nat → Bytes
  | [], _ => []
  | b :: base, v =>
    let r := (b.toNat + v) % 2 ^ 64
    UInt8.ofNat r :: (if r / 2 ^ 8 = 0 then base else counterAddLoop base (r / 2 ^ 8))

theorem length_counterAddLoop (base : Bytes) (v : Nat) :
    (counterAddLoop base v).length = base.length := by
  induction base generalizing v with
  | nil => rfl
  | cons b base ih =>
    unfold counterAddLoop
    simp only [List.length_cons]
    split
    · rfl
    · rw [ih]

/-- `counter_add` -/
def counterAdd (base : Block) (v : Nat) : Block :=
  ⟨⟨counterAddLoop base.toList v⟩, by simp [length_counterAddLoop]⟩

/-- The loop of `counter_add` over its two arrays: how far it comes, and `out`. -/
def counterAddMemLoop (out base : Bytes) (v i : Nat) : Except Fault (Nat × Bytes) :=
  match base[i]? with
  | none => .error .outOfBounds
  | some b =>
    if out.length ≤ i then .error .outOfBounds
    else
      let r := (b.toNat + v) % 2 ^ 64
      let out := out.set i (UInt8.ofNat r)
      if h : i + 1 < gkcryptBlockSize ∧ r / 2 ^ 8 ≠ 0 then counterAddMemLoop out base (r / 2 ^ 8) (i + 1)
      else .ok (i + 1, out)
termination_by gkcryptBlockSize - i
decreasing_by omega

/-- `counter_add` with the accesses to its two arrays. -/
def counterAddMem (out base : Bytes) (v : Nat) : Except Fault Bytes := do
  let (i, out) ← counterAddMemLoop out base v 0
  if i < gkcryptBlockSize then
    if base.length < gkcryptBlockSize ∨ out.length < gkcryptBlockSize then throw .outOfBounds
    else return splice out i (slice base i (gkcryptBlockSize - i))
  else return out

/-- The loop over the blocks of the buffer. `counter_offset` is converted to the `uint64_t` that
`counter_add` takes. -/
def counterBlocks (iv : Block) : BitVec 32 → Nat → List Block
  | _, 0 => []
  | counterOffset, n + 1 =>
    counterAdd iv (counterOffset.signExtend 64).toNat :: counterBlocks iv (counterOffset + 1) n

/-- `EVP_EncryptUpdate` in ECB mode, for a length that is a multiple of the block size: `outl` and
the buffer. -/
def evpEncryptUpdate (cipher : Block → Block) (buf : List Block) (inl : Int) : Int × List Block :=
  let n := inl.toNat / gkcryptBlockSize
  ((gkcryptBlockSize * n : Nat), (buf.take n).map cipher ++ buf.drop n)

variable (aes : Block → Equiv.Perm Block)

/-- `chiaki_gkcrypt_gen_key_stream` -/
def gkcryptGenKeyStream (keyBase iv : Block) (evp : Bool) (keyPos bufSize : Nat) :
    Except Fault (Except ErrorCode Bytes) :=
  if keyPos % gkcryptBlockSize ≠ 0 then .error .assertion
  else if bufSize % gkcryptBlockSize ≠ 0 then .error .assertion
  else if !evp then .ok (.error .unknown)
  else
    let counterOffset := BitVec.ofNat 32 (keyPos / gkcryptBlockSize)
    let buf := counterBlocks iv counterOffset (bufSize / gkcryptBlockSize)
    let r := evpEncryptUpdate (aes keyBase) buf (BitVec.ofNat 32 bufSize).toInt
    if r.1 ≠ bufSize then .ok (.error .unknown)
    else .ok (.ok (r.2.flatMap fun b => b.toList))

/-! ## Encryption -/

/-- `xor_bytes` -/
def xorBytes (dst src : Bytes) : Bytes := List.zipWith (fun d s => d ^^^ s) dst src

/-- `chiaki_gkcrypt_decrypt`, which `chiaki_gkcrypt_encrypt` is another name for.
`chiaki_gkcrypt_get_key_stream` returns what `chiaki_gkcrypt_gen_key_stream` computes, no matter
whether it comes out of the ring buffer. -/
def gkcryptDecrypt (keyBase iv : Block) (malloc evp : Bool) (keyPos : Nat) (buf : Bytes) :
    Except Fault (Except ErrorCode Bytes) :=
  let paddingPre := keyPos % gkcryptBlockSize
  let fullSize := (paddingPre + buf.length + gkcryptBlockSize - 1) % 2 ^ 64
    / gkcryptBlockSize * gkcryptBlockSize
  if !malloc then .ok (.error .memory)
  else
    match gkcryptGenKeyStream aes keyBase iv evp (keyPos - paddingPre) fullSize with
    | .error f => .error f
    | .ok (.error err) => .ok (.error err)
    | .ok (.ok keyStream) => .ok (.ok (xorBytes buf (keyStream.drop paddingPre)))

/-- The loop of `xor_bytes`, over `sz` bytes of the memory. -/
def xorBytesLoop : Nat → Bytes → Nat → Bytes → Except Fault Bytes
  | 0, mem, _, _ => .ok mem
  | sz + 1, mem, dst, src =>
    match mem[dst]?, src with
    | some d, s :: src => xorBytesLoop sz (mem.set dst (d ^^^ s)) (dst + 1) src
    | _, _ => .error .outOfBounds

/-- What `chiaki_gkcrypt_decrypt` asks `chiaki_gkcrypt_get_key_stream` for: the position, and `full_size`. -/
def gkcryptDecryptRequest (keyPos bufSize : Nat) : Nat × Nat :=
  let paddingPre := keyPos % gkcryptBlockSize
  (keyPos - paddingPre,
    (paddingPre + bufSize + gkcryptBlockSize - 1) % 2 ^ 64 / gkcryptBlockSize * gkcryptBlockSize)

/-- The rest of `chiaki_gkcrypt_decrypt`, for the `bufSize` bytes at `buf`. -/
def gkcryptDecryptMem (mem : Bytes) (keyPos buf bufSize : Nat) (keyStream : Except ErrorCode Bytes) :
    Except Fault (Except ErrorCode Bytes) :=
  match keyStream with
  | .error err => .ok (.error err)
  | .ok keyStream =>
    (xorBytesLoop bufSize mem buf (keyStream.drop (keyPos % gkcryptBlockSize))).map .ok

/-! ## The ring buffer -/

/-- Where `gkcrypt_thread_func` stands. It holds the mutex in `loop` only. -/
inductive KeyBufThreadPc
  | wait
  | loop
  | generating (bufOffset keyPos : Nat)
  | generated (err : ErrorCode)
  | exited
  | fault (f : Fault)
  deriving DecidableEq, Repr

/-- Where a thread stands in `chiaki_gkcrypt_get_key_stream`. It holds the mutex in `copying`. -/
inductive KeyStreamPc
  | idle
  | direct (keyPos bufSize : Nat)
  | copying (keyPos bufSize offsetInBuf : Nat) (buf : Bytes)
  | fault (f : Fault)
  deriving DecidableEq, Repr

/-- A call of `chiaki_gkcrypt_get_key_stream` that has returned. `evp` is true if it did not
need OpenSSL. -/
structure KeyStreamCall where
  keyPos : Nat
  bufSize : Nat
  evp : Bool
  result : Except ErrorCode Bytes

/-- `ChiakiGKCrypt`, with a thread that fills its buffer and `n` threads that request key stream. -/
structure GKCrypt (n : Nat) where
  keyBase : Block
  iv : Block
  keyBuf : Nat → UInt8
  keyBufSize : Nat
  keyBufPopulated : Nat
  keyBufKeyPosMin : Nat
  keyBufStartOffset : Nat
  lastKeyPos : Nat
  keyBufThreadStop : Bool
  mutexLocked : Bool
  thread : KeyBufThreadPc
  callers : Fin n → KeyStreamPc
  log : List KeyStreamCall

/-- What moves next. `condOk` says that waiting for the condition does not fail. -/
inductive GKCryptLabel (n : Nat)
  | lock
  | loop (condOk : Bool)
  | scribble (i : Nat) (b : UInt8)
  | generate (evp : Bool)
  | get (t : Fin n) (keyPos bufSize : Nat)
  | copy (t : Fin n)
  | direct (t : Fin n) (evp : Bool)
  | fini

variable {n : Nat}

def GKCrypt.setCaller (s : GKCrypt n) (t : Fin n) (pc : KeyStreamPc) : GKCrypt n :=
  { s with callers := fun u => if u = t then pc else s.callers u }

/-- `chiaki_gkcrypt_init` for a buffer that could be allocated, up to the start of the thread. -/
def gkcryptInit (keyBufChunks : Nat) (keyBuf : Nat → UInt8) (keyBase iv : Block) : GKCrypt n where
  keyBase := keyBase
  iv := iv
  keyBuf := keyBuf
  keyBufSize := keyBufChunks * keyBufChunkSize % 2 ^ 64
  keyBufPopulated := 0
  keyBufKeyPosMin := 0
  keyBufStartOffset := 0
  lastKeyPos := 0
  keyBufThreadStop := false
  mutexLocked := false
  thread := .wait
  callers := fun _ => .idle
  log := []

/-- `gkcrypt_key_buf_should_generate` -/
def gkcryptKeyBufShouldGenerate (s : GKCrypt n) : Bool :=
  s.lastKeyPos > (s.keyBufKeyPosMin + s.keyBufPopulated / 2) % 2 ^ 64

/-- `key_buf_mutex_pred` -/
def keyBufMutexPred (s : GKCrypt n) : Bool :=
  s.keyBufThreadStop || decide (s.keyBufPopulated < s.keyBufSize) || gkcryptKeyBufShouldGenerate s

/-! ### The thread -/

/-- The mutex is taken: at the start, after a wait, or after a chunk was generated. -/
def keyBufLock (s : GKCrypt n) : Option (GKCrypt n) :=
  if s.mutexLocked then none
  else
    match s.thread with
    | .wait => some { s with mutexLocked := true, thread := .loop }
    | .generated .success =>
      some { s with
        keyBufPopulated := (s.keyBufPopulated + keyBufChunkSize) % 2 ^ 64
        mutexLocked := true
        thread := .loop }
    | .generated _ => some { s with thread := .exited }
    | _ => none

/-- `gkcrypt_generate_next_chunk` up to where it unlocks the mutex. -/
def gkcryptGenerateNextChunk (s : GKCrypt n) : GKCrypt n :=
  if s.keyBufSize < (s.keyBufPopulated + keyBufChunkSize) % 2 ^ 64 then
    { s with thread := .fault .assertion }
  else
    let bufOffset := (s.keyBufStartOffset + s.keyBufPopulated) % 2 ^ 64 % s.keyBufSize
    let keyPos := (s.keyBufKeyPosMin + s.keyBufPopulated) % 2 ^ 64
    { s with mutexLocked := false, thread := .generating bufOffset keyPos }

/-- "skip ahead", or make room for the next chunk. -/
def gkcryptAdvance (s : GKCrypt n) : GKCrypt n :=
  if s.lastKeyPos > (s.keyBufKeyPosMin + s.keyBufPopulated) % 2 ^ 64 then
    { s with
      keyBufKeyPosMin := s.lastKeyPos / keyBufChunkSize * keyBufChunkSize
      keyBufStartOffset := 0
      keyBufPopulated := 0 }
  else if s.keyBufPopulated = s.keyBufSize then
    { s with
      keyBufStartOffset := (s.keyBufStartOffset + keyBufChunkSize) % 2 ^ 64 % s.keyBufSize
      keyBufKeyPosMin := (s.keyBufKeyPosMin + keyBufChunkSize) % 2 ^ 64
      keyBufPopulated := s.keyBufPopulated - keyBufChunkSize }
  else s

/-- A round of the loop in `gkcrypt_thread_func`: back to waiting, or up to the next chunk. -/
def gkcryptThreadLoop (s : GKCrypt n) (condOk : Bool) : GKCrypt n :=
  if !keyBufMutexPred s then
    if condOk then { s with mutexLocked := false, thread := .wait }
    else { s with mutexLocked := false, thread := .exited }
  else if s.keyBufThreadStop then { s with mutexLocked := false, thread := .exited }
  else gkcryptGenerateNextChunk (gkcryptAdvance s)

/-- `chiaki_gkcrypt_gen_key_stream` with a chunk of the buffer as output. -/
def keyBufGenerate (s : GKCrypt n) (bufOffset keyPos : Nat) (evp : Bool) : GKCrypt n :=
  match gkcryptGenKeyStream aes s.keyBase s.iv evp keyPos keyBufChunkSize with
  | .error f => { s with thread := .fault f }
  | .ok (.error err) => { s with thread := .generated err }
  | .ok (.ok bytes) =>
    { s with
      keyBuf := fun i =>
        if bufOffset ≤ i ∧ i < bufOffset + keyBufChunkSize then bytes.getD (i - bufOffset) 0
        else s.keyBuf i
      thread := .generated .success }

/-! ### The callers -/

/-- `chiaki_gkcrypt_get_key_stream` up to where it copies, or unlocks the mutex again. -/
def gkcryptGetKeyStream (s : GKCrypt n) (t : Fin n) (keyPos bufSize : Nat) : GKCrypt n :=
  let end_ := (keyPos + bufSize) % 2 ^ 64
  let s := { s with lastKeyPos := if end_ > s.lastKeyPos then end_ else s.lastKeyPos }
  if keyPos < s.keyBufKeyPosMin ∨ end_ ≥ (s.keyBufKeyPosMin + s.keyBufPopulated) % 2 ^ 64 then
    s.setCaller t (.direct keyPos bufSize)
  else
    let offsetInBuf := (keyPos - s.keyBufKeyPosMin + s.keyBufStartOffset) % 2 ^ 64 % s.keyBufSize
    { s with mutexLocked := true }.setCaller t (.copying keyPos bufSize offsetInBuf [])

/-- Where the byte `i` of the output comes from: `memcpy` out of one or two parts of the ring. -/
def keyBufSource (s : GKCrypt n) (bufSize offsetInBuf i : Nat) : Nat :=
  let end_ := (offsetInBuf + bufSize) % 2 ^ 64
  let excess := end_ - s.keyBufSize
  if end_ > s.keyBufSize ∧ bufSize - excess ≤ i then i - (bufSize - excess) else offsetInBuf + i

def GKCrypt.return (s : GKCrypt n) (t : Fin n) (call : KeyStreamCall) : GKCrypt n :=
  { s with log := call :: s.log }.setCaller t .idle

/-- One more byte is copied, or the mutex is unlocked. -/
def keyBufCopy (s : GKCrypt n) (t : Fin n) (keyPos bufSize offsetInBuf : Nat) (buf : Bytes) :
    GKCrypt n :=
  if buf.length < bufSize then
    let src := keyBufSource s bufSize offsetInBuf buf.length
    if src < s.keyBufSize then
      s.setCaller t (.copying keyPos bufSize offsetInBuf (buf ++ [s.keyBuf src]))
    else s.setCaller t (.fault .outOfBounds)
  else { s with mutexLocked := false }.return t ⟨keyPos, bufSize, true, .ok buf⟩

/-- The request goes past the buffer. -/
def keyBufDirect (s : GKCrypt n) (t : Fin n) (keyPos bufSize : Nat) (evp : Bool) : GKCrypt n :=
  match gkcryptGenKeyStream aes s.keyBase s.iv evp keyPos bufSize with
  | .error f => s.setCaller t (.fault f)
  | .ok result => s.return t ⟨keyPos, bufSize, evp, result⟩

/-- One step of the thread or of a caller. While `chiaki_gkcrypt_gen_key_stream` runs, anything
may be in the chunk. -/
def gkcryptStep (s : GKCrypt n) : GKCryptLabel n → Option (GKCrypt n)
  | .lock => keyBufLock s
  | .loop condOk =>
    match s.thread with
    | .loop => some (gkcryptThreadLoop s condOk)
    | _ => none
  | .scribble i b =>
    match s.thread with
    | .generating bufOffset _ =>
      if i < keyBufChunkSize then
        some { s with keyBuf := fun j => if j = bufOffset + i then b else s.keyBuf j }
      else none
    | _ => none
  | .generate evp =>
    match s.thread with
    | .generating bufOffset keyPos => some (keyBufGenerate aes s bufOffset keyPos evp)
    | _ => none
  | .get t keyPos bufSize =>
    match s.mutexLocked, s.callers t with
    | false, .idle => some (gkcryptGetKeyStream s t keyPos bufSize)
    | _, _ => none
  | .copy t =>
    match s.callers t with
    | .copying keyPos bufSize offsetInBuf buf => some (keyBufCopy s t keyPos bufSize offsetInBuf buf)
    | _ => none
  | .direct t evp =>
    match s.callers t with
    | .direct keyPos bufSize => some (keyBufDirect aes s t keyPos bufSize evp)
    | _ => none
  | .fini => if s.mutexLocked then none else some { s with keyBufThreadStop := true }

/-- `key_buf_chunks` is at least 1, and the buffer is an object of C. -/
def GKCryptInitial (s : GKCrypt n) : Prop :=
  ∃ keyBufChunks keyBuf keyBase iv, 1 ≤ keyBufChunks ∧ keyBufChunks * keyBufChunkSize < 2 ^ 63 ∧
    s = gkcryptInit keyBufChunks keyBuf keyBase iv

def gkcryptLts (n : Nat) : Lts (GKCrypt n) (GKCryptLabel n) :=
  Lts.ofFun GKCryptInitial (gkcryptStep aes)

end Chiaki
