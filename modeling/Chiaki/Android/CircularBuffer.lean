import Mathlib.Algebra.GroupWithZero.Nat
import Chiaki.Common
import Chiaki.Infra.Transition

/-!
# The circular buffer of the Android audio output (`circular-buf.hpp`)

`buffer` is a number of chunks, and a pointer is the number of its chunk. One thread calls `Push` and another one calls
`Pop`. A step of a thread is one operation on a queue, or the copying from or to a chunk, so the
threads may alternate more often than from chunk to chunk.

`CircularFifo` is an atomic queue with room for `ChunksCount` pointers.
-/

namespace Chiaki

open Infra

variable {chunksCount : Nat}

/-! ## Queues -/

/-- `CircularFifo::push`, if there is room. -/
def circularFifoPush (queue : List (Fin chunksCount)) (chunk : Fin chunksCount) : Option (List (Fin chunksCount)) :=
  if queue.length < chunksCount then some (queue ++ [chunk]) else none

/-- `CircularFifo::pop`, if there is a pointer. -/
def circularFifoPop (queue : List (Fin chunksCount)) : Option (Fin chunksCount × List (Fin chunksCount)) :=
  match queue with
  | [] => none
  | chunk :: queue => some (chunk, queue)

/-! ## The state -/

/-- `CircularBuffer` -/
structure CircularBuffer (chunksCount : Nat) where
  fullQueue : List (Fin chunksCount)
  freeQueue : List (Fin chunksCount)
  buffer : Fin chunksCount → Bytes
  pushChunk : Option (Fin chunksCount)
  pushChunkSize : Nat
  popChunk : Option (Fin chunksCount)
  popChunkSize : Nat

/-- `FlushChunks`, with what is in the memory. -/
def circularFlushChunks [NeZero chunksCount] (memory : Fin chunksCount → Bytes) : CircularBuffer chunksCount where
  fullQueue := []
  freeQueue := ((List.finRange chunksCount).drop 1).foldl
    (fun queue chunk => (circularFifoPush queue chunk).getD queue) []
  buffer := memory
  pushChunk := some 0
  pushChunkSize := 0
  popChunk := none
  popChunkSize := 0

/-- Where `Push` stands: at the head of its loop, or in front of `full_queue.push`. -/
inductive CircularPush
  | idle
  | loop (buf : Bytes) (pushed : Nat)
  | full (buf : Bytes) (pushed : Nat)
  | fault (f : Fault)
  deriving DecidableEq

/-- Where `Pop` stands, with the bytes that were written to `buf`: at the head of its loop, or in front of
`free_queue.push`. -/
inductive CircularPop
  | idle
  | loop (bufSize : Nat) (buf : Bytes)
  | empty (bufSize : Nat) (buf : Bytes)
  | fault (f : Fault)
  deriving DecidableEq

/-- A call of `Push` that has returned, and `free_queue` at that time. -/
structure CircularPushed (chunksCount : Nat) where
  buf : Bytes
  pushed : Nat
  freeQueue : List (Fin chunksCount)

/-- The buffer, the producer and the consumer, with the calls that have returned. -/
structure CircularRun (chunksCount : Nat) extends CircularBuffer chunksCount where
  push : CircularPush
  pop : CircularPop
  pushes : List (CircularPushed chunksCount)
  pops : List Bytes

/-! ## Push -/

/-- A step of `Push`. -/
def circularPushStep (chunkSize : Nat) (s : CircularRun chunksCount) : Option (CircularRun chunksCount) :=
  match s.push with
  | .idle => none
  | .loop buf pushed =>
    if pushed < buf.length then
      match s.pushChunk with
      | none =>
        match circularFifoPop s.freeQueue with
        | none => some { s with push := .idle, pushes := s.pushes ++ [⟨buf, pushed, s.freeQueue⟩] }
        | some (chunk, freeQueue) =>
          some { s with freeQueue := freeQueue, pushChunk := some chunk, pushChunkSize := 0 }
      | some chunk =>
        let toPush := min (buf.length - pushed) (chunkSize - s.pushChunkSize)
        if (s.buffer chunk).length < s.pushChunkSize + toPush then some { s with push := .fault .outOfBounds }
        else
          some { s with
            buffer := Function.update s.buffer chunk
              (splice (s.buffer chunk) s.pushChunkSize (slice buf pushed toPush))
            pushChunkSize := s.pushChunkSize + toPush
            push := if s.pushChunkSize + toPush = chunkSize then .full buf (pushed + toPush)
              else .loop buf (pushed + toPush) }
    else some { s with push := .idle, pushes := s.pushes ++ [⟨buf, pushed, s.freeQueue⟩] }
  | .full buf pushed =>
    match s.pushChunk with
    | none => some { s with push := .fault .nullPointer }
    | some chunk =>
      match circularFifoPush s.fullQueue chunk with
      | none => some { s with push := .fault .assertion }
      | some fullQueue => some { s with fullQueue := fullQueue, pushChunk := none, push := .loop buf pushed }
  | .fault _ => none

/-! ## Pop -/

/-- A step of `Pop`. -/
def circularPopStep (chunkSize : Nat) (s : CircularRun chunksCount) : Option (CircularRun chunksCount) :=
  match s.pop with
  | .idle => none
  | .loop bufSize buf =>
    if buf.length < bufSize then
      match s.popChunk with
      | none =>
        match circularFifoPop s.fullQueue with
        | none => some { s with pop := .idle, pops := s.pops ++ [buf] }
        | some (chunk, fullQueue) =>
          some { s with fullQueue := fullQueue, popChunk := some chunk, popChunkSize := chunkSize }
      | some chunk =>
        let toPop := min (bufSize - buf.length) s.popChunkSize
        if (s.buffer chunk).length < chunkSize - s.popChunkSize + toPop then
          some { s with pop := .fault .outOfBounds }
        else
          let buf := buf ++ slice (s.buffer chunk) (chunkSize - s.popChunkSize) toPop
          some { s with
            popChunkSize := s.popChunkSize - toPop
            pop := if s.popChunkSize - toPop = 0 then .empty bufSize buf else .loop bufSize buf }
    else some { s with pop := .idle, pops := s.pops ++ [buf] }
  | .empty bufSize buf =>
    match s.popChunk with
    | none => some { s with pop := .fault .nullPointer }
    | some chunk =>
      match circularFifoPush s.freeQueue chunk with
      | none => some { s with pop := .fault .assertion }
      | some freeQueue => some { s with freeQueue := freeQueue, popChunk := none, pop := .loop bufSize buf }
  | .fault _ => none

/-! ## Runs -/

/-- A call, or a step of one of the threads. -/
inductive CircularLabel
  | push (buf : Bytes)
  | pushStep
  | pop (bufSize : Nat)
  | popStep

/-- The step for a label, if it is possible. -/
def circularStep (chunkSize : Nat) (s : CircularRun chunksCount) : CircularLabel → Option (CircularRun chunksCount)
  | .push buf => if s.push = .idle then some { s with push := .loop buf 0 } else none
  | .pushStep => circularPushStep chunkSize s
  | .pop bufSize => if s.pop = .idle then some { s with pop := .loop bufSize [] } else none
  | .popStep => circularPopStep chunkSize s

/-- The buffer with its two threads, from its constructor on. -/
def circularLts [NeZero chunksCount] (chunkSize : Nat) : Lts (CircularRun chunksCount) CircularLabel :=
  Lts.ofFun
    (fun s => ∃ memory, (∀ chunk, (memory chunk).length = chunkSize) ∧
      s = ⟨circularFlushChunks memory, .idle, .idle, [], []⟩)
    (circularStep chunkSize)

/-- The bytes that `Push` has accepted: of the calls that have returned, and of the one that goes on. -/
def CircularRun.accepted (s : CircularRun chunksCount) : Bytes :=
  s.pushes.flatMap (fun call => call.buf.take call.pushed) ++
    match s.push with
    | .loop buf pushed => buf.take pushed
    | .full buf pushed => buf.take pushed
    | _ => []

/-- The bytes that `Pop` has given out. -/
def CircularRun.popped (s : CircularRun chunksCount) : Bytes :=
  s.pops.flatten ++
    match s.pop with
    | .loop _ buf => buf
    | .empty _ buf => buf
    | _ => []

end Chiaki
