import Chiaki.Android.CircularBuffer
import Chiaki.Infra.Fifo
import Chiaki.Properties.Common
import Mathlib.Data.List.FinRange

/-!
# The circular buffer is a queue of bytes

The bytes inside are those left in the chunk that is read, those in the chunks of `full_queue`, and those in the chunk
that is written (`CircularRun.content`). Every chunk has exactly one place (`CircularInv.chunks`).

* `CircularMove` — what a step can do if the invariant holds
* `circular_right` — what holds in every run
-/

namespace Chiaki

open Infra

variable {chunksCount chunkSize : Nat} {s s' : CircularRun chunksCount} {l : CircularLabel}

/-! ## The invariant -/

/-- The chunk that is written has room, unless it is on its way to `full_queue`. -/
def CircularPush.Sane (chunkSize : Nat) (chunk : Option (Fin chunksCount)) (size : Nat) : CircularPush → Prop
  | .idle => chunk ≠ none → size < chunkSize
  | .loop buf pushed => pushed ≤ buf.length ∧ (chunk ≠ none → size < chunkSize)
  | .full buf pushed => pushed ≤ buf.length ∧ chunk ≠ none ∧ size = chunkSize
  | .fault _ => False

/-- The chunk that is read has something left, unless it is on its way to `free_queue`. -/
def CircularPop.Sane (chunkSize : Nat) (chunk : Option (Fin chunksCount)) (size : Nat) : CircularPop → Prop
  | .idle => chunk ≠ none → 0 < size ∧ size ≤ chunkSize
  | .loop _ _ => chunk ≠ none → 0 < size ∧ size ≤ chunkSize
  | .empty _ _ => chunk ≠ none ∧ size = 0
  | .fault _ => False

/-- The places of the chunks. -/
def CircularBuffer.places (b : CircularBuffer chunksCount) : List (Fin chunksCount) :=
  b.fullQueue ++ b.freeQueue ++ b.pushChunk.toList ++ b.popChunk.toList

structure CircularInv (chunkSize : Nat) (s : CircularRun chunksCount) : Prop where
  size : ∀ chunk, (s.buffer chunk).length = chunkSize
  chunks : ∀ chunk, s.places.count chunk = 1
  push : s.push.Sane chunkSize s.pushChunk s.pushChunkSize
  pop : s.pop.Sane chunkSize s.popChunk s.popChunkSize
  short : ∀ call ∈ s.pushes, call.pushed ≤ call.buf.length ∧ (call.pushed < call.buf.length → call.freeQueue = [])

theorem CircularInv.length_places (h : CircularInv chunkSize s) : s.places.length = chunksCount := by
  have hperm : s.places.Perm (List.finRange chunksCount) := List.perm_iff_count.mpr fun chunk => by
    rw [h.chunks, List.count_eq_one_of_mem (List.nodup_finRange _) (List.mem_finRange _)]
  rw [hperm.length_eq, List.length_finRange]

theorem CircularBuffer.count_places (b : CircularBuffer chunksCount) (chunk : Fin chunksCount) :
    b.places.count chunk = b.fullQueue.count chunk + b.freeQueue.count chunk + b.pushChunk.toList.count chunk
      + b.popChunk.toList.count chunk := by
  simp only [places, List.count_append]

/-- The chunk that is written is in no other place. -/
theorem CircularInv.not_mem_of_push (h : CircularInv chunkSize s) {chunk : Fin chunksCount}
    (hchunk : s.pushChunk = some chunk) : chunk ∉ s.fullQueue ∧ s.popChunk ≠ some chunk := by
  have hcount := h.chunks chunk
  rw [CircularBuffer.count_places, hchunk, Option.toList_some, List.count_singleton_self] at hcount
  refine ⟨List.count_eq_zero.mp (by omega), fun hpop => ?_⟩
  rw [hpop, Option.toList_some, List.count_singleton_self] at hcount
  omega

/-! ## Steps -/

/-- What a step can do. -/
inductive CircularMove (chunkSize : Nat) (s : CircularRun chunksCount) : CircularRun chunksCount → Prop
  | callPush (buf : Bytes) (hpush : s.push = .idle) : CircularMove chunkSize s { s with push := .loop buf 0 }
  | returnPush (buf : Bytes) (pushed : Nat) (hpush : s.push = .loop buf pushed)
    (hshort : pushed < buf.length → s.freeQueue = []) :
    CircularMove chunkSize s { s with push := .idle, pushes := s.pushes ++ [⟨buf, pushed, s.freeQueue⟩] }
  | takeFree (buf : Bytes) (pushed : Nat) (chunk : Fin chunksCount) (freeQueue : List (Fin chunksCount))
    (hpush : s.push = .loop buf pushed) (hchunk : s.pushChunk = none) (hqueue : s.freeQueue = chunk :: freeQueue) :
    CircularMove chunkSize s { s with freeQueue := freeQueue, pushChunk := some chunk, pushChunkSize := 0 }
  | write (buf : Bytes) (pushed toPush : Nat) (chunk : Fin chunksCount) (hpush : s.push = .loop buf pushed)
    (hchunk : s.pushChunk = some chunk) (hbuf : pushed + toPush ≤ buf.length)
    (hroom : s.pushChunkSize + toPush ≤ chunkSize) :
    CircularMove chunkSize s { s with
      buffer := Function.update s.buffer chunk (splice (s.buffer chunk) s.pushChunkSize (slice buf pushed toPush))
      pushChunkSize := s.pushChunkSize + toPush
      push := if s.pushChunkSize + toPush = chunkSize then .full buf (pushed + toPush)
        else .loop buf (pushed + toPush) }
  | pushFull (buf : Bytes) (pushed : Nat) (chunk : Fin chunksCount) (hpush : s.push = .full buf pushed)
    (hchunk : s.pushChunk = some chunk) :
    CircularMove chunkSize s
      { s with fullQueue := s.fullQueue ++ [chunk], pushChunk := none, push := .loop buf pushed }
  | callPop (bufSize : Nat) (hpop : s.pop = .idle) : CircularMove chunkSize s { s with pop := .loop bufSize [] }
  | returnPop (bufSize : Nat) (buf : Bytes) (hpop : s.pop = .loop bufSize buf) :
    CircularMove chunkSize s { s with pop := .idle, pops := s.pops ++ [buf] }
  | takeFull (bufSize : Nat) (buf : Bytes) (chunk : Fin chunksCount) (fullQueue : List (Fin chunksCount))
    (hpop : s.pop = .loop bufSize buf) (hchunk : s.popChunk = none) (hqueue : s.fullQueue = chunk :: fullQueue) :
    CircularMove chunkSize s { s with fullQueue := fullQueue, popChunk := some chunk, popChunkSize := chunkSize }
  | read (bufSize toPop : Nat) (buf : Bytes) (chunk : Fin chunksCount) (hpop : s.pop = .loop bufSize buf)
    (hchunk : s.popChunk = some chunk) (hleft : toPop ≤ s.popChunkSize) :
    CircularMove chunkSize s { s with
      popChunkSize := s.popChunkSize - toPop
      pop := if s.popChunkSize - toPop = 0 then
          .empty bufSize (buf ++ slice (s.buffer chunk) (chunkSize - s.popChunkSize) toPop)
        else .loop bufSize (buf ++ slice (s.buffer chunk) (chunkSize - s.popChunkSize) toPop) }
  | pushFree (bufSize : Nat) (buf : Bytes) (chunk : Fin chunksCount) (hpop : s.pop = .empty bufSize buf)
    (hchunk : s.popChunk = some chunk) :
    CircularMove chunkSize s
      { s with freeQueue := s.freeQueue ++ [chunk], popChunk := none, pop := .loop bufSize buf }

/-- There is room in `full_queue` for the chunk that is written. -/
theorem CircularInv.fullQueue_lt (h : CircularInv chunkSize s) {chunk : Fin chunksCount}
    (hchunk : s.pushChunk = some chunk) : s.fullQueue.length < chunksCount := by
  have hlength := h.length_places
  rw [CircularBuffer.places, hchunk] at hlength
  simp only [List.length_append, Option.toList_some, List.length_singleton] at hlength
  omega

theorem CircularInv.freeQueue_lt (h : CircularInv chunkSize s) {chunk : Fin chunksCount}
    (hchunk : s.popChunk = some chunk) : s.freeQueue.length < chunksCount := by
  have hlength := h.length_places
  rw [CircularBuffer.places, hchunk] at hlength
  simp only [List.length_append, Option.toList_some, List.length_singleton] at hlength
  omega

theorem circularPushStep_move (h : CircularInv chunkSize s) (hstep : circularPushStep chunkSize s = some s') :
    CircularMove chunkSize s s' := by
  have hsane := h.push
  have hroom := @h.fullQueue_lt
  obtain ⟨⟨fullQueue, freeQueue, buffer, pushChunk, pushChunkSize, popChunk, popChunkSize⟩, push, pop, pushes, pops⟩ := s
  cases push with
  | idle => cases hstep
  | loop buf pushed =>
    simp only [circularPushStep] at hstep
    split at hstep
    · cases pushChunk with
      | none =>
        cases freeQueue with
        | nil =>
          cases hstep
          exact .returnPush buf pushed rfl fun _ => rfl
        | cons chunk freeQueue =>
          cases hstep
          exact .takeFree buf pushed chunk freeQueue rfl rfl rfl
      | some chunk =>
        have hlt : pushChunkSize < chunkSize := hsane.2 (by nofun)
        have hsize : (buffer chunk).length = chunkSize := h.size chunk
        simp only at hstep
        rw [if_neg (by rw [hsize]; omega)] at hstep
        cases hstep
        have hbuf : pushed + min (buf.length - pushed) (chunkSize - pushChunkSize) ≤ buf.length := by omega
        have hfit : pushChunkSize + min (buf.length - pushed) (chunkSize - pushChunkSize) ≤ chunkSize := by omega
        exact .write buf pushed _ chunk rfl rfl hbuf hfit
    · next hdone =>
      cases hstep
      exact .returnPush buf pushed rfl fun hlt => absurd hlt hdone
  | full buf pushed =>
    cases pushChunk with
    | none => exact absurd rfl hsane.2.1
    | some chunk =>
      simp only [circularPushStep] at hstep
      rw [circularFifoPush, if_pos (hroom rfl)] at hstep
      cases hstep
      exact .pushFull buf pushed chunk rfl rfl
  | fault f => exact hsane.elim

theorem circularPopStep_move (h : CircularInv chunkSize s) (hstep : circularPopStep chunkSize s = some s') :
    CircularMove chunkSize s s' := by
  have hsane := h.pop
  have hroom := @h.freeQueue_lt
  obtain ⟨⟨fullQueue, freeQueue, buffer, pushChunk, pushChunkSize, popChunk, popChunkSize⟩, push, pop, pushes, pops⟩ := s
  cases pop with
  | idle => cases hstep
  | loop bufSize buf =>
    simp only [circularPopStep] at hstep
    split at hstep
    · cases popChunk with
      | none =>
        cases fullQueue with
        | nil =>
          cases hstep
          exact .returnPop bufSize buf rfl
        | cons chunk fullQueue =>
          cases hstep
          exact .takeFull bufSize buf chunk fullQueue rfl rfl rfl
      | some chunk =>
        obtain ⟨hpos, hle⟩ : 0 < popChunkSize ∧ popChunkSize ≤ chunkSize := hsane (by nofun)
        have hsize : (buffer chunk).length = chunkSize := h.size chunk
        simp only at hstep
        rw [if_neg (by rw [hsize]; omega)] at hstep
        cases hstep
        exact .read bufSize _ buf chunk rfl rfl (Nat.min_le_right _ _)
    · cases hstep
      exact .returnPop bufSize buf rfl
  | empty bufSize buf =>
    cases popChunk with
    | none => exact absurd rfl hsane.1
    | some chunk =>
      simp only [circularPopStep] at hstep
      rw [circularFifoPush, if_pos (hroom rfl)] at hstep
      cases hstep
      exact .pushFree bufSize buf chunk rfl rfl
  | fault f => exact hsane.elim

/-- No step leads to a fault. -/
theorem circularStep_move (h : CircularInv chunkSize s) (hstep : circularStep chunkSize s l = some s') :
    CircularMove chunkSize s s' := by
  cases l with
  | push buf =>
    rw [circularStep] at hstep
    split at hstep
    · next hidle =>
      cases hstep
      exact .callPush buf hidle
    · cases hstep
  | pushStep => exact circularPushStep_move h hstep
  | pop bufSize =>
    rw [circularStep] at hstep
    split at hstep
    · next hidle =>
      cases hstep
      exact .callPop bufSize hidle
    · cases hstep
  | popStep => exact circularPopStep_move h hstep

/-- A chunk that leaves one place comes to another one. -/
theorem CircularMove.chunks (h : CircularInv chunkSize s) (hmove : CircularMove chunkSize s s')
    (chunk : Fin chunksCount) : s'.places.count chunk = 1 := by
  have hcount := h.chunks chunk
  rw [CircularBuffer.count_places] at hcount ⊢
  cases hmove with
  | takeFree buf pushed taken freeQueue hpush hchunk hqueue =>
    rw [hchunk, hqueue, List.count_cons, Option.toList_none, List.count_nil] at hcount
    simp only [Option.toList_some, List.count_singleton]
    omega
  | pushFull buf pushed taken hpush hchunk =>
    rw [hchunk, Option.toList_some, List.count_singleton] at hcount
    simp only [List.count_append, List.count_singleton, Option.toList_none, List.count_nil]
    omega
  | takeFull bufSize buf taken fullQueue hpop hchunk hqueue =>
    rw [hchunk, hqueue, List.count_cons, Option.toList_none, List.count_nil] at hcount
    simp only [Option.toList_some, List.count_singleton]
    omega
  | pushFree bufSize buf taken hpop hchunk =>
    rw [hchunk, Option.toList_some, List.count_singleton] at hcount
    simp only [List.count_append, List.count_singleton, Option.toList_none, List.count_nil]
    omega
  | _ => exact hcount

/-- No chunk becomes larger or smaller. -/
theorem CircularMove.size (h : CircularInv chunkSize s) (hmove : CircularMove chunkSize s s')
    (chunk : Fin chunksCount) : (s'.buffer chunk).length = chunkSize := by
  cases hmove with
  | write buf pushed toPush written hpush hchunk hbuf hroom =>
    rcases eq_or_ne chunk written with rfl | hne
    · have hfit : s.pushChunkSize + (slice buf pushed toPush).length ≤ (s.buffer chunk).length := by
        rw [length_slice hbuf, h.size]
        exact hroom
      simp only [Function.update_self]
      rw [length_splice hfit, h.size]
    · simp only [Function.update_of_ne hne]
      exact h.size chunk
  | _ => exact h.size chunk

/-- Every step keeps the invariant. -/
theorem CircularMove.inv (hsize : 0 < chunkSize) (h : CircularInv chunkSize s) (hmove : CircularMove chunkSize s s') :
    CircularInv chunkSize s' := by
  have hchunks := hmove.chunks h
  have hbuffer := hmove.size h
  obtain ⟨-, -, hpushSane, hpopSane, hshort⟩ := h
  cases hmove with
  | callPush buf hpush =>
    rw [hpush] at hpushSane
    exact ⟨hbuffer, hchunks, ⟨Nat.zero_le _, hpushSane⟩, hpopSane, hshort⟩
  | returnPush buf pushed hpush hqueue =>
    rw [hpush] at hpushSane
    refine ⟨hbuffer, hchunks, hpushSane.2, hpopSane, fun call hcall => ?_⟩
    rcases List.mem_append.mp hcall with hcall | hcall
    · exact hshort call hcall
    · rw [List.mem_singleton.mp hcall]
      exact ⟨hpushSane.1, hqueue⟩
  | takeFree buf pushed chunk freeQueue hpush hchunk hqueue =>
    rw [hpush] at hpushSane
    refine ⟨hbuffer, hchunks, ?_, hpopSane, hshort⟩
    simp only [hpush]
    exact ⟨hpushSane.1, fun _ => hsize⟩
  | write buf pushed toPush chunk hpush hchunk hbuf hroom =>
    refine ⟨hbuffer, hchunks, ?_, hpopSane, hshort⟩
    simp only
    split
    · next heq => exact ⟨hbuf, by rw [hchunk]; nofun, heq⟩
    · next hne => exact ⟨hbuf, fun _ => Nat.lt_of_le_of_ne hroom hne⟩
  | pushFull buf pushed chunk hpush hchunk =>
    rw [hpush] at hpushSane
    exact ⟨hbuffer, hchunks, ⟨hpushSane.1, nofun⟩, hpopSane, hshort⟩
  | callPop bufSize hpop =>
    rw [hpop] at hpopSane
    exact ⟨hbuffer, hchunks, hpushSane, hpopSane, hshort⟩
  | returnPop bufSize buf hpop =>
    rw [hpop] at hpopSane
    exact ⟨hbuffer, hchunks, hpushSane, hpopSane, hshort⟩
  | takeFull bufSize buf chunk fullQueue hpop hchunk hqueue =>
    refine ⟨hbuffer, hchunks, hpushSane, ?_, hshort⟩
    simp only [hpop]
    exact fun _ => ⟨hsize, Nat.le_refl _⟩
  | read bufSize toPop buf chunk hpop hchunk hleft =>
    rw [hpop] at hpopSane
    obtain ⟨hpos, hle⟩ := hpopSane (by rw [hchunk]; nofun)
    refine ⟨hbuffer, hchunks, hpushSane, ?_, hshort⟩
    simp only
    split
    · next heq => exact ⟨by rw [hchunk]; nofun, heq⟩
    · next hne => exact fun _ => ⟨Nat.pos_of_ne_zero hne, by omega⟩
  | pushFree bufSize buf chunk hpop hchunk =>
    exact ⟨hbuffer, hchunks, hpushSane, nofun, hshort⟩

/-! ## Bytes -/

/-- The bytes inside, in the order in which they come out. -/
def CircularRun.content (chunkSize : Nat) (s : CircularRun chunksCount) : Bytes :=
  (s.popChunk.elim [] fun chunk => (s.buffer chunk).drop (chunkSize - s.popChunkSize))
    ++ s.fullQueue.flatMap s.buffer
    ++ s.pushChunk.elim [] fun chunk => (s.buffer chunk).take s.pushChunkSize

/-- What the steps do to the bytes. -/
theorem CircularMove.moves (h : CircularInv chunkSize s) (hmove : CircularMove chunkSize s s') :
    ∃ input output, Fifo.Moves CircularRun.accepted CircularRun.popped (CircularRun.content chunkSize)
      s s' input output := by
  cases hmove with
  | callPush buf hpush =>
    refine ⟨[], [], .refl ?_ rfl rfl⟩
    simp only [CircularRun.accepted, hpush, List.take_zero]
  | returnPush buf pushed hpush hqueue =>
    refine ⟨[], [], .refl ?_ rfl rfl⟩
    simp only [CircularRun.accepted, hpush, List.flatMap_append, List.flatMap_cons, List.flatMap_nil,
      List.append_nil]
  | takeFree buf pushed chunk freeQueue hpush hchunk hqueue =>
    refine ⟨[], [], .refl ?_ rfl ?_⟩
    · simp only [CircularRun.accepted, hpush]
    · simp only [CircularRun.content, hchunk, Option.elim_some, Option.elim_none, List.take_zero]
  | write buf pushed toPush chunk hpush hchunk hbuf hroom =>
    refine ⟨slice buf pushed toPush, [], ⟨?_, (List.append_nil _).symm, ?_⟩⟩
    · have haccepted : CircularRun.accepted s
          = s.pushes.flatMap (fun call => call.buf.take call.pushed) ++ buf.take pushed := by
        rw [CircularRun.accepted, hpush]
      rw [haccepted, List.append_assoc, slice, ← List.take_add, CircularRun.accepted]
      by_cases hfull : s.pushChunkSize + toPush = chunkSize
      · simp only [if_pos hfull]
      · simp only [if_neg hfull]
    · -- the chunk that is written is not one of the others
      obtain ⟨hqueue, hpop⟩ := h.not_mem_of_push hchunk
      have hlength : (slice buf pushed toPush).length = toPush := length_slice hbuf
      have hoff : s.pushChunkSize ≤ (s.buffer chunk).length := by
        rw [h.size]
        omega
      have htake : List.take (s.pushChunkSize + (slice buf pushed toPush).length)
          (splice (s.buffer chunk) s.pushChunkSize (slice buf pushed toPush))
            = (s.buffer chunk).take s.pushChunkSize ++ slice buf pushed toPush := take_splice hoff
      rw [hlength] at htake
      have hfull : s.fullQueue.flatMap (Function.update s.buffer chunk
          (splice (s.buffer chunk) s.pushChunkSize (slice buf pushed toPush))) = s.fullQueue.flatMap s.buffer :=
        List.flatMap_congr fun c hc => Function.update_of_ne (ne_of_mem_of_not_mem hc hqueue) _ _
      have hread : (s.popChunk.elim [] fun c => (Function.update s.buffer chunk
          (splice (s.buffer chunk) s.pushChunkSize (slice buf pushed toPush)) c).drop (chunkSize - s.popChunkSize))
            = s.popChunk.elim [] fun c => (s.buffer c).drop (chunkSize - s.popChunkSize) := by
        cases hpopChunk : s.popChunk with
        | none => rfl
        | some c =>
          have hne : c ≠ chunk := fun heq => hpop (by rw [hpopChunk, heq])
          rw [Option.elim_some, Option.elim_some, Function.update_of_ne hne]
      simp only [CircularRun.content, hchunk, Option.elim_some, hfull, hread, Function.update_self, htake,
        List.append_assoc, List.nil_append]
  | pushFull buf pushed chunk hpush hchunk =>
    refine ⟨[], [], .refl ?_ rfl ?_⟩
    · simp only [CircularRun.accepted, hpush]
    · have hwritten : (s.buffer chunk).take s.pushChunkSize = s.buffer chunk := by
        have hsane := h.push
        rw [hpush] at hsane
        exact List.take_of_length_le (by rw [h.size, hsane.2.2])
      simp only [CircularRun.content, hchunk, Option.elim_some, Option.elim_none, hwritten, List.flatMap_append,
        List.flatMap_cons, List.flatMap_nil, List.append_nil, List.append_assoc]
  | callPop bufSize hpop =>
    refine ⟨[], [], .refl rfl ?_ rfl⟩
    simp only [CircularRun.popped, hpop]
  | returnPop bufSize buf hpop =>
    refine ⟨[], [], .refl rfl ?_ rfl⟩
    simp only [CircularRun.popped, hpop, List.flatten_append, List.flatten_cons, List.flatten_nil, List.append_nil]
  | takeFull bufSize buf chunk fullQueue hpop hchunk hqueue =>
    refine ⟨[], [], .refl rfl ?_ ?_⟩
    · simp only [CircularRun.popped, hpop]
    · simp only [CircularRun.content, hchunk, hqueue, Option.elim_some, Option.elim_none, Nat.sub_self, List.drop_zero,
        List.flatMap_cons, List.nil_append]
  | read bufSize toPop buf chunk hpop hchunk hleft =>
    refine ⟨[], slice (s.buffer chunk) (chunkSize - s.popChunkSize) toPop, ⟨(List.append_nil _).symm, ?_, ?_⟩⟩
    · have hpopped : CircularRun.popped s = s.pops.flatten ++ buf := by
        rw [CircularRun.popped, hpop]
      rw [hpopped, List.append_assoc, CircularRun.popped]
      by_cases hempty : s.popChunkSize - toPop = 0
      · simp only [if_pos hempty]
      · simp only [if_neg hempty]
    · have hsane := h.pop
      rw [hpop] at hsane
      obtain ⟨hpos, hle⟩ := hsane (by rw [hchunk]; exact Option.some_ne_none chunk)
      have hsplit : (s.buffer chunk).drop (chunkSize - s.popChunkSize)
          = slice (s.buffer chunk) (chunkSize - s.popChunkSize) toPop
            ++ (s.buffer chunk).drop (chunkSize - (s.popChunkSize - toPop)) := by
        rw [show chunkSize - (s.popChunkSize - toPop) = chunkSize - s.popChunkSize + toPop by omega, slice,
          ← List.drop_drop, List.take_append_drop]
      simp only [CircularRun.content, hchunk, Option.elim_some, hsplit, List.append_assoc, List.append_nil]
  | pushFree bufSize buf chunk hpop hchunk =>
    refine ⟨[], [], .refl rfl ?_ ?_⟩
    · simp only [CircularRun.popped, hpop]
    · have hread : (s.buffer chunk).drop (chunkSize - s.popChunkSize) = [] := by
        have hsane := h.pop
        rw [hpop] at hsane
        exact List.drop_of_length_le (by rw [h.size, hsane.2]; exact Nat.le_refl _)
      simp only [CircularRun.content, hchunk, Option.elim_some, Option.elim_none, hread]

/-! ## Runs -/

/-- There is room for all chunks in a queue. -/
theorem foldl_circularFifoPush (chunks queue : List (Fin chunksCount))
    (h : queue.length + chunks.length ≤ chunksCount) :
    chunks.foldl (fun queue chunk => (circularFifoPush queue chunk).getD queue) queue = queue ++ chunks := by
  induction chunks generalizing queue with
  | nil => exact (List.append_nil _).symm
  | cons chunk chunks ih =>
    rw [List.length_cons] at h
    rw [List.foldl_cons, circularFifoPush, if_pos (by omega), Option.getD_some, ih, List.append_assoc,
      List.singleton_append]
    rw [List.length_append, List.length_singleton]
    omega

theorem circularInv_init [NeZero chunksCount] (hsize : 0 < chunkSize) {memory : Fin chunksCount → Bytes}
    (hmemory : ∀ chunk, (memory chunk).length = chunkSize) :
    CircularInv chunkSize ⟨circularFlushChunks memory, .idle, .idle, [], []⟩ where
  size := hmemory
  chunks chunk := by
    have hqueue : (circularFlushChunks memory).freeQueue = (List.finRange chunksCount).drop 1 := by
      rw [circularFlushChunks, foldl_circularFifoPush, List.nil_append]
      rw [List.length_drop, List.length_finRange, List.length_nil]
      omega
    have hall : List.finRange chunksCount = 0 :: (List.finRange chunksCount).drop 1 := by
      obtain ⟨n, rfl⟩ := Nat.exists_eq_succ_of_ne_zero (NeZero.ne chunksCount)
      rw [List.finRange_succ]
      rfl
    have hone : (List.finRange chunksCount).count chunk = 1 :=
      List.count_eq_one_of_mem (List.nodup_finRange _) (List.mem_finRange _)
    rw [hall, List.count_cons] at hone
    rw [CircularBuffer.count_places]
    simp only [hqueue]
    simp only [circularFlushChunks, Option.toList_some, Option.toList_none, List.count_singleton, List.count_nil]
    omega
  push := fun _ => hsize
  pop := fun h => absurd rfl h
  short := by nofun

theorem circularInv_invariant [NeZero chunksCount] (hsize : 0 < chunkSize) :
    (@circularLts chunksCount _ chunkSize).Invariant (CircularInv chunkSize) where
  init := by
    rintro s ⟨memory, hmemory, rfl⟩
    exact circularInv_init hsize hmemory
  step := fun _ _ _ h hstep => (circularStep_move h hstep).inv hsize h

/-- The buffer is a queue of bytes, and no chunk is used by both threads. -/
structure CircularRight (s : CircularRun chunksCount) : Prop where
  inOrder : s.popped <+: s.accepted
  chunks : ∀ chunk, s.places.count chunk = 1
  apart : ∀ chunk, s.pushChunk = some chunk → s.popChunk ≠ some chunk
  push : ∀ f, s.push ≠ .fault f
  pop : ∀ f, s.pop ≠ .fault f
  short : ∀ call ∈ s.pushes, call.pushed ≤ call.buf.length ∧ (call.pushed < call.buf.length → call.freeQueue = [])

/-- **Whatever the order of the steps is, the bytes come out as they went in, every chunk is in one place, no
assertion fails, and less than everything is taken only if there is no free chunk.** -/
theorem circular_right [NeZero chunksCount] (hsize : 0 < chunkSize)
    (hr : (@circularLts chunksCount _ chunkSize).Reachable s) : CircularRight s := by
  have hfifo : (@circularLts chunksCount _ chunkSize).Invariant fun s =>
      CircularInv chunkSize s ∧ s.accepted = s.popped ++ s.content chunkSize :=
    Fifo.invariant (circularInv_invariant hsize) (by rintro s ⟨memory, -, rfl⟩; rfl)
      (fun s l s' h hstep => (circularStep_move h hstep).moves h)
  obtain ⟨hinv, heq⟩ := hfifo.reachable hr
  refine ⟨?_, hinv.chunks, fun chunk hchunk => (hinv.not_mem_of_push hchunk).2, fun f hfault => ?_, fun f hfault => ?_,
    hinv.short⟩
  · rw [heq]
    exact List.prefix_append _ _
  · have hsane := hinv.push
    rw [hfault] at hsane
    exact hsane
  · have hsane := hinv.pop
    rw [hfault] at hsane
    exact hsane

/-- Three bytes are put into two chunks of two bytes, and two are taken out. -/
theorem circular_right_run : ∃ s : CircularRun 2, (circularLts 2).Reachable s ∧ s.accepted = [1, 2, 3] ∧
    s.popped = [1, 2] ∧ CircularRight s := by
  have hrun : (Lts.runFun (circularStep 2)
      (⟨circularFlushChunks fun _ => [0, 0], .idle, .idle, [], []⟩ : CircularRun 2)
      [.push [1, 2, 3], .pushStep, .pushStep, .pushStep, .pop 2, .popStep, .popStep, .pushStep, .popStep, .popStep,
        .pushStep]).map (fun s => (s.accepted, s.popped)) = some ([1, 2, 3], [1, 2]) := by
    decide
  obtain ⟨s, hs, heq⟩ := Option.map_eq_some_iff.mp hrun
  obtain ⟨haccepted, hpopped⟩ := Prod.mk.inj heq
  have hr : (@circularLts 2 _ 2).Reachable s :=
    Lts.Reachable.runFun (.init ⟨fun _ => [0, 0], fun _ => rfl, rfl⟩) hs
  exact ⟨s, hr, haccepted, hpopped, circular_right (by decide) hr⟩

end Chiaki
