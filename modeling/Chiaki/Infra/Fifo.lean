import Chiaki.Infra.Transition

/-!
# Systems that are a queue

A system takes in some elements and gives out some, step by step. If every step moves the elements through what is
in the system in their order, what comes out is what went in.

* `Fifo.Moves` — what a step does
* `Fifo.invariant` — what comes out, with what is still inside, is what went in
-/

namespace Infra

namespace Fifo

variable {σ ℓ α : Type*} {M : Lts σ ℓ} {J : σ → Prop} {accepted popped content : σ → List α} {s s' : σ}

/-- A step lets `input` in behind what is inside, and `output` out in front of it. -/
structure Moves (accepted popped content : σ → List α) (s s' : σ) (input output : List α) : Prop where
  accepted : accepted s' = accepted s ++ input
  popped : popped s' = popped s ++ output
  content : content s ++ input = output ++ content s'

/-- A step that moves nothing. -/
theorem Moves.refl (ha : accepted s' = accepted s) (hp : popped s' = popped s) (hc : content s' = content s) :
    Moves accepted popped content s s' [] [] where
  accepted := by rw [ha, List.append_nil]
  popped := by rw [hp, List.append_nil]
  content := by rw [hc, List.append_nil, List.nil_append]

/-- **What has come out, with what is inside, is what went in.** -/
theorem invariant (hJ : M.Invariant J)
    (hinit : ∀ s, M.init s → accepted s = popped s ++ content s)
    (hstep : ∀ s l s', J s → M.step s l s' → ∃ input output, Moves accepted popped content s s' input output) :
    M.Invariant fun s => J s ∧ accepted s = popped s ++ content s := by
  refine hJ.and_of hinit fun s l s' hinv heq hst => ?_
  obtain ⟨input, output, ha, hp, hc⟩ := hstep s l s' hinv hst
  calc accepted s' = popped s ++ (content s ++ input) := by rw [ha, heq, List.append_assoc]
    _ = popped s' ++ content s' := by rw [hc, hp, List.append_assoc]

end Fifo

end Infra
