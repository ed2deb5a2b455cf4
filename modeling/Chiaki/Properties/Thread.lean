import Chiaki.Thread

/-!
# Deadlines

* `setTimeout_right_iff` — a deadline is a valid one unless its nanoseconds are a whole second, and no
  loop is ended by an invalid deadline otherwise
-/

namespace Chiaki

variable {now : Timespec} {ms n i : Nat} {w : CondWait}

/-! ## The arithmetic -/

/-- The nanoseconds are those of a part of a second. -/
def Timespec.Normalised (t : Timespec) : Prop := 0 ≤ t.tvNsec ∧ t.tvNsec < 10 ^ 9

instance (t : Timespec) : Decidable t.Normalised := inferInstanceAs (Decidable (_ ∧ _))

/-- The time in nanoseconds. -/
def Timespec.nanos (t : Timespec) : Int := t.tvSec * 10 ^ 9 + t.tvNsec

/-- The seconds of the deadline can be represented. -/
structure TimeoutFits (now : Timespec) (ms : Nat) : Prop where
  normalised : now.Normalised
  low : -2 ^ 63 ≤ now.tvSec
  high : now.nanos + ms * 10 ^ 6 < 2 ^ 63 * 10 ^ 9

/-- The nanoseconds do not add up to a whole second. -/
def NotWholeSecond (now : Timespec) (ms : Nat) : Prop :=
  now.tvNsec + (ms % 1000 * 10 ^ 6 : Nat) ≠ 10 ^ 9

instance (now : Timespec) (ms : Nat) : Decidable (NotWholeSecond now ms) := inferInstanceAs (Decidable (_ ≠ _))

theorem toInt64_eq {n : Int} (hlow : -2 ^ 63 ≤ n) (hhigh : n < 2 ^ 63) : toInt64 n = n :=
  Int.bmod_eq_of_le_mul_two (by omega) (by omega)

/-- The two cases of `set_timeout`. -/
theorem setTimeout_eq (h : TimeoutFits now ms) :
    setTimeout now ms = if now.tvNsec + (ms % 1000 * 1000000 : Nat) > 1000000000 then
        ⟨now.tvSec + (ms / 1000 : Nat) + 1, now.tvNsec + (ms % 1000 * 1000000 : Nat) - 1000000000⟩
      else ⟨now.tvSec + (ms / 1000 : Nat), now.tvNsec + (ms % 1000 * 1000000 : Nat)⟩ := by
  obtain ⟨⟨hnonneg, hlt⟩, hlow, hhigh⟩ := h
  unfold Timespec.nanos at hhigh
  have hsec : toInt64 (now.tvSec + (ms / 1000 : Nat)) = now.tvSec + (ms / 1000 : Nat) :=
    toInt64_eq (by omega) (by omega)
  have hnsec : toInt64 (now.tvNsec + (ms % 1000 * 1000000 : Nat)) = now.tvNsec + (ms % 1000 * 1000000 : Nat) :=
    toInt64_eq (by omega) (by omega)
  unfold setTimeout
  simp only [hsec, hnsec]
  split
  · next hcarry =>
    have hdiv : (now.tvNsec + (ms % 1000 * 1000000 : Nat)).tdiv 1000000000 = 1 := by
      rw [Int.tdiv_eq_ediv_of_nonneg (by omega)]
      omega
    have hmod : (now.tvNsec + (ms % 1000 * 1000000 : Nat)).tmod 1000000000
        = now.tvNsec + (ms % 1000 * 1000000 : Nat) - 1000000000 := by
      rw [Int.tmod_eq_emod_of_nonneg (by omega)]
      omega
    rw [hdiv, hmod, toInt64_eq (by omega) (by omega)]
  · rfl

theorem setTimeout_nanos (h : TimeoutFits now ms) : (setTimeout now ms).nanos = now.nanos + ms * 10 ^ 6 := by
  rw [setTimeout_eq h]
  unfold Timespec.nanos
  split <;> simp only <;> omega

theorem setTimeout_normalised (h : TimeoutFits now ms) :
    (setTimeout now ms).Normalised ↔ NotWholeSecond now ms := by
  obtain ⟨hnonneg, hlt⟩ := h.normalised
  rw [setTimeout_eq h]
  unfold Timespec.Normalised NotWholeSecond
  split <;> simp only <;> omega

/-! ## Waiting -/

/-- `pthread_cond_timedwait` as POSIX has it: it rejects a deadline if and only if its nanoseconds are not
those of a part of a second. -/
structure PosixTimedwait (timedwait : Timespec → Nat → PthreadResult) : Prop where
  valid : ∀ t i, t.Normalised → timedwait t i ≠ .invalid
  invalid : ∀ t i, ¬ t.Normalised → timedwait t i = .invalid

theorem condTimedwaitAbs_unknown {r : PthreadResult} : condTimedwaitAbs r = .unknown ↔ r = .invalid := by
  cases r <;> simp [condTimedwaitAbs]

/-- A wait with a valid deadline does not fail. -/
theorem condTimedwaitLoop_ne_unknown {timeout : Timespec} (hposix : PosixTimedwait w.timedwait)
    (h : timeout.Normalised) : condTimedwaitLoop w timeout n i ≠ some .unknown := by
  induction n generalizing i with
  | zero => nofun
  | succ n ih =>
    have hvalid : condTimedwaitAbs (w.timedwait timeout i) ≠ .unknown := fun hunknown =>
      hposix.valid timeout i h (condTimedwaitAbs_unknown.mp hunknown)
    rw [condTimedwaitLoop]
    by_cases hpred : w.pred i = true
    · rw [if_pos hpred]
      nofun
    · rw [if_neg hpred]
      by_cases herr : condTimedwaitAbs (w.timedwait timeout i) ≠ .success
      · simp only [if_pos herr]
        exact fun hunknown => hvalid (Option.some.inj hunknown)
      · simp only [if_neg herr]
        exact ih

/-! ## Loops -/

theorem waitLoop_ne {α : Type} {wait : α → Option ErrorCode} {goesOn : α → ErrorCode → Bool} {err : ErrorCode}
    {rounds : List α} (h : ∀ round ∈ rounds, wait round ≠ some err) : waitLoop wait goesOn rounds ≠ some err := by
  induction rounds with
  | nil => nofun
  | cons round rounds ih =>
    obtain ⟨hround, hrounds⟩ := List.forall_mem_cons.mp h
    rw [waitLoop]
    cases hwait : wait round with
    | none => nofun
    | some err' =>
      simp only
      by_cases hgoes : goesOn round err' = true
      · rw [if_pos hgoes]
        exact ih hrounds
      · rw [if_neg hgoes, ← hwait]
        exact hround

/-- A round of a loop that is not at one of the times where the deadline is invalid. -/
structure RightRound (ms : Nat) (w : CondWait) : Prop where
  fits : TimeoutFits w.now ms
  notWhole : NotWholeSecond w.now ms
  posix : PosixTimedwait w.timedwait

theorem RightRound.condTimedwaitPred (h : RightRound ms w) : condTimedwaitPred w ms n ≠ some .unknown :=
  condTimedwaitLoop_ne_unknown h.posix ((setTimeout_normalised h.fits).mpr h.notWhole)

/-! ## Both -/

/-- The deadline is a valid one, and the right one, and no wait fails because of it. -/
structure DeadlineRight (now : Timespec) (ms : Nat) : Prop where
  normalised : (setTimeout now ms).Normalised
  exact : (setTimeout now ms).nanos = now.nanos + ms * 10 ^ 6
  wait : ∀ w : CondWait, w.now = now → PosixTimedwait w.timedwait → condTimedwait w ms ≠ .unknown
  waitPred : ∀ (w : CondWait) (n : Nat), w.now = now → PosixTimedwait w.timedwait →
    condTimedwaitPred w ms n ≠ some .unknown

/-- **The deadline is right if and only if its nanoseconds are not a whole second**, and a loop all rounds of
which have such deadlines is not ended by an error. -/
theorem setTimeout_right_iff (h : TimeoutFits now ms) : (DeadlineRight now ms ↔ NotWholeSecond now ms) ∧
    (∀ n ws, (∀ w ∈ ws, RightRound heartbeatIntervalMs w) → streamConnectionHeartbeats n ws ≠ some .unknown) ∧
    (∀ n ws, (∀ w ∈ ws, RightRound congestionControlIntervalMs w) →
      congestionControlThread n ws ≠ some .unknown) ∧
    ∀ n rounds, (∀ r : ResendRound, r ∈ rounds → r.packetsCount ≠ 0 →
      RightRound takionDataResendWakeupTimeoutMs r.wait) → takionSendBufferThread n rounds ≠ some .unknown := by
  refine ⟨⟨fun hright => (setTimeout_normalised h).mp hright.normalised, fun hnot => ?_⟩,
    fun n ws hws => waitLoop_ne fun w hw => (hws w hw).condTimedwaitPred,
    fun n ws hws => waitLoop_ne fun w hw => (hws w hw).condTimedwaitPred, fun n rounds hrounds => ?_⟩
  · have hnormalised := (setTimeout_normalised h).mpr hnot
    refine ⟨hnormalised, setTimeout_nanos h, fun w hw hposix => ?_, fun w n hw hposix => ?_⟩
    · subst hw
      exact fun hunknown => hposix.valid _ 0 hnormalised (condTimedwaitAbs_unknown.mp hunknown)
    · subst hw
      exact condTimedwaitLoop_ne_unknown hposix hnormalised
  · refine waitLoop_ne fun r hr => ?_
    by_cases hpackets : r.packetsCount ≠ 0
    · rw [if_pos hpackets]
      exact (hrounds r hr hpackets).condTimedwaitPred
    · rw [if_neg hpackets]
      nofun

/-- A wait in which nothing happens until the deadline. -/
def idleWait (now : Timespec) : CondWait where
  now := now
  timedwait := fun t _ => if t.Normalised then .timedOut else .invalid
  pred := fun _ => false

theorem idleWait_posix (now : Timespec) : PosixTimedwait (idleWait now).timedwait where
  valid := fun _ _ h hinvalid => nomatch (if_pos h).symm.trans hinvalid
  invalid := fun _ _ h => if_neg h

theorem setTimeout_right_second : DeadlineRight ⟨5, 0⟩ 1500 :=
  (setTimeout_right_iff ⟨⟨by decide, by decide⟩, by decide, by decide⟩).1.mpr (by decide)

/-- 200 ms after 0.8 s, the congestion control waits for a deadline of 1000000000 ns, and ends. -/
theorem not_setTimeout_right : setTimeout ⟨5, 800000000⟩ 200 = ⟨5, 1000000000⟩ ∧
    ¬ DeadlineRight ⟨5, 800000000⟩ 200 ∧
    congestionControlThread 1 [idleWait ⟨5, 800000000⟩, idleWait ⟨6, 0⟩] = some .unknown := by
  refine ⟨by decide, fun h => ?_, by decide⟩
  exact absurd h.normalised.2 (by decide)

end Chiaki
