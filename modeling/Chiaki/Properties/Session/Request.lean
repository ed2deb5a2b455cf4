import Chiaki.Session.Request

/-!
# The quit reason of a session request

Every way out with an error writes a quit reason, unless the version of the server is known and the request
is to be repeated (`sessionThreadRequestSession_ends`).
-/

namespace Chiaki

open Infra

variable {info : SessionConnectInfo} {env : SessionRequestEnv} {s : SessionRequest} {targetOut : Option Target}
  {result : SessionRequestResult}

/-- The quit reasons of a session request. -/
def QuitReason.isSessionRequest : QuitReason → Bool
  | .sessionRequestUnknown | .sessionRequestConnectionRefused | .sessionRequestRpInUse | .sessionRequestRpCrash
  | .sessionRequestRpVersionMismatch => true
  | _ => false

/-- How a call ends: with success, with a quit reason, or with the known version of the server. -/
inductive SessionRequestEnds (targetOut : Option Target) : SessionRequestResult → Prop
  | success (s : SessionRequest) (target : Option Target) : SessionRequestEnds targetOut (s, target, .success)
  | failed (s : SessionRequest) (target : Option Target) (err : ErrorCode) (hreason : s.quitReason ≠ .none) :
    SessionRequestEnds targetOut (s, target, err)
  | again (s : SessionRequest) (target : Target) (hout : targetOut.isSome = true) (hknown : target.isUnknown = false) :
    SessionRequestEnds targetOut (s, some target, .versionMismatch)

theorem sessionApplicationReason_ends (s : SessionRequest) (errorCode : Nat) :
    (sessionApplicationReason s errorCode).1.quitReason ≠ .none := by
  unfold sessionApplicationReason
  split_ifs <;> nofun

/-- **The response.** -/
theorem sessionRequestResponse_ends {charSigned : Bool} {rpVersionStr : Bytes} {response : SessionResponse}
    (h : sessionRequestResponse info charSigned s targetOut rpVersionStr response = .ok result) :
    SessionRequestEnds targetOut result := by
  have happlication : ∀ s, SessionRequestEnds targetOut
      ((sessionApplicationReason s response.errorCode).1, targetOut,
        (sessionApplicationReason s response.errorCode).2) := fun s =>
    .failed _ _ _ (sessionApplicationReason_ends s _)
  unfold sessionRequestResponse at h
  split at h
  · obtain ⟨⟨bytes, nonceLen, err⟩, -, h⟩ := bind_eq_ok_iff.mp h
    simp only at h
    split at h
    · cases h
      exact .failed _ _ _ nofun
    · cases h
      exact .success _ _
  · split at h
    · split at h
      · simp only [sessionVersionTarget] at h
        split_ifs at h with hunknown hfive
        · cases h
          exact .again _ _ rfl (by simpa using hunknown)
        · cases h
          exact .again _ _ rfl rfl
        · cases h
          exact .failed _ _ _ nofun
      · cases h
        exact happlication s
    · cases h
      exact happlication s

/-- **Every way out of the function.** -/
theorem sessionThreadRequestSession_ends
    (h : sessionThreadRequestSession info env s targetOut = .ok (some result)) :
    SessionRequestEnds targetOut result := by
  unfold sessionThreadRequestSession at h
  generalize sessionRequestConnect s env.addresses = connected at h
  obtain ⟨s, connected⟩ := connected
  simp only at h
  have hfailed : ∀ err, SessionRequestEnds targetOut ({ s with quitReason := .sessionRequestUnknown }, targetOut, err) :=
    fun err => .failed _ _ _ nofun
  split at h
  · cases h
    split
    · exact hfailed _
    · next hreason => exact .failed _ _ _ hreason
  split at h
  · cases h
    exact hfailed _
  split at h
  · cases h
    exact hfailed _
  · cases h
  split at h
  · cases h
    exact hfailed _
  split at h
  · cases h
    exact hfailed _
  obtain ⟨buf, -, h⟩ := bind_eq_ok_iff.mp h
  split at h
  · cases h
  · cases h
    split
    · exact .failed _ _ _ nofun
    · exact hfailed _
  · obtain ⟨⟨mem, response⟩, -, h⟩ := bind_eq_ok_iff.mp h
    simp only at h
    split at h
    · cases h
      exact hfailed _
    · split at h
      · cases h
      · obtain ⟨result', hresponse, h⟩ := bind_eq_ok_iff.mp h
        cases h
        exact sessionRequestResponse_ends hresponse

end Chiaki
