import Mathlib.Data.Bool.AllAny
import Chiaki.Discovery
import Chiaki.Properties.Http.Header
import Chiaki.Properties.Regist.Request

/-!
# The requests to the consoles

Both requests fit their buffer, and the headers in them are those that a parser of headers reads. The ports of the
range are tried one after another, and a socket that is only there for one request is closed.

* `discoveryWakeup_right` — waking up a console
-/

namespace Chiaki

open Infra

variable {bind : Nat → Bool} {family : SaFamily} {stack : Bytes} {sendto : Bool} {addr : DiscoveryAddr}
  {packet : DiscoveryPacket}

/-! ## Headers of requests -/

/-- What the request to wake up a console says. The NUL at its end was sent, too. -/
def ReadsWakeup (userCredential : Nat) (ps5 : Bool) (data : Bytes) : Prop :=
  ∃ text raws value, data = ascii "WAKEUP * HTTP/1.1\n" ++ text ++ [0] ∧ ReadsHeaders text raws ∧
    raws.lookup (ascii "user-credential") = some value ∧ StrTo.strtoull 10 value = userCredential ∧
    raws.lookup (ascii "device-discovery-protocol-version") = some (discoveryProtocolVersion ps5)

/-- What the request for all consoles of a kind says. -/
def ReadsSearch (ps5 : Bool) (data : Bytes) : Prop :=
  ∃ text, data = ascii "SRCH * HTTP/1.1\n" ++ text ++ [0] ∧
    ReadsHeaders text [(ascii "device-discovery-protocol-version", discoveryProtocolVersion ps5)]

/-- One line is read. -/
theorem readsHeaders_line {key value line rest : Bytes} {raws : List RawHeader}
    (hline : line = key ++ 0x3a :: (value ++ [0x0a]))
    (hkey : key.all (fun c => decide (c ≠ 0 ∧ c ≠ 0x3a ∧ ¬ isLineEnd c)) = true) (hne : key ≠ [])
    (hvalue : value.all (fun c => decide (c ≠ 0 ∧ ¬ isLineEnd c)) = true)
    (hspace : ∃ first rest, value = first :: rest ∧ first ≠ 0x20) (hrest : ReadsHeaders rest raws) :
    ReadsHeaders (line ++ rest) ((key, value) :: raws) := by
  obtain ⟨first, value, rfl, hfirst⟩ := hspace
  have hheader := ReadsHeaders.header key [] first value 0x0a rest raws (List.all_iff_forall_prop.mp hkey) hne
    (.inl ⟨rfl, hfirst⟩) (fun c hc => List.all_iff_forall_prop.mp hvalue c (List.mem_cons_of_mem _ hc)) (.inr rfl)
    hrest
  rw [hline]
  simpa using hheader

theorem unsigned_text (n : Nat) : (StrTo.unsigned n).all (fun c => decide (c ≠ 0 ∧ ¬ isLineEnd c)) = true ∧
    ∃ first rest, StrTo.unsigned n = first :: rest ∧ first ≠ 0x20 := by
  have hdigits : ∀ c ∈ StrTo.unsigned n, (c ≠ 0 ∧ ¬ isLineEnd c) ∧ c ≠ 0x20 := by
    intro c hc
    obtain ⟨d, hd, rfl⟩ := StrTo.mem_unsigned hc
    interval_cases d <;> decide
  obtain ⟨first, rest, hcons⟩ := List.exists_cons_of_ne_nil (StrTo.unsigned_ne_nil n)
  refine ⟨List.all_iff_forall_prop.mpr fun c hc => (hdigits c hc).1, first, rest, hcons, (hdigits first ?_).2⟩
  rw [hcons]
  exact List.mem_cons_self

/-- The line with the version is the last one. -/
theorem readsHeaders_version (ps5 : Bool) :
    ReadsHeaders (ascii "device-discovery-protocol-version:" ++ discoveryProtocolVersion ps5 ++ ascii "\n")
      [(ascii "device-discovery-protocol-version", discoveryProtocolVersion ps5)] := by
  have hend : ReadsHeaders [] [] := .ended [] [] nofun (.inl rfl)
  have hvalue : (discoveryProtocolVersion ps5).all (fun c => decide (c ≠ 0 ∧ ¬ isLineEnd c)) = true ∧
      ∃ first rest, discoveryProtocolVersion ps5 = first :: rest ∧ first ≠ 0x20 := by
    cases ps5
    · exact ⟨by decide, _, _, rfl, by decide⟩
    · exact ⟨by decide, _, _, rfl, by decide⟩
  have hline : ascii "device-discovery-protocol-version:" ++ discoveryProtocolVersion ps5 ++ ascii "\n"
      = ascii "device-discovery-protocol-version" ++ 0x3a :: (discoveryProtocolVersion ps5 ++ [0x0a]) := by
    cases ps5 <;> decide
  rw [← List.append_nil (_ ++ ascii "\n")]
  exact readsHeaders_line hline (by decide) (by decide) hvalue.1 hvalue.2 hend

/-! ## Sending -/

/-- A request that fits is sent with its NUL, if the socket is one for the address. -/
theorem discoverySend_text {text : Bytes} (hstack : stack.length = discoveryBufSize) (hfits : text.length < discoveryBufSize)
    (hfmt : discoveryPacketFmt stack discoveryBufSize packet = snprintf stack 0 discoveryBufSize text) :
    discoverySend stack sendto family packet addr
      = .ok (if addr.saFamily ≠ family then ([], .invalidData)
          else ([.sendto addr (text ++ [0])], if sendto then .success else .network)) := by
  have hbuf : discoveryBufSize = 512 := rfl
  have hlength : (text ++ [0]).length = text.length + 1 := List.length_append
  unfold discoverySend
  by_cases hfamily : addr.saFamily ≠ family
  · rw [if_pos hfamily, if_pos hfamily]
    rfl
  · rw [if_neg hfamily, if_neg hfamily, hfmt, snprintf_fits (by omega) hfits (by omega)]
    simp only [bind, Except.bind, pure, Except.pure]
    rw [Int.toNat_natCast, if_neg (by omega), if_neg (by omega), slice_splice hlength (by omega)]

/-- **The request for all consoles of a kind** is sent, and says which kind. -/
theorem discoverySend_search (hstack : stack.length = discoveryBufSize) (ps5 : Bool) :
    ∃ data, ReadsSearch ps5 data ∧
      discoverySend stack sendto family (discoverySearchPacket ps5) addr
        = .ok (if addr.saFamily ≠ family then ([], .invalidData)
            else ([.sendto addr data], if sendto then .success else .network)) := by
  refine ⟨_, ⟨_, rfl, readsHeaders_version ps5⟩, discoverySend_text hstack ?_ ?_⟩
  · cases ps5 <;> decide
  · have hline : ascii "SRCH * HTTP/1.1\ndevice-discovery-protocol-version:"
        = ascii "SRCH * HTTP/1.1\n" ++ ascii "device-discovery-protocol-version:" := by decide
    simp only [discoveryPacketFmt, discoverySearchPacket, hline, List.append_assoc]

/-- The headers of the request to wake up a console. -/
theorem readsHeaders_wakeup (userCredential : Nat) (ps5 : Bool) :
    ReadsHeaders (ascii "client-type:vr\n" ++ (ascii "auth-type:R\n" ++ (ascii "model:w\n" ++ (ascii "app-type:r\n"
        ++ (ascii "user-credential:" ++ StrTo.unsigned userCredential ++ ascii "\n"
          ++ (ascii "device-discovery-protocol-version:" ++ discoveryProtocolVersion ps5 ++ ascii "\n"))))))
      [(ascii "client-type", ascii "vr"), (ascii "auth-type", ascii "R"), (ascii "model", ascii "w"),
        (ascii "app-type", ascii "r"), (ascii "user-credential", StrTo.unsigned userCredential),
        (ascii "device-discovery-protocol-version", discoveryProtocolVersion ps5)] := by
  obtain ⟨hvalue, hspace⟩ := unsigned_text userCredential
  have hcredential : ascii "user-credential:" ++ StrTo.unsigned userCredential ++ ascii "\n"
      = ascii "user-credential" ++ 0x3a :: (StrTo.unsigned userCredential ++ [0x0a]) := by
    rw [show ascii "user-credential:" = ascii "user-credential" ++ [0x3a] by decide, List.append_assoc, List.append_assoc]
    rfl
  refine readsHeaders_line (by decide) (by decide) (by decide) (by decide) ⟨_, _, rfl, by decide⟩ ?_
  refine readsHeaders_line (by decide) (by decide) (by decide) (by decide) ⟨_, _, rfl, by decide⟩ ?_
  refine readsHeaders_line (by decide) (by decide) (by decide) (by decide) ⟨_, _, rfl, by decide⟩ ?_
  refine readsHeaders_line (by decide) (by decide) (by decide) (by decide) ⟨_, _, rfl, by decide⟩ ?_
  exact readsHeaders_line hcredential (by decide) (by decide) hvalue hspace (readsHeaders_version ps5)

/-- **The request to wake up a console** is sent, and says the credential. -/
theorem discoverySend_wakeup (hstack : stack.length = discoveryBufSize) {userCredential : Nat}
    (hcredential : userCredential < 2 ^ 64) (ps5 : Bool) :
    ∃ data, ReadsWakeup userCredential ps5 data ∧
      discoverySend stack sendto family (discoveryWakeupPacket userCredential ps5) addr
        = .ok (if addr.saFamily ≠ family then ([], .invalidData)
            else ([.sendto addr data], if sendto then .success else .network)) := by
  have hdigits := StrTo.length_unsigned hcredential
  have hversion : (discoveryProtocolVersion ps5).length = 8 := by cases ps5 <;> rfl
  refine ⟨_, ⟨_, _, _, rfl, readsHeaders_wakeup userCredential ps5, ?_, StrTo.strtoull_unsigned hcredential (.inr rfl), ?_⟩,
    discoverySend_text hstack ?_ ?_⟩
  · rfl
  · rfl
  · have hfixed : (ascii "WAKEUP * HTTP/1.1\n").length = 18 ∧ (ascii "client-type:vr\n").length = 15 ∧
        (ascii "auth-type:R\n").length = 12 ∧ (ascii "model:w\n").length = 8 ∧ (ascii "app-type:r\n").length = 11 ∧
        (ascii "user-credential:").length = 16 ∧ (ascii "\n").length = 1 ∧
        (ascii "device-discovery-protocol-version:").length = 34 := by decide
    simp only [List.length_append, show discoveryBufSize = 512 from rfl]
    omega
  · simp only [discoveryPacketFmt, discoveryWakeupPacket, List.append_assoc]

/-! ## Binding -/

/-- The ports from one on, and any port at the end. -/
def localPorts (port : Nat) : List Nat := List.range' port (discoveryPortLocalMax + 1 - port) ++ [0]

/-- The ports are tried in their order, up to the first one that can be bound. -/
theorem discoveryBindLoop_ports {n port : Nat} (hport : 0 < port ∧ port ≤ discoveryPortLocalMax)
    (hn : discoveryPortLocalMax + 2 - port ≤ n) :
    discoveryBindLoop bind n port
      = (((localPorts port).take ((localPorts port).findIdx bind + 1)).map .bind, (localPorts port).any bind) := by
  have hmax : discoveryPortLocalMax = 9319 := rfl
  induction n generalizing port with
  | zero => omega
  | succ n ih =>
    have hcons : localPorts port = port :: (if port = discoveryPortLocalMax then [0] else localPorts (port + 1)) := by
      unfold localPorts
      rw [show discoveryPortLocalMax + 1 - port = discoveryPortLocalMax - port + 1 by omega, List.range'_succ]
      by_cases hlast : port = discoveryPortLocalMax
      · simp [hlast]
      · simp [hlast]
    rw [discoveryBindLoop, hcons, List.findIdx_cons, List.any_cons]
    cases hbind : bind port with
    | true => simp
    | false =>
      rw [if_neg (by simp; omega)]
      by_cases hlast : port = discoveryPortLocalMax
      · obtain ⟨n, rfl⟩ : ∃ m, n = m + 1 := ⟨n - 1, by omega⟩
        simp only [if_pos hlast, discoveryBindLoop, or_true, if_true]
        cases hzero : bind 0 <;> simp [hzero]
      · simp only [if_neg hlast]
        rw [Nat.mod_eq_of_lt (by omega), ih ⟨by omega, by omega⟩ (by omega)]
        simp

/-- A socket for IPv4 is bound to the first port that is free, or closed. -/
theorem discoveryInit_inet (socket : Bool) (bind : Nat → Bool) :
    discoveryInit socket bind .inet
      = .ok (if socket then
          let binds := ((localPorts discoveryPortLocalMin).take
            ((localPorts discoveryPortLocalMin).findIdx bind + 1)).map DiscoveryAction.bind
          if (localPorts discoveryPortLocalMin).any bind then (.socket :: binds, .success)
          else (.socket :: binds ++ [.close], .network)
        else ([], .network)) := by
  unfold discoveryInit
  rw [if_neg (by decide)]
  cases socket with
  | false => rfl
  | true =>
    rw [if_neg (by decide), if_neg (by decide), discoveryBindLoop_ports ⟨by decide, by decide⟩ (by decide)]
    rfl

/-! ## Waking up -/

def DiscoveryAction.isSendto : DiscoveryAction → Bool
  | .sendto _ _ => true
  | _ => false

/-- How waking up a console ends. -/
structure WakeupRight (env : DiscoveryWakeupEnv) (userCredential : Nat) (ps5 : Bool) (actions : List DiscoveryAction)
    (err : ErrorCode) : Prop where
  request : ∀ addr data, .sendto addr data ∈ actions → addr.port = discoveryPort ps5 ∧
    ReadsWakeup userCredential ps5 data
  once : actions.countP DiscoveryAction.isSendto ≤ 1
  ports : ∀ port, .bind port ∈ actions → port ∈ localPorts discoveryPortLocalMin
  closed : actions.count .close = actions.count .socket
  success : err = .success ↔ env.sendto = true ∧ ∃ addr data, .sendto addr data ∈ actions

variable {env : DiscoveryWakeupEnv} {userCredential : Nat} {ps5 : Bool} {actions : List DiscoveryAction}
  {err : ErrorCode}

/-- Nothing was sent. -/
theorem wakeupRight_quiet (hquiet : ∀ addr data, .sendto addr data ∉ actions)
    (hports : ∀ port, .bind port ∈ actions → port ∈ localPorts discoveryPortLocalMin)
    (hclosed : actions.count .close = actions.count .socket) (herr : err ≠ .success) :
    WakeupRight env userCredential ps5 actions err where
  request addr data h := absurd h (hquiet addr data)
  once := by
    have hnone : actions.countP DiscoveryAction.isSendto = 0 := by
      refine List.countP_eq_zero.mpr fun action h => ?_
      cases action with
      | sendto addr data => exact absurd h (hquiet addr data)
      | _ => simp [DiscoveryAction.isSendto]
    omega
  ports := hports
  closed := hclosed
  success := ⟨fun h => absurd h herr, fun ⟨_, addr, data, h⟩ => absurd h (hquiet addr data)⟩

/-- The request was sent between what opens a socket and what closes it. -/
theorem wakeupRight_sent {opened : List DiscoveryAction} {data : Bytes}
    (hport : addr.port = discoveryPort ps5) (hdata : ReadsWakeup userCredential ps5 data)
    (hopened : ∀ action ∈ opened, action = .socket ∨ ∃ port ∈ localPorts discoveryPortLocalMin, action = .bind port) :
    WakeupRight env userCredential ps5
      (opened ++ [.sendto addr data] ++ List.replicate (opened.count .socket) .close)
      (if env.sendto then .success else .network) := by
  have hsent : ∀ addr' data', .sendto addr' data' ∈ opened ++ [.sendto addr data]
      ++ List.replicate (opened.count .socket) .close → addr' = addr ∧ data' = data := by
    intro addr' data' h
    simp only [List.mem_append, List.mem_singleton] at h
    rcases h with (h | h) | h
    · rcases hopened _ h with h | ⟨port, -, h⟩ <;> cases h
    · cases h
      exact ⟨rfl, rfl⟩
    · cases List.eq_of_mem_replicate h
  have hopenedCount : opened.countP DiscoveryAction.isSendto = 0 := by
    refine List.countP_eq_zero.mpr fun action h => ?_
    rcases hopened _ h with rfl | ⟨port, -, rfl⟩ <;> simp [DiscoveryAction.isSendto]
  have hopenedClose : opened.count .close = 0 := by
    refine List.count_eq_zero.mpr fun h => ?_
    rcases hopened _ h with h | ⟨port, -, h⟩ <;> cases h
  refine ⟨?_, ?_, ?_, ?_, ?_⟩
  · intro addr' data' h
    obtain ⟨rfl, rfl⟩ := hsent addr' data' h
    exact ⟨hport, hdata⟩
  · rw [List.countP_append, List.countP_append, hopenedCount, List.countP_replicate]
    simp [DiscoveryAction.isSendto]
  · intro port h
    simp only [List.mem_append, List.mem_singleton, List.mem_replicate, reduceCtorEq, and_false, or_false] at h
    rcases hopened _ h with h | ⟨port', hmem, h⟩
    · cases h
    · cases h
      exact hmem
  · simp [List.count_append, hopenedClose, List.count_replicate]
  · have hmem : ∃ addr' data', DiscoveryAction.sendto addr' data'
        ∈ opened ++ [.sendto addr data] ++ List.replicate (opened.count .socket) .close := ⟨addr, data, by simp⟩
    cases hok : env.sendto <;> simp only [hmem, Bool.false_eq_true, if_false, if_true, and_true, reduceCtorEq]

/-- A socket, and the ports that are tried. -/
theorem opened_right (bind : Nat → Bool) :
    let opened := DiscoveryAction.socket :: ((localPorts discoveryPortLocalMin).take
      ((localPorts discoveryPortLocalMin).findIdx bind + 1)).map DiscoveryAction.bind
    (∀ action ∈ opened, action = .socket ∨ ∃ port ∈ localPorts discoveryPortLocalMin, action = .bind port) ∧
      opened.count .socket = 1 := by
  intro opened
  refine ⟨fun action h => ?_, ?_⟩
  · rcases List.mem_cons.mp h with rfl | h
    · exact .inl rfl
    · obtain ⟨port, hport, rfl⟩ := List.mem_map.mp h
      exact .inr ⟨port, List.mem_of_mem_take hport, rfl⟩
  · rw [List.count_cons_self, List.count_eq_zero.mpr]
    intro h
    obtain ⟨port, -, h⟩ := List.mem_map.mp h
    cases h

/-- What was opened is closed again, and nothing was sent. -/
theorem wakeupRight_closed {opened : List DiscoveryAction}
    (hopened : ∀ action ∈ opened, action = .socket ∨ ∃ port ∈ localPorts discoveryPortLocalMin, action = .bind port)
    (hone : opened.count .socket = 1) (herr : err ≠ .success) :
    WakeupRight env userCredential ps5 (opened ++ [.close]) err := by
  refine wakeupRight_quiet ?_ ?_ ?_ herr
  · intro addr data h
    rcases List.mem_append.mp h with h | h
    · rcases hopened _ h with h | ⟨port, -, h⟩ <;> cases h
    · cases List.mem_singleton.mp h
  · intro port h
    rcases List.mem_append.mp h with h | h
    · rcases hopened _ h with h | ⟨port', hmem, h⟩
      · cases h
      · cases h
        exact hmem
    · cases List.mem_singleton.mp h
  · have hclose : opened.count .close = 0 := by
      refine List.count_eq_zero.mpr fun h => ?_
      rcases hopened _ h with h | ⟨port, -, h⟩ <;> cases h
    simp [List.count_append, hclose, hone]

/-- **Waking up a console**: its request is sent once at most, on the port of its kind, and says the credential; a
socket that was made for it is closed. It succeeds if and only if the request was sent. -/
theorem discoveryWakeup_right (hstack : env.stack.length = discoveryBufSize) (hcredential : userCredential < 2 ^ 64)
    (discovery : Option SaFamily) (ps5 : Bool) :
    ∃ actions err, discoveryWakeup env discovery userCredential ps5 = .ok (actions, err) ∧
      WakeupRight env userCredential ps5 actions err := by
  have hnothing : ∀ {err}, err ≠ .success → WakeupRight env userCredential ps5 [] err := fun herr =>
    wakeupRight_quiet (by simp) (by simp) rfl herr
  unfold discoveryWakeup
  cases env.addrinfos with
  | none => exact ⟨[], .network, rfl, hnothing (by decide)⟩
  | some addrinfos =>
    simp only
    cases addrinfos.find? fun ai => ai.family = .inet ∧ ai.addrLen ≤ sizeofSockaddr with
    | none => exact ⟨[], .unknown, rfl, hnothing (by decide)⟩
    | some ai =>
      by_cases hlen : ai.addrLen = 0
      · exact ⟨[], .unknown, by simp only [if_pos hlen], hnothing (by decide)⟩
      simp only [if_neg hlen]
      obtain ⟨data, hdata, hsend⟩ := @discoverySend_wakeup (discovery.getD .inet) env.stack env.sendto
        { ai.addr with port := discoveryPort ps5 } hstack userCredential hcredential ps5
      cases discovery with
      | some family =>
        simp only [Option.getD_some] at hsend
        by_cases hfamily : ai.addr.saFamily ≠ family
        · rw [if_pos hfamily] at hsend
          exact ⟨_, _, hsend, hnothing (by decide)⟩
        · rw [if_neg hfamily] at hsend
          exact ⟨_, _, hsend, @wakeupRight_sent _ env userCredential ps5 [] data rfl hdata (by simp)⟩
      | none =>
        simp only [Option.getD_none] at hsend
        rw [discoveryInit_inet]
        cases hsocket : env.socket with
        | false => exact ⟨[], .network, rfl, hnothing (by decide)⟩
        | true =>
          obtain ⟨hbinds, hcount⟩ := opened_right env.bind
          generalize ((localPorts discoveryPortLocalMin).take
            ((localPorts discoveryPortLocalMin).findIdx env.bind + 1)).map DiscoveryAction.bind = binds at hbinds hcount ⊢
          simp only [if_true]
          by_cases hbound : (localPorts discoveryPortLocalMin).any env.bind = true
          · rw [if_pos hbound]
            by_cases hfamily : ai.addr.saFamily ≠ .inet
            · rw [if_pos hfamily] at hsend
              simp only [bind, Except.bind, pure, Except.pure, hsend, ne_eq, not_true_eq_false, if_false,
                List.append_nil]
              exact ⟨_, _, rfl, wakeupRight_closed hbinds hcount (by decide)⟩
            · rw [if_neg hfamily] at hsend
              simp only [bind, Except.bind, pure, Except.pure, hsend, ne_eq, not_true_eq_false, if_false]
              have hright := @wakeupRight_sent { ai.addr with port := discoveryPort ps5 } env userCredential ps5 _ data
                rfl hdata hbinds
              rw [hcount] at hright
              exact ⟨_, _, rfl, hright⟩
          · rw [if_neg hbound]
            exact ⟨_, .network, rfl, wakeupRight_closed hbinds hcount (by decide)⟩

/-- A console with two addresses, and a computer the first port of which is in use. -/
def exampleWakeupEnv : DiscoveryWakeupEnv where
  addrinfos := some [⟨.inet6, 28, ⟨.inet6, 0, List.replicate 16 0xfe⟩⟩, ⟨.inet, 16, ⟨.inet, 0, [192, 168, 0, 7]⟩⟩]
  socket := true
  bind port := decide (port ≠ discoveryPortLocalMin)
  sendto := true
  stack := List.replicate discoveryBufSize 0x57

theorem discoveryWakeup_right_ps5 : ∃ actions err,
    discoveryWakeup exampleWakeupEnv none 0x12345678 true = .ok (actions, err) ∧
      WakeupRight exampleWakeupEnv 0x12345678 true actions err :=
  discoveryWakeup_right List.length_replicate (by decide) none true

end Chiaki
