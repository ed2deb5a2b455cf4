import Chiaki.Properties.Discovery.Answer
import Chiaki.Properties.Discovery.Request
import Chiaki.Properties.DiscoveryService

/-!
# What is seen of the consoles

Whatever is received, and whenever the requests are sent: the hosts that the user gets to see are those that were heard
of lately, each as its last answer says (`discoveryRun_right`). The thread that reads the answers runs the service
(`discoveryRun_service`), and its table has the last answers (`newest_run`).
-/

namespace Chiaki

open Infra

variable {o : DiscoveryServiceOptions} {sendAddr : DiscoveryAddr} {host : DiscoveryHost} {id : Option Bytes} {n : Nat}

/-! ## The last answers -/

section Service

variable {s s' : DiscoveryService} {before : List DiscoveryServiceLabel} {label : DiscoveryServiceLabel}
  {e : DiscoveryEntry}

/-- How many pings there were. -/
def pingCount : List DiscoveryServiceLabel → Nat
  | [] => 0
  | .ping :: before => pingCount before + 1
  | .received _ :: before => pingCount before

@[simp] theorem pingCount_ping : pingCount (.ping :: before) = pingCount before + 1 := rfl

@[simp] theorem pingCount_received : pingCount (.received host :: before) = pingCount before := rfl

/-- The last answer of the host with an id, and how many pings there were before it. -/
def lastEntry (id : Option Bytes) : List DiscoveryServiceLabel → Option DiscoveryEntry
  | [] => none
  | .ping :: before => lastEntry id before
  | .received host :: before =>
    if host.string .hostId = id then some (host, pingCount before) else lastEntry id before

/-- The counter has not come around. -/
theorem discoveryPings_eq (h : pingCount before < 2 ^ 64) : discoveryPings before = pingCount before := by
  induction before with
  | nil => rfl
  | cons label before ih =>
    cases label with
    | ping =>
      rw [pingCount_ping] at h ⊢
      rw [discoveryPings, ih (by omega), Nat.mod_eq_of_lt h]
    | received host => exact ih h

/-- It is an answer of that host, and there were no fewer pings since. -/
theorem lastEntry_spec (h : lastEntry id before = some e) :
    e.id = id ∧ .received e.1 ∈ before ∧ e.2 ≤ pingCount before := by
  induction before with
  | nil => cases h
  | cons label before ih =>
    cases label with
    | ping =>
      obtain ⟨hid, hmem, hle⟩ := ih h
      exact ⟨hid, List.mem_cons_of_mem _ hmem, Nat.le_succ_of_le hle⟩
    | received host =>
      rw [lastEntry] at h
      split at h
      · next hid =>
        cases h
        exact ⟨hid, List.mem_cons_self, Nat.le_refl _⟩
      · obtain ⟨hid, hmem, hle⟩ := ih h
        exact ⟨hid, List.mem_cons_of_mem _ hmem, hle⟩

/-- The table has the last answers that are not too old, and it has all of them if there is room for all hosts. -/
structure Newest (o : DiscoveryServiceOptions) (before : List DiscoveryServiceLabel) (s : DiscoveryService) : Prop where
  entries : ∀ e ∈ s.table, lastEntry e.id before = some e ∧ pingCount before ≤ e.2 + o.hostDropPings
  complete : ∀ ids : List (Option Bytes), (∀ host, .received host ∈ before → host.string .hostId ∈ ids) →
    ids.length ≤ o.hostsMax → ∀ e : DiscoveryEntry, e.id ≠ none → lastEntry e.id before = some e →
      pingCount before ≤ e.2 + o.hostDropPings → e ∈ s.table

theorem newest_init : Newest o [] (discoveryServiceInit o) where
  entries _ he := by cases he
  complete _ _ _ _ _ he := by cases he

/-- A ping drops what has become too old. -/
theorem newest_ping (hinv : DiscoveryServiceInv o before s) (h : Newest o before s)
    (hlt : pingCount before + 1 + o.hostDropPings < 2 ^ 64) (hstep : discoveryServicePing o s = .ok s') :
    Newest o (.ping :: before) s' := by
  obtain ⟨_, hstep', -, -, htable, -⟩ := discoveryServicePing_table hinv.sane
  cases hstep.symm.trans hstep'
  have hping : (s.pingIndex + 1) % 2 ^ 64 = pingCount before + 1 := by
    rw [hinv.pingIndex, discoveryPings_eq (by omega), Nat.mod_eq_of_lt (by omega)]
  have hkept : ∀ e : DiscoveryEntry, e.2 ≤ pingCount before →
      (DiscoveryEntry.kept o ((s.pingIndex + 1) % 2 ^ 64) e = true ↔ pingCount before + 1 ≤ e.2 + o.hostDropPings) := by
    intro e hle
    rw [hping, DiscoveryEntry.kept, Nat.mod_eq_of_lt (by omega), decide_eq_true_iff]
  constructor
  · intro e he
    rw [htable] at he
    obtain ⟨he, hkeep⟩ := List.mem_filter.mp he
    obtain ⟨hlast, -⟩ := h.entries e he
    exact ⟨hlast, (hkept e (lastEntry_spec hlast).2.2).mp hkeep⟩
  · intro ids hids hlength e hid hlast hle
    rw [lastEntry] at hlast
    rw [pingCount_ping] at hle
    rw [htable]
    refine List.mem_filter.mpr ⟨?_, (hkept e (lastEntry_spec hlast).2.2).mpr hle⟩
    exact h.complete ids (fun host hmem => hids host (List.mem_cons_of_mem _ hmem)) hlength e hid hlast (by omega)

theorem mem_replace_self {t : List DiscoveryEntry} {x : DiscoveryEntry} (h : x.id ∈ t.map DiscoveryEntry.id) :
    x ∈ Table.replace DiscoveryEntry.id x t := by
  obtain ⟨e, he, hid⟩ := List.mem_map.mp h
  exact List.mem_map.mpr ⟨e, he, if_pos hid⟩

/-- An entry of another host stays. -/
theorem mem_discoveryTableReceived_of_ne {hostsMax pingIndex : Nat} {t : List DiscoveryEntry} (he : e ∈ t)
    (hne : e.id ≠ host.string .hostId) : e ∈ discoveryTableReceived hostsMax pingIndex t host := by
  unfold discoveryTableReceived
  split_ifs
  · exact List.mem_map.mpr ⟨e, he, if_neg hne⟩
  · exact he
  · exact List.mem_append_left _ he

/-- An answer is in the table, if there is room for all hosts. -/
theorem newest_received (hinv : DiscoveryServiceInv o before s) (h : Newest o before s)
    (hlt : pingCount before < 2 ^ 64) (hid : host.string .hostId ≠ none)
    (hstep : discoveryServiceHostReceived o s host = .ok s') : Newest o (.received host :: before) s' := by
  obtain ⟨_, hstep', -, -, htable, -⟩ := discoveryServiceHostReceived_table hinv.sane hinv.distinct hid
  cases hstep.symm.trans hstep'
  rw [hinv.pingIndex, discoveryPings_eq hlt] at htable
  constructor
  · intro e he
    rw [htable] at he
    rw [lastEntry, pingCount_received]
    rcases mem_discoveryTableReceived he with rfl | ⟨he, hne⟩
    · exact ⟨if_pos rfl, Nat.le_add_right _ _⟩
    · rw [if_neg hne.symm]
      exact h.entries e he
  · intro ids hids hlength e hne hlast hle
    have hids' := fun host hmem => hids host (List.mem_cons_of_mem _ hmem)
    rw [htable]
    rw [lastEntry] at hlast
    split at hlast
    · next hsame =>
      cases hlast
      unfold discoveryTableReceived
      split_ifs with hknown hfull
      · exact mem_replace_self hknown
      · -- the ids of the table and the new one would be too many
        exfalso
        have hnodup : (s.table.map DiscoveryEntry.id ++ [host.string .hostId]).Nodup := by
          refine List.nodup_append.mpr ⟨hinv.distinct, List.nodup_singleton _, ?_⟩
          rintro a ha b hb rfl
          rw [List.mem_singleton.mp hb] at ha
          exact hknown ha
        have hsubset : s.table.map DiscoveryEntry.id ++ [host.string .hostId] ⊆ ids := by
          intro a ha
          rcases List.mem_append.mp ha with ha | ha
          · obtain ⟨e, he, rfl⟩ := List.mem_map.mp ha
            exact hids' _ (lastEntry_spec (h.entries e he).1).2.1
          · rw [List.mem_singleton.mp ha]
            exact hids host List.mem_cons_self
        have hle := (List.subperm_of_subset hnodup hsubset).length_le
        rw [List.length_append, List.length_map, List.length_singleton] at hle
        omega
      · exact List.mem_append_right _ (List.mem_singleton_self _)
    · next hother =>
      exact mem_discoveryTableReceived_of_ne (h.complete ids hids' hlength e hne hlast hle) fun heq => hother heq.symm

/-- **The table has the last answers after all steps.** -/
theorem newest_run (o : DiscoveryServiceOptions) (before : List DiscoveryServiceLabel)
    (hlt : pingCount before + o.hostDropPings < 2 ^ 64) :
    ∃ s, discoveryServiceRun o before = .ok s ∧ DiscoveryServiceInv o before s ∧ Newest o before s := by
  induction before with
  | nil => exact ⟨_, rfl, discoveryServiceInv_init, newest_init⟩
  | cons label before ih =>
    obtain ⟨s, hrun, hinv, hnewest⟩ := ih (by cases label <;> simp at hlt <;> omega)
    obtain ⟨s', hstep, hinv', -⟩ := discoveryServiceInv_step hinv label
    refine ⟨s', by rw [discoveryServiceRun, hrun]; exact hstep, hinv', ?_⟩
    cases label with
    | ping => exact newest_ping hinv hnewest hlt hstep
    | received host =>
      by_cases hid : host.string .hostId = none
      · -- it is not looked at, and no entry is without an id
        rw [discoveryServiceStep, discoveryServiceHostReceived, hid] at hstep
        cases hstep
        constructor
        · intro e he
          rw [lastEntry, if_neg (by rw [hid]; exact (hinv.named e he).symm)]
          exact hnewest.entries e he
        · intro ids hids hlength e hne hlast hle
          rw [lastEntry, if_neg (by rw [hid]; exact hne.symm)] at hlast
          exact hnewest.complete ids (fun host hmem => hids host (List.mem_cons_of_mem _ hmem)) hlength e hne hlast hle
      · exact newest_received hinv hnewest (by simp at hlt; omega) hid hstep

end Service

/-! ## What is received -/

section Run

variable {s : Discovery} {before : List DiscoveryLabel}

/-- The thread of the discovery still runs. -/
def discoveryListening : List DiscoveryLabel → Bool
  | [] => true
  | .ends :: _ => false
  | .datagram _ :: before => discoveryListening before
  | .ping _ _ _ :: before => discoveryListening before

/-- How often the requests were sent. -/
def discoveryPingCount : List DiscoveryLabel → Nat
  | [] => 0
  | .ping _ _ _ :: before => discoveryPingCount before + 1
  | .datagram _ :: before => discoveryPingCount before
  | .ends :: before => discoveryPingCount before

/-- The last answer with the id of a host was this one, and the requests were sent `n` times since. -/
inductive LastHeard (host : DiscoveryHost) : Nat → List DiscoveryLabel → Prop
  | answer (datagram : DiscoveryDatagram) (before : List DiscoveryLabel) (hlistening : discoveryListening before = true)
      (hanswer : IsAnswer datagram host) : LastHeard host 0 (.datagram datagram :: before)
  | datagram (n : Nat) (datagram : DiscoveryDatagram) (before : List DiscoveryLabel) (hlast : LastHeard host n before)
      (hother : discoveryListening before = true → ∀ host', IsAnswer datagram host' →
        host'.string .hostId ≠ host.string .hostId) :
    LastHeard host n (.datagram datagram :: before)
  | ends (n : Nat) (before : List DiscoveryLabel) (hlast : LastHeard host n before) : LastHeard host n (.ends :: before)
  | ping (n : Nat) (stack : Bytes) (sendto : Bool) (length_stack : stack.length = discoveryBufSize)
      (before : List DiscoveryLabel) (hlast : LastHeard host n before) :
    LastHeard host (n + 1) (.ping stack sendto length_stack :: before)

/-- What the service is told. -/
def discoveryHeard : List DiscoveryLabel → List DiscoveryServiceLabel
  | [] => []
  | .datagram datagram :: before =>
    if discoveryListening before then (datagram.answer.map .received).toList ++ discoveryHeard before
    else discoveryHeard before
  | .ends :: before => discoveryHeard before
  | .ping _ _ _ :: before => .ping :: discoveryHeard before

theorem pingCount_discoveryHeard (before : List DiscoveryLabel) :
    pingCount (discoveryHeard before) = discoveryPingCount before := by
  induction before with
  | nil => rfl
  | cons label before ih =>
    cases label with
    | datagram datagram =>
      rw [discoveryHeard, discoveryPingCount]
      split
      · cases datagram.answer <;> simp [ih]
      · exact ih
    | ends => exact ih
    | ping => simp [discoveryHeard, discoveryPingCount, ih]

/-- The requests that are sent in one round. -/
structure RoundSent (sendAddr : DiscoveryAddr) (sent sent' : List DiscoveryAction) : Prop where
  requests : ∃ ps4 ps5, ReadsSearch false ps4 ∧ ReadsSearch true ps5 ∧
    sent' = if sendAddr.saFamily = .other then sent
      else .sendto { sendAddr with port := discoveryPort true } ps5
        :: .sendto { sendAddr with port := discoveryPort false } ps4 :: sent

/-- What is sent in all rounds, the last one first. -/
inductive RoundsSent (sendAddr : DiscoveryAddr) : Nat → List DiscoveryAction → Prop
  | none : RoundsSent sendAddr 0 []
  | round (n : Nat) (sent sent' : List DiscoveryAction) (hsent : RoundsSent sendAddr n sent)
      (hround : RoundSent sendAddr sent sent') : RoundsSent sendAddr (n + 1) sent'

/-- A ping sends the two requests. -/
theorem discoveryPing_sent {stack : Bytes} (sendto : Bool) (hstack : stack.length = discoveryBufSize)
    {service : DiscoveryService} (hping : discoveryServicePing o s.service = .ok service) :
    ∃ sent, discoveryPing o sendAddr stack sendto s = .ok { s with service := service, sent := sent } ∧
      RoundSent sendAddr s.sent sent := by
  obtain ⟨ps4, hps4, hsend4⟩ := @discoverySend_search sendAddr.saFamily stack sendto
    { sendAddr with port := discoveryPort false } hstack false
  obtain ⟨ps5, hps5, hsend5⟩ := @discoverySend_search sendAddr.saFamily stack sendto
    { sendAddr with port := discoveryPort true } hstack true
  unfold discoveryPing
  rw [hping]
  by_cases hother : sendAddr.saFamily = .other
  · simp only [bind, Except.bind, if_pos hother]
    exact ⟨s.sent, rfl, ⟨ps4, ps5, hps4, hps5, (if_pos hother).symm⟩⟩
  · simp only [bind, Except.bind, if_neg hother, hsend4, hsend5, ne_eq, not_true_eq_false, if_false]
    exact ⟨_, rfl, ⟨ps4, ps5, hps4, hps5, (if_neg hother).symm⟩⟩

/-- **The threads run the service**: it gets to know of the answers and of the pings, and of nothing else. -/
theorem discoveryRun_service (o : DiscoveryServiceOptions) (sendAddr : DiscoveryAddr) (before : List DiscoveryLabel) :
    ∃ s, discoveryRun o sendAddr before = .ok s ∧
      discoveryServiceRun o (discoveryHeard before) = .ok s.service ∧
      s.listening = discoveryListening before ∧ RoundsSent sendAddr (discoveryPingCount before) s.sent := by
  induction before with
  | nil => exact ⟨_, rfl, rfl, rfl, .none⟩
  | cons label before ih =>
    obtain ⟨s, hrun, hservice, hlistening, hsent⟩ := ih
    have hinv : ∀ label, ∃ service, discoveryServiceStep o s.service label = .ok service := by
      intro label
      obtain ⟨_, hservice', hinv⟩ := discoveryServiceInv_run o (discoveryHeard before)
      cases hservice.symm.trans hservice'
      obtain ⟨service, hstep, -⟩ := discoveryServiceInv_step hinv label
      exact ⟨service, hstep⟩
    rw [discoveryRun, hrun]
    simp only [bind, Except.bind]
    cases label with
    | ends => exact ⟨_, rfl, hservice, rfl, hsent⟩
    | ping stack sendto hstack =>
      obtain ⟨service, hstep⟩ := hinv .ping
      obtain ⟨sent, hping, hround⟩ := @discoveryPing_sent o sendAddr s stack sendto hstack service hstep
      refine ⟨_, hping, ?_, hlistening, .round _ _ _ hsent hround⟩
      rw [discoveryHeard, discoveryServiceRun, hservice]
      exact hstep
    | datagram datagram =>
      rw [discoveryStep, hlistening, discoveryHeard, discoveryListening]
      by_cases hlisten : discoveryListening before = true
      · rw [if_pos hlisten, if_pos hlisten, discoveryThreadReceived_answer]
        cases datagram.answer with
        | none => exact ⟨s, rfl, hservice, hlistening, hsent⟩
        | some host =>
          obtain ⟨service, hstep⟩ := hinv (.received host)
          refine ⟨{ s with service := service }, ?_, ?_, hlistening, hsent⟩
          · rw [discoveryServiceStep] at hstep
            simp only [hstep]
            rfl
          · rw [Option.map_some, Option.toList_some, List.singleton_append, discoveryServiceRun, hservice]
            exact hstep
      · rw [if_neg hlisten, if_neg hlisten]
        exact ⟨s, rfl, hservice, hlistening, hsent⟩

/-- A datagram that the thread does not take for an answer of a host leaves its last one. -/
theorem lastEntry_datagram {datagram : DiscoveryDatagram}
    (h : discoveryListening before = true → ∀ host, IsAnswer datagram host → host.string .hostId ≠ id) :
    lastEntry id (discoveryHeard (.datagram datagram :: before)) = lastEntry id (discoveryHeard before) := by
  rw [discoveryHeard]
  split
  · next hlistening =>
    cases hanswer : datagram.answer with
    | none => rfl
    | some host =>
      rw [Option.map_some, Option.toList_some, List.singleton_append, lastEntry,
        if_neg (h hlistening host (answer_eq_some_iff.mp hanswer))]
  · rfl

theorem LastHeard.entry (h : LastHeard host n before) :
    ∃ m, lastEntry (host.string .hostId) (discoveryHeard before) = some (host, m) ∧
      discoveryPingCount before = m + n := by
  induction h with
  | answer datagram before hlistening hanswer =>
    refine ⟨discoveryPingCount before, ?_, rfl⟩
    rw [discoveryHeard, if_pos hlistening, answer_eq_some_iff.mpr hanswer, Option.map_some, Option.toList_some,
      List.singleton_append, lastEntry, if_pos rfl, pingCount_discoveryHeard]
  | datagram n datagram before _ hother ih =>
    obtain ⟨m, hentry, hcount⟩ := ih
    exact ⟨m, (lastEntry_datagram hother).trans hentry, hcount⟩
  | ends n before _ ih => exact ih
  | ping n stack sendto hstack before _ ih =>
    obtain ⟨m, hentry, hcount⟩ := ih
    exact ⟨m, hentry, by rw [discoveryPingCount, hcount]; rfl⟩

theorem lastHeard_of_entry {m : Nat} (hentry : lastEntry (host.string .hostId) (discoveryHeard before) = some (host, m))
    (hcount : discoveryPingCount before = m + n) : LastHeard host n before := by
  induction before generalizing n with
  | nil => cases hentry
  | cons label before ih =>
    cases label with
    | ends => exact .ends n before (ih hentry hcount)
    | ping stack sendto hstack =>
      rw [discoveryHeard, lastEntry] at hentry
      have hle := (lastEntry_spec hentry).2.2
      rw [pingCount_discoveryHeard] at hle
      rw [discoveryPingCount] at hcount
      simp only at hle
      obtain ⟨k, rfl⟩ : ∃ k, n = k + 1 := ⟨n - 1, by omega⟩
      exact .ping k stack sendto hstack before (ih hentry (by omega))
    | datagram datagram =>
      by_cases hother : discoveryListening before = true → ∀ host', IsAnswer datagram host' →
          host'.string .hostId ≠ host.string .hostId
      · rw [lastEntry_datagram hother] at hentry
        exact .datagram n datagram before (ih hentry hcount) hother
      · -- it is the last answer
        simp only [not_forall, not_not] at hother
        obtain ⟨hlistening, host', hanswer, hid⟩ := hother
        rw [discoveryHeard, if_pos hlistening, answer_eq_some_iff.mpr hanswer, Option.map_some, Option.toList_some,
          List.singleton_append, lastEntry, if_pos hid, pingCount_discoveryHeard] at hentry
        cases hentry
        obtain rfl : n = 0 := by
          rw [discoveryPingCount] at hcount
          omega
        exact .answer datagram before hlistening hanswer

/-! ## Runs -/

/-- What holds after all steps. -/
structure DiscoveryRight (o : DiscoveryServiceOptions) (sendAddr : DiscoveryAddr) (before : List DiscoveryLabel)
    (s : Discovery) : Prop where
  heard : ∀ host ∈ s.service.visible, host.string .hostId ≠ none ∧ ∃ n ≤ o.hostDropPings, LastHeard host n before
  shown : ∀ ids : List (Option Bytes),
    (∀ datagram host, .datagram datagram ∈ before → IsAnswer datagram host → host.string .hostId ∈ ids) →
    ids.length ≤ o.hostsMax → ∀ host n, LastHeard host n before → n ≤ o.hostDropPings →
      host.string .hostId ≠ none → host ∈ s.service.visible
  distinct : (s.service.visible.map (·.string .hostId)).Nodup
  count : s.service.visible.length ≤ o.hostsMax
  sent : RoundsSent sendAddr (discoveryPingCount before) s.sent

/-- A datagram that the service has heard of was received. -/
theorem mem_discoveryHeard (h : .received host ∈ discoveryHeard before) :
    ∃ datagram, .datagram datagram ∈ before ∧ IsAnswer datagram host := by
  induction before with
  | nil => cases h
  | cons label before ih =>
    have hrest : .received host ∈ discoveryHeard before →
        ∃ datagram, .datagram datagram ∈ label :: before ∧ IsAnswer datagram host := by
      intro h
      obtain ⟨datagram, hmem, hanswer⟩ := ih h
      exact ⟨datagram, List.mem_cons_of_mem _ hmem, hanswer⟩
    cases label with
    | ends => exact hrest h
    | ping => exact hrest (by simpa [discoveryHeard] using h)
    | datagram datagram =>
      rw [discoveryHeard] at h
      split at h
      · rcases List.mem_append.mp h with h | h
        · refine ⟨datagram, List.mem_cons_self, answer_eq_some_iff.mp ?_⟩
          simpa using h
        · exact hrest h
      · exact hrest h

/-- **The user sees the hosts that were heard of lately, as their last answers say**, whatever is received and in any
order, and sees all of them if there is room. No two of them have the same id. In every round, both requests are sent. -/
theorem discoveryRun_right (o : DiscoveryServiceOptions) (sendAddr : DiscoveryAddr) {before : List DiscoveryLabel}
    (hpings : discoveryPingCount before + o.hostDropPings < 2 ^ 64) :
    ∃ s, discoveryRun o sendAddr before = .ok s ∧ DiscoveryRight o sendAddr before s := by
  obtain ⟨s, hrun, hservice, -, hsent⟩ := discoveryRun_service o sendAddr before
  have hcount := pingCount_discoveryHeard before
  obtain ⟨_, hservice', hinv, hnewest⟩ := newest_run o (discoveryHeard before) (by rwa [hcount])
  cases hservice.symm.trans hservice'
  have hvisible : ∀ host, host ∈ s.service.visible ↔ ∃ m, (host, m) ∈ s.service.table := by
    intro host
    rw [← hinv.sane.map_table, List.mem_map]
    exact ⟨fun ⟨⟨_, m⟩, hmem, heq⟩ => ⟨m, heq ▸ hmem⟩, fun ⟨m, hmem⟩ => ⟨_, hmem, rfl⟩⟩
  refine ⟨s, hrun, ?_, ?_, ?_, ?_, hsent⟩
  · intro host hmem
    obtain ⟨m, hentry⟩ := (hvisible host).mp hmem
    obtain ⟨hlast, hle⟩ := hnewest.entries _ hentry
    have hm := (lastEntry_spec hlast).2.2
    rw [hcount] at hle hm
    simp only at hle hm
    refine ⟨hinv.named _ hentry, discoveryPingCount before - m, by omega, lastHeard_of_entry hlast (by omega)⟩
  · intro ids hids hlength host n hlast hle hid
    obtain ⟨m, hentry, hm⟩ := hlast.entry
    refine (hvisible host).mpr ⟨m, hnewest.complete ids ?_ hlength (host, m) hid hentry (by rw [hcount]; simp only; omega)⟩
    intro host' hmem
    obtain ⟨datagram, hdatagram, hanswer⟩ := mem_discoveryHeard hmem
    exact hids datagram host' hdatagram hanswer
  · rw [← hinv.sane.map_table, List.map_map]
    exact hinv.distinct
  · rw [hinv.sane.length_visible]
    exact hinv.sane.count

/-- One console has answered, and then there were two rounds. -/
theorem discoveryRun_right_one : ∃ s,
    discoveryRun ⟨4, 3, true⟩ ⟨.inet, 0, [255, 255, 255, 255]⟩
        [.ping (List.replicate discoveryBufSize 0x6b) true List.length_replicate,
          .ping (List.replicate discoveryBufSize 0x6c) false List.length_replicate,
          .datagram exampleDiscoveryDatagram] = .ok s ∧
      DiscoveryRight ⟨4, 3, true⟩ ⟨.inet, 0, [255, 255, 255, 255]⟩
        [.ping (List.replicate discoveryBufSize 0x6b) true List.length_replicate,
          .ping (List.replicate discoveryBufSize 0x6c) false List.length_replicate,
          .datagram exampleDiscoveryDatagram] s :=
  discoveryRun_right _ _ (by decide)

end Run

end Chiaki
