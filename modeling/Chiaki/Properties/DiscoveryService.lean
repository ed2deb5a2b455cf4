import Chiaki.DiscoveryService
import Chiaki.Infra.Table

/-!
# The table of hosts

The two arrays are one table: a host, and the ping round in which it was heard of. An answer replaces the entry of
its host or comes last, and a ping removes the old entries (`discoveryServiceHostReceived_table`,
`discoveryServicePing_table`).

* `discoveryServiceRun_right` — what holds after all steps
-/

namespace Chiaki

open Infra

variable {o : DiscoveryServiceOptions} {s s' : DiscoveryService} {host slot : DiscoveryHost} {i n count index : Nat}
  {change : Bool}

/-! ## The arrays -/

section Lists

variable {α β : Type} {l : List α} {l' : List β}

theorem length_memmoveDown (hi : i < count) (hcount : count ≤ l.length) :
    (memmoveDown l i count).length = l.length := by
  simp only [memmoveDown, List.length_append, List.length_take, List.length_drop]
  omega

/-- The entry at `i` is gone. -/
theorem take_memmoveDown (hi : i < count) (hcount : count ≤ l.length) :
    (memmoveDown l i count).take (count - 1) = (l.take count).eraseIdx i := by
  have hlength : (l.take i ++ (l.drop (i + 1)).take (count - i - 1)).length = count - 1 := by
    simp only [List.length_append, List.length_take, List.length_drop]
    omega
  rw [memmoveDown, List.take_left' hlength, List.eraseIdx_eq_take_drop_succ, List.take_take, List.drop_take,
    Nat.min_eq_left (Nat.le_of_lt hi), Nat.sub_sub]

theorem take_eraseIdx_last (hcount : 0 < count) (hle : count ≤ l.length) :
    l.take (count - 1) = (l.take count).eraseIdx (count - 1) := by
  rw [List.eraseIdx_eq_take_drop_succ, List.take_take, Nat.min_eq_left (Nat.sub_le _ _), List.drop_of_length_le,
    List.append_nil]
  rw [List.length_take]
  omega

theorem zip_eraseIdx (l : List α) (l' : List β) (i : Nat) :
    (l.eraseIdx i).zip (l'.eraseIdx i) = (l.zip l').eraseIdx i := by
  induction l generalizing l' i with
  | nil => cases l' <;> cases i <;> simp
  | cons a l ih =>
    cases l' with
    | nil => simp
    | cons b l' =>
      cases i with
      | zero => rfl
      | succ i => simp only [List.eraseIdx_cons_succ, List.zip_cons_cons, ih]

theorem zip_set (l : List α) (l' : List β) (i : Nat) (a : α) (b : β) :
    (l.set i a).zip (l'.set i b) = (l.zip l').set i (a, b) := by
  induction l generalizing l' i with
  | nil => cases l' <;> cases i <;> simp
  | cons c l ih =>
    cases l' with
    | nil => simp
    | cons d l' =>
      cases i with
      | zero => rfl
      | succ i => simp only [List.set_cons_succ, List.zip_cons_cons, ih]

theorem set_eq_self_iff {a : α} (hi : i < l.length) : l.set i a = l ↔ l[i] = a := by
  constructor
  · intro heq
    have hget := List.getElem?_set_self (a := a) hi
    rw [heq, List.getElem?_eq_getElem hi] at hget
    exact Option.some.inj hget
  · rintro rfl
    exact List.set_getElem_self hi

end Lists

/-- Both arrays have their sizes, and the table is inside of them. -/
structure DiscoveryServiceSane (o : DiscoveryServiceOptions) (s : DiscoveryService) : Prop where
  hosts : s.hosts.length = o.hostsMax
  infos : s.hostDiscoveryInfos.length = o.hostsMax
  count : s.hostsCount ≤ o.hostsMax

/-- A host, and the ping round in which it was heard of. -/
abbrev DiscoveryEntry := DiscoveryHost × Nat

/-- The entries of the table are told apart by the ids of the hosts. -/
def DiscoveryEntry.id (e : DiscoveryEntry) : Option Bytes := e.1.string .hostId

namespace DiscoveryService

/-- Both arrays together. -/
def table (s : DiscoveryService) : List DiscoveryEntry := s.visible.zip (s.hostDiscoveryInfos.take s.hostsCount)

end DiscoveryService

theorem DiscoveryServiceSane.length_visible (h : DiscoveryServiceSane o s) : s.visible.length = s.hostsCount := by
  have hhosts := h.hosts
  have hcount := h.count
  rw [DiscoveryService.visible, List.length_take]
  omega

theorem DiscoveryServiceSane.length_infos (h : DiscoveryServiceSane o s) :
    (s.hostDiscoveryInfos.take s.hostsCount).length = s.hostsCount := by
  have hinfos := h.infos
  have hcount := h.count
  rw [List.length_take]
  omega

theorem DiscoveryServiceSane.length_table (h : DiscoveryServiceSane o s) : s.table.length = s.hostsCount := by
  rw [DiscoveryService.table, List.length_zip, h.length_visible, h.length_infos, Nat.min_self]

theorem DiscoveryServiceSane.map_table (h : DiscoveryServiceSane o s) : s.table.map Prod.fst = s.visible :=
  List.map_fst_zip (Nat.le_of_eq (h.length_visible.trans h.length_infos.symm))

theorem DiscoveryServiceSane.getElem?_table (h : DiscoveryServiceSane o s) (hi : i < s.hostsCount) :
    ∃ host info, s.hosts[i]? = some host ∧ s.hostDiscoveryInfos[i]? = some info ∧ s.table[i]? = some (host, info) := by
  have hhosts := h.hosts
  have hinfos := h.infos
  have hcount := h.count
  have hhost := List.getElem?_eq_getElem (l := s.hosts) (i := i) (by omega)
  have hinfo := List.getElem?_eq_getElem (l := s.hostDiscoveryInfos) (i := i) (by omega)
  refine ⟨_, _, hhost, hinfo, ?_⟩
  rw [DiscoveryService.table, DiscoveryService.visible, List.getElem?_zip_eq_some, List.getElem?_take_of_lt hi,
    List.getElem?_take_of_lt hi]
  exact ⟨hhost, hinfo⟩

/-! ## Pings -/

/-- An entry that a ping does not remove. -/
def DiscoveryEntry.kept (o : DiscoveryServiceOptions) (pingIndex : Nat) (e : DiscoveryEntry) : Bool :=
  (e.2 + o.hostDropPings) % 2 ^ 64 ≥ pingIndex

theorem DiscoveryServiceSane.remove (h : DiscoveryServiceSane o s) (hi : i < s.hostsCount) :
    DiscoveryServiceSane o (s.remove i) := by
  obtain ⟨hhosts, hinfos, hcount⟩ := h
  unfold DiscoveryService.remove
  split
  · refine ⟨?_, ?_, by simp only; omega⟩
    · simp only
      rw [length_memmoveDown hi (by omega), hhosts]
    · simp only
      rw [length_memmoveDown hi (by omega), hinfos]
  · exact ⟨hhosts, hinfos, by simp only; omega⟩

/-- An entry is removed from both arrays. -/
theorem DiscoveryServiceSane.table_remove (h : DiscoveryServiceSane o s) (hi : i < s.hostsCount) :
    (s.remove i).table = s.table.eraseIdx i := by
  obtain ⟨hhosts, hinfos, hcount⟩ := h
  unfold DiscoveryService.remove
  split
  · simp only [DiscoveryService.table, DiscoveryService.visible]
    rw [take_memmoveDown hi (by omega), take_memmoveDown hi (by omega), zip_eraseIdx]
  · obtain rfl : i = s.hostsCount - 1 := by omega
    simp only [DiscoveryService.table, DiscoveryService.visible]
    rw [take_eraseIdx_last (by omega) (by omega), take_eraseIdx_last (by omega) (by omega), zip_eraseIdx]

@[simp] theorem DiscoveryService.remove_hostsCount : (s.remove i).hostsCount = s.hostsCount - 1 := by
  unfold remove
  split <;> rfl

@[simp] theorem DiscoveryService.remove_pingIndex : (s.remove i).pingIndex = s.pingIndex := by
  unfold remove
  split <;> rfl

@[simp] theorem DiscoveryService.remove_reports : (s.remove i).reports = s.reports := by
  unfold remove
  split <;> rfl

/-- The loop goes through the table. -/
theorem discoveryServiceDropLoop_table (h : DiscoveryServiceSane o s) (hn : i + n = s.hostsCount) :
    ∃ s' change', discoveryServiceDropLoop o n i change s = .ok (s', change') ∧
      DiscoveryServiceSane o s' ∧ s'.table = Table.sweep (DiscoveryEntry.kept o s.pingIndex) n i s.table ∧
      s'.pingIndex = s.pingIndex ∧ s'.reports = s.reports ∧ s'.hostsCount ≤ s.hostsCount ∧
      (change' = true ↔ change = true ∨ s'.hostsCount < s.hostsCount) := by
  induction n generalizing i change s with
  | zero => exact ⟨s, change, rfl, h, rfl, rfl, rfl, Nat.le_refl _, by simp⟩
  | succ n ih =>
    have hi : i < s.hostsCount := by omega
    obtain ⟨host, info, hhost, hinfo, htable⟩ := h.getElem?_table hi
    rw [discoveryServiceDropLoop, Table.sweep, hinfo, htable]
    simp only [DiscoveryEntry.kept, decide_eq_true_eq]
    split
    · exact ih h (by omega)
    · rw [if_neg (by rw [h.hosts, h.infos]; exact not_or.mpr ⟨Nat.not_lt.mpr h.count, Nat.not_lt.mpr h.count⟩)]
      obtain ⟨s', change', hloop, hsane, htable', hping, hreports, hle, hchange⟩ :=
        @ih _ i true (h.remove hi) (by rw [DiscoveryService.remove_hostsCount]; omega)
      rw [DiscoveryService.remove_hostsCount] at hle
      refine ⟨s', change', hloop, hsane, ?_, hping.trans DiscoveryService.remove_pingIndex,
        hreports.trans DiscoveryService.remove_reports, by omega, ?_⟩
      · rw [htable', h.table_remove hi, DiscoveryService.remove_pingIndex]
      · rw [hchange]
        exact ⟨fun _ => .inr (by omega), fun _ => .inl rfl⟩

/-! ## Reports -/

/-- The callback is called if and only if what the user gets to see has changed. -/
structure DiscoveryServiceReports (o : DiscoveryServiceOptions) (s s' : DiscoveryService) : Prop where
  reported : o.cb = true → s'.visible ≠ s.visible → s'.reports = s'.visible :: s.reports
  quiet : o.cb = false ∨ s'.visible = s.visible → s'.reports = s.reports

/-- What a step ends with. -/
structure DiscoveryServiceReported (o : DiscoveryServiceOptions) (s s₁ s' : DiscoveryService) : Prop where
  reports : DiscoveryServiceReports o s s'
  table : s'.table = s₁.table
  pingIndex : s'.pingIndex = s₁.pingIndex
  sane : DiscoveryServiceSane o s₁ → DiscoveryServiceSane o s'

/-- The flag says whether there is a change. -/
theorem discoveryService_reported {s₁ : DiscoveryService} (hreports : s₁.reports = s.reports)
    (hchange : change = true ↔ s₁.visible ≠ s.visible) :
    DiscoveryServiceReported o s s₁ (if change then discoveryServiceReportState o s₁ else s₁) := by
  unfold discoveryServiceReportState
  cases change with
  | false =>
    have hsame : s₁.visible = s.visible := by
      by_contra hne
      exact nomatch hchange.mpr hne
    exact ⟨⟨fun _ hne => absurd hsame hne, fun _ => hreports⟩, rfl, rfl, id⟩
  | true =>
    have hne := hchange.mp rfl
    cases hcb : o.cb with
    | false => exact ⟨⟨fun h => absurd (hcb.symm.trans h) (by decide), fun _ => hreports⟩, rfl, rfl, id⟩
    | true =>
      refine ⟨⟨fun _ _ => ?_, fun h => ?_⟩, rfl, rfl, fun h => ⟨h.hosts, h.infos, h.count⟩⟩
      · exact congrArg (s₁.visible :: ·) hreports
      · rcases h with h | h
        · cases hcb.symm.trans h
        · exact absurd h hne

/-- A ping removes the old entries. -/
theorem discoveryServicePing_table (h : DiscoveryServiceSane o s) :
    ∃ s', discoveryServicePing o s = .ok s' ∧ DiscoveryServiceSane o s' ∧
      s'.pingIndex = (s.pingIndex + 1) % 2 ^ 64 ∧
      s'.table = s.table.filter (DiscoveryEntry.kept o ((s.pingIndex + 1) % 2 ^ 64)) ∧
      DiscoveryServiceReports o s s' := by
  obtain ⟨s₁, change, hloop, hsane, htable, hping, hreports, hle, hchange⟩ :=
    @discoveryServiceDropLoop_table o { s with pingIndex := (s.pingIndex + 1) % 2 ^ 64 } 0 s.hostsCount false
      ⟨h.hosts, h.infos, h.count⟩ (Nat.zero_add _)
  have hfilter : s₁.table = s.table.filter (DiscoveryEntry.kept o ((s.pingIndex + 1) % 2 ^ 64)) := by
    rw [← Table.sweep_all, h.length_table]
    exact htable
  have hvisible : change = true ↔ s₁.visible ≠ s.visible := by
    rw [hchange]
    simp only [Bool.false_eq_true, false_or]
    constructor
    · intro hlt heq
      have hlength := congrArg List.length heq
      rw [hsane.length_visible, h.length_visible] at hlength
      omega
    · intro hne
      by_contra hge
      -- nothing was removed, so the filter kept everything
      have hall : s.table.filter (DiscoveryEntry.kept o ((s.pingIndex + 1) % 2 ^ 64)) = s.table :=
        List.filter_sublist.eq_of_length (by
          rw [← hfilter, hsane.length_table, h.length_table]
          simp only at hle hge
          omega)
      rw [hall] at hfilter
      rw [← hsane.map_table, ← h.map_table, hfilter] at hne
      exact hne rfl
  have hreported := discoveryService_reported (o := o) (s := s) hreports hvisible
  refine ⟨_, ?_, hreported.sane hsane, hreported.pingIndex.trans hping, hreported.table.trans hfilter,
    hreported.reports⟩
  rw [discoveryServicePing, discoveryServiceDropOldHosts, hloop]
  rfl

/-! ## Answers -/

theorem updateString_eq (slot host : Option Bytes) :
    updateString slot host = (host, decide (slot ≠ host)) := by
  unfold updateString
  split
  · split
    · next heq =>
      subst heq
      simp
    · next hne => simp [hne]
  · simp
  · next hsome hnone =>
    cases slot with
    | none =>
      cases host with
      | none => exact absurd rfl (hnone rfl)
      | some b => simp
    | some a =>
      cases host with
      | none => simp
      | some b => exact absurd rfl (hsome a b rfl)

/-- The strings with the names that were gone through are those of the host. -/
theorem foldl_updateString (names : List DiscoveryHostString) (slot : DiscoveryHost) (change : Bool) :
    names.foldl host.updateString (slot, change) =
      ({ slot with string := fun name => if name ∈ names then host.string name else slot.string name },
        change || names.any fun name => decide (slot.string name ≠ host.string name)) := by
  induction names generalizing slot change with
  | nil =>
    simp only [List.foldl_nil, List.not_mem_nil, if_false, List.any_nil, Bool.or_false]
  | cons name names ih =>
    rw [List.foldl_cons, DiscoveryHost.updateString, updateString_eq, ih]
    refine Prod.ext (DiscoveryHost.ext rfl rfl (funext fun name' => ?_)) ?_
    · simp only [List.mem_cons]
      by_cases hmem : name' ∈ names
      · rw [if_pos hmem, if_pos (.inr hmem)]
      · rw [if_neg hmem]
        by_cases heq : name' = name
        · rw [if_pos heq, if_pos (.inl heq), heq]
        · rw [if_neg heq, if_neg (not_or.mpr ⟨heq, hmem⟩)]
    · simp only [List.any_cons, Bool.or_assoc]
      by_cases heq : slot.string name = host.string name
      · have hsame : ∀ name', (if name' = name then host.string name else slot.string name')
            = slot.string name' := fun name' => by
          split
          · next hname => rw [hname, heq]
          · rfl
        simp only [hsame]
      · simp only [ne_eq, heq, not_false_eq_true, decide_true, Bool.true_or, Bool.or_true]

theorem mem_discoveryHostStrings (name : DiscoveryHostString) : name ∈ discoveryHostStrings := by
  cases name <;> decide

/-- The slot becomes the host. -/
theorem discoveryHostUpdate_fst : (discoveryHostUpdate slot host change).1 = host := by
  rw [discoveryHostUpdate, foldl_updateString]
  refine DiscoveryHost.ext rfl rfl ?_
  funext name
  exact if_pos (mem_discoveryHostStrings name)

theorem discoveryHostUpdate_snd :
    (discoveryHostUpdate slot host change).2 = true ↔ change = true ∨ slot ≠ host := by
  rw [discoveryHostUpdate, foldl_updateString]
  have hany : (discoveryHostStrings.any fun name => decide (slot.string name ≠ host.string name)) = true
      ↔ slot.string ≠ host.string := by
    rw [List.any_eq_true, Function.ne_iff]
    exact ⟨fun ⟨name, _, hne⟩ => ⟨name, of_decide_eq_true hne⟩,
      fun ⟨name, hne⟩ => ⟨name, mem_discoveryHostStrings name, decide_eq_true hne⟩⟩
  simp only [Bool.or_eq_true, decide_eq_true_eq, or_assoc]
  rw [hany, ne_eq (a := slot), DiscoveryHost.ext_iff]
  tauto

theorem DiscoveryServiceSane.store (h : DiscoveryServiceSane o s) :
    DiscoveryServiceSane o (s.store index slot) :=
  ⟨List.length_set.trans h.hosts, List.length_set.trans h.infos, h.count⟩

theorem DiscoveryService.visible_store : (s.store index slot).visible = s.visible.set index slot := by
  simp only [visible, store, List.take_set]

theorem DiscoveryService.table_store :
    (s.store index slot).table = s.table.set index (slot, s.pingIndex) := by
  rw [table, visible_store, store, List.take_set, zip_set]
  rfl

/-- The entry at `index` is replaced. -/
theorem discoveryServiceUpdate_table {before : DiscoveryService} (h : DiscoveryServiceSane o s)
    (hindex : index < s.hostsCount) (hreports : s.reports = before.reports)
    (hchange : ∀ slot, s.hosts[index]? = some slot →
      (change = true ∨ slot ≠ host ↔ s.visible.set index host ≠ before.visible)) :
    ∃ s', discoveryServiceUpdate o s index host change = .ok s' ∧ DiscoveryServiceSane o s' ∧
      s'.pingIndex = s.pingIndex ∧ s'.table = s.table.set index (host, s.pingIndex) ∧
      DiscoveryServiceReports o before s' := by
  obtain ⟨slot, info, hslot, hinfo, -⟩ := h.getElem?_table hindex
  have hinfos := h.infos
  have hcount := h.count
  have hvisible : (discoveryHostUpdate slot host change).2 = true ↔ (s.store index host).visible ≠ before.visible := by
    rw [discoveryHostUpdate_snd, hchange slot hslot, DiscoveryService.visible_store]
  have hreported : DiscoveryServiceReported o before (s.store index host) _ :=
    discoveryService_reported hreports hvisible
  refine ⟨_, ?_, hreported.sane h.store, hreported.pingIndex,
    hreported.table.trans DiscoveryService.table_store, hreported.reports⟩
  rw [discoveryServiceUpdate, if_neg (by omega), hslot]
  simp only
  rw [discoveryHostUpdate_fst]

theorem DiscoveryServiceSane.extend (h : DiscoveryServiceSane o s) (hcount : s.hostsCount < o.hostsMax) :
    DiscoveryServiceSane o s.extend :=
  ⟨List.length_set.trans h.hosts, h.infos, hcount⟩

/-- With a slot more, the entries so far stay where they are. -/
theorem DiscoveryServiceSane.table_extend (h : DiscoveryServiceSane o s) (hcount : s.hostsCount < o.hostsMax) :
    ∃ e, s.extend.table = s.table ++ [e] := by
  have hhosts := h.hosts
  have hinfos := h.infos
  have hlt : s.hostsCount < (s.hosts.set s.hostsCount discoveryHostZero).length := by
    rw [List.length_set]
    omega
  have hlt' : s.hostsCount < s.hostDiscoveryInfos.length := by omega
  refine ⟨(discoveryHostZero, s.hostDiscoveryInfos[s.hostsCount]), ?_⟩
  rw [DiscoveryService.table, DiscoveryService.visible, DiscoveryService.extend]
  simp only
  rw [List.take_succ_eq_append_getElem hlt, List.take_succ_eq_append_getElem hlt', List.getElem_set_self,
    List.take_set_of_le (Nat.le_refl _), List.zip_append]
  · rfl
  · exact h.length_visible.trans h.length_infos.symm

/-- The table after an answer. -/
def discoveryTableReceived (hostsMax pingIndex : Nat) (t : List DiscoveryEntry) (host : DiscoveryHost) :
    List DiscoveryEntry :=
  if DiscoveryEntry.id (host, pingIndex) ∈ t.map DiscoveryEntry.id then
    Table.replace DiscoveryEntry.id (host, pingIndex) t
  else if t.length = hostsMax then t
  else t ++ [(host, pingIndex)]

/-- The host that was heard of is in the table with this round, and the other entries are as before. -/
theorem mem_discoveryTableReceived {hostsMax pingIndex : Nat} {t : List DiscoveryEntry} {e : DiscoveryEntry}
    (he : e ∈ discoveryTableReceived hostsMax pingIndex t host) :
    e = (host, pingIndex) ∨ e ∈ t ∧ e.id ≠ host.string .hostId := by
  unfold discoveryTableReceived at he
  split at he
  · exact Table.mem_replace he
  · next hnew =>
    have hne : ∀ e ∈ t, e.id ≠ host.string .hostId := fun e he heq => hnew (List.mem_map.mpr ⟨e, he, heq⟩)
    split at he
    · exact .inr ⟨he, hne e he⟩
    · rcases List.mem_append.mp he with he | he
      · exact .inr ⟨he, hne e he⟩
      · exact .inl (List.mem_singleton.mp he)

theorem discoveryTableReceived_distinct {hostsMax pingIndex : Nat} {t : List DiscoveryEntry}
    (h : Table.Distinct DiscoveryEntry.id t) :
    Table.Distinct DiscoveryEntry.id (discoveryTableReceived hostsMax pingIndex t host) := by
  unfold discoveryTableReceived
  split
  · exact h.replace
  · next hnew =>
    split
    · exact h
    · exact h.append hnew

/-- An answer of a host with an id replaces its entry, or comes last. -/
theorem discoveryServiceHostReceived_table (h : DiscoveryServiceSane o s)
    (hdistinct : Table.Distinct DiscoveryEntry.id s.table) (hid : host.string .hostId ≠ none) :
    ∃ s', discoveryServiceHostReceived o s host = .ok s' ∧ DiscoveryServiceSane o s' ∧
      s'.pingIndex = s.pingIndex ∧
      s'.table = discoveryTableReceived o.hostsMax s.pingIndex s.table host ∧
      DiscoveryServiceReports o s s' := by
  obtain ⟨hostId, hhostId⟩ := Option.ne_none_iff_exists'.mp hid
  have hids : s.table.map DiscoveryEntry.id = s.visible.map (·.string .hostId) := by
    rw [← h.map_table, List.map_map]
    rfl
  rw [discoveryServiceHostReceived, hhostId, discoveryTableReceived, hids]
  simp only
  cases hfind : s.visible.findIdx? (·.string .hostId == some hostId) with
  | some index =>
    obtain ⟨hlt, hmatch, -⟩ := List.findIdx?_eq_some_iff_getElem.mp hfind
    have hindex : index < s.hostsCount := by
      rw [← h.length_visible]
      exact hlt
    have hslotId : (s.visible[index]).string .hostId = some hostId := eq_of_beq hmatch
    obtain ⟨slot, info, hslot, -, hentry⟩ := h.getElem?_table hindex
    have hvisible : s.visible[index]? = some slot := by
      rw [DiscoveryService.visible, List.getElem?_take_of_lt hindex]
      exact hslot
    obtain rfl : s.visible[index] = slot := (List.getElem?_eq_some_iff.mp hvisible).2
    obtain ⟨s', hupdate, hsane, hping, htable, hreports⟩ :=
      @discoveryServiceUpdate_table o s host index false s h hindex rfl (fun slot' hslot' => by
        obtain rfl : s.visible[index] = slot' := Option.some.inj (hslot.symm.trans hslot')
        rw [Ne, Ne, set_eq_self_iff hlt]
        simp only [Bool.false_eq_true, false_or])
    refine ⟨s', hupdate, hsane, hping, ?_, hreports⟩
    rw [htable, if_pos]
    · exact Table.set_eq_replace hdistinct hentry (hslotId.trans hhostId.symm)
    · exact List.mem_map.mpr ⟨s.visible[index], List.getElem_mem _, hslotId.trans hhostId.symm⟩
  | none =>
    have hnew : DiscoveryEntry.id (host, s.pingIndex) ∉ s.visible.map (·.string .hostId) := by
      intro hmem
      obtain ⟨slot, hslot, heq⟩ := List.mem_map.mp hmem
      have hne := List.findIdx?_eq_none_iff.mp hfind slot hslot
      rw [heq, DiscoveryEntry.id, hhostId, beq_self_eq_true] at hne
      cases hne
    rw [if_neg hnew, h.length_table]
    simp only
    split
    · exact ⟨s, rfl, h, rfl, rfl, fun _ hne => absurd rfl hne, fun _ => rfl⟩
    · next hspace =>
      have hlt : s.hostsCount < o.hostsMax := Nat.lt_of_le_of_ne h.count hspace
      have hhosts := h.hosts
      obtain ⟨e, hextend⟩ := h.table_extend hlt
      have hlength : s.extend.visible.length = s.visible.length + 1 := by
        rw [(h.extend hlt).length_visible, h.length_visible]
        rfl
      obtain ⟨s', hupdate, hsane, hping, htable, hreports⟩ :=
        @discoveryServiceUpdate_table o s.extend host s.hostsCount true s (h.extend hlt)
          (Nat.lt_succ_self _) rfl (fun _ _ => by
            simp only [true_or, true_iff]
            intro heq
            have hlen := congrArg List.length heq
            rw [List.length_set, hlength] at hlen
            omega)
      refine ⟨s', ?_, hsane, hping, ?_, hreports⟩
      · rw [if_neg (by omega)]
        exact hupdate
      · rw [htable, hextend, ← h.length_table, List.set_append_right _ _ (Nat.le_refl _), Nat.sub_self]
        rfl

/-! ## Runs -/

/-- The ping round after some steps, the last one first. -/
def discoveryPings : List DiscoveryServiceLabel → Nat
  | [] => 0
  | .ping :: before => (discoveryPings before + 1) % 2 ^ 64
  | .received _ :: before => discoveryPings before

/-- The ping round in which there was the last answer of the host with an id. -/
def discoveryLastHeard (id : Option Bytes) : List DiscoveryServiceLabel → Nat
  | [] => 0
  | .ping :: before => discoveryLastHeard id before
  | .received host :: before =>
    if host.string .hostId = id then discoveryPings before else discoveryLastHeard id before

/-- What holds between the steps. -/
structure DiscoveryServiceInv (o : DiscoveryServiceOptions) (before : List DiscoveryServiceLabel)
    (s : DiscoveryService) : Prop where
  sane : DiscoveryServiceSane o s
  pingIndex : s.pingIndex = discoveryPings before
  distinct : Table.Distinct DiscoveryEntry.id s.table
  named : ∀ e ∈ s.table, e.id ≠ none
  heard : ∀ e ∈ s.table, e.2 = discoveryLastHeard e.id before

theorem discoveryServiceInv_init : DiscoveryServiceInv o [] (discoveryServiceInit o) where
  sane := ⟨List.length_replicate, List.length_replicate, Nat.zero_le _⟩
  pingIndex := rfl
  distinct := Table.distinct_nil
  named := by nofun
  heard := by nofun

/-- Every step keeps it. -/
theorem discoveryServiceInv_step {before : List DiscoveryServiceLabel} (h : DiscoveryServiceInv o before s)
    (label : DiscoveryServiceLabel) :
    ∃ s', discoveryServiceStep o s label = .ok s' ∧ DiscoveryServiceInv o (label :: before) s' ∧
      DiscoveryServiceReports o s s' := by
  obtain ⟨hsane, hpingIndex, hdistinct, hnamed, hheard⟩ := h
  cases label with
  | ping =>
    obtain ⟨s', hstep, hsane', hping, htable, hreports⟩ := discoveryServicePing_table hsane
    refine ⟨s', hstep, ⟨hsane', ?_, ?_, ?_, ?_⟩, hreports⟩
    · rw [hping, hpingIndex]
      rfl
    · rw [htable]
      exact hdistinct.filter _
    · rw [htable]
      exact fun e he => hnamed e (List.mem_of_mem_filter he)
    · rw [htable]
      exact fun e he => hheard e (List.mem_of_mem_filter he)
  | received host =>
    cases hid : host.string .hostId with
    | none =>
      refine ⟨s, by rw [discoveryServiceStep, discoveryServiceHostReceived, hid], ⟨hsane, hpingIndex, hdistinct,
        hnamed, fun e he => ?_⟩, fun _ hne => absurd rfl hne, fun _ => rfl⟩
      rw [discoveryLastHeard, if_neg, hheard e he]
      rw [hid]
      exact (hnamed e he).symm
    | some hostId =>
      have hhost : host.string .hostId ≠ none := by
        rw [hid]
        nofun
      obtain ⟨s', hstep, hsane', hping, htable, hreports⟩ :=
        discoveryServiceHostReceived_table hsane hdistinct hhost
      refine ⟨s', hstep, ⟨hsane', hping.trans hpingIndex, ?_, fun e he => ?_, fun e he => ?_⟩, hreports⟩
      · rw [htable]
        exact discoveryTableReceived_distinct hdistinct
      · rw [htable] at he
        rcases mem_discoveryTableReceived he with rfl | ⟨he, -⟩
        · exact hhost
        · exact hnamed e he
      · rw [htable] at he
        rw [discoveryLastHeard]
        rcases mem_discoveryTableReceived he with rfl | ⟨he, hne⟩
        · exact hpingIndex.trans (if_pos rfl).symm
        · rw [if_neg hne.symm]
          exact hheard e he

theorem discoveryServiceInv_run (o : DiscoveryServiceOptions) (before : List DiscoveryServiceLabel) :
    ∃ s, discoveryServiceRun o before = .ok s ∧ DiscoveryServiceInv o before s := by
  induction before with
  | nil => exact ⟨_, rfl, discoveryServiceInv_init⟩
  | cons label before ih =>
    obtain ⟨s, hrun, hinv⟩ := ih
    obtain ⟨s', hstep, hinv', -⟩ := discoveryServiceInv_step hinv label
    exact ⟨s', by rw [discoveryServiceRun, hrun]; exact hstep, hinv'⟩

/-- What the table is after some steps, and what the next one does. -/
structure DiscoveryServiceRight (o : DiscoveryServiceOptions) (before : List DiscoveryServiceLabel)
    (s : DiscoveryService) : Prop where
  count : s.hostsCount ≤ o.hostsMax
  named : ∀ i < s.hostsCount, ∃ host hostId, s.hosts[i]? = some host ∧ host.string .hostId = some hostId
  distinct : ∀ i j host host', i < s.hostsCount → j < s.hostsCount → s.hosts[i]? = some host →
    s.hosts[j]? = some host' → host.string .hostId = host'.string .hostId → i = j
  heard : ∀ i host, i < s.hostsCount → s.hosts[i]? = some host →
    s.hostDiscoveryInfos[i]? = some (discoveryLastHeard (host.string .hostId) before)
  reports : ∀ label, ∃ s', discoveryServiceStep o s label = .ok s' ∧ DiscoveryServiceReports o s s'
  drops : ∀ s', discoveryServicePing o s = .ok s' → s.pingIndex + 1 < 2 ^ 64 →
    (∀ e ∈ s.table, e.2 + o.hostDropPings < 2 ^ 64) →
    s'.table = s.table.filter fun e => !decide (e.2 + o.hostDropPings < s.pingIndex + 1)

/-- **After any steps, the hosts are told apart by their ids, each of them has the round in which it was heard of,
a ping drops the old ones and no others, and every change is reported.** -/
theorem discoveryServiceRun_right (o : DiscoveryServiceOptions) (before : List DiscoveryServiceLabel) :
    ∃ s, discoveryServiceRun o before = .ok s ∧ DiscoveryServiceRight o before s := by
  obtain ⟨s, hrun, hinv⟩ := discoveryServiceInv_run o before
  have hsane := hinv.sane
  refine ⟨s, hrun, hsane.count, fun i hi => ?_, fun i j host host' hi hj hhost hhost' heq => ?_,
    fun i host hi hhost => ?_, fun label => ?_, fun s' hstep hping hdrop => ?_⟩
  · obtain ⟨host, info, hhost, -, hentry⟩ := hsane.getElem?_table hi
    obtain ⟨hostId, hid⟩ := Option.ne_none_iff_exists'.mp (hinv.named _ (List.mem_of_getElem? hentry))
    exact ⟨host, hostId, hhost, hid⟩
  · obtain ⟨_, info, hslot, -, hentry⟩ := hsane.getElem?_table hi
    obtain ⟨_, info', hslot', -, hentry'⟩ := hsane.getElem?_table hj
    cases hslot.symm.trans hhost
    cases hslot'.symm.trans hhost'
    exact hinv.distinct.index_eq hentry hentry' heq
  · obtain ⟨_, info, hslot, hinfo, hentry⟩ := hsane.getElem?_table hi
    cases hslot.symm.trans hhost
    rw [hinfo]
    exact congrArg some (hinv.heard _ (List.mem_of_getElem? hentry))
  · obtain ⟨s', hstep, -, hreports⟩ := discoveryServiceInv_step hinv label
    exact ⟨s', hstep, hreports⟩
  · obtain ⟨s₁, hstep₁, -, -, htable, -⟩ := discoveryServicePing_table hsane
    cases hstep₁.symm.trans hstep
    rw [htable]
    refine List.filter_congr fun e he => ?_
    rw [DiscoveryEntry.kept, Nat.mod_eq_of_lt hping, Nat.mod_eq_of_lt (hdrop e he), ← decide_not]
    exact decide_eq_decide.mpr Nat.not_lt.symm

end Chiaki
