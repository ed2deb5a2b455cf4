import Chiaki.Properties.Switch.Settings

/-!
# Any configuration file

Whatever a file holds, what is read of it has patterns again (`SettingsParser.Read`), one line after the other.
-/

namespace Chiaki

open Infra Regex

variable {charSigned : Bool} {item : ConfigurationItem} {name value line : Bytes} {s s' : SettingsParser}
  {settings : SwitchSettings} {host : SwitchHost} {hosts : List (Bytes × SwitchHost)}

/-! ## The map -/

namespace SwitchSettings

theorem mem_emplace {x : Bytes × SwitchHost} : x ∈ emplace name host hosts ↔ x = (name, host) ∨ x ∈ hosts := by
  induction hosts with
  | nil => simp [emplace]
  | cons y hosts ih =>
    rw [emplace]
    split
    · exact List.mem_cons
    · simp only [List.mem_cons, ih]
      tauto

/-- The map stays sorted. -/
theorem sorted_emplace (h : hosts.Pairwise fun x y => x.1 < y.1) (hname : ∀ x ∈ hosts, x.1 ≠ name) :
    (emplace name host hosts).Pairwise fun x y => x.1 < y.1 := by
  induction hosts with
  | nil => exact List.pairwise_singleton _ _
  | cons y hosts ih =>
    obtain ⟨hy, hhosts⟩ := List.pairwise_cons.mp h
    obtain ⟨hne, hname⟩ := List.forall_mem_cons.mp hname
    rw [emplace]
    split
    · next hlt =>
      refine List.pairwise_cons.mpr ⟨?_, h⟩
      intro x hx
      rcases List.mem_cons.mp hx with rfl | hx
      · exact hlt
      · exact List.lt_trans hlt (hy x hx)
    · next hnot =>
      refine List.pairwise_cons.mpr ⟨?_, ih hhosts hname⟩
      intro x hx
      rcases mem_emplace.mp hx with rfl | hx
      · exact (List.le_iff_lt_or_eq.mp (List.not_lt.mp hnot)).resolve_right hne
      · exact hy x hx

theorem mem_update {s : SwitchSettings} {f : SwitchHost → SwitchHost} {x : Bytes × SwitchHost}
    (hx : x ∈ (s.update name f).hosts) : ∃ y ∈ s.hosts, x.1 = y.1 ∧ (x.2 = f y.2 ∨ x.2 = y.2) := by
  obtain ⟨y, hy, rfl⟩ := List.mem_map.mp hx
  refine ⟨y, hy, ?_⟩
  by_cases hname : y.1 = name
  · exact ⟨by simp [hname], .inl (by simp [hname])⟩
  · exact ⟨by simp [hname], .inr (by simp [hname])⟩

theorem sorted_update {s : SwitchSettings} {f : SwitchHost → SwitchHost}
    (h : s.hosts.Pairwise fun x y => x.1 < y.1) : (s.update name f).hosts.Pairwise fun x y => x.1 < y.1 := by
  refine List.pairwise_map.mpr (h.imp fun {x y} hlt => ?_)
  have hfst : ∀ x : Bytes × SwitchHost, (if x.1 = name then (x.1, f x.2) else x).1 = x.1 := by
    intro x
    split <;> rfl
  rwa [hfst, hfst]

theorem mem_of_host? {s : SwitchSettings} (h : s.host? name = some host) : ∃ x ∈ s.hosts, x.2 = host := by
  obtain ⟨x, hx, rfl⟩ := Option.map_eq_some_iff.mp h
  exact ⟨x, List.mem_of_find?_eq_some hx, rfl⟩

end SwitchSettings

/-! ## What has been read -/

/-- A host as it is in a file, or as the ids in front of it are. -/
structure SwitchHost.Read (onlineId accountId : Bytes) (host : SwitchHost) : Prop where
  savable : host.Savable
  rpKeyType : host.rpKeyType < 10
  videoResolution : host.videoResolution ≠ .p2160
  psnOnlineId : host.psnOnlineId = [] → onlineId = []
  psnAccountId : host.psnAccountId = [] → accountId = []
  registered : host.registered = false

/-- Defaults as they are in a file. -/
structure SwitchSettings.DefaultsRead (t : SwitchSettings) : Prop where
  psnOnlineId : t.psnOnlineId = [] ∨ (reMap .psnOnlineId).group.Matches t.psnOnlineId
  psnAccountId : t.psnAccountId = [] ∨ (reMap .psnAccountId).group.Matches t.psnAccountId
  videoResolution : t.videoResolution ≠ .p2160

/-- What the parser has read. The defaults are complete when there is a host. -/
structure SettingsParser.Read (s : SettingsParser) : Prop where
  defaults : s.settings.DefaultsRead
  sorted : s.settings.hosts.Pairwise fun x y => x.1 < y.1
  names : ∀ x ∈ s.settings.hosts, HostNameRead x.1
  hosts : ∀ x ∈ s.settings.hosts, x.2.Read s.settings.psnOnlineId s.settings.psnAccountId
  noHost : s.currentHost = none → s.settings.hosts = []

namespace SettingsParser.Read

/-- A member of the current host is set, or a default. -/
theorem set (h : s.Read) {global : SwitchSettings → SwitchSettings} {f : SwitchHost → SwitchHost}
    (hglobal : (global s.settings).DefaultsRead) (hhosts : (global s.settings).hosts = s.settings.hosts)
    (hf : ∀ host, host.Read s.settings.psnOnlineId s.settings.psnAccountId →
      (f host).Read s.settings.psnOnlineId s.settings.psnAccountId) : (s.set global f).Read := by
  unfold SettingsParser.set
  cases hcurrent : s.currentHost with
  | none =>
    -- the defaults change only in front of the first host, so no host depends on what they were
    have hnil : (global s.settings).hosts = [] := hhosts.trans (h.noHost hcurrent)
    refine ⟨hglobal, ?_, ?_, ?_, fun _ => hnil⟩
    · simp [hnil]
    · simp [hnil]
    · simp [hnil]
  | some name =>
    refine ⟨⟨h.defaults.psnOnlineId, h.defaults.psnAccountId, h.defaults.videoResolution⟩,
      SwitchSettings.sorted_update h.sorted, ?_, ?_, fun hnone => ?_⟩
    · intro x hx
      obtain ⟨y, hy, hname, -⟩ := SwitchSettings.mem_update hx
      exact hname ▸ h.names y hy
    · intro x hx
      obtain ⟨y, hy, -, hhost | hhost⟩ := SwitchSettings.mem_update hx
      · exact hhost ▸ hf _ (h.hosts y hy)
      · exact hhost ▸ h.hosts y hy
    · cases hnone

/-- A member that is no default is set. -/
theorem set_host (h : s.Read) {f : SwitchHost → SwitchHost}
    (hf : ∀ host, host.Read s.settings.psnOnlineId s.settings.psnAccountId →
      (f host).Read s.settings.psnOnlineId s.settings.psnAccountId) : (s.set id f).Read :=
  h.set h.defaults rfl hf

/-- The parts of the keys that have been read do not matter. -/
theorem congr (h : s.Read) (hsettings : s'.settings = s.settings) (hcurrent : s'.currentHost = s.currentHost) :
    s'.Read := by
  refine ⟨?_, ?_, ?_, ?_, ?_⟩
  · rw [hsettings]
    exact h.defaults
  · rw [hsettings]
    exact h.sorted
  · rw [hsettings]
    exact h.names
  · rw [hsettings]
    exact h.hosts
  · rw [hsettings, hcurrent]
    exact h.noHost

/-- The current host is one of the map. -/
theorem current (h : s.Read) (hhost : s.currentHost.bind s.settings.host? = some host) :
    host.Read s.settings.psnOnlineId s.settings.psnAccountId := by
  obtain ⟨name, -, hname⟩ := Option.bind_eq_some_iff.mp hhost
  obtain ⟨x, hx, rfl⟩ := SwitchSettings.mem_of_host? hname
  exact h.hosts x hx

end SettingsParser.Read

theorem read_switchHostNew (h : settings.DefaultsRead) :
    (switchHostNew settings).Read settings.psnOnlineId settings.psnAccountId where
  savable :=
    { hostAddr := .inl rfl
      psnOnlineId := h.psnOnlineId
      psnAccountId := h.psnAccountId
      target := show (0 : Int) < 2 ^ 31 by decide
      rpKeyType := fun _ => show 0 < 10 by decide
      rpKey := List.length_replicate
      rpRegistKey := List.length_replicate }
  rpKeyType := show 0 < 10 by decide
  videoResolution := h.videoResolution
  psnOnlineId := fun hnil => hnil
  psnAccountId := fun hnil => hnil
  registered := rfl

/-- A name makes a host, or there is one. -/
theorem read_getOrCreateHost (h : s.Read) (hname : HostNameRead name) :
    (⟨s.settings.getOrCreateHost name, some name, false, false, false⟩ : SettingsParser).Read := by
  unfold SwitchSettings.getOrCreateHost
  split
  · exact ⟨h.defaults, h.sorted, h.names, h.hosts, fun hnone => by cases hnone⟩
  · next hany =>
    have hne : ∀ x ∈ s.settings.hosts, x.1 ≠ name := by
      intro x hx heq
      exact hany (List.any_eq_true.mpr ⟨x, hx, decide_eq_true heq⟩)
    refine ⟨⟨h.defaults.psnOnlineId, h.defaults.psnAccountId, h.defaults.videoResolution⟩,
      SwitchSettings.sorted_emplace h.sorted hne, ?_, ?_, fun hnone => by cases hnone⟩
    · intro x hx
      rcases SwitchSettings.mem_emplace.mp hx with rfl | hx
      · exact hname
      · exact h.names x hx
    · intro x hx
      rcases SwitchSettings.mem_emplace.mp hx with rfl | hx
      · show (switchHostNew s.settings).Read s.settings.psnOnlineId s.settings.psnAccountId
        exact read_switchHostNew h.defaults
      · exact h.hosts x hx

/-- The texts of the pattern are those of four resolutions. -/
theorem stringToResolutionPreset_ne (h : (reMap .videoResolution).group.Matches value) :
    stringToResolutionPreset value ≠ .p2160 := by
  simp only [reMap, reItem, matches_alt_iff, matches_text_iff] at h
  rcases h with rfl | rfl | rfl | rfl <;> decide

theorem atoi_lt (value : Bytes) : atoi value < 2 ^ 31 := by
  have hlt := @Int.bmod_lt (StrTo.strtol 10 value) (2 ^ 32) (by decide)
  exact Int.lt_of_lt_of_le hlt (by decide)

/-- One digit is a number below ten. -/
theorem atoi_keyType (h : (reMap .rpKeyType).group.Matches value) : (atoi value % 2 ^ 32).toNat < 10 := by
  obtain ⟨hall, hmin, hmax⟩ := matches_rep_iff.mp h
  obtain ⟨c, rfl⟩ := List.length_eq_one_iff.mp (Nat.le_antisymm (hmax 1 rfl) hmin)
  have hdigit := hall c List.mem_cons_self
  simp only [isDigit, Bool.and_eq_true, decide_eq_true_eq] at hdigit
  have hlow : 0x30 ≤ c.toNat := hdigit.1
  have hhigh : c.toNat ≤ 0x39 := hdigit.2
  have hc : [c] = StrTo.unsigned (c.toNat - 0x30) := by
    rw [unsigned_of_lt (by omega), Nat.add_sub_cancel' hlow, UInt8.ofNat_toNat]
  rw [hc, atoi_unsigned (by omega)]
  omega

theorem toNat_lt_of_isBase64Char {c : UInt8} (h : isBase64Char c = true) : c.toNat < 2 ^ 7 := by
  simp only [isBase64Char, isAlnum, isDigit, Bool.or_eq_true, Bool.and_eq_true, decide_eq_true_eq] at h
  have hle : ∀ {d : UInt8}, c ≤ d → c.toNat ≤ d.toNat := fun h => h
  rcases h with (((((⟨-, h⟩ | ⟨-, h⟩) | ⟨-, h⟩) | rfl) | rfl) | rfl) | rfl
  · exact Nat.lt_of_le_of_lt (hle h) (by decide)
  · exact Nat.lt_of_le_of_lt (hle h) (by decide)
  · exact Nat.lt_of_le_of_lt (hle h) (by decide)
  all_goals decide

/-- The texts of a key are below 0x80, so they are decoded to an end. -/
theorem settingsSetKey_ok (h : (Regex.rep isBase64Char 1 none).Matches value) {key : Bytes}
    (hkey : key.length = switchKeySize) :
    ∃ key' ok, settingsSetKey charSigned key value = .ok (key', ok) ∧ key'.length = switchKeySize := by
  have hascii : ∀ c ∈ (value ++ [0]).take value.length, c.toNat < 2 ^ 7 := by
    intro c hc
    rw [List.take_left] at hc
    exact toNat_lt_of_isBase64Char ((matches_rep_iff.mp h).1 c hc)
  obtain ⟨key', written, err, hdecode, hlen, -, -⟩ := @base64Decode_ascii key switchKeySize charSigned (value ++ [0])
    value.length (by simp) hascii (Nat.le_of_eq hkey.symm)
  refine ⟨key', err = .success, ?_, hlen.trans hkey⟩
  rw [settingsSetKey, hdecode]
  rfl

/-- **What one line does**, whatever is in it. -/
theorem settingsParseItem_read (h : s.Read) (hsearch : (reMap item).search line = some value)
    (hvalue : (reMap item).group.Matches value) :
    ∃ s', settingsParseItem charSigned s item value = .ok s' ∧ s'.Read := by
  cases item with
  | hostName => exact ⟨_, rfl, read_getOrCreateHost h (hostNameRead_of_search hsearch)⟩
  | hostAddr =>
    exact ⟨_, rfl, h.set_host fun host hhost =>
      { hhost with savable := { hhost.savable with hostAddr := .inr hvalue } }⟩
  | psnOnlineId =>
    -- an id that is read is not empty, so that of a host does not fall back on the default one
    have hne := @ne_nil_of_group _ .psnOnlineId (by decide) hvalue
    refine ⟨_, rfl, h.set { h.defaults with psnOnlineId := .inr hvalue } rfl fun host hhost => ?_⟩
    exact { hhost with
      savable := { hhost.savable with psnOnlineId := .inr hvalue }
      psnOnlineId := fun hnil => absurd hnil hne }
  | psnAccountId =>
    have hne := @ne_nil_of_group _ .psnAccountId (by decide) hvalue
    refine ⟨_, rfl, h.set { h.defaults with psnAccountId := .inr hvalue } rfl fun host hhost => ?_⟩
    exact { hhost with
      savable := { hhost.savable with psnAccountId := .inr hvalue }
      psnAccountId := fun hnil => absurd hnil hne }
  | rpKey =>
    cases hhost : s.currentHost.bind s.settings.host? with
    | none =>
      refine ⟨s, ?_, h⟩
      rw [settingsParseItem, hhost]
    | some host =>
      obtain ⟨key, ok, hkey, hlen⟩ := @settingsSetKey_ok charSigned value hvalue _ (h.current hhost).savable.rpKey
      refine ⟨{ s.set id fun host => { host with rpKey := key } with rpKeyB := ok }, ?_, ?_⟩
      · rw [settingsParseItem, hhost]
        simp only [hkey, bind, Except.bind]
        rfl
      · have hset := h.set_host (f := fun host => { host with rpKey := key }) fun host hhost =>
          { hhost with savable := { hhost.savable with rpKey := hlen } }
        exact hset.congr rfl rfl
  | rpKeyType =>
    cases hcurrent : s.currentHost with
    | none =>
      refine ⟨s, ?_, h⟩
      rw [settingsParseItem, hcurrent]
    | some name =>
      refine ⟨{ s.set id fun host => { host with rpKeyType := (atoi value % 2 ^ 32).toNat } with rpKeyTypeB := true },
        ?_, ?_⟩
      · rw [settingsParseItem, hcurrent]
      · have hlt := atoi_keyType hvalue
        have hset := h.set_host (f := fun host => { host with rpKeyType := (atoi value % 2 ^ 32).toNat })
          fun host hhost =>
            { hhost with savable := { hhost.savable with rpKeyType := fun _ => hlt }, rpKeyType := hlt }
        exact hset.congr rfl rfl
  | rpRegistKey =>
    cases hhost : s.currentHost.bind s.settings.host? with
    | none =>
      refine ⟨s, ?_, h⟩
      rw [settingsParseItem, hhost]
    | some host =>
      obtain ⟨key, ok, hkey, hlen⟩ := @settingsSetKey_ok charSigned value hvalue _ (h.current hhost).savable.rpRegistKey
      refine ⟨{ s.set id fun host => { host with rpRegistKey := key } with rpRegistKeyB := ok }, ?_, ?_⟩
      · rw [settingsParseItem, hhost]
        simp only [hkey, bind, Except.bind]
        rfl
      · have hset := h.set_host (f := fun host => { host with rpRegistKey := key }) fun host hhost =>
          { hhost with savable := { hhost.savable with rpRegistKey := hlen } }
        exact hset.congr rfl rfl
  | videoResolution =>
    have hne := stringToResolutionPreset_ne hvalue
    exact ⟨_, rfl, h.set { h.defaults with videoResolution := hne } rfl fun host hhost =>
      { hhost with savable := { hhost.savable with }, videoResolution := hne }⟩
  | videoFps =>
    exact ⟨_, rfl, h.set { h.defaults with } rfl fun host hhost =>
      { hhost with savable := { hhost.savable with } }⟩
  | target =>
    refine ⟨_, rfl, h.set_host fun host hhost => ?_⟩
    exact { hhost with savable := { hhost.savable with target := atoi_lt value } }

theorem SettingsParser.Read.finish (h : s.Read) : s.finish.Read := by
  unfold SettingsParser.finish
  split
  · exact h.set_host fun host hhost =>
      { hhost with savable := { hhost.savable with rpKeyType := fun _ => hhost.rpKeyType } }
  · exact h

theorem settingsParseStep_read (h : s.Read) (line : Bytes) :
    ∃ s', settingsParseStep charSigned s line = .ok s' ∧ s'.Read := by
  cases hline : settingsParseLine line with
  | none => exact ⟨_, settingsParseStep_none hline, h.finish⟩
  | some found =>
    obtain ⟨hsearch, hvalue⟩ := settingsParseLine_value hline
    obtain ⟨s', hitem, hs'⟩ := @settingsParseItem_read charSigned found.1 found.2 line s h hsearch hvalue
    refine ⟨s'.finish, ?_, hs'.finish⟩
    rw [settingsParseStep_item hline, hitem]
    rfl

/-- **All lines of a file are read.** -/
theorem foldlM_settingsParseStep (h : s.Read) (lines : List Bytes) :
    ∃ s', lines.foldlM (settingsParseStep charSigned) s = .ok s' ∧ s'.Read := by
  induction lines generalizing s with
  | nil => exact ⟨s, rfl, h⟩
  | cons line lines ih =>
    obtain ⟨s', hstep, hs'⟩ := @settingsParseStep_read charSigned s h line
    obtain ⟨s'', hlines, hs''⟩ := ih hs'
    refine ⟨s'', ?_, hs''⟩
    rw [List.foldlM_cons, hstep]
    exact hlines

/-! ## What is lost -/

theorem reloaded_read {onlineId accountId : Bytes} {settings : SwitchSettings} (h : host.Read onlineId accountId)
    (honline : settings.psnOnlineId = onlineId) (haccount : settings.psnAccountId = accountId) :
    host.reloaded settings = { host with
      target := max host.target 0
      rpKey := if host.rpKeyData then host.rpKey else List.replicate switchKeySize 0
      rpRegistKey := if host.rpKeyData then host.rpRegistKey else List.replicate switchKeySize 0
      rpKeyType := if host.rpKeyData then host.rpKeyType else 0 } := by
  have hsaved : host.saved = host.rpKeyData := by rw [SwitchHost.saved, h.registered, Bool.or_false]
  have hid : ∀ {id default : Bytes}, (id = [] → default = []) → (if id = [] then default else id) = id := by
    intro id default hid
    split
    · next hnil => rw [hnil, hid hnil]
    · rfl
  have honline : (if host.psnOnlineId = [] then settings.psnOnlineId else host.psnOnlineId) = host.psnOnlineId :=
    hid fun hnil => honline.trans (h.psnOnlineId hnil)
  have haccount : (if host.psnAccountId = [] then settings.psnAccountId else host.psnAccountId) = host.psnAccountId :=
    hid fun hnil => haccount.trans (h.psnAccountId hnil)
  simp only [SwitchHost.reloaded, hsaved, if_neg h.videoResolution, honline, haccount, h.registered]

/-- **Every file is read, and what was read can be saved**: read again, it is the same but for the targets that are
negative and the keys that are not complete. -/
theorem settingsFile_right (charSigned : Bool) (file : Bytes) :
    ∃ s saved, settingsParseFile charSigned file = .ok s ∧ s.Savable ∧ settingsWriteFile s = .ok saved ∧
      settingsParseFile charSigned saved = .ok { s with
        hosts := s.hosts.map fun x => (x.1, { x.2 with
          target := max x.2.target 0
          rpKey := if x.2.rpKeyData then x.2.rpKey else List.replicate switchKeySize 0
          rpRegistKey := if x.2.rpKeyData then x.2.rpRegistKey else List.replicate switchKeySize 0
          rpKeyType := if x.2.rpKeyData then x.2.rpKeyType else 0 }) } := by
  have hinit : (⟨switchSettingsInit, none, false, false, false⟩ : SettingsParser).Read := by
    refine ⟨⟨.inl rfl, .inl rfl, by decide⟩, List.Pairwise.nil, ?_, ?_, fun _ => rfl⟩
    · simp [switchSettingsInit]
    · simp [switchSettingsInit]
  obtain ⟨s, hlines, hread⟩ := @foldlM_settingsParseStep charSigned _ hinit (getlines [] file)
  have hsavable : s.settings.Savable :=
    { psnOnlineId := hread.defaults.psnOnlineId
      psnAccountId := hread.defaults.psnAccountId
      sorted := hread.sorted
      names := hread.names
      hosts := fun x hx => (hread.hosts x hx).savable }
  obtain ⟨saved, hwrite, hparse⟩ := settingsFile_read hsavable charSigned
  refine ⟨s.settings, saved, ?_, hsavable, hwrite, ?_⟩
  · rw [settingsParseFile, hlines]
    rfl
  · rw [hparse]
    have hdefaults : s.settings.defaults = { s.settings with hosts := [] } := by
      rw [SwitchSettings.defaults, if_neg hread.defaults.videoResolution]
    have hhosts := List.map_congr_left fun x hx =>
      congrArg (Prod.mk x.1) (@reloaded_read x.2 _ _ s.settings.defaults (hread.hosts x hx) rfl rfl)
    rw [SwitchSettings.reloaded, hhosts, hdefaults]

end Chiaki
