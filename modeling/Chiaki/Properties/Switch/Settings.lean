import Chiaki.Properties.Switch.Reading

/-!
# Saved settings

What is saved is read again as it was, apart from what has no pattern (`settingsFile_read`): a host is read behind those
before it (`reads_host`), and so is the map (`reads_hosts`).
-/

namespace Chiaki

open Infra Regex

variable {charSigned : Bool} {name value key : Bytes} {s : SettingsParser} {settings : SwitchSettings}
  {host : SwitchHost} {done : List (Bytes × SwitchHost)}

/-! ## Numbers -/

theorem isDigit_of_mem_unsigned {n : Nat} {c : UInt8} (h : c ∈ StrTo.unsigned n) : isDigit c = true := by
  obtain ⟨d, hd, rfl⟩ := StrTo.mem_unsigned h
  have hall : ∀ d < 10, isDigit (UInt8.ofNat (0x30 + d)) = true := by decide
  exact hall d hd

theorem matches_unsigned (n : Nat) : reDigits.Matches (StrTo.unsigned n) :=
  matches_rep_iff.mpr ⟨fun _ => isDigit_of_mem_unsigned, List.length_pos_iff.mpr (StrTo.unsigned_ne_nil n), by simp⟩

theorem signedText_of_nonneg {n : Int} (h : 0 ≤ n) : signedText n = StrTo.unsigned n.natAbs :=
  if_neg (Int.not_lt.mpr h)

theorem atoi_unsigned {n : Nat} (h : n < 2 ^ 31) : atoi (StrTo.unsigned n) = n := by
  have hread := @StrTo.strtol_unsigned_append n (by omega) [] (by simp)
  rw [List.append_nil] at hread
  rw [atoi, hread, Int.bmod_def]
  omega

theorem unsigned_of_lt {n : Nat} (h : n < 10) : StrTo.unsigned n = [UInt8.ofNat (0x30 + n)] := by
  rcases Nat.eq_zero_or_pos n with rfl | hpos
  · rfl
  · rw [StrTo.unsigned_pos hpos, StrTo.decimal, Nat.digits_of_lt 10 n (by omega) h]
    rfl

/-- The pattern of a key type has one digit. -/
theorem matches_keyType {n : Nat} (h : n < 10) : (reMap .rpKeyType).group.Matches (StrTo.unsigned n) := by
  refine matches_rep_iff.mpr ⟨fun _ => isDigit_of_mem_unsigned, ?_, ?_⟩
  · simp [unsigned_of_lt h]
  · intro m hm
    cases hm
    simp [unsigned_of_lt h]

/-- A sign is not found. -/
theorem settingsParseLine_negative (rest : Bytes) :
    settingsParseLine (keyText (itemKey .target) true ++ 0x2d :: rest) = none := by
  have hothers : ∀ other, other ≠ .target →
      (reMap other).search (keyText (itemKey .target) true ++ 0x2d :: rest) = none :=
    fun other hother => search_other (by decide) hother true _
  have hkey : ascii "target" = [0x74, 0x61, 0x72, 0x67, 0x65, 0x74] := rfl
  have hline : keyText (itemKey .target) true ++ 0x2d :: rest
      = [0x74, 0x61, 0x72, 0x67, 0x65, 0x74, 0x20, 0x3d, 0x20, 0x22] ++ 0x2d :: rest := rfl
  rw [settingsParseLine_eq hothers, hline]
  simp [reMap, reItem, reSpaces, reQuote, reDigits, Pattern.search, rests, most, StrTo.isSpace, isDigit, hkey,
    List.range']

/-! ## Keys -/

theorem isBase64Char_of_mem {c : UInt8} (h : c ∈ base64Text key) : isBase64Char c = true := by
  have hall : ∀ n < 2 ^ 6, isBase64Char (base64Char n) = true := by decide
  rcases List.mem_append.mp h with h | h
  · obtain ⟨n, hn, rfl⟩ := List.mem_map.mp h
    exact hall n (Sextet.toSextets_lt key n hn)
  · rw [List.eq_of_mem_replicate h]
    rfl

/-- A key is encoded whole. -/
theorem settingsGetKey_eq (h : key.length = switchKeySize) : settingsGetKey key = .ok (base64Text key) := by
  have hsize : 4 * ((key.length + 2) / 3) + 1 = getB64encodeSize switchKeySize + 1 := by
    rw [h]
    rfl
  have hencode := (base64Encode_spec key
    (Nat.le_of_eq (List.length_replicate (n := getB64encodeSize switchKeySize + 1) (a := (0 : UInt8))).symm)).fits
    (Nat.le_of_eq hsize)
  have hall : (base64Text key ++ [0]).length = (List.replicate (getB64encodeSize switchKeySize + 1) (0 : UInt8)).length := by
    rw [List.length_append, length_base64Text, List.length_replicate]
    exact hsize
  rw [splice_all hall] at hencode
  have hread : CString.read (base64Text key ++ [0]) 0 = some ⟨base64Text key, zero_notMem_base64Text key⟩ :=
    CString.Holds.read_eq (List.prefix_rfl)
  rw [settingsGetKey]
  simp [hencode, hread, bind, Except.bind, pure, Except.pure]

/-- A key is read as it was encoded. -/
theorem settingsSetKey_eq {old : Bytes} (hold : old.length = switchKeySize) (h : key.length = switchKeySize) :
    settingsSetKey charSigned old (base64Text key) = .ok (key, true) := by
  have htake : (base64Text key ++ [0]).take (base64Text key).length = base64Text key := List.take_left
  have hdecode := @base64Decode_text old switchKeySize charSigned key _ htake (Nat.le_of_eq h) (Nat.le_of_eq hold.symm)
  have hsplice : splice old 0 key = key := splice_all (h.trans hold.symm)
  rw [settingsSetKey, hdecode, hsplice]
  rfl

theorem matches_base64Text (h : key.length = switchKeySize) :
    (Regex.rep isBase64Char 1 none).Matches (base64Text key) := by
  refine matches_rep_iff.mpr ⟨fun _ => isBase64Char_of_mem, ?_, by simp⟩
  rw [length_base64Text, h]
  decide

/-! ## What is saved -/

namespace SwitchHost

/-- The keys of a host are saved. -/
def saved (host : SwitchHost) : Bool := host.rpKeyData || host.registered

/-- A host whose texts have patterns. -/
structure Savable (host : SwitchHost) : Prop where
  hostAddr : host.hostAddr = [] ∨ (reMap .hostAddr).group.Matches host.hostAddr
  psnOnlineId : host.psnOnlineId = [] ∨ (reMap .psnOnlineId).group.Matches host.psnOnlineId
  psnAccountId : host.psnAccountId = [] ∨ (reMap .psnAccountId).group.Matches host.psnAccountId
  target : host.target < 2 ^ 31
  rpKeyType : host.saved = true → host.rpKeyType < 10
  rpKey : host.rpKey.length = switchKeySize
  rpRegistKey : host.rpRegistKey.length = switchKeySize

/-- What is read of a host: without keys if they are not saved, and with the defaults for what has no pattern. -/
def reloaded (defaults : SwitchSettings) (host : SwitchHost) : SwitchHost where
  hostAddr := host.hostAddr
  target := max host.target 0
  videoResolution := if host.videoResolution = .p2160 then defaults.videoResolution else host.videoResolution
  videoFps := host.videoFps
  psnOnlineId := if host.psnOnlineId = [] then defaults.psnOnlineId else host.psnOnlineId
  psnAccountId := if host.psnAccountId = [] then defaults.psnAccountId else host.psnAccountId
  registered := false
  rpKeyData := host.saved
  rpKey := if host.saved then host.rpKey else List.replicate switchKeySize 0
  rpRegistKey := if host.saved then host.rpRegistKey else List.replicate switchKeySize 0
  rpKeyType := if host.saved then host.rpKeyType else 0

end SwitchHost

namespace SwitchSettings

/-- Settings whose texts have patterns, with a map that is sorted by its keys. -/
structure Savable (s : SwitchSettings) : Prop where
  psnOnlineId : s.psnOnlineId = [] ∨ (reMap .psnOnlineId).group.Matches s.psnOnlineId
  psnAccountId : s.psnAccountId = [] ∨ (reMap .psnAccountId).group.Matches s.psnAccountId
  sorted : s.hosts.Pairwise fun x y => x.1 < y.1
  names : ∀ x ∈ s.hosts, HostNameRead x.1
  hosts : ∀ x ∈ s.hosts, x.2.Savable

/-- What is read in front of the hosts. -/
def defaults (s : SwitchSettings) : SwitchSettings :=
  { s with
    videoResolution := if s.videoResolution = .p2160 then switchSettingsInit.videoResolution else s.videoResolution
    hosts := [] }

/-- What is read of the settings. -/
def reloaded (s : SwitchSettings) : SwitchSettings :=
  { s.defaults with hosts := s.hosts.map fun x => (x.1, x.2.reloaded s.defaults) }

end SwitchSettings

/-! ## Reading a host -/

/-- The parser in the lines of a host that is the last of the map. -/
def hostReading (settings : SwitchSettings) (done : List (Bytes × SwitchHost)) (name : Bytes) (host : SwitchHost)
    (rpKeyB rpRegistKeyB rpKeyTypeB : Bool) : SettingsParser where
  settings := { settings with hosts := done ++ [(name, host)] }
  currentHost := some name
  rpKeyB := rpKeyB
  rpRegistKeyB := rpRegistKeyB
  rpKeyTypeB := rpKeyTypeB

section
variable {rpKeyB rpRegistKeyB rpKeyTypeB : Bool}

theorem set_hostReading (hname : ∀ x ∈ done, x.1 ≠ name) (global : SwitchSettings → SwitchSettings)
    (f : SwitchHost → SwitchHost) :
    (hostReading settings done name host rpKeyB rpRegistKeyB rpKeyTypeB).set global f
      = hostReading settings done name (f host) rpKeyB rpRegistKeyB rpKeyTypeB := by
  simp only [SettingsParser.set, hostReading, SwitchSettings.update_last hname]

theorem finish_hostReading (h : (rpKeyB && rpRegistKeyB && rpKeyTypeB) = false) :
    (hostReading settings done name host rpKeyB rpRegistKeyB rpKeyTypeB).finish
      = hostReading settings done name host rpKeyB rpRegistKeyB rpKeyTypeB :=
  SettingsParser.finish_of_incomplete h

/-- The last line of the keys says that there is data of them. -/
theorem finish_hostReading_complete (hname : ∀ x ∈ done, x.1 ≠ name) :
    (hostReading settings done name host true true true).finish
      = hostReading settings done name { host with rpKeyData := true } true true true :=
  (if_pos rfl).trans (set_hostReading hname _ _)

theorem currentHost_hostReading (hname : ∀ x ∈ done, x.1 ≠ name) :
    (hostReading settings done name host rpKeyB rpRegistKeyB rpKeyTypeB).currentHost.bind
      (hostReading settings done name host rpKeyB rpRegistKeyB rpKeyTypeB).settings.host? = some host :=
  SwitchSettings.host?_last hname

end

/-- A host as it is made when its name is read. -/
def switchHostNew (settings : SwitchSettings) : SwitchHost :=
  { switchHostInit with
    psnOnlineId := settings.psnOnlineId
    psnAccountId := settings.psnAccountId
    videoResolution := settings.videoResolution
    videoFps := settings.videoFps }

/-- The name of a host that is behind all others makes a new one. -/
theorem reads_hostName (hread : HostNameRead name) (hlast : ∀ x ∈ done, x.1 < name)
    (hs : s.settings = { settings with hosts := done }) :
    Reads charSigned s (hostNameLine name ++ [0x0a])
      (hostReading settings done name (switchHostNew settings) false false false) := by
  have hnot : (done.any fun x => x.1 = name) = false := by
    refine List.any_eq_false.mpr fun x hx => ?_
    have hlt := hlast x hx
    intro heq
    rw [of_decide_eq_true heq] at hlt
    exact List.lt_irrefl _ hlt
  have hcreate : s.settings.getOrCreateHost name
      = { settings with hosts := done ++ [(name, switchHostNew settings)] } := by
    rw [SwitchSettings.getOrCreateHost, hs]
    simp only [hnot, Bool.false_eq_true, if_false]
    rw [SwitchSettings.emplace_last fun x hx => List.lt_asymm (hlast x hx)]
    rfl
  have hline : 0x0a ∉ hostNameLine name := by
    intro hmem
    rcases List.mem_append.mp hmem with hmem | hmem
    · exact absurd hmem (by decide)
    · rcases List.mem_append.mp hmem with hmem | hmem
      · exact absurd ((matches_rep_iff.mp hread.chars).1 _ hmem) (by decide)
      · exact absurd hmem (by decide)
  refine reads_line hline ?_
  rw [settingsParseStep_item (settingsParseLine_hostName hread), settingsParseItem, hcreate]
  rfl

/-- An address is read, and an empty one is not. -/
theorem reads_hostAddr (hname : ∀ x ∈ done, x.1 ≠ name) {addr : Bytes}
    (haddr : addr = [] ∨ (reMap .hostAddr).group.Matches addr) (hempty : host.hostAddr = []) :
    Reads charSigned (hostReading settings done name host false false false)
      (itemLine (itemKey .hostAddr) true addr ++ [0x0a])
      (hostReading settings done name { host with hostAddr := addr } false false false) := by
  rcases haddr with rfl | haddr
  · have hread := @reads_none charSigned (itemLine (itemKey .hostAddr) true [])
      (hostReading settings done name host false false false)
      (@notMem_itemLine .hostAddr [] (by decide) (by simp) true) (by decide)
    have hsame : ({ host with hostAddr := [] } : SwitchHost) = host := by
      cases host
      cases hempty
      rfl
    rw [finish_hostReading rfl] at hread
    rwa [hsame]
  · have hread := @reads_item charSigned .hostAddr _ (hostReading settings done name host false false false) _
      (by decide) haddr true rfl
    rwa [set_hostReading hname, finish_hostReading rfl] at hread

/-- A target is read, and a negative one is not. -/
theorem reads_target (hname : ∀ x ∈ done, x.1 ≠ name) {target : Int} (htarget : target < 2 ^ 31)
    (hzero : host.target = 0) :
    Reads charSigned (hostReading settings done name host false false false)
      (itemLine (itemKey .target) true (signedText target) ++ [0x0a])
      (hostReading settings done name { host with target := max target 0 } false false false) := by
  rcases Int.lt_or_le target 0 with hneg | hnonneg
  · have htext : signedText target = 0x2d :: StrTo.unsigned target.natAbs := if_pos hneg
    have hline : itemLine (itemKey .target) true (signedText target)
        = keyText (itemKey .target) true ++ 0x2d :: (StrTo.unsigned target.natAbs ++ quote true) := by
      rw [htext]
      rfl
    have hplain : ∀ c ∈ signedText target, 0x23 ≤ c := by
      rw [htext]
      refine List.forall_mem_cons.mpr ⟨by decide, fun c hc => le_of_isDigit (isDigit_of_mem_unsigned hc)⟩
    have hread := @reads_none charSigned _ (hostReading settings done name host false false false)
      (@notMem_itemLine .target _ (by decide) hplain true) (by rw [hline]; exact settingsParseLine_negative _)
    rw [finish_hostReading rfl] at hread
    rwa [Int.max_eq_right (Int.le_of_lt hneg), ← hzero]
  · have hread := @reads_item charSigned .target _ (hostReading settings done name host false false false) _
      (by decide) (matches_unsigned target.natAbs) true rfl
    rw [set_hostReading hname, finish_hostReading rfl, atoi_unsigned (by omega)] at hread
    rw [signedText_of_nonneg hnonneg, Int.max_eq_left hnonneg]
    rwa [Int.natAbs_of_nonneg hnonneg] at hread

section
variable {rpKeyB rpRegistKeyB rpKeyTypeB : Bool}

theorem settingsParseItem_rpKey (hname : ∀ x ∈ done, x.1 ≠ name) (hold : host.rpKey.length = switchKeySize)
    (hkey : key.length = switchKeySize) :
    settingsParseItem charSigned (hostReading settings done name host rpKeyB rpRegistKeyB rpKeyTypeB) .rpKey
        (base64Text key)
      = .ok (hostReading settings done name { host with rpKey := key } true rpRegistKeyB rpKeyTypeB) := by
  rw [settingsParseItem, currentHost_hostReading hname]
  simp only [settingsSetKey_eq hold hkey, bind, Except.bind, set_hostReading hname]
  rfl

theorem settingsParseItem_rpRegistKey (hname : ∀ x ∈ done, x.1 ≠ name)
    (hold : host.rpRegistKey.length = switchKeySize) (hkey : key.length = switchKeySize) :
    settingsParseItem charSigned (hostReading settings done name host rpKeyB rpRegistKeyB rpKeyTypeB) .rpRegistKey
        (base64Text key)
      = .ok (hostReading settings done name { host with rpRegistKey := key } rpKeyB true rpKeyTypeB) := by
  rw [settingsParseItem, currentHost_hostReading hname]
  simp only [settingsSetKey_eq hold hkey, bind, Except.bind, set_hostReading hname]
  rfl

theorem settingsParseItem_rpKeyType (hname : ∀ x ∈ done, x.1 ≠ name) {keyType : Nat} (hkeyType : keyType < 2 ^ 31) :
    settingsParseItem charSigned (hostReading settings done name host rpKeyB rpRegistKeyB rpKeyTypeB) .rpKeyType
        (StrTo.unsigned keyType)
      = .ok (hostReading settings done name { host with rpKeyType := keyType } rpKeyB rpRegistKeyB true) := by
  have hvalue : (atoi (StrTo.unsigned keyType) % 2 ^ 32).toNat = keyType := by
    rw [atoi_unsigned hkeyType]
    omega
  show Except.ok _ = Except.ok _
  rw [set_hostReading hname, hvalue]
  rfl

end

/-- The keys are read, and then there is data of them. -/
theorem reads_keys (hname : ∀ x ∈ done, x.1 ≠ name) {rpKey rpRegistKey : Bytes} {keyType : Nat}
    (hrpKey : rpKey.length = switchKeySize) (hrpRegistKey : rpRegistKey.length = switchKeySize)
    (hkeyType : keyType < 10) (hold : host.rpKey.length = switchKeySize)
    (holdRegist : host.rpRegistKey.length = switchKeySize) :
    Reads charSigned (hostReading settings done name host false false false)
      ((itemLine (itemKey .rpKey) true (base64Text rpKey) ++ [0x0a])
        ++ ((itemLine (itemKey .rpRegistKey) true (base64Text rpRegistKey) ++ [0x0a])
        ++ (itemLine (itemKey .rpKeyType) false (StrTo.unsigned keyType) ++ [0x0a])))
      (hostReading settings done name
        { host with rpKey := rpKey, rpRegistKey := rpRegistKey, rpKeyType := keyType, rpKeyData := true }
        true true true) := by
  have h₁ := @reads_item charSigned .rpKey _ (hostReading settings done name host false false false) _ (by decide)
    (matches_base64Text hrpKey) true (settingsParseItem_rpKey hname hold hrpKey)
  have h₂ := @reads_item charSigned .rpRegistKey _
    (hostReading settings done name { host with rpKey := rpKey } true false false) _ (by decide)
    (matches_base64Text hrpRegistKey) true (settingsParseItem_rpRegistKey hname holdRegist hrpRegistKey)
  have h₃ := @reads_item charSigned .rpKeyType _
    (hostReading settings done name { host with rpKey := rpKey, rpRegistKey := rpRegistKey } true true false) _
    (by decide) (matches_keyType hkeyType) false (settingsParseItem_rpKeyType hname (by omega))
  rw [finish_hostReading rfl] at h₁ h₂
  rw [finish_hostReading_complete hname] at h₃
  exact h₁.append (h₂.append h₃)

/-- The empty line behind a host. -/
theorem reads_empty (hfinish : s.finish = s) : Reads charSigned s [0x0a] s := by
  have hread := @reads_none charSigned [] s (by simp) (by decide)
  rwa [hfinish] at hread

/-- What is written for a host. -/
theorem settingsWriteHost_eq (h : host.Savable) :
    settingsWriteHost name host = .ok ((hostNameLine name ++ [0x0a])
      ++ ((itemLine (itemKey .hostAddr) true host.hostAddr ++ [0x0a])
      ++ ((itemLine (itemKey .target) true (signedText host.target) ++ [0x0a])
      ++ (settingsWriteCommon host.videoResolution host.videoFps host.psnOnlineId host.psnAccountId
      ++ ((if host.saved then (itemLine (itemKey .rpKey) true (base64Text host.rpKey) ++ [0x0a])
          ++ ((itemLine (itemKey .rpRegistKey) true (base64Text host.rpRegistKey) ++ [0x0a])
          ++ (itemLine (itemKey .rpKeyType) false (StrTo.unsigned host.rpKeyType) ++ [0x0a])) else [])
      ++ [0x0a]))))) := by
  have hname : ascii "[" ++ name ++ ascii "]\n" = hostNameLine name ++ [0x0a] := by
    rw [hostNameLine, List.append_assoc, List.append_assoc, List.append_assoc]
    rfl
  have haddr := @line_eq host.hostAddr (itemKey .hostAddr) true (ascii "host_addr = \"") rfl (ascii "\"\n") rfl
  have htarget := @line_eq (signedText host.target) (itemKey .target) true (ascii "target = \"") rfl (ascii "\"\n") rfl
  have hrpKey := @line_eq (base64Text host.rpKey) (itemKey .rpKey) true (ascii "rp_key = \"") rfl (ascii "\"\n") rfl
  have hrpRegistKey := @line_eq (base64Text host.rpRegistKey) (itemKey .rpRegistKey) true (ascii "rp_regist_key = \"")
    rfl (ascii "\"\n") rfl
  have hrpKeyType := @line_eq (StrTo.unsigned host.rpKeyType) (itemKey .rpKeyType) false (ascii "rp_key_type = ") rfl
    (ascii "\n") rfl
  rw [settingsWriteHost]
  cases hsaved : host.saved with
  | false =>
    have hcond : (host.rpKeyData || host.registered) = false := hsaved
    simp only [hcond, Bool.false_eq_true, if_false, List.nil_append]
    rw [← hname, ← haddr, ← htarget]
    simp only [List.append_assoc]
    rfl
  | true =>
    have hcond : (host.rpKeyData || host.registered) = true := hsaved
    have hlt := h.rpKeyType hsaved
    have hsigned : signedText ((host.rpKeyType : Int).bmod (2 ^ 32)) = StrTo.unsigned host.rpKeyType := by
      have hbmod : (host.rpKeyType : Int).bmod (2 ^ 32) = host.rpKeyType := by
        rw [Int.bmod_def]
        omega
      rw [hbmod, signedText_of_nonneg (Int.natCast_nonneg _), Int.natAbs_natCast]
    simp only [hcond, if_true, settingsGetKey_eq h.rpKey, settingsGetKey_eq h.rpRegistKey, hsigned]
    rw [← hname, ← haddr, ← htarget, ← hrpKey, ← hrpRegistKey, ← hrpKeyType]
    simp only [List.append_assoc, bind, Except.bind, pure, Except.pure]
    rfl

/-- What is read of a host in front of its keys. -/
def SwitchHost.front (settings : SwitchSettings) (host : SwitchHost) : SwitchHost :=
  { switchHostNew settings with
    hostAddr := host.hostAddr
    target := max host.target 0
    videoResolution := if host.videoResolution = .p2160 then settings.videoResolution else host.videoResolution
    videoFps := host.videoFps
    psnOnlineId := if host.psnOnlineId = [] then settings.psnOnlineId else host.psnOnlineId
    psnAccountId := if host.psnAccountId = [] then settings.psnAccountId else host.psnAccountId }

theorem reloaded_of_not_saved (h : host.saved = false) : host.reloaded settings = host.front settings := by
  simp only [SwitchHost.reloaded, h]
  rfl

theorem reloaded_of_saved (h : host.saved = true) : host.reloaded settings
    = { host.front settings with
        rpKey := host.rpKey
        rpRegistKey := host.rpRegistKey
        rpKeyType := host.rpKeyType
        rpKeyData := true } := by
  simp only [SwitchHost.reloaded, h]
  rfl

/-- **What is written for a host is read behind the hosts before it.** -/
theorem reads_host (h : host.Savable) (hread : HostNameRead name) (hlast : ∀ x ∈ done, x.1 < name)
    (hs : s.settings = { settings with hosts := done }) :
    ∃ text, settingsWriteHost name host = .ok text ∧
      Reads charSigned s text
        (hostReading settings done name (host.reloaded settings) host.saved host.saved host.saved) := by
  have hname : ∀ x ∈ done, x.1 ≠ name := by
    intro x hx heq
    exact List.lt_irrefl _ (heq ▸ hlast x hx)
  have hcommon := @reads_common charSigned (hostReading settings done name
    { switchHostNew settings with hostAddr := host.hostAddr, target := max host.target 0 } false false false) rfl
    host.videoResolution host.videoFps _ _ h.psnOnlineId h.psnAccountId
  rw [SettingsParser.common, set_hostReading hname] at hcommon
  refine ⟨_, settingsWriteHost_eq h, ?_⟩
  refine (reads_hostName hread hlast hs).append ((reads_hostAddr hname h.hostAddr rfl).append
    ((reads_target hname h.target rfl).append (hcommon.append ?_)))
  cases hsaved : host.saved with
  | false =>
    rw [reloaded_of_not_saved hsaved]
    exact reads_empty (finish_hostReading rfl)
  | true =>
    rw [reloaded_of_saved hsaved]
    -- the empty line completes the keys once more
    exact (reads_keys hname h.rpKey h.rpRegistKey (h.rpKeyType hsaved) List.length_replicate
      List.length_replicate).append (reads_empty (finish_hostReading_complete hname))

/-- **The hosts are read in the order of the map.** -/
theorem reads_hosts {hosts : List (Bytes × SwitchHost)} (hsorted : (done ++ hosts).Pairwise fun x y => x.1 < y.1)
    (hnames : ∀ x ∈ hosts, HostNameRead x.1) (hhosts : ∀ x ∈ hosts, x.2.Savable)
    (hs : s.settings = { settings with hosts := done }) :
    ∃ texts s', hosts.mapM (fun (x : Bytes × SwitchHost) => settingsWriteHost x.1 x.2) = .ok texts ∧
      Reads charSigned s texts.flatten s' ∧
      s'.settings = { settings with hosts := done ++ hosts.map fun x => (x.1, x.2.reloaded settings) } := by
  induction hosts generalizing done s with
  | nil => exact ⟨[], s, rfl, reads_nil s, by simpa using hs⟩
  | cons x hosts ih =>
    obtain ⟨hname, hnames⟩ := List.forall_mem_cons.mp hnames
    obtain ⟨hhost, hhosts⟩ := List.forall_mem_cons.mp hhosts
    have hlast : ∀ y ∈ done, y.1 < x.1 := by
      intro y hy
      exact (List.pairwise_append.mp hsorted).2.2 y hy x List.mem_cons_self
    obtain ⟨text, hwrite, hread⟩ := @reads_host charSigned x.1 s settings x.2 done hhost hname hlast hs
    have hsorted' : (done ++ [(x.1, x.2.reloaded settings)] ++ hosts).Pairwise fun x y => x.1 < y.1 := by
      have hmap := List.pairwise_map.mpr hsorted
      refine List.pairwise_map.mp ?_
      simpa using hmap
    obtain ⟨texts, s', hwrites, hreads, hsettings⟩ := @ih
      (hostReading settings done x.1 (x.2.reloaded settings) x.2.saved x.2.saved x.2.saved) _ hsorted' hnames hhosts rfl
    refine ⟨text :: texts, s', ?_, ?_, ?_⟩
    · rw [List.mapM_cons, hwrite, hwrites]
      rfl
    · exact hread.append hreads
    · rw [hsettings]
      simp

/-- **What is saved is read again**, apart from what has no pattern. -/
theorem settingsFile_read (h : settings.Savable) (charSigned : Bool) :
    ∃ file, settingsWriteFile settings = .ok file ∧ settingsParseFile charSigned file = .ok settings.reloaded := by
  have hid : ∀ id : Bytes, (if id = [] then [] else id) = id := by
    intro id
    split
    · next hnil => exact hnil.symm
    · rfl
  have hcommon := @reads_common charSigned ⟨switchSettingsInit, none, false, false, false⟩ rfl settings.videoResolution
    settings.videoFps _ _ h.psnOnlineId h.psnAccountId
  have hdefaults : ((⟨switchSettingsInit, none, false, false, false⟩ : SettingsParser).common settings.videoResolution
      settings.videoFps settings.psnOnlineId settings.psnAccountId).settings
        = { settings.defaults with hosts := [] } := by
    simp only [SettingsParser.common, SettingsParser.set, switchSettingsInit, SwitchSettings.defaults, hid]
  obtain ⟨texts, s, hwrites, hreads, hsettings⟩ :=
    @reads_hosts charSigned _ settings.defaults [] settings.hosts h.sorted h.names h.hosts hdefaults
  refine ⟨settingsWriteCommon settings.videoResolution settings.videoFps settings.psnOnlineId settings.psnAccountId
    ++ texts.flatten, ?_, ?_⟩
  · rw [settingsWriteFile]
    simp only [hwrites, bind, Except.bind]
    rfl
  · have hfile := hcommon.append hreads []
    rw [List.append_nil] at hfile
    rw [settingsParseFile, hfile]
    simp only [getlines, List.foldlM_nil, bind, Except.bind, pure, Except.pure, if_true, hsettings]
    rfl

/-! ## Saving again -/

namespace SwitchSettings

theorem defaults_ne (s : SwitchSettings) : s.defaults.videoResolution ≠ .p2160 := by
  simp only [defaults]
  split
  · decide
  · next h => exact h

theorem reloaded_defaults (s : SwitchSettings) : s.reloaded.defaults = s.defaults := by
  have hresolution : s.reloaded.videoResolution ≠ .p2160 := s.defaults_ne
  rw [defaults, if_neg hresolution]
  rfl

theorem savable_reloaded {s : SwitchSettings} (h : s.Savable) : s.reloaded.Savable where
  psnOnlineId := h.psnOnlineId
  psnAccountId := h.psnAccountId
  sorted := List.pairwise_map.mpr h.sorted
  names := by
    intro x hx
    obtain ⟨y, hy, rfl⟩ := List.mem_map.mp hx
    exact h.names y hy
  hosts := by
    intro x hx
    obtain ⟨y, hy, rfl⟩ := List.mem_map.mp hx
    have hhost := h.hosts y hy
    have hid : ∀ {pattern : Regex} {id default : Bytes}, (id = [] ∨ pattern.Matches id) →
        (default = [] ∨ pattern.Matches default) →
        (if id = [] then default else id) = [] ∨ pattern.Matches (if id = [] then default else id) := by
      intro pattern id default hid hdefault
      split
      · exact hdefault
      · exact hid
    have hkey : ∀ {key : Bytes}, key.length = switchKeySize →
        (if y.2.saved then key else List.replicate switchKeySize 0).length = switchKeySize := by
      intro key hlen
      split
      · exact hlen
      · exact List.length_replicate
    refine ⟨hhost.hostAddr, hid hhost.psnOnlineId h.psnOnlineId, hid hhost.psnAccountId h.psnAccountId,
      Int.max_lt.mpr ⟨hhost.target, by decide⟩, fun hsaved => ?_, hkey hhost.rpKey, hkey hhost.rpRegistKey⟩
    have hsaved : y.2.saved = true := (Bool.or_false _).symm.trans hsaved
    simp only [SwitchHost.reloaded, hsaved, if_true]
    exact hhost.rpKeyType hsaved

/-- What has been read once is read again as it is. -/
theorem reloaded_reloaded (s : SwitchSettings) : s.reloaded.reloaded = s.reloaded := by
  have hhost : ∀ host : SwitchHost, (host.reloaded s.defaults).reloaded s.defaults = host.reloaded s.defaults := by
    intro host
    have hsaved : (host.reloaded s.defaults).saved = host.saved := Bool.or_false _
    have hid : ∀ id default : Bytes,
        (if (if id = [] then default else id) = [] then default else if id = [] then default else id)
          = if id = [] then default else id := by
      intro id default
      by_cases hid : id = []
      · simp [hid]
      · simp [hid]
    have hresolution : ∀ resolution : VideoResolutionPreset,
        (if (if resolution = .p2160 then s.defaults.videoResolution else resolution) = .p2160
          then s.defaults.videoResolution
          else if resolution = .p2160 then s.defaults.videoResolution else resolution)
          = if resolution = .p2160 then s.defaults.videoResolution else resolution := by
      intro resolution
      by_cases hresolution : resolution = .p2160
      · simp [hresolution]
      · simp [hresolution]
    unfold SwitchHost.reloaded at hsaved ⊢
    simp only [SwitchHost.mk.injEq, hsaved, hid, hresolution, true_and]
    refine ⟨by omega, ?_⟩
    cases host.saved <;> simp
  have hdefaults := s.reloaded_defaults
  rw [reloaded, hdefaults]
  simp [reloaded, hhost]

end SwitchSettings

/-- **Settings that are saved are read as they were**, apart from what has no pattern, which is left at its default;
and what was read once is read as it is from then on. -/
theorem settingsSave_right (settings : SwitchSettings) (h : settings.Savable) (charSigned : Bool) :
    ∃ file file', settingsWriteFile settings = .ok file ∧
      settingsParseFile charSigned file = .ok settings.reloaded ∧
      settingsWriteFile settings.reloaded = .ok file' ∧
      settingsParseFile charSigned file' = .ok settings.reloaded := by
  obtain ⟨file, hwrite, hparse⟩ := settingsFile_read h charSigned
  obtain ⟨file', hwrite', hparse'⟩ := settingsFile_read (SwitchSettings.savable_reloaded h) charSigned
  rw [SwitchSettings.reloaded_reloaded] at hparse'
  exact ⟨file, file', hwrite, hparse, hwrite', hparse'⟩

/-- Two hosts, of which the first one is registered and the second one has an empty address. -/
def savedSettings : SwitchSettings where
  videoResolution := .p2160
  videoFps := .fps30
  psnOnlineId := ascii "player_1"
  psnAccountId := []
  hosts :=
    [(ascii "PS4 (1)",
        { switchHostInit with
          hostAddr := ascii "192.168.0.2"
          target := 900
          psnAccountId := ascii "AQIDBAUGBwg="
          registered := true
          rpKeyType := 2 }),
      (ascii "PS5", { switchHostInit with target := -1 })]

/-- What a line has is a value of its item. -/
theorem matches_of_search {item : ConfigurationItem} (line : Bytes) (h : (reMap item).search line = some value) :
    (reMap item).group.Matches value := by
  obtain ⟨_, _, _, -, -, hvalue, -⟩ := Pattern.search_sound h
  exact hvalue

theorem savable_savedSettings : savedSettings.Savable where
  psnOnlineId := .inr (matches_of_search (ascii "psn_online_id = player_1") rfl)
  psnAccountId := .inl rfl
  sorted := by decide
  names := by
    intro x hx
    rcases List.mem_cons.mp hx with rfl | hx
    · exact @hostNameRead_of_search (ascii "[PS4 (1)]") _ rfl
    · cases List.mem_singleton.mp hx
      exact @hostNameRead_of_search (ascii "[PS5]") _ rfl
  hosts := by
    intro x hx
    rcases List.mem_cons.mp hx with rfl | hx
    · refine ⟨.inr (matches_of_search (ascii "host_addr = 192.168.0.2") rfl), .inl rfl,
        .inr (matches_of_search (ascii "psn_account_id = AQIDBAUGBwg=") rfl), by decide, fun _ => by decide, rfl, rfl⟩
    · cases List.mem_singleton.mp hx
      exact ⟨.inl rfl, .inl rfl, .inl rfl, by decide, fun _ => by decide, rfl, rfl⟩

theorem settingsSave_right_savedSettings : ∃ file file', settingsWriteFile savedSettings = .ok file ∧
    settingsParseFile true file = .ok savedSettings.reloaded ∧
    settingsWriteFile savedSettings.reloaded = .ok file' ∧
    settingsParseFile true file' = .ok savedSettings.reloaded :=
  settingsSave_right savedSettings savable_savedSettings true

end Chiaki
