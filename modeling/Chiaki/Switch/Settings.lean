import Chiaki.Base64
import Chiaki.Ctrl.Response
import Chiaki.Infra.Regex
import Chiaki.Infra.StrTo

/-!
# The configuration file (`settings.cpp`)

The settings of the Switch are saved as lines of text, and a table of expressions says which line is which. A host is a
pointer into a map, and here it is a name; a map is a list in the order of its keys. Overclocking is not enabled, and
what only goes to the log is left out.
-/

namespace Chiaki

open Infra

/-! ## Hosts -/

/-- What is saved of a `Host`, with what says whether its keys are. -/
structure SwitchHost where
  hostAddr : Bytes
  target : Int
  videoResolution : VideoResolutionPreset
  videoFps : VideoFPSPreset
  psnOnlineId : Bytes
  psnAccountId : Bytes
  registered : Bool
  rpKeyData : Bool
  rpKey : Bytes
  rpRegistKey : Bytes
  rpKeyType : Nat
  deriving DecidableEq

/-- What is used of `Settings`. -/
structure SwitchSettings where
  videoResolution : VideoResolutionPreset
  videoFps : VideoFPSPreset
  psnOnlineId : Bytes
  psnAccountId : Bytes
  hosts : List (Bytes × SwitchHost)
  deriving DecidableEq

/-- `sizeof(rp_key)`, and `CHIAKI_SESSION_AUTH_SIZE` -/
def switchKeySize : Nat := 0x10

/-- The members of a new `Host`. -/
def switchHostInit : SwitchHost where
  hostAddr := []
  target := 0
  videoResolution := .p720
  videoFps := .fps60
  psnOnlineId := []
  psnAccountId := []
  registered := false
  rpKeyData := false
  rpKey := List.replicate switchKeySize 0
  rpRegistKey := List.replicate switchKeySize 0
  rpKeyType := 0

/-- The members of a new `Settings`. -/
def switchSettingsInit : SwitchSettings where
  videoResolution := .p720
  videoFps := .fps60
  psnOnlineId := []
  psnAccountId := []
  hosts := []

namespace SwitchSettings

/-- `emplace` of a key that is not in the map. -/
def emplace (name : Bytes) (host : SwitchHost) : List (Bytes × SwitchHost) → List (Bytes × SwitchHost)
  | [] => [(name, host)]
  | x :: hosts => if name < x.1 then (name, host) :: x :: hosts else x :: emplace name host hosts

/-- `GetOrCreateHost` -/
def getOrCreateHost (s : SwitchSettings) (name : Bytes) : SwitchSettings :=
  if s.hosts.any fun x => x.1 = name then s
  else
    { s with
      hosts := emplace name
        { switchHostInit with
          psnOnlineId := s.psnOnlineId
          psnAccountId := s.psnAccountId
          videoResolution := s.videoResolution
          videoFps := s.videoFps } s.hosts }

/-- Something is done with the host of a name. -/
def update (s : SwitchSettings) (name : Bytes) (f : SwitchHost → SwitchHost) : SwitchSettings :=
  { s with hosts := s.hosts.map fun x => if x.1 = name then (x.1, f x.2) else x }

/-- `this->hosts.at(name)` -/
def host? (s : SwitchSettings) (name : Bytes) : Option SwitchHost := (s.hosts.find? fun x => x.1 = name).map (·.2)

end SwitchSettings

/-! ## Lines -/

/-- `ConfigurationItem` -/
inductive ConfigurationItem
  | hostName
  | hostAddr
  | psnOnlineId
  | psnAccountId
  | rpKey
  | rpKeyType
  | rpRegistKey
  | videoResolution
  | videoFps
  | target
  deriving DecidableEq

/-- `\d` -/
def isDigit (c : UInt8) : Bool := 0x30 ≤ c && c ≤ 0x39

/-- `[A-Za-z0-9]` -/
def isAlnum (c : UInt8) : Bool := isDigit c || (0x41 ≤ c && c ≤ 0x5a) || (0x61 ≤ c && c ≤ 0x7a)

/-- `[A-Za-z0-9-]` -/
def isHostChar (c : UInt8) : Bool := isAlnum c || c = 0x2d

/-- `[\w_-]` -/
def isOnlineIdChar (c : UInt8) : Bool := isAlnum c || c = 0x5f || c = 0x2d

/-- `[\w/=+]` -/
def isBase64Char (c : UInt8) : Bool := isAlnum c || c = 0x5f || c = 0x2f || c = 0x3d || c = 0x2b

/-- `.` -/
def isNoLineEnd (c : UInt8) : Bool := c ≠ 0x0a && c ≠ 0x0d

/-- `\s*` -/
def reSpaces : Regex := .rep StrTo.isSpace 0 none

/-- `"?` -/
def reQuote : Regex := .rep (fun c => c = 0x22) 0 (some 1)

/-- `\d+` -/
def reDigits : Regex := .rep isDigit 1 none

/-- `^\s*key\s*=\s*"?(group)"?` -/
def reItem (key group : Regex) : Pattern where
  before := .seq reSpaces (.seq key (.seq reSpaces (.seq (.text [0x3d]) (.seq reSpaces reQuote))))
  group := group
  after := reQuote

/-- `(\d+\.\d+\.\d+\.\d+)|([A-Za-z0-9-]{1,255})` -/
def reHostAddr : Regex :=
  .alt (.seq reDigits (.seq (.text [0x2e]) (.seq reDigits (.seq (.text [0x2e]) (.seq reDigits
      (.seq (.text [0x2e]) reDigits))))))
    (.rep isHostChar 1 (some 255))

/-- `re_map` -/
def reMap : ConfigurationItem → Pattern
  | .hostName => ⟨.seq (.text [0x5b]) reSpaces, .rep isNoLineEnd 1 none, .seq reSpaces (.text [0x5d])⟩
  | .hostAddr => reItem (.seq (.text (ascii "host_")) (.alt (.text (ascii "ip")) (.text (ascii "addr")))) reHostAddr
  | .psnOnlineId => reItem (.text (ascii "psn_online_id")) (.rep isOnlineIdChar 1 none)
  | .psnAccountId => reItem (.text (ascii "psn_account_id")) (.rep isBase64Char 1 none)
  | .rpKey => reItem (.text (ascii "rp_key")) (.rep isBase64Char 1 none)
  | .rpKeyType => reItem (.text (ascii "rp_key_type")) (.rep isDigit 1 (some 1))
  | .rpRegistKey => reItem (.text (ascii "rp_regist_key")) (.rep isBase64Char 1 none)
  | .videoResolution => reItem (.text (ascii "video_resolution"))
      (.alt (.text (ascii "1080p")) (.alt (.text (ascii "720p")) (.alt (.text (ascii "540p")) (.text (ascii "360p")))))
  | .videoFps => reItem (.text (ascii "video_fps")) (.alt (.text (ascii "60")) (.text (ascii "30")))
  | .target => reItem (.text (ascii "target")) reDigits

/-- The keys of `re_map` in their order. -/
def configurationItems : List ConfigurationItem :=
  [.hostName, .hostAddr, .psnOnlineId, .psnAccountId, .rpKey, .rpKeyType, .rpRegistKey, .videoResolution, .videoFps,
    .target]

/-- `ParseLine`. Nothing is `UNKNOWN`. -/
def settingsParseLine (line : Bytes) : Option (ConfigurationItem × Bytes) :=
  configurationItems.findSome? fun item => ((reMap item).search line).map fun value => (item, value)

/-- The lines that `getline` reads, behind what it has read of the first one. -/
def getlines (line : Bytes) : Bytes → List Bytes
  | [] => if line = [] then [] else [line]
  | c :: text => if c = 0x0a then line :: getlines [] text else getlines (line ++ [c]) text

/-! ## Values -/

/-- `ResolutionPresetToString` -/
def resolutionPresetToString : VideoResolutionPreset → Bytes
  | .p360 => ascii "360p"
  | .p540 => ascii "540p"
  | .p720 => ascii "720p"
  | .p1080 => ascii "1080p"
  | .p2160 => ascii "2160p"

/-- `StringToResolutionPreset` -/
def stringToResolutionPreset (value : Bytes) : VideoResolutionPreset :=
  if value = ascii "2160p" then .p2160
  else if value = ascii "1080p" then .p1080
  else if value = ascii "720p" then .p720
  else if value = ascii "540p" then .p540
  else if value = ascii "360p" then .p360
  else .p720

/-- `FPSPresetToString` -/
def fpsPresetToString : VideoFPSPreset → Bytes
  | .fps30 => ascii "30"
  | .fps60 => ascii "60"

/-- `StringToFPSPreset` -/
def stringToFpsPreset (value : Bytes) : VideoFPSPreset :=
  if value = ascii "60" then .fps60 else .fps30

/-- `atoi` -/
def atoi (value : Bytes) : Int := (StrTo.strtol 10 value).bmod (2 ^ 32)

/-- A number that is printed with a sign if it needs one. -/
def signedText (n : Int) : Bytes :=
  if n < 0 then 0x2d :: StrTo.unsigned n.natAbs else StrTo.unsigned n.natAbs

/-- `SetHostRPKey` and `SetHostRPRegistKey`: the key, and whether the text could be decoded. -/
def settingsSetKey (charSigned : Bool) (key value : Bytes) : Except Fault (Bytes × Bool) := do
  let (key, _, err) ← base64Decode charSigned (value ++ [0]) value.length key switchKeySize
  return (key, err = .success)

/-- `GetB64encodeSize` -/
def getB64encodeSize (n : Nat) : Nat := (4 * n / 3 + 3) / 4 * 4

/-- `GetHostRPKey` and `GetHostRPRegistKey` of a host with keys. -/
def settingsGetKey (key : Bytes) : Except Fault Bytes := do
  let size := getB64encodeSize switchKeySize + 1
  let (out, err) ← base64Encode key (List.replicate size 0) size
  if err = .success then
    match CString.read out 0 with
    | none => throw .outOfBounds
    | some text => return text.bytes
  else return []

/-! ## Reading -/

/-- The variables of `ParseFile`. -/
structure SettingsParser where
  settings : SwitchSettings
  currentHost : Option Bytes
  rpKeyB : Bool
  rpRegistKeyB : Bool
  rpKeyTypeB : Bool
  deriving DecidableEq

/-- A setter, which writes a member of the current host, or the default if there is none. -/
def SettingsParser.set (s : SettingsParser) (global : SwitchSettings → SwitchSettings)
    (host : SwitchHost → SwitchHost) : SettingsParser :=
  match s.currentHost with
  | none => { s with settings := global s.settings }
  | some name => { s with settings := s.settings.update name host }

/-- The body of the `switch` of `ParseFile`. -/
def settingsParseItem (charSigned : Bool) (s : SettingsParser) (item : ConfigurationItem) (value : Bytes) :
    Except Fault SettingsParser :=
  match item with
  | .hostName => .ok
      { settings := s.settings.getOrCreateHost value
        currentHost := some value
        rpKeyB := false
        rpRegistKeyB := false
        rpKeyTypeB := false }
  | .hostAddr => .ok (s.set id fun host => { host with hostAddr := value })
  | .psnOnlineId => .ok (s.set (fun t => { t with psnOnlineId := value }) fun host => { host with psnOnlineId := value })
  | .psnAccountId =>
    .ok (s.set (fun t => { t with psnAccountId := value }) fun host => { host with psnAccountId := value })
  | .rpKey =>
    match s.currentHost.bind s.settings.host? with
    | none => .ok s
    | some host => do
      let (key, ok) ← settingsSetKey charSigned host.rpKey value
      return { s.set id fun host => { host with rpKey := key } with rpKeyB := ok }
  | .rpKeyType =>
    match s.currentHost with
    | none => .ok s
    | some _ =>
      .ok { s.set id fun host => { host with rpKeyType := (atoi value % 2 ^ 32).toNat } with rpKeyTypeB := true }
  | .rpRegistKey =>
    match s.currentHost.bind s.settings.host? with
    | none => .ok s
    | some host => do
      let (key, ok) ← settingsSetKey charSigned host.rpRegistKey value
      return { s.set id fun host => { host with rpRegistKey := key } with rpRegistKeyB := ok }
  | .videoResolution =>
    .ok (s.set (fun t => { t with videoResolution := stringToResolutionPreset value })
      fun host => { host with videoResolution := stringToResolutionPreset value })
  | .videoFps =>
    .ok (s.set (fun t => { t with videoFps := stringToFpsPreset value })
      fun host => { host with videoFps := stringToFpsPreset value })
  | .target => .ok (s.set id fun host => { host with target := atoi value })

/-- What `ParseFile` does with a line. -/
def settingsParseStep (charSigned : Bool) (s : SettingsParser) (line : Bytes) : Except Fault SettingsParser := do
  let s ← (settingsParseLine line).elim (.ok s) fun (item, value) => settingsParseItem charSigned s item value
  if s.rpKeyB && s.rpRegistKeyB && s.rpKeyTypeB then return s.set id fun host => { host with rpKeyData := true }
  else return s

/-- `ParseFile` of new settings -/
def settingsParseFile (charSigned : Bool) (file : Bytes) : Except Fault SwitchSettings := do
  let s ← (getlines [] file).foldlM (settingsParseStep charSigned) ⟨switchSettingsInit, none, false, false, false⟩
  return s.settings

/-! ## Writing -/

/-- The lines with the video and the ids, of the settings and of a host. -/
def settingsWriteCommon (resolution : VideoResolutionPreset) (fps : VideoFPSPreset) (onlineId accountId : Bytes) :
    Bytes :=
  ascii "video_resolution = \"" ++ resolutionPresetToString resolution ++ ascii "\"\n"
    ++ ascii "video_fps = " ++ fpsPresetToString fps ++ ascii "\n"
    ++ (if onlineId ≠ [] then ascii "psn_online_id = \"" ++ onlineId ++ ascii "\"\n" else [])
    ++ (if accountId ≠ [] then ascii "psn_account_id = \"" ++ accountId ++ ascii "\"\n" else [])

/-- What `WriteFile` writes for a host. -/
def settingsWriteHost (name : Bytes) (host : SwitchHost) : Except Fault Bytes := do
  let front := ascii "[" ++ name ++ ascii "]\n"
    ++ ascii "host_addr = \"" ++ host.hostAddr ++ ascii "\"\n"
    ++ ascii "target = \"" ++ signedText host.target ++ ascii "\"\n"
    ++ settingsWriteCommon host.videoResolution host.videoFps host.psnOnlineId host.psnAccountId
  if host.rpKeyData || host.registered then
    let rpKey ← settingsGetKey host.rpKey
    let rpRegistKey ← settingsGetKey host.rpRegistKey
    return front ++ ascii "rp_key = \"" ++ rpKey ++ ascii "\"\n"
      ++ ascii "rp_regist_key = \"" ++ rpRegistKey ++ ascii "\"\n"
      ++ ascii "rp_key_type = " ++ signedText ((host.rpKeyType : Int).bmod (2 ^ 32)) ++ ascii "\n"
      ++ ascii "\n"
  else return front ++ ascii "\n"

/-- `WriteFile` -/
def settingsWriteFile (s : SwitchSettings) : Except Fault Bytes := do
  let hosts ← s.hosts.mapM fun (name, host) => settingsWriteHost name host
  return settingsWriteCommon s.videoResolution s.videoFps s.psnOnlineId s.psnAccountId ++ hosts.flatten

end Chiaki
