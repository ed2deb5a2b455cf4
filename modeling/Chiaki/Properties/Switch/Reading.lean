import Chiaki.Properties.Switch.Line

/-!
# What the lines of the configuration file do

A text that is read takes the parser from one state to another, whatever is behind it (`Reads`). The lines that are
written for a host are read into the host that is the last of the map.
-/

namespace Chiaki

open Infra Regex

variable {charSigned : Bool} {item : ConfigurationItem} {name value line text text' : Bytes}
  {s s' s'' : SettingsParser} {settings : SwitchSettings} {host : SwitchHost} {done : List (Bytes × SwitchHost)}

/-! ## Hosts of the map -/

namespace SwitchSettings

/-- A host is put behind all others if none of them is behind it. -/
theorem emplace_last (h : ∀ x ∈ done, ¬ name < x.1) : emplace name host done = done ++ [(name, host)] := by
  induction done with
  | nil => rfl
  | cons x done ih =>
    obtain ⟨hx, hdone⟩ := List.forall_mem_cons.mp h
    rw [emplace, if_neg hx, ih hdone]
    rfl

theorem update_last (h : ∀ x ∈ done, x.1 ≠ name) (f : SwitchHost → SwitchHost) :
    ({ settings with hosts := done ++ [(name, host)] } : SwitchSettings).update name f
      = { settings with hosts := done ++ [(name, f host)] } := by
  have hdone : (done.map fun x => if x.1 = name then (x.1, f x.2) else x) = done := by
    conv => rhs; rw [← List.map_id done]
    exact List.map_congr_left fun x hx => if_neg (h x hx)
  simp [update, hdone]

theorem host?_last (h : ∀ x ∈ done, x.1 ≠ name) :
    ({ settings with hosts := done ++ [(name, host)] } : SwitchSettings).host? name = some host := by
  have hdone : done.find? (fun x => x.1 = name) = none := by
    refine List.find?_eq_none.mpr fun x hx => ?_
    simpa using h x hx
  simp [host?, List.find?_append, hdone]

theorem update_update (s : SwitchSettings) (name : Bytes) (f g : SwitchHost → SwitchHost) :
    (s.update name f).update name g = s.update name fun host => g (f host) := by
  simp only [update, List.map_map]
  congr 1
  refine List.map_congr_left fun x _ => ?_
  by_cases hx : x.1 = name
  · simp [hx]
  · simp [hx]

end SwitchSettings

/-! ## Lines -/

/-- A text takes the parser from one state to another, whatever is behind it. -/
def Reads (charSigned : Bool) (s : SettingsParser) (text : Bytes) (s' : SettingsParser) : Prop :=
  ∀ rest, (getlines [] (text ++ rest)).foldlM (settingsParseStep charSigned) s
    = (getlines [] rest).foldlM (settingsParseStep charSigned) s'

theorem reads_nil (s : SettingsParser) : Reads charSigned s [] s := fun _ => rfl

theorem Reads.append (h : Reads charSigned s text s') (h' : Reads charSigned s' text' s'') :
    Reads charSigned s (text ++ text') s'' := by
  intro rest
  rw [List.append_assoc, h, h']

theorem getlines_append (front : Bytes) (hline : 0x0a ∉ line) (rest : Bytes) :
    getlines front (line ++ 0x0a :: rest) = (front ++ line) :: getlines [] rest := by
  -- what was read of the line before grows with each character
  induction line generalizing front with
  | nil => simp [getlines]
  | cons c line ih =>
    obtain ⟨hc, hline⟩ := not_or.mp fun h => hline (List.mem_cons.mpr h)
    rw [List.cons_append, getlines, if_neg (Ne.symm hc), ih _ hline, List.append_assoc]
    rfl

theorem reads_line (hline : 0x0a ∉ line) (hstep : settingsParseStep charSigned s line = .ok s') :
    Reads charSigned s (line ++ [0x0a]) s' := by
  intro rest
  rw [List.append_assoc, List.singleton_append, getlines_append [] hline, List.nil_append, List.foldlM_cons, hstep]
  rfl

/-- All parts of the keys have been read. -/
def SettingsParser.complete (s : SettingsParser) : Bool := s.rpKeyB && s.rpRegistKeyB && s.rpKeyTypeB

/-- What is done behind each line. -/
def SettingsParser.finish (s : SettingsParser) : SettingsParser :=
  if s.complete then s.set id fun host => { host with rpKeyData := true } else s

theorem finish_eq (s : SettingsParser) :
    (if (s.rpKeyB && s.rpRegistKeyB && s.rpKeyTypeB) = true then
      (pure (s.set id fun host => { host with rpKeyData := true }) : Except Fault SettingsParser)
    else pure s) = .ok s.finish := by
  unfold SettingsParser.finish SettingsParser.complete
  by_cases h : (s.rpKeyB && s.rpRegistKeyB && s.rpKeyTypeB) = true
  · rw [if_pos h, if_pos h]
    rfl
  · rw [if_neg h, if_neg h]
    rfl

theorem settingsParseStep_item (h : settingsParseLine line = some (item, value)) :
    settingsParseStep charSigned s line = (settingsParseItem charSigned s item value).map SettingsParser.finish := by
  unfold settingsParseStep
  rw [h]
  cases hitem : settingsParseItem charSigned s item value with
  | error fault => simp [hitem, Except.map, bind, Except.bind]
  | ok s' =>
    simp only [Option.elim, hitem, bind, Except.bind, Except.map]
    exact finish_eq s'

theorem settingsParseStep_none (h : settingsParseLine line = none) :
    settingsParseStep charSigned s line = .ok s.finish := by
  unfold settingsParseStep
  rw [h]
  simp only [Option.elim, bind, Except.bind]
  exact finish_eq s

theorem notMem_itemLine (h : item ≠ .hostName) (hvalue : ∀ c ∈ value, 0x23 ≤ c) (quoted : Bool) :
    0x0a ∉ itemLine (itemKey item) quoted value := by
  intro hmem
  rcases List.mem_append.mp hmem with hmem | hmem
  · have hkey : (keyText (itemKey item) quoted).all (fun c => c ≠ 0x0a) = true := by
      cases item <;> cases quoted <;> rfl
    exact of_decide_eq_true (List.all_eq_true.mp hkey _ hmem) rfl
  · rcases List.mem_append.mp hmem with hmem | hmem
    · exact absurd (hvalue _ hmem) (by decide)
    · cases quoted <;> exact absurd hmem (by decide)

/-- A line as it is written. -/
theorem line_eq {k : Bytes} {quoted : Bool} (front : Bytes) (hfront : front = keyText k quoted) (back : Bytes)
    (hback : back = quote quoted ++ [0x0a]) : front ++ value ++ back = itemLine k quoted value ++ [0x0a] := by
  rw [hfront, hback, itemLine]
  simp only [List.append_assoc]

/-- **A line with a value of an item is read**, by what the item does. -/
theorem reads_item (h : item ≠ .hostName) (hvalue : (reMap item).group.Matches value) (quoted : Bool)
    (hitem : settingsParseItem charSigned s item value = .ok s') :
    Reads charSigned s (itemLine (itemKey item) quoted value ++ [0x0a]) s'.finish := by
  refine reads_line (notMem_itemLine h (le_of_group h hvalue) quoted) ?_
  rw [settingsParseStep_item (settingsParseLine_item h hvalue quoted), hitem]
  rfl

/-- A line that is no item leaves everything. -/
theorem reads_none (hline : 0x0a ∉ line) (h : settingsParseLine line = none) :
    Reads charSigned s (line ++ [0x0a]) s.finish :=
  reads_line hline (settingsParseStep_none h)

/-! ## Values -/

/-- Ids are read as they were written, and nothing is written for an empty one. -/
theorem reads_id (h : item ≠ .hostName) (hvalue : value = [] ∨ (reMap item).group.Matches value)
    (hitem : value ≠ [] → settingsParseItem charSigned s item value = .ok s') (hincomplete : s'.complete = false)
    (hnil : value = [] → s' = s) :
    Reads charSigned s (if value ≠ [] then itemLine (itemKey item) true value ++ [0x0a] else []) s' := by
  by_cases hempty : value = []
  · rw [if_neg (by simpa using hempty), hnil hempty]
    exact reads_nil s
  · have hread := reads_item h (hvalue.resolve_left hempty) true (hitem hempty)
    rw [SettingsParser.finish, hincomplete, if_neg Bool.false_ne_true] at hread
    rwa [if_pos hempty]

theorem stringToResolutionPreset_text : ∀ resolution, stringToResolutionPreset (resolutionPresetToString resolution)
    = resolution := by
  intro resolution
  cases resolution <;> rfl

theorem stringToFpsPreset_text : ∀ fps, stringToFpsPreset (fpsPresetToString fps) = fps := by
  intro fps
  cases fps <;> rfl

/-- The pattern has no 2160p. -/
theorem matches_resolution {resolution : VideoResolutionPreset} (h : resolution ≠ .p2160) :
    (reMap .videoResolution).group.Matches (resolutionPresetToString resolution) := by
  simp only [reMap, reItem, matches_alt_iff, matches_text_iff]
  cases resolution <;> simp [resolutionPresetToString] at h ⊢

theorem matches_fps (fps : VideoFPSPreset) : (reMap .videoFps).group.Matches (fpsPresetToString fps) := by
  simp only [reMap, reItem, matches_alt_iff, matches_text_iff]
  cases fps <;> simp [fpsPresetToString]

/-! ## Settings and hosts alike -/

/-- What is read of the lines that settings and hosts have in common. The resolution with no pattern is left as it was,
and so are the ids that are not written. -/
def SettingsParser.common (s : SettingsParser) (resolution : VideoResolutionPreset) (fps : VideoFPSPreset)
    (onlineId accountId : Bytes) : SettingsParser :=
  s.set
    (fun t => { t with
      videoResolution := if resolution = .p2160 then t.videoResolution else resolution
      videoFps := fps
      psnOnlineId := if onlineId = [] then t.psnOnlineId else onlineId
      psnAccountId := if accountId = [] then t.psnAccountId else accountId })
    fun host => { host with
      videoResolution := if resolution = .p2160 then host.videoResolution else resolution
      videoFps := fps
      psnOnlineId := if onlineId = [] then host.psnOnlineId else onlineId
      psnAccountId := if accountId = [] then host.psnAccountId else accountId }

namespace SettingsParser

theorem set_set (s : SettingsParser) (global global' : SwitchSettings → SwitchSettings)
    (host host' : SwitchHost → SwitchHost) :
    (s.set global host).set global' host' = s.set (fun t => global' (global t)) fun h => host' (host h) := by
  unfold set
  cases s.currentHost with
  | none => rfl
  | some name => simp [SwitchSettings.update_update]

theorem set_id (s : SettingsParser) : s.set (fun t => t) (fun host => host) = s := by
  obtain ⟨settings, currentHost, rpKeyB, rpRegistKeyB, rpKeyTypeB⟩ := s
  cases currentHost with
  | none => rfl
  | some name => simp [set, SwitchSettings.update]

@[simp] theorem complete_set (s : SettingsParser) (global : SwitchSettings → SwitchSettings)
    (f : SwitchHost → SwitchHost) : (s.set global f).complete = s.complete := by
  unfold set
  cases s.currentHost <;> rfl

theorem finish_of_incomplete (h : s.complete = false) : s.finish = s := by
  rw [finish, h, if_neg Bool.false_ne_true]

end SettingsParser

/-- **What settings and hosts have in common is read as it was written**, apart from what has no pattern. -/
theorem reads_common (hincomplete : s.complete = false) (resolution : VideoResolutionPreset) (fps : VideoFPSPreset)
    {onlineId accountId : Bytes} (honline : onlineId = [] ∨ (reMap .psnOnlineId).group.Matches onlineId)
    (haccount : accountId = [] ∨ (reMap .psnAccountId).group.Matches accountId) :
    Reads charSigned s (settingsWriteCommon resolution fps onlineId accountId)
      (s.common resolution fps onlineId accountId) := by
  have hresolution : Reads charSigned s
      (itemLine (itemKey .videoResolution) true (resolutionPresetToString resolution) ++ [0x0a])
      (s.set (fun t => { t with videoResolution := if resolution = .p2160 then t.videoResolution else resolution })
        fun host => { host with
          videoResolution := if resolution = .p2160 then host.videoResolution else resolution }) := by
    by_cases hres : resolution = .p2160
    · -- it is written like the others, but no item has it
      subst hres
      have hread := @reads_none charSigned (itemLine (itemKey .videoResolution) true (ascii "2160p")) s
        (@notMem_itemLine .videoResolution _ (by decide) (le_of_all rfl) true) (by decide)
      rw [SettingsParser.finish_of_incomplete hincomplete] at hread
      exact Eq.mp (congrArg (Reads charSigned s _) s.set_id.symm) hread
    · have hread := @reads_item charSigned .videoResolution _ s _ (by decide) (matches_resolution hres) true rfl
      rw [SettingsParser.finish_of_incomplete (by simpa using hincomplete), stringToResolutionPreset_text] at hread
      simpa only [if_neg hres] using hread
  have hfps (s : SettingsParser) (hincomplete : s.complete = false) : Reads charSigned s
      (itemLine (itemKey .videoFps) false (fpsPresetToString fps) ++ [0x0a])
      (s.set (fun t => { t with videoFps := fps }) fun host => { host with videoFps := fps }) := by
    have hread := @reads_item charSigned .videoFps _ s _ (by decide) (matches_fps fps) false rfl
    rwa [SettingsParser.finish_of_incomplete (by simpa using hincomplete), stringToFpsPreset_text] at hread
  have honline' (s : SettingsParser) (hincomplete : s.complete = false) : Reads charSigned s
      (if onlineId ≠ [] then itemLine (itemKey .psnOnlineId) true onlineId ++ [0x0a] else [])
      (s.set (fun t => { t with psnOnlineId := if onlineId = [] then t.psnOnlineId else onlineId })
        fun host => { host with psnOnlineId := if onlineId = [] then host.psnOnlineId else onlineId }) := by
    refine reads_id (by decide) honline (fun hne => ?_) (by simpa using hincomplete) fun hnil => ?_
    · simp only [if_neg hne]
      rfl
    · subst hnil
      exact s.set_id
  have haccount' (s : SettingsParser) (hincomplete : s.complete = false) : Reads charSigned s
      (if accountId ≠ [] then itemLine (itemKey .psnAccountId) true accountId ++ [0x0a] else [])
      (s.set (fun t => { t with psnAccountId := if accountId = [] then t.psnAccountId else accountId })
        fun host => { host with psnAccountId := if accountId = [] then host.psnAccountId else accountId }) := by
    refine reads_id (by decide) haccount (fun hne => ?_) (by simpa using hincomplete) fun hnil => ?_
    · simp only [if_neg hne]
      rfl
    · subst hnil
      exact s.set_id
  have hread := hresolution.append ((hfps _ (by simpa using hincomplete)).append
    ((honline' _ (by simpa using hincomplete)).append (haccount' _ (by simpa using hincomplete))))
  simp only [SettingsParser.set_set] at hread
  have htext : settingsWriteCommon resolution fps onlineId accountId
      = (itemLine (itemKey .videoResolution) true (resolutionPresetToString resolution) ++ [0x0a])
        ++ ((itemLine (itemKey .videoFps) false (fpsPresetToString fps) ++ [0x0a])
        ++ ((if onlineId ≠ [] then itemLine (itemKey .psnOnlineId) true onlineId ++ [0x0a] else [])
        ++ (if accountId ≠ [] then itemLine (itemKey .psnAccountId) true accountId ++ [0x0a] else []))) := by
    rw [← line_eq (ascii "video_resolution = \"") rfl (ascii "\"\n") rfl,
      ← line_eq (ascii "video_fps = ") rfl (ascii "\n") rfl,
      ← line_eq (ascii "psn_online_id = \"") rfl (ascii "\"\n") rfl,
      ← line_eq (ascii "psn_account_id = \"") rfl (ascii "\"\n") rfl]
    simp only [settingsWriteCommon, List.append_assoc]
  rw [htext]
  exact hread

end Chiaki
