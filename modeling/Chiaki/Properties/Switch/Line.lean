import Chiaki.Switch.Settings
import Chiaki.Properties.Base64

/-!
# Lines of the configuration file

A line with a key and a value is read as the item of that key (`settingsParseLine_item`), and what is found in any line
is a value of its item (`settingsParseLine_value`).
-/

namespace Chiaki

open Infra Regex

variable {key group : Regex} {k w value tail line : Bytes} {item : ConfigurationItem}

/-! ## Patterns of items -/

/-- A line that begins with `w` does not have the key `k`. -/
def excludes (k w : Bytes) : Bool :=
  if k.isPrefixOf w then k.length < w.length && !StrTo.isSpace (w.getD k.length 0) && w.getD k.length 0 ≠ 0x3d
  else !w.isPrefixOf k

/-- The first character of a line is no space. -/
def noSpace (s : Bytes) : Prop := ∀ c ∈ s.head?, StrTo.isSpace c = false

/-- What comes before a value begins with the key, and a space or the sign is behind it. -/
theorem reItem_before (hline : noSpace line) {u rest : Bytes} (hu : line = u ++ rest)
    (hmatch : (reItem key group).before.Matches u) :
    ∃ k c rest', key.Matches k ∧ line = k ++ c :: rest' ∧ (StrTo.isSpace c = true ∨ c = 0x3d) := by
  simp only [reItem, reSpaces, matches_seq_iff, matches_rep_iff, matches_text_iff] at hmatch
  obtain ⟨spaces, _, rfl, ⟨hspaces, -⟩, k, _, rfl, hk, spaces', _, rfl, ⟨hspaces', -⟩, _, more, rfl, rfl, -⟩ := hmatch
  have hnil : spaces = [] := by
    cases spaces with
    | nil => rfl
    | cons c spaces =>
      have hspace := hspaces c List.mem_cons_self
      rw [hline c (by rw [hu]; rfl)] at hspace
      cases hspace
  subst hnil
  rw [hu]
  cases spaces' with
  | nil => exact ⟨k, 0x3d, more ++ rest, hk, by simp, .inr rfl⟩
  | cons c spaces' =>
    exact ⟨k, c, spaces' ++ 0x3d :: (more ++ rest), hk, by simp, .inl (hspaces' c List.mem_cons_self)⟩

/-- The pattern of another key finds nothing. -/
theorem reItem_none (hw : noSpace (w ++ tail)) (hkey : ∀ k, key.Matches k → excludes k w = true) :
    (reItem key group).search (w ++ tail) = none := by
  refine Pattern.search_eq_none_of_before fun u rest hu hmatch => ?_
  obtain ⟨k, c, rest', hk, hline, hc⟩ := reItem_before hw hu hmatch
  have hexcludes := hkey k hk
  have hprefix : k <+: w ++ tail := hline ▸ List.prefix_append _ _
  unfold excludes at hexcludes
  split at hexcludes
  · next hkw =>
    obtain ⟨more, rfl⟩ := List.isPrefixOf_iff_prefix.mp hkw
    rw [List.append_assoc, List.append_cancel_left_eq] at hline
    cases more with
    | nil => simp at hexcludes
    | cons d more =>
      obtain ⟨rfl, -⟩ := List.cons.inj hline
      rcases hc with hc | rfl <;> simp_all
  · next hkw =>
    -- both are at the beginning, so one of them is longer
    rcases List.prefix_or_prefix_of_prefix hprefix (List.prefix_append w tail) with h | h
    · exact hkw (List.isPrefixOf_iff_prefix.mpr h)
    · rw [List.isPrefixOf_iff_prefix.mpr h] at hexcludes
      cases hexcludes

/-! ## Lines that are written -/

/-- A quotation mark, where there is one. -/
def quote (quoted : Bool) : Bytes := if quoted then [0x22] else []

/-- A key and what is between it and the value. -/
def keyText (k : Bytes) (quoted : Bool) : Bytes := k ++ (ascii " = " ++ quote quoted)

/-- A line with a key and a value. -/
def itemLine (k : Bytes) (quoted : Bool) (value : Bytes) : Bytes := keyText k quoted ++ (value ++ quote quoted)

/-- The first character of a value is no space and no quotation mark. -/
def plainHead (value : Bytes) : Prop := ∀ c ∈ value.head?, StrTo.isSpace c = false ∧ c ≠ 0x22

theorem takes_spaces (h : noSpace tail) : reSpaces.Takes [] tail :=
  takes_rep (by simp) (Nat.zero_le _) (by simp) h

theorem takes_space (h : noSpace tail) : reSpaces.Takes [0x20] tail := by
  refine takes_rep ?_ (Nat.zero_le _) (by simp) h
  intro c hc
  cases List.mem_singleton.mp hc
  rfl

theorem takes_quote (quoted : Bool) (h : ∀ c ∈ tail.head?, c ≠ 0x22) : reQuote.Takes (quote quoted) tail := by
  have hstop : ∀ c ∈ tail.head?, decide (c = 0x22) = false := fun c hc => decide_eq_false (h c hc)
  cases quoted with
  | false => exact takes_rep (by simp [quote]) (by simp) (by simp [quote]) hstop
  | true => exact takes_rep (by simp [quote]) (by simp) (by simp [quote]) hstop

/-- The value of a line is found by the pattern of its key. -/
theorem reItem_search (quoted : Bool) (hk : ∀ rest, key.Takes k rest) (hspace : ∀ rest, noSpace (k ++ rest))
    (hne : value ≠ []) (hplain : plainHead value) (hvalue : group.Takes value (quote quoted)) :
    (reItem key group).search (itemLine k quoted value) = some value := by
  obtain ⟨c, more, rfl⟩ := List.exists_cons_of_ne_nil hne
  obtain ⟨hc, hquote⟩ := hplain c rfl
  have hstart : ∀ c' ∈ (c :: more ++ (quote quoted ++ [])).head?, c' ≠ 0x22 := by
    intro c' hc'
    exact Option.some.inj hc' ▸ hquote
  have hbehind : noSpace (quote quoted ++ (c :: more ++ (quote quoted ++ []))) := by
    intro c' hc'
    cases quoted with
    | false => exact Option.some.inj hc' ▸ hc
    | true => exact Option.some.inj hc' ▸ rfl
  have hbefore : (reItem key group).before.Takes
      ([] ++ (k ++ ([0x20] ++ ([0x3d] ++ ([0x20] ++ quote quoted))))) (c :: more ++ (quote quoted ++ [])) := by
    refine .seq (takes_spaces ?_) (.seq (hk _) (.seq (takes_space ?_) (.seq (takes_text _ _)
      (.seq (takes_space hbehind) (takes_quote quoted hstart)))))
    · rw [List.append_assoc]
      exact hspace _
    · intro c' hc'
      exact Option.some.inj hc' ▸ rfl
  have hsearch := Pattern.search_eq hbefore (by rwa [List.append_nil]) (takes_quote quoted (by simp))
  rw [List.append_nil] at hsearch
  have hsign : ascii " = " = [0x20, 0x3d, 0x20] := rfl
  simpa [itemLine, keyText, hsign] using hsearch

/-! ## Items -/

/-- The key that is written for an item. -/
def itemKey : ConfigurationItem → Bytes
  | .hostName => []
  | .hostAddr => ascii "host_addr"
  | .psnOnlineId => ascii "psn_online_id"
  | .psnAccountId => ascii "psn_account_id"
  | .rpKey => ascii "rp_key"
  | .rpKeyType => ascii "rp_key_type"
  | .rpRegistKey => ascii "rp_regist_key"
  | .videoResolution => ascii "video_resolution"
  | .videoFps => ascii "video_fps"
  | .target => ascii "target"

/-- All keys that are read as an item. -/
def itemKeys : ConfigurationItem → List Bytes
  | .hostName => []
  | .hostAddr => [ascii "host_ip", ascii "host_addr"]
  | item => [itemKey item]

/-- The pattern of an item with a key. -/
def itemPattern (item : ConfigurationItem) : Regex :=
  match item with
  | .hostAddr => .seq (.text (ascii "host_")) (.alt (.text (ascii "ip")) (.text (ascii "addr")))
  | item => .text (itemKey item)

theorem reMap_eq (h : item ≠ .hostName) : reMap item = reItem (itemPattern item) (reMap item).group := by
  cases item <;> first | rfl | exact absurd rfl h

/-- The pattern of a key has the texts of the keys. -/
theorem mem_itemKeys (h : item ≠ .hostName) (hk : (itemPattern item).Matches k) : k ∈ itemKeys item := by
  cases item with
  | hostName => exact absurd rfl h
  | hostAddr =>
    simp only [itemPattern, matches_seq_iff, matches_alt_iff, matches_text_iff] at hk
    obtain ⟨_, _, rfl, rfl, rfl | rfl⟩ := hk
    · exact List.mem_cons_self
    · exact List.mem_cons_of_mem _ List.mem_cons_self
  | _ => exact List.mem_singleton.mpr (matches_text_iff.mp hk)

theorem takes_itemPattern (h : item ≠ .hostName) (rest : Bytes) : (itemPattern item).Takes (itemKey item) rest := by
  cases item with
  | hostName => exact absurd rfl h
  | hostAddr => exact .seq (takes_text (ascii "host_") _) (.right rfl (takes_text (ascii "addr") rest))
  | _ => exact takes_text _ rest

theorem noSpace_itemKey (h : item ≠ .hostName) (rest : Bytes) : noSpace (itemKey item ++ rest) := by
  intro c hc
  cases item <;> first | exact absurd rfl h | exact Option.some.inj hc ▸ rfl

/-- No key of an item begins a line of another one. -/
theorem excludes_keyText : ∀ item other : ConfigurationItem, item ≠ .hostName → other ≠ item → ∀ quoted,
    (itemKeys other).all (excludes · (keyText (itemKey item) quoted)) = true := by
  intro item other h hne quoted
  cases item <;> cases other <;> cases quoted <;> first | rfl | exact absurd rfl h | exact absurd rfl hne

/-- A line with a key is no line of another item. -/
theorem search_other {other : ConfigurationItem} (h : item ≠ .hostName) (hne : other ≠ item) (quoted : Bool)
    (rest : Bytes) : (reMap other).search (keyText (itemKey item) quoted ++ rest) = none := by
  by_cases hother : other = .hostName
  · subst hother
    refine Pattern.search_eq_none_of_before fun u more hu hmatch => ?_
    obtain ⟨_, _, rfl, ht, -⟩ := matches_seq_iff.mp hmatch
    cases matches_text_iff.mp ht
    cases item <;> first | exact absurd rfl h | cases hu
  · rw [reMap_eq hother]
    refine reItem_none ?_ fun k hk => ?_
    · rw [keyText, List.append_assoc]
      exact noSpace_itemKey h _
    · exact List.all_eq_true.mp (excludes_keyText item other h hne quoted) k (mem_itemKeys hother hk)

theorem mem_configurationItems (item : ConfigurationItem) : item ∈ configurationItems := by cases item <;> decide

/-- A line that is no line of another item is one of this item if its pattern finds something. -/
theorem settingsParseLine_eq (h : ∀ other, other ≠ item → (reMap other).search line = none) :
    settingsParseLine line = ((reMap item).search line).map fun value => (item, value) := by
  have hmem := mem_configurationItems item
  unfold settingsParseLine
  generalize configurationItems = items at hmem
  induction items with
  | nil => cases hmem
  | cons other items ih =>
    by_cases hother : other = item
    · subst hother
      cases hsearch : (reMap other).search line with
      | none =>
        have hnone : ∀ item, ((reMap item).search line).map (fun value => (item, value)) = none := by
          intro item
          by_cases hitem : item = other
          · rw [hitem, hsearch]
            rfl
          · rw [h item hitem]
            rfl
        exact List.findSome?_eq_none_iff.mpr fun item _ => hnone item
      | some value => simp [hsearch]
    · rw [List.findSome?_cons, h other hother]
      exact ih ((List.mem_cons.mp hmem).resolve_left (Ne.symm hother))

/-! ## Values -/

theorem plain_of_le {c : UInt8} (h : 0x23 ≤ c) : StrTo.isSpace c = false ∧ c ≠ 0x22 := by
  have hle : 0x23 ≤ c.toNat := h
  constructor
  · have hspace : c ≠ 0x20 := by
      rintro rfl
      exact absurd h (by decide)
    have hbehind : ¬ c ≤ 0x0d := by
      intro hc
      have hc : c.toNat ≤ 0x0d := hc
      omega
    simp [StrTo.isSpace, hspace, hbehind]
  · rintro rfl
    exact absurd h (by decide)

theorem le_of_isDigit {c : UInt8} (h : isDigit c = true) : 0x23 ≤ c := by
  simp only [isDigit, Bool.and_eq_true, decide_eq_true_eq] at h
  exact UInt8.le_trans (by decide) h.1

theorem le_of_isAlnum {c : UInt8} (h : isAlnum c = true) : 0x23 ≤ c := by
  simp only [isAlnum, Bool.or_eq_true, Bool.and_eq_true, decide_eq_true_eq] at h
  rcases h with (h | h) | h
  · exact le_of_isDigit h
  · exact UInt8.le_trans (by decide) h.1
  · exact UInt8.le_trans (by decide) h.1

theorem le_of_isHostChar {c : UInt8} (h : isHostChar c = true) : 0x23 ≤ c := by
  simp only [isHostChar, Bool.or_eq_true, decide_eq_true_eq] at h
  rcases h with h | rfl
  · exact le_of_isAlnum h
  · decide

theorem le_of_isOnlineIdChar {c : UInt8} (h : isOnlineIdChar c = true) : 0x23 ≤ c := by
  simp only [isOnlineIdChar, Bool.or_eq_true, decide_eq_true_eq] at h
  rcases h with (h | rfl) | rfl
  · exact le_of_isAlnum h
  · decide
  · decide

theorem le_of_isBase64Char {c : UInt8} (h : isBase64Char c = true) : 0x23 ≤ c := by
  simp only [isBase64Char, Bool.or_eq_true, decide_eq_true_eq] at h
  rcases h with (((h | rfl) | rfl) | rfl) | rfl
  · exact le_of_isAlnum h
  all_goals decide

theorem plainHead_of_forall (h : ∀ c ∈ value, 0x23 ≤ c) : plainHead value := by
  intro c hc
  exact plain_of_le (h c (List.mem_of_mem_head? hc))

/-- Characters of a class are taken up to the quotation mark. -/
theorem takes_class {p : UInt8 → Bool} {min : Nat} {max : Option Nat} (h : (Regex.rep p min max).Matches value)
    (hclass : ∀ c, p c = true → 0x23 ≤ c) (quoted : Bool) : (Regex.rep p min max).Takes value (quote quoted) := by
  obtain ⟨hall, hmin, hmax⟩ := matches_rep_iff.mp h
  refine takes_rep hall hmin hmax ?_
  intro c hc
  cases quoted with
  | false => cases hc
  | true =>
    cases hc
    exact Bool.eq_false_iff.mpr fun h => absurd (hclass _ h) (by decide)

theorem not_isDigit_dot : isDigit 0x2e = false := by decide

theorem not_isDigit_quote : isDigit 0x22 = false := by decide

/-- An address is taken whole, of either form. -/
theorem takes_hostAddr (h : reHostAddr.Matches value) (quoted : Bool) : reHostAddr.Takes value (quote quoted) := by
  have hdigits : ∀ {t rest : Bytes}, reDigits.Matches t → (∀ c ∈ rest.head?, isDigit c = false) →
      reDigits.Takes t rest := by
    intro t rest ht hrest
    obtain ⟨hall, hmin, hmax⟩ := matches_rep_iff.mp ht
    exact takes_rep hall hmin hmax hrest
  have hdot : ∀ {rest : Bytes}, ∀ c ∈ (0x2e :: rest).head?, isDigit c = false := by
    intro rest c hc
    exact Option.some.inj hc ▸ not_isDigit_dot
  have hquote : ∀ c ∈ (quote quoted).head?, isDigit c = false := by
    intro c hc
    cases quoted with
    | false => cases hc
    | true => exact Option.some.inj hc ▸ not_isDigit_quote
  rcases matches_alt_iff.mp h with h | h
  · refine .left ?_
    simp only [matches_seq_iff, matches_text_iff] at h
    obtain ⟨a, _, rfl, ha, _, _, rfl, rfl, b, _, rfl, hb, _, _, rfl, rfl, c, _, rfl, hc, _, d, rfl, rfl, hd⟩ := h
    exact .seq (hdigits ha hdot) (.seq (takes_text _ _) (.seq (hdigits hb hdot) (.seq (takes_text _ _)
      (.seq (hdigits hc hdot) (.seq (takes_text _ _) (hdigits hd hquote))))))
  · -- there is no dot, so the first form is not there
    refine .right (rests_eq_nil fun t rest ht hmatch => ?_) (takes_class h (fun _ => le_of_isHostChar) quoted)
    have hmem : (0x2e : UInt8) ∈ t := by
      simp only [matches_seq_iff, matches_text_iff] at hmatch
      obtain ⟨a, _, rfl, -, _, _, rfl, rfl, -⟩ := hmatch
      simp
    have hvalue : (0x2e : UInt8) ∈ value ++ quote quoted := ht ▸ List.mem_append_left _ hmem
    rcases List.mem_append.mp hvalue with hvalue | hquote
    · have hchar := (matches_rep_iff.mp h).1 _ hvalue
      exact absurd hchar (by decide)
    · cases quoted <;> exact absurd hquote (by decide)

theorem le_of_hostAddr (h : reHostAddr.Matches value) : ∀ c ∈ value, 0x23 ≤ c := by
  have hdigits : ∀ {t : Bytes}, reDigits.Matches t → ∀ c ∈ t, 0x23 ≤ c := fun ht c hc =>
    le_of_isDigit ((matches_rep_iff.mp ht).1 c hc)
  have hdot : ∀ c ∈ [(0x2e : UInt8)], 0x23 ≤ c := by
    intro c hc
    cases List.mem_singleton.mp hc
    decide
  rcases matches_alt_iff.mp h with h | h
  · simp only [matches_seq_iff, matches_text_iff] at h
    obtain ⟨a, _, rfl, ha, _, _, rfl, rfl, b, _, rfl, hb, _, _, rfl, rfl, c, _, rfl, hc, _, d, rfl, rfl, hd⟩ := h
    simp only [List.forall_mem_append]
    exact ⟨hdigits ha, hdot, hdigits hb, hdot, hdigits hc, hdot, hdigits hd⟩
  · exact fun c hc => le_of_isHostChar ((matches_rep_iff.mp h).1 c hc)

theorem le_of_all (h : (value.all fun c => 0x23 ≤ c) = true) : ∀ c ∈ value, 0x23 ≤ c :=
  fun c hc => of_decide_eq_true (List.all_eq_true.mp h c hc)

theorem le_of_class {p : UInt8 → Bool} {min : Nat} {max : Option Nat} (h : (Regex.rep p min max).Matches value)
    (hclass : ∀ c, p c = true → 0x23 ≤ c) : ∀ c ∈ value, 0x23 ≤ c :=
  fun c hc => hclass c ((matches_rep_iff.mp h).1 c hc)

/-- **Every value of an item is taken whole**, up to the quotation mark behind it. -/
theorem takes_group (h : item ≠ .hostName) (hvalue : (reMap item).group.Matches value) (quoted : Bool) :
    (reMap item).group.Takes value (quote quoted) := by
  cases item with
  | hostName => exact absurd rfl h
  | hostAddr => exact takes_hostAddr hvalue quoted
  | psnOnlineId => exact takes_class hvalue (fun _ => le_of_isOnlineIdChar) quoted
  | psnAccountId => exact takes_class hvalue (fun _ => le_of_isBase64Char) quoted
  | rpKey => exact takes_class hvalue (fun _ => le_of_isBase64Char) quoted
  | rpKeyType => exact takes_class hvalue (fun _ => le_of_isDigit) quoted
  | rpRegistKey => exact takes_class hvalue (fun _ => le_of_isBase64Char) quoted
  | target => exact takes_class hvalue (fun _ => le_of_isDigit) quoted
  | videoResolution =>
    simp only [reMap, reItem, matches_alt_iff, matches_text_iff] at hvalue
    rcases hvalue with rfl | rfl | rfl | rfl
    · exact .left (takes_text _ _)
    · exact .right rfl (.left (takes_text _ _))
    · exact .right rfl (.right rfl (.left (takes_text _ _)))
    · exact .right rfl (.right rfl (.right rfl (takes_text _ _)))
  | videoFps =>
    simp only [reMap, reItem, matches_alt_iff, matches_text_iff] at hvalue
    rcases hvalue with rfl | rfl
    · exact .left (takes_text _ _)
    · exact .right rfl (takes_text _ _)

theorem le_of_group (h : item ≠ .hostName) (hvalue : (reMap item).group.Matches value) : ∀ c ∈ value, 0x23 ≤ c := by
  cases item with
  | hostName => exact absurd rfl h
  | hostAddr => exact le_of_hostAddr hvalue
  | psnOnlineId => exact le_of_class hvalue fun _ => le_of_isOnlineIdChar
  | psnAccountId => exact le_of_class hvalue fun _ => le_of_isBase64Char
  | rpKey => exact le_of_class hvalue fun _ => le_of_isBase64Char
  | rpKeyType => exact le_of_class hvalue fun _ => le_of_isDigit
  | rpRegistKey => exact le_of_class hvalue fun _ => le_of_isBase64Char
  | target => exact le_of_class hvalue fun _ => le_of_isDigit
  | videoResolution =>
    simp only [reMap, reItem, matches_alt_iff, matches_text_iff] at hvalue
    rcases hvalue with rfl | rfl | rfl | rfl <;> exact le_of_all rfl
  | videoFps =>
    simp only [reMap, reItem, matches_alt_iff, matches_text_iff] at hvalue
    rcases hvalue with rfl | rfl <;> exact le_of_all rfl

theorem ne_nil_of_group (h : item ≠ .hostName) (hvalue : (reMap item).group.Matches value) : value ≠ [] := by
  rintro rfl
  have hclass : ∀ p max, ¬ (Regex.rep p 1 max).Matches [] := by
    intro p max hmatch
    exact absurd (matches_rep_iff.mp hmatch).2.1 (by decide)
  cases item with
  | hostName => exact absurd rfl h
  | hostAddr =>
    rcases matches_alt_iff.mp hvalue with hvalue | hvalue
    · obtain ⟨t, _, hnil, ht, -⟩ := matches_seq_iff.mp hvalue
      rw [(List.append_eq_nil_iff.mp hnil.symm).1] at ht
      exact hclass _ _ ht
    · exact hclass _ _ hvalue
  | videoResolution =>
    simp only [reMap, reItem, matches_alt_iff, matches_text_iff] at hvalue
    rcases hvalue with hvalue | hvalue | hvalue | hvalue <;> cases hvalue
  | videoFps =>
    simp only [reMap, reItem, matches_alt_iff, matches_text_iff] at hvalue
    rcases hvalue with hvalue | hvalue <;> cases hvalue
  | _ => exact hclass _ _ hvalue

/-- **A line that is written for an item is read as that item**, with every value of it. -/
theorem settingsParseLine_item (h : item ≠ .hostName) (hvalue : (reMap item).group.Matches value) (quoted : Bool) :
    settingsParseLine (itemLine (itemKey item) quoted value) = some (item, value) := by
  have hsearch := reItem_search quoted (takes_itemPattern h) (noSpace_itemKey h) (ne_nil_of_group h hvalue)
    (plainHead_of_forall (le_of_group h hvalue)) (takes_group h hvalue quoted)
  have hothers : ∀ other, other ≠ item → (reMap other).search (itemLine (itemKey item) quoted value) = none :=
    fun other hother => search_other h hother quoted _
  rw [← reMap_eq h] at hsearch
  rw [settingsParseLine_eq hothers, hsearch]
  rfl

/-- What is found in a line is a value of its item. -/
theorem settingsParseLine_value (h : settingsParseLine line = some (item, value)) :
    (reMap item).search line = some value ∧ (reMap item).group.Matches value := by
  obtain ⟨other, -, hother⟩ := List.exists_of_findSome?_eq_some h
  cases hsearch : (reMap other).search line with
  | none =>
    rw [hsearch] at hother
    cases hother
  | some found =>
    rw [hsearch] at hother
    cases hother
    obtain ⟨_, _, _, -, -, hmatch, -⟩ := Pattern.search_sound hsearch
    exact ⟨hsearch, hmatch⟩

/-! ## Names of hosts -/

/-- A name that can be read between brackets: without the end of a line, and not with a space at its beginning unless it
is nothing else. -/
structure HostNameRead (name : Bytes) : Prop where
  chars : (reMap .hostName).group.Matches name
  head : name.length = 1 ∨ noSpace name

/-- The line of a name. -/
def hostNameLine (name : Bytes) : Bytes := ascii "[" ++ (name ++ ascii "]")

/-- All characters of a line are taken before the one in front of its end is. -/
theorem rests_concat {p : UInt8 → Bool} {t : Bytes} {c : UInt8} (hall : ∀ d ∈ t ++ [c], p d = true) (hne : t ≠ []) :
    ∃ more, (Regex.rep p 1 none).rests (t ++ [c]) = [] :: [c] :: more := by
  have hmost : most p none (t ++ [c]) = t.length + 1 := by
    have htake := @List.takeWhile_append_of_pos _ p (t ++ [c]) [] hall
    simp only [List.append_nil, List.takeWhile_nil] at htake
    simp [most, htake]
  obtain ⟨n, hn⟩ := Nat.exists_eq_succ_of_ne_zero fun h => hne (List.length_eq_zero_iff.mp h)
  have hdrop : ∀ k, t.length + 1 ≤ k → (t ++ [c]).drop k = [] := by
    intro k hk
    exact List.drop_of_length_le (by simpa using hk)
  refine ⟨((List.range' 1 n).reverse.map (t ++ [c]).drop), ?_⟩
  rw [rests, hmost, show t.length + 1 + 1 - 1 = n + 1 + 1 by omega, List.range'_concat, List.range'_concat]
  simp only [List.reverse_append, List.reverse_singleton, List.singleton_append, List.map_cons, Nat.one_mul]
  rw [hdrop _ (by omega), show 1 + n = t.length by omega, List.drop_left]

/-- A name without a space at its beginning is found. -/
theorem search_hostName {name : Bytes} (h : (reMap .hostName).group.Matches name) (hspace : noSpace name) :
    (reMap .hostName).search (hostNameLine name) = some name := by
  obtain ⟨hall, hlen, -⟩ := matches_rep_iff.mp h
  have hne : name ≠ [] := by
    rintro rfl
    exact absurd hlen (by decide)
  have hbefore : (reMap .hostName).before.Takes (ascii "[" ++ []) (name ++ ascii "]") := by
    refine .seq (takes_text _ _) (takes_spaces ?_)
    intro c hc
    rw [List.head?_append_of_ne_nil _ hne] at hc
    exact hspace c hc
  have hclosing : ∀ d ∈ name ++ [0x5d], isNoLineEnd d = true := by
    intro d hd
    rcases List.mem_append.mp hd with hd | hd
    · exact hall d hd
    · cases List.mem_singleton.mp hd
      rfl
  obtain ⟨more, hmore⟩ := rests_concat hclosing hne
  refine head?_flatMap hbefore ?_
  -- with the whole line taken the bracket is missing, so the character in front of the end is given back
  have hgroup : (reMap .hostName).group.rests (name ++ ascii "]") = [] :: [0x5d] :: more := hmore
  have hend : (reMap .hostName).after.rests [] = [] := rfl
  have hbracket : (reMap .hostName).after.rests [0x5d] = [[]] := rfl
  have htake : (name ++ ascii "]").take (name.length + (ascii "]").length - 1) = name := List.take_left
  rw [hgroup]
  simp [hend, hbracket, htake]

/-- A space that ends no line is one of four characters. -/
theorem space_cases {c : UInt8} (h : StrTo.isSpace c = true) (hline : isNoLineEnd c = true) :
    c = 0x20 ∨ c = 0x09 ∨ c = 0x0b ∨ c = 0x0c := by
  simp only [StrTo.isSpace, isNoLineEnd, Bool.or_eq_true, Bool.and_eq_true, decide_eq_true_eq, ne_eq] at h hline
  rcases h with h | ⟨hlow, hhigh⟩
  · exact .inl h
  · have hlow : 9 ≤ c.toNat := hlow
    have hhigh : c.toNat ≤ 13 := hhigh
    have h10 : c.toNat ≠ 10 := fun h => hline.1 (UInt8.toNat.inj h)
    have h13 : c.toNat ≠ 13 := fun h => hline.2 (UInt8.toNat.inj h)
    have hcases : c.toNat = 9 ∨ c.toNat = 11 ∨ c.toNat = 12 := by omega
    rcases hcases with h | h | h
    · exact .inr (.inl (UInt8.toNat.inj h))
    · exact .inr (.inr (.inl (UInt8.toNat.inj h)))
    · exact .inr (.inr (.inr (UInt8.toNat.inj h)))

/-- **A name that can be read is read.** -/
theorem settingsParseLine_hostName {name : Bytes} (h : HostNameRead name) :
    settingsParseLine (hostNameLine name) = some (.hostName, name) := by
  have hothers : ∀ other, other ≠ .hostName → (reMap other).search (hostNameLine name) = none := by
    intro other hother
    rw [reMap_eq hother]
    refine @reItem_none _ _ (ascii "[") (name ++ ascii "]") ?_ fun k hk => ?_
    · intro c hc
      exact Option.some.inj hc ▸ rfl
    · have hall : (itemKeys other).all (excludes · (ascii "[")) = true := by cases other <;> rfl
      exact List.all_eq_true.mp hall k (mem_itemKeys hother hk)
  rw [settingsParseLine_eq hothers]
  by_cases hspace : noSpace name
  · rw [search_hostName h.chars hspace]
    rfl
  · obtain ⟨c, rfl⟩ := List.length_eq_one_iff.mp (h.head.resolve_right hspace)
    have hc : StrTo.isSpace c = true := by
      cases hc : StrTo.isSpace c with
      | true => rfl
      | false => exact absurd (fun d hd => Option.some.inj hd ▸ hc) hspace
    have hline := (matches_rep_iff.mp h.chars).1 c List.mem_cons_self
    rcases space_cases hc hline with rfl | rfl | rfl | rfl <;> rfl

/-- **What is read as a name can be read.** -/
theorem hostNameRead_of_search {name : Bytes} (h : (reMap .hostName).search line = some name) : HostNameRead name := by
  obtain ⟨_, _, _, -, -, hgroup, -⟩ := Pattern.search_sound h
  obtain ⟨hall, hlen, -⟩ := matches_rep_iff.mp hgroup
  refine ⟨hgroup, Classical.byContradiction fun hhead => ?_⟩
  obtain ⟨hlong, hspace⟩ := not_or.mp hhead
  obtain ⟨c, more, rfl⟩ := List.exists_cons_of_length_pos hlen
  have hc : StrTo.isSpace c = true := by
    cases hc : StrTo.isSpace c with
    | true => rfl
    | false => exact absurd (fun d hd => Option.some.inj hd ▸ hc) hspace
  have hmore : 1 ≤ more.length := by
    simp only [List.length_cons] at hlong
    omega
  unfold Pattern.search at h
  have hbefore : (reMap .hostName).before.rests line
      = ((Regex.text (ascii "[")).rests line).flatMap reSpaces.rests := rfl
  rw [hbefore, rests] at h
  split at h
  · simp only [List.flatMap_cons, List.flatMap_nil, List.append_nil] at h
    generalize line.drop (ascii "[").length = s at h
    obtain ⟨n, -, hn, hfound, hnone⟩ := head?_rep_flatMap h
    obtain ⟨v, rest, hs, -, hv⟩ := Pattern.mem_found.mp (List.mem_of_mem_head? hfound)
    have hlt : n + 1 ≤ s.length := by
      have hlength := congrArg List.length hs
      simp only [List.length_drop, List.length_append, List.length_cons] at hlength
      omega
    -- the spaces in front of the name could have taken its first character too
    have hget : s[n]? = some c := by
      rw [← List.head?_drop, hs]
      rfl
    have hmost : n + 1 ≤ most StrTo.isSpace none s := by
      refine (le_most_iff hlt).mpr ⟨?_, by simp⟩
      intro d hd
      rw [List.take_add_one, hget] at hd
      rcases List.mem_append.mp hd with hd | hd
      · exact ((le_most_iff (by omega)).mp hn).1 d hd
      · cases List.mem_singleton.mp hd
        exact hc
    have hdrop : s.drop (n + 1) = more ++ (v ++ rest) := by
      rw [← List.drop_drop, hs]
      rfl
    have hmem := @Pattern.mem_found more (reMap .hostName).group (reMap .hostName).after (s.drop (n + 1))
    rw [hnone (n + 1) (by omega) hmost] at hmem
    have hclass : (reMap .hostName).group.Matches more :=
      matches_rep_iff.mpr ⟨fun d hd => hall d (List.mem_cons_of_mem _ hd), hmore, by simp⟩
    cases hmem.mpr ⟨v, rest, hdrop, hclass, hv⟩
  · cases h

end Chiaki
