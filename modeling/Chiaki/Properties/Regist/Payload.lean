import Chiaki.Properties.Hex
import Chiaki.Properties.Http.Response
import Chiaki.Regist

/-!
# The keys that a registration stores

A flag says that a key was found, and nothing takes it back: an invalid header behind a valid one leaves
the flag, but not the key (`registIntegrity_iff`).
-/

namespace Chiaki

open Infra

variable {buf hex data : Bytes} {ps5 : Bool} {s : RegistPayload} {headers : List HttpHeader}

/-! ## The three keys -/

/-- The three keys of a console that has been registered. -/
inductive RegistKey
  | regist
  | rp
  | mac
  deriving DecidableEq

namespace RegistKey

/-- The name of the header. -/
def name (ps5 : Bool) : RegistKey → String
  | regist => if ps5 then "PS5-RegistKey" else "PS4-RegistKey"
  | rp => "RP-Key"
  | mac => if ps5 then "PS5-Mac" else "PS4-Mac"

def size : RegistKey → Nat
  | regist => 0x10
  | rp => 0x10
  | mac => 6

/-- Where the key is stored. -/
def field (host : RegisteredHost) : RegistKey → Bytes
  | regist => host.rpRegistKey
  | rp => host.rpKey
  | mac => host.serverMac

def found (s : RegistPayload) : RegistKey → Bool
  | regist => s.registKeyFound
  | rp => s.keyFound
  | mac => s.macFound

/-- How many bytes a key may have. A `RegistKey` is filled up with zeros. -/
def Fits (n : Nat) : RegistKey → Prop
  | regist => n ≤ 0x10
  | rp => n = 0x10
  | mac => n = 6

instance (n : Nat) : (key : RegistKey) → Decidable (key.Fits n)
  | regist => inferInstanceAs (Decidable (_ ≤ _))
  | rp => inferInstanceAs (Decidable (_ = _))
  | mac => inferInstanceAs (Decidable (_ = _))

/-- What a value stands for: an even number of digits, none of them invalid, and as many as it takes. -/
def decode (key : RegistKey) (value : CString) : Option Bytes :=
  (hexBytes value.bytes).bind fun data =>
    if key.Fits data.length then some (data ++ List.replicate (key.size - data.length) 0) else none

/-- The branch of the loop. -/
def parse (s : RegistPayload) (value : CString) : RegistKey → RegistPayload
  | regist => registParseRegistKey s value
  | rp => registParseKey s value
  | mac => registParseMac s value

/-- What is stored, and whether the key was found. -/
def stored (key : RegistKey) (s : RegistPayload) : Bytes × Bool := (key.field s.host, key.found s)

/-- What a value changes: an invalid one clears the key, but not the flag. -/
def store (key : RegistKey) (stored : Bytes × Bool) (value : CString) : Bytes × Bool :=
  match key.decode value with
  | some data => (data, true)
  | none => (List.replicate key.size 0, stored.2)

theorem decode_some (key : RegistKey) {value : CString} (h : hexBytes value.bytes = some data)
    (hfits : key.Fits data.length) :
    key.decode value = some (data ++ List.replicate (key.size - data.length) 0) := by
  rw [decode, h]
  exact if_pos hfits

theorem decode_none (key : RegistKey) {value : CString}
    (h : ∀ data, hexBytes value.bytes = some data → ¬ key.Fits data.length) : key.decode value = none := by
  rw [decode]
  cases hdata : hexBytes value.bytes with
  | none => rfl
  | some data => exact if_neg (h data hdata)

theorem Fits.le_size {key : RegistKey} {n : Nat} (h : key.Fits n) : n ≤ key.size := by
  cases key with
  | regist => exact h
  | rp => exact Nat.le_of_eq h
  | mac => exact Nat.le_of_eq h

theorem length_decode {key : RegistKey} {value : CString} (h : key.decode value = some data) :
    data.length = key.size := by
  rw [decode] at h
  obtain ⟨digits, -, h⟩ := Option.bind_eq_some_iff.mp h
  by_cases hfits : key.Fits digits.length
  · rw [if_pos hfits] at h
    have hle := hfits.le_size
    cases h
    rw [List.length_append, List.length_replicate]
    omega
  · rw [if_neg hfits] at h
    cases h

theorem length_store (key : RegistKey) (stored : Bytes × Bool) (value : CString) :
    (key.store stored value).1.length = key.size := by
  rw [store]
  cases hdata : key.decode value with
  | none => exact List.length_replicate
  | some data => exact length_decode hdata

end RegistKey

/-- The arrays have their sizes. -/
def RegistPayload.Sized (s : RegistPayload) : Prop := ∀ key : RegistKey, (key.field s.host).length = key.size

/-- What one header does: it is a key, or it does not change them. -/
inductive RegistHeader (ps5 : Bool) (s : RegistPayload) (header : HttpHeader) : RegistPayload → Prop
  | key (key : RegistKey) (hname : header.key.bytes = ascii (key.name ps5)) :
    RegistHeader ps5 s header (key.parse s header.value)
  | other (s' : RegistPayload) (hname : ∀ key : RegistKey, header.key.bytes ≠ ascii (key.name ps5))
      (hsame : ∀ key : RegistKey, key.stored s' = key.stored s) :
    RegistHeader ps5 s header s'

/-- None of the other names is the name of a key. -/
theorem name_ne_other {name : String} (h : name ∈ ["AP-Ssid", "AP-Bssid", "AP-Key", "AP-Name", "RP-KeyType",
    if ps5 then "PS5-Nickname" else "PS4-Nickname"]) (key : RegistKey) : ascii name ≠ ascii (key.name ps5) := by
  revert name
  cases ps5 <;> cases key <;> decide

theorem registParseHeader_cases (ps5 : Bool) (s : RegistPayload) (header : HttpHeader) :
    RegistHeader ps5 s header (registParseHeader ps5 s header) := by
  have hother : ∀ {name : String} {s' : RegistPayload}, header.key.bytes = ascii name →
      name ∈ ["AP-Ssid", "AP-Bssid", "AP-Key", "AP-Name", "RP-KeyType",
        if ps5 then "PS5-Nickname" else "PS4-Nickname"] →
      (∀ key : RegistKey, key.stored s' = key.stored s) → RegistHeader ps5 s header s' :=
    fun hname hmem hsame => .other _ (fun key => hname ▸ name_ne_other hmem key) hsame
  rw [registParseHeader]
  by_cases hssid : header.key.bytes = ascii "AP-Ssid"
  · rw [if_pos hssid]
    exact hother hssid (by simp) fun key => by cases key <;> rfl
  rw [if_neg hssid]
  by_cases hbssid : header.key.bytes = ascii "AP-Bssid"
  · rw [if_pos hbssid]
    exact hother hbssid (by simp) fun key => by cases key <;> rfl
  rw [if_neg hbssid]
  by_cases hkey : header.key.bytes = ascii "AP-Key"
  · rw [if_pos hkey]
    exact hother hkey (by simp) fun key => by cases key <;> rfl
  rw [if_neg hkey]
  by_cases hname : header.key.bytes = ascii "AP-Name"
  · rw [if_pos hname]
    exact hother hname (by simp) fun key => by cases key <;> rfl
  rw [if_neg hname]
  by_cases hnickname : header.key.bytes = ascii (if ps5 then "PS5-Nickname" else "PS4-Nickname")
  · rw [if_pos hnickname]
    exact hother hnickname (by simp) fun key => by cases key <;> rfl
  rw [if_neg hnickname]
  by_cases hregist : header.key.bytes = ascii (if ps5 then "PS5-RegistKey" else "PS4-RegistKey")
  · rw [if_pos hregist]
    exact .key .regist hregist
  rw [if_neg hregist]
  by_cases htype : header.key.bytes = ascii "RP-KeyType"
  · rw [if_pos htype]
    exact hother htype (by simp) fun key => by cases key <;> rfl
  rw [if_neg htype]
  by_cases hrp : header.key.bytes = ascii "RP-Key"
  · rw [if_pos hrp]
    exact .key .rp hrp
  rw [if_neg hrp]
  by_cases hmac : header.key.bytes = ascii (if ps5 then "PS5-Mac" else "PS4-Mac")
  · rw [if_pos hmac]
    exact .key .mac hmac
  rw [if_neg hmac]
  refine .other _ (fun key => ?_) fun _ => rfl
  cases key with
  | regist => exact hregist
  | rp => exact hrp
  | mac => exact hmac

theorem name_inj {key key' : RegistKey} (h : ascii (key.name ps5) = ascii (key'.name ps5)) : key = key' := by
  revert h
  cases ps5 <;> cases key <;> cases key' <;> decide

theorem stored_parse_other {key key' : RegistKey} (h : key' ≠ key) (value : CString) :
    key'.stored (key.parse s value) = key'.stored s := by
  cases key with
  | regist =>
    rw [RegistKey.parse, registParseRegistKey]
    split <;> cases key' <;> first | rfl | exact absurd rfl h
  | rp =>
    rw [RegistKey.parse, registParseKey]
    split <;> cases key' <;> first | rfl | exact absurd rfl h
  | mac =>
    rw [RegistKey.parse, registParseMac]
    split <;> cases key' <;> first | rfl | exact absurd rfl h

/-- A value that has to fill its array. -/
theorem parseHex_exact (buf hex : Bytes) :
    (∃ data, hexBytes hex = some data ∧ data.length = buf.length ∧
      parseHex buf hex = (data, buf.length, .success)) ∨
    (∀ data, hexBytes hex = some data → data.length ≠ buf.length) ∧
      ((parseHex buf hex).2.2 ≠ .success ∨ (parseHex buf hex).2.1 ≠ buf.length) := by
  cases hdata : hexBytes hex with
  | none => exact .inr ⟨nofun, .inl (parseHex_error (by simp [hdata]))⟩
  | some data =>
    by_cases hfits : data.length = buf.length
    · refine .inl ⟨data, rfl, hfits, ?_⟩
      rw [parseHex_some hdata (Nat.le_of_eq hfits), splice_all hfits, hfits]
    · refine .inr ⟨fun _ h => (Option.some.inj h) ▸ hfits, ?_⟩
      by_cases hle : data.length ≤ buf.length
      · rw [parseHex_some hdata hle]
        exact .inr hfits
      · refine .inl (parseHex_error fun data' hdata' => ?_)
        cases hdata.symm.trans hdata'
        exact Nat.not_le.mp hle

theorem decode_of_size (key : RegistKey) {value : CString} (h : hexBytes value.bytes = some data)
    (hfits : key.Fits data.length) (hlen : data.length = key.size) : key.decode value = some data := by
  rw [RegistKey.decode_some key h hfits, hlen, Nat.sub_self, List.replicate_zero, List.append_nil]

/-- **A branch of the loop stores its key.** -/
theorem stored_parse_self (hs : s.Sized) (key : RegistKey) (value : CString) :
    key.stored (key.parse s value) = key.store (key.stored s) value := by
  cases key with
  | regist =>
    have hlen : s.host.rpRegistKey.length = 0x10 := hs .regist
    have hzeros : (List.replicate 0x10 (0 : UInt8)).length = 0x10 := List.length_replicate
    rw [RegistKey.parse, registParseRegistKey, RegistKey.store, hlen]
    by_cases hfits : ∃ data, hexBytes value.bytes = some data ∧ data.length ≤ 0x10
    · obtain ⟨data, hdata, hle⟩ := hfits
      have hparse := @parseHex_some (List.replicate 0x10 0) _ data hdata (hzeros.symm ▸ hle)
      have hsplice : splice (List.replicate 0x10 0) 0 data = data ++ List.replicate (0x10 - data.length) 0 := by
        rw [splice, List.take_zero, List.nil_append, Nat.zero_add, List.drop_replicate]
      rw [RegistKey.decode_some .regist hdata hle]
      simp only [hparse, ne_eq, not_true_eq_false, if_false, hsplice]
      rfl
    · have herr := @parseHex_error (List.replicate 0x10 0) value.bytes fun data hdata =>
        hzeros.symm ▸ Nat.not_le.mp fun hle => hfits ⟨data, hdata, hle⟩
      rw [RegistKey.decode_none .regist fun data hdata hle => hfits ⟨data, hdata, hle⟩]
      simp only [if_pos herr]
      rfl
  | rp =>
    have hlen : s.host.rpKey.length = 0x10 := hs .rp
    rw [RegistKey.parse, registParseKey, RegistKey.store]
    rcases parseHex_exact s.host.rpKey value.bytes with ⟨data, hdata, hfits, hparse⟩ | ⟨hnot, herr⟩
    · rw [hlen] at hfits
      rw [decode_of_size .rp hdata hfits hfits, if_neg (by simp [hparse])]
      simp only [hparse]
      rfl
    · rw [RegistKey.decode_none .rp fun data hdata h => hnot data hdata (h.trans hlen.symm), if_pos herr, hlen]
      rfl
  | mac =>
    have hlen : s.host.serverMac.length = 6 := hs .mac
    rw [RegistKey.parse, registParseMac, RegistKey.store]
    rcases parseHex_exact s.host.serverMac value.bytes with ⟨data, hdata, hfits, hparse⟩ | ⟨hnot, herr⟩
    · rw [hlen] at hfits
      rw [decode_of_size .mac hdata hfits hfits, if_neg (by simp [hparse])]
      simp only [hparse]
      rfl
    · rw [RegistKey.decode_none .mac fun data hdata h => hnot data hdata (h.trans hlen.symm), if_pos herr, hlen]
      rfl

/-! ## The loop -/

theorem registParseHeader_stored (hs : s.Sized) (key : RegistKey) (header : HttpHeader) :
    key.stored (registParseHeader ps5 s header)
      = if header.key.bytes = ascii (key.name ps5) then key.store (key.stored s) header.value
        else key.stored s := by
  have hcases := registParseHeader_cases ps5 s header
  generalize registParseHeader ps5 s header = s' at hcases ⊢
  cases hcases with
  | key key' hname =>
    by_cases hkey : key = key'
    · rw [hkey, if_pos hname, stored_parse_self hs]
    · rw [if_neg fun h => hkey (name_inj (h.symm.trans hname)), stored_parse_other hkey]
  | other _ hname hsame => rw [if_neg (hname key), hsame key]

theorem RegistPayload.Sized.next (hs : s.Sized) (header : HttpHeader) :
    (registParseHeader ps5 s header).Sized := by
  intro key
  have hstored := congrArg Prod.fst (@registParseHeader_stored ps5 s hs key header)
  by_cases hname : header.key.bytes = ascii (key.name ps5)
  · rw [if_pos hname] at hstored
    exact (congrArg List.length hstored).trans (RegistKey.length_store key _ _)
  · rw [if_neg hname] at hstored
    exact (congrArg List.length hstored).trans (hs key)

/-- **The loop is a loop for each key**, over the values of its name. -/
theorem registParseHeaders_stored (hs : s.Sized) (key : RegistKey) :
    key.stored (headers.foldl (registParseHeader ps5) s)
      = (headerValues (key.name ps5) headers).foldl key.store (key.stored s) := by
  induction headers generalizing s with
  | nil => rfl
  | cons header headers ih =>
    rw [List.foldl_cons, ih (hs.next header), registParseHeader_stored hs, headerValues_cons]
    by_cases hname : header.key.bytes = ascii (key.name ps5)
    · rw [if_pos hname, if_pos hname, List.foldl_cons]
    · rw [if_neg hname, if_neg hname]

namespace RegistKey

/-- The flag stays. -/
theorem foldl_store_found (key : RegistKey) (values : List CString) (stored : Bytes × Bool) :
    (values.foldl key.store stored).2 = true ↔ stored.2 = true ∨ ∃ value ∈ values, key.decode value ≠ none := by
  induction values generalizing stored with
  | nil => simp
  | cons value values ih =>
    rw [List.foldl_cons, ih, store]
    cases hdecode : key.decode value with
    | none => simp [hdecode]
    | some data => simp [hdecode]

theorem store_field (key : RegistKey) (stored : Bytes × Bool) (value : CString) :
    (key.store stored value).1 = (key.decode value).getD (List.replicate key.size 0) := by
  rw [store]
  cases key.decode value with
  | none => rfl
  | some data => rfl

/-- The last value is stored. -/
theorem foldl_store_field (key : RegistKey) {values : List CString} {last : CString}
    (hlast : values.getLast? = some last) (stored : Bytes × Bool) :
    (values.foldl key.store stored).1 = (key.decode last).getD (List.replicate key.size 0) := by
  obtain ⟨init, rfl⟩ := List.getLast?_eq_some_iff.mp hlast
  rw [List.foldl_append]
  exact store_field key _ last

/-- The values of a key in a response. -/
def values (target : Target) (headers : List HttpHeader) (key : RegistKey) : List CString :=
  headerValues (key.name target.isPs5) headers

/-- A valid value of the response stands for what is stored. -/
def Decoded (target : Target) (headers : List HttpHeader) (key : RegistKey) (stored : Bytes) : Prop :=
  ∃ value ∈ key.values target headers, key.decode value = some stored

/-- Every value is invalid, or there is an invalid one behind all the valid ones. -/
def Overwritten (target : Target) (headers : List HttpHeader) (key : RegistKey) : Prop :=
  (∀ value ∈ key.values target headers, key.decode value = none) ∨
    ∃ value, (key.values target headers).getLast? = some value ∧ key.decode value = none

end RegistKey

variable {target : Target}

/-- What has been stored is the value of a valid header. With a key that was not valid, or that an invalid
header has overwritten, there is no success. -/
structure RegistIntegrity (target : Target) (headers : List HttpHeader) : Prop where
  decoded : (registParseHeaders target headers).2 = .success →
    ∀ key : RegistKey, key.Decoded target headers (key.field (registParseHeaders target headers).1)
  overwritten : ∀ key : RegistKey, key.Overwritten target headers →
    ¬ ((registParseHeaders target headers).2 = .success ∧
      (key.field (registParseHeaders target headers).1 = List.replicate key.size 0 ∨
        ¬ key.Decoded target headers (key.field (registParseHeaders target headers).1)))

/-- One of the keys has no valid value, or the last value of each key is valid. -/
def LastKeysValid (target : Target) (headers : List HttpHeader) : Prop :=
  (∃ key : RegistKey, ∀ value ∈ key.values target headers, key.decode value = none) ∨
    ∀ (key : RegistKey) value, (key.values target headers).getLast? = some value → key.decode value ≠ none

/-- The loop over all headers. -/
def registPayload (target : Target) (headers : List HttpHeader) : RegistPayload :=
  headers.foldl (registParseHeader target.isPs5) ⟨.cleared target, false, false, false⟩

theorem registPayload_stored (target : Target) (headers : List HttpHeader) (key : RegistKey) :
    key.stored (registPayload target headers)
      = (key.values target headers).foldl key.store (List.replicate key.size 0, false) := by
  have hsized : (⟨.cleared target, false, false, false⟩ : RegistPayload).Sized := fun key => by
    cases key with
    | regist => exact List.length_replicate
    | rp => exact List.length_replicate
    | mac => exact List.length_replicate
  rw [registPayload, registParseHeaders_stored hsized]
  cases key with
  | regist => rfl
  | rp => rfl
  | mac => rfl

theorem registParseHeaders_fst (target : Target) (headers : List HttpHeader) :
    (registParseHeaders target headers).1 = (registPayload target headers).host := by
  rw [registParseHeaders, ← registPayload]
  split
  · rfl
  · split
    · rfl
    · split <;> rfl

/-- It succeeds if every key was found. -/
theorem registParseHeaders_success : (registParseHeaders target headers).2 = .success ↔
    ∀ key : RegistKey, ∃ value ∈ key.values target headers, key.decode value ≠ none := by
  have hfound : ∀ key : RegistKey, key.found (registPayload target headers) = true ↔
      ∃ value ∈ key.values target headers, key.decode value ≠ none := by
    intro key
    have hstored := congrArg Prod.snd (registPayload_stored target headers key)
    rw [show key.found (registPayload target headers) = _ from hstored, RegistKey.foldl_store_found]
    simp
  rw [← forall_congr' hfound, registParseHeaders, ← registPayload]
  constructor
  · intro h key
    split at h
    · cases h
    · next hregist =>
      split at h
      · cases h
      · next hrp =>
        split at h
        · cases h
        · next hmac =>
          cases key with
          | regist => exact Bool.eq_true_of_not_eq_false hregist
          | rp => exact Bool.eq_true_of_not_eq_false hrp
          | mac => exact Bool.eq_true_of_not_eq_false hmac
  · intro h
    have hregist : (registPayload target headers).registKeyFound = true := h .regist
    have hrp : (registPayload target headers).keyFound = true := h .rp
    have hmac : (registPayload target headers).macFound = true := h .mac
    simp [hregist, hrp, hmac]

/-- What is stored is the last value, or zeros if it is invalid. -/
theorem registParseHeaders_field {key : RegistKey} {value : CString}
    (hlast : (key.values target headers).getLast? = some value) :
    key.field (registParseHeaders target headers).1 = (key.decode value).getD (List.replicate key.size 0) := by
  have hstored := congrArg Prod.fst (registPayload_stored target headers key)
  rw [registParseHeaders_fst, show key.field (registPayload target headers).host = _ from hstored]
  exact RegistKey.foldl_store_field key hlast _

/-- **What is stored as keys is what valid headers say, if and only if the last value of each key is valid**
or one key has no valid value at all. -/
theorem registIntegrity_iff (target : Target) (headers : List HttpHeader) :
    RegistIntegrity target headers ↔ LastKeysValid target headers := by
  constructor
  · intro h
    by_cases hnone : ∃ key : RegistKey, ∀ value ∈ key.values target headers, key.decode value = none
    · exact .inl hnone
    · have hsuccess := registParseHeaders_success.mpr fun key => by
        by_contra hinvalid
        exact hnone ⟨key, fun value hvalue => by_contra fun hne => hinvalid ⟨value, hvalue, hne⟩⟩
      refine .inr fun key value hlast hinvalid => ?_
      -- an invalid value behind valid ones has cleared the key
      have hfield := registParseHeaders_field hlast
      rw [hinvalid] at hfield
      exact h.overwritten key (.inr ⟨value, hlast, hinvalid⟩) ⟨hsuccess, .inl hfield⟩
  · rintro (⟨key, hnone⟩ | hlast)
    · have hfailed : (registParseHeaders target headers).2 ≠ .success := by
        intro h
        obtain ⟨value, hvalue, hne⟩ := registParseHeaders_success.mp h key
        exact hne (hnone value hvalue)
      exact ⟨fun h => absurd h hfailed, fun _ _ h => hfailed h.1⟩
    · constructor
      · intro hsuccess key
        obtain ⟨value, hvalue, -⟩ := registParseHeaders_success.mp hsuccess key
        obtain ⟨last, hlast'⟩ : ∃ last, (key.values target headers).getLast? = some last :=
          ⟨_, List.getLast?_eq_some_getLast (List.ne_nil_of_mem hvalue)⟩
        obtain ⟨data, hdata⟩ := Option.ne_none_iff_exists'.mp (hlast key last hlast')
        rw [registParseHeaders_field hlast', hdata]
        exact ⟨last, List.mem_of_getLast? hlast', hdata⟩
      · rintro key (hnone | ⟨value, hlast', hinvalid⟩) ⟨hsuccess, -⟩
        · obtain ⟨value, hvalue, hne⟩ := registParseHeaders_success.mp hsuccess key
          exact hne (hnone value hvalue)
        · exact hlast key value hlast' hinvalid

/-- The headers that are looked at are those of the payload. -/
theorem registParseResponsePayload_eq {malloc : Nat → Bool} {mem mem' : Bytes} {off size : Nat}
    {entries : List HttpHeaderEntry} (hparse : httpHeaderParse malloc mem off size = .ok (mem', .ok entries))
    (hread : readHeaders mem' entries = some headers) (host : RegisteredHost) :
    registParseResponsePayload malloc target host mem off size = .ok (registParseHeaders target headers) := by
  simp only [registParseResponsePayload, hparse, bind, Except.bind, hread]
  rfl

/-- The headers of a response, and in front of a valid `RP-Key` another one with one digit. The list begins
with the last header of the text. -/
def duplicateKey : List HttpHeader :=
  [⟨⟨ascii "PS5-RegistKey", by decide⟩, ⟨ascii "3132", by decide⟩⟩,
    ⟨⟨ascii "PS5-Mac", by decide⟩, ⟨ascii "010203040506", by decide⟩⟩,
    ⟨⟨ascii "RP-Key", by decide⟩, ⟨ascii "000102030405060708090a0b0c0d0e0f", by decide⟩⟩,
    ⟨⟨ascii "RP-Key", by decide⟩, ⟨ascii "0", by decide⟩⟩]

/-- The text of these headers. -/
def duplicateKeyText : Bytes :=
  ascii ("RP-Key: 0\r\nRP-Key: 000102030405060708090a0b0c0d0e0f\r\n" ++
    "PS5-Mac: 010203040506\r\nPS5-RegistKey: 3132\r\n")

/-- The registration succeeds with a key of zeros. -/
theorem not_registIntegrity :
    (∃ mem' entries, httpHeaderParse (fun _ => true) duplicateKeyText 0 97 = .ok (mem', .ok entries) ∧
      readHeaders mem' entries = some duplicateKey) ∧
    (registParseHeaders .ps51 duplicateKey).2 = .success ∧
    (registParseHeaders .ps51 duplicateKey).1.rpKey = List.replicate 0x10 0 ∧
    ¬ RegistIntegrity .ps51 duplicateKey := by
  have hsuccess : (registParseHeaders .ps51 duplicateKey).2 = .success := by decide +kernel
  have hzeros : (registParseHeaders .ps51 duplicateKey).1.rpKey = List.replicate 0x10 0 := by decide +kernel
  refine ⟨⟨[6, 9, 17, 51, 60, 74, 89, 95].foldl (fun mem i => mem.set i 0) duplicateKeyText,
    [⟨76, 91⟩, ⟨53, 62⟩, ⟨11, 19⟩, ⟨0, 8⟩], ?_, ?_⟩, hsuccess, hzeros, fun h => ?_⟩
  · decide +kernel
  · decide +kernel
  · refine h.overwritten .rp (.inr ⟨⟨ascii "0", by decide⟩, ?_, ?_⟩) ⟨hsuccess, .inl hzeros⟩
    · decide +kernel
    · decide +kernel

end Chiaki
