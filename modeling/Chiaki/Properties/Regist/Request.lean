import Chiaki.Properties.Base64
import Chiaki.Properties.Http
import Chiaki.Properties.Http.Header
import Chiaki.Properties.RPCrypt

/-!
# What a console reads of a registration request

* `registPayloadKeys_read` — the keys are found again, wherever the offsets are
* `registRequest_read` — what was encrypted is decrypted, with the right pin
* `registRequest_identity` — the headers in it say who registers
* `registRequestHeader_fits` — the header in front of the payload
-/

namespace Chiaki

open Infra

variable {lib : CryptoLib} {target : Target} {ambassador : RPKey} {crypt : RPCryptKeys} {buf text : Bytes}
  {off size bufSize pin : Nat} {psnOnlineId : Option CString}
  {psnAccountId : Option (Vector UInt8 psnAccountIdSize)} {p : RegistRequestPayload}

/-! ## Printing -/

/-- A text that fits is printed, with a NUL. -/
theorem snprintf_fits (hsize : off + size ≤ buf.length) (hfits : text.length < size) (hint : text.length < 2 ^ 31) :
    snprintf buf off size text = .ok (splice buf off (text ++ [0]), text.length) := by
  have htake : text.take (size - 1) = text := List.take_of_length_le (by omega)
  have hlength : (text ++ [0]).length = text.length + 1 := List.length_append
  simp only [snprintf]
  rw [if_neg (show size ≠ 0 by omega), htake, if_neg (by omega), if_pos hint]

theorem snprintf_result {buf' : Bytes} {r : Int} (h : snprintf buf off size text = .ok (buf', r)) :
    r = if text.length < 2 ^ 31 then (text.length : Int) else -1 := by
  simp only [snprintf] at h
  generalize (if size = 0 then [] else text.take (size - 1) ++ [0]) = data at h
  split at h
  · cases h
  · cases h
    rfl

/-- The result of `snprintf` says whether the text fits. -/
theorem snprintf_ok {buf' : Bytes} {r : Int} (hsize : off + size ≤ buf.length)
    (h : snprintf buf off size text = .ok (buf', r)) (hr : ¬ (r < 0 ∨ r.toNat ≥ size)) :
    r.toNat = text.length ∧ text.length < size ∧ buf' = splice buf off (text ++ [0]) := by
  have hresult := snprintf_result h
  by_cases hint : text.length < 2 ^ 31
  · rw [if_pos hint] at hresult
    subst hresult
    rw [Int.toNat_natCast] at hr ⊢
    have hfits : text.length < size := by omega
    rw [snprintf_fits hsize hfits hint] at h
    cases h
    exact ⟨rfl, hfits, rfl⟩
  · rw [if_neg hint] at hresult
    subst hresult
    exact absurd (.inl (by decide)) hr

/-! ## The keys -/

theorem keyOfBytes_toList (key : RPKey) : keyOfBytes key.toList = key := by
  apply RPKey.ext
  intro i
  rw [keyOfBytes, get_ofFn]
  show key.toList.getD i.val 0 = key[i.val]
  rw [List.getD_eq_getElem?_getD, Vector.getElem?_toList, Vector.getElem?_eq_getElem i.isLt, Option.getD_some]

/-- What lies in the first part of two buffers is the same if this part is. -/
theorem slice_of_take {a b : Bytes} {n : Nat} (h : a.take n = b.take n) {k : Nat} (hle : off + k ≤ n) :
    slice a off k = slice b off k := by
  have hcut (c : Bytes) : slice c off k = slice (c.take n) off k := by
    rw [slice, slice, List.drop_take, List.take_take, Nat.min_eq_left (by omega)]
  rw [hcut a, hcut b, h]

theorem u8At_of_take {a b : Bytes} {n : Nat} (h : a.take n = b.take n) (hlt : off < n) : u8At a off = u8At b off := by
  have hcut (data : Bytes) : data[off]? = (data.take n)[off]? := (List.getElem?_take_of_lt hlt).symm
  rw [u8At, u8At, List.getD_eq_getElem?_getD, List.getD_eq_getElem?_getD, hcut a, hcut b, h]

theorem u8At_splice_of_not {data : Bytes} {i : Nat} (h : off + data.length ≤ buf.length)
    (hi : ¬ (off ≤ i ∧ i < off + data.length)) : u8At (splice buf off data) i = u8At buf i := by
  rw [u8At, u8At, List.getD_eq_getElem?_getD, List.getD_eq_getElem?_getD, getElem?_splice_of_not h hi]

/-- **The keys are found again** by who knows the pin, whatever the first part of the payload held before. -/
theorem registPayloadKeys_read (target : Target) (ambassador : RPKey) (pin : Nat)
    (hbuf : registInnerHeaderOff ≤ buf.length) :
    ∃ front crypt, registPayloadKeys target ambassador buf pin = .ok (.ok (front, crypt)) ∧
      front.length = buf.length ∧ crypt.ambassador = ambassador ∧
      ∀ payload : Bytes, payload.take registInnerHeaderOff = front.take registInnerHeaderOff →
        registReadKeys target pin payload = .ok (.ok crypt) := by
  have hoff : registInnerHeaderOff = 0x1e0 := rfl
  by_cases hpre : target.value < Target.ps410.value
  · have hlength (key : RPKey) : key.toList.length = 0x10 := Vector.length_toList
    refine ⟨_, rpcryptInitRegistPs4Pre10 ambassador pin, by rw [registPayloadKeys, if_pos hpre]; rfl, ?_, rfl, ?_⟩
    · rw [length_splice (by rw [hlength]; omega)]
    · intro payload hfront
      rw [registReadKeys, if_pos hpre, slice_of_take hfront (by omega),
        slice_splice (hlength _) (by omega), keyOfBytes_toList]
      show Except.ok (Except.ok (rpcryptInitRegistPs4Pre10 (unhidePs4Pre10 _) pin)) = _
      rw [unhide_aeropausePs4Pre10]
      rfl
  · have hkey0 : u8At buf 0x18D &&& 0x1F < 0x20 := Nat.lt_of_le_of_lt Nat.and_le_right (by decide)
    have hkey1 : u8At buf 0 >>> 3 < 0x20 := by
      have := u8At_lt buf 0
      rw [Nat.shiftRight_eq_div_pow]
      omega
    obtain ⟨k0, hk0⟩ := tableKey_ok (length_registKeys target.isPs5).1 hkey0
    obtain ⟨k1, aeropause, hk1, haeropause, hunhide⟩ := unhide_aeropause ambassador hpre hkey1
    have hinit (a : RPKey) : rpcryptInitRegist target a (u8At buf 0x18D &&& 0x1F) pin
        = .ok (.ok ⟨target, pinXor k0 0xc pin, a⟩) := by
      rw [rpcryptInitRegist, if_neg hpre, if_neg (by omega), hk0]
      rfl
    have hfirst : (aeropause.toList.take 8).length = 8 := by
      rw [List.length_take, Vector.length_toList]
      rfl
    have hsecond : (aeropause.toList.drop 8).length = 8 := by
      rw [List.length_drop, Vector.length_toList]
    have hmid : (splice buf 0xc7 (aeropause.toList.drop 8)).length = buf.length := length_splice (by omega)
    refine ⟨splice (splice buf 0xc7 (aeropause.toList.drop 8)) 0x191 (aeropause.toList.take 8),
      ⟨target, pinXor k0 0xc pin, ambassador⟩, ?_, ?_, rfl, ?_⟩
    · rw [registPayloadKeys, if_neg hpre]
      simp only [hinit, bind, Except.bind, haeropause, pure, Except.pure]
    · rw [length_splice (by omega), hmid]
    · intro payload hfront
      have hbyte {i : Nat} (hi : i = 0 ∨ i = 0x18D) : u8At payload i = u8At buf i := by
        rw [u8At_of_take hfront (by omega), u8At_splice_of_not (by omega) (by omega),
          u8At_splice_of_not (by omega) (by omega)]
      have hhidden : slice payload 0x191 8 ++ slice payload 0xc7 8 = aeropause.toList := by
        rw [slice_of_take hfront (by omega), slice_of_take hfront (by omega), slice_splice hfirst (by omega),
          slice_splice_of_le (by omega) (by omega), slice_splice hsecond (by omega), List.take_append_drop]
      rw [registReadKeys, if_neg hpre, hbyte (.inl rfl), hbyte (.inr rfl), hhidden, keyOfBytes_toList, hk1]
      show rpcryptInitRegist target (unhide target.isPs5 k1 aeropause) _ pin = _
      rw [hunhide, hinit]

/-- The key says what the pin was. -/
theorem registReadKeys_inj {pin' : Nat} {payload : Bytes} {keys keys' : RPCryptKeys} (hpin : pin < 2 ^ 32)
    (hpin' : pin' < 2 ^ 32) (h : registReadKeys target pin payload = .ok (.ok keys))
    (h' : registReadKeys target pin' payload = .ok (.ok keys')) (heq : keys.bright = keys'.bright) : pin = pin' := by
  unfold registReadKeys at h h'
  split at h
  · next hpre =>
    rw [if_pos hpre] at h'
    cases h
    cases h'
    exact pinXor_inj (by decide) hpin hpin' heq
  · next hpre =>
    rw [if_neg hpre] at h'
    obtain ⟨k, hk, h⟩ := bind_eq_ok_iff.mp h
    obtain ⟨k', hk', h'⟩ := bind_eq_ok_iff.mp h'
    have hkey0 : ¬ (u8At payload 0x18D &&& 0x1F) ≥ 0x20 :=
      Nat.not_le.mpr (Nat.lt_of_le_of_lt Nat.and_le_right (by decide))
    obtain ⟨k0, hk0⟩ := tableKey_ok (length_registKeys target.isPs5).1 (Nat.lt_of_not_le hkey0)
    rw [rpcryptInitRegist, if_neg hpre, if_neg hkey0, hk0] at h h'
    cases h
    cases h'
    exact pinXor_inj (by decide) hpin hpin' heq

/-! ## The payload -/

/-- What a payload is made of. -/
structure RegistPayloadParts (lib : CryptoLib) (target : Target) (ambassador : RPKey) (psnOnlineId : Option CString)
    (psnAccountId : Option (Vector UInt8 psnAccountIdSize)) (pin : Nat) (p : RegistRequestPayload)
    (payload text : Bytes) : Prop where
  keys : registReadKeys target pin payload = .ok (.ok p.crypt)
  ambassador : p.crypt.ambassador = ambassador
  header : registInnerHeader target psnOnlineId psnAccountId = .ok (.ok text)
  decrypt : rpcryptDecrypt lib p.crypt 0 (payload.drop registInnerHeaderOff) = .ok text
  length : payload.length = registInnerHeaderOff + text.length

theorem registInnerHeader_error {err : ErrorCode}
    (h : registInnerHeader target psnOnlineId psnAccountId = .ok (.error err)) : err ≠ .success := by
  unfold registInnerHeader at h
  split at h
  · cases h
  · cases h
    exact ErrorCode.noConfusion
  · obtain ⟨⟨accountId, err'⟩, -, h⟩ := bind_eq_ok_iff.mp h
    simp only at h
    split at h
    · next hne =>
      cases h
      exact hne
    · split at h
      · cases h
      · cases h

theorem rpcryptEncrypt_error {keys : RPCryptKeys} {counter : Nat} {plain : Bytes} {err : ErrorCode}
    (h : rpcryptEncrypt lib keys counter plain = .error err) : err = .unknown := by
  unfold rpcryptEncrypt rpcryptCrypt at h
  cases hiv : rpcryptGenerateIv lib keys counter with
  | error err' =>
    rw [hiv] at h
    cases h
    simp only [rpcryptGenerateIv] at hiv
    split at hiv
    · cases hiv
      rfl
    · split at hiv
      · cases hiv
        rfl
      · cases hiv
  | ok iv =>
    simp only [hiv, bind, Except.bind] at h
    split at h
    · cases h
      rfl
    · cases h

theorem registRequestPayloadFormat_parts (hsize : bufSize ≤ buf.length)
    (h : registRequestPayloadFormat lib target ambassador buf bufSize crypt psnOnlineId psnAccountId pin = .ok p)
    (hok : p.err = .success) :
    p.bufSize < bufSize ∧
      ∃ text, RegistPayloadParts lib target ambassador psnOnlineId psnAccountId pin p (p.buf.take p.bufSize) text := by
  unfold registRequestPayloadFormat at h
  split at h
  · cases h
    cases hok
  next hlarge =>
  split at h
  · cases h
  next hbuf =>
  have hoff : (List.replicate registInnerHeaderOff (0x41 : UInt8)).length = registInnerHeaderOff :=
    List.length_replicate
  have hfilled : (splice buf 0 (List.replicate registInnerHeaderOff 0x41)).length = buf.length :=
    length_splice (by omega)
  obtain ⟨front, keys, hkeys, hfront, hambassador, hread⟩ :=
    @registPayloadKeys_read (splice buf 0 (List.replicate registInnerHeaderOff 0x41)) target ambassador pin (by omega)
  rw [hfilled] at hfront
  simp only [hkeys, bind, Except.bind] at h
  cases hheader : registInnerHeader target psnOnlineId psnAccountId with
  | error f =>
    rw [hheader] at h
    cases h
  | ok result =>
    cases result with
    | error err =>
      rw [hheader] at h
      cases h
      exact absurd hok (registInnerHeader_error hheader)
    | ok text =>
      simp only [hheader] at h
      cases hprint : snprintf front registInnerHeaderOff (bufSize - registInnerHeaderOff) text with
      | error f =>
        rw [hprint] at h
        cases h
      | ok printed =>
        obtain ⟨buf', r⟩ := printed
        simp only [hprint] at h
        split at h
        · cases h
          cases hok
        next hr =>
        obtain ⟨hr, hfits, rfl⟩ := snprintf_ok (by omega) hprint hr
        have htext : (text ++ [0]).length = text.length + 1 := List.length_append
        -- the NUL that `snprintf` has written is not encrypted
        have hplain : slice (splice front registInnerHeaderOff (text ++ [0])) registInnerHeaderOff text.length = text := by
          have hall : slice (splice front registInnerHeaderOff (text ++ [0])) registInnerHeaderOff (text.length + 1)
              = text ++ [0] := slice_splice htext (by omega)
          rw [← slice_append_slice] at hall
          exact (List.append_inj hall (length_slice (by rw [length_splice (by omega)]; omega))).1
        rw [hr, hplain] at h
        cases henc : rpcryptEncrypt lib keys 0 text with
        | error err =>
          simp only [henc] at h
          cases h
          cases (rpcryptEncrypt_error henc).symm.trans hok
        | ok enc =>
          simp only [henc] at h
          cases h
          obtain ⟨hlength, hdecrypt⟩ := rpcryptEncrypt_ok henc
          have hpayload : (splice (splice front registInnerHeaderOff (text ++ [0])) registInnerHeaderOff enc).take
              (registInnerHeaderOff + text.length) = front.take registInnerHeaderOff ++ enc := by
            rw [← hlength, take_splice (by rw [length_splice (by omega)]; omega)]
            refine congrArg (· ++ enc) ?_
            rw [splice, List.append_assoc, List.take_append_of_le_length (by rw [List.length_take]; omega),
              List.take_take, Nat.min_self]
          have hhead : (front.take registInnerHeaderOff).length = registInnerHeaderOff := by
            rw [List.length_take]
            omega
          refine ⟨?_, text, ?_⟩
          · show registInnerHeaderOff + text.length < bufSize
            omega
          · simp only [hpayload]
            exact
              { keys := hread _ (by rw [List.take_append_of_le_length (by omega), List.take_take, Nat.min_self])
                ambassador := hambassador
                header := hheader
                decrypt := by
                  rw [List.drop_append_of_le_length (by omega), List.drop_of_length_le (by omega), List.nil_append]
                  exact hdecrypt
                length := by rw [List.length_append, hhead, hlength] }

/-- **A registration request is read by who knows the pin:** its keys are found again, with the ambassador, and what
was encrypted with them is decrypted. Who has another pin has another key. -/
theorem registRequest_read (hsize : bufSize ≤ buf.length) (hpin : pin < 2 ^ 32)
    (h : registRequestPayloadFormat lib target ambassador buf bufSize crypt psnOnlineId psnAccountId pin = .ok p)
    (hok : p.err = .success) :
    p.bufSize < bufSize ∧
      (∃ text, registReadKeys target pin (p.buf.take p.bufSize) = .ok (.ok p.crypt) ∧ p.crypt.ambassador = ambassador ∧
        rpcryptDecrypt lib p.crypt 0 ((p.buf.take p.bufSize).drop registInnerHeaderOff) = .ok text ∧
        registInnerHeader target psnOnlineId psnAccountId = .ok (.ok text)) ∧
      ∀ pin' < 2 ^ 32, ∀ keys, registReadKeys target pin' (p.buf.take p.bufSize) = .ok (.ok keys) →
        keys.bright = p.crypt.bright → pin' = pin := by
  obtain ⟨hlt, text, hparts⟩ := registRequestPayloadFormat_parts hsize h hok
  refine ⟨hlt, ⟨text, hparts.keys, hparts.ambassador, hparts.decrypt, hparts.header⟩, fun pin' hpin' keys hkeys heq => ?_⟩
  exact registReadKeys_inj hpin' hpin hkeys hparts.keys heq

/-- A request with an account and the pin 12345678. -/
def exampleRegistRequest : Except Fault RegistRequestPayload :=
  registRequestPayloadFormat exampleLib .ps51 (Vector.replicate 0x10 7) (List.replicate 0x400 0) 0x400
    ⟨.ps51, Vector.replicate 0x10 0, Vector.replicate 0x10 0⟩ none (some (Vector.replicate 8 3)) 12345678

theorem exampleRegistRequest_ok : ∃ p, exampleRegistRequest = .ok p ∧ p.err = .success ∧ p.bufSize = 0x24b := by
  have hrun : exampleRegistRequest.toOption.map (fun p => (p.err, p.bufSize)) = some (.success, 0x24b) := by
    decide +kernel
  cases h : exampleRegistRequest with
  | error f =>
    rw [h] at hrun
    cases hrun
  | ok p =>
    rw [h] at hrun
    obtain ⟨herr, hsize⟩ := Prod.mk.inj (Option.some.inj hrun)
    exact ⟨p, rfl, herr, hsize⟩

theorem registRequest_read_ps5 : ∃ p : RegistRequestPayload, p.bufSize = 0x24b ∧
    registReadKeys .ps51 12345678 (p.buf.take p.bufSize) = .ok (.ok p.crypt) ∧
    p.crypt.ambassador = Vector.replicate 0x10 7 := by
  obtain ⟨p, hp, hok, hsize⟩ := exampleRegistRequest_ok
  obtain ⟨-, ⟨text, hkeys, hambassador, -⟩, -⟩ := registRequest_read (Nat.le_of_eq List.length_replicate.symm) (by decide) hp hok
  exact ⟨p, hsize, hkeys, hambassador⟩

/-! ## The headers in it -/

/-- A header of a request, as it is printed. -/
def printedHeader (key value : CString) : RenderedHeader := ⟨⟨key, value⟩, true, true⟩

def clientTypeKey : CString := ⟨ascii "Client-Type", by decide⟩

def onlineIdKey : CString := ⟨ascii "Np-Online-Id", by decide⟩

def accountIdKey : CString := ⟨ascii "Np-AccountId", by decide⟩

def clientTypeValue (target : Target) : CString := ⟨registClientType target, by cases target <;> decide⟩

/-- The text of an account. -/
def accountIdValue (id : Vector UInt8 psnAccountIdSize) : CString :=
  ⟨base64Text id.toList, zero_notMem_base64Text id.toList⟩

/-- A string that can be the value of a header. -/
structure HeaderValue (value : Bytes) : Prop where
  ne_nil : value ≠ []
  space : value.head? ≠ some 0x20
  lines : ∀ c ∈ value, c ≠ 0x0d ∧ c ≠ 0x0a

instance (value : Bytes) : Decidable (HeaderValue value) :=
  have : Decidable (∀ c ∈ value, c ≠ 0x0d ∧ c ≠ 0x0a) := List.decidableBAll (fun c => c ≠ 0x0d ∧ c ≠ 0x0a) value
  decidable_of_iff (value ≠ [] ∧ value.head? ≠ some 0x20 ∧ ∀ c ∈ value, c ≠ 0x0d ∧ c ≠ 0x0a)
    ⟨fun h => ⟨h.1, h.2.1, h.2.2⟩, fun h => ⟨h.ne_nil, h.space, h.lines⟩⟩

theorem printedHeader_valid (key : CString) {value : CString} (hne : key.bytes ≠ [])
    (hkey : ∀ c ∈ key.bytes, c ≠ 0x3a ∧ c ≠ 0x0d ∧ c ≠ 0x0a) (hvalue : HeaderValue value.bytes) :
    (printedHeader key value).Valid where
  key_ne := hne
  key := hkey
  value_ne := hvalue.ne_nil
  value_space := hvalue.space
  value := hvalue.lines

theorem headerValue_clientType (target : Target) : HeaderValue (clientTypeValue target).bytes := by
  cases target <;> decide +kernel

/-- A character of a base64 text is one of the alphabet, or a filling. -/
theorem base64Text_chars {data : Bytes} {c : UInt8} (hc : c ∈ base64Text data) : base64Class c < 2 ^ 6 ∨ c = 0x3d := by
  rcases List.mem_append.mp hc with hc | hc
  · obtain ⟨n, hn, rfl⟩ := List.mem_map.mp hc
    have hlt := Sextet.toSextets_lt data n hn
    left
    rw [(base64Class_char n hlt).1]
    exact hlt
  · exact .inr (List.eq_of_mem_replicate hc)

theorem headerValue_accountId (id : Vector UInt8 psnAccountIdSize) : HeaderValue (accountIdValue id).bytes := by
  have hnone (c : UInt8) (hc : c ∈ base64Text id.toList) : c ≠ 0x20 ∧ c ≠ 0x0d ∧ c ≠ 0x0a := by
    have hclass : ¬ (base64Class 0x20 < 2 ^ 6 ∨ base64Class 0x0d < 2 ^ 6 ∨ base64Class 0x0a < 2 ^ 6) := by decide
    have hchar := base64Text_chars hc
    refine ⟨?_, ?_, ?_⟩
    · rintro rfl
      exact hclass (.inl (hchar.resolve_right (by decide)))
    · rintro rfl
      exact hclass (.inr (.inl (hchar.resolve_right (by decide))))
    · rintro rfl
      exact hclass (.inr (.inr (hchar.resolve_right (by decide))))
  refine ⟨fun hnil => ?_, fun hhead => ?_, fun c hc => (hnone c hc).2⟩
  · have hlength := length_base64Text id.toList
    rw [Vector.length_toList, show base64Text id.toList = [] from hnil] at hlength
    exact absurd hlength (by decide)
  · exact (hnone 0x20 (List.mem_of_mem_head? hhead)).1 rfl

/-- Two headers that were printed are read again. -/
theorem httpHeaderParse_printed {malloc : Nat → Bool} {first second : RenderedHeader} (hfirst : first.Valid)
    (hsecond : second.Valid) (hmalloc : ∀ k < 2, malloc k = true) (htext : text = first.render ++ second.render) :
    ∃ mem entries, httpHeaderParse malloc text 0 text.length = .ok (mem, .ok entries) ∧
      readHeaders mem entries = some [second.header, first.header] := by
  have hreads := readsHeaders_render hfirst (readsHeaders_render hsecond (readsHeaders_blank (List.forall_mem_nil _)))
  have hslice : slice text 0 text.length = first.render ++ (second.render ++ []) := by
    rw [slice, List.drop_zero, List.take_length, htext, List.append_nil]
  rw [← hslice] at hreads
  have hresult := httpHeaderParse_reads malloc (Nat.le_of_eq (Nat.zero_add _)) hreads
  generalize httpHeaderParse malloc text 0 text.length = result at hresult ⊢
  cases hresult with
  | success mem entries new hnew hentries hmalloc hlen hbehind =>
    refine ⟨mem, entries, rfl, ?_⟩
    rw [hentries, @eq_of_seenAs [first, second] new hnew]
    rfl
  | memory mem k hk hfalse =>
    rw [Nat.zero_add, hmalloc k hk] at hfalse
    cases hfalse

theorem registInnerOnlineId_eq (id : CString) : registInnerOnlineId id.bytes
    = (printedHeader clientTypeKey (clientTypeValue .ps48)).render ++ (printedHeader onlineIdKey id).render := by
  have hclient : ascii "Client-Type: Windows\r\n" = (printedHeader clientTypeKey (clientTypeValue .ps48)).render := by
    decide
  have hkey : ascii "Np-Online-Id: " = onlineIdKey.bytes ++ [0x3a, 0x20] := by decide
  rw [registInnerOnlineId, hclient, hkey]
  simp [printedHeader, RenderedHeader.render, show ascii "\r\n" = [0x0d, 0x0a] by decide]

theorem registInnerAccountId_eq (target : Target) (id : CString) :
    registInnerAccountId (registClientType target) id.bytes
      = (printedHeader clientTypeKey (clientTypeValue target)).render ++ (printedHeader accountIdKey id).render := by
  have hclient : ascii "Client-Type: " = clientTypeKey.bytes ++ [0x3a, 0x20] := by decide
  have hkey : ascii "Np-AccountId: " = accountIdKey.bytes ++ [0x3a, 0x20] := by decide
  rw [registInnerAccountId, hclient, hkey]
  simp [printedHeader, RenderedHeader.render, clientTypeValue, show ascii "\r\n" = [0x0d, 0x0a] by decide]

/-- What the header that names the account says is the account. -/
theorem registInnerHeader_accountId {id : Vector UInt8 psnAccountIdSize}
    (honline : psnOnlineId = none ∨ ¬ target.value < Target.ps410.value) :
    registInnerHeader target psnOnlineId (some id)
      = .ok (.ok (registInnerAccountId (registClientType target) (accountIdValue id).bytes)) := by
  have hnone : (if target.value < Target.ps410.value then psnOnlineId else none) = none := by
    rcases honline with rfl | hnew
    · split <;> rfl
    · rw [if_neg hnew]
  have hout : psnAccountIdSize * 2 ≤ (List.replicate (psnAccountIdSize * 2) (0 : UInt8)).length := by
    rw [List.length_replicate]
  have hencode := (base64Encode_spec id.toList hout).fits (by
      rw [Vector.length_toList]
      decide)
  have hheld : CString.Holds (splice (List.replicate (psnAccountIdSize * 2) 0) 0 (base64Text id.toList ++ [0])) 0
      (accountIdValue id) := by
    rw [CString.Holds, List.drop_zero, splice, List.take_zero, List.nil_append]
    exact List.prefix_append _ _
  unfold registInnerHeader
  rw [hnone]
  simp only [hencode, bind, Except.bind]
  rw [if_neg (fun h => h rfl), hheld.read_eq]
  rfl

theorem registInnerHeader_onlineId {id : CString} (htarget : target.value < Target.ps410.value) :
    registInnerHeader target (some id) psnAccountId = .ok (.ok (registInnerOnlineId id.bytes)) := by
  unfold registInnerHeader
  rw [if_pos htarget]
  rfl

/-- **The request says who registers:** the headers in it, read as the headers of a response are, are the type of the
client and either the online id or the account, as the caller has given them. -/
theorem registRequest_identity {malloc : Nat → Bool} (hsize : bufSize ≤ buf.length)
    (h : registRequestPayloadFormat lib target ambassador buf bufSize crypt psnOnlineId psnAccountId pin = .ok p)
    (hok : p.err = .success) (honline : ∀ id, psnOnlineId = some id → HeaderValue id.bytes)
    (hmalloc : ∀ k < 2, malloc k = true) :
    ∃ text mem entries identity,
      rpcryptDecrypt lib p.crypt 0 ((p.buf.take p.bufSize).drop registInnerHeaderOff) = .ok text ∧
        httpHeaderParse malloc text 0 text.length = .ok (mem, .ok entries) ∧
        readHeaders mem entries = some [identity, ⟨clientTypeKey, clientTypeValue target⟩] ∧
        (∀ id, psnOnlineId = some id → target.value < Target.ps410.value → identity = ⟨onlineIdKey, id⟩) ∧
        (psnOnlineId = none ∨ ¬ target.value < Target.ps410.value → identity.key = accountIdKey ∧
          ∃ id, psnAccountId = some id ∧ ∀ charSigned,
            base64Decode charSigned identity.value.bytes identity.value.bytes.length
              (List.replicate psnAccountIdSize 0) psnAccountIdSize = .ok (id.toList, psnAccountIdSize, .success)) := by
  obtain ⟨-, text, hparts⟩ := registRequestPayloadFormat_parts hsize h hok
  have hheader := hparts.header
  have hclient := printedHeader_valid clientTypeKey (by decide) (by decide +kernel)
    (headerValue_clientType target)
  by_cases hused : psnOnlineId = none ∨ ¬ target.value < Target.ps410.value
  · obtain ⟨id, rfl⟩ : ∃ id, psnAccountId = some id := by
      cases psnAccountId with
      | some id => exact ⟨id, rfl⟩
      | none =>
        have hnone : (if target.value < Target.ps410.value then psnOnlineId else none) = none := by
          rcases hused with rfl | hnew
          · split <;> rfl
          · rw [if_neg hnew]
        unfold registInnerHeader at hheader
        rw [hnone] at hheader
        cases hheader
    rw [registInnerHeader_accountId hused] at hheader
    obtain rfl := Except.ok.inj (Except.ok.inj hheader)
    have hidentity := printedHeader_valid accountIdKey (by decide) (by decide +kernel)
      (headerValue_accountId id)
    obtain ⟨mem, entries, hparse, hread⟩ :=
      httpHeaderParse_printed hclient hidentity hmalloc (registInnerAccountId_eq target _)
    refine ⟨_, mem, entries, _, hparts.decrypt, hparse, hread, fun id' hid' hpre => ?_, fun _ => ⟨rfl, id, rfl, ?_⟩⟩
    · rcases hused with hnone | hnew
      · rw [hnone] at hid'
        cases hid'
      · exact absurd hpre hnew
    · intro charSigned
      have hdecode : base64Decode charSigned (base64Text id.toList) (base64Text id.toList).length
          (List.replicate psnAccountIdSize 0) psnAccountIdSize
          = .ok (splice (List.replicate psnAccountIdSize 0) 0 id.toList, id.toList.length, .success) :=
        base64Decode_text id.toList (List.take_length ..) (by rw [Vector.length_toList]) (by rw [List.length_replicate])
      rw [splice_all (by rw [Vector.length_toList]; rfl), Vector.length_toList] at hdecode
      exact hdecode
  · obtain ⟨hsome, hpre⟩ := not_or.mp hused
    obtain ⟨id, rfl⟩ := Option.ne_none_iff_exists'.mp hsome
    rw [Classical.not_not] at hpre
    rw [registInnerHeader_onlineId hpre] at hheader
    obtain rfl := Except.ok.inj (Except.ok.inj hheader)
    have hprinted : registInnerOnlineId id.bytes
        = (printedHeader clientTypeKey (clientTypeValue target)).render ++ (printedHeader onlineIdKey id).render := by
      rw [registInnerOnlineId_eq]
      cases target <;> first | rfl | exact absurd hpre (by decide)
    have hidentity := printedHeader_valid onlineIdKey (by decide) (by decide +kernel)
      (honline id rfl)
    obtain ⟨mem, entries, hparse, hread⟩ := httpHeaderParse_printed hclient hidentity hmalloc hprinted
    refine ⟨_, mem, entries, _, hparts.decrypt, hparse, hread, fun id' hid' _ => ?_, fun hnot => absurd hnot hused⟩
    rw [Option.some.inj hid']
    rfl

theorem registRequest_identity_ps5 : ∃ text mem entries identity,
    httpHeaderParse (fun _ => true) text 0 text.length = .ok (mem, .ok entries) ∧
      readHeaders mem entries = some [identity, ⟨clientTypeKey, clientTypeValue .ps51⟩] ∧ identity.key = accountIdKey := by
  obtain ⟨p, hp, hok, -⟩ := exampleRegistRequest_ok
  obtain ⟨text, mem, entries, identity, -, hparse, hread, -, haccount⟩ :=
    registRequest_identity (Nat.le_of_eq List.length_replicate.symm) hp hok (fun id hid => by cases hid)
      (fun k _ => (rfl : (fun _ : Nat => true) k = true))
  exact ⟨text, mem, entries, identity, hparse, hread, (haccount (.inl rfl)).1⟩

/-! ## The header in front of the payload -/

/-- The line with the version, for those who send it. -/
def registVersionLine (target : Target) : Bytes :=
  if target.value ≥ Target.ps49.value then
    ascii "RP-Version: " ++ (rpVersionString target).getD [] ++ ascii "\r\n"
  else []

/-- The header of a request. -/
def registRequestHeader (target : Target) (payloadSize : Nat) : Bytes :=
  registRequestHead target payloadSize ++ registVersionLine target ++ registRequestTail

theorem length_registRequestHead (target : Target) {payloadSize : Nat} (h : payloadSize < 2 ^ 64) :
    (registRequestHead target payloadSize).length ≤ 160 := by
  have hunsigned := StrTo.length_unsigned h
  have hpath : (registRequestPath target).length ≤ 21 := by cases target <;> decide
  have hfixed : (ascii "POST ").length = 5 ∧ (ascii " HTTP/1.1\r\n HTTP/1.1\r\n").length = 22 ∧
      (ascii "HOST: 10.0.2.15\r\n").length = 17 ∧ (ascii "User-Agent: remoteplay Windows\r\n").length = 32 ∧
      (ascii "Connection: close\r\n").length = 19 ∧ (ascii "Content-Length: ").length = 16 ∧
      (ascii "\r\n").length = 2 := by decide
  simp only [registRequestHead, List.length_append]
  omega

theorem length_registVersionLine (target : Target) : (registVersionLine target).length ≤ 18 := by
  cases target <;> decide

/-- A text is printed behind another one, over its NUL. -/
theorem splice_printed {more : Bytes} (h : text.length + more.length ≤ buf.length) (hmore : more ≠ []) :
    splice (splice buf 0 (text ++ [0])) text.length more = splice buf 0 (text ++ more) := by
  have hpos := List.length_pos_iff.mpr hmore
  have hlength : (text ++ [0]).length = text.length + 1 := List.length_append
  have hfirst : (splice buf 0 (text ++ [0])).take text.length = text := by
    rw [splice, List.take_zero, List.nil_append, List.append_assoc, List.take_left]
  have hrest : (splice buf 0 (text ++ [0])).drop (text.length + more.length) = buf.drop (text.length + more.length) :=
    drop_splice (by omega) (by omega)
  rw [splice, hfirst, hrest, splice, List.take_zero, List.nil_append, Nat.zero_add, List.length_append]

theorem registRequestFinish_eq {payloadSize : Nat} (hbuf : text.length + 3 ≤ buf.length)
    (hpayload : text.length + 3 ≤ payloadSize) :
    registRequestFinish (splice buf 0 (text ++ [0])) text.length payloadSize
      = .ok (splice buf 0 (text ++ registRequestTail ++ [0]), (text ++ registRequestTail).length) := by
  have htail : (registRequestTail ++ [0]).length = 3 := by decide
  have htext : (text ++ [0]).length = text.length + 1 := List.length_append
  have hsum : (text ++ registRequestTail).length = text.length + (registRequestTail ++ [0]).length - 1 := by
    rw [htail, List.length_append, show registRequestTail.length = 2 by decide]
    rfl
  simp only [registRequestFinish]
  rw [if_neg (by rw [htail]; omega), if_neg (by rw [length_splice (by omega), htail]; omega), hsum,
    splice_printed (by rw [htail]; exact hbuf) (List.append_ne_nil_of_right_ne_nil _ (List.cons_ne_nil _ _)),
    List.append_assoc]

/-- The header is printed if the buffer has 0x100 bytes and the payload is no smaller than its first part. -/
theorem registRequestHeaderFormat_eq {payloadSize : Nat} (htarget : target ≠ .ps5Unknown) (hbuf : 0x100 ≤ buf.length)
    (hmin : registInnerHeaderOff ≤ payloadSize) (hmax : payloadSize < 2 ^ 64) :
    registRequestHeaderFormat buf 0x100 payloadSize target
      = .ok (splice buf 0 (registRequestHeader target payloadSize ++ [0]),
          (registRequestHeader target payloadSize).length) := by
  have hoff : registInnerHeaderOff = 0x1e0 := rfl
  have hhead := length_registRequestHead target hmax
  have hline := length_registVersionLine target
  unfold registRequestHeaderFormat
  rw [snprintf_fits (by omega) (by omega) (by omega)]
  simp only [bind, Except.bind]
  rw [Int.toNat_natCast, if_neg (by omega)]
  by_cases hold : target.value ≥ Target.ps49.value
  · obtain ⟨version, hversion⟩ : ∃ version, rpVersionString target = some version := by
      cases target <;> first | exact ⟨_, rfl⟩ | exact absurd hold (by decide) | exact absurd rfl htarget
    have hprinted : registVersionLine target = ascii "RP-Version: " ++ version ++ ascii "\r\n" := by
      rw [registVersionLine, if_pos hold, hversion]
      rfl
    have hroom : (0x100 + 2 ^ 64 - (registRequestHead target payloadSize).length) % 2 ^ 64
        = 0x100 - (registRequestHead target payloadSize).length := by omega
    have hzero : (registRequestHead target payloadSize ++ [0]).length
        = (registRequestHead target payloadSize).length + 1 := List.length_append
    rw [if_pos hold, hversion, hroom]
    simp only [← hprinted]
    rw [snprintf_fits (by rw [length_splice (by omega)]; omega) (by omega) (by omega)]
    simp only
    rw [Int.toNat_natCast, if_neg (by omega), splice_printed (by rw [List.length_append, List.length_singleton]; omega)
      (List.append_ne_nil_of_right_ne_nil _ (List.cons_ne_nil _ _)), ← List.append_assoc, ← List.length_append,
      registRequestFinish_eq (by rw [List.length_append]; omega) (by rw [List.length_append]; omega)]
    rfl
  · have hnone : registVersionLine target = [] := if_neg hold
    rw [if_neg hold, registRequestFinish_eq (by omega) (by omega), registRequestHeader, hnone, List.append_nil]

/-- There is no empty line in front of the end of the header. -/
theorem firstEnd_registRequestHeader (target : Target) (payloadSize : Nat) (payload : Bytes) :
    Search.FirstEnd headerEnd (registRequestHeader target payloadSize ++ payload)
      (registRequestHeader target payloadSize).length := by
  have hdigits : ∀ c ∈ StrTo.unsigned payloadSize, c ∉ headerEnd := by
    intro c hc
    obtain ⟨d, hd, rfl⟩ := StrTo.mem_unsigned hc
    interval_cases d <;> decide
  have hfront : Search.Absent headerEnd (ascii "POST " ++ registRequestPath target
      ++ ascii " HTTP/1.1\r\n HTTP/1.1\r\n" ++ ascii "HOST: 10.0.2.15\r\n"
      ++ ascii "User-Agent: remoteplay Windows\r\n" ++ ascii "Connection: close\r\n" ++ ascii "Content-Length: ") := by
    unfold Search.Absent
    cases target <;> decide +kernel
  have hback : Search.Absent headerEnd (ascii "\r\n" ++ registVersionLine target ++ [0x0d]) := by
    unfold Search.Absent
    cases target <;> decide
  have habsent := hfront.append_free hback (StrTo.unsigned_ne_nil _) hdigits
  have htail : headerEnd <:+ ascii "\r\n" ++ registVersionLine target ++ [0x0d] ++ [0x0a] := by
    cases target <;> decide
  have hsuffix (a : Bytes) : headerEnd <:+ a ++ (StrTo.unsigned payloadSize
      ++ (ascii "\r\n" ++ registVersionLine target ++ [0x0d])) ++ [0x0a] := by
    obtain ⟨front, hfront⟩ := htail
    refine ⟨a ++ (StrTo.unsigned payloadSize ++ front), ?_⟩
    rw [List.append_assoc, List.append_assoc, hfront]
    simp only [List.append_assoc]
  have hheader : registRequestHeader target payloadSize = ascii "POST " ++ registRequestPath target
      ++ ascii " HTTP/1.1\r\n HTTP/1.1\r\n" ++ ascii "HOST: 10.0.2.15\r\n"
      ++ ascii "User-Agent: remoteplay Windows\r\n" ++ ascii "Connection: close\r\n" ++ ascii "Content-Length: "
      ++ (StrTo.unsigned payloadSize ++ (ascii "\r\n" ++ registVersionLine target ++ [0x0d])) ++ [0x0a] := by
    have htail : registRequestTail = [0x0d] ++ [0x0a] := by decide
    simp only [registRequestHeader, registRequestHead, htail, List.append_assoc]
  have hend := habsent.firstEnd (hsuffix _)
  rw [← List.length_singleton (a := (0x0a : UInt8)), ← List.length_append, ← hheader] at hend
  exact hend.of_prefix (List.prefix_append _ _)

/-- **The header of the request always fits its buffer**, also though what it is compared with is the size of the
payload. The first empty line is at its end, and the length in it is the one of the payload behind it. -/
theorem registRequestHeader_fits {payload : Bytes} (htarget : target ≠ .ps5Unknown) (hbuf : 0x100 ≤ buf.length)
    (hmin : registInnerHeaderOff ≤ payload.length) (hmax : payload.length < 2 ^ 64) :
    ∃ header, registRequestHeaderFormat buf 0x100 payload.length target
        = .ok (splice buf 0 (header ++ [0]), header.length) ∧
      header.length < 0x100 ∧ Search.FirstEnd headerEnd (header ++ payload) header.length ∧
      ∃ front back, header = front ++ ascii "Content-Length: " ++ StrTo.unsigned payload.length ++ ascii "\r\n" ++ back ∧
        StrTo.strtoull 0 (StrTo.unsigned payload.length) = payload.length := by
  refine ⟨_, registRequestHeaderFormat_eq htarget hbuf hmin hmax, ?_, firstEnd_registRequestHeader target _ payload,
    ascii "POST " ++ registRequestPath target ++ ascii " HTTP/1.1\r\n HTTP/1.1\r\n" ++ ascii "HOST: 10.0.2.15\r\n"
      ++ ascii "User-Agent: remoteplay Windows\r\n" ++ ascii "Connection: close\r\n",
    registVersionLine target ++ registRequestTail, ?_, StrTo.strtoull_unsigned hmax (.inl rfl)⟩
  · have hhead := length_registRequestHead target hmax
    have hline := length_registVersionLine target
    have htail : registRequestTail.length = 2 := by decide
    rw [registRequestHeader, List.length_append, List.length_append]
    omega
  · simp only [registRequestHeader, registRequestHead, List.append_assoc]

theorem registRequestHeader_fits_ps5 : ∃ header,
    registRequestHeaderFormat (List.replicate 0x100 0) 0x100 (List.replicate 0x24b (0x41 : UInt8)).length .ps51
      = .ok (splice (List.replicate 0x100 0) 0 (header ++ [0]), header.length) ∧ header.length < 0x100 := by
  have hpayload : (List.replicate 0x24b (0x41 : UInt8)).length = 0x24b := List.length_replicate
  obtain ⟨header, hformat, hlength, -⟩ :=
    @registRequestHeader_fits .ps51 (List.replicate 0x100 0) (List.replicate 0x24b (0x41 : UInt8)) (by decide)
      (Nat.le_of_eq List.length_replicate.symm) (by rw [hpayload]; decide) (by rw [hpayload]; decide)
  exact ⟨header, hformat, hlength⟩

end Chiaki
