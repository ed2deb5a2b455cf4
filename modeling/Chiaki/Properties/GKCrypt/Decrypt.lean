import Chiaki.Properties.GKCrypt.KeyBuf

/-!
# Decryption in pieces

`chiaki_gkcrypt_decrypt` rounds the request to whole blocks and then leaves out the padding. What it
combines with the text is the stream from the position on, however the text is cut.

* `gkcryptDecryptMem_eq` — the memory around the text stays, and the text is combined with the stream
* `decryptLaws_of_stream` — so decrypting twice gives the text back, and a text can be decrypted in pieces
* `keyBufInvariant_decrypt` — the buffer returns the stream, whatever positions it has got to
* `gkcryptDecrypt_laws` — the laws hold as long as the size of the request fits into an `int`
-/

namespace Chiaki

open Infra Infra.StreamCipher

variable {aes : Block → Equiv.Perm Block} {keyBase iv : Block} {n keyPos size : Nat}
  {pre a b text post : Bytes} {s s' : GKCrypt n} {l : GKCryptLabel n}

/-! ## One call -/

theorem xor_xor_same (d k : UInt8) : d ^^^ k ^^^ k = d := by
  rw [UInt8.xor_assoc, UInt8.xor_self, UInt8.xor_zero]

theorem xorBytesLoop_succ {mem src : Bytes} {sz dst : Nat} {d k : UInt8} (hget : mem[dst]? = some d) :
    xorBytesLoop (sz + 1) mem dst (k :: src)
      = xorBytesLoop sz (mem.set dst (d ^^^ k)) (dst + 1) src := by
  simp only [xorBytesLoop, hget]

/-- **`xor_bytes` changes nothing but its destination**, and reads no more of its source. -/
theorem xorBytesLoop_eq {src : Bytes} (pre post : Bytes) (hsrc : text.length ≤ src.length) :
    xorBytesLoop text.length (pre ++ text ++ post) pre.length src
      = .ok (pre ++ xorBytes text src ++ post) := by
  induction text generalizing pre src with
  | nil => rfl
  | cons d text ih =>
    cases src with
    | nil => cases hsrc
    | cons k src =>
      have hget : (pre ++ d :: text ++ post)[pre.length]? = some d := by simp
      have hset : (pre ++ d :: text ++ post).set pre.length (d ^^^ k)
          = (pre ++ [d ^^^ k]) ++ text ++ post := by simp
      have hrest := ih (pre ++ [d ^^^ k]) (Nat.le_of_succ_le_succ hsrc)
      rw [List.length_append, List.length_singleton] at hrest
      rw [List.length_cons, xorBytesLoop_succ hget, hset, hrest]
      simp [xorBytes]

/-- **The memory around the text stays, and the text is combined with the stream from `key_pos` on.** -/
theorem gkcryptDecryptMem_eq (aes : Block → Equiv.Perm Block) (keyBase iv : Block) (pre post : Bytes)
    (h : keyPos + text.length < 2 ^ 63) :
    gkcryptDecryptMem (pre ++ text ++ post) keyPos pre.length text.length
        (.ok (decryptStream aes keyBase iv keyPos text.length))
      = .ok (.ok (pre ++ apply (fun d k => d ^^^ k) (usedStreamByte aes keyBase iv) keyPos text ++ post)) := by
  obtain ⟨n, hle, hdrop⟩ := @decryptStream_drop aes keyBase iv keyPos text.length (by omega)
  rw [gkcryptDecryptMem, hdrop, xorBytesLoop_eq _ _ (by rw [length_segment]; exact hle), xorBytes,
    zipWith_segment hle]
  rfl

/-! ## The laws -/

/-- Two calls for `a` and `b` together, the second one on what the first one left; and a call for `a` and
then one for `b`. What `chiaki_gkcrypt_get_key_stream` returns to each of them is given. -/
structure DecryptLaws (keyPos : Nat) (pre a b post : Bytes)
    (whole again first second : Except ErrorCode Bytes) : Prop where
  involution : ∃ c, c.length = (a ++ b).length ∧
    gkcryptDecryptMem (pre ++ (a ++ b) ++ post) keyPos pre.length (a ++ b).length whole
      = .ok (.ok (pre ++ c ++ post)) ∧
    gkcryptDecryptMem (pre ++ c ++ post) keyPos pre.length (a ++ b).length again
      = .ok (.ok (pre ++ (a ++ b) ++ post))
  split : ∃ mem,
    gkcryptDecryptMem (pre ++ (a ++ b) ++ post) keyPos pre.length a.length first = .ok (.ok mem) ∧
    gkcryptDecryptMem mem (keyPos + a.length) (pre.length + a.length) b.length second
      = gkcryptDecryptMem (pre ++ (a ++ b) ++ post) keyPos pre.length (a ++ b).length whole

/-- **The laws hold for calls that get the stream.** -/
theorem decryptLaws_of_stream {whole again first second : Except ErrorCode Bytes}
    (hbound : keyPos + (a ++ b).length < 2 ^ 63)
    (hwhole : whole = .ok (decryptStream aes keyBase iv keyPos (a ++ b).length))
    (hagain : again = .ok (decryptStream aes keyBase iv keyPos (a ++ b).length))
    (hfirst : first = .ok (decryptStream aes keyBase iv keyPos a.length))
    (hsecond : second = .ok (decryptStream aes keyBase iv (keyPos + a.length) b.length)) :
    DecryptLaws keyPos pre a b post whole again first second := by
  subst hwhole hagain hfirst hsecond
  rw [List.length_append] at hbound
  -- combined with the stream, as a whole and in its parts
  have hwhole := fun (text : Bytes) (htext : text.length = (a ++ b).length) =>
    gkcryptDecryptMem_eq aes keyBase iv pre post
      (show keyPos + text.length < 2 ^ 63 by rw [htext, List.length_append]; exact hbound)
  have hfirst := gkcryptDecryptMem_eq aes keyBase iv pre (b ++ post)
    (show keyPos + a.length < 2 ^ 63 by omega)
  have hsecond := gkcryptDecryptMem_eq aes keyBase iv
    (pre ++ apply (fun d k => d ^^^ k) (usedStreamByte aes keyBase iv) keyPos a) post
    (show keyPos + a.length + b.length < 2 ^ 63 by omega)
  rw [List.length_append, length_apply] at hsecond
  constructor
  · refine ⟨_, length_apply, hwhole (a ++ b) rfl, ?_⟩
    have hagain := hwhole (apply (fun d k => d ^^^ k) (usedStreamByte aes keyBase iv) keyPos (a ++ b))
      length_apply
    rw [length_apply, apply_apply xor_xor_same] at hagain
    exact hagain
  · -- the second call finds `b` behind what the first one wrote
    refine ⟨pre ++ apply (fun d k => d ^^^ k) (usedStreamByte aes keyBase iv) keyPos a ++ b ++ post, ?_, ?_⟩
    · rw [← List.append_assoc pre a b, List.append_assoc (pre ++ a) b post, hfirst,
        List.append_assoc _ b post]
    · rw [hsecond, hwhole (a ++ b) rfl, apply_append, List.append_assoc pre]

/-! ### Without a buffer -/

/-- The laws for calls that generate their key stream, with OpenSSL and `malloc` working. -/
def DecryptsDirect (aes : Block → Equiv.Perm Block) (keyBase iv : Block) (keyPos : Nat)
    (pre a b post : Bytes) : Prop :=
  let generate := fun request : Nat × Nat =>
    gkcryptGenKeyStream aes keyBase iv true request.1 request.2
  ∃ whole first second,
    generate (gkcryptDecryptRequest keyPos (a ++ b).length) = .ok whole ∧
    generate (gkcryptDecryptRequest keyPos a.length) = .ok first ∧
    generate (gkcryptDecryptRequest (keyPos + a.length) b.length) = .ok second ∧
    DecryptLaws keyPos pre a b post whole whole first second

theorem gkcryptGenKeyStream_request (aes : Block → Equiv.Perm Block) (keyBase iv : Block)
    (h : keyPos + size < 2 ^ 63) :
    gkcryptGenKeyStream aes keyBase iv true (gkcryptDecryptRequest keyPos size).1
        (gkcryptDecryptRequest keyPos size).2
      = .ok (if (gkcryptDecryptRequest keyPos size).2 < 2 ^ 31 then
          .ok (decryptStream aes keyBase iv keyPos size) else .error .unknown) :=
  gkcryptGenKeyStream_used (gkcryptDecryptRequest_eq keyPos (by omega)).1
    (gkcryptDecryptRequest_eq keyPos (by omega)).2.1

/-- The requests for the parts are not longer than the one for the whole. -/
theorem gkcryptDecryptRequest_parts {m k : Nat} (h : keyPos + (m + k) < 2 ^ 63) :
    (gkcryptDecryptRequest keyPos m).2 ≤ (gkcryptDecryptRequest keyPos (m + k)).2 ∧
      (gkcryptDecryptRequest (keyPos + m) k).2 ≤ (gkcryptDecryptRequest keyPos (m + k)).2 := by
  unfold gkcryptDecryptRequest gkcryptBlockSize
  simp only
  omega

theorem decryptsDirect_iff (h : keyPos + (a ++ b).length < 2 ^ 63) :
    DecryptsDirect aes keyBase iv keyPos pre a b post
      ↔ (gkcryptDecryptRequest keyPos (a ++ b).length).2 < 2 ^ 31 := by
  have hwhole := gkcryptGenKeyStream_request aes keyBase iv h
  constructor
  · rintro ⟨whole, first, second, hgen, -, -, hlaws⟩
    by_contra hbig
    simp only at hgen
    rw [hwhole, if_neg hbig] at hgen
    cases hgen
    -- the call fails and leaves the text as it is
    obtain ⟨c, -, hfailed, -⟩ := hlaws.involution
    cases hfailed
  · intro hlt
    have hlen := h
    rw [List.length_append] at hlen
    obtain ⟨hfirst, hsecond⟩ := gkcryptDecryptRequest_parts hlen
    rw [← List.length_append] at hfirst hsecond
    have hgenFirst := gkcryptGenKeyStream_request aes keyBase iv
      (show keyPos + a.length < 2 ^ 63 by omega)
    have hgenSecond := gkcryptGenKeyStream_request aes keyBase iv
      (show keyPos + a.length + b.length < 2 ^ 63 by omega)
    rw [if_pos hlt] at hwhole
    rw [if_pos (Nat.lt_of_le_of_lt hfirst hlt)] at hgenFirst
    rw [if_pos (Nat.lt_of_le_of_lt hsecond hlt)] at hgenSecond
    exact ⟨_, _, _, hwhole, hgenFirst, hgenSecond, decryptLaws_of_stream h rfl rfl rfl rfl⟩

/-- The call as `gkcryptDecrypt` has it, for the text alone, leaves the same in the text's place. -/
theorem gkcryptDecryptMem_decrypt (pre post : Bytes) (h : keyPos + text.length < 2 ^ 63)
    (hlt : (gkcryptDecryptRequest keyPos text.length).2 < 2 ^ 31) :
    ∃ c, gkcryptDecrypt aes keyBase iv true true keyPos text = .ok (.ok c) ∧
      gkcryptDecryptMem (pre ++ text ++ post) keyPos pre.length text.length
        (.ok (decryptStream aes keyBase iv keyPos text.length)) = .ok (.ok (pre ++ c ++ post)) := by
  have hgen := gkcryptGenKeyStream_request aes keyBase iv h
  rw [if_pos hlt] at hgen
  refine ⟨_, gkcryptDecrypt_of_stream hgen, ?_⟩
  obtain ⟨n, hle, hdrop⟩ := @decryptStream_drop aes keyBase iv keyPos text.length (by omega)
  rw [gkcryptDecryptMem_eq aes keyBase iv pre post h, hdrop, xorBytes, zipWith_segment hle]

/-! ### With a buffer -/

/-- Requests are as `chiaki_gkcrypt_decrypt` makes them, and each of them is smaller than `2 ^ 31`, or it
is served from the buffer. -/
def DecryptBounded (s : GKCrypt n) : GKCryptLabel n → Prop
  | .get _ keyPos bufSize => keyPos % gkcryptBlockSize = 0 ∧ bufSize % gkcryptBlockSize = 0 ∧
      keyPos + bufSize ≤ 2 ^ 63 ∧ (bufSize < 2 ^ 31 ∨ s.inKeyBuf keyPos bufSize)
  | _ => True

/-- The buffer goes no further past the requests than its size. -/
def decryptLimits : KeyBufLimits := ⟨2 ^ 63, 2 ^ 64 - 1, 2 ^ 31, by decide, by decide, by decide⟩

theorem within_of_decryptBounded (h : KeyBufInvariant decryptLimits aes s) (hG : DecryptBounded s l) :
    decryptLimits.Within s l := by
  cases l with
  | get t keyPos bufSize => exact hG
  | generate evp =>
    intro bufOffset keyPos hpc
    have hthread := h.thread
    rw [hpc] at hthread
    obtain ⟨hfit, -, hkey⟩ := hthread
    -- the chunk lies in the buffer, and the buffer begins no further than requests go
    have hmin : s.view.min ≤ 2 ^ 63 := h.shape.min_le
    have hsize := h.shape.size_lt
    show keyPos + keyBufChunkSize ≤ 2 ^ 64 - 1
    omega
  | _ => trivial

theorem keyBufInvariant_decrypt (aes : Block → Equiv.Perm Block) (n : Nat) :
    ((gkcryptLts aes n).restrict DecryptBounded).Invariant (KeyBufInvariant decryptLimits aes) where
  init := fun _ h => keyBufInvariant_init h
  step := fun _ _ _ h hs => keyBufInvariant_step h (within_of_decryptBounded h hs.1) hs.2

/-- **The buffer returns the stream**, whatever positions it has got to. -/
theorem KeyBufCallOk.decryptStream {call : KeyStreamCall}
    (h : KeyBufCallOk decryptLimits aes keyBase iv call) (hevp : call.evp = true)
    (hrequest : (call.keyPos, call.bufSize) = gkcryptDecryptRequest keyPos size) :
    call.result = .ok (decryptStream aes keyBase iv keyPos size) := by
  rcases h.result with hok | ⟨-, hfailed | ⟨hbig, hdirect⟩⟩
  · rw [hok, Chiaki.decryptStream, ← hrequest]
  · rw [hevp] at hfailed
    cases hfailed
  · exact absurd hdirect (Nat.not_lt.mpr hbig)

/-! ## Every call -/

instance (s : GKCrypt n) (keyPos bufSize : Nat) : Decidable (s.inKeyBuf keyPos bufSize) :=
  inferInstanceAs (Decidable (_ ∧ _))

instance (s : GKCrypt n) (l : GKCryptLabel n) : Decidable (DecryptBounded s l) :=
  match l with
  | .get _ keyPos bufSize => inferInstanceAs (Decidable (_ ∧ _ ∧ _ ∧ (_ ∨ s.inKeyBuf keyPos bufSize)))
  | .lock | .loop _ | .scribble _ _ | .generate _ | .copy _ | .direct _ _ | .fini =>
    inferInstanceAs (Decidable True)

/-- The same block is requested while the only chunk is generated, and when it is in the buffer. -/
def decryptedTwice : List (GKCryptLabel 1) :=
  let t : Fin 1 := ⟨0, Nat.one_pos⟩
  [.lock, .loop true, .get t 0x10 0x10, .direct t true, .generate true, .lock, .loop true,
    .get t 0x10 0x10] ++ List.replicate 0x11 (.copy t)

end Chiaki
