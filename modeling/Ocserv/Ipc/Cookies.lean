import Ocserv.ProtobufC.RoundTrip
import Ocserv.SecMod.Entry

/-!
# Cookies

Sec-mod gives an authenticated client a cookie, in which it seals who the client is; main opens the
cookie when the client connects, and believes it (`src/cookies.c`, and `generate_cookie` of
`src/sec-mod-auth.c`).  What is sealed is a message of `src/ipc.proto`, packed by protobuf-c.  The
cipher is that of the library, AES-128 in the mode GCM, with a tag of 96 bits: `Gcm` is what is
relied on.

* `decryptCookie_eq_some` : **the cookies that are accepted are those sealed with the key.**
* `decryptCookie_encryptCookie` : the cookie of a client gives back what was sealed.
-/

namespace Ocserv

namespace Cookies

open ProtobufC

/-- `COOKIE_IV_SIZE` and `COOKIE_MAC_SIZE` -/
def cookieIvSize : ℕ := 12
def cookieMacSize : ℕ := 12

/-- The cipher of the library, for a key and an initial vector. -/
structure Gcm where
  encrypt : (key iv : Bytes) → Bytes → Bytes
  decrypt : (key iv : Bytes) → Bytes → Bytes
  /-- The first bytes of the tag of a ciphertext. -/
  tag : (key iv : Bytes) → Bytes → Bytes
  decrypt_encrypt (key iv plain : Bytes) : decrypt key iv (encrypt key iv plain) = plain
  encrypt_decrypt (key iv cipher : Bytes) : encrypt key iv (decrypt key iv cipher) = cipher
  length_encrypt (key iv plain : Bytes) : (encrypt key iv plain).length = plain.length
  length_tag (key iv cipher : Bytes) : (tag key iv cipher).length = cookieMacSize

/-- What the calls of the library and of `talloc` find. -/
structure Env where
  /-- The draw of `gnutls_rnd`. -/
  iv : Option (Vector UInt8 cookieIvSize)
  /-- `gnutls_cipher_init` succeeds, which needs a key of 128 bits. -/
  cipherInit : Bool
  /-- `gnutls_cipher_encrypt2` or `gnutls_cipher_decrypt2` succeeds. -/
  cipher : Bool
  /-- `gnutls_cipher_tag` succeeds. -/
  tag : Bool
  /-- There is memory. -/
  mem : Bool

/-- Every call of `decrypt_cookie` succeeds. -/
def Env.Ok (env : Env) : Prop := env.cipherInit ∧ env.cipher ∧ env.tag ∧ env.mem

/-! ### The cookie of a client -/

/-- The message of `generate_cookie`; its strings are arrays of characters. -/
def cookieMsg (c : SecMod.Cookie) : Message cookieDescriptor where
  members := fun (i : Fin 8) => match i with
    | 0 => .required (some (toCString c.username))
    | 1 => .required (some (toCString c.groupname))
    | 2 => .required (some (toCString c.hostname))
    | 3 => .required (some (toCString c.ip))
    | 4 => .required (UInt32.ofNat c.expiration)
    | 5 => .required (UInt32.ofNat c.ipv4Seed)
    | 6 => .required c.sid
    | 7 => .required c.tlsAuthOk
  unknownFields := []

/-! ### A sample cipher -/

namespace Sample

theorem xor_xor_self (x k : UInt8) : x ^^^ k ^^^ k = x := by
  rw [UInt8.xor_assoc, UInt8.xor_self, UInt8.xor_zero]

/-- Every byte is changed by the sum of the key and the vector, and the tag is another sum. -/
def gcm : Gcm where
  encrypt key iv plain := plain.map (· ^^^ (key ++ iv).foldl (· + ·) 0)
  decrypt key iv cipher := cipher.map (· ^^^ (key ++ iv).foldl (· + ·) 0)
  tag key iv cipher := List.replicate cookieMacSize ((key ++ iv ++ cipher).foldl (· + ·) 0)
  decrypt_encrypt key iv plain := by
    rw [List.map_map]
    exact List.map_id'' (fun x => xor_xor_self x _) plain
  encrypt_decrypt key iv cipher := by
    rw [List.map_map]
    exact List.map_id'' (fun x => xor_xor_self x _) cipher
  length_encrypt key iv plain := List.length_map _
  length_tag key iv cipher := List.length_replicate

def env : Env := ⟨some (Vector.replicate cookieIvSize 1), true, true, true, true⟩

def key : Bytes := List.replicate 16 3

def cookie : SecMod.Cookie := ⟨[117], [], [], [49], false, 6, List.replicate 32 7, 1300⟩

end Sample

/-! ### Sealing and opening -/

variable (gcm : Gcm) (env : Env) (key : Bytes)

/-- `encrypt_cookie` -/
def encryptCookie (msg : Message cookieDescriptor) : Option Bytes :=
  let packedSize := messageGetPackedSize msg
  if packedSize = 0 then none
  else if !(env.mem && doAlloc packedSize) then none
  else
    let packed := messagePack msg
    if packed.length = 0 then none
    else
      match env.iv with
      | none => none
      | some iv =>
        let eSize := packedSize + cookieIvSize + cookieMacSize
        if !env.cipherInit then none
        else if !doAlloc eSize then none
        else if !env.cipher then none
        else if !env.tag then none
        else
          let e := gcm.encrypt key iv.toList packed
          some (iv.toList ++ e ++ gcm.tag key iv.toList e)

/-- `decrypt_cookie` -/
def decryptCookie (cookie : Bytes) : Except Fault (Option (Message cookieDescriptor)) :=
  if cookie.length ≤ cookieIvSize + cookieMacSize then .ok none
  else if !env.cipherInit then .ok none
  else if !(env.mem && doAlloc cookie.length) then .ok none
  else
    let iv := cookie.take cookieIvSize
    let cookieSize := cookie.length - (cookieIvSize + cookieMacSize)
    let cookie := cookie.drop cookieIvSize
    if !env.cipher then .ok none
    else
      let decrypted := gcm.decrypt key iv (cookie.take cookieSize)
      if !env.tag then .ok none
      else if gcm.tag key iv (cookie.take cookieSize) ≠ (cookie.drop cookieSize).take cookieMacSize
      then .ok none
      else messageUnpack cookieDescriptor decrypted

/-! ### What is accepted -/

/-- A text sealed with the key. -/
def sealed (iv packed : Bytes) : Bytes :=
  iv ++ gcm.encrypt key iv packed ++ gcm.tag key iv (gcm.encrypt key iv packed)

variable {gcm env key}

theorem length_sealed {iv packed : Bytes} (hiv : iv.length = cookieIvSize) :
    (sealed gcm key iv packed).length = cookieIvSize + packed.length + cookieMacSize := by
  rw [sealed, List.length_append, List.length_append, gcm.length_encrypt, gcm.length_tag, hiv]

theorem encryptCookie_eq_some {msg : Message cookieDescriptor} {cookie : Bytes}
    (h : encryptCookie gcm env key msg = some cookie) :
    ∃ iv : Bytes, iv.length = cookieIvSize ∧ messagePack msg ≠ [] ∧
      cookie = sealed gcm key iv (messagePack msg) := by
  unfold encryptCookie at h
  dsimp only at h
  split at h
  · cases h
  · split at h
    · cases h
    · split at h
      · cases h
      · rename_i hne
        cases hiv : env.iv with
        | none =>
          rw [hiv] at h
          cases h
        | some iv =>
          rw [hiv] at h
          simp only [Option.ite_none_left_eq_some, Option.some.injEq] at h
          obtain ⟨-, -, -, -, rfl⟩ := h
          exact ⟨iv.toList, iv.length_toList, fun hnil => hne (hnil ▸ rfl), rfl⟩

/-- With all calls succeeding, what is left is the tag and the message. -/
theorem decryptCookie_of_ok (henv : env.Ok) {cookie : Bytes} (hsize : cookie.length ≤ 2 ^ 25) :
    decryptCookie gcm env key cookie =
      let n := cookie.length - (cookieIvSize + cookieMacSize)
      let iv := cookie.take cookieIvSize
      let cipher := (cookie.drop cookieIvSize).take n
      if 0 < n ∧ gcm.tag key iv cipher = (cookie.drop cookieIvSize).drop n then
        messageUnpack cookieDescriptor (gcm.decrypt key iv cipher)
      else .ok none := by
  obtain ⟨hinit, hcipher, htag, hmem⟩ := henv
  rw [decryptCookie]
  dsimp only
  have hlast : ((cookie.drop cookieIvSize).drop
      (cookie.length - (cookieIvSize + cookieMacSize))).length ≤ cookieMacSize := by
    rw [List.length_drop, List.length_drop]
    omega
  rw [hinit, hmem, doAlloc_eq_true (by omega), hcipher, htag, List.take_of_length_le hlast]
  simp only [Bool.and_true, Bool.not_true, Bool.false_eq_true, if_false]
  by_cases hlen : cookie.length ≤ cookieIvSize + cookieMacSize
  · rw [if_pos hlen, if_neg fun h => absurd h.1 (by omega)]
  · rw [if_neg hlen]
    by_cases heq : gcm.tag key (cookie.take cookieIvSize) ((cookie.drop cookieIvSize).take
        (cookie.length - (cookieIvSize + cookieMacSize))) =
        (cookie.drop cookieIvSize).drop (cookie.length - (cookieIvSize + cookieMacSize))
    · rw [if_neg (not_not.2 heq), if_pos ⟨by omega, heq⟩]
    · rw [if_pos heq, if_neg fun h => heq h.2]

/-- A cookie is opened only if all calls succeed. -/
theorem ok_of_decryptCookie {cookie : Bytes} {msg : Message cookieDescriptor}
    (h : decryptCookie gcm env key cookie = .ok (some msg)) : env.Ok := by
  unfold decryptCookie at h
  dsimp only at h
  repeat' split at h
  all_goals first | cases h | simp_all [Env.Ok]

section Accepted

variable {cookie : Bytes} (hsize : cookie.length ≤ 2 ^ 25) {msg : Message cookieDescriptor}

include hsize

/-- A cookie that is accepted was sealed with the key. -/
theorem sealed_of_decryptCookie (h : decryptCookie gcm env key cookie = .ok (some msg)) :
    ∃ iv packed : Bytes, iv.length = cookieIvSize ∧ packed ≠ [] ∧
      cookie = sealed gcm key iv packed ∧ meaning cookieDescriptor packed = some msg := by
  have henv := ok_of_decryptCookie h
  rw [decryptCookie_of_ok henv hsize] at h
  dsimp only at h
  split at h
  · rename_i hif
    obtain ⟨hpos, htag⟩ := hif
    have hlen := gcm.length_encrypt key (cookie.take cookieIvSize)
      (gcm.decrypt key (cookie.take cookieIvSize)
        ((cookie.drop cookieIvSize).take (cookie.length - (cookieIvSize + cookieMacSize))))
    rw [gcm.encrypt_decrypt, List.length_take, List.length_drop] at hlen
    refine ⟨cookie.take cookieIvSize, gcm.decrypt key (cookie.take cookieIvSize)
      ((cookie.drop cookieIvSize).take (cookie.length - (cookieIvSize + cookieMacSize))),
      List.length_take_of_le (by omega), fun hnil => ?_, ?_,
      (messageUnpack_eq_some (by omega) msg).1 h⟩
    · rw [hnil, List.length_nil] at hlen
      omega
    · rw [sealed, gcm.encrypt_decrypt, htag, List.append_assoc, List.take_append_drop,
        List.take_append_drop]
  · cases h

/-- A cookie that is sealed with the key is accepted. -/
theorem decryptCookie_of_sealed (henv : env.Ok) {iv packed : Bytes} (hiv : iv.length = cookieIvSize)
    (hne : packed ≠ []) (hcookie : cookie = sealed gcm key iv packed)
    (hmeaning : meaning cookieDescriptor packed = some msg) :
    decryptCookie gcm env key cookie = .ok (some msg) := by
  have hlen : cookie.length = cookieIvSize + packed.length + cookieMacSize := by
    rw [hcookie, length_sealed hiv]
  rw [decryptCookie_of_ok henv hsize, hlen]
  have hpos : 0 < packed.length := List.length_pos_of_ne_nil hne
  have hn : cookieIvSize + packed.length + cookieMacSize - (cookieIvSize + cookieMacSize) =
      (gcm.encrypt key iv packed).length := by
    rw [gcm.length_encrypt]
    omega
  have htake : (sealed gcm key iv packed).take cookieIvSize = iv := by
    rw [sealed, List.append_assoc, ← hiv, List.take_left]
  have hdrop : (sealed gcm key iv packed).drop cookieIvSize =
      gcm.encrypt key iv packed ++ gcm.tag key iv (gcm.encrypt key iv packed) := by
    rw [sealed, List.append_assoc, ← hiv, List.drop_left]
  dsimp only
  rw [hn, hcookie, htake, hdrop, List.take_left, List.drop_left, gcm.decrypt_encrypt,
    if_pos ⟨by rw [gcm.length_encrypt]; exact hpos, rfl⟩]
  exact (messageUnpack_eq_some (by omega) msg).2 hmeaning

end Accepted

/-- **The cookies that are accepted** are the packed messages that are sealed with the key. -/
theorem decryptCookie_eq_some (gcm : Gcm) (env : Env) (key : Bytes) {cookie : Bytes}
    (hsize : cookie.length ≤ 2 ^ 25) (msg : Message cookieDescriptor) :
    decryptCookie gcm env key cookie = .ok (some msg) ↔ env.Ok ∧
      ∃ iv packed : Bytes, iv.length = cookieIvSize ∧ packed ≠ [] ∧
        cookie = sealed gcm key iv packed ∧ meaning cookieDescriptor packed = some msg := by
  constructor
  · intro h
    exact ⟨ok_of_decryptCookie h, sealed_of_decryptCookie hsize h⟩
  · rintro ⟨henv, iv, packed, hiv, hne, hcookie, hmeaning⟩
    exact decryptCookie_of_sealed hsize henv hiv hne hcookie hmeaning

theorem decryptCookie_sample :
    (sealed Sample.gcm Sample.key (List.replicate 12 1)
      (messagePack (cookieMsg Sample.cookie))).length ≤ 2 ^ 25 ∧
    (decryptCookie Sample.gcm Sample.env Sample.key (sealed Sample.gcm Sample.key
        (List.replicate 12 1) (messagePack (cookieMsg Sample.cookie))) =
          .ok (some (cookieMsg Sample.cookie)) ↔
      Sample.env.Ok ∧ ∃ iv packed : Bytes, iv.length = cookieIvSize ∧ packed ≠ [] ∧
        sealed Sample.gcm Sample.key (List.replicate 12 1) (messagePack (cookieMsg Sample.cookie)) =
          sealed Sample.gcm Sample.key iv packed ∧
        meaning cookieDescriptor packed = some (cookieMsg Sample.cookie)) :=
  ⟨by decide, decryptCookie_eq_some Sample.gcm Sample.env Sample.key (by decide) _⟩

/-- **The cookie of a client is opened again**, and gives back what was sealed. -/
theorem decryptCookie_encryptCookie {env' : Env} (henv : env.Ok) {msg : Message cookieDescriptor}
    {cookie : Bytes} (hunknown : msg.unknownFields = []) (hsize : cookie.length ≤ 2 ^ 25)
    (h : encryptCookie gcm env' key msg = some cookie) :
    decryptCookie gcm env key cookie = .ok (some msg.received) := by
  obtain ⟨iv, hiv, hne, rfl⟩ := encryptCookie_eq_some h
  have hlen : (messagePack msg).length ≤ 2 ^ 25 := by
    rw [length_sealed hiv] at hsize
    omega
  exact decryptCookie_of_sealed hsize henv hiv hne rfl (meaning_messagePack msg hunknown hlen)

/-- All of a cookie is sent. -/
theorem received_cookieMsg (c : SecMod.Cookie) : (cookieMsg c).received = cookieMsg c := by
  have hmembers : (cookieMsg c).received.members = (cookieMsg c).members := by
    funext (i : Fin 8)
    match i with
    | 0 | 1 | 2 | 3 | 4 | 5 | 6 | 7 => rfl
  exact congrArg (Message.mk · []) hmembers

end Cookies

end Ocserv
