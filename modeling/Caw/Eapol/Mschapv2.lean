import Caw.Eapol.Dot1x

/-!
# MSCHAPv2

The inner method of PEAP: a password hash answers a challenge, and the server's success must carry a
value that only the same hash gives.

* `Ciphers`: the hash and block-cipher functions of the third-party libraries;
* `generateNtResponse`, `generateAuthenticatorResponse`: the two halves of the exchange;
* `firstField`: the first `S=` field of a success;
* `Mschapv2`, `Mschapv2.onRequest`: the method;
* `Mschapv2.Step`, **`Mschapv2.onRequest_step`**: what one request can do;
* **`Mschapv2.onRequest_wrong`**: a success without the value is refused, and changes nothing.
-/

set_option autoImplicit false

namespace Caw

open Eapol (Error)

namespace EapType

/-- EAP-MSCHAPv2, PEAP's inner method. -/
def mschapv2 : UInt8 := 26

end EapType

/-! ## The two responses -/

/-- The functions of the third-party hash and cipher libraries. -/
structure Ciphers where
  md4 : Bytes → Octets 16
  sha1 : Bytes → Octets 20
  /-- One DES block under a key of eight octets. -/
  des : Octets 8 → Octets 8 → Octets 8

namespace MsChap

/-- The UTF-16 code units of a character. -/
def encodeUtf16 (c : Char) : List ℕ :=
  if c.toNat < 0x10000 then [c.toNat]
  else [0xd800 + (c.toNat - 0x10000) / 0x400, 0xdc00 + (c.toNat - 0x10000) % 0x400]

section Responses

variable (C : Ciphers)

/-- MD4 of the password in UTF-16LE. -/
def ntPasswordHash (password : String) : Octets 16 :=
  C.md4 ((password.toList.flatMap encodeUtf16).flatMap (Bytes.toLE 2))

/-- The hash of the password hash. -/
def hashNtPasswordHash (hash : Octets 16) : Octets 16 := C.md4 hash.toList

/-- Both challenges and the username, folded into eight octets. -/
def challengeHash (peerChallenge authenticatorChallenge : Octets 16) (username : Bytes) : Octets 8 :=
  Bytes.slice 0 8 (C.sha1 (peerChallenge.toList ++ authenticatorChallenge.toList ++ username)).toList

/-- Expand a 7-octet DES key into the 8 octets the cipher takes: every eighth bit is parity. -/
def expandDesKey (key : Octets 7) : Octets 8 :=
  let k (i : ℕ) : UInt8 := key.toList.getD i 0
  Bytes.slice 0 8 [k 0 &&& 0xfe, (k 0 <<< 7) ||| (k 1 >>> 1), (k 1 <<< 6) ||| (k 2 >>> 2),
    (k 2 <<< 5) ||| (k 3 >>> 3), (k 3 <<< 4) ||| (k 4 >>> 4), (k 4 <<< 3) ||| (k 5 >>> 5),
    (k 5 <<< 2) ||| (k 6 >>> 6), k 6 <<< 1]

/-- DES under a key of 56 bits. -/
def desEncrypt (key : Octets 7) (plaintext : Octets 8) : Octets 8 := C.des (expandDesKey key) plaintext

/-- Three encryptions of the challenge under the password hash, zero-padded to 21 octets. -/
def challengeResponse (challenge : Octets 8) (passwordHash : Octets 16) : Octets 24 :=
  let padded := passwordHash.toList ++ List.replicate 5 0
  Bytes.slice 0 24 <| (List.range 3).flatMap fun i =>
    (desEncrypt C (Bytes.slice (i * 7) 7 padded) challenge).toList

/-- The response to a challenge. -/
def generateNtResponse (authenticatorChallenge peerChallenge : Octets 16) (username : Bytes)
    (password : String) : Octets 24 :=
  challengeResponse C (challengeHash C peerChallenge authenticatorChallenge username)
    (ntPasswordHash C password)

/-- Hashed verbatim, so the spelling is wire format. -/
def magic1 : String := "Magic server to client signing constant"

/-- The second constant of the authenticator response. -/
def magic2 : String := "Pad to make it do more than one iteration"

/-- A digit of an octet in upper-case hexadecimal. -/
def hexDigit (n : ℕ) : UInt8 := (octetsOf "0123456789ABCDEF").getD n 0

/-- What the server sends of a password it knows: `S=` and forty digits. -/
def generateAuthenticatorResponse (password : String) (ntResponse : Octets 24)
    (peerChallenge authenticatorChallenge : Octets 16) (username : Bytes) : Octets 42 :=
  let passwordHashHash := hashNtPasswordHash C (ntPasswordHash C password)
  let digest := C.sha1 (passwordHashHash.toList ++ ntResponse.toList ++ octetsOf magic1)
  let challenge := challengeHash C peerChallenge authenticatorChallenge username
  let digest := C.sha1 (digest.toList ++ challenge.toList ++ octetsOf magic2)
  Bytes.slice 0 42 <| octetsOf "S=" ++ digest.toList.flatMap fun byte =>
    [hexDigit (byte.toNat / 16), hexDigit (byte.toNat % 16)]

end Responses

/-- The windows of `n` elements of a list, from the left. -/
def windows {α : Type} (n : ℕ) : List α → List (List α)
  | [] => []
  | a :: rest => if (a :: rest).length < n then [] else (a :: rest).take n :: windows n rest

/-- The first window of a success that can be an authenticator response. -/
def firstField (message : Bytes) : Option Bytes :=
  (windows 42 message).find? fun w => (octetsOf "S=").isPrefixOf w

/-- Compare without an early exit. -/
def constantTimeEq (a b : Bytes) : Bool :=
  if a.length ≠ b.length then false
  else (List.zipWith (· ^^^ ·) a b).foldl (· ||| ·) 0 = 0

theorem foldl_or_eq_zero (l : Bytes) (acc : UInt8) :
    l.foldl (· ||| ·) acc = 0 ↔ acc = 0 ∧ ∀ x ∈ l, x = 0 := by
  induction l generalizing acc with
  | nil => simp
  | cons x l ih => rw [List.foldl_cons, ih, UInt8.or_eq_zero_iff, and_assoc, List.forall_mem_cons]

theorem zipWith_xor_eq_zero {a b : Bytes} (h : a.length = b.length) :
    (∀ x ∈ List.zipWith (· ^^^ ·) a b, x = 0) ↔ a = b := by
  induction a generalizing b with
  | nil => simp [List.eq_nil_of_length_eq_zero h.symm]
  | cons x a ih =>
    obtain ⟨y, b, rfl⟩ := List.exists_cons_of_length_eq_add_one h.symm
    rw [List.zipWith_cons_cons, List.forall_mem_cons, UInt8.xor_eq_zero_iff,
      ih (Nat.succ_inj.mp h), List.cons.injEq]

/-- **The comparison is one.** -/
theorem constantTimeEq_iff {a b : Bytes} : constantTimeEq a b = true ↔ a = b := by
  unfold constantTimeEq
  by_cases hlen : a.length = b.length
  · rw [if_neg (not_not.mpr hlen), decide_eq_true_iff, foldl_or_eq_zero, zipWith_xor_eq_zero hlen]
    exact and_iff_right rfl
  · rw [if_pos hlen]
    exact ⟨fun h => (nomatch h), fun h => absurd (congrArg List.length h) hlen⟩

end MsChap

open MsChap

namespace Mschapv2

/-! ## The method -/

/-- OpCode: a challenge. -/
def opChallenge : UInt8 := 1

/-- OpCode: the response. -/
def opResponse : UInt8 := 2

/-- OpCode: the server has accepted. -/
def opSuccess : UInt8 := 3

/-- OpCode: the server has refused. -/
def opFailure : UInt8 := 4

/-- OpCode, MS-CHAPv2-ID, MS-Length. -/
def msHdrLen : ℕ := 4

/-- PeerChallenge, Reserved, NT-Response, Flags. -/
def responseLen : ℕ := 49

/-- Where the exchange stands. -/
inductive State where
  | awaitingChallenge
  | awaitingSuccess
  /-- The server proved it knows the password hash. -/
  | authenticated
deriving DecidableEq

/-- What a request holds after its header. -/
structure Request where
  opCode : UInt8
  msId : UInt8
  body : Bytes
deriving DecidableEq

/-- MS-Length bounds the body rather than defining it. -/
def parse : Bytes → Except Error Request
  | opCode :: msId :: hi :: lo :: rest =>
    .ok { opCode, msId, body := rest.take (min (Bytes.ofBE [hi, lo] - msHdrLen) rest.length) }
  | _ => .error .malformed

/-- Frame a message; there is none, but a panic, for a body its length field cannot hold. -/
def message (opCode msId : UInt8) (body : Bytes) : Option Bytes :=
  let len := msHdrLen + body.length
  if len < 65536 then some ([opCode, msId] ++ Bytes.toBE 2 len ++ body) else none

/-- The challenge of a request's body. -/
def authenticatorChallenge : Bytes → Except Error (Octets 16)
  | [] => .error .malformed
  | valueSize :: rest =>
    if valueSize ≠ 16 then .error .malformed
    else if rest.length < 16 then .error .malformed
    else .ok (Bytes.slice 0 16 rest)

end Mschapv2

/-- EAP-MSCHAPv2. -/
structure Mschapv2 where
  username : String
  password : String
  peerChallenge : Octets 16
  /-- What the server's success must carry, computed when the response is built. -/
  expectedResponse : Option (Octets 42)
  state : Mschapv2.State
deriving DecidableEq

namespace Mschapv2

/-- The method with its challenge fixed. -/
def withPeerChallenge (username password : String) (peerChallenge : Octets 16) : Mschapv2 where
  username := username
  password := password
  peerChallenge := peerChallenge
  expectedResponse := none
  state := .awaitingChallenge

variable (C : Ciphers) (m : Mschapv2)

/-- The server's authenticator response has been verified. -/
def authenticated : Bool := m.state = .authenticated

/-- The response of this peer to a challenge. -/
def ntResponse (challenge : Octets 16) : Octets 24 :=
  generateNtResponse C challenge m.peerChallenge (octetsOf m.username) m.password

/-- The authenticator response to a challenge. -/
def authenticatorResponse (challenge : Octets 16) : Octets 42 :=
  generateAuthenticatorResponse C m.password (m.ntResponse C challenge) m.peerChallenge challenge
    (octetsOf m.username)

/-- The body of the answer to a challenge. -/
def responseBody (challenge : Octets 16) : Bytes :=
  [UInt8.ofNat responseLen] ++ m.peerChallenge.toList ++ List.replicate 8 0 ++
    (m.ntResponse C challenge).toList ++ [0] ++ octetsOf m.username

/-- The method once a challenge is answered. -/
def answered (challenge : Octets 16) : Mschapv2 :=
  { m with expectedResponse := some (m.authenticatorResponse C challenge), state := .awaitingSuccess }

/-- The method once the server has proved itself. -/
def verified : Mschapv2 := { m with state := .authenticated }

/-- What a request is answered with; nothing if the call panics. -/
abbrev Reply : Type := Option (Except Error (Option Bytes))

/-- A challenge is answered. -/
def onChallenge (msId : UInt8) (body : Bytes) : Mschapv2 × Reply :=
  match authenticatorChallenge body with
  | .error e => (m, some (.error e))
  | .ok challenge =>
    match message opResponse msId (m.responseBody C challenge) with
    | none => (m, none)
    | some reply => (m.answered C challenge, some (.ok (some reply)))

/-- The server proves that it knows the password. -/
def onSuccess (body : Bytes) : Mschapv2 × Reply :=
  match m.expectedResponse with
  | none => (m, some (.error .unexpectedMessage))
  | some expected =>
    match firstField body with
    | none => (m, some (.error .rejected))
    | some found =>
      -- the far end terminated TLS but does not know the password
      if !constantTimeEq found expected.toList then (m, some (.error .rejected))
      else (m.verified, some (.ok (some [opSuccess])))

/-- A request of the server, by its OpCode. -/
def onRequest (data : Bytes) : Mschapv2 × Reply :=
  match parse data with
  | .error e => (m, some (.error e))
  | .ok r =>
    if r.opCode = opChallenge ∧ m.state = .awaitingChallenge then m.onChallenge C r.msId r.body
    else if r.opCode = opSuccess ∧ m.state = .awaitingSuccess then m.onSuccess r.body
    else if r.opCode = opFailure then (m, some (.error .rejected))
    else (m, some (.error .unexpectedMessage))

/-! ## What one request can do -/

/-- The request is a challenge. -/
def IsChallenge (data : Bytes) (msId : UInt8) (challenge : Octets 16) : Prop :=
  ∃ r, parse data = .ok r ∧ r.opCode = opChallenge ∧ r.msId = msId ∧
    authenticatorChallenge r.body = .ok challenge

/-- The request is a success with this body. -/
def IsSuccess (data body : Bytes) : Prop :=
  ∃ r, parse data = .ok r ∧ r.opCode = opSuccess ∧ r.body = body

/-- **What one request can do.** -/
inductive Step (data : Bytes) : Mschapv2 → Reply → Prop
  | refuse (e) : Step data m (some (.error e))
  | panic (msId challenge) : IsChallenge data msId challenge →
      message opResponse msId (m.responseBody C challenge) = none → Step data m none
  | answer (msId challenge reply) : IsChallenge data msId challenge → m.state = .awaitingChallenge →
      message opResponse msId (m.responseBody C challenge) = some reply →
      Step data (m.answered C challenge) (some (.ok (some reply)))
  | accept (body expected) : IsSuccess data body → m.state = .awaitingSuccess →
      m.expectedResponse = some expected → firstField body = some expected.toList →
      Step data m.verified (some (.ok (some [opSuccess])))

variable {C m}

theorem onChallenge_step {data : Bytes} {r : Request} (hparse : parse data = .ok r)
    (hop : r.opCode = opChallenge) (hst : m.state = .awaitingChallenge) :
    Step C m data (m.onChallenge C r.msId r.body).1 (m.onChallenge C r.msId r.body).2 := by
  unfold onChallenge
  cases hchallenge : authenticatorChallenge r.body with
  | error e => exact .refuse e
  | ok challenge =>
    dsimp only
    cases hreply : message opResponse r.msId (m.responseBody C challenge) with
    | none => exact .panic r.msId challenge ⟨r, hparse, hop, rfl, hchallenge⟩ hreply
    | some reply =>
      exact .answer r.msId challenge reply ⟨r, hparse, hop, rfl, hchallenge⟩ hst hreply

theorem onSuccess_step {data : Bytes} {r : Request} (hparse : parse data = .ok r)
    (hop : r.opCode = opSuccess) (hst : m.state = .awaitingSuccess) :
    Step C m data (m.onSuccess r.body).1 (m.onSuccess r.body).2 := by
  unfold onSuccess
  cases hexpected : m.expectedResponse with
  | none => exact .refuse _
  | some expected =>
    cases hfield : firstField r.body with
    | none => exact .refuse _
    | some found =>
      dsimp only
      by_cases heq : constantTimeEq found expected.toList = true
      · rw [heq]
        obtain rfl := constantTimeEq_iff.mp heq
        exact .accept r.body expected ⟨r, hparse, hop, rfl⟩ hst hexpected hfield
      · rw [Bool.eq_false_of_not_eq_true heq]
        exact .refuse _

theorem onRequest_step (data : Bytes) : Step C m data (m.onRequest C data).1 (m.onRequest C data).2 := by
  unfold onRequest
  cases hparse : parse data with
  | error e => exact .refuse e
  | ok r =>
    dsimp only
    split_ifs with hchallenge hsuccess
    · exact onChallenge_step hparse hchallenge.1 hchallenge.2
    · exact onSuccess_step hparse hsuccess.1 hsuccess.2
    · exact .refuse _
    · exact .refuse _

theorem length_responseBody (challenge : Octets 16) :
    (m.responseBody C challenge).length = 50 + (octetsOf m.username).length := by
  simp [responseBody, List.Vector.toList_length]
  omega

theorem length_message {opCode msId : UInt8} {body reply : Bytes}
    (h : message opCode msId body = some reply) : reply.length = msHdrLen + body.length := by
  unfold message at h
  dsimp only at h
  split_ifs at h
  cases h
  simp [msHdrLen]
  omega

theorem onRequest_fits (h : (octetsOf m.username).length + 59 < 65536) (data : Bytes) :
    (m.onRequest C data).1.username = m.username ∧ ∃ x, (m.onRequest C data).2 = some x ∧
      ∀ reply, x = .ok (some reply) → reply.length + 5 < 65536 := by
  have hstep := onRequest_step (C := C) (m := m) data
  generalize m.onRequest C data = q at hstep
  obtain ⟨m', o⟩ := q
  cases hstep with
  | refuse e => exact ⟨rfl, _, rfl, fun _ h => nomatch h⟩
  | panic msId challenge hchallenge hreply =>
    dsimp only at h
    unfold message at hreply
    dsimp only at hreply
    rw [length_responseBody, if_pos (by simp only [msHdrLen]; omega)] at hreply
    cases hreply
  | answer msId challenge reply hchallenge hst hreply =>
    refine ⟨rfl, _, rfl, ?_⟩
    rintro _ ⟨⟩
    rw [length_message hreply, length_responseBody]
    simp only [msHdrLen]
    omega
  | accept body expected =>
    refine ⟨rfl, _, rfl, ?_⟩
    rintro _ ⟨⟩
    simp

theorem IsSuccess.not_isChallenge {data body : Bytes} (h : IsSuccess data body) (msId : UInt8)
    (challenge : Octets 16) : ¬ IsChallenge data msId challenge := by
  obtain ⟨r, hparse, hop, -⟩ := h
  rintro ⟨r', hparse', hop', -⟩
  cases hparse.symm.trans hparse'
  cases hop.symm.trans hop'

/-- **A success without the value expected is refused**, and changes nothing. -/
theorem onRequest_wrong {data body : Bytes} (h : IsSuccess data body)
    (hwrong : ∀ expected, m.state = .awaitingSuccess → m.expectedResponse = some expected →
      firstField body ≠ some expected.toList) : ∃ e, m.onRequest C data = (m, some (.error e)) := by
  have hstep := onRequest_step (C := C) (m := m) data
  generalize m.onRequest C data = q at hstep
  obtain ⟨m', o⟩ := q
  cases hstep with
  | refuse e => exact ⟨e, rfl⟩
  | panic msId challenge hchallenge => exact absurd hchallenge (h.not_isChallenge msId challenge)
  | answer msId challenge reply hchallenge =>
    exact absurd hchallenge (h.not_isChallenge msId challenge)
  | accept body' expected hsuccess hst hexpected hfield =>
    obtain ⟨r, hparse, -, rfl⟩ := h
    obtain ⟨r', hparse', -, rfl⟩ := hsuccess
    cases hparse.symm.trans hparse'
    exact absurd hfield (hwrong expected hst hexpected)

end Mschapv2

end Caw
