import Caw.Eapol.Peap

/-!
# TTLS with PAP inside

The user name and the password as attribute-value pairs, sent through the tunnel once it stands.

* `encodeAvp`: one pair, padded out to the next one;
* `Ttls`, `Ttls.credentials`, `Ttls.onRequest`: the method;
* **`Ttls.onRequest_keyed`**: there is key material exactly if the credentials have left;
* `nextAvp`, `decodeAvps`: pairs as a server reads them;
* **`nextAvp_write`**: a pair is read back, and the reading goes on behind its padding;
* **`Ttls.credentials_decode`**: the server reads a user name and a padded password, and nothing else.
-/

set_option autoImplicit false

namespace Caw

open Eapol (Error)

/-- TTLS. -/
def EapType.ttls : UInt8 := 21

/-- The label of TTLS's own key export. -/
def tls12LabelTtls : String := "ttls keying material"

/-! ## Attribute-value pairs -/

/-- The code of the user name. -/
def avpUserName : UInt32 := 1

/-- The code of the password. -/
def avpUserPassword : UInt32 := 2

/-- A server that does not know the attribute must refuse. -/
def avpFlagMandatory : UInt8 := 0x40

/-- Code, flags, and a length of 24 bits. -/
abbrev avpHdrLen : ℕ := 8

/-- Append one pair. Its length counts the header and the data, not the padding behind them. -/
def encodeAvp (out : Bytes) (code : UInt32) (data : Bytes) : Bytes :=
  let len := avpHdrLen + data.length
  out ++ Bytes.toBE 4 code.toNat ++ [avpFlagMandatory] ++ (Bytes.toBE 4 len).drop 1 ++ data ++
    List.replicate ((4 - len % 4) % 4) 0

/-! ## The method -/

/-- TTLS with PAP inside. -/
structure Ttls (T : Type) where
  tunnel : T
  /-- The identity sent inside the tunnel. -/
  username : String
  password : String
  credentialsSent : Bool
  msk : Option (Octets 64)

namespace Ttls

variable {T : Type} (O : Tunnel T)

/-- The method before its first request. -/
def new (tunnel : T) (username password : String) : Ttls T where
  tunnel := tunnel
  username := username
  password := password
  credentialsSent := false
  msk := none

/-- The two pairs; the password is padded with zeros, so that its length does not show. -/
def credentials (t : Ttls T) : Bytes :=
  let out := encodeAvp [] avpUserName (octetsOf t.username)
  let padded := octetsOf t.password
  let remainder := padded.length % 16
  let padded := if remainder ≠ 0 then padded ++ List.replicate (16 - remainder) 0 else padded
  encodeAvp out avpUserPassword padded

/-- A request, through the tunnel. -/
def onRequest (t : Ttls T) (data : Bytes) : Ttls T × Except Error (Option Bytes) :=
  match O.onRequest t.tunnel data with
  | (tunnel, .error e) => ({ t with tunnel }, .error e)
  | (tunnel, .ok (.reply typeData)) => ({ t with tunnel }, .ok (some typeData))
  | (tunnel, .ok (.established _)) =>
    -- PAP has no inner reply: there is nothing to say to a server that speaks again
    if t.credentialsSent then ({ t with tunnel }, .ok (some (O.emptyReply tunnel)))
    else
      match O.exportMsk tunnel EapType.ttls tls12LabelTtls with
      | .error e => ({ t with tunnel }, .error e)
      | .ok msk =>
        match O.sendTunnelled tunnel t.credentials with
        | (tunnel, .error e) =>
          ({ t with tunnel, msk := some msk, credentialsSent := true }, .error e)
        | (tunnel, .ok typeData) =>
          ({ t with tunnel, msk := some msk, credentialsSent := true }, .ok (some typeData))

/-- The method as the provider drives it. -/
def method : EapMethod (Ttls T) where
  typeCode _ := EapType.ttls
  onRequest := onRequest O
  msk := msk

/-- **There is key material exactly if the credentials have left.** -/
theorem onRequest_keyed {t : Ttls T} (h : t.msk.isSome = t.credentialsSent) (data : Bytes) :
    (t.onRequest O data).1.msk.isSome = (t.onRequest O data).1.credentialsSent := by
  rw [onRequest]
  rcases O.onRequest t.tunnel data with ⟨tunnel, e | typeData | plaintext⟩
  · exact h
  · exact h
  · simp only
    by_cases hsent : t.credentialsSent = true
    · rw [if_pos hsent]
      exact h
    rw [if_neg hsent]
    cases O.exportMsk tunnel EapType.ttls tls12LabelTtls with
    | error e => exact h
    | ok msk =>
      simp only
      rcases O.sendTunnelled tunnel t.credentials with ⟨_, e | typeData⟩ <;> rfl

end Ttls

/-! ## Reading pairs -/

/-- A pair as it is read. -/
structure Avp where
  code : UInt32
  flags : UInt8
  data : Bytes
deriving DecidableEq

/-- Where the pair after one of this length begins. -/
def avpAlign (len : ℕ) : ℕ := (len + 3) / 4 * 4

/-- One pair off the front: the length covers its header and its data, and the next one begins at the
following multiple of four. -/
def nextAvp (b : Bytes) : Option (Avp × Bytes) :=
  if b.length < avpHdrLen then none
  else
    let len := beAt 5 3 b
    if len < avpHdrLen ∨ b.length < avpAlign len then none
    else some ({ code := UInt32.ofNat (beAt 0 4 b), flags := b.getD 4 0
                 data := (b.take len).drop avpHdrLen }, b.drop (avpAlign len))

/-- The pairs of a string that is made up of them. -/
def decodeAvps (b : Bytes) : Option (List Avp) :=
  if (Walk.left nextAvp b.length b).isEmpty then some (Walk.items nextAvp b.length b) else none

theorem le_avpAlign (len : ℕ) : len ≤ avpAlign len := by
  rw [avpAlign]
  omega

theorem shrinks_nextAvp : Walk.Shrinks nextAvp := by
  intro b avp rest h
  rw [nextAvp] at h
  split_ifs at h with hshort
  simp only at h
  split_ifs at h with hlen
  cases h
  have hle := le_avpAlign (beAt 5 3 b)
  have hhdr : avpHdrLen = 8 := rfl
  rw [List.length_drop]
  omega

/-- The octets of a pair. -/
def writeAvp (p : UInt32 × Bytes) : Bytes := encodeAvp [] p.1 p.2

theorem encodeAvp_eq (out : Bytes) (code : UInt32) (data : Bytes) :
    encodeAvp out code data = out ++ writeAvp (code, data) := by
  simp [writeAvp, encodeAvp]

/-- **A pair is read back**, and the reading goes on behind its padding. -/
theorem nextAvp_write {code : UInt32} {data : Bytes} (h : avpHdrLen + data.length < 2 ^ 24)
    (rest : Bytes) :
    nextAvp (writeAvp (code, data) ++ rest) = some (⟨code, avpFlagMandatory, data⟩, rest) := by
  have hlen3 : (Bytes.toBE 4 (avpHdrLen + data.length)).drop 1 =
      Bytes.toBE 3 (avpHdrLen + data.length) := rfl
  set len := avpHdrLen + data.length with hlen
  set pad := List.replicate ((4 - len % 4) % 4) (0 : UInt8) with hpad
  have hpadlen : pad.length = (4 - len % 4) % 4 := List.length_replicate
  have hwire : writeAvp (code, data) ++ rest = Bytes.toBE 4 code.toNat ++
      (avpFlagMandatory :: (Bytes.toBE 3 len ++ (data ++ (pad ++ rest)))) := by
    simp [writeAvp, encodeAvp, hlen3, ← hlen, ← hpad]
  have hhead : (Bytes.toBE 4 code.toNat ++ (avpFlagMandatory :: Bytes.toBE 3 len)).length =
      avpHdrLen := by simp
  have hsplit : writeAvp (code, data) ++ rest =
      (Bytes.toBE 4 code.toNat ++ (avpFlagMandatory :: Bytes.toBE 3 len) ++ data) ++ (pad ++ rest) := by
    rw [hwire]
    simp
  have htotal : (writeAvp (code, data) ++ rest).length = len + (pad.length + rest.length) := by
    rw [hsplit, List.length_append, List.length_append, hhead, List.length_append]
  have hval : beAt 5 3 (writeAvp (code, data) ++ rest) = len := by
    rw [hwire, beAt, Bytes.slice_append_right (by simp)]
    simp only [Bytes.length_toBE, Nat.reduceSub, Bytes.slice_cons, Bytes.ofBE_slice_toBE]
    exact Nat.mod_eq_of_lt h
  have hcode : UInt32.ofNat (beAt 0 4 (writeAvp (code, data) ++ rest)) = code := by
    rw [hwire, beAt, Bytes.ofBE_slice_toBE,
      Nat.mod_eq_of_lt (show code.toNat < 256 ^ 4 from code.toNat_lt), UInt32.ofNat_toNat]
  have hflags : (writeAvp (code, data) ++ rest).getD 4 0 = avpFlagMandatory := by
    rw [hwire]
    rfl
  have halign : avpAlign len = len + pad.length := by
    rw [hpadlen, avpAlign]
    omega
  have htake : ((writeAvp (code, data) ++ rest).take len).drop avpHdrLen = data := by
    rw [hsplit, List.take_left' (by rw [List.length_append, hhead]), List.drop_left' hhead]
  have hdrop : (writeAvp (code, data) ++ rest).drop (avpAlign len) = rest := by
    rw [hsplit, ← List.append_assoc, List.drop_left']
    rw [List.length_append, List.length_append, hhead, halign]
  rw [nextAvp, if_neg (by omega)]
  simp only [hval, hcode, hflags, htake, hdrop]
  rw [if_neg]
  rw [halign]
  omega

theorem decodeAvps_write {pairs : List (UInt32 × Bytes)}
    (h : ∀ p ∈ pairs, avpHdrLen + p.2.length < 2 ^ 24) :
    decodeAvps (pairs.flatMap writeAvp) = some (pairs.map fun p => ⟨p.1, avpFlagMandatory, p.2⟩) := by
  have hnext : ∀ p ∈ pairs, ∀ rest, nextAvp (writeAvp p ++ rest) =
      some ((⟨p.1, avpFlagMandatory, p.2⟩ : Avp), rest) := fun p hp rest => nextAvp_write (h p hp) rest
  rw [decodeAvps, Walk.left_flatMap shrinks_nextAvp hnext, Walk.items_flatMap shrinks_nextAvp hnext]
  rfl

namespace Ttls

variable {T : Type}

/-- The length a password is padded to. -/
def paddedLen (len : ℕ) : ℕ := (len + 15) / 16 * 16

theorem credentials_eq (t : Ttls T) : ∃ zeros,
    (octetsOf t.password).length + zeros = paddedLen (octetsOf t.password).length ∧
      t.credentials = [(avpUserName, octetsOf t.username),
        (avpUserPassword, octetsOf t.password ++ List.replicate zeros 0)].flatMap writeAvp := by
  rw [credentials]
  simp only [encodeAvp_eq, List.nil_append, List.flatMap_cons, List.flatMap_nil, List.append_nil]
  by_cases hrem : (octetsOf t.password).length % 16 = 0
  · refine ⟨0, ?_, by simp [hrem]⟩
    rw [paddedLen]
    omega
  · refine ⟨16 - (octetsOf t.password).length % 16, ?_, by simp [hrem]⟩
    rw [paddedLen]
    omega

/-- **What a server reads of the credentials**: the user name, the password with zeros behind it up to a
multiple of sixteen octets, both mandatory, and nothing else. -/
theorem credentials_decode (t : Ttls T)
    (huser : avpHdrLen + (octetsOf t.username).length < 2 ^ 24)
    (hpassword : avpHdrLen + paddedLen (octetsOf t.password).length < 2 ^ 24) :
    ∃ zeros, (octetsOf t.password).length + zeros = paddedLen (octetsOf t.password).length ∧
      decodeAvps t.credentials =
        some [⟨avpUserName, avpFlagMandatory, octetsOf t.username⟩,
          ⟨avpUserPassword, avpFlagMandatory, octetsOf t.password ++ List.replicate zeros 0⟩] := by
  obtain ⟨zeros, hzeros, heq⟩ := t.credentials_eq
  refine ⟨zeros, hzeros, ?_⟩
  rw [heq, decodeAvps_write]
  · rfl
  · intro p hp
    rcases List.mem_cons.mp hp with rfl | hp
    · exact huser
    · rw [List.mem_singleton.mp hp, List.length_append, List.length_replicate, hzeros]
      exact hpassword

/-- A station with a short password. -/
def sample : Ttls Unit := new () "user@example.net" "secret"

theorem credentials_decode_sample :
    ∃ zeros, (octetsOf "secret").length + zeros = paddedLen (octetsOf "secret").length ∧
      decodeAvps sample.credentials =
        some [⟨avpUserName, avpFlagMandatory, octetsOf "user@example.net"⟩,
          ⟨avpUserPassword, avpFlagMandatory, octetsOf "secret" ++ List.replicate zeros 0⟩] :=
  credentials_decode sample (by decide +kernel) (by decide +kernel)

end Ttls

end Caw
