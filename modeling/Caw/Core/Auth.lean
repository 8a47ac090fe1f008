import Caw.Core.Policy
import Caw.Crypto.Sae
import Caw.Eapol.Authenticator

/-!
# Failures, and the authentication of one association

* `Platform`: the libraries and the build the core runs with;
* `Failure`, `Failure.isTerminal`, `Failure.text`;
* `Offload`, `Auth`, `assemble`: the credential and the AKM made into something that produces a PMK;
* **`assemble_secured`**: what `assemble` makes of a credential policy accepted.
-/

set_option autoImplicit false

namespace Caw

/-- The libraries and the build the core runs with. An 802.1X provider is known by what it answers. -/
structure Platform where
  prim : Primitives
  curve : Curve
  /-- Built with the `enterprise` feature. -/
  enterprise : Bool
  Dot1x : Type
  dot1xStart : Dot1x → AuthContext → Dot1x × Except Crypto.Error Step
  dot1xOnFrame : Dot1x → AuthContext → Bytes → Dot1x × Except Crypto.Error Step
  /-- What the operating system calls an error. -/
  errnoText : Errno → String

/-- The text shown for an error of the EAPOL crate. -/
def Eapol.Error.text (S : Platform) : Eapol.Error → String
  | .malformed => "malformed EAPOL frame"
  | .crypto e => e.text
  | .rejected => "the authenticator rejected this station"
  | .io e => "eapol io: " ++ S.errnoText e
  | .unsupportedPacketType t => "unsupported EAPOL packet type " ++ toString t.toNat
  | .unsupportedEapCode c => "unsupported EAP code " ++ toString c.toNat
  | .unsupportedDescriptor t => "unsupported EAPOL-Key descriptor type " ++ toString t.toNat
  | .unexpectedMessage => "EAPOL-Key message out of sequence"
  | .replayedCounter => "replayed EAPOL-Key counter"
  | .nonceMismatch => "ANonce changed mid-handshake"
  | .rsnMissing => "message 3 carried no RSN element"
  | .rsnMismatch => "RSN element does not match the beacon (downgrade attack)"
  | .gtkMissing => "no GTK in the key data"
  | .timeout => "handshake timed out"
  | .fragmentOutOfOrder => "EAP-TLS fragment out of order"
  | .fragmentTooLarge => "EAP-TLS fragment longer than expected"
  | .prematureSuccess => "EAP-Success before the method produced key material"
  | .tls text => "tls: " ++ text
  | .noCryptoProvider => "no rustls crypto provider installed (see eap::tls::provider)"
  | .certificateStore text => "CA certificate: " ++ text
  | .noPeer => "no authenticator address learned yet"
  | .shortSend => "short EAPOL send"

/-! ## Failures -/

/-- Why an attempt ended. -/
inductive Failure where
  | notFound
  | noKnownNetwork
  | downgrade (recorded offered : Security)
  | unsupportedSecurity
  | noCredential
  | refused (code : UInt16)
  | assocTimeout
  | wrongCredential
  | rsnMismatch
  | authFailed
  | handshake (why : String)
  | disconnected (reason : UInt16) (byAp : Bool)
  | dhcp
  | enterprise (why : String)
  | internal (why : String)
deriving DecidableEq

namespace Failure

/-- Whether retrying could never succeed. -/
def isTerminal : Failure → Bool
  | downgrade .. | unsupportedSecurity | noCredential | wrongCredential | rsnMismatch | authFailed
  | enterprise _ | internal _ => true
  | _ => false

/-- The failure is the kernel's report that the link is gone. -/
def isDisconnected : Failure → Bool
  | disconnected .. => true
  | _ => false

/-- The failure an error of an exchange amounts to. -/
def fromCrypto : Crypto.Error → Failure
  | .micMismatch | .keyUnwrapFailed => wrongCredential
  | .authFailed => authFailed
  | e => handshake e.text

/-- The failure an error of an EAPOL exchange amounts to. -/
def fromEapol (S : Platform) : Eapol.Error → Failure
  | .crypto e => fromCrypto e
  | .rsnMismatch => rsnMismatch
  | .rejected | .prematureSuccess => authFailed
  | e => handshake (e.text S)

/-- The text shown for a failure. -/
def text : Failure → String
  | notFound => "no access point is advertising that network"
  | noKnownNetwork => "no saved network is in range"
  | downgrade recorded offered => "refusing to join at " ++ offered.text ++
      ": this network was saved as " ++ recorded.text
  | unsupportedSecurity => "this network's security is not one caw can join"
  | noCredential => "this network needs a passphrase"
  | refused code => "the access point refused us (status " ++ toString code.toNat ++ ")"
  | assocTimeout => "no answer from the access point"
  | wrongCredential => "wrong passphrase"
  | rsnMismatch => "the access point's security does not match its beacon (downgrade attack)"
  | authFailed => "authentication rejected"
  | handshake why => "handshake failed: " ++ why
  | disconnected reason byAp =>
    if reason = 0 ∧ byAp = false then "the connection was lost (the driver gave no reason)"
    else
      let who := if byAp then "the access point disconnected us" else "this machine ended the connection"
      match reasonText reason with
      | some why => who ++ ": " ++ why ++ " (reason " ++ toString reason.toNat ++ ")"
      | none => who ++ " (reason " ++ toString reason.toNat ++ ")"
  | dhcp => "no address could be configured"
  | enterprise why => why
  | internal why => "internal error: " ++ why

end Failure

/-! ## What produces the PMK -/

/-- What a wireless device does for itself. -/
structure DeviceCaps where
  offloads4wayPsk : Bool
  offloads4way1x : Bool
  offloadsSae : Bool
deriving DecidableEq

/-- A credential handed to the kernel. -/
inductive Offload where
  | pmk (pmk : Pmk)
  | saePassword (secret : String)
deriving DecidableEq

/-- How an association is authenticated, and how far that has got. -/
inductive Auth (S : Platform) where
  /-- Nothing to prove and nothing to install. -/
  | open
  | offloaded (offload : Offload)
  /-- SAE, before association. -/
  | preAssoc (provider : SaeProvider S.curve)
  /-- 802.1X, after association. -/
  | postAssoc (provider : S.Dot1x)
  | ready (pmk : Pmk)
  /-- The key is with the 4-way handshake. -/
  | running

/-- What one call of the core draws from outside: random numbers, and the 802.1X method built from
the files a profile names, for a server name and a trust anchor. -/
structure Draws (S : Platform) where
  saeSeed : Octets Sae.seedLen
  snonce : Except Errno (Octets 32)
  dot1x : (serverName caCert outer identity : String) → EnterpriseMethod → Except String S.Dot1x

/-- The part of `user@example.org` after the `@`. -/
def realmOf (identity : String) : Option String :=
  match identity.toList.dropWhile (· ≠ '@') with
  | [] | [_] => none
  | _ :: realm => some (String.ofList realm)

/-- 802.1X with the method a profile names; a build without the feature says so. -/
def enterpriseProvider {S : Platform} (draws : Draws S) (identity : String)
    (anonymousIdentity serverName : Option String) (method : EnterpriseMethod)
    (caCert : Option String) : Except Failure S.Dot1x :=
  if !S.enterprise then
    .error (.enterprise "this build has no 802.1X support; rebuild with the `enterprise` feature")
  else
    let outer := anonymousIdentity.getD identity
    match serverName.or (realmOf outer) with
    | none => .error (.enterprise "no server_name in the profile and no realm in the identity")
    | some name =>
      match caCert with
      | none => .error (.enterprise "no ca_cert in the profile")
      | some ca => (draws.dot1x name ca outer identity method).mapError .enterprise

/-- Build the authentication for one association. -/
def assemble {S : Platform} (draws : Draws S) (akm : Akm) (credential : Credential)
    (caps : DeviceCaps) (ctx : AuthContext) : Except Failure (Auth S) :=
  match credential with
  | .none => .ok .open
  | .passphrase secret =>
    if akm.isSae then
      if caps.offloadsSae then .ok (.offloaded (.saePassword secret))
      else .ok (.preAssoc (.withSeed secret draws.saeSeed))
    else if akm.isPsk then
      let pmk := derivePmk S.prim secret ctx.ssid
      if caps.offloads4wayPsk then .ok (.offloaded (.pmk pmk)) else .ok (.ready pmk)
    else .error .unsupportedSecurity
  | .enterprise identity anonymousIdentity serverName method caCert =>
    if akm.isEnterprise then
      (enterpriseProvider draws identity anonymousIdentity serverName method caCert).map .postAssoc
    else .error .unsupportedSecurity

/-- An authentication that has been staged: nothing has run, and only an open network goes
without. -/
inductive Auth.Staged {S : Platform} : Auth S → Prop
  | offloaded (o : Offload) : Staged (.offloaded o)
  | preAssoc (p : SaeProvider S.curve) : Staged (.preAssoc p)
  | postAssoc (p : S.Dot1x) : Staged (.postAssoc p)
  | ready (pmk : Pmk) : Staged (.ready pmk)

/-- **On a secured network something is staged**: policy accepts no empty credential there. -/
theorem assemble_secured {S : Platform} {draws : Draws S} {akm : Akm} {credential : Credential}
    {caps : DeviceCaps} {ctx : AuthContext} {auth : Auth S}
    (hsat : Policy.satisfies akm (some credential) = true)
    (h : assemble draws akm credential caps ctx = .ok auth) : auth.Staged := by
  cases credential with
  | none => cases hsat
  | passphrase secret =>
    unfold assemble at h
    simp only at h
    split_ifs at h <;> cases h
    · exact .offloaded _
    · exact .preAssoc _
    · exact .offloaded _
    · exact .ready _
  | enterprise identity anonymousIdentity serverName method caCert =>
    unfold assemble at h
    simp only at h
    split_ifs at h
    obtain ⟨p, -, rfl⟩ := Except.map_eq_ok.mp h
    exact .postAssoc p

theorem assemble_preAssoc {S : Platform} {draws : Draws S} {akm : Akm} {credential : Credential}
    {caps : DeviceCaps} {ctx : AuthContext} {p : SaeProvider S.curve}
    (h : assemble draws akm credential caps ctx = .ok (.preAssoc p)) : akm.isSae = true := by
  unfold assemble at h
  split at h
  · cases h
  · by_cases hsae : akm.isSae = true
    · exact hsae
    · rw [if_neg hsae] at h
      split_ifs at h <;> cases h
  · split_ifs at h
    obtain ⟨p', -, heq⟩ := Except.map_eq_ok.mp h
    cases heq

/-! ## A sample platform -/

/-- A group of two points, one of them with coordinates. -/
def Curve.sample : Curve where
  order := 2
  prime := ⟨Nat.prime_two⟩
  orderFits := by norm_num
  Point := ZMod 2
  mapToCurve _ := 1
  coordinates p := if p = 1 then some (.zero 32, .zero 32) else none
  fromSec1 _ _ := some 1
  fromSec1_coordinates p x y h := by
    split_ifs at h with hp
    rw [hp]

/-- A build without 802.1X. -/
def Platform.sample : Platform where
  prim := .sample
  curve := .sample
  enterprise := false
  Dot1x := Empty
  dot1xStart := nofun
  dot1xOnFrame := nofun
  errnoText _ := "error"

/-- Draws without a provider for 802.1X. -/
def Draws.sample : Draws .sample where
  saeSeed := .zero _
  snonce := .ok (.zero 32)
  dot1x _ _ _ _ _ := .error "unsupported"

end Caw
