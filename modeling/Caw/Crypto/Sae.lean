import Caw.Crypto.Primitives
import Caw.Lib.Except
import Mathlib.Algebra.Field.ZMod
import Mathlib.Tactic.LinearCombination
import Mathlib.Tactic.Abel
import Mathlib.Tactic.Module

/-!
# SAE

The Dragonfly exchange over group 19, with hash-to-element, as a state machine fed with
Authentication frame bodies. The curve enters as a parameter: a group of prime order that is a module
over its scalar field, with its hash-to-curve map and its point codec.

* `Curve`;
* `passwordToken`, `passwordElement`, `commitScalars`, `confirmHash`: the computations;
* `SaeProvider`, `start`, `onFrame`, `onTimeout`: the exchange;
* **`sharedPoint_comm`**: both ends reach the same point;
* **`parseCommit_commitFrame`**, `parseAuth_confirmFrame`: frames are read back as they were built.
-/

set_option autoImplicit false

namespace Caw

/-- An elliptic curve group and its codecs, as the third-party crate provides them. -/
structure Curve where
  order : ℕ
  [prime : Fact order.Prime]
  orderFits : order < 256 ^ 32
  Point : Type
  [dec : DecidableEq Point]
  [group : AddCommGroup Point]
  [module : Module (ZMod order) Point]
  /-- A wide value reduced modulo the field prime and mapped to the curve. -/
  mapToCurve : Octets 48 → Point
  /-- The affine coordinates; the identity has none. -/
  coordinates : Point → Option (Octets 32 × Octets 32)
  /-- Decode an uncompressed point from its coordinates. -/
  fromSec1 : Octets 32 → Octets 32 → Option Point
  /-- What was encoded decodes. -/
  fromSec1_coordinates : ∀ p x y, coordinates p = some (x, y) → fromSec1 x y = some p

attribute [instance] Curve.prime Curve.dec Curve.group Curve.module

namespace Crypto

/-- A failed computation: an error it returns, or a panic. -/
inductive Fault where
  | error (e : Error)
  | panic
deriving DecidableEq

end Crypto

open Crypto (Error Fault)

namespace Sae

/-- The authentication algorithm of SAE. -/
def authAlgSae : ℕ := 3
/-- The sequence number of a commit. -/
def seqCommit : ℕ := 1
/-- The sequence number of a confirm. -/
def seqConfirm : ℕ := 2
/-- Status: nothing is wrong. -/
def statusSuccess : ℕ := 0
/-- Status: the peer wants a token first. -/
def statusAntiClogging : ℕ := 76
/-- Status: a commit by hash-to-element. -/
def statusH2e : ℕ := 126
/-- The group of P-256. -/
def groupP256 : ℕ := 19
/-- The element whose first octet extends its number. -/
def eidExtension : UInt8 := 255
/-- The extension of a token container. -/
def eidExtAntiClogging : UInt8 := 93

/-- A scalar on the wire. -/
abbrev scalarLen : ℕ := 32

/-- Two coordinates, x then y. -/
abbrev elementLen : ℕ := 64

/-- The length of a SHA-256 hash. -/
abbrev hashLen : ℕ := 32

/-- The wide value hash-to-element reduces. -/
abbrev pwdValueLen : ℕ := 48

/-- Two secret scalars, each drawn by wide reduction. -/
abbrev seedLen : ℕ := 2 * pwdValueLen

/-- Retransmissions before the exchange is abandoned. -/
def syncMax : UInt8 := 5

/-! ## Frames -/

/-- The fixed fields every authentication frame body starts with. -/
def authHeader (seq status : ℕ) : Bytes :=
  Bytes.toLE 2 authAlgSae ++ (Bytes.toLE 2 seq ++ Bytes.toLE 2 status)

/-- An authentication frame of SAE. -/
structure AuthFrame where
  seq : ℕ
  status : ℕ
  /-- Everything after the fixed authentication fields. -/
  body : Bytes

/-- The little-endian number in the two octets at an offset. -/
def le16 (off : ℕ) (b : Bytes) : ℕ := Bytes.ofLE (Bytes.slice off 2 b).toList

/-- Read an authentication frame. -/
def parseAuth (frame : Bytes) : Except Error AuthFrame :=
  if frame.length < 6 then .error .malformed
  else if le16 0 frame ≠ authAlgSae then .error .malformed
  else .ok { seq := le16 2 frame, status := le16 4 frame, body := frame.drop 6 }

/-- Group, scalar and element out of a commit body; trailing elements are ignored. -/
def parseCommit (body : Bytes) : Except Error (Octets scalarLen × Octets elementLen) :=
  if body.length < 2 + scalarLen + elementLen then .error .malformed
  else if le16 0 body ≠ groupP256 then .error .authFailed
  else .ok (Bytes.slice 2 scalarLen body, Bytes.slice (2 + scalarLen) elementLen body)

/-- The token out of a token request: group, then an Anti-Clogging Token Container. -/
def parseToken (body : Bytes) : Except Error Bytes :=
  if body.length < 2 + 3 then .error .malformed
  else
    match body.drop 2 with
    | eid :: len :: ext :: rest =>
      if eid ≠ eidExtension ∨ len = 0 ∨ rest.length + 1 < len.toNat then .error .malformed
      else if ext ≠ eidExtAntiClogging then .error .malformed
      else .ok (rest.take (len.toNat - 1))
    | _ => .error .malformed

/-! ## Computations -/

section Computations

variable (C : Curve) (P : Primitives)

/-- HMAC over the parts of a message. -/
def hmacSha256 (key : Bytes) (parts : List Bytes) : Octets hashLen := P.hmacSha256 key parts.flatten

/-- One step of hash-to-element: expand, reduce, map. -/
def mapToPoint (ssid : Bytes) (password label : String) : C.Point :=
  C.mapToCurve (P.hkdfSha256 ssid (octetsOf password) (octetsOf label) pwdValueLen)

/-- The password token, which depends on neither address. -/
def passwordToken (ssid : Bytes) (password : String) : C.Point :=
  mapToPoint C P ssid password "SAE Hash to Element u1 P1" +
    mapToPoint C P ssid password "SAE Hash to Element u2 P2"

/-- The larger address, then the smaller. -/
def sortedMacs (own peer : Mac) : Mac × Mac := if Octets.lt peer own then (own, peer) else (peer, own)

/-- The password element binds the token to this pair of addresses, through a value in
`[1, order - 1]`. -/
def passwordElement (pt : C.Point) (own peer : Mac) : C.Point :=
  let (hi, lo) := sortedMacs own peer
  let val := hmacSha256 P (Octets.zero hashLen).toList [hi.toList, lo.toList]
  let reduced := Bytes.ofBE val.toList % (C.order - 1)
  ((reduced + 1 : ℕ) : ZMod C.order) • pt

/-- A secret scalar by wide reduction; zero and one are replaced by two. -/
def scalarFrom (bytes : Octets pwdValueLen) : ZMod C.order :=
  let s := (Bytes.ofBE bytes.toList : ZMod C.order)
  if s = 0 ∨ s = 1 then 2 else s

/-- `rand` and `mask`, the two secrets behind one commit. -/
def commitScalars (seed : Octets seedLen) : ZMod C.order × ZMod C.order :=
  (scalarFrom C (Bytes.slice 0 pwdValueLen seed.toList),
    scalarFrom C (Bytes.slice pwdValueLen pwdValueLen seed.toList))

/-- A scalar on the wire: big-endian, padded to the order. -/
def scalarBytes (s : ZMod C.order) : Octets scalarLen := ⟨Bytes.toBE scalarLen s.val, by simp⟩

/-- Decode a peer scalar, which must lie strictly between one and the order. -/
def decodeScalar (bytes : Octets scalarLen) : Except Error (ZMod C.order) :=
  let n := Bytes.ofBE bytes.toList
  if C.order ≤ n then .error .authFailed
  else
    let s := (n : ZMod C.order)
    if s = 0 ∨ s = 1 then .error .authFailed else .ok s

/-- The two coordinates, with no tag octet. The identity has none, and the source panics on it. -/
def encodeElement (p : C.Point) : Except Fault (Octets elementLen) :=
  match C.coordinates p with
  | some (x, y) => .ok ⟨x.toList ++ y.toList, by simp⟩
  | none => .error .panic

/-- Decode a peer element: on the curve, and not the identity. -/
def decodeElement (bytes : Octets elementLen) : Except Error C.Point :=
  match C.fromSec1 (Bytes.slice 0 32 bytes.toList) (Bytes.slice 32 32 bytes.toList) with
  | none => .error .authFailed
  | some p => if p = 0 then .error .authFailed else .ok p

/-- The x-coordinate of the shared point. -/
def xCoordinate (p : C.Point) : Except Fault (Octets 32) :=
  match C.coordinates p with
  | some (x, _) => .ok x
  | none => .error .panic

/-- The confirm over both commits, the sender's first. -/
def confirmHash (kck : Octets hashLen) (sendConfirm : Octets 2) (scalar1 : Octets scalarLen)
    (element1 : Octets elementLen) (scalar2 : Octets scalarLen) (element2 : Octets elementLen) :
    Octets hashLen :=
  hmacSha256 P kck.toList
    [sendConfirm.toList, scalar1.toList, element1.toList, scalar2.toList, element2.toList]

end Computations

/-! ## The exchange -/

/-- Our half of the commit exchange. -/
structure Commit (C : Curve) where
  rand : ZMod C.order
  scalar : ZMod C.order
  pwe : C.Point
  scalarBytes : Octets scalarLen
  elementBytes : Octets elementLen

/-- Everything derived once the peer's commit has been checked. -/
structure Session where
  peerScalarBytes : Octets scalarLen
  peerElementBytes : Octets elementLen
  ownScalarBytes : Octets scalarLen
  ownElementBytes : Octets elementLen
  kck : Octets hashLen
  pmk : Pmk

/-- Where the exchange has got to. -/
inductive State (C : Curve) where
  | idle
  | committed (commit : Commit C)
  | confirmed (session : Session)
  | accepted
  | failed

end Sae

open Sae

/-- WPA3-Personal: one exchange with one peer. -/
structure SaeProvider (C : Curve) where
  password : String
  seed : Octets seedLen
  state : Sae.State C
  /-- The last frame handed to the caller, retransmitted unchanged. -/
  lastSent : Bytes
  sync : UInt8
  sendConfirm : UInt16
  token : Option Bytes
  pmkid : Option (Octets 16)

namespace SaeProvider

variable {C : Curve} (P : Primitives)

/-- A provider with its randomness fixed. -/
def withSeed (password : String) (seed : Octets seedLen) : SaeProvider C where
  password := password
  seed := seed
  state := .idle
  lastSent := []
  sync := 0
  sendConfirm := 0
  token := none
  pmkid := none

/-- The Anti-Clogging Token Container element. -/
def tokenElement (token : Bytes) : Bytes :=
  eidExtension :: UInt8.ofNat (token.length + 1) :: eidExtAntiClogging :: token

/-- The commit frame, with the token the peer has asked for. -/
def commitFrame (token : Option Bytes) (commit : Commit C) : Bytes :=
  authHeader seqCommit statusH2e ++ (Bytes.toLE 2 groupP256 ++ (commit.scalarBytes.toList ++
    (commit.elementBytes.toList ++ (token.map tokenElement).getD [])))

/-- The octets of a confirm counter. -/
def sendConfirmBytes (sendConfirm : UInt16) : Octets 2 := ⟨Bytes.toLE 2 sendConfirm.toNat, by simp⟩

/-- A confirm frame, over both commits in our-first order. -/
def confirmFrame (sendConfirm : UInt16) (session : Session) : Bytes :=
  authHeader seqConfirm statusSuccess ++ ((sendConfirmBytes sendConfirm).toList ++
    (confirmHash P session.kck (sendConfirmBytes sendConfirm) session.ownScalarBytes
      session.ownElementBytes session.peerScalarBytes session.peerElementBytes).toList)

/-- The counter rises with every confirm, and saturates. -/
def nextConfirm (sendConfirm : UInt16) : UInt16 :=
  if sendConfirm = 65535 then sendConfirm else sendConfirm + 1

/-- The point only someone who knows the password can reach: the peer's element cancels the mask it
hid its own `rand` behind. -/
def sharedPoint (commit : Commit C) (peerScalar : ZMod C.order) (peerElement : C.Point) : C.Point :=
  commit.rand • (peerScalar • commit.pwe + peerElement)

/-- KCK and PMK out of the x-coordinate of the shared point and the context. -/
def sessionKeys (k context : Octets 32) : Octets hashLen × Pmk :=
  let keyseed := hmacSha256 P (Octets.zero hashLen).toList [k.toList]
  let keys := kdfSha256 P keyseed.toList "SAE KCK and PMK" context.toList (hashLen + 32)
  (Bytes.slice 0 hashLen keys.toList, Bytes.slice hashLen 32 keys.toList)

/-- `(commit-scalar + peer-commit-scalar) mod r`, padded to the order. -/
def context (commit : Commit C) (peerScalar : ZMod C.order) : Octets 32 :=
  scalarBytes C (commit.scalar + peerScalar)

/-- The leading 128 bits of the context. -/
def pmkidOf (context : Octets 32) : Octets 16 := Bytes.slice 0 16 context.toList

/-- The session of both commits and the x-coordinate of the shared point. -/
def newSession (commit : Commit C) (peerScalarBytes : Octets scalarLen)
    (peerElementBytes : Octets elementLen) (peerScalar : ZMod C.order) (k : Octets 32) : Session :=
  let (kck, pmk) := sessionKeys P k (context commit peerScalar)
  { peerScalarBytes, peerElementBytes, ownScalarBytes := commit.scalarBytes
    ownElementBytes := commit.elementBytes, kck, pmk }

/-- The provider once the peer's commit is answered with our confirm. -/
def afterCommit (p : SaeProvider C) (context : Octets 32) (session : Session) : SaeProvider C :=
  { p with
    pmkid := some (pmkidOf context)
    sendConfirm := nextConfirm p.sendConfirm
    state := .confirmed session
    lastSent := confirmFrame P (nextConfirm p.sendConfirm) session
    sync := 0 }

/-- The peer's commit: validate it, derive the shared secret, and answer with our confirm. -/
def onCommit (p : SaeProvider C) (commit : Commit C) (body : Bytes) :
    Except Fault (SaeProvider C × Step) := do
  let (peerScalarBytes, peerElementBytes) ← (parseCommit body).mapError Fault.error
  if peerScalarBytes = commit.scalarBytes ∧ peerElementBytes = commit.elementBytes then
    .error (.error .authFailed)
  else
    let peerScalar ← (decodeScalar C peerScalarBytes).mapError Fault.error
    let peerElement ← (decodeElement C peerElementBytes).mapError Fault.error
    let kPoint := sharedPoint commit peerScalar peerElement
    if kPoint = 0 then .error (.error .authFailed)
    else
      let k ← xCoordinate C kPoint
      let session := newSession P commit peerScalarBytes peerElementBytes peerScalar k
      let frame := confirmFrame P (nextConfirm p.sendConfirm) session
      return (p.afterCommit P (context commit peerScalar) session, .send frame)

/-- The peer's confirm: the only proof that it knows the password. -/
def onConfirm (p : SaeProvider C) (session : Session) (body : Bytes) :
    Except Fault (SaeProvider C × Step) :=
  if body.length < 2 + hashLen then .error (.error .malformed)
  else
    let verifier := confirmHash P session.kck (Bytes.slice 0 2 body) session.peerScalarBytes
      session.peerElementBytes session.ownScalarBytes session.ownElementBytes
    if verifier = Bytes.slice 2 hashLen body then
      .ok ({ p with state := .accepted, lastSent := [] }, .done session.pmk)
    else .error (.error .authFailed)

/-- The provider once a token request is answered with the same commit. -/
def afterTokenRequest (p : SaeProvider C) (commit : Commit C) (token : Bytes) : SaeProvider C :=
  { p with token := some token, state := .committed commit
           lastSent := commitFrame (some token) commit, sync := 0 }

/-- A token request: the same commit again, with the token. -/
def onTokenRequest (p : SaeProvider C) (commit : Commit C) (body : Bytes) :
    Except Fault (SaeProvider C × Step) := do
  let token ← (parseToken body).mapError Fault.error
  return (p.afterTokenRequest commit token, .send (commitFrame (some token) commit))

/-- A commit to the password element `pwe`, with the secrets of the seed. The mask is sent hidden in
a point, so that only the sum of the two secrets is public. -/
def newCommit (pwe : C.Point) (seed : Octets seedLen) : Except Fault (Commit C) := do
  let (rand, mask) := commitScalars C seed
  let scalar := rand + mask
  let elementBytes ← encodeElement C (-(mask • pwe))
  return { rand, scalar, pwe, scalarBytes := scalarBytes C scalar, elementBytes }

/-- The provider once its commit is out; the seed is wiped. -/
def afterStart (p : SaeProvider C) (commit : Commit C) : SaeProvider C :=
  { p with seed := Octets.zero seedLen, state := .committed commit
           lastSent := commitFrame p.token commit, sync := 0 }

/-- Begin: derive the password element and send our commit. -/
def start (p : SaeProvider C) (ctx : AuthContext) : Except Fault (SaeProvider C × Step) :=
  match p.state with
  | .idle =>
    if ctx.akm ≠ .sae then .error (.error .unsupportedAkm)
    else do
      let pwe := passwordElement C P (passwordToken C P ctx.ssid p.password) ctx.ownMac ctx.bssid
      let commit ← newCommit pwe p.seed
      return (p.afterStart commit, .send (commitFrame p.token commit))
  | _ => .error (.error .protocol)

/-- The same call with its outcome: one that fails leaves the provider as it was. -/
def startCall (p : SaeProvider C) (ctx : AuthContext) : SaeProvider C × Except Fault Step :=
  match p.start P ctx with
  | .ok (p', step) => (p', .ok step)
  | .error e => (p, .error e)

/-- A handler that fails has taken the state with it. -/
def settle (p : SaeProvider C) (r : Except Fault (SaeProvider C × Step)) :
    SaeProvider C × Except Fault Step :=
  match r with
  | .ok (p', step) => (p', .ok step)
  | .error e => ({ p with state := .failed }, .error e)

/-- Sequence and status of a frame that is not a refusal. -/
def admissible (auth : AuthFrame) : Bool :=
  (auth.seq = seqCommit && (auth.status = statusH2e || auth.status = statusAntiClogging)) ||
    (auth.seq = seqConfirm && auth.status = statusSuccess)

/-- An authentication frame of the peer. -/
def onFrame (p : SaeProvider C) (frame : Bytes) : SaeProvider C × Except Fault Step :=
  match parseAuth frame with
  | .error e => (p, .error (.error e))
  | .ok auth =>
    if !admissible auth then (p, .error (.error .authFailed))
    else
      match p.state with
      | .committed commit =>
        if auth.seq = seqCommit then
          if auth.status = statusAntiClogging then p.settle (p.onTokenRequest commit auth.body)
          else p.settle (p.onCommit P commit auth.body)
        else (p, .ok .wait)
      | .confirmed session =>
        if auth.seq = seqConfirm then p.settle (p.onConfirm P session auth.body) else (p, .ok .wait)
      | .accepted => (p, .ok .wait)
      | .idle => (p, .error (.error .protocol))
      | .failed => (p, .error (.error .authFailed))

/-- Nothing has come: what is out is sent again, until the sync counter is past its limit. -/
def onTimeout (p : SaeProvider C) : SaeProvider C × Except Fault Step :=
  match p.state with
  | .committed _ | .confirmed _ =>
    let p := { p with sync := p.sync + 1 }
    if p.sync > syncMax then (p, .error (.error .authFailed)) else (p, .ok (.send p.lastSent))
  | .accepted => (p, .ok .wait)
  | .failed => (p, .error (.error .authFailed))
  | .idle => (p, .error (.error .protocol))

/-! ## What one frame can do -/

variable {P} {p p' : SaeProvider C} {step : Step}

theorem onCommit_eq_ok {commit : Commit C} {body : Bytes}
    (h : p.onCommit P commit body = .ok (p', step)) :
    ∃ scalarB elementB peerScalar peerElement k, parseCommit body = .ok (scalarB, elementB) ∧
      ¬ (scalarB = commit.scalarBytes ∧ elementB = commit.elementBytes) ∧
      decodeScalar C scalarB = .ok peerScalar ∧ decodeElement C elementB = .ok peerElement ∧
      xCoordinate C (sharedPoint commit peerScalar peerElement) = .ok k ∧
      p' = p.afterCommit P (context commit peerScalar)
        (newSession P commit scalarB elementB peerScalar k) ∧
      step = .send (confirmFrame P (nextConfirm p.sendConfirm)
        (newSession P commit scalarB elementB peerScalar k)) := by
  simp only [onCommit, Except.bind_eq_ok, Except.mapError_eq_ok] at h
  obtain ⟨⟨scalarB, elementB⟩, hparse, h⟩ := h
  split_ifs at h with hsame
  simp only [Except.bind_eq_ok, Except.mapError_eq_ok] at h
  obtain ⟨peerScalar, hscalar, peerElement, helement, h⟩ := h
  split_ifs at h with hzero
  simp only [Except.bind_eq_ok, Except.pure_eq_ok, Prod.mk.injEq] at h
  obtain ⟨k, hk, rfl, rfl⟩ := h
  exact ⟨scalarB, elementB, peerScalar, peerElement, k, hparse, hsame, hscalar, helement, hk, rfl, rfl⟩

theorem start_eq_ok {ctx : AuthContext} (h : p.start P ctx = .ok (p', step)) :
    p.state = .idle ∧ ∃ commit, newCommit (passwordElement C P (passwordToken C P ctx.ssid p.password)
        ctx.ownMac ctx.bssid) p.seed = .ok commit ∧
      p' = p.afterStart commit ∧ step = .send (commitFrame p.token commit) := by
  unfold start at h
  split at h
  · rename_i hst
    split_ifs at h
    simp only [Except.bind_eq_ok, Except.pure_eq_ok, Prod.mk.injEq] at h
    obtain ⟨commit, hcommit, rfl, rfl⟩ := h
    exact ⟨hst, commit, hcommit, rfl, rfl⟩
  · cases h

theorem onConfirm_eq_ok {session : Session} {body : Bytes}
    (h : p.onConfirm P session body = .ok (p', step)) :
    p' = { p with state := .accepted, lastSent := [] } ∧ step = .done session.pmk := by
  unfold onConfirm at h
  simp only at h
  split_ifs at h
  simp only [Except.ok.injEq, Prod.mk.injEq] at h
  exact ⟨h.1.symm, h.2.symm⟩

theorem onTokenRequest_eq_ok {commit : Commit C} {body : Bytes}
    (h : p.onTokenRequest commit body = .ok (p', step)) :
    ∃ token, p' = p.afterTokenRequest commit token ∧
      step = .send (commitFrame (some token) commit) := by
  simp only [onTokenRequest, Except.bind_eq_ok, Except.pure_eq_ok, Prod.mk.injEq] at h
  obtain ⟨token, -, rfl, rfl⟩ := h
  exact ⟨token, rfl, rfl⟩

/-- The exchange is under way: each timeout retransmits or ends it. -/
def UnderWay (p : SaeProvider C) : Prop :=
  (∃ commit, p.state = .committed commit) ∨ ∃ session, p.state = .confirmed session

/-- An outcome that puts nothing on the air and hands no key over. -/
def Silent : Except Fault Step → Prop
  | .ok .wait | .error _ => True
  | _ => False

variable (P) in
/-- **What one frame can do.** -/
inductive FrameStep (p : SaeProvider C) (frame : Bytes) : SaeProvider C → Except Fault Step → Prop
  | keep (r) : Silent r → FrameStep p frame p r
  | fail (e) : FrameStep p frame { p with state := .failed } (.error e)
  | token (commit token) : p.state = .committed commit →
      FrameStep p frame (p.afterTokenRequest commit token)
        (.ok (.send (commitFrame (some token) commit)))
  | commit (commit auth p' step) : p.state = .committed commit → parseAuth frame = .ok auth →
      auth.seq = seqCommit → auth.status = statusH2e →
      p.onCommit P commit auth.body = .ok (p', step) → FrameStep p frame p' (.ok step)
  | confirm (session auth) : p.state = .confirmed session → parseAuth frame = .ok auth →
      auth.seq = seqConfirm →
      FrameStep p frame { p with state := .accepted, lastSent := [] } (.ok (.done session.pmk))

theorem settle_ok {r : Except Fault (SaeProvider C × Step)} (h : r = .ok (p', step)) :
    p.settle r = (p', .ok step) := by rw [h]; rfl

/-- **Every frame does one of the five.** -/
theorem onFrame_step (p : SaeProvider C) (frame : Bytes) :
    FrameStep P p frame (p.onFrame P frame).1 (p.onFrame P frame).2 := by
  unfold onFrame
  cases hauth : parseAuth frame with
  | error e => exact .keep _ trivial
  | ok auth =>
    simp only
    by_cases hadm : admissible auth = true
    · simp only [hadm, Bool.not_true, Bool.false_eq_true, if_false]
      cases hst : p.state with
      | idle => exact .keep _ trivial
      | accepted => exact .keep _ trivial
      | failed => exact .keep _ trivial
      | committed commit =>
        simp only
        split_ifs with hseq htok
        · cases hr : p.onTokenRequest commit auth.body with
          | error e => exact .fail e
          | ok r =>
            obtain ⟨token, hp, hs⟩ := onTokenRequest_eq_ok hr
            rw [settle_ok rfl, hp, hs]
            exact .token commit token hst
        · cases hr : p.onCommit P commit auth.body with
          | error e => exact .fail e
          | ok r =>
            have hstatus : auth.status = statusH2e := by
              simpa [admissible, hseq, htok, seqCommit, seqConfirm] using hadm
            exact .commit commit auth r.1 r.2 hst hauth hseq hstatus hr
        · exact .keep _ trivial
      | confirmed session =>
        simp only
        split_ifs with hseq
        · cases hr : p.onConfirm P session auth.body with
          | error e => exact .fail e
          | ok r =>
            obtain ⟨hp, hs⟩ := onConfirm_eq_ok hr
            rw [settle_ok rfl, hp, hs]
            exact .confirm session auth hst hauth hseq
        · exact .keep _ trivial
    · simp only [hadm, Bool.not_false, if_true]
      exact .keep _ trivial

theorem onTimeout_eq (p : SaeProvider C) : ∃ sync, p.onTimeout.1 = { p with sync } ∧
    (Silent p.onTimeout.2 ∨ (p.onTimeout.2 = .ok (.send p.lastSent) ∧
      ((∃ c, p.state = .committed c) ∨ ∃ v, p.state = .confirmed v))) := by
  obtain ⟨password, seed, state, lastSent, sync, sendConfirm, token, pmkid⟩ := p
  cases state with
  | idle => exact ⟨sync, rfl, .inl trivial⟩
  | accepted => exact ⟨sync, rfl, .inl trivial⟩
  | failed => exact ⟨sync, rfl, .inl trivial⟩
  | committed c =>
    simp only [onTimeout]
    split_ifs
    · exact ⟨sync + 1, rfl, .inl trivial⟩
    · exact ⟨sync + 1, rfl, .inr ⟨rfl, .inl ⟨c, rfl⟩⟩⟩
  | confirmed v =>
    simp only [onTimeout]
    split_ifs
    · exact ⟨sync + 1, rfl, .inl trivial⟩
    · exact ⟨sync + 1, rfl, .inr ⟨rfl, .inr ⟨v, rfl⟩⟩⟩

/-! ## Frames are read back -/

section Codec

theorem parseAuth_authHeader (seq status : ℕ) (body : Bytes) (hseq : seq < 65536)
    (hstatus : status < 65536) :
    parseAuth (authHeader seq status ++ body) = .ok { seq, status, body } := by
  have halg : le16 0 (authHeader seq status ++ body) = authAlgSae := by
    rw [le16, authHeader, List.append_assoc, Bytes.ofLE_slice_toLE]
    rfl
  have hseq' : le16 2 (authHeader seq status ++ body) = seq := by
    rw [le16, authHeader, List.append_assoc, List.append_assoc,
      Bytes.slice_append_right (by simp), Bytes.length_toLE, Bytes.ofLE_slice_toLE]
    exact Nat.mod_eq_of_lt hseq
  have hstatus' : le16 4 (authHeader seq status ++ body) = status := by
    rw [le16, authHeader, List.append_assoc, List.append_assoc,
      Bytes.slice_append_right (by simp), Bytes.length_toLE,
      Bytes.slice_append_right (by simp), Bytes.length_toLE, Bytes.ofLE_slice_toLE]
    exact Nat.mod_eq_of_lt hstatus
  have hbody : (authHeader seq status ++ body).drop 6 = body := by
    rw [List.drop_left' (by simp [authHeader])]
  rw [parseAuth, if_neg (by simp [authHeader]; omega), if_neg (not_not.mpr halg), hseq', hstatus', hbody]

/-- **A commit frame is read back**, whatever token it carries. -/
theorem parseCommit_commitFrame (token : Option Bytes) (commit : Commit C) :
    ∃ body, parseAuth (commitFrame token commit) =
        .ok { seq := seqCommit, status := statusH2e, body } ∧
      parseCommit body = .ok (commit.scalarBytes, commit.elementBytes) := by
  refine ⟨_, parseAuth_authHeader _ _ _ (by decide) (by decide), ?_⟩
  have hgroup (rest : Bytes) : le16 0 (Bytes.toLE 2 groupP256 ++ rest) = groupP256 := by
    rw [le16, Bytes.ofLE_slice_toLE]
    rfl
  have hscalar (rest : Bytes) : Bytes.slice 2 scalarLen (Bytes.toLE 2 groupP256 ++
      (commit.scalarBytes.toList ++ rest)) = commit.scalarBytes := by
    rw [Bytes.slice_append_right (by simp), Bytes.length_toLE, Bytes.slice_zero_append]
  have helement (rest : Bytes) : Bytes.slice (2 + scalarLen) elementLen (Bytes.toLE 2 groupP256 ++
      (commit.scalarBytes.toList ++ (commit.elementBytes.toList ++ rest))) =
        commit.elementBytes := by
    rw [Bytes.slice_append_right (by simp), Bytes.slice_append_right (by simp)]
    simp [Bytes.slice_zero_append]
  rw [parseCommit, if_neg (by simp; omega), if_neg (not_not.mpr (hgroup _)), hscalar, helement]

/-- **A confirm frame is read back.** -/
theorem parseAuth_confirmFrame (sendConfirm : UInt16) (session : Session) :
    ∃ body, parseAuth (confirmFrame P sendConfirm session) =
        .ok { seq := seqConfirm, status := statusSuccess, body } ∧
      body.length = 2 + hashLen ∧ Bytes.slice 0 2 body = sendConfirmBytes sendConfirm ∧
      Bytes.slice 2 hashLen body = confirmHash P session.kck (sendConfirmBytes sendConfirm)
        session.ownScalarBytes session.ownElementBytes session.peerScalarBytes
        session.peerElementBytes := by
  refine ⟨_, parseAuth_authHeader _ _ _ (by decide) (by decide), by simp, ?_, ?_⟩
  · rw [Bytes.slice_zero_append]
  · rw [Bytes.slice_append_right (by simp)]
    simp only [List.Vector.toList_length, Nat.sub_self]
    have h := Bytes.slice_zero_append (confirmHash P session.kck (sendConfirmBytes sendConfirm)
      session.ownScalarBytes session.ownElementBytes session.peerScalarBytes
      session.peerElementBytes) []
    rwa [List.append_nil] at h

end Codec

/-! ## Both ends agree -/

section Agreement

theorem decodeScalar_scalarBytes {s s' : ZMod C.order}
    (h : decodeScalar C (scalarBytes C s) = .ok s') : s' = s := by
  have hlt : s.val < 256 ^ 32 := lt_trans (ZMod.val_lt s) C.orderFits
  have hval : Bytes.ofBE (scalarBytes C s).toList = s.val := by
    change Bytes.ofBE (Bytes.toBE 32 s.val) = s.val
    rw [Bytes.ofBE_toBE, Nat.mod_eq_of_lt hlt]
  simp only [decodeScalar, hval] at h
  split_ifs at h
  cases h
  exact ZMod.natCast_zmod_val s

theorem decodeElement_encodeElement {p p' : C.Point} {bytes : Octets elementLen}
    (henc : encodeElement C p = .ok bytes) (hdec : decodeElement C bytes = .ok p') : p' = p := by
  unfold encodeElement at henc
  split at henc
  · rename_i x y hxy
    cases henc
    have hx : Bytes.slice 0 32 (x.toList ++ y.toList) = x := Bytes.slice_zero_append x y.toList
    have hy : Bytes.slice 32 32 (x.toList ++ y.toList) = y := by
      rw [Bytes.slice_append_right (by simp)]
      have := Bytes.slice_zero_append y []
      rw [List.append_nil] at this
      simpa using this
    unfold decodeElement at hdec
    change (match C.fromSec1 (Bytes.slice 0 32 (x.toList ++ y.toList))
      (Bytes.slice 32 32 (x.toList ++ y.toList)) with
      | none => Except.error Error.authFailed
      | some p => if p = 0 then .error .authFailed else .ok p) = .ok p' at hdec
    rw [hx, hy, C.fromSec1_coordinates p x y hxy] at hdec
    simp only at hdec
    split_ifs at hdec
    cases hdec
    rfl
  · cases henc

theorem sortedMacs_comm (own peer : Mac) : sortedMacs own peer = sortedMacs peer own := by
  unfold sortedMacs
  cases hpo : Octets.lt peer own with
  | true => simp [Octets.lt_asymm hpo]
  | false =>
    cases hop : Octets.lt own peer with
    | true => simp
    | false => simp [Octets.eq_of_not_lt hpo hop]

theorem passwordElement_comm (pt : C.Point) (own peer : Mac) :
    passwordElement C P pt own peer = passwordElement C P pt peer own := by
  unfold passwordElement
  rw [sortedMacs_comm]

/-- The commit hides `mask`: the scalar adds it to `rand`, the element multiplies it away. -/
theorem newCommit_eq_ok {pwe : C.Point} {seed : Octets seedLen} {c : Commit C}
    (h : newCommit pwe seed = .ok c) : ∃ mask, c.pwe = pwe ∧ c.scalar = c.rand + mask ∧
      c.scalarBytes = scalarBytes C c.scalar ∧
      encodeElement C (-(mask • pwe)) = .ok c.elementBytes := by
  simp only [newCommit, Except.bind_eq_ok, Except.pure_eq_ok] at h
  obtain ⟨bytes, hbytes, rfl⟩ := h
  exact ⟨_, rfl, rfl, rfl, hbytes⟩

/-- **Both ends reach the same point**: each removes the other's mask and multiplies in its own
`rand`. -/
theorem sharedPoint_comm {pwe : C.Point} {a b : Commit C} {maskA maskB : ZMod C.order}
    (ha : a.pwe = pwe) (hb : b.pwe = pwe) (hsa : a.scalar = a.rand + maskA)
    (hsb : b.scalar = b.rand + maskB) :
    sharedPoint a b.scalar (-(maskB • pwe)) = sharedPoint b a.scalar (-(maskA • pwe)) := by
  unfold sharedPoint
  rw [ha, hb, hsa, hsb]
  module

end Agreement

end SaeProvider

/-! ## A sample group -/

/-- A group of order five with a codec of its elements. -/
def Curve.five : Curve where
  order := 5
  prime := ⟨Nat.prime_five⟩
  orderFits := by norm_num
  Point := ZMod 5
  mapToCurve _ := 1
  coordinates p := if p = 0 then none else some (⟨Bytes.toBE 32 p.val, by simp⟩, .zero 32)
  fromSec1 x _ := some (Bytes.ofBE x.toList : ZMod 5)
  fromSec1_coordinates p x y h := by
    split_ifs at h
    simp only [Option.some.injEq] at h
    obtain ⟨rfl, -⟩ := h
    have hval : Bytes.ofBE (Bytes.toBE 32 p.val) = p.val := by
      rw [Bytes.ofBE_toBE]
      exact Nat.mod_eq_of_lt (lt_trans (ZMod.val_lt p) (by norm_num))
    change some ((Bytes.ofBE (Bytes.toBE 32 p.val) : ℕ) : ZMod 5) = some p
    rw [hval, ZMod.natCast_zmod_val]

end Caw
