import Caw.Eapol.Mschapv2
import Caw.Lib.Walk

/-!
# PEAP with MSCHAPv2 inside

One EAP conversation inside another: once the tunnel stands, whole EAP packets arrive as its plaintext,
and the server's verdict is one of them.

* `Tunnel`: the TLS tunnel, as a parameter;
* `findResultTlv`: the first Result TLV of a run of TLVs;
* `Peap`, `Peap.phase2`, `Peap.onRequest`, `Peap.msk`: the method;
* `Peap.Phase2`, **`Peap.phase2_step`**: what one inner packet can do;
* `Peap.unwrap_kept`, `Peap.tunnelled_same`: the tunnel around it touches nothing of the exchange
  inside.
-/

set_option autoImplicit false

namespace Caw

open Eapol (Error)
open MsChap (firstField)
open Mschapv2 (Reply IsChallenge IsSuccess)

namespace EapType

/-- PEAP. -/
def peap : UInt8 := 25

/-- How PEAPv0 signals its result inside the tunnel. -/
def tlv : UInt8 := 33

end EapType

/-! ## The tunnel -/

/-- What the tunnel wants done with the request it was just given. -/
inductive TunnelEvent where
  /-- Answer with this Type-Data. -/
  | reply (typeData : Bytes)
  /-- The handshake is finished; this arrived inside the tunnel. -/
  | established (plaintext : Bytes)

/-- The TLS tunnel: `T` is its state. -/
structure Tunnel (T : Type) where
  /-- Feed one Type-Data. -/
  onRequest : T → Bytes → T × Except Error TunnelEvent
  emptyReply : T → Bytes
  /-- Push plaintext into the tunnel, for the first fragment of the records it makes. -/
  sendTunnelled : T → Bytes → T × Except Error Bytes
  /-- The key material of a finished handshake, for a method and its label. -/
  exportMsk : T → UInt8 → String → Except Error (Octets 64)

/-- The label of EAP-TLS, which PEAPv0 inherited. -/
def tls12LabelEapTls : String := "client EAP encryption"

/-! ## The Result TLV -/

/-- The type of a Result TLV. -/
def tlvResult : ℕ := 3

/-- Bit 15 is the mandatory flag. -/
def tlvMandatory : ℕ := 0x8000

/-- The result of success. -/
def tlvResultSuccess : ℕ := 1

/-- The result of failure. -/
def tlvResultFailure : ℕ := 2

/-- A TLV, its type and its value. -/
structure Tlv where
  tlvType : ℕ
  value : Bytes
deriving DecidableEq

/-- One TLV off the front of a run; a truncated one ends it. -/
def nextTlv : Bytes → Option (Tlv × Bytes)
  | t0 :: t1 :: l0 :: l1 :: rest =>
    if rest.length < Bytes.ofBE [l0, l1] then none
    else some ({ tlvType := Bytes.ofBE [t0, t1] % tlvMandatory
                 value := rest.take (Bytes.ofBE [l0, l1]) }, rest.drop (Bytes.ofBE [l0, l1]))
  | _ => none

/-- The verdict of a Result TLV. -/
def Tlv.result (tlv : Tlv) : Option ℕ :=
  match tlv.value with
  | hi :: lo :: _ => some (Bytes.ofBE [hi, lo])
  | _ => none

/-- Find the Result TLV in a run of TLVs, skipping any others the server sent. -/
def findResultTlv (data : Bytes) : Option ℕ :=
  ((Walk.items nextTlv data.length data).find? fun tlv => tlv.tlvType = tlvResult).bind Tlv.result

/-- Encode a Result TLV. -/
def resultTlv (result : ℕ) : Bytes :=
  Bytes.toBE 2 (tlvMandatory + tlvResult) ++ Bytes.toBE 2 2 ++ Bytes.toBE 2 result

theorem shrinks_nextTlv : Walk.Shrinks nextTlv := by
  intro b tlv rest h
  unfold nextTlv at h
  split at h
  · split_ifs at h
    cases h
    simp only [List.length_drop, List.length_cons]
    omega
  · cases h

/-- **A walk finds what it starts with.** -/
theorem findResultTlv_resultTlv {result : ℕ} (h : result < 2 ^ 16) (rest : Bytes) :
    findResultTlv (resultTlv result ++ rest) = some result := by
  have hdata : resultTlv result ++ rest =
      0x80 :: 0x03 :: 0x00 :: 0x02 :: (Bytes.toBE 2 result ++ rest) := by
    simp [resultTlv, Bytes.toBE, tlvMandatory, tlvResult]
  have hlen : (Bytes.toBE 2 result).length = 2 := Bytes.length_toBE 2 result
  have hnext : nextTlv (resultTlv result ++ rest) =
      some ({ tlvType := tlvResult, value := Bytes.toBE 2 result }, rest) := by
    have hdeclared : Bytes.ofBE [0x00, 0x02] = 2 := rfl
    have henough : ¬ (Bytes.toBE 2 result ++ rest).length < 2 := by
      rw [List.length_append, hlen]
      omega
    rw [hdata, nextTlv, hdeclared, if_neg henough, List.take_left' hlen, List.drop_left' hlen]
    rfl
  have hresult : Tlv.result { tlvType := tlvResult, value := Bytes.toBE 2 result } = some result := by
    have hvalue : Bytes.ofBE (Bytes.toBE 2 result) = result := by
      rw [Bytes.ofBE_toBE]
      exact Nat.mod_eq_of_lt h
    exact congrArg some hvalue
  unfold findResultTlv
  rw [Walk.items_eq shrinks_nextTlv, hnext, List.find?_cons_of_pos (by simp), Option.bind_some, hresult]

/-! ## The method -/

/-- PEAP with MSCHAPv2 inside. -/
structure Peap (T : Type) where
  tunnel : T
  /-- The identity sent inside the tunnel. -/
  innerIdentity : String
  inner : Mschapv2
  /-- Exported when the tunnel completes, released only once the server has accepted us. -/
  tunnelMsk : Option (Octets 64)
  authenticated : Bool

namespace Peap

variable {T : Type} (O : Tunnel T) (C : Ciphers)

/-- The method before its first request. -/
def new (tunnel : T) (identity password : String) (peerChallenge : Octets 16) : Peap T where
  tunnel := tunnel
  innerIdentity := identity
  inner := Mschapv2.withPeerChallenge identity password peerChallenge
  tunnelMsk := none
  authenticated := false

/-- The method with its tunnel moved on. -/
@[simps]
def withTunnel (p : Peap T) (tunnel : T) : Peap T := { p with tunnel := tunnel }

/-- The method with its inner exchange moved on. -/
@[simps]
def withInner (p : Peap T) (inner : Mschapv2) : Peap T := { p with inner := inner }

/-- The method once the server has accepted us. -/
@[simps]
def accepted (p : Peap T) : Peap T := { p with authenticated := true }

/-- An inner reply; without a packet the call has panicked. -/
def replied : Option Bytes → Reply := Option.map fun packet => .ok (some packet)

/-- An MSCHAPv2 request. -/
def onMschapv2 (p : Peap T) (id : UInt8) (typeData : Bytes) : Peap T × Reply :=
  match p.inner.onRequest C typeData with
  | (_, none) => (p, none)
  | (inner, some (.error e)) => (p.withInner inner, some (.error e))
  | (inner, some (.ok none)) => (p.withInner inner, some (.ok none))
  | (inner, some (.ok (some td))) =>
    match EapPacket.response id EapType.mschapv2 td with
    | none => (p, none)
    | some packet => (p.withInner inner, some (.ok (some packet)))

/-- The result, which ends the inner exchange. -/
def onResultTlv (p : Peap T) (id : UInt8) (typeData : Bytes) : Peap T × Reply :=
  match findResultTlv typeData with
  | none => (p, some (.error .malformed))
  | some result =>
    if result = tlvResultFailure then (p, some (.error .rejected))
    else if result ≠ tlvResultSuccess then (p, some (.error .malformed))
    -- the server said yes, but it is MSCHAPv2 that shows it knows the password
    else if !p.inner.authenticated then (p, some (.error .prematureSuccess))
    else (p.accepted, replied (EapPacket.response id EapType.tlv (resultTlv tlvResultSuccess)))

/-- Handle one inner EAP packet, returning the inner reply to tunnel back. -/
def phase2 (p : Peap T) (plaintext : Bytes) : Peap T × Reply :=
  match EapPacket.parse plaintext with
  | .error e => (p, some (.error e))
  | .ok packet =>
    match packet.code with
    | .request =>
      match packet.eapType with
      | none => (p, some (.error .malformed))
      | some requested =>
        let id := packet.identifier
        if requested = EapType.identity then
          (p, replied (EapPacket.response id EapType.identity (octetsOf p.innerIdentity)))
        else if requested = EapType.mschapv2 then p.onMschapv2 C id packet.typeData
        else if requested = EapType.tlv then p.onResultTlv id packet.typeData
        else (p, replied (EapPacket.nak id [EapType.mschapv2]))
    -- a server that ended phase 2 early: the TLV or the outer success decides
    | .success => (p, some (.ok none))
    | .failure => (p, some (.error .rejected))
    | .response => (p, some (.ok none))

/-- Export the key material, the first time. -/
def exported (p : Peap T) : Except Error (Peap T) :=
  match p.tunnelMsk with
  | some _ => .ok p
  | none =>
    match O.exportMsk p.tunnel EapType.peap tls12LabelEapTls with
    | .error e => .error e
    | .ok msk => .ok { p with tunnelMsk := some msk }

/-- What the tunnel makes of a request, with the key material of a handshake that is finished. -/
def unwrap (p : Peap T) (data : Bytes) : Peap T × Except Error TunnelEvent :=
  match O.onRequest p.tunnel data with
  | (t, .error e) => (p.withTunnel t, .error e)
  | (t, .ok (.reply typeData)) => (p.withTunnel t, .ok (.reply typeData))
  | (t, .ok (.established plaintext)) =>
    match (p.withTunnel t).exported O with
    | .error e => (p.withTunnel t, .error e)
    | .ok q => (q, .ok (.established plaintext))

/-- An inner packet, and its reply sent back through the tunnel. -/
def tunnelled (p : Peap T) (plaintext : Bytes) : Peap T × Reply :=
  match p.phase2 C plaintext with
  | (q, none) => (q, none)
  | (q, some (.error e)) => (q, some (.error e))
  | (q, some (.ok none)) => (q, some (.ok (some (O.emptyReply q.tunnel))))
  | (q, some (.ok (some inner))) =>
    match O.sendTunnelled q.tunnel inner with
    | (t, .error e) => (q.withTunnel t, some (.error e))
    | (t, .ok typeData) => (q.withTunnel t, some (.ok (some typeData)))

/-- A request, through the tunnel. -/
def onRequest (p : Peap T) (data : Bytes) : Peap T × Reply :=
  match p.unwrap O data with
  | (q, .error e) => (q, some (.error e))
  | (q, .ok (.reply typeData)) => (q, some (.ok (some typeData)))
  | (q, .ok (.established plaintext)) =>
    -- the handshake just finished; the server speaks first inside the tunnel
    if plaintext.isEmpty then (q, some (.ok (some (O.emptyReply q.tunnel))))
    else q.tunnelled O C plaintext

/-- The key material, once the server has accepted us. -/
def msk (p : Peap T) : Option (Octets 64) := if p.authenticated then p.tunnelMsk else none

/-! ## What an inner packet can do -/

/-- The plaintext is a request of this type. -/
def Asks (plaintext : Bytes) (id requested : UInt8) (data : Bytes) : Prop :=
  ∃ packet, EapPacket.parse plaintext = .ok packet ∧ packet.code = .request ∧
    packet.eapType = some requested ∧ packet.identifier = id ∧ packet.typeData = data

/-- Nothing is said to a request of MSCHAPv2 or to a result. -/
def Unanswered (plaintext : Bytes) (o : Reply) : Prop :=
  ∀ id requested data, Asks plaintext id requested data →
    requested = EapType.mschapv2 ∨ requested = EapType.tlv → ∀ reply, o ≠ some (.ok (some reply))

/-- **What one inner packet can do.** -/
inductive Phase2 (p : Peap T) (plaintext : Bytes) : Peap T → Reply → Prop
  | quiet (o) : Unanswered plaintext o → Phase2 p plaintext p o
  | challenged (id data msId challenge reply) : Asks plaintext id EapType.mschapv2 data →
      IsChallenge data msId challenge → p.inner.state = .awaitingChallenge →
      Phase2 p plaintext (p.withInner (p.inner.answered C challenge)) (some (.ok (some reply)))
  | proved (id data body expected reply) : Asks plaintext id EapType.mschapv2 data →
      IsSuccess data body → p.inner.state = .awaitingSuccess →
      p.inner.expectedResponse = some expected → firstField body = some expected.toList →
      Phase2 p plaintext (p.withInner p.inner.verified) (some (.ok (some reply)))
  | granted (id data reply) : Asks plaintext id EapType.tlv data →
      findResultTlv data = some tlvResultSuccess → p.inner.authenticated = true →
      Phase2 p plaintext p.accepted (some (.ok (some reply)))

section Inner

variable {C} {p : Peap T} {plaintext data : Bytes} {id requested : UInt8}

theorem Asks.unique {id' requested' : UInt8} {data' : Bytes} (h : Asks plaintext id requested data)
    (h' : Asks plaintext id' requested' data') : requested = requested' ∧ data = data' := by
  obtain ⟨packet, hparse, -, htype, -, rfl⟩ := h
  obtain ⟨packet', hparse', -, htype', -, rfl⟩ := h'
  cases hparse.symm.trans hparse'
  exact ⟨Option.some_inj.mp (htype.symm.trans htype'), rfl⟩

theorem Asks.phase2_mschapv2 (h : Asks plaintext id EapType.mschapv2 data) :
    p.phase2 C plaintext = p.onMschapv2 C id data := by
  obtain ⟨packet, hparse, hcode, htype, rfl, rfl⟩ := h
  simp only [phase2, hparse, hcode, htype]
  rfl

theorem Asks.phase2_tlv (h : Asks plaintext id EapType.tlv data) :
    p.phase2 C plaintext = p.onResultTlv id data := by
  obtain ⟨packet, hparse, hcode, htype, rfl, rfl⟩ := h
  simp only [phase2, hparse, hcode, htype]
  rfl

theorem unanswered_of_ne {o : Reply} (h : ∀ reply, o ≠ some (.ok (some reply))) :
    Unanswered plaintext o :=
  fun _ _ _ _ _ => h

theorem onMschapv2_step (h : Asks plaintext id EapType.mschapv2 data) :
    Phase2 C p plaintext (p.onMschapv2 C id data).1 (p.onMschapv2 C id data).2 := by
  have hstep := Mschapv2.onRequest_step (C := C) (m := p.inner) data
  unfold onMschapv2
  generalize p.inner.onRequest C data = q at hstep ⊢
  obtain ⟨m, o⟩ := q
  cases hstep with
  | refuse e => exact .quiet _ (unanswered_of_ne fun _ h => nomatch h)
  | panic msId challenge => exact .quiet _ (unanswered_of_ne fun _ h => nomatch h)
  | answer msId challenge reply hchallenge hst hreply =>
    dsimp only
    cases hresponse : EapPacket.response id EapType.mschapv2 reply with
    | none => exact .quiet _ (unanswered_of_ne fun _ h => nomatch h)
    | some packet => exact .challenged id data msId challenge packet h hchallenge hst
  | accept body expected hsuccess hst hexpected hfield =>
    exact .proved id data body expected _ h hsuccess hst hexpected hfield

theorem onResultTlv_step (h : Asks plaintext id EapType.tlv data) :
    Phase2 C p plaintext (p.onResultTlv id data).1 (p.onResultTlv id data).2 := by
  unfold onResultTlv
  cases hfind : findResultTlv data with
  | none => exact .quiet _ (unanswered_of_ne fun _ h => nomatch h)
  | some result =>
    dsimp only
    split_ifs with hfailure hsuccess hproved
    · exact .quiet _ (unanswered_of_ne fun _ h => nomatch h)
    · exact .quiet _ (unanswered_of_ne fun _ h => nomatch h)
    · exact .quiet _ (unanswered_of_ne fun _ h => nomatch h)
    · rw [not_not.mp hsuccess] at hfind
      exact .granted id data _ h hfind (by simpa using hproved)

theorem phase2_step (plaintext : Bytes) :
    Phase2 C p plaintext (p.phase2 C plaintext).1 (p.phase2 C plaintext).2 := by
  cases hparse : EapPacket.parse plaintext with
  | error e =>
    simp only [phase2, hparse]
    exact .quiet _ (unanswered_of_ne fun _ h => nomatch h)
  | ok packet =>
    have hother : (∀ requested, packet.code = .request → packet.eapType = some requested →
        requested ≠ EapType.mschapv2 ∧ requested ≠ EapType.tlv) → ∀ o, Unanswered plaintext o := by
      rintro hne o id requested data ⟨packet', hparse', hcode, htype, -, -⟩ heither
      cases hparse.symm.trans hparse'
      obtain ⟨hmschapv2, htlv⟩ := hne requested hcode htype
      exact absurd heither (not_or.mpr ⟨hmschapv2, htlv⟩)
    cases hcode : packet.code with
    | request =>
      cases htype : packet.eapType with
      | none =>
        simp only [phase2, hparse, hcode, htype]
        exact .quiet _ (unanswered_of_ne fun _ h => nomatch h)
      | some requested =>
        by_cases hmschapv2 : requested = EapType.mschapv2
        · subst hmschapv2
          have hasks : Asks plaintext packet.identifier EapType.mschapv2 packet.typeData :=
            ⟨packet, hparse, hcode, htype, rfl, rfl⟩
          rw [hasks.phase2_mschapv2]
          exact onMschapv2_step hasks
        by_cases htlv : requested = EapType.tlv
        · subst htlv
          have hasks : Asks plaintext packet.identifier EapType.tlv packet.typeData :=
            ⟨packet, hparse, hcode, htype, rfl, rfl⟩
          rw [hasks.phase2_tlv]
          exact onResultTlv_step hasks
        simp only [phase2, hparse, hcode, htype, if_neg hmschapv2, if_neg htlv]
        have hquiet := hother fun requested' _ htype' => by
          cases htype.symm.trans htype'
          exact ⟨hmschapv2, htlv⟩
        split_ifs
        · exact .quiet _ (hquiet _)
        · exact .quiet _ (hquiet _)
    | success =>
      simp only [phase2, hparse, hcode]
      exact .quiet _ (unanswered_of_ne fun _ h => nomatch h)
    | failure =>
      simp only [phase2, hparse, hcode]
      exact .quiet _ (unanswered_of_ne fun _ h => nomatch h)
    | response =>
      simp only [phase2, hparse, hcode]
      exact .quiet _ (unanswered_of_ne fun _ h => nomatch h)

end Inner

/-! ### A name that fits -/

/-- The name fits the packets that carry it. -/
structure Fits (p : Peap T) : Prop where
  identity : (octetsOf p.innerIdentity).length + 5 < 65536
  username : (octetsOf p.inner.username).length + 59 < 65536

theorem exists_response (id requested : UInt8) {data : Bytes} (h : data.length + 5 < 65536) :
    ∃ packet, EapPacket.response id requested data = some packet := by
  unfold EapPacket.response EapPacket.encode
  dsimp only
  rw [if_pos (by simp only [eapHdrLen, List.length_cons]; omega)]
  exact ⟨_, rfl⟩

section Fitting

variable {O C} {p : Peap T}

/-- What is answered to an inner packet is no panic, and the name still fits. -/
structure Fitting (r : Peap T × Reply) : Prop where
  fits : r.1.Fits
  isSome : r.2.isSome

theorem fitting_of {q : Peap T} {x : Except Error (Option Bytes)} (h : q.Fits) :
    Fitting (q, some x) :=
  ⟨h, rfl⟩

theorem onMschapv2_fitting (h : p.Fits) (id : UInt8) (data : Bytes) :
    Fitting (p.onMschapv2 C id data) := by
  obtain ⟨husername, x, hx, hlength⟩ := Mschapv2.onRequest_fits (C := C) h.username data
  unfold onMschapv2
  generalize p.inner.onRequest C data = r at husername hx ⊢
  obtain ⟨inner, o⟩ := r
  dsimp only at husername hx
  subst hx
  have hfits : (p.withInner inner).Fits :=
    ⟨h.identity, by rw [withInner_inner, husername]; exact h.username⟩
  cases x with
  | error e => exact fitting_of hfits
  | ok reply =>
    cases reply with
    | none => exact fitting_of hfits
    | some reply =>
      obtain ⟨packet, hpacket⟩ := exists_response id EapType.mschapv2 (hlength reply rfl)
      simp only [hpacket]
      exact fitting_of hfits

theorem onResultTlv_fitting (h : p.Fits) (id : UInt8) (data : Bytes) :
    Fitting (p.onResultTlv id data) := by
  unfold onResultTlv
  split
  · exact fitting_of h
  · split_ifs
    · exact fitting_of h
    · exact fitting_of h
    · exact fitting_of h
    · exact ⟨⟨h.identity, h.username⟩, rfl⟩

theorem phase2_fitting (h : p.Fits) (plaintext : Bytes) : Fitting (p.phase2 C plaintext) := by
  unfold phase2
  split
  · exact fitting_of h
  · rename_i packet hparse
    split
    · split
      · exact fitting_of h
      · dsimp only
        split_ifs
        · obtain ⟨reply, hreply⟩ := exists_response packet.identifier EapType.identity h.identity
          rw [hreply]
          exact fitting_of h
        · exact onMschapv2_fitting h _ _
        · exact onResultTlv_fitting h _ _
        · exact fitting_of h
    · exact fitting_of h
    · exact fitting_of h
    · exact fitting_of h

end Fitting

/-! ## What a request can do -/

section Requests

variable {O C} {p q : Peap T} {data plaintext : Bytes}

/-- The exchange inside, without the tunnel around it. -/
structure Same (p q : Peap T) : Prop where
  inner : q.inner = p.inner
  authenticated : q.authenticated = p.authenticated
  tunnelMsk : q.tunnelMsk = p.tunnelMsk

/-- The exchange inside is as it was, and so is the key if there was one. -/
structure Kept (p q : Peap T) : Prop where
  inner : q.inner = p.inner
  identity : q.innerIdentity = p.innerIdentity
  authenticated : q.authenticated = p.authenticated
  tunnelMsk : p.tunnelMsk.isSome → q.tunnelMsk = p.tunnelMsk

theorem exported_eq_ok (h : p.exported O = .ok q) : Kept p q ∧ q.tunnelMsk.isSome := by
  unfold exported at h
  split at h
  · rename_i msk hmsk
    cases h
    exact ⟨⟨rfl, rfl, rfl, fun _ => rfl⟩, by rw [hmsk]; rfl⟩
  · rename_i hmsk
    split at h
    · cases h
    · cases h
      exact ⟨⟨rfl, rfl, rfl, fun hsome => by simp [hmsk] at hsome⟩, rfl⟩

theorem unwrap_kept (data : Bytes) : Kept p (p.unwrap O data).1 := by
  unfold unwrap
  split
  · exact ⟨rfl, rfl, rfl, fun _ => rfl⟩
  · exact ⟨rfl, rfl, rfl, fun _ => rfl⟩
  · split
    · exact ⟨rfl, rfl, rfl, fun _ => rfl⟩
    · rename_i t plaintext hrequest q hexported
      obtain ⟨hinner, hidentity, hauthenticated, hmsk⟩ := (exported_eq_ok hexported).1
      exact ⟨hinner, hidentity, hauthenticated, hmsk⟩

theorem unwrap_established (h : p.unwrap O data = (q, .ok (.established plaintext))) :
    q.tunnelMsk.isSome := by
  unfold unwrap at h
  split at h
  · cases h
  · cases h
  · split at h
    · cases h
    · rename_i hexported
      cases h
      exact (exported_eq_ok hexported).2

theorem tunnelled_same (plaintext : Bytes) :
    Same (p.phase2 C plaintext).1 (p.tunnelled O C plaintext).1 := by
  unfold tunnelled
  split
  · rename_i hphase
    rw [hphase]
    exact ⟨rfl, rfl, rfl⟩
  · rename_i hphase
    rw [hphase]
    exact ⟨rfl, rfl, rfl⟩
  · rename_i hphase
    rw [hphase]
    exact ⟨rfl, rfl, rfl⟩
  · rename_i hphase
    rw [hphase]
    split <;> exact ⟨rfl, rfl, rfl⟩

theorem tunnelled_error {e : Error} (h : p.phase2 C plaintext = (q, some (.error e))) :
    p.tunnelled O C plaintext = (q, some (.error e)) := by
  simp only [tunnelled, h]

theorem onRequest_inside (h : p.unwrap O data = (q, .ok (.established plaintext)))
    (hne : plaintext ≠ []) : p.onRequest O C data = q.tunnelled O C plaintext := by
  have hempty : plaintext.isEmpty = false := by simpa using hne
  simp only [onRequest, h, hempty]
  rfl

/-- **A name that fits** keeps every request from a panic. -/
theorem onRequest_fitting (h : p.Fits) (data : Bytes) : Fitting (p.onRequest O C data) := by
  have hkept := unwrap_kept (O := O) (p := p) data
  have hunwrap : (p.unwrap O data).1.Fits :=
    ⟨by rw [hkept.identity]; exact h.identity, by rw [hkept.inner]; exact h.username⟩
  unfold onRequest
  split
  · rename_i heq
    rw [heq] at hunwrap
    exact fitting_of hunwrap
  · rename_i heq
    rw [heq] at hunwrap
    exact fitting_of hunwrap
  · rename_i q plaintext heq
    rw [heq] at hunwrap
    have hphase := phase2_fitting (C := C) hunwrap plaintext
    split_ifs
    · exact fitting_of hunwrap
    · unfold tunnelled
      generalize q.phase2 C plaintext = r at hphase ⊢
      obtain ⟨q', o⟩ := r
      obtain ⟨x, rfl⟩ := Option.isSome_iff_exists.mp hphase.isSome
      have hfits := hphase.fits
      rcases x with e | _ | inner
      · exact fitting_of hfits
      · exact fitting_of hfits
      · dsimp only
        split
        · exact fitting_of ⟨hfits.identity, hfits.username⟩
        · exact fitting_of ⟨hfits.identity, hfits.username⟩

theorem onRequest_outside
    (h : ∀ q plaintext, p.unwrap O data = (q, .ok (.established plaintext)) → plaintext = []) :
    (p.onRequest O C data).1 = (p.unwrap O data).1 := by
  unfold onRequest
  split
  · rename_i hunwrap
    rw [hunwrap]
  · rename_i hunwrap
    rw [hunwrap]
  · rename_i hunwrap
    rw [hunwrap, h _ _ hunwrap]
    rfl

end Requests

end Peap

end Caw
