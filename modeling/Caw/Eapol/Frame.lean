import Caw.Crypto.Primitives
import Caw.Lib.Except

/-!
# EAPOL frames and the EAPOL-Key descriptor

* `Eapol.parse`, `Eapol.encode`: the four-octet header and the body it declares;
* `KeyInfo`, `KeyFrame`, `KeyFrame.parse`, `KeyFrame.encode`, `KeyFrame.encodeSigned`;
* `verifyFrameMic`: the Key MIC of a received frame;
* `keyDataItems`, `gtkKde`, `rsnElement`: the decrypted Key Data field;
* **`KeyFrame.parse_body`**, **`KeyFrame.parse_encode`**: what is written is read back;
* **`KeyFrame.encodeSigned_eq`**: a signed frame is the plain one with its MIC field filled in, and
  **`KeyFrame.verifyFrameMic_signed`**: it verifies under the key that signed it;
* **`KeyFrame.survives_wire`**: what a receiver reads of a frame that was padded out on the way.
-/

namespace Caw

/-- An error number of the operating system. -/
structure Errno where
  raw : Int32
deriving DecidableEq

namespace Eapol

/-- The EAPOL crate's errors. -/
inductive Error where
  | malformed
  | crypto (e : Crypto.Error)
  | rejected
  | io (e : Errno)
  | unsupportedPacketType (t : UInt8)
  | unsupportedEapCode (c : UInt8)
  | unsupportedDescriptor (t : UInt8)
  | unexpectedMessage
  | replayedCounter
  | nonceMismatch
  | rsnMissing
  | rsnMismatch
  | gtkMissing
  | timeout
  | fragmentOutOfOrder
  | fragmentTooLarge
  | prematureSuccess
  | tls (text : String)
  | noCryptoProvider
  | certificateStore (text : String)
  | noPeer
  | shortSend
deriving DecidableEq

/-- A crypto error inside the handshake. -/
def liftCrypto {α : Type} : Except Crypto.Error α → Except Error α := Except.mapError Error.crypto

@[simp] theorem liftCrypto_ok {α : Type} (a : α) : liftCrypto (.ok a) = .ok a := rfl

@[simp] theorem liftCrypto_error {α : Type} (e : Crypto.Error) :
    liftCrypto (.error e : Except Crypto.Error α) = .error (.crypto e) := rfl

theorem liftCrypto_eq_ok {α : Type} {x : Except Crypto.Error α} {a : α} :
    liftCrypto x = .ok a ↔ x = .ok a :=
  Except.mapError_eq_ok

/-- Protocol version, packet type, body length. -/
abbrev eapolHdrLen : ℕ := 4

/-- The EAPOL packet type. -/
inductive PacketType where
  | eap
  | start
  | logoff
  | key
deriving DecidableEq

namespace PacketType

/-- The packet type a number stands for. -/
def fromU8 (v : UInt8) : Except Error PacketType :=
  if v = 0 then .ok eap
  else if v = 1 then .ok start
  else if v = 2 then .ok logoff
  else if v = 3 then .ok key
  else .error (.unsupportedPacketType v)

/-- The packet type on the wire. -/
def toU8 : PacketType → UInt8
  | eap => 0
  | start => 1
  | logoff => 2
  | key => 3

@[simp] theorem fromU8_toU8 (t : PacketType) : fromU8 t.toU8 = .ok t := by cases t <;> rfl

end PacketType

end Eapol

open Eapol (Error PacketType eapolHdrLen)

/-- A decoded EAPOL frame. -/
structure Eapol where
  version : UInt8
  packetType : PacketType
  /-- The body, trimmed to the length the header declares. -/
  body : Bytes
  /-- Header and body together: the input to an EAPOL-Key MIC. -/
  raw : Bytes
deriving DecidableEq

namespace Eapol

/-- Decode the header and trim the body to the length it declares. -/
def parse (buf : Bytes) : Except Error Eapol :=
  match buf with
  | version :: packetType :: hi :: lo :: rest => do
    let bodyLen := Bytes.ofBE [hi, lo]
    if rest.length < bodyLen then .error .malformed
    else
      let packetType ← PacketType.fromU8 packetType
      return { version, packetType, body := rest.take bodyLen
               raw := buf.take (eapolHdrLen + bodyLen) }
  | _ => .error .malformed

/-- Build a frame around a body. -/
def encode (version : UInt8) (packetType : PacketType) (body : Bytes) : Bytes :=
  [version, packetType.toU8] ++ Bytes.toBE 2 body.length ++ body

/-- **A frame is read back as it was built**, and what pads it out is left off. -/
theorem parse_encode_append (version : UInt8) (packetType : PacketType) (body pad : Bytes)
    (h : body.length < 65536) :
    parse (encode version packetType body ++ pad) =
      .ok { version, packetType, body, raw := encode version packetType body } := by
  obtain ⟨hi, lo, hlen⟩ : ∃ hi lo, Bytes.toBE 2 body.length = [hi, lo] := ⟨_, _, rfl⟩
  have hval : Bytes.ofBE [hi, lo] = body.length := by
    rw [← hlen, Bytes.ofBE_toBE, Nat.mod_eq_of_lt (by omega)]
  have henc : encode version packetType body = version :: packetType.toU8 :: hi :: lo :: body := by
    rw [encode, hlen]; rfl
  have hshort : ¬ (body ++ pad).length < body.length := by
    rw [List.length_append]
    omega
  rw [henc, List.cons_append, List.cons_append, List.cons_append, List.cons_append, parse]
  simp only [hval, hshort, if_false, PacketType.fromU8_toU8]
  change Except.ok _ = Except.ok _
  rw [List.take_left' rfl, eapolHdrLen, Nat.add_comm, List.take_succ_cons, List.take_succ_cons,
    List.take_succ_cons, List.take_succ_cons, List.take_left' rfl]

theorem parse_encode (version : UInt8) (packetType : PacketType) (body : Bytes)
    (h : body.length < 65536) :
    parse (encode version packetType body) =
      .ok { version, packetType, body, raw := encode version packetType body } := by
  rw [← List.append_nil (encode version packetType body), parse_encode_append _ _ _ _ h,
    List.append_nil]

end Eapol

/-! ## The Key Information field -/

/-- Descriptor type 2: the RSN key descriptor. -/
def descriptorTypeRsn : UInt8 := 2

/-- The Key Information bitfield. -/
structure KeyInfo where
  bits : UInt16
deriving DecidableEq

namespace KeyInfo

/-- Key information: the key is pairwise. -/
def PAIRWISE : UInt16 := 0x0008
/-- Key information: the key is to be installed. -/
def INSTALL : UInt16 := 0x0040
/-- Key information: an answer is wanted. -/
def ACK : UInt16 := 0x0080
/-- Key information: the frame carries a MIC. -/
def MIC : UInt16 := 0x0100
/-- Key information: the initial exchange is complete. -/
def SECURE : UInt16 := 0x0200
/-- Key information: the supplicant asks for an exchange. -/
def REQUEST : UInt16 := 0x0800
/-- Key information: the key data is wrapped. -/
def ENCRYPTED : UInt16 := 0x1000

/-- Which MIC and key-wrap pairing this frame uses under `akm`. -/
def version (k : KeyInfo) (akm : Akm) : Except Error KeyDescriptorVersion :=
  Eapol.liftCrypto (KeyDescriptorVersion.fromKeyInfoFor k.bits akm)

/-- The frame is of the pairwise handshake. -/
def pairwise (k : KeyInfo) : Bool := k.bits &&& PAIRWISE != 0
/-- The frame wants an answer. -/
def ack (k : KeyInfo) : Bool := k.bits &&& ACK != 0
/-- The frame carries a MIC. -/
def mic (k : KeyInfo) : Bool := k.bits &&& MIC != 0
/-- The frame asks for an exchange. -/
def request (k : KeyInfo) : Bool := k.bits &&& REQUEST != 0
/-- The key data is wrapped. -/
def encrypted (k : KeyInfo) : Bool := k.bits &&& ENCRYPTED != 0

end KeyInfo

/-! ## The key descriptor -/

/-- Where the key information stands. -/
def offKeyInfo : ℕ := 1
/-- Where the key length stands. -/
def offKeyLength : ℕ := 3
/-- Where the replay counter stands. -/
def offReplayCounter : ℕ := 5
/-- Where the nonce stands. -/
def offKeyNonce : ℕ := 13
/-- Where the initialisation vector stands. -/
def offKeyIv : ℕ := 45
/-- Where the receive sequence counter stands. -/
def offKeyRsc : ℕ := 61
/-- Where the MIC stands. -/
def offKeyMic : ℕ := 77
/-- Where the length of the key data stands. -/
def offKeyDataLen : ℕ := 93

/-- Size of an EAPOL-Key body with an empty Key Data field. -/
def bodyMin : ℕ := 95

/-- Where the Key MIC sits in a complete EAPOL frame. -/
def micOffset : ℕ := eapolHdrLen + offKeyMic

/-- One EAPOL-Key frame. -/
structure KeyFrame where
  descriptorType : UInt8
  keyInfo : KeyInfo
  keyLength : UInt16
  replayCounter : UInt64
  /-- ANonce from the authenticator, SNonce from the supplicant. -/
  keyNonce : Octets 32
  keyIv : Octets 16
  keyRsc : Octets 8
  keyMic : Octets micLen
  keyData : Bytes
deriving DecidableEq

/-- The big-endian number in the `n` octets at an offset. -/
def beAt (off n : ℕ) (b : Bytes) : ℕ := Bytes.ofBE (Bytes.slice off n b).toList

namespace KeyFrame

/-- Parse an EAPOL-Key body, everything after the EAPOL header. -/
def parse (body : Bytes) : Except Error KeyFrame :=
  if body.length < bodyMin then .error .malformed
  else
    let keyDataLen := beAt offKeyDataLen 2 body
    if body.length < bodyMin + keyDataLen then .error .malformed
    else
      .ok { descriptorType := body.headD 0
            keyInfo := ⟨UInt16.ofNat (beAt offKeyInfo 2 body)⟩
            keyLength := UInt16.ofNat (beAt offKeyLength 2 body)
            replayCounter := UInt64.ofNat (beAt offReplayCounter 8 body)
            keyNonce := Bytes.slice offKeyNonce 32 body
            keyIv := Bytes.slice offKeyIv 16 body
            keyRsc := Bytes.slice offKeyRsc 8 body
            keyMic := Bytes.slice offKeyMic micLen body
            keyData := (body.drop bodyMin).take keyDataLen }

/-- The fields from the descriptor type up to the Key MIC. -/
def beforeMic (f : KeyFrame) : Bytes :=
  f.descriptorType :: (Bytes.toBE 2 f.keyInfo.bits.toNat ++ (Bytes.toBE 2 f.keyLength.toNat ++
    (Bytes.toBE 8 f.replayCounter.toNat ++ (f.keyNonce.toList ++ (f.keyIv.toList ++
      (f.keyRsc.toList ++ List.replicate 8 0))))))

/-- The Key Data field and its length. -/
def afterMic (f : KeyFrame) : Bytes := Bytes.toBE 2 f.keyData.length ++ f.keyData

/-- The body of the frame: every field at its offset, the reserved octets zero. -/
def body (f : KeyFrame) : Bytes := f.beforeMic ++ (f.keyMic.toList ++ f.afterMic)

/-- Encode as a complete EAPOL frame, with the Key MIC as the frame holds it. The source panics
when the length does not fit sixteen bits; `Config` keeps every frame of the handshake below. -/
def encode (f : KeyFrame) (protocolVersion : UInt8) : Bytes :=
  Eapol.encode protocolVersion .key f.body

/-- Encode and fill in the Key MIC over the finished frame, the field itself zeroed. -/
def encodeSigned (P : Primitives) (f : KeyFrame) (protocolVersion : UInt8) (kck : Octets 16)
    (version : KeyDescriptorVersion) : Bytes :=
  let frame := Bytes.splice micOffset (List.replicate micLen 0) (f.encode protocolVersion)
  Bytes.splice micOffset (computeMic P kck version frame).toList frame

@[simp] theorem length_beforeMic (f : KeyFrame) : f.beforeMic.length = offKeyMic := by
  simp [beforeMic, offKeyMic]

@[simp] theorem length_body (f : KeyFrame) : f.body.length = bodyMin + f.keyData.length := by
  simp [body, afterMic, offKeyMic, bodyMin, micLen]
  omega

end KeyFrame

/-- Check the Key MIC of a received frame, trimmed to its declared body length. -/
def verifyFrameMic (P : Primitives) (frame : Bytes) (kck : Octets 16)
    (version : KeyDescriptorVersion) (mic : Octets micLen) : Except Error Unit :=
  if frame.length < micOffset + micLen then .error .malformed
  else
    let zeroed := Bytes.splice micOffset (List.replicate micLen 0) frame
    Eapol.liftCrypto (verifyMic P kck version zeroed mic)

namespace KeyFrame

/-! ## Round trips -/

section Fields

variable (f : KeyFrame)

theorem beAt_keyDataLen (h : f.keyData.length < 65536) :
    beAt offKeyDataLen 2 f.body = f.keyData.length := by
  have hs : Bytes.slice offKeyDataLen 2 f.body = Bytes.slice 0 2 f.afterMic := by
    rw [body, Bytes.slice_append_right (by simp [offKeyMic, offKeyDataLen]),
      Bytes.slice_append_right (by simp [offKeyMic, offKeyDataLen, micLen])]
    simp [offKeyMic, offKeyDataLen, micLen]
  rw [beAt, hs, afterMic, Bytes.ofBE_slice_toBE, Nat.mod_eq_of_lt (by omega)]

theorem drop_bodyMin : f.body.drop bodyMin = f.keyData := by
  have h : f.body = (f.beforeMic ++ (f.keyMic.toList ++ Bytes.toBE 2 f.keyData.length)) ++
      f.keyData := by
    simp [body, afterMic]
  rw [h, List.drop_append_of_le_length (by simp [offKeyMic, bodyMin, micLen]),
    List.drop_of_length_le (by simp [offKeyMic, bodyMin, micLen]), List.nil_append]

end Fields

/-- **The body of a frame is read back field by field.** -/
theorem parse_body (f : KeyFrame) (h : f.keyData.length < 65536) : parse f.body = .ok f := by
  have hlen : beAt offKeyDataLen 2 f.body = f.keyData.length := f.beAt_keyDataLen h
  have hmic : Bytes.slice offKeyMic micLen f.body = f.keyMic := by
    rw [body, Bytes.slice_append_right (by simp), length_beforeMic, Nat.sub_self]
    exact Bytes.slice_zero_append f.keyMic f.afterMic
  rw [parse]
  simp only [hlen, hmic, f.drop_bodyMin, length_body, Nat.not_lt_of_le (Nat.le_add_right _ _),
    if_false, lt_self_iff_false, List.take_length]
  congr 1
  obtain ⟨dt, ⟨ki⟩, kl, rc, nonce, iv, rsc, mic, data⟩ := f
  simp [body, beforeMic, offKeyInfo, offKeyLength, offReplayCounter, offKeyNonce, offKeyIv,
    offKeyRsc, beAt, Bytes.slice_cons, Bytes.slice_append_right, Bytes.ofBE_slice_toBE,
    Bytes.slice_zero_append]

/-- Writing a MIC into an encoded frame is encoding the frame with that MIC. -/
theorem splice_encode (f : KeyFrame) (v : UInt8) (mic : Octets micLen) :
    Bytes.splice micOffset mic.toList (f.encode v) = { f with keyMic := mic }.encode v := by
  have split (g : KeyFrame) : g.encode v =
      (([v, PacketType.key.toU8] ++ Bytes.toBE 2 g.body.length) ++ g.beforeMic) ++
        (g.keyMic.toList ++ g.afterMic) := by
    simp only [encode, Eapol.encode, body, List.append_assoc]
  rw [split, split, Bytes.splice_append _ _ _ _ (by simp [micOffset, eapolHdrLen]; omega) (by simp)]
  simp only [length_body]
  rfl

/-- The frame whose Key MIC field is the MIC over the frame with that field zeroed. -/
def signed (P : Primitives) (f : KeyFrame) (protocolVersion : UInt8) (kck : Octets 16)
    (version : KeyDescriptorVersion) : KeyFrame :=
  { f with keyMic := computeMic P kck version
             ({ f with keyMic := Octets.zero micLen }.encode protocolVersion) }

/-- **Signing a frame fills in its MIC field** and changes no other. -/
theorem encodeSigned_eq (P : Primitives) (f : KeyFrame) (v : UInt8) (kck : Octets 16)
    (version : KeyDescriptorVersion) :
    f.encodeSigned P v kck version = (f.signed P v kck version).encode v := by
  have hz : List.replicate micLen 0 = (Octets.zero micLen).toList := rfl
  rw [encodeSigned, hz, splice_encode, splice_encode]
  rfl

/-- **A signed frame verifies under the key that signed it.** -/
theorem verifyFrameMic_signed (P : Primitives) (f : KeyFrame) (v : UInt8) (kck : Octets 16)
    (version : KeyDescriptorVersion) :
    verifyFrameMic P ((f.signed P v kck version).encode v) kck version
      (f.signed P v kck version).keyMic = .ok () := by
  have hz : List.replicate micLen 0 = (Octets.zero micLen).toList := rfl
  have hlen : ¬ ((f.signed P v kck version).encode v).length < micOffset + micLen := by
    simp [encode, Eapol.encode, micOffset, eapolHdrLen, offKeyMic, bodyMin, micLen]
    omega
  rw [verifyFrameMic, if_neg hlen]
  simp only [hz, splice_encode]
  exact congrArg Eapol.liftCrypto (verifyMic_computeMic P kck version _)

theorem parse_encode (f : KeyFrame) (v : UInt8) (h : bodyMin + f.keyData.length < 65536) :
    Eapol.parse (f.encode v) =
      .ok { version := v, packetType := .key, body := f.body, raw := f.encode v } :=
  Eapol.parse_encode v .key f.body (by simpa using h)

/-- **A key frame survives the wire.** Whatever its fields are and whatever pads it out, a frame whose
key data fit is read back with its version, its type, its own octets and every field; and a signed one
as the frame with the MIC filled in, which verifies under the key that signed it. -/
theorem survives_wire (P : Primitives) (f : KeyFrame) (v : UInt8) (kck : Octets 16)
    (version : KeyDescriptorVersion) (pad : Bytes) (h : f.keyData.length ≤ 65440) :
    (∃ e, Eapol.parse (f.encode v ++ pad) = .ok e ∧ e.version = v ∧ e.packetType = .key ∧
      e.raw = f.encode v ∧ KeyFrame.parse e.body = .ok f) ∧
    ∃ e g, Eapol.parse (f.encodeSigned P v kck version ++ pad) = .ok e ∧ e.version = v ∧
      e.packetType = .key ∧ e.raw = f.encodeSigned P v kck version ∧
      KeyFrame.parse e.body = .ok g ∧ { g with keyMic := f.keyMic } = f ∧
      verifyFrameMic P e.raw kck version g.keyMic = .ok () := by
  have hread (g : KeyFrame) (hg : g.keyData.length ≤ 65440) :
      Eapol.parse (g.encode v ++ pad) =
          .ok { version := v, packetType := .key, body := g.body, raw := g.encode v } ∧
        KeyFrame.parse g.body = .ok g := by
    have hbody : g.body.length < 65536 := by
      rw [length_body, bodyMin]
      omega
    exact ⟨Eapol.parse_encode_append v .key g.body pad hbody, g.parse_body (by omega)⟩
  constructor
  · exact ⟨_, (hread f h).1, rfl, rfl, rfl, (hread f h).2⟩
  · have hsigned := hread (f.signed P v kck version) h
    rw [encodeSigned_eq]
    exact ⟨_, _, hsigned.1, rfl, rfl, rfl, hsigned.2, rfl, f.verifyFrameMic_signed P v kck version⟩

/-- A frame with the largest key data there is. -/
def largest : KeyFrame where
  descriptorType := descriptorTypeRsn
  keyInfo := ⟨0x13ca⟩
  keyLength := 16
  replayCounter := 0x0102030405060708
  keyNonce := .replicate 32 0x21
  keyIv := .replicate 16 0x22
  keyRsc := .replicate 8 0x23
  keyMic := .replicate micLen 0x24
  keyData := List.replicate 65440 0xde

theorem survives_wire_largest : ∃ e, Eapol.parse (largest.encode 2 ++ List.replicate 9 0) = .ok e ∧
    KeyFrame.parse e.body = .ok largest := by
  have hfits : largest.keyData.length ≤ 65440 := List.length_replicate.le
  obtain ⟨⟨e, he, -, -, -, hf⟩, -⟩ :=
    largest.survives_wire .sample 2 (.zero 16) .hmacSha1 (List.replicate 9 0) hfits
  exact ⟨e, he, hf⟩

end KeyFrame

/-! ## The decrypted Key Data field -/

/-- A group temporal key and the index the authenticator assigned it. -/
structure Gtk where
  key : Bytes
  index : UInt8
deriving DecidableEq

/-- 00-0F-AC, the OUI that prefixes the standard KDEs. -/
def ouiIeee : Bytes := [0x00, 0x0f, 0xac]

/-- The type of a KDE with a group key. -/
def kdeGtk : UInt8 := 1
/-- The element a KDE is carried in. -/
def eidVendor : UInt8 := 221
/-- The RSN element. -/
def eidRsn : UInt8 := 48

/-- One element of a decrypted Key Data field: a KDE or a bare element. -/
inductive KeyDataItem where
  | kde (oui : Bytes) (dataType : UInt8) (data : Bytes)
  /-- The element including its two-byte header. -/
  | ie (id : UInt8) (raw : Bytes)
deriving DecidableEq

/-- The item an element is: a vendor element of four octets or more is a KDE. -/
def KeyDataItem.ofElement (id len : UInt8) (payload : Bytes) : KeyDataItem :=
  if id = eidVendor then
    match payload with
    | a :: b :: c :: dataType :: data => .kde [a, b, c] dataType data
    | _ => .ie id (id :: len :: payload)
  else .ie id (id :: len :: payload)

theorem KeyDataItem.ofElement_ie {id len : UInt8} {payload : Bytes} (h : id ≠ eidVendor) :
    KeyDataItem.ofElement id len payload = .ie id (id :: len :: payload) := by
  unfold KeyDataItem.ofElement
  exact if_neg h

/-- The elements of a decrypted Key Data field. A zero length is the padding of the key wrap and
ends the field, as does an element that overruns it. -/
def keyDataItems (data : Bytes) : List KeyDataItem :=
  match data with
  | id :: len :: rest =>
    if len = 0 ∨ rest.length < len.toNat then []
    else .ofElement id len (rest.take len.toNat) :: keyDataItems (rest.drop len.toNat)
  | _ => []
termination_by data.length
decreasing_by simp only [List.length_drop, List.length_cons]; omega

/-- The GTK of a KDE body: a flags octet, a reserved octet, the key. -/
def Gtk.ofKde : Bytes → Except Error Gtk
  | flags :: _reserved :: key =>
    if key.length ≠ 16 ∧ key.length ≠ 32 then .error .malformed
    else .ok { key, index := flags &&& 0x03 }
  | _ => .error .malformed

/-- Extract the GTK from a decrypted Key Data field. -/
def gtkKde (keyData : Bytes) : Except Error Gtk :=
  let found := (keyDataItems keyData).findSome? fun
    | .kde oui dataType data => if oui = ouiIeee ∧ dataType = kdeGtk then some data else none
    | .ie _ _ => none
  match found with
  | some data => Gtk.ofKde data
  | none => .error .gtkMissing

/-- The first RSN element in a decrypted Key Data field, header included. -/
def rsnElement (keyData : Bytes) : Option Bytes :=
  (keyDataItems keyData).findSome? fun
    | .ie id raw => if id = eidRsn then some raw else none
    | .kde _ _ _ => none

theorem keyDataItems_cons (id len : UInt8) (payload rest : Bytes) (hlen : payload.length = len.toNat)
    (hpos : len ≠ 0) :
    keyDataItems (id :: len :: (payload ++ rest)) =
      .ofElement id len payload :: keyDataItems rest := by
  rw [keyDataItems, if_neg (by simp [hpos, hlen]), List.take_left' hlen, List.drop_left' hlen]

end Caw
