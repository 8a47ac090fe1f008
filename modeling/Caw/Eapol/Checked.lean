import Caw.Eapol.FourWay
import Caw.Lib.Checked

/-!
# A handshake that cannot panic

The 4-way handshake with every index, range and `expect` of the source checked: what may panic does.

* `Eapol.parseChecked`, `KeyFrame.parseChecked`, `encodeChecked`, `encodeSignedChecked`,
  `verifyFrameMicChecked`, `keyDataItemsChecked`: the frames;
* `FourWay.onMsg1Checked`, `onMsg3Checked`, `onGroupMsg1Checked`, `onFrameChecked`, `pollChecked`: the
  handlers;
* **`KeyFrame.parseChecked_eq`**: behind its length guards a frame is read within its bounds;
* **`FourWay.pollChecked_eq`**: no input makes the handshake panic, whatever its octets.
-/

set_option autoImplicit false

namespace Caw

open Bytes
open Eapol (Error PacketType eapolHdrLen)

/-! ## Frames -/

/-- The big-endian number in the first two octets. -/
def be16 (b : Bytes) : Option UInt16 := do
  let hi ← readAt b 0
  let lo ← readAt b 1
  return UInt16.ofNat (ofBE [hi, lo])

/-- The big-endian number from an offset on. -/
def be16At (off : ℕ) (b : Bytes) : Option UInt16 := (readFrom b off).bind be16

theorem be16At_of_le {b : Bytes} {off : ℕ} (h : off + 2 ≤ b.length) :
    be16At off b = some (UInt16.ofNat (beAt off 2 b)) := by
  have hlen : (b.drop off).length = b.length - off := List.length_drop
  have htake : (b.drop off).take 2 = [(b.drop off)[0], (b.drop off)[1]] := by
    rw [List.take_add_one, List.take_one, List.head?_eq_getElem?]
    rw [List.getElem?_eq_getElem (by omega), List.getElem?_eq_getElem (by omega)]
    rfl
  rw [be16At, readFrom_of_le (by omega), Option.bind_some, be16, readAt_of_lt (by omega),
    readAt_of_lt (by omega), beAt, slice_toList off 2 b h, htake]
  rfl

/-- The header, and the body and the frame as far as it declares them. -/
def Eapol.parseChecked (buf : Bytes) : Checked Error Eapol :=
  match buf with
  | version :: packetType :: hi :: lo :: rest =>
    let bodyLen := ofBE [hi, lo]
    if rest.length < bodyLen then throw .malformed
    else do
      let packetType ← .of (PacketType.fromU8 packetType)
      let body ← readRange rest 0 bodyLen
      let raw ← readRange buf 0 (eapolHdrLen + bodyLen)
      return { version, packetType, body, raw }
  | _ => throw .malformed

theorem Eapol.parseChecked_eq (buf : Bytes) : parseChecked buf = .of (Eapol.parse buf) := by
  rcases buf with _ | ⟨version, _ | ⟨packetType, _ | ⟨hi, _ | ⟨lo, rest⟩⟩⟩⟩
  iterate 4 exact rfl
  unfold parseChecked Eapol.parse
  dsimp only
  split_ifs with hlen
  · rfl
  rw [readRange_of_le (Nat.zero_le _) (not_lt.mp hlen), readRange_of_le (Nat.zero_le _) (by
    simp only [List.length_cons, eapolHdrLen]
    omega)]
  cases PacketType.fromU8 packetType <;> rfl

namespace KeyFrame

/-- An EAPOL-Key body, each field read at its offset. -/
def parseChecked (body : Bytes) : Checked Error KeyFrame :=
  if body.length < bodyMin then throw .malformed
  else do
    let keyDataLen ← be16At offKeyDataLen body
    if body.length < bodyMin + keyDataLen.toNat then throw .malformed
    else
      let descriptorType ← readAt body 0
      let keyInfo ← be16At offKeyInfo body
      let keyLength ← be16At offKeyLength body
      let replayCounter ← readArray 8 body offReplayCounter
      let keyNonce ← readArray 32 body offKeyNonce
      let keyIv ← readArray 16 body offKeyIv
      let keyRsc ← readArray 8 body offKeyRsc
      let keyMic ← readArray micLen body offKeyMic
      return { descriptorType, keyInfo := ⟨keyInfo⟩, keyLength
               replayCounter := UInt64.ofNat (ofBE replayCounter.toList), keyNonce, keyIv, keyRsc
               keyMic, keyData := (body.drop bodyMin).take keyDataLen.toNat }

/-- **Behind its length guards** a frame is read within its bounds. -/
theorem parseChecked_eq (body : Bytes) : parseChecked body = .of (parse body) := by
  unfold parseChecked parse
  split_ifs with hshort
  · rfl
  have hlong : bodyMin ≤ body.length := not_lt.mp hshort
  have hmin : bodyMin = 95 := rfl
  have hkeyDataLen : (UInt16.ofNat (beAt offKeyDataLen 2 body)).toNat = beAt offKeyDataLen 2 body := by
    rw [UInt16.toNat_ofNat', Nat.mod_eq_of_lt]
    exact (ofBE_lt _).trans_eq (by rw [List.Vector.toList_length]; rfl)
  rw [be16At_of_le (by simp only [offKeyDataLen]; omega), Checked.read_bind, hkeyDataLen]
  dsimp only
  split_ifs
  · rfl
  rw [readAt_of_lt (by omega), be16At_of_le (by simp only [offKeyInfo]; omega),
    be16At_of_le (by simp only [offKeyLength]; omega),
    readArray_of_le (by simp only [offReplayCounter]; omega),
    readArray_of_le (by simp only [offKeyNonce]; omega),
    readArray_of_le (by simp only [offKeyIv]; omega),
    readArray_of_le (by simp only [offKeyRsc]; omega),
    readArray_of_le (by simp only [offKeyMic, micLen]; omega)]
  have hhead : body[0] = body.headD 0 := by
    cases body with
    | nil => cases hlong
    | cons x xs => rfl
  simp only [Checked.read_bind, hhead]
  rfl

/-- A complete frame, whose body length is expected to fit sixteen bits. -/
def encodeChecked (f : KeyFrame) (protocolVersion : UInt8) : Option Bytes :=
  if bodyMin + f.keyData.length < 65536 then some (f.encode protocolVersion) else none

/-- A complete frame with its MIC written in place. -/
def encodeSignedChecked (P : Primitives) (f : KeyFrame) (protocolVersion : UInt8) (kck : Octets 16)
    (version : KeyDescriptorVersion) : Option Bytes := do
  let frame ← f.encodeChecked protocolVersion
  let frame ← overwrite micOffset (List.replicate micLen 0) frame
  overwrite micOffset (computeMic P kck version frame).toList frame

theorem micOffset_le_encode (f : KeyFrame) (v : UInt8) : micOffset + micLen ≤ (f.encode v).length := by
  simp [encode, Eapol.encode, micOffset, eapolHdrLen, offKeyMic, bodyMin, micLen]
  omega

theorem encodeSignedChecked_eq (P : Primitives) (f : KeyFrame) (v : UInt8) (kck : Octets 16)
    (version : KeyDescriptorVersion) (h : bodyMin + f.keyData.length < 65536) :
    f.encodeSignedChecked P v kck version = some (f.encodeSigned P v kck version) := by
  have hlong := f.micOffset_le_encode v
  have hzeroed : micOffset + micLen ≤
      (splice micOffset (List.replicate micLen 0) (f.encode v)).length := by
    rw [show List.replicate micLen 0 = (Octets.zero micLen).toList from rfl, splice_encode]
    exact micOffset_le_encode _ v
  rw [encodeSignedChecked, encodeChecked, if_pos h]
  change (overwrite _ _ (f.encode v)).bind _ = _
  rw [overwrite_of_le (by rw [List.length_replicate]; exact hlong), Option.bind_some,
    overwrite_of_le (by rw [List.Vector.toList_length]; exact hzeroed)]
  rfl

end KeyFrame

/-- The Key MIC checked over the frame with the field zeroed in place. -/
def verifyFrameMicChecked (P : Primitives) (frame : Bytes) (kck : Octets 16)
    (version : KeyDescriptorVersion) (mic : Octets micLen) : Checked Error Unit :=
  if frame.length < micOffset + micLen then throw .malformed
  else do
    let zeroed ← overwrite micOffset (List.replicate micLen 0) frame
    .of (Eapol.liftCrypto (verifyMic P kck version zeroed mic))

theorem verifyFrameMicChecked_eq (P : Primitives) (frame : Bytes) (kck : Octets 16)
    (version : KeyDescriptorVersion) (mic : Octets micLen) :
    verifyFrameMicChecked P frame kck version mic = .of (verifyFrameMic P frame kck version mic) := by
  unfold verifyFrameMicChecked verifyFrameMic
  split_ifs with hshort
  · rfl
  rw [overwrite_of_le (by rw [List.length_replicate]; exact not_lt.mp hshort)]
  rfl

/-! ## The decrypted Key Data field -/

/-- The elements of a Key Data field, each taken out of it by its own length. -/
def keyDataItemsChecked : ℕ → Bytes → Option (List KeyDataItem)
  | 0, _ => some []
  | fuel + 1, data =>
    match data with
    | id :: len :: _ =>
      if len = 0 ∨ data.length < 2 + len.toNat then some []
      else do
        let element := data.take (2 + len.toNat)
        let rest ← readFrom data element.length
        let payload ← readFrom element 2
        let items ← keyDataItemsChecked fuel rest
        return .ofElement id len payload :: items
    | _ => some []

theorem keyDataItemsChecked_eq {fuel : ℕ} {data : Bytes} (hfuel : data.length ≤ fuel) :
    keyDataItemsChecked fuel data = some (keyDataItems data) := by
  induction fuel generalizing data with
  | zero =>
    rw [List.eq_nil_of_length_eq_zero (Nat.le_zero.mp hfuel), keyDataItemsChecked, keyDataItems]
    rintro _ _ _ ⟨⟩
  | succ fuel ih =>
    rcases data with _ | ⟨id, _ | ⟨len, rest⟩⟩
    · simp [keyDataItemsChecked, keyDataItems]
    · simp [keyDataItemsChecked, keyDataItems]
    · have hlength : (id :: len :: rest).length = rest.length + 2 := rfl
      rw [keyDataItemsChecked, keyDataItems]
      by_cases hends : len = 0 ∨ rest.length < len.toNat
      · rw [if_pos hends, if_pos (hends.imp_right fun h => by omega)]
      rw [if_neg hends, if_neg (fun h => hends (h.imp_right fun h => by omega))]
      rw [not_or, not_lt] at hends
      have helement : ((id :: len :: rest).take (2 + len.toNat)).length = 2 + len.toNat := by
        rw [List.length_take]
        omega
      have hrest : (id :: len :: rest).drop (2 + len.toNat) = rest.drop len.toNat := by
        rw [Nat.add_comm, List.drop_succ_cons, List.drop_succ_cons]
      have hpayload : ((id :: len :: rest).take (2 + len.toNat)).drop 2 = rest.take len.toNat := by
        rw [Nat.add_comm, List.take_succ_cons, List.take_succ_cons]
        rfl
      dsimp only
      rw [readFrom_of_le (by omega), readFrom_of_le (by omega), helement, hrest, hpayload]
      change (keyDataItemsChecked fuel (rest.drop len.toNat)).bind _ = _
      rw [ih (by rw [List.length_drop]; omega)]
      rfl

/-- The GTK of a Key Data field. -/
def gtkKdeChecked (keyData : Bytes) : Checked Error Gtk := do
  let items ← keyDataItemsChecked keyData.length keyData
  let found := items.findSome? fun
    | .kde oui dataType data => if oui = ouiIeee ∧ dataType = kdeGtk then some data else none
    | .ie _ _ => none
  match found with
  | some data => .of (Gtk.ofKde data)
  | none => throw .gtkMissing

theorem gtkKdeChecked_eq (keyData : Bytes) : gtkKdeChecked keyData = .of (gtkKde keyData) := by
  rw [gtkKdeChecked, keyDataItemsChecked_eq le_rfl, Checked.read_bind, gtkKde]
  dsimp only
  generalize List.findSome? _ (keyDataItems keyData) = found
  cases found <;> rfl

/-- The first RSN element of a Key Data field. -/
def rsnElementChecked (keyData : Bytes) : Option (Option Bytes) := do
  let items ← keyDataItemsChecked keyData.length keyData
  return items.findSome? fun
    | .ie id raw => if id = eidRsn then some raw else none
    | .kde _ _ _ => none

theorem rsnElementChecked_eq (keyData : Bytes) :
    rsnElementChecked keyData = some (rsnElement keyData) := by
  rw [rsnElementChecked, keyDataItemsChecked_eq le_rfl]
  rfl

/-! ## The handshake -/

namespace FourWay

variable (P : Primitives)

/-- Message 1, answered. -/
def onMsg1Checked (h : FourWay) (eapol : Eapol) (msg1 : KeyFrame) :
    Checked Error (FourWay × List Action) := do
  let version ← .of (msg1.keyInfo.version h.config.akm)
  let ptk ← .of (Eapol.liftCrypto (h.ptkOf P msg1.keyNonce))
  let sent ← (h.msg2 version msg1.replayCounter).encodeSignedChecked P eapol.version ptk.kck version
  return (h.afterMsg1 eapol msg1 version ptk sent, [.send sent, .armTimer retryIntervalMs])

/-- The keys that are handed over are expected to be there. -/
def completionChecked (install : Bool) (ptk : Option Ptk) (gtk : Gtk) : Option (List Action) :=
  if install then ptk.map fun ptk => [.complete { ptk, gtk }] else some []

/-- Message 3, answered. -/
def onMsg3Checked (h : FourWay) (eapol : Eapol) (msg3 : KeyFrame) (install : Bool) :
    Checked Error (FourWay × List Action) :=
  match h.ptk with
  | none => throw .unexpectedMessage
  | some ptk => do
    verifyFrameMicChecked P eapol.raw ptk.kck h.descriptorVersion msg3.keyMic
    if msg3.keyNonce ≠ h.anonce then throw .nonceMismatch
    else if !msg3.keyInfo.encrypted then throw .malformed
    else
      let keyData ← .of (Eapol.liftCrypto (unwrapKeyData P ptk.kek msg3.keyData))
      match ← rsnElementChecked keyData with
      | none => throw .rsnMissing
      | some advertised =>
        if advertised ≠ h.config.beaconRsnIe then throw .rsnMismatch
        else
          let gtk ← gtkKdeChecked keyData
          let sent ← (msg4 h.descriptorVersion msg3.replayCounter).encodeSignedChecked P
            h.protocolVersion ptk.kck h.descriptorVersion
          let handed ← completionChecked install h.ptk gtk
          return (h.afterMsg3 msg3, [.send sent, .disarmTimer] ++ handed)

/-- Group message 1, answered. -/
def onGroupMsg1Checked (h : FourWay) (eapol : Eapol) (msg1 : KeyFrame) :
    Checked Error (FourWay × List Action) :=
  match h.ptk with
  | none => throw .unexpectedMessage
  | some ptk => do
    verifyFrameMicChecked P eapol.raw ptk.kck h.descriptorVersion msg1.keyMic
    if !msg1.keyInfo.encrypted then throw .malformed
    else
      let keyData ← .of (Eapol.liftCrypto (unwrapKeyData P ptk.kek msg1.keyData))
      let gtk ← gtkKdeChecked keyData
      let sent ← (groupMsg2 h.descriptorVersion msg1.replayCounter).encodeSignedChecked P
        h.protocolVersion ptk.kck h.descriptorVersion
      return ({ h with rxCounter := some msg1.replayCounter }, [.send sent, .newGtk gtk])

/-- The frame by state, Key Type and Key MIC. -/
def dispatchChecked (h : FourWay) (eapol : Eapol) (frame : KeyFrame) :
    Checked Error (FourWay × List Action) :=
  match h.state, frame.keyInfo.pairwise, frame.keyInfo.mic with
  | _, true, false => h.onMsg1Checked P eapol frame
  | .awaitingMsg3, true, true => h.onMsg3Checked P eapol frame true
  | .established, true, true => h.onMsg3Checked P eapol frame false
  | .established, false, true => h.onGroupMsg1Checked P eapol frame
  | _, _, _ => throw .unexpectedMessage

/-- A frame of the authenticator, with every read checked. -/
def onFrameChecked (h : FourWay) (bytes : Bytes) : Checked Error (FourWay × List Action) :=
  if h.state = .failed then throw .unexpectedMessage
  else do
    let eapol ← Eapol.parseChecked bytes
    if eapol.packetType ≠ .key then return (h, [])
    else
      let frame ← KeyFrame.parseChecked eapol.body
      if frame.descriptorType ≠ descriptorTypeRsn then
        throw (.unsupportedDescriptor frame.descriptorType)
      else if !frame.keyInfo.ack || frame.keyInfo.request then return (h, [])
      else if h.replayed frame then throw .replayedCounter
      else h.dispatchChecked P eapol frame

/-- One input; a timeout reads nothing. -/
def handleChecked (h : FourWay) : Input → Checked Error (FourWay × List Action)
  | .frame bytes => h.onFrameChecked P bytes
  | .timeout => .of h.onTimeout

/-- One input; none where it panics. -/
def pollChecked (h : FourWay) (input : Input) : Option (FourWay × Except Error (List Action)) :=
  (h.handleChecked P input).run.map fun
    | .ok (h', actions) => (h', .ok actions)
    | .error e => ({ h with state := .failed }, .error e)

variable {P} {h : FourWay} {eapol : Eapol} {frame : KeyFrame}

theorem encodeSignedChecked_reply {keyInfo : UInt16} {replayCounter : UInt64} {keyNonce : Octets 32}
    {keyData : Bytes} (hfits : bodyMin + keyData.length < 65536) (v : UInt8) (kck : Octets 16)
    (version : KeyDescriptorVersion) :
    (reply keyInfo replayCounter keyNonce keyData).encodeSignedChecked P v kck version =
      some ((reply keyInfo replayCounter keyNonce keyData).encodeSigned P v kck version) :=
  KeyFrame.encodeSignedChecked_eq P _ v kck version hfits

theorem onMsg1Checked_eq : h.onMsg1Checked P eapol frame = .of (h.onMsg1 P eapol frame) := by
  unfold onMsg1Checked onMsg1
  cases frame.keyInfo.version h.config.akm with
  | error e => rfl
  | ok version =>
    cases h.ptkOf P frame.keyNonce with
    | error e => rfl
    | ok ptk =>
      change (liftM (KeyFrame.encodeSignedChecked P _ _ _ _) >>= _ : Checked _ _) = _
      rw [msg2, encodeSignedChecked_reply h.config.assocFits]
      rfl

theorem onMsg3Checked_eq {install : Bool} :
    h.onMsg3Checked P eapol frame install = .of (h.onMsg3 P eapol frame install) := by
  unfold onMsg3Checked onMsg3
  cases hptk : h.ptk with
  | none => rfl
  | some ptk =>
    dsimp only
    rw [verifyFrameMicChecked_eq]
    cases verifyFrameMic P eapol.raw ptk.kck h.descriptorVersion frame.keyMic with
    | error e => rfl
    | ok =>
      change (if _ then _ else _ : Checked _ _) = _
      rw [Except.ok_bind]
      split_ifs
      · rfl
      · rfl
      cases unwrapKeyData P ptk.kek frame.keyData with
      | error e => rfl
      | ok keyData =>
        change (liftM (rsnElementChecked keyData) >>= _ : Checked _ _) = _
        rw [rsnElementChecked_eq, Checked.read_bind, Eapol.liftCrypto_ok, Except.ok_bind]
        cases rsnElement keyData with
        | none => rfl
        | some advertised =>
          dsimp only
          split_ifs
          · rfl
          rw [gtkKdeChecked_eq]
          cases gtkKde keyData with
          | error e => rfl
          | ok gtk =>
            change (liftM (KeyFrame.encodeSignedChecked P _ _ _ _) >>= _ : Checked _ _) = _
            rw [msg4, encodeSignedChecked_reply (by decide), Checked.read_bind]
            cases install <;> rfl

theorem onGroupMsg1Checked_eq :
    h.onGroupMsg1Checked P eapol frame = .of (h.onGroupMsg1 P eapol frame) := by
  unfold onGroupMsg1Checked onGroupMsg1
  cases hptk : h.ptk with
  | none => rfl
  | some ptk =>
    dsimp only
    rw [verifyFrameMicChecked_eq]
    cases verifyFrameMic P eapol.raw ptk.kck h.descriptorVersion frame.keyMic with
    | error e => rfl
    | ok =>
      change (if _ then _ else _ : Checked _ _) = _
      rw [Except.ok_bind]
      split_ifs
      · rfl
      cases unwrapKeyData P ptk.kek frame.keyData with
      | error e => rfl
      | ok keyData =>
        change (gtkKdeChecked keyData >>= _ : Checked _ _) = _
        rw [gtkKdeChecked_eq, Eapol.liftCrypto_ok, Except.ok_bind]
        cases gtkKde keyData with
        | error e => rfl
        | ok gtk =>
          change (liftM (KeyFrame.encodeSignedChecked P _ _ _ _) >>= _ : Checked _ _) = _
          rw [groupMsg2, encodeSignedChecked_reply (by decide)]
          rfl

theorem dispatchChecked_eq :
    h.dispatchChecked P eapol frame = .of (h.dispatch P eapol frame) := by
  rw [dispatchChecked, dispatch, onMsg1Checked_eq, onMsg3Checked_eq, onMsg3Checked_eq,
    onGroupMsg1Checked_eq]
  cases h.state <;> cases frame.keyInfo.pairwise <;> cases frame.keyInfo.mic <;> rfl

/-- **No frame makes the handshake panic**, whatever its octets. -/
theorem onFrameChecked_eq (bytes : Bytes) : h.onFrameChecked P bytes = .of (h.onFrame P bytes) := by
  unfold onFrameChecked onFrame
  split_ifs
  · rfl
  rw [Eapol.parseChecked_eq]
  cases Eapol.parse bytes with
  | error e => rfl
  | ok eapol =>
    change (if _ then _ else _ : Checked _ _) = _
    rw [Except.ok_bind]
    split_ifs
    · rfl
    rw [KeyFrame.parseChecked_eq]
    cases KeyFrame.parse eapol.body with
    | error e => rfl
    | ok frame =>
      change (if _ then _ else _ : Checked _ _) = _
      rw [Except.ok_bind]
      split_ifs
      · rfl
      · rfl
      · rfl
      · exact dispatchChecked_eq

/-- **No input makes the handshake panic.** -/
theorem pollChecked_eq (input : Input) : h.pollChecked P input = some (h.poll P input) := by
  have hhandle : h.handleChecked P input = .of (h.handle P input) := by
    cases input with
    | frame bytes => exact onFrameChecked_eq bytes
    | timeout => rfl
  rw [pollChecked, hhandle, poll]
  cases h.handle P input <;> rfl

end FourWay

end Caw
