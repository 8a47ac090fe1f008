import Caw.Eapol.FourWay

/-!
# A scripted authenticator

The access point's side of the exchange, as far as it takes to drive a handshake: the frames it
sends, and what the supplicant does with them when the keys agree.

* `Authenticator.msg1`, `msg3`, `groupMsg1`: the frames as they go on the air;
* **`Authenticator.msg1_answered`**, **`msg3_answered`**, **`groupMsg1_answered`**: the supplicant
  answers each, whatever the hash and cipher functions are;
* `Authenticator.gtkKdeBytes`, `rsnElement_cons`, `gtkKde_cons`: the Key Data an authenticator wraps;
* `Exchange`: an association in which the keys agree, with **`Exchange.Holds.poll_msg1`**,
  **`Exchange.Keyed.poll_msg3`** and **`Exchange.Keyed.poll_groupMsg1`** for driving a run of it;
* `Primitives.sample`, `Sample.exchange`: small functions to evaluate a run with.
-/

set_option autoImplicit false

namespace Caw

namespace Authenticator

/-- The 802.1X protocol version the authenticator speaks. -/
def protocolVersion : UInt8 := 2

/-- A frame of the authenticator. -/
def request (keyInfo : KeyInfo) (replayCounter : UInt64) (keyNonce : Octets 32) (keyData : Bytes) :
    KeyFrame where
  descriptorType := descriptorTypeRsn
  keyInfo := keyInfo
  keyLength := 16
  replayCounter := replayCounter
  keyNonce := keyNonce
  keyIv := Octets.zero 16
  keyRsc := Octets.zero 8
  keyMic := Octets.zero micLen
  keyData := keyData

/-- The key information of a message 1. -/
def msg1Info (version : KeyDescriptorVersion) : KeyInfo :=
  ⟨version.bits ||| KeyInfo.PAIRWISE ||| KeyInfo.ACK⟩

/-- The key information of a message 3. -/
def msg3Info (version : KeyDescriptorVersion) : KeyInfo :=
  ⟨version.bits ||| KeyInfo.PAIRWISE ||| KeyInfo.INSTALL ||| KeyInfo.ACK ||| KeyInfo.MIC |||
    KeyInfo.SECURE ||| KeyInfo.ENCRYPTED⟩

/-- The key information of a group message 1. -/
def groupMsg1Info (version : KeyDescriptorVersion) : KeyInfo :=
  ⟨version.bits ||| KeyInfo.ACK ||| KeyInfo.MIC ||| KeyInfo.SECURE ||| KeyInfo.ENCRYPTED⟩

/-- A message 1: a nonce, and nothing to protect it. -/
def msg1Frame (version : KeyDescriptorVersion) (counter : UInt64) (anonce : Octets 32) : KeyFrame :=
  request (msg1Info version) counter anonce []

/-- A message 3, before it has its MIC. -/
def msg3Frame (version : KeyDescriptorVersion) (counter : UInt64) (anonce : Octets 32)
    (wrapped : Bytes) : KeyFrame :=
  request (msg3Info version) counter anonce wrapped

/-- A group message 1, before it has its MIC. -/
def groupMsg1Frame (version : KeyDescriptorVersion) (counter : UInt64) (wrapped : Bytes) :
    KeyFrame :=
  request (groupMsg1Info version) counter (Octets.zero 32) wrapped

/-- Message 1, which carries no MIC. -/
def msg1 (version : KeyDescriptorVersion) (counter : UInt64) (anonce : Octets 32) : Bytes :=
  (msg1Frame version counter anonce).encode protocolVersion

variable (P : Primitives)

/-- Message 3, signed with the KCK. -/
def msg3 (version : KeyDescriptorVersion) (counter : UInt64) (anonce : Octets 32) (kck : Octets 16)
    (wrapped : Bytes) : Bytes :=
  (msg3Frame version counter anonce wrapped).encodeSigned P protocolVersion kck version

/-- Group message 1, signed with the KCK. -/
def groupMsg1 (version : KeyDescriptorVersion) (counter : UInt64) (kck : Octets 16)
    (wrapped : Bytes) : Bytes :=
  (groupMsg1Frame version counter wrapped).encodeSigned P protocolVersion kck version

/-! ## What the supplicant reads -/

theorem msg1_flags (version : KeyDescriptorVersion) :
    (msg1Info version).ack = true ∧ (msg1Info version).request = false ∧
      (msg1Info version).pairwise = true ∧ (msg1Info version).mic = false := by
  cases version <;> decide

theorem msg3_flags (version : KeyDescriptorVersion) :
    (msg3Info version).ack = true ∧ (msg3Info version).request = false ∧
      (msg3Info version).pairwise = true ∧ (msg3Info version).mic = true ∧
      (msg3Info version).encrypted = true := by
  cases version <;> decide

theorem groupMsg1_flags (version : KeyDescriptorVersion) :
    (groupMsg1Info version).ack = true ∧ (groupMsg1Info version).request = false ∧
      (groupMsg1Info version).pairwise = false ∧ (groupMsg1Info version).mic = true ∧
      (groupMsg1Info version).encrypted = true := by
  cases version <;> decide

theorem msg1_version (akm : Akm) : (msg1Info .hmacSha1).version akm = .ok .hmacSha1 := by
  have hbits : (msg1Info .hmacSha1).bits &&& 7 = 2 := by decide
  simp [KeyInfo.version, KeyDescriptorVersion.fromKeyInfoFor, KeyDescriptorVersion.fromKeyInfo,
    hbits]

section Driving

variable {P} {h : FourWay} {version : KeyDescriptorVersion} {counter : UInt64} {anonce : Octets 32}
  {wrapped keyData : Bytes} {ptk : Ptk} {gtk : Gtk}

theorem incoming_encode (f : KeyFrame) (hrun : h.state ≠ .failed)
    (hfit : bodyMin + f.keyData.length < 65536) (hrsn : f.descriptorType = descriptorTypeRsn)
    (hack : f.keyInfo.ack = true) (hreq : f.keyInfo.request = false)
    (hfresh : ∀ seen, h.rxCounter = some seen → seen < f.replayCounter) :
    FourWay.Incoming h (f.encode protocolVersion)
      ⟨protocolVersion, .key, f.body, f.encode protocolVersion⟩ f where
  running := hrun
  header := f.parse_encode _ hfit
  isKey := rfl
  body := f.parse_body (by omega)
  isRsn := hrsn
  ack := hack
  noRequest := hreq
  fresh := FourWay.replayed_eq_false.mpr hfresh

/-- **The supplicant answers message 1** in every state that is not failed. -/
theorem msg1_answered (hrun : h.state ≠ .failed)
    (hver : (msg1Info version).version h.config.akm = .ok version)
    (hptk : h.ptkOf P anonce = .ok ptk)
    (hfresh : ∀ seen, h.rxCounter = some seen → seen < counter) :
    FourWay.Message1 P h (msg1 version counter anonce)
      ⟨protocolVersion, .key, (msg1Frame version counter anonce).body, msg1 version counter anonce⟩
      (msg1Frame version counter anonce) version ptk := by
  obtain ⟨hack, hreq, hpair, hmic⟩ := msg1_flags version
  exact ⟨incoming_encode _ hrun (by simp [msg1Frame, request, bodyMin]) rfl hack hreq hfresh, hpair,
    hmic, hver, hptk⟩

/-- A signed frame of the authenticator is authentic to a supplicant that holds the same PTK. -/
theorem authentic_encodeSigned (f : KeyFrame) (hrun : h.state ≠ .failed)
    (hfit : bodyMin + f.keyData.length < 65536) (hrsn : f.descriptorType = descriptorTypeRsn)
    (hack : f.keyInfo.ack = true) (hreq : f.keyInfo.request = false) (hmic : f.keyInfo.mic = true)
    (henc : f.keyInfo.encrypted = true) (hver : h.descriptorVersion = version)
    (hfresh : ∀ seen, h.rxCounter = some seen → seen < f.replayCounter) (hptk : h.ptk = some ptk)
    (hdata : unwrapKeyData P ptk.kek f.keyData = .ok keyData) (hgtk : Caw.gtkKde keyData = .ok gtk) :
    FourWay.Authentic P h (f.encodeSigned P protocolVersion ptk.kck version)
      ⟨protocolVersion, .key, (f.signed P protocolVersion ptk.kck version).body,
        f.encodeSigned P protocolVersion ptk.kck version⟩
      (f.signed P protocolVersion ptk.kck version) ptk keyData gtk := by
  subst hver
  rw [KeyFrame.encodeSigned_eq]
  exact ⟨incoming_encode (f.signed P protocolVersion ptk.kck h.descriptorVersion) hrun hfit hrsn
    hack hreq hfresh, hmic, hptk, f.verifyFrameMic_signed P _ _ _, henc, hdata, hgtk⟩

/-- **The supplicant answers message 3** when the keys and the RSN elements agree. -/
theorem msg3_answered (hst : h.state = .awaitingMsg3 ∨ h.state = .established)
    (hfit : bodyMin + wrapped.length < 65536) (hver : h.descriptorVersion = version)
    (hfresh : ∀ seen, h.rxCounter = some seen → seen < counter) (hptk : h.ptk = some ptk)
    (hnonce : h.anonce = anonce) (hdata : unwrapKeyData P ptk.kek wrapped = .ok keyData)
    (hrsn : rsnElement keyData = some h.config.beaconRsnIe) (hgtk : Caw.gtkKde keyData = .ok gtk) :
    FourWay.Message3 P h (msg3 P version counter anonce ptk.kck wrapped)
      ⟨protocolVersion, .key,
        ((msg3Frame version counter anonce wrapped).signed P protocolVersion ptk.kck version).body,
        msg3 P version counter anonce ptk.kck wrapped⟩
      ((msg3Frame version counter anonce wrapped).signed P protocolVersion ptk.kck version)
      ptk keyData gtk := by
  obtain ⟨hack, hreq, hpair, hmic, henc⟩ := msg3_flags version
  have hrun : h.state ≠ .failed := by rcases hst with hst | hst <;> simp [hst]
  exact ⟨authentic_encodeSigned (msg3Frame version counter anonce wrapped) hrun hfit rfl hack hreq
    hmic henc hver hfresh hptk hdata hgtk, hpair, hst, hnonce.symm, hrsn⟩

/-- **The supplicant answers group message 1** once it is established. -/
theorem groupMsg1_answered (hst : h.state = .established) (hfit : bodyMin + wrapped.length < 65536)
    (hver : h.descriptorVersion = version)
    (hfresh : ∀ seen, h.rxCounter = some seen → seen < counter) (hptk : h.ptk = some ptk)
    (hdata : unwrapKeyData P ptk.kek wrapped = .ok keyData) (hgtk : Caw.gtkKde keyData = .ok gtk) :
    FourWay.GroupMessage1 P h (groupMsg1 P version counter ptk.kck wrapped)
      ⟨protocolVersion, .key,
        ((groupMsg1Frame version counter wrapped).signed P protocolVersion ptk.kck version).body,
        groupMsg1 P version counter ptk.kck wrapped⟩
      ((groupMsg1Frame version counter wrapped).signed P protocolVersion ptk.kck version)
      ptk keyData gtk := by
  obtain ⟨hack, hreq, hgroup, hmic, henc⟩ := groupMsg1_flags version
  have hrun : h.state ≠ .failed := by simp [hst]
  exact ⟨authentic_encodeSigned (groupMsg1Frame version counter wrapped) hrun hfit rfl hack hreq
    hmic henc hver hfresh hptk hdata hgtk, hgroup, hst⟩

end Driving

/-! ## Key Data -/

/-- A GTK KDE. -/
def gtkKdeBytes (index : UInt8) (gtk : Bytes) : Bytes :=
  eidVendor :: UInt8.ofNat (6 + gtk.length) :: ([0x00, 0x0f, 0xac, 0x01, index &&& 0x03, 0x00] ++ gtk)

/-- An RSN element at the head of the Key Data field is the one compared with the beacon. -/
theorem rsnElement_cons (len : UInt8) (payload rest : Bytes) (hlen : payload.length = len.toNat)
    (hpos : len ≠ 0) : rsnElement (eidRsn :: len :: (payload ++ rest)) =
      some (eidRsn :: len :: payload) := by
  rw [rsnElement, keyDataItems_cons _ _ _ _ hlen hpos, KeyDataItem.ofElement_ie (by decide),
    List.findSome?_cons]
  rfl

theorem gtkKde_skip (len : UInt8) (payload rest : Bytes) (hlen : payload.length = len.toNat)
    (hpos : len ≠ 0) : gtkKde (eidRsn :: len :: (payload ++ rest)) = gtkKde rest := by
  rw [gtkKde, keyDataItems_cons _ _ _ _ hlen hpos, KeyDataItem.ofElement_ie (by decide),
    List.findSome?_cons]
  rfl

/-- **The GTK of a KDE is read back.** -/
theorem gtkKde_cons (index : UInt8) (gtk rest : Bytes) (hlen : gtk.length = 16 ∨ gtk.length = 32) :
    gtkKde (gtkKdeBytes index gtk ++ rest) = .ok { key := gtk, index := index &&& 0x03 } := by
  have hsize : ([0x00, 0x0f, 0xac, 0x01, index &&& 0x03, 0x00] ++ gtk).length =
      (UInt8.ofNat (6 + gtk.length)).toNat := by
    rcases hlen with h | h <;> simp [h]
  have hpos : UInt8.ofNat (6 + gtk.length) ≠ 0 := by
    rcases hlen with h | h <;> rw [h] <;> decide
  rw [gtkKde, gtkKdeBytes, List.cons_append, List.cons_append,
    keyDataItems_cons _ _ _ _ hsize hpos, List.findSome?_cons]
  have hidx : index &&& 0x03 &&& 0x03 = index &&& 0x03 := by
    rw [UInt8.and_assoc, UInt8.and_self]
  rcases hlen with h | h <;>
    simp [KeyDataItem.ofElement, ouiIeee, kdeGtk, Gtk.ofKde, h, hidx]

end Authenticator

/-! ## An exchange in which the keys agree -/

/-- One association as both sides hold it, with the Key Data its authenticator sends. -/
structure Exchange (P : Primitives) where
  pmk : Pmk
  config : Config
  snonce : Octets 32
  anonce : Octets 32
  ptk : Ptk
  wrapped : Bytes
  keyData : Bytes
  gtk : Gtk
  derived : derivePtk P pmk config.akm config.bssid config.ownMac anonce snonce = .ok ptk
  fits : bodyMin + wrapped.length < 65536
  unwrapped : unwrapKeyData P ptk.kek wrapped = .ok keyData
  sameRsn : rsnElement keyData = some config.beaconRsnIe
  carries : gtkKde keyData = .ok gtk

namespace Exchange

variable {P : Primitives} (x : Exchange P) {h : FourWay}

/-- The supplicant before its first frame. -/
def station : FourWay := FourWay.withSnonce x.pmk x.config x.snonce

/-- The message 1 of the exchange. -/
def msg1 (counter : UInt64) : Bytes := Authenticator.msg1 .hmacSha1 counter x.anonce

/-- The message 3 of the exchange. -/
def msg3 (counter : UInt64) : Bytes :=
  Authenticator.msg3 P .hmacSha1 counter x.anonce x.ptk.kck x.wrapped

/-- A group message 1 after the exchange. -/
def groupMsg1 (counter : UInt64) : Bytes :=
  Authenticator.groupMsg1 P .hmacSha1 counter x.ptk.kck x.wrapped

/-- The handshake is one of this association. -/
structure Holds (h : FourWay) : Prop where
  pmk : h.pmk = x.pmk
  config : h.config = x.config
  snonce : h.snonce = x.snonce

/-- The handshake has answered this association's message 1. -/
structure Keyed (h : FourWay) : Prop extends Holds x h where
  ptk : h.ptk = some x.ptk
  anonce : h.anonce = x.anonce
  version : h.descriptorVersion = .hmacSha1

theorem holds_station : x.Holds x.station := ⟨rfl, rfl, rfl⟩

/-- The reading of message 1. -/
def eapol1 (counter : UInt64) : Eapol :=
  ⟨Authenticator.protocolVersion, .key,
    (Authenticator.msg1Frame .hmacSha1 counter x.anonce).body, x.msg1 counter⟩

/-- The handshake once it has answered message 1. -/
def awaiting (h : FourWay) (counter : UInt64) : FourWay :=
  h.afterMsg1 (x.eapol1 counter) (Authenticator.msg1Frame .hmacSha1 counter x.anonce) .hmacSha1 x.ptk
    (h.signedMsg2 P (x.eapol1 counter) (Authenticator.msg1Frame .hmacSha1 counter x.anonce)
      .hmacSha1 x.ptk)

/-- The handshake once it has answered message 3. -/
def established (h : FourWay) (counter : UInt64) : FourWay :=
  { h with rxCounter := some counter, state := .established, lastSent := none, retries := 0 }

theorem Holds.message1 {x : Exchange P} (hx : x.Holds h) (counter : UInt64)
    (hrun : h.state ≠ .failed) (hfresh : ∀ seen, h.rxCounter = some seen → seen < counter) :
    FourWay.Message1 P h (x.msg1 counter) (x.eapol1 counter)
      (Authenticator.msg1Frame .hmacSha1 counter x.anonce) .hmacSha1 x.ptk :=
  Authenticator.msg1_answered hrun (Authenticator.msg1_version _)
    (by rw [FourWay.ptkOf, hx.pmk, hx.config, hx.snonce]; exact x.derived) hfresh

/-- **Message 1 restarts the handshake from every state that is not failed.** -/
theorem Holds.poll_msg1 {x : Exchange P} (hx : x.Holds h) (counter : UInt64)
    (hrun : h.state ≠ .failed) (hfresh : ∀ seen, h.rxCounter = some seen → seen < counter) :
    ∃ reply, h.poll P (.frame (x.msg1 counter)) =
      (x.awaiting h counter, .ok [.send reply, .armTimer retryIntervalMs]) :=
  ⟨_, (hx.message1 counter hrun hfresh).poll_eq⟩

theorem Holds.keyed_awaiting {x : Exchange P} (hx : x.Holds h) (counter : UInt64) :
    x.Keyed (x.awaiting h counter) :=
  ⟨⟨hx.pmk, hx.config, hx.snonce⟩, rfl, rfl, rfl⟩

theorem Keyed.established {x : Exchange P} (hx : x.Keyed h) (counter : UInt64) :
    x.Keyed (established h counter) :=
  ⟨⟨hx.pmk, hx.config, hx.snonce⟩, hx.ptk, hx.anonce, hx.version⟩

/-- Message 3 passes the checks of a handshake that has answered message 1. -/
theorem Keyed.message3 {x : Exchange P} (hx : x.Keyed h) (counter : UInt64)
    (hst : h.state = .awaitingMsg3 ∨ h.state = .established)
    (hfresh : ∀ seen, h.rxCounter = some seen → seen < counter) : ∃ eapol frame,
      FourWay.Message3 P h (x.msg3 counter) eapol frame x.ptk x.keyData x.gtk ∧
      frame.replayCounter = counter :=
  ⟨_, _, Authenticator.msg3_answered hst x.fits hx.version hfresh hx.ptk hx.anonce x.unwrapped
    (by rw [hx.config]; exact x.sameRsn) x.carries, rfl⟩

/-- **Message 3 hands the keys over when none were installed since message 1.** -/
theorem Keyed.poll_msg3 {x : Exchange P} (hx : x.Keyed h) (counter : UInt64)
    (hst : h.state = .awaitingMsg3 ∨ h.state = .established)
    (hfresh : ∀ seen, h.rxCounter = some seen → seen < counter) :
    ∃ reply, h.poll P (.frame (x.msg3 counter)) = (Exchange.established h counter,
      .ok ([.send reply, .disarmTimer] ++
        FourWay.completion (h.state = .awaitingMsg3) { ptk := x.ptk, gtk := x.gtk })) :=
  ⟨_, (Authenticator.msg3_answered hst x.fits hx.version hfresh hx.ptk hx.anonce x.unwrapped
    (by rw [hx.config]; exact x.sameRsn) x.carries).poll_eq⟩

/-- **Group message 1 hands its key over.** -/
theorem Keyed.poll_groupMsg1 {x : Exchange P} (hx : x.Keyed h) (counter : UInt64)
    (hst : h.state = .established) (hfresh : ∀ seen, h.rxCounter = some seen → seen < counter) :
    ∃ reply, h.poll P (.frame (x.groupMsg1 counter)) =
      ({ h with rxCounter := some counter }, .ok [.send reply, .newGtk x.gtk]) :=
  ⟨_, (Authenticator.groupMsg1_answered hst x.fits hx.version hfresh hx.ptk x.unwrapped
    x.carries).poll_eq⟩

end Exchange

/-! ## A sample association -/

namespace Sample

/-- The authenticator's address. -/
def bssid : Mac := ⟨[0x02, 0x00, 0x00, 0x00, 0x01, 0x00], rfl⟩

/-- The supplicant's address. -/
def ownMac : Mac := ⟨[0x02, 0x00, 0x00, 0x00, 0x02, 0x00], rfl⟩

/-- The body of a WPA2-Personal RSN element. -/
def rsnBody : Bytes :=
  [0x01, 0x00, 0x00, 0x0f, 0xac, 0x04, 0x01, 0x00, 0x00, 0x0f, 0xac, 0x04, 0x01, 0x00, 0x00, 0x0f,
    0xac, 0x02, 0x00, 0x00]

/-- The element both sides agree on. -/
def rsnIe : Bytes := eidRsn :: 20 :: rsnBody

/-- What the supplicant was set up with. -/
def config : Config where
  akm := .psk
  ownMac := ownMac
  bssid := bssid
  assocRsnIe := rsnIe
  beaconRsnIe := rsnIe
  assocFits := by decide

/-- The key both sides share. -/
def pmk : Pmk := List.Vector.replicate 32 0x0d

/-- The authenticator's nonce. -/
def anonce : Octets 32 := List.Vector.replicate 32 0x33

/-- The supplicant's nonce. -/
def snonce : Octets 32 := List.Vector.replicate 32 0x11

/-- The group key handed over. -/
def gtk : Gtk := { key := List.replicate 16 0x5a, index := 1 }

/-- The Key Data of message 3: the RSN element, the GTK, and the padding of the wrap. -/
def keyData : Bytes :=
  eidRsn :: 20 :: (rsnBody ++ (Authenticator.gtkKdeBytes 1 gtk.key ++ [0xdd, 0]))

/-- The key data of message 3, wrapped. -/
def wrapped : Bytes := sampleIcv ++ keyData

/-- The keys of the exchange. -/
def ptk : Ptk :=
  Ptk.split (prfSha1 .sample pmk.toList ptkLabel
    (bssid.toList ++ ownMac.toList ++ snonce.toList ++ anonce.toList) ptkLen).toList

theorem derived : derivePtk .sample pmk .psk bssid ownMac anonce snonce = .ok ptk := by
  have hmac : Octets.lt bssid ownMac = true := by decide
  have hnonce : Octets.lt anonce snonce = false := by decide
  simp only [derivePtk, hmac, hnonce, if_true]
  rfl

/-- The sample association under the sample primitives. -/
def exchange : Exchange .sample where
  pmk := pmk
  config := config
  snonce := snonce
  anonce := anonce
  ptk := ptk
  wrapped := wrapped
  keyData := keyData
  gtk := gtk
  derived := derived
  fits := by decide
  unwrapped := Primitives.sample_unwrap ptk.kek keyData (by decide) (by decide)
  sameRsn := Authenticator.rsnElement_cons 20 rsnBody _ rfl (by decide)
  carries := by
    rw [keyData, Authenticator.gtkKde_skip 20 rsnBody _ rfl (by decide),
      Authenticator.gtkKde_cons 1 gtk.key _ (.inl rfl)]
    rfl

end Sample

end Caw
