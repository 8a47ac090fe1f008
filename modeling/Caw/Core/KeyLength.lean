import Caw.Core.Common
import Caw.Core.Keyring
import Caw.Eapol.GroupRekey

/-!
# The lengths of the keys that are installed

The handshake hands over the group key a frame carries, and the core adds the cipher it was negotiated
for.

* `Nl80211.suiteKeyLen`: how long the key of a suite is;
* `KeyInstall.Fits`: keys for the suites negotiated, and as long as these ask for;
* `Connection.Suited`, `suited_step`: the pairwise cipher of a session is one caw installs keys for;
* `Connection.Takes`, **`takes_of_installs`**, **`installs_of_takes`**: keys are installed with the group
  key of a frame;
* **`keys_fit_iff`**: in a run all keys fit exactly when the group keys it takes do;
* `gtk_misfits`: one that does not.
-/

set_option autoImplicit false

namespace Caw

open Caw.Core

namespace Nl80211

/-- The length of the key of a suite, in octets. -/
def suiteKeyLen (suite : UInt32) : Option ℕ :=
  [(wlanCipherSuiteWep40, 5), (wlanCipherSuiteTkip, 32), (wlanCipherSuiteCcmp, 16),
    (wlanCipherSuiteWep104, 13), (wlanCipherSuiteAesCmac, 16), (wlanCipherSuiteGcmp, 16),
    (wlanCipherSuiteGcmp256, 32), (wlanCipherSuiteCcmp256, 32)].lookup suite

/-- A key is as long as its suite asks for. -/
def HasKeyLen (suite : UInt32) (key : Bytes) : Prop := ∀ len ∈ suiteKeyLen suite, key.length = len

end Nl80211

open Nl80211 (HasKeyLen suiteKeyLen)

namespace Core

/-- The keys are for the ciphers negotiated, and as long as these ask for. -/
structure KeyInstall.Fits (keys : KeyInstall) (n : Negotiated) : Prop where
  pairwise : ∀ key, keys.pairwise = some key → Nl80211.cipherSuite n.pairwise = some key.cipher ∧
    suiteKeyLen key.cipher = some key.ptk.tk.toList.length
  named : keys.group.cipher = (Nl80211.cipherSuite n.group).getD Nl80211.wlanCipherSuiteCcmp
  group : HasKeyLen keys.group.cipher keys.group.gtk.key

end Core

/-- A cipher caw installs keys for takes a temporal key of the length that is derived. -/
theorem pairwise_keyLen {cipher : Cipher} (h : cipher ∈ Policy.pairwisePreference) :
    ∃ suite, Nl80211.cipherSuite cipher = some suite ∧ suiteKeyLen suite = some 16 := by
  revert cipher
  decide +kernel

namespace Connection

variable {S : Platform} {c c' : Connection S} {draws : Draws S} {input : Input}
  {r : Connection S × List Action}

/-! ## The pairwise cipher of a session -/

/-- The session's pairwise cipher is one caw can install keys for. -/
def Suited (c : Connection S) : Prop :=
  ∀ choice n, c.joinOf = some choice → choice.rsn = some n → n.pairwise ∈ Policy.pairwisePreference

theorem suited_of_none (h : c.joinOf = none) : c.Suited := by
  intro choice n hjoin
  rw [h] at hjoin
  cases hjoin

theorem Suited.of_joined (h : c.Suited) (hjoined : c'.joinOf = none ∨ c'.joinOf = c.joinOf) :
    c'.Suited := by
  rcases hjoined with hnone | hsame
  · exact suited_of_none hnone
  · intro choice n hjoin
    exact h choice n (hsame ▸ hjoin)

theorem Chosen.suited {bss : Bss} {roaming : Bool} {credential : Credential} {choice : Choice}
    (h : c.Chosen bss roaming credential choice) {n : Negotiated} (hn : choice.rsn = some n) :
    n.pairwise ∈ Policy.pairwisePreference := by
  obtain ⟨rsn, hrsn, rfl, -⟩ := evaluate_eq_ok h.evaluated
  rcases negotiateBss_eq_ok hrsn with ⟨-, -, rfl⟩ | ⟨ie, n', -, rfl, hnegotiate⟩
  · cases hn
  · cases hn
    exact List.mem_of_find?_eq_some (negotiate_eq_ok hnegotiate).2.1

theorem suited_of_chosen {bss : Bss} {roaming : Bool} {credential : Credential} {choice : Choice}
    (h : c.Chosen bss roaming credential choice)
    (hjoin : c'.joinOf = some { choice with signalDbm := 0 }) : c'.Suited := by
  intro choice' n hchoice hn
  rw [hjoin] at hchoice
  cases hchoice
  exact h.suited hn

theorem suited_planned {bss : Bss} {roaming : Bool} (h : c.Suited)
    (hp : Planned c draws bss roaming r) : r.1.Suited := by
  have hfail (failure : Failure) : (c.fail failure).1.Suited :=
    suited_of_none (by rw [joinOf, fail_session]; rfl)
  cases hp with
  | refused failure => exact hfail failure
  | stay => exact h
  | enterprise => exact hfail _
  | prompt => exact h
  | unstaged credential choice failure => exact hfail failure
  | sae credential choice provider q hchosen hstage hroaming hd =>
    refine Suited.of_joined (suited_of_chosen hchosen ?_) (retains_saeDriven hd).joined
    rw [enter_fst]
    rfl
  | associate credential choice auth target hchosen hstage hpre htarget =>
    refine suited_of_chosen hchosen ?_
    rw [associateWith_fst]
    rfl

theorem suited_move (h : c.Suited) (hm : Move c draws input r) : r.1.Suited := by
  cases hm.course with
  | quiet _ hplans hrequests hretains => exact h.of_joined hretains.joined
  | exchange event _ hplans hst hd => exact h.of_joined (retains_saeDriven hd).joined
  | planned c' bss roaming _ hplans htarget hbegins hp =>
    refine suited_planned (h.of_joined (.inr ?_)) hp
    rw [joinOf, joinOf, plans_session hplans]

theorem suited_step (h : c.Suited) (call : Call S) : (c.step call).1.Suited := by
  cases call with
  | insertProfile profile => exact h
  | forgetProfile ssid => exact h
  | poll draws input =>
    cases hpoll : c.poll draws input with
    | none =>
      rw [step, hpoll]
      exact h
    | some r =>
      rw [step, hpoll]
      exact suited_move h (poll_move hpoll)

/-! ## What is installed -/

/-- The suites the session has negotiated. -/
def suites (c : Connection S) : Option Negotiated := c.session.bind fun s => s.choice.rsn

/-- The keys name the suites of the session. -/
structure InstalledFor (c : Connection S) (keys : KeyInstall) : Prop where
  group : keys.group.cipher = c.groupSuite
  pairwise : ∀ key, keys.pairwise = some key → ∃ n, c.suites = some n ∧
    key.cipher = (Nl80211.cipherSuite n.pairwise).getD Nl80211.wlanCipherSuiteCcmp

theorem InstalledFor.of_suites {keys : KeyInstall} (h : c'.InstalledFor keys)
    (hsuites : c'.suites = c.suites) : c.InstalledFor keys := by
  refine ⟨h.group.trans ?_, fun key hkey => hsuites ▸ h.pairwise key hkey⟩
  show (c'.suites.bind _).getD _ = (c.suites.bind _).getD _
  rw [hsuites]

/-- One action of the handshake installs the group key it hands over, if there is one. -/
theorem installs_handshakeAction {action : FourWay.Action} (h : c.handshakeAction action = some r) :
    (∀ keys, .installKeys keys ∈ r.2 → c.InstalledFor keys ∧ action.gtk? = some keys.group.gtk) ∧
      ∀ gtk, action.gtk? = some gtk → ∃ keys, .installKeys keys ∈ r.2 ∧ keys.group.gtk = gtk := by
  cases action with
  | send frame =>
    cases h
    exact ⟨fun keys hmem => by simp at hmem, fun gtk hgtk => (nomatch hgtk)⟩
  | armTimer ms =>
    cases h
    exact ⟨fun keys hmem => by simp at hmem, fun gtk hgtk => (nomatch hgtk)⟩
  | disarmTimer =>
    cases h
    exact ⟨fun keys hmem => (common_disarm c _ hmem).elim, fun gtk hgtk => (nomatch hgtk)⟩
  | newGtk gtk =>
    cases h
    refine ⟨fun keys hmem => ?_, fun g hg => ⟨_, List.mem_singleton.mpr rfl, Option.some.inj hg⟩⟩
    cases List.mem_singleton.mp hmem
    exact ⟨⟨rfl, fun key hkey => (nomatch hkey)⟩, rfl⟩
  | complete keys =>
    obtain ⟨install, hinstall, rfl⟩ := Option.map_eq_some_iff.mp h
    obtain ⟨session, hsession, hrest⟩ := Option.bind_eq_some_iff.mp hinstall
    obtain ⟨n, hn, rfl⟩ := Option.map_eq_some_iff.mp hrest
    refine ⟨fun keys' hmem => ?_, fun g hg => ⟨_, List.mem_singleton.mpr rfl, Option.some.inj hg⟩⟩
    cases List.mem_singleton.mp hmem
    refine ⟨⟨rfl, fun key hkey => ⟨n, ?_, ?_⟩⟩, rfl⟩
    · rw [suites, hsession]
      exact hn
    · cases hkey
      rfl

theorem handshakeAction_session {action : FourWay.Action} (h : c.handshakeAction action = some r) :
    r.1.session = c.session := by
  cases action with
  | complete keys =>
    obtain ⟨install, -, rfl⟩ := Option.map_eq_some_iff.mp h
    rfl
  | _ => cases h; rfl

/-- **The actions of the handshake install the group keys they hand over**, and no others. -/
theorem installs_handshakeActions {actions : List FourWay.Action}
    (h : c.handshakeActions actions = some r) :
    (∀ keys, .installKeys keys ∈ r.2 →
      c.InstalledFor keys ∧ keys.group.gtk ∈ actions.filterMap FourWay.Action.gtk?) ∧
      ∀ gtk ∈ actions.filterMap FourWay.Action.gtk?,
        ∃ keys, .installKeys keys ∈ r.2 ∧ keys.group.gtk = gtk := by
  induction actions generalizing c r with
  | nil =>
    cases h
    exact ⟨fun keys hmem => (nomatch hmem), fun gtk hgtk => (nomatch hgtk)⟩
  | cons action rest ih =>
    obtain ⟨q, hq, hrest⟩ := Option.bind_eq_some_iff.mp h
    obtain ⟨q', hq', rfl⟩ := (tryThen_eq_some _).mp hrest
    obtain ⟨hfirst, hgives⟩ := installs_handshakeAction hq
    obtain ⟨hothers, hgive⟩ := ih hq'
    refine ⟨fun keys hmem => ?_, fun gtk hgtk => ?_⟩
    · rcases List.mem_append.mp hmem with hmem | hmem
      · obtain ⟨hfor, hgtk⟩ := hfirst keys hmem
        exact ⟨hfor, List.mem_filterMap.mpr ⟨action, List.mem_cons_self, hgtk⟩⟩
      · obtain ⟨hfor, hgtk⟩ := hothers keys hmem
        obtain ⟨a, ha, heq⟩ := List.mem_filterMap.mp hgtk
        exact ⟨hfor.of_suites (by rw [suites, suites, handshakeAction_session hq]),
          List.mem_filterMap.mpr ⟨a, List.mem_cons_of_mem _ ha, heq⟩⟩
    · obtain ⟨a, ha, heq⟩ := List.mem_filterMap.mp hgtk
      rcases List.mem_cons.mp ha with rfl | ha
      · obtain ⟨keys, hmem, hkeys⟩ := hgives gtk heq
        exact ⟨keys, List.mem_append_left _ hmem, hkeys⟩
      · obtain ⟨keys, hmem, hkeys⟩ := hgive gtk (List.mem_filterMap.mpr ⟨a, ha, heq⟩)
        exact ⟨keys, List.mem_append_right _ hmem, hkeys⟩

/-- **A poll of the handshake installs the group key it takes**, and no other. -/
theorem installs_handshakeMove {event : FourWay.Input} (hm : HandshakeMove c event r)
    {keys : KeyInstall} (hmem : .installKeys keys ∈ r.2) :
    c.InstalledFor keys ∧ ∃ session handshake, c.session = some session ∧
      session.handshake = some handshake ∧ handshake.TakesGtk S.prim event keys.group.gtk := by
  cases hm with
  | off => cases hmem
  | fail => exact (common_fail _ _ _ hmem).elim
  | actions session handshake actions q hsession hhandshake hpoll hactions =>
    rw [andThen_snd] at hmem
    rcases List.mem_append.mp hmem with hmem | hmem
    · obtain ⟨hfor, hgtk⟩ := (installs_handshakeActions hactions).1 keys hmem
      refine ⟨hfor.of_suites ?_, session, handshake, hsession, hhandshake, ?_⟩
      · rw [suites, suites, hsession]
        rfl
      · rw [← FourWay.mem_delivers_iff, hpoll]
        exact hgtk
    · split_ifs at hmem
      · exact (common_configured _ _ hmem).elim
      · cases hmem

/-- The handshake of the session takes this group key from a frame. -/
def Takes (c : Connection S) (call : Call S) (gtk : Gtk) : Prop :=
  ∃ draws frame session handshake, call = .poll draws (.eapol frame) ∧ c.Listening ∧
    c.session = some session ∧ session.handshake = some handshake ∧
    handshake.TakesGtk S.prim (.frame frame) gtk

theorem takes_of_installs {call : Call S} {keys : KeyInstall}
    (hmem : .installKeys keys ∈ (c.step call).2) :
    c.InstalledFor keys ∧ c.Takes call keys.group.gtk := by
  cases call with
  | insertProfile profile => cases hmem
  | forgetProfile ssid => cases hmem
  | poll draws input =>
    cases hpoll : c.poll draws input with
    | none =>
      rw [step, hpoll] at hmem
      cases hmem
    | some r =>
      rw [step, hpoll] at hmem
      rcases common_move (poll_move hpoll) with hcommon | ⟨-, -, -, hfetch⟩ |
        ⟨frame, rfl, hl, hm⟩ | ⟨-, -, hm⟩
      · exact (hcommon _ hmem).elim
      · rw [Option.getD_some, hfetch] at hmem
        cases List.mem_singleton.mp hmem
      · obtain ⟨hfor, session, handshake, hsession, hhandshake, ht⟩ :=
          installs_handshakeMove hm hmem
        exact ⟨hfor, draws, frame, session, handshake, rfl, hl, hsession, hhandshake, ht⟩
      · -- a timeout carries no key
        obtain ⟨-, session, handshake, -, -, _, _, _, _, _, htimeout, -⟩ :=
          installs_handshakeMove hm hmem
        cases htimeout

theorem installs_of_takes (hsound : c.Sound) {call : Call S} {gtk : Gtk} (h : c.Takes call gtk) :
    ∃ keys, .installKeys keys ∈ (c.step call).2 ∧ keys.group.gtk = gtk := by
  obtain ⟨draws, frame, session, handshake, rfl, hl, hsession, hhandshake, ht⟩ := h
  obtain ⟨n, hn⟩ := Option.isSome_iff_exists.mp
    (hsound.secured session hsession (.inr (by simp [hhandshake])))
  obtain ⟨eapol, key, hin⟩ : ∃ eapol key, FourWay.Incoming handshake frame eapol key := by
    obtain ⟨_, eapol, key, ptk, keyData, hframe, hm | ⟨-, hm⟩⟩ := ht
    · cases hframe
      exact ⟨eapol, key, hm.toIncoming⟩
    · cases hframe
      exact ⟨eapol, key, hm.toIncoming⟩
  have hdelivers := (FourWay.mem_delivers_iff handshake (.frame frame) gtk).mpr ht
  have hpoll : c.poll draws (.eapol frame) = _ := poll_eapolKey hl hsession hhandshake hin
  cases hactions : (handshake.poll S.prim (.frame frame)).2 with
  | error e =>
    rw [hactions] at hdelivers
    cases hdelivers
  | ok actions =>
    rw [hactions] at hdelivers hpoll
    have hsome : ((c.withSession (session.withHandshake
        (handshake.poll S.prim (.frame frame)).1)).handshakeActions actions).isSome :=
      handshakeActions_isSome rfl hn
    obtain ⟨q, hq⟩ := Option.isSome_iff_exists.mp hsome
    obtain ⟨keys, hmem, hkeys⟩ := (installs_handshakeActions hq).2 gtk hdelivers
    refine ⟨keys, ?_, hkeys⟩
    rw [step, hpoll, onHandshakeActions, hq]
    exact List.mem_append_left _ hmem

/-! ## Runs -/

/-- All keys the call has installed are for the ciphers negotiated, and as long as these ask for. -/
def KeysFit (e : Entry S) : Prop :=
  ∀ keys, .installKeys keys ∈ e.output → ∃ n, e.pre.suites = some n ∧ keys.Fits n

/-- A group key that a frame brings is as long as the group cipher of the session asks for. -/
def GtkFits (e : Entry S) : Prop :=
  ∀ gtk, e.pre.Takes e.input gtk → HasKeyLen e.pre.groupSuite gtk.key

theorem fits_iff (hsuited : c.Suited) {n : Negotiated} (hn : c.suites = some n) {keys : KeyInstall}
    (hfor : c.InstalledFor keys) : keys.Fits n ↔ HasKeyLen c.groupSuite keys.group.gtk.key := by
  refine ⟨fun h => hfor.group ▸ h.group, fun h => ⟨fun key hkey => ?_, ?_, hfor.group ▸ h⟩⟩
  · obtain ⟨n', hn', hcipher⟩ := hfor.pairwise key hkey
    obtain rfl := Option.some.inj (hn.symm.trans hn')
    obtain ⟨session, hsession, hrsn⟩ := Option.bind_eq_some_iff.mp hn
    have hjoin : c.joinOf = some { session.choice with signalDbm := 0 } := by
      rw [joinOf, hsession]
      rfl
    obtain ⟨suite, hsuite, hlen⟩ := pairwise_keyLen (hsuited _ n hjoin hrsn)
    rw [hsuite, Option.getD_some] at hcipher
    rw [hcipher, key.ptk.tk.toList_length]
    exact ⟨hsuite, hlen⟩
  · rw [hfor.group, groupSuite]
    show (c.suites.bind fun rsn => Nl80211.cipherSuite rsn.group).getD _ = _
    rw [hn]
    rfl

/-- **One call.** -/
theorem keysFit_iff (hsound : c.Sound) (hsuited : c.Suited) (call : Call S) :
    KeysFit (Machine.entry step c call) ↔ GtkFits (Machine.entry step c call) := by
  constructor
  · intro h gtk ht
    obtain ⟨keys, hmem, rfl⟩ := installs_of_takes hsound ht
    obtain ⟨n, hn, hfits⟩ := h keys hmem
    exact (fits_iff hsuited hn (takes_of_installs hmem).1).mp hfits
  · intro h keys hmem
    obtain ⟨hfor, ht⟩ := takes_of_installs hmem
    have hlen := h keys.group.gtk ht
    obtain ⟨-, -, session, handshake, -, -, hsession, hhandshake, -⟩ := ht
    obtain ⟨n, hrsn⟩ := Option.isSome_iff_exists.mp
      (hsound.secured session hsession (.inr (by simp [hhandshake])))
    have hn : c.suites = some n := by
      rw [suites, hsession]
      exact hrsn
    exact ⟨n, hn, (fits_iff hsuited hn hfor).mpr hlen⟩

/-- **When the keys that are installed fit.** In every run all keys installed are for the ciphers
negotiated and as long as these ask for, exactly when each frame that a group key is taken from brings
one as long as the group cipher asks for. -/
theorem keys_fit_iff (device : Device) (profiles : List Profile) (calls : List (Call S)) :
    Machine.Along (fun _ e => KeysFit e) (Machine.log step (new device profiles) calls) ↔
      Machine.Along (fun _ e => GtkFits e) (Machine.log step (new device profiles) calls) := by
  simp only [Machine.along_log_iff]
  refine forall₃_congr fun before call after => forall_congr' fun _ => ?_
  have hreach : Machine.Reachable step (new device profiles)
      (Machine.exec step (new device profiles) before : Connection S) := ⟨before, rfl⟩
  refine keysFit_iff (Reachable.sound ⟨before, rfl⟩) (hreach.invariant ?_ fun c call h => ?_) call
  · exact suited_of_none rfl
  · exact suited_step h call

/-! ### A group key that is too long -/

/-- The Key Data of a message 3 with a group key of 32 octets. -/
def sampleWideKeyData : Bytes :=
  eidRsn :: 2 :: ([1, 0] ++ (Authenticator.gtkKdeBytes 1 (List.replicate 32 0x5a) ++ [0xdd, 0, 0, 0]))

/-- The sample network, whose group cipher is CCMP-128, and a message 3 that brings such a key. -/
def sampleWide : List (Call .sample) :=
  sampleAssociation ++
    [.poll .sample (.eapol (Authenticator.msg1 .hmacSha1 1 Sample.anonce)),
      .poll .sample (.eapol (Authenticator.msg3 .sample .hmacSha1 2 Sample.anonce samplePtk.kck
        (sampleIcv ++ sampleWideKeyData)))]

/-- The cipher and the length of a group key that is installed. -/
def groupKeyOf : Action → Option (UInt32 × ℕ)
  | .installKeys keys => some (keys.group.cipher, keys.group.gtk.key.length)
  | _ => none

set_option maxRecDepth 10000 in
/-- A group key of 32 octets is installed for CCMP-128, which asks for 16. -/
theorem gtk_misfits :
    ((Machine.log step (new sampleDevice []) sampleWide).flatMap fun e =>
        e.output.filterMap groupKeyOf) = [(Nl80211.wlanCipherSuiteCcmp, 32)] ∧
      suiteKeyLen Nl80211.wlanCipherSuiteCcmp = some 16 ∧
      ¬ Machine.Along (fun _ e => KeysFit e) (Machine.log step (new sampleDevice []) sampleWide) := by
  have hkeys : ((Machine.log step (new sampleDevice []) sampleWide).flatMap fun e =>
      e.output.filterMap groupKeyOf) = [(Nl80211.wlanCipherSuiteCcmp, 32)] := by
    decide +kernel
  have hlen : suiteKeyLen Nl80211.wlanCipherSuiteCcmp = some 16 := by decide
  refine ⟨hkeys, hlen, fun hfit => ?_⟩
  obtain ⟨e, he, hmem⟩ := List.mem_flatMap.mp
    (hkeys ▸ List.mem_singleton.mpr rfl : (Nl80211.wlanCipherSuiteCcmp, 32) ∈ _)
  obtain ⟨action, haction, heq⟩ := List.mem_filterMap.mp hmem
  cases action with
  | installKeys keys =>
    obtain ⟨n, -, hfits⟩ := Machine.along_iff_forall.mp hfit e he keys haction
    simp only [groupKeyOf, Option.some.injEq, Prod.mk.injEq] at heq
    have hsixteen := hfits.group 16 (by rw [heq.1]; exact hlen)
    omega
  | _ => cases heq

end Connection

end Caw
