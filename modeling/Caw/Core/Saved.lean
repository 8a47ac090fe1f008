import Caw.Core.Floor
import Caw.Core.Joined
import Caw.Core.Target
import Caw.Nl80211.Bss

/-!
# The floor a join stores

A join that succeeds is remembered with the security its BSS advertised; the next join is measured by
the security it negotiates.

* `RsnIe.Overrated`: an element classified by an 802.1X suite and joined with a passphrase below it;
* **`floor_le_iff`**: everywhere else the floor stored is one the join clears;
* `Connection.JoinedFor`: the BSS and the credential a session was planned with;
* **`saved_floor_iff`**: the same BSS is accepted again with the profile saved, unless it is overrated;
* `mixed_downgrade`: a network with PSK and 802.1X suites that is joined once and then refused.
-/

set_option autoImplicit false

namespace Caw

open Caw.Core

/-! ## The suites a passphrase chooses -/

namespace Policy

/-- **The AKM a passphrase is joined with**: SAE where it is on offer, else the stronger PSK. -/
theorem chooseAkm_passphrase (enterprise : Bool) (rsn : RsnIe) (secret : String) :
    chooseAkm enterprise rsn (some (.passphrase secret)) =
      if rsn.akms.contains .sae then some .sae
      else if rsn.akms.contains .pskSha256 then some .pskSha256
      else if rsn.akms.contains .psk then some .psk
      else none := by
  have hruns : ∀ akm : Akm, akm = .psk ∨ akm = .pskSha256 ∨ akm = .sae →
      runnable enterprise akm = true := fun akm h => if_pos h
  simp only [chooseAkm, akmPreference, List.find?_cons, List.find?_nil, satisfies, Akm.isPsk, Akm.isSae,
    Bool.or_false, Bool.or_true, Bool.and_true, Bool.and_false, Bool.false_and,
    hruns .sae (.inr (.inr rfl)), hruns .pskSha256 (.inr (.inl rfl)), hruns .psk (.inl rfl)]
  cases rsn.akms.contains .sae <;> cases rsn.akms.contains .pskSha256 <;>
    cases rsn.akms.contains .psk <;> rfl

end Policy

/-- Classified by an 802.1X suite whose level a PSK, the strongest suite a passphrase finds here, does
not reach. -/
def RsnIe.Overrated (ie : RsnIe) : Prop :=
  ie.akms.any Akm.isSae = false ∧ ie.akms.contains .owe = false ∧ ie.akms.any Akm.isEnterprise = true ∧
    (ie.mfpRequired || ie.akms.contains .dot1xSuiteB192) = true

/-- A BSS as the scan reports it: its level is what its elements are classified at. -/
def Bss.Classified (bss : Bss) : Prop :=
  ∃ wpa privacy, bss.security = Security.classify bss.rsn wpa privacy

theorem Bss.classified_of_parse {nested : Bytes} {bss : Bss} (h : Bss.parse nested = some bss) :
    bss.Classified := by
  obtain ⟨hrsn, hsecurity⟩ := bss_parse h
  refine ⟨(BeaconIes.parse (Nl80211.BssReport.ofNested nested).elements).wpa,
    (Nl80211.BssReport.ofNested nested).privacy, ?_⟩
  rw [hsecurity, hrsn, BeaconIes.security]

theorem any_of_contains {akms : List Akm} {akm : Akm} {p : Akm → Bool} (h : akms.contains akm = true)
    (hp : p akm = true) : akms.any p = true :=
  List.any_eq_true.mpr ⟨akm, List.contains_iff_mem.mp h, hp⟩

namespace Connection

variable {S : Platform}

/-- What a passphrase negotiates: SAE at its level, or a PSK at its own. -/
theorem negotiate_passphrase {ie : RsnIe} {secret : String} {n : Negotiated}
    (h : negotiate S.enterprise ie (some (.passphrase secret)) = .ok n) :
    (ie.akms.any Akm.isSae = true ∧ provided (some n) = .wpa3Personal) ∨
      (ie.akms.any Akm.isPsk = true ∧ provided (some n) = .wpa2Personal) := by
  obtain ⟨hakm, -, -⟩ := negotiate_eq_ok h
  rw [Policy.chooseAkm_passphrase] at hakm
  split_ifs at hakm with hsae hsha hpsk
  · refine .inl ⟨any_of_contains hsae rfl, ?_⟩
    rw [provided, ← Option.some.inj hakm]
    rfl
  · refine .inr ⟨any_of_contains hsha rfl, ?_⟩
    rw [provided, ← Option.some.inj hakm]
    rfl
  · refine .inr ⟨any_of_contains hpsk rfl, ?_⟩
    rw [provided, ← Option.some.inj hakm]
    rfl

/-- **The floor a passphrase join stores** is no higher than what it negotiated, unless the BSS is
overrated. -/
theorem floor_le_iff {ie : RsnIe} {secret : String} {n : Negotiated}
    (h : negotiate S.enterprise ie (some (.passphrase secret)) = .ok n) (wpa : Option WpaIe)
    (privacy : Bool) :
    Policy.strength (Policy.securityFloor (Security.classify (some ie) wpa privacy)) ≤
      Policy.strength (provided (some n)) ↔ ¬ ie.Overrated := by
  rcases negotiate_passphrase h with ⟨hsae, hprovided⟩ | ⟨hpsk, hprovided⟩
  · have hle : ∀ s : Security, Policy.strength (Policy.securityFloor s) ≤ 6 := by
      intro s
      cases s <;> decide
    rw [hprovided]
    refine iff_of_true (hle _) fun hover => ?_
    rw [hover.1] at hsae
    cases hsae
  · rw [hprovided]
    unfold RsnIe.Overrated Security.classify Security.ofRsn Security.fromAkms
    simp only [Option.bind_some, hpsk, Bool.and_true]
    cases ie.akms.any Akm.isSae <;> cases ie.akms.contains .owe <;>
      cases ie.akms.any Akm.isEnterprise <;>
      cases ie.mfpRequired || ie.akms.contains .dot1xSuiteB192 <;>
      simp [Policy.strength, Policy.securityFloor]

/-! ## The same BSS again -/

/-- The profile a join of the BSS stores: its floor is what was advertised, its credential a
passphrase, or none on an open network. -/
structure StoredFor (bss : Bss) (profile : Profile) : Prop where
  floor : profile.minSecurity = Policy.securityFloor bss.security
  credential : bss.rsn.isSome → ∃ secret, profile.credential = .passphrase secret

variable {c c' : Connection S}

/-- **A BSS is accepted** when suites can be negotiated that clear the floor. -/
theorem evaluate_ok_iff {bss : Bss} {credential : Option Credential} {roaming : Bool} :
    (∃ choice, c.evaluate bss credential roaming = .ok choice) ↔
      ∃ rsn, negotiateBss (S := S) bss credential = .ok rsn ∧
        ∀ profile, c.profile = some profile → profile.accepts (provided rsn) = true := by
  constructor
  · rintro ⟨choice, h⟩
    obtain ⟨rsn, hrsn, -, haccepts⟩ := evaluate_eq_ok h
    exact ⟨rsn, hrsn, haccepts⟩
  · rintro ⟨rsn, hrsn, haccepts⟩
    unfold evaluate
    rw [hrsn]
    cases hprofile : c.profile with
    | none => exact ⟨_, rfl⟩
    | some profile => exact ⟨_, if_pos (haccepts profile hprofile)⟩

/-- **Evaluated again with the profile stored**, a BSS once joined with a passphrase, or in the open,
is accepted unless it is overrated. -/
theorem evaluate_again_iff {bss : Bss} {roaming : Bool} {credential : Credential} {choice : Choice}
    {profile : Profile} (hchosen : c.Chosen bss roaming credential choice) (hclassified : bss.Classified)
    (hpassphrase : bss.rsn.isSome → ∃ secret, credential = .passphrase secret)
    (hstored : StoredFor bss profile) (hprofile : c'.profile = some profile) :
    (∃ choice', c'.evaluate bss (c'.credential bss.rsn.isNone) false = .ok choice') ↔
      ∀ ie, bss.rsn = some ie → ¬ ie.Overrated := by
  obtain ⟨rsn, hrsn, -, -⟩ := evaluate_eq_ok hchosen.evaluated
  rw [evaluate_ok_iff]
  rcases negotiateBss_eq_ok hrsn with ⟨hnone, hopen, rfl⟩ | ⟨ie, n, hie, rfl, hn⟩
  · refine iff_of_true ⟨none, by simp [negotiateBss, hnone, hopen], fun p hp => ?_⟩ (fun ie hie => ?_)
    · rw [hprofile] at hp
      cases hp
      rw [Profile.accepts_iff, hstored.floor, hopen]
      exact le_rfl
    · rw [hnone] at hie
      cases hie
  · obtain ⟨secret, rfl⟩ := hpassphrase (by simp [hie])
    obtain ⟨secret', hsecret'⟩ := hstored.credential (by simp [hie])
    have hcredential : c'.credential bss.rsn.isNone = some (.passphrase secret') := by
      simp [Connection.credential, hie, hprofile, hsecret']
    -- of a passphrase nothing matters but that it is one
    have hagain : negotiateBss (S := S) bss (some (.passphrase secret')) = .ok (some n) := hrsn
    obtain ⟨wpa, privacy, hsecurity⟩ := hclassified
    have hfloor := floor_le_iff hn wpa privacy
    rw [hie] at hsecurity
    rw [← hsecurity, ← hstored.floor, ← Profile.accepts_iff] at hfloor
    rw [hcredential, hagain]
    constructor
    · rintro ⟨rsn', hrsn', haccepts⟩ ie' hie'
      cases hrsn'
      rw [hie] at hie'
      cases hie'
      exact hfloor.mp (haccepts profile hprofile)
    · intro h
      refine ⟨_, rfl, fun p hp => ?_⟩
      rw [hprofile] at hp
      cases hp
      exact hfloor.mpr (h ie hie)

/-! ## What a session was planned for -/

/-- The session under way was planned for the BSS, with the credential, at some call of the
history. -/
def JoinedFor (past : List (Entry S)) (c : Connection S) (bss : Bss) (credential : Credential) : Prop :=
  ∃ e ∈ past, ∃ (draws : Draws S) (input : Input) (c' : Connection S) (roaming : Bool) (choice : Choice),
    e.input = .poll draws input ∧ e.pre.plans input = some (c', bss, roaming) ∧
      c'.Chosen bss roaming credential choice ∧ c.joinOf = some { choice with signalDbm := 0 }

/-- Every session was planned for some BSS. -/
def JoinedInv (past : List (Entry S)) (c : Connection S) : Prop :=
  c.session.isSome → ∃ bss credential, JoinedFor past c bss credential

variable {past : List (Entry S)} {draws : Draws S} {r : Connection S × List Action}

theorem joinOf_eq_none : c.joinOf = none ↔ c.session = none := Option.map_eq_none_iff

theorem isSome_joinOf : c.joinOf.isSome = c.session.isSome := Option.isSome_map

theorem JoinedInv.retains (h : JoinedInv past c) (hjoined : c'.joinOf = none ∨ c'.joinOf = c.joinOf)
    (rest : List (Entry S)) : JoinedInv (past ++ rest) c' := by
  intro hsome
  rcases hjoined with hnone | hsame
  · rw [joinOf_eq_none.mp hnone] at hsome
    cases hsome
  · have hsession : c.session.isSome := by
      rwa [← isSome_joinOf, hsame, isSome_joinOf] at hsome
    obtain ⟨bss, credential, e, he, draws, input, c₀, roaming, choice, hinput, hplans, hchosen, hjoin⟩ :=
      h hsession
    exact ⟨bss, credential, e, List.mem_append_left _ he, draws, input, c₀, roaming, choice, hinput,
      hplans, hchosen, hsame.trans hjoin⟩

/-- Planning leaves the session that was, or begins one for the BSS planned for. -/
theorem planned_joins {bss : Bss} {roaming : Bool} (hp : Planned c draws bss roaming r) :
    (r.1.joinOf = none ∨ r.1.joinOf = c.joinOf) ∨ ∃ credential choice,
      c.Chosen bss roaming credential choice ∧ r.1.joinOf = some { choice with signalDbm := 0 } := by
  cases hp with
  | refused => exact .inl (retains_fail _).joined
  | stay => exact .inl (.inr rfl)
  | enterprise => exact .inl (retains_fail _).joined
  | prompt => exact .inl (.inr rfl)
  | unstaged => exact .inl (retains_fail _).joined
  | sae credential choice provider q hchosen _ _ hd =>
    rcases (retains_saeDriven hd).joined with hnone | hsame
    · exact .inl (.inl hnone)
    · refine .inr ⟨credential, choice, hchosen, hsame.trans ?_⟩
      rw [enter_fst]
      rfl
  | associate credential choice auth target hchosen =>
    refine .inr ⟨credential, choice, hchosen, ?_⟩
    rw [associateWith_fst]
    rfl

theorem plans_session {input : Input} {bss : Bss} {roaming : Bool}
    (h : c.plans input = some (c', bss, roaming)) : c'.session = c.session := by
  cases input with
  | scanResults scan =>
    simp only [plans] at h
    split at h
    · obtain ⟨p, -, h⟩ := Option.bind_eq_some_iff.mp h
      obtain ⟨found, -, heq⟩ := Option.map_eq_some_iff.mp h
      cases heq
      rfl
    · split at h
      · obtain ⟨best, -, h⟩ := Option.bind_eq_some_iff.mp h
        obtain ⟨found, -, heq⟩ := Option.map_eq_some_iff.mp h
        cases heq
        rfl
      · cases h
    · cases h
  | command command =>
    cases command with
    | secret value =>
      simp only [plans] at h
      split at h
      · cases h
        rfl
      · cases h
    | _ => cases h
  | _ => cases h

theorem JoinedInv.step (h : JoinedInv past c) (call : Call S) :
    JoinedInv (past ++ [Machine.entry step c call]) (c.step call).1 := by
  cases call with
  | insertProfile profile => exact h.retains (.inr rfl) _
  | forgetProfile ssid => exact h.retains (.inr rfl) _
  | poll draws input =>
    cases hpoll : c.poll draws input with
    | none =>
      have hstep : c.step (.poll draws input) = (c, []) := by rw [Connection.step, hpoll]; rfl
      rw [hstep]
      exact h.retains (.inr rfl) _
    | some r =>
      have hstep : c.step (.poll draws input) = r := by rw [Connection.step, hpoll]; rfl
      rw [hstep]
      cases (poll_move hpoll).course with
      | quiet _ hplans hrequests hretains => exact h.retains hretains.joined _
      | exchange event _ hplans hst hd => exact h.retains (retains_saeDriven hd).joined _
      | planned c' bss roaming _ hplans htarget hbegins hp =>
        rcases planned_joins hp with hkept | ⟨credential, choice, hchosen, hjoin⟩
        · exact h.retains (by rwa [joinOf, joinOf, plans_session hplans] at hkept) _
        · intro _
          exact ⟨bss, credential, _, List.mem_append_right _ (List.mem_singleton.mpr rfl), draws, input,
            c', roaming, choice, rfl, hplans, hchosen, hjoin⟩

/-! ## What is saved -/

/-- The profile a lease makes a connection save: for the target, from the session. -/
theorem saved_profile {profile : Profile} (h : .saveProfile profile ∈ c.saveProfile.2) :
    ∃ target session credential, c.target = some target ∧ c.session = some session ∧
      target.save = true ∧ joinedWith target session = some credential ∧
      profile = { Profile.new target.ssid session.choice.advertised credential with
        autoconnect := true } ∧
      c.saveProfile.1 = (c.withTarget { target with save := false }).insertProfile profile := by
  unfold saveProfile at h ⊢
  split at h
  · rename_i target session htarget hsession
    split_ifs at h with hsave
    · cases h
    · split at h
      · cases h
      · rename_i credential hcredential
        obtain rfl := Action.saveProfile.inj (List.mem_singleton.mp h)
        refine ⟨target, session, credential, htarget, hsession, by simpa using hsave, hcredential, rfl,
          ?_⟩
        simp only [hsave]
        rfl
  · cases h

theorem mem_onLease_acquired {profile : Profile} {lease : Dhcp.Lease} :
    .saveProfile profile ∈ (c.onLease (.acquired lease)).2 ↔
      .saveProfile profile ∈ (saveProfile { (c.enter .connected).1 with attempts := 0 }).2 := by
  rw [← mem_saves, ← mem_saves]
  simp [onLease, savedBy]

theorem profile_insertProfile {target : Target} {profile : Profile} (hssid : profile.ssid = target.ssid) :
    ((c.withTarget target).insertProfile profile).profile = some profile := by
  have hnone : ((c.profiles.filter fun p => p.ssid ≠ profile.ssid).find? fun p =>
      p.ssid = target.ssid) = none := by
    rw [List.find?_eq_none]
    intro p hp
    have hne := (List.mem_filter.mp hp).2
    simp only [decide_eq_true_eq] at hne ⊢
    exact fun heq => hne (heq.trans hssid.symm)
  simp only [Connection.profile, insertProfile_target, withTarget_target, Option.map_some,
    Option.bind_some, insertProfile_profiles, withTarget_profiles, hssid, if_true, List.find?_append]
  rw [hssid] at hnone
  rw [hnone]
  simp [hssid]

theorem JoinedFor.stored {bss : Bss} {credential stored : Credential} {target : Target}
    {session : Session S} (h : JoinedFor past c bss credential) (hsession : c.session = some session)
    (hstored : joinedWith target session = some stored) :
    StoredFor bss { Profile.new target.ssid session.choice.advertised stored with
      autoconnect := true } := by
  obtain ⟨e, -, draws, input, c', roaming, choice, -, -, hchosen, hjoin⟩ := h
  obtain ⟨rsn, hrsn, rfl, -⟩ := evaluate_eq_ok hchosen.evaluated
  simp only [joinOf, hsession, Option.map_some, Option.some.injEq, Choice.mk.injEq] at hjoin
  obtain ⟨-, -, -, hadvertised, -, hsuites, -⟩ := hjoin
  refine ⟨congrArg Policy.securityFloor hadvertised, fun hsome => ?_⟩
  rcases negotiateBss_eq_ok hrsn with ⟨hnone, -⟩ | ⟨ie, n, -, rfl, -⟩
  · rw [hnone] at hsome
    cases hsome
  · simp only [joinedWith, hsuites] at hstored
    obtain ⟨secret, -, rfl⟩ := Option.map_eq_some_iff.mp hstored
    exact ⟨secret, rfl⟩

/-- What a call that reaches an address and saves a profile means for the next join. -/
def StoredAgain (past : List (Entry S)) (e : Entry S) : Prop :=
  ∀ draws lease profile, e.input = .poll draws (.lease (.acquired lease)) →
    .saveProfile profile ∈ e.output →
    e.post.profile = some profile ∧ (∃ bss credential, JoinedFor past e.pre bss credential) ∧
    ∀ bss credential, JoinedFor past e.pre bss credential → bss.Classified →
      (bss.rsn.isSome → ∃ secret, credential = .passphrase secret) →
      ∀ c' : Connection S, c'.profile = some profile →
        ((∃ choice, c'.evaluate bss (c'.credential bss.rsn.isNone) false = .ok choice) ↔
          ∀ ie, bss.rsn = some ie → ¬ ie.Overrated)

/-- **The floor a join stores.** In every run, a join that reaches an address and is saved was planned
for some BSS; and the BSS it was planned for, with a passphrase or in the open, is accepted again with
the profile saved exactly when it is not overrated. -/
theorem saved_floor_iff (device : Device) (profiles : List Profile) (calls : List (Call S)) :
    Machine.Along StoredAgain (Machine.log step (new device profiles) calls) := by
  have hinit : JoinedInv [] (new device profiles : Connection S) := fun h => by cases h
  refine Machine.along_of_inv (G := fun _ _ => True) hinit (fun past c call h _ => h.step call) ?_ calls
    fun _ _ _ _ => trivial
  rintro past c call hinv - draws lease profile hinput hsave
  rw [Machine.entry_input] at hinput
  subst hinput
  have hout := mem_onLease_acquired.mp hsave
  obtain ⟨target, session, stored, htarget, hsession, -, hstored, rfl, hpost⟩ := saved_profile hout
  rw [enter_fst] at htarget hsession
  refine ⟨?_, hinv (by rw [hsession]; rfl), fun bss credential hjoined hclassified hpassphrase c'
    hprofile => ?_⟩
  · change (Connection.saveProfile _).1.profile = _
    rw [hpost]
    exact profile_insertProfile rfl
  · have hstoredFor := hjoined.stored hsession hstored
    obtain ⟨e, -, draws, input, c₀, roaming, choice, -, -, hchosen, -⟩ := hjoined
    exact evaluate_again_iff hchosen hclassified hpassphrase hstoredFor hprofile

/-! ### A network with both kinds of suite -/

/-- PSK and 802.1X under CCMP, management frame protection required. -/
def sampleMixedIe : Bytes :=
  [48, 24, 1, 0, 0x00, 0x0f, 0xac, 4, 1, 0, 0x00, 0x0f, 0xac, 4, 2, 0, 0x00, 0x0f, 0xac, 1, 0x00, 0x0f,
    0xac, 2, 0xc0, 0]

/-- A BSS as a scan would report it. -/
def sampleMixedBss : Bss :=
  let rsn := (RsnIe.parse sampleMixedIe).toOption
  { sampleBss with capability := 17, security := Security.classify rsn none true, rsn }

/-- A device that runs the handshake itself. -/
def sampleOffload : Device := { sampleDevice with caps := { sampleDevice.caps with
  offloads4wayPsk := true } }

/-- It is joined with a passphrase, up to its address. -/
def sampleMixedJoin : List (Call .sample) :=
  [.poll .sample (.command (.connect [110])), .poll .sample (.scanResults [sampleMixedBss]),
    .poll .sample (.command (.secret "password")),
    .poll .sample (.wireless (.connected none .success)),
    .poll .sample (.lease (.acquired sampleLease))]

set_option maxRecDepth 10000 in
/-- The join is saved, and refused when it is made again. -/
theorem mixed_downgrade : sampleMixedBss.Classified ∧
    (Machine.exec step (new sampleOffload [] : Connection .sample) sampleMixedJoin).state =
      .connected ∧
    (Machine.exec step (new sampleOffload [] : Connection .sample) sampleMixedJoin).profile =
      some { ssid := [110], security := .wpa3Enterprise, credential := .passphrase "password"
             autoconnect := true, minSecurity := .wpa3Enterprise } ∧
    (Machine.exec step (new sampleOffload [] : Connection .sample) sampleMixedJoin).evaluate
        sampleMixedBss (some (.passphrase "password")) false =
      .error (.downgrade .wpa3Enterprise .wpa2Personal) :=
  ⟨⟨none, true, rfl⟩, by decide +kernel, by decide +kernel, by decide +kernel⟩

end Connection

end Caw
