import Caw.Core.Asked
import Caw.Core.Renewal
import Caw.Core.Selection

/-!
# A survey leaves the link alone

A scan while connected is a roaming survey. It goes through the planner of a first join, whose errors
and prompts are for a station without a link.

* `Connection.Stays`, `Connection.Roams`: the two ways a survey may end;
* `Connection.Surveys`: it ends in exactly one of them;
* `Connection.Candidate`: the entry a survey plans for;
* `Connection.Sure`: planning for it neither asks, nor fails, nor associates with another network;
* `surveys_associateWith_iff`, **`surveys_plan_iff`**: the planner branch by branch;
* **`survey_iff`**: a survey ends well unless policy admits an entry that is not sure;
* `unreadable_drops`: a working link dropped for an entry whose 802.1X method cannot be built.
-/

set_option autoImplicit false

namespace Caw

open Caw.Core

variable {S : Platform}

/-- The 802.1X method of a credential can be built from the profile that holds it and the files it
names; other credentials need nothing built. -/
def Credential.Buildable (draws : Draws S) : Credential → Prop
  | .enterprise identity anonymousIdentity serverName method caCert =>
    ∃ name ca provider, serverName.or (realmOf (anonymousIdentity.getD identity)) = some name ∧
      caCert = some ca ∧
      draws.dot1x name ca (anonymousIdentity.getD identity) identity method = .ok provider
  | _ => True

/-- Ends a link, or asks a person. -/
def Core.Action.Disturbs : Action → Prop
  | .disconnect _ | .failed _ | .requestSecret _ => True
  | _ => False

namespace Connection

variable (c : Connection S) (draws : Draws S) (scan : List Bss)

/-! ## How a survey may end -/

/-- The link is left as it is, its signal read anew at most, and nothing is done. -/
def Stays (r : Connection S × List Action) : Prop :=
  r.2 = [] ∧ (r.1 = c ∨ ∃ session, c.session = some session ∧
    r.1 = c.withSession (session.withSignal (currentSignal session scan)))

/-- An entry of the network joined, stronger than the link by the margin. -/
def Stronger (session : Session S) (target : Target) (bss : Bss) : Prop :=
  bss.ssid = target.ssid ∧
    (currentSignal session scan).toInt + Policy.roamMarginDb ≤ bss.signalDbm.toInt

/-- One association is asked for, with an entry of the scan: one of the network joined, stronger by the
margin, with suites it offers that clear the profile's floor. -/
structure Roams (r : Connection S × List Action) : Prop where
  undisturbed : ∀ action ∈ r.2, ¬action.Disturbs
  joins : ∃ session target request bss, c.session = some session ∧ c.target = some target ∧
    requests r.2 = [.associate request] ∧
    (scan.find? fun bss => bss.bssid = request.bssid) = some bss ∧
    Stronger scan session target bss ∧ request.freqMhz = bss.freqMhz ∧
    (c.pickOf bss).Permits (.associate request)

/-- The survey ends in exactly one of the two ways. -/
def Surveys : Prop :=
  ∃ r, c.poll draws (.scanResults scan) = some r ∧ Xor (c.Stays scan r) (c.Roams scan r)

/-! ## What decides it -/

/-- Policy chooses an entry, and the core plans for the first with its BSSID. -/
structure Candidate (session : Session S) (target : Target) (bss : Bss) : Prop where
  joined : c.session = some session
  aimed : c.target = some target
  first : ∃ better, Policy.roamTarget scan target.ssid session.choice.bssid
      (currentSignal session scan) = some better ∧
    (scan.find? fun bss => bss.bssid = better.bssid) = some bss

/-- Policy has nothing against joining an entry with what is in hand. -/
def Admits (bss : Bss) : Prop := ∃ choice, c.evaluate bss (c.credential bss.rsn.isNone) true = .ok choice

/-- The station would have to authenticate by SAE itself before it associates. -/
def AuthenticatesFirst (bss : Bss) : Prop :=
  c.device.caps.offloadsSae = false ∧ (∃ ie ∈ bss.rsn, ie.akms.contains .sae = true) ∧
    ∃ secret, c.credential bss.rsn.isNone = some (.passphrase secret)

/-- There is a credential, its method can be built, and what would be associated with is worth it. -/
structure Sure (session : Session S) (target : Target) (bss : Bss) : Prop where
  inHand : c.credential bss.rsn.isNone ≠ none
  buildable : ∀ credential, c.credential bss.rsn.isNone = some credential →
    credential.Buildable draws
  worth : c.AuthenticatesFirst bss ∨ Stronger scan session target bss

variable {c draws scan}

/-! ## The authentication of a candidate -/

theorem enterpriseProvider_ok_iff {identity : String} {anonymousIdentity serverName : Option String}
    {method : EnterpriseMethod} {caCert : Option String} (hbuild : S.enterprise = true) :
    (∃ provider, enterpriseProvider draws identity anonymousIdentity serverName method caCert =
      .ok provider) ↔
      (Credential.enterprise identity anonymousIdentity serverName method caCert).Buildable draws := by
  unfold enterpriseProvider Credential.Buildable
  simp only [hbuild, Bool.not_true, Bool.false_eq_true, if_false]
  cases serverName.or (realmOf (anonymousIdentity.getD identity)) with
  | none => simp
  | some name =>
    cases caCert with
    | none => simp
    | some ca =>
      simp only [Except.mapError_eq_ok, Option.some.injEq, exists_and_left, exists_eq_left']

theorem chooseAkm_isSae_iff {enterprise : Bool} {ie : RsnIe} {secret : String} {akm : Akm}
    (h : Policy.chooseAkm enterprise ie (some (.passphrase secret)) = some akm) :
    akm.isSae = true ↔ ie.akms.contains .sae = true := by
  rw [Policy.chooseAkm_passphrase] at h
  split_ifs at h with hsae
  · cases h
    exact iff_of_true rfl hsae
  · cases h
    exact iff_of_false (by decide) hsae
  · cases h
    exact iff_of_false (by decide) hsae

variable {bss : Bss} {roaming : Bool} {credential : Credential} {choice : Choice}

/-- The suites of a choice, and what the credential in hand is on an open network. -/
theorem Chosen.suites (h : c.Chosen bss roaming credential choice) :
    (bss.rsn = none ∧ choice.rsn = none ∧ credential = .none) ∨
      ∃ ie n, bss.rsn = some ie ∧ choice.rsn = some n ∧
        Policy.chooseAkm S.enterprise ie (some credential) = some n.akm := by
  obtain ⟨rsn, hrsn, rfl, -⟩ := evaluate_eq_ok h.evaluated
  rcases negotiateBss_eq_ok hrsn with ⟨hnone, -, rfl⟩ | ⟨ie, n, hie, rfl, hn⟩
  · have hcredential := h.inHand
    rw [hnone] at hcredential
    cases hcredential
    exact .inl ⟨hnone, rfl, rfl⟩
  · exact .inr ⟨ie, n, hie, rfl, (negotiate_eq_ok hn).1⟩

/-- **A candidate is staged when its method can be built.** -/
theorem stage_ok_iff (h : c.Chosen bss roaming credential choice) :
    (∃ auth, c.stage draws choice credential = .ok auth) ↔ credential.Buildable draws := by
  unfold stage
  rcases h.suites with ⟨-, hrsn, rfl⟩ | ⟨ie, n, -, hrsn, hakm⟩
  · rw [hrsn]
    exact iff_of_true ⟨_, rfl⟩ trivial
  · rw [hrsn]
    obtain ⟨-, hsatisfies, hruns⟩ := Policy.chooseAkm_mem hakm
    simp only [authContext, hrsn, Option.map_some, Option.getD_some]
    cases credential with
    | none => cases hsatisfies
    | passphrase secret =>
      refine iff_of_true ?_ trivial
      simp only [Policy.satisfies, Bool.or_eq_true] at hsatisfies
      unfold assemble
      dsimp only
      split_ifs with hsae _ hpsk _
      · exact ⟨_, rfl⟩
      · exact ⟨_, rfl⟩
      · exact ⟨_, rfl⟩
      · exact ⟨_, rfl⟩
      · exact absurd hsatisfies (not_or.mpr ⟨hpsk, hsae⟩)
    | enterprise identity anonymousIdentity serverName method caCert =>
      have henterprise : n.akm.isEnterprise = true := hsatisfies
      have hbuild : S.enterprise = true := by
        unfold Policy.runnable at hruns
        split_ifs at hruns with hpersonal
        · rcases hpersonal with h | h | h <;> rw [h] at henterprise <;> cases henterprise
        · exact (Bool.and_eq_true_iff.mp hruns).1
      rw [← enterpriseProvider_ok_iff hbuild]
      unfold assemble
      simp only [henterprise, if_true, Except.map_eq_ok]
      constructor
      · rintro ⟨_, provider, hprovider, -⟩
        exact ⟨provider, hprovider⟩
      · rintro ⟨provider, hprovider⟩
        exact ⟨_, provider, hprovider, rfl⟩

/-- **The station authenticates first** when it is to run SAE. -/
theorem stage_preAssoc_iff (h : c.Chosen bss roaming credential choice) {auth : Auth S}
    (hstage : c.stage draws choice credential = .ok auth) :
    (∃ provider, auth = .preAssoc provider) ↔ c.AuthenticatesFirst bss := by
  unfold stage at hstage
  rcases h.suites with ⟨hbss, hrsn, rfl⟩ | ⟨ie, n, hbss, hrsn, hakm⟩
  · rw [hrsn] at hstage
    cases hstage
    refine iff_of_false ?_ ?_
    · rintro ⟨_, ⟨⟩⟩
    · rintro ⟨-, ⟨ie, hie, -⟩, -⟩
      rw [hbss] at hie
      cases hie
  · rw [hrsn] at hstage
    simp only [authContext, hrsn, Option.map_some, Option.getD_some] at hstage
    have hie : (∃ ie ∈ bss.rsn, ie.akms.contains .sae = true) ↔ ie.akms.contains .sae = true := by
      rw [hbss]
      simp
    rw [AuthenticatesFirst, hie, h.inHand]
    cases credential with
    | none => cases (Policy.chooseAkm_mem hakm).2.1
    | passphrase secret =>
      rw [← chooseAkm_isSae_iff hakm]
      unfold assemble at hstage
      dsimp only at hstage
      split_ifs at hstage with hsae hoffload <;> cases hstage <;> simp_all
    | enterprise identity anonymousIdentity serverName method caCert =>
      refine iff_of_false ?_ ?_
      · rintro ⟨provider, rfl⟩
        unfold assemble at hstage
        dsimp only at hstage
        split_ifs at hstage
        obtain ⟨_, -, heq⟩ := Except.map_eq_ok.mp hstage
        cases heq
      · rintro ⟨-, -, secret, ⟨⟩⟩

/-! ## One branch of the planner at a time -/

theorem not_surveys_of_state {r : Connection S × List Action} (hstate : r.1.state ≠ c.state)
    (hrequests : requests r.2 = []) : ¬Xor (c.Stays scan r) (c.Roams scan r) := by
  rintro (⟨⟨-, hsame⟩, -⟩ | ⟨hroams, -⟩)
  · rcases hsame with hsame | ⟨session, -, hsame⟩ <;> rw [hsame] at hstate <;> exact hstate rfl
  · obtain ⟨session, target, request, bss, -, -, hrequest, -⟩ := hroams.joins
    rw [hrequests] at hrequest
    cases hrequest

theorem not_surveys_fail (hstate : c.state = .connected) (failure : Failure) :
    ¬Xor (c.Stays scan (c.fail failure)) (c.Roams scan (c.fail failure)) := by
  refine not_surveys_of_state ?_ (requests_fail c failure)
  rw [hstate, fail_fst]
  split_ifs <;> simp

theorem not_surveys_prompt (bss : Bss) :
    ¬Xor (c.Stays scan (c.prompt bss)) (c.Roams scan (c.prompt bss)) := by
  obtain ⟨prompt, hasks⟩ := c.asks_prompt bss
  rintro (⟨⟨hnil, -⟩, -⟩ | ⟨hroams, -⟩)
  · rw [hnil] at hasks
    cases hasks
  · exact hroams.undisturbed _ hasks trivial

theorem surveys_stay : Xor (c.Stays scan (c, [])) (c.Roams scan (c, [])) := by
  refine .inl ⟨⟨rfl, .inl rfl⟩, fun hroams => ?_⟩
  obtain ⟨session, target, request, bss, -, -, hrequest, -⟩ := hroams.joins
  cases hrequest

theorem undisturbed_leaving (c : Connection S) (state : State) :
    ∀ action ∈ c.leaving state, ¬action.Disturbs := by
  unfold leaving disarm
  split_ifs
  · cases c.armed <;> simp [Action.Disturbs]
  · simp

theorem undisturbed_associateWith (target : Target) (session : Session S) :
    ∀ action ∈ (c.associateWith target session).2, ¬action.Disturbs := by
  rw [associateWith_snd]
  intro action hmem
  rcases List.mem_append.mp hmem with hmem | hmem
  · exact undisturbed_leaving _ _ action hmem
  · simp only [List.mem_cons, List.not_mem_nil, or_false] at hmem
    rcases hmem with rfl | rfl | rfl <;> exact not_false

/-- **An association roams** when the entry planned for is worth it. -/
theorem surveys_associateWith_iff (auth : Auth S) {session : Session S} {target : Target}
    (hcandidate : c.Candidate scan session target bss)
    (hchosen : c.Chosen bss roaming credential choice) :
    Xor (c.Stays scan ((c.withSession (newSession choice auth)).associateWith target
        (newSession choice auth)))
      (c.Roams scan ((c.withSession (newSession choice auth)).associateWith target
        (newSession choice auth))) ↔ Stronger scan session target bss := by
  have hrequests := requests_associateWith (c := c.withSession (newSession choice auth)) target
    (newSession choice auth)
  have hstays : ¬c.Stays scan ((c.withSession (newSession choice auth)).associateWith target
      (newSession choice auth)) := by
    rintro ⟨hnil, -⟩
    rw [hnil] at hrequests
    cases hrequests
  obtain ⟨hbssid, hclears⟩ := hchosen.clears
  have haddress := (assocRequest_bssid (c.withSession (newSession choice auth)).device.ifindex
    target.ssid (newSession choice auth)).trans hbssid
  obtain ⟨better, -, hfirst⟩ := hcandidate.first
  have hsame : bss.bssid = better.bssid := by simpa using List.find?_some hfirst
  rw [← hsame, ← haddress] at hfirst
  constructor
  · rintro (⟨hstay, -⟩ | ⟨hroams, -⟩)
    · exact absurd hstay hstays
    · obtain ⟨session', target', request, bss', hsession, htarget, hrequest, hfind, hworth, -⟩ :=
        hroams.joins
      rw [hrequests] at hrequest
      cases hrequest
      cases hcandidate.joined.symm.trans hsession
      cases hcandidate.aimed.symm.trans htarget
      cases hfirst.symm.trans hfind
      exact hworth
  · intro hworth
    refine .inr ⟨⟨undisturbed_associateWith target _, session, target, _, bss, hcandidate.joined,
      hcandidate.aimed, hrequests, hfirst, hworth, ?_, ?_⟩, hstays⟩
    · exact (assocRequest_freqMhz ..).trans hchosen.frequency
    · have hssid : target.ssid = (c.pickOf bss).ssid := by
        simp [pickOf, ssidBytes, hcandidate.aimed]
      exact ⟨(assocRequest_ssid ..).trans hssid, haddress, _, carries_assocRequest .., hclears⟩

/-- **Planning for a candidate**, branch by branch. -/
theorem surveys_plan_iff {session : Session S} {target : Target} (hstate : c.state = .connected)
    (hcandidate : c.Candidate scan session target bss) :
    (∃ r, c.plan draws bss true = some r ∧ Xor (c.Stays scan r) (c.Roams scan r)) ↔
      (c.Admits bss → c.Sure draws scan session target bss) := by
  unfold plan
  simp only
  cases heval : c.evaluate bss (c.credential bss.rsn.isNone) true with
  | error failure =>
    refine iff_of_true ⟨_, rfl, surveys_stay⟩ ?_
    rintro ⟨choice, hchoice⟩
    rw [heval] at hchoice
    cases hchoice
  | ok choice =>
    rw [imp_iff_right ⟨choice, heval⟩]
    cases hcredential : c.credential bss.rsn.isNone with
    | none =>
      refine iff_of_false ?_ fun hsure => hsure.inHand hcredential
      dsimp only
      split_ifs
      · rintro ⟨_, ⟨⟩, h⟩
        exact not_surveys_fail hstate _ h
      · rintro ⟨_, ⟨⟩, h⟩
        exact not_surveys_prompt bss h
    | some credential =>
      rw [hcredential] at heval
      have hchosen : c.Chosen bss true credential choice := ⟨hcredential, heval⟩
      have hbuildable : (∃ auth, c.stage draws choice credential = .ok auth) ↔ _ :=
        stage_ok_iff hchosen
      dsimp only
      cases hstage : c.stage draws choice credential with
      | error failure =>
        refine iff_of_false ?_ fun hsure => ?_
        · rintro ⟨_, ⟨⟩, h⟩
          exact not_surveys_fail hstate _ h
        · obtain ⟨auth, hauth⟩ := hbuildable.mpr (hsure.buildable credential hcredential)
          rw [hstage] at hauth
          cases hauth
      | ok auth =>
        have hsure : c.Sure draws scan session target bss ↔
            c.AuthenticatesFirst bss ∨ Stronger scan session target bss := by
          refine ⟨Sure.worth, fun hworth => ⟨by rw [hcredential]; simp, ?_, hworth⟩⟩
          intro credential' hcredential'
          rw [hcredential] at hcredential'
          cases hcredential'
          exact hbuildable.mp ⟨auth, hstage⟩
        have hfirst := stage_preAssoc_iff hchosen hstage
        have hroaming : choice.roaming = true := by
          obtain ⟨_, -, rfl, -⟩ := evaluate_eq_ok heval
          rfl
        rw [hsure, ← hfirst]
        by_cases hpre : ∃ provider, auth = .preAssoc provider
        · obtain ⟨provider, rfl⟩ := hpre
          exact iff_of_true ⟨(c, []), if_pos hroaming, surveys_stay⟩ (.inl ⟨provider, rfl⟩)
        · rw [or_iff_right hpre, ← surveys_associateWith_iff auth hcandidate hchosen]
          have hbegin : c.begin choice auth = some ((c.withSession
              (newSession choice auth)).associateWith target (newSession choice auth)) := by
            unfold begin
            split
            · exact absurd ⟨_, rfl⟩ hpre
            · unfold associate
              rw [withSession_target, withSession_session, hcandidate.aimed]
          dsimp only
          rw [hbegin]
          simp

/-! ## Surveys -/

theorem surveys_of_considerRoam {q : Connection S × List Action} (hstate : c.state = .connected)
    (hroam : c.considerRoam draws scan = some q) (h : Xor (c.Stays scan q) (c.Roams scan q)) :
    c.Surveys draws scan := by
  refine ⟨q, ?_, h⟩
  simp only [poll, onScanResults, hstate]
  exact hroam

theorem surveys_refresh {session : Session S} (hsession : c.session = some session) :
    Xor (c.Stays scan (c.withSession (session.withSignal (currentSignal session scan)), []))
      (c.Roams scan (c.withSession (session.withSignal (currentSignal session scan)), [])) := by
  refine .inl ⟨⟨rfl, .inr ⟨session, hsession, rfl⟩⟩, fun hroams => ?_⟩
  obtain ⟨session, target, request, bss, -, -, hrequest, -⟩ := hroams.joins
  cases hrequest

theorem surveys_iff (hstate : c.state = .connected) :
    c.Surveys draws scan ↔ ∀ session target bss, c.Candidate scan session target bss →
      c.Admits bss → c.Sure draws scan session target bss := by
  cases hsession : c.session with
  | none =>
    refine iff_of_true (surveys_of_considerRoam (q := (c, [])) hstate ?_ surveys_stay) ?_
    · simp only [considerRoam, hsession]
    · intro session target bss hcandidate
      cases hsession.symm.trans hcandidate.joined
  | some session =>
    cases htarget : c.target with
    | none =>
      refine iff_of_true (surveys_of_considerRoam (q := (c, [])) hstate ?_ surveys_stay) ?_
      · simp only [considerRoam, hsession, htarget]
      · intro session target bss hcandidate
        cases htarget.symm.trans hcandidate.aimed
    | some target =>
      cases hbetter : Policy.roamTarget scan target.ssid session.choice.bssid
          (currentSignal session scan) with
      | none =>
        have hroam : c.considerRoam draws scan =
            some (c.withSession (session.withSignal (currentSignal session scan)), []) := by
          simp only [considerRoam, hsession, htarget, hbetter]
        refine iff_of_true (surveys_of_considerRoam hstate hroam (surveys_refresh hsession)) ?_
        intro session' target' bss hcandidate
        cases hsession.symm.trans hcandidate.joined
        cases htarget.symm.trans hcandidate.aimed
        obtain ⟨better, hsome, -⟩ := hcandidate.first
        cases hbetter.symm.trans hsome
      | some better =>
        -- what policy chose is in the scan, so there is a first entry under its BSSID
        obtain ⟨bss, hfirst⟩ : ∃ bss, (scan.find? fun bss => bss.bssid = better.bssid) = some bss := by
          refine Option.isSome_iff_exists.mp (List.find?_isSome.mpr ⟨better, ?_, by simp⟩)
          exact (Policy.roamTarget_mem hbetter).1
        have hcandidate : c.Candidate scan session target bss :=
          ⟨hsession, htarget, better, hbetter, hfirst⟩
        have honly : ∀ session' target' bss', c.Candidate scan session' target' bss' →
            session' = session ∧ target' = target ∧ bss' = bss := by
          intro session' target' bss' hcandidate'
          cases hsession.symm.trans hcandidate'.joined
          cases htarget.symm.trans hcandidate'.aimed
          obtain ⟨better', hsome, hfirst'⟩ := hcandidate'.first
          cases hbetter.symm.trans hsome
          cases hfirst.symm.trans hfirst'
          exact ⟨rfl, rfl, rfl⟩
        have hpoll : c.poll draws (.scanResults scan) = c.plan draws bss true := by
          simp only [poll, onScanResults, hstate, considerRoam, hsession, htarget, hbetter, planBssid,
            hfirst]
        rw [Surveys, hpoll, surveys_plan_iff hstate hcandidate]
        constructor
        · intro hsure session' target' bss' hcandidate'
          obtain ⟨rfl, rfl, rfl⟩ := honly session' target' bss' hcandidate'
          exact hsure
        · exact fun hsure => hsure session target bss hcandidate

/-- **A survey leaves the link alone or roams**, in every connected state a daemon can come to, unless
policy admits the entry planned for and there is no credential for it, its 802.1X method cannot be built,
or it is not an entry of the network by the margin stronger. -/
theorem survey_iff (device : Device) (profiles : List Profile) (calls : List (Call S))
    (hstate : (Machine.exec step (new device profiles) calls).state = .connected)
    (draws : Draws S) (scan : List Bss) :
    (Machine.exec step (new device profiles) calls).Surveys draws scan ↔
      ∀ session target bss,
        (Machine.exec step (new device profiles) calls).Candidate scan session target bss →
        (Machine.exec step (new device profiles) calls).Admits bss →
        (Machine.exec step (new device profiles) calls).Sure draws scan session target bss :=
  surveys_iff hstate

theorem not_surveys_of_disturbs {action : Action}
    (hmem : action ∈ (c.step (.poll draws (.scanResults scan))).2) (hdisturbs : action.Disturbs) :
    ¬c.Surveys draws scan := by
  rintro ⟨r, hpoll, h⟩
  have hstep : c.step (.poll draws (.scanResults scan)) = r := by rw [step, hpoll]; rfl
  rw [hstep] at hmem
  rcases h with ⟨⟨hnil, -⟩, -⟩ | ⟨hroams, -⟩
  · rw [hnil] at hmem
    cases hmem
  · exact hroams.undisturbed action hmem hdisturbs

end Connection

/-! ### A roam, and a CA certificate that cannot be read -/

namespace Connection

/-- A stronger access point of the sample network. -/
def sampleFarScan : List Bss :=
  [samplePskBss, { samplePskBss with bssid := sampleFar, signalDbm := -30 }]

theorem survey_sample :
    (Machine.exec step (new sampleDevice []) sampleUp).Surveys Draws.sample sampleFarScan := by
  refine (survey_iff sampleDevice [] sampleUp (by decide +kernel) .sample sampleFarScan).mpr ?_
  intro session target bss hcandidate hadmits
  have hprofile : (Machine.exec step (new sampleDevice []) sampleUp).credential false =
      some (.passphrase "password") := by decide +kernel
  have htarget : (Machine.exec step (new sampleDevice []) sampleUp).target.map Target.ssid =
      some [110] := by decide +kernel
  have hsession : ((Machine.exec step (new sampleDevice []) sampleUp).session.map fun session =>
      (session.choice.bssid, currentSignal session sampleFarScan)) = some (.zero 6, -50) := by
    decide +kernel
  rw [hcandidate.aimed, Option.map_some, Option.some_inj] at htarget
  rw [hcandidate.joined, Option.map_some, Option.some_inj, Prod.mk.injEq] at hsession
  obtain ⟨better, hbetter, hfirst⟩ := hcandidate.first
  rw [htarget, hsession.1, hsession.2] at hbetter
  have hfar : Policy.roamTarget sampleFarScan [110] (.zero 6) (-50) = sampleFarScan[1]? := by
    decide +kernel
  rw [hfar] at hbetter
  cases hbetter
  cases hfirst
  refine ⟨?_, ?_, .inr ⟨htarget.symm, ?_⟩⟩
  · intro hnone
    cases hprofile.symm.trans hnone
  · intro credential hcredential
    cases hprofile.symm.trans hcredential
    trivial
  · rw [hsession.2]
    decide

end Connection

/-- A build with an 802.1X method that is done after one frame. -/
def Platform.sampleDot1x : Platform :=
  { Platform.sampleEnterprise with
    Dot1x := Unit
    dot1xStart _ _ := ((), .ok .wait)
    dot1xOnFrame _ _ _ := ((), .ok (.done (derivePmk .sample "password" [110]))) }

/-- The method built, or what the files it names are wrong with. -/
def Draws.sampleDot1x (built : Except String Unit) : Draws .sampleDot1x where
  saeSeed := .zero _
  snonce := .ok (.zero 32)
  dot1x _ _ _ _ _ := built

namespace Connection

/-- The profile of a network with 802.1X. -/
def sampleDot1xProfile : Profile where
  ssid := [110]
  security := .wpa2Enterprise
  credential := .enterprise "user" none (some "radius.example") (.peap "password") (some "ca.pem")
  autoconnect := true
  minSecurity := .wpa2Enterprise

/-- An access point of a network with 802.1X. -/
def sampleDot1xBss : Bss :=
  { samplePskBss with
    security := .wpa2Enterprise
    rsn := samplePskBss.rsn.map fun ie => { ie with akms := [.dot1x] } }

/-- Its profile joined, up to the address. -/
def sampleDot1xJoin : List (Call .sampleDot1x) :=
  .insertProfile sampleDot1xProfile ::
    [.command (.connect [110]), .scanResults [sampleDot1xBss], .wireless (.connected none .success),
        .eapol [2, 0, 0, 0], .eapol (Authenticator.msg1 .hmacSha1 1 Sample.anonce),
        .eapol (sampleMsg3 2), .lease (.acquired sampleLease)].map
      fun input => .poll (.sampleDot1x (.ok ())) input

/-- A stronger access point of that network. -/
def sampleDot1xScan : List Bss :=
  [sampleDot1xBss, { sampleDot1xBss with bssid := sampleFar, signalDbm := -30 }]

/-- The certificate is gone when the survey comes, and the working link is dropped. -/
theorem unreadable_drops :
    (Machine.exec step (new sampleDevice []) sampleDot1xJoin).state = .connected ∧
      .disconnect reasonLeaving ∈ (step (Machine.exec step (new sampleDevice []) sampleDot1xJoin)
        (.poll (.sampleDot1x (.error "ca.pem")) (.scanResults sampleDot1xScan))).2 ∧
      ¬(Machine.exec step (new sampleDevice []) sampleDot1xJoin).Surveys
        (.sampleDot1x (.error "ca.pem")) sampleDot1xScan := by
  have hmem : .disconnect reasonLeaving ∈
      (step (Machine.exec step (new sampleDevice []) sampleDot1xJoin)
        (.poll (.sampleDot1x (.error "ca.pem")) (.scanResults sampleDot1xScan))).2 := by
    decide +kernel
  exact ⟨by decide +kernel, hmem, not_surveys_of_disturbs hmem trivial⟩

end Connection

end Caw
