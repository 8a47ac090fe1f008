import Caw.Core.Saved
import Caw.Core.Timers

/-!
# A network worth prompting for

Before a credential is in hand the AKM is chosen from the access point's list alone, to tell a network
a passphrase joins from one it does not.

* `Policy.chooseAkm_none`: the suite that choice falls on;
* `RsnIe.Outranked`: an 802.1X suite stands before every suite a passphrase satisfies;
* `Connection.Asks`: planning for a BSS asks for its passphrase;
* `asks_iff`: it does when a suite of its own is chosen that is not 802.1X;
* **`asks_joinable_iff`**: which is when a passphrase joins it, unless this build runs 802.1X and the
  passphrase's suites are outranked;
* `mixed_not_asked`: a network with PSK and 802.1X suites that is never prompted for.
-/

set_option autoImplicit false

namespace Caw

open Caw.Core

/-! ## The suite chosen without a credential -/

namespace Policy

/-- **The AKM chosen before a credential is supplied.** -/
theorem chooseAkm_none (enterprise : Bool) (rsn : RsnIe) :
    chooseAkm enterprise rsn none =
      if rsn.akms.contains .sae then some .sae
      else if enterprise && rsn.akms.contains .dot1xSha256 then some .dot1xSha256
      else if rsn.akms.contains .pskSha256 then some .pskSha256
      else if enterprise && rsn.akms.contains .dot1x then some .dot1x
      else if rsn.akms.contains .psk then some .psk
      else none := by
  have hruns : ∀ akm : Akm, akm = .psk ∨ akm = .pskSha256 ∨ akm = .sae →
      runnable enterprise akm = true := fun akm h => if_pos h
  have hdot1x : runnable enterprise .dot1x = enterprise := by cases enterprise <;> rfl
  have hdot1xSha256 : runnable enterprise .dot1xSha256 = enterprise := by cases enterprise <;> rfl
  simp only [chooseAkm, akmPreference, List.find?_cons, List.find?_nil, satisfies, Bool.and_true,
    hruns .sae (.inr (.inr rfl)), hruns .pskSha256 (.inr (.inl rfl)), hruns .psk (.inl rfl), hdot1x,
    hdot1xSha256]
  cases enterprise <;> cases rsn.akms.contains .sae <;> cases rsn.akms.contains .dot1xSha256 <;>
    cases rsn.akms.contains .pskSha256 <;> cases rsn.akms.contains .dot1x <;>
    cases rsn.akms.contains .psk <;> rfl

end Policy

/-- An 802.1X suite stands before every suite on offer that a passphrase satisfies, and one is on
offer. -/
def RsnIe.Outranked (ie : RsnIe) : Prop :=
  ie.akms.contains .sae = false ∧
    ((ie.akms.contains .dot1xSha256 = true ∧
        (ie.akms.contains .pskSha256 = true ∨ ie.akms.contains .psk = true)) ∨
      (ie.akms.contains .dot1x = true ∧ ie.akms.contains .pskSha256 = false ∧
        ie.akms.contains .psk = true))

namespace Policy

/-- **The two choices agree** on whether a passphrase joins, unless its suites are outranked. -/
theorem chooseAkm_agree_iff (enterprise : Bool) (rsn : RsnIe) (secret : String) :
    ((∃ akm, chooseAkm enterprise rsn none = some akm ∧ akm.isEnterprise = false) ↔
      ∃ akm, chooseAkm enterprise rsn (some (.passphrase secret)) = some akm) ↔
      ¬(enterprise = true ∧ rsn.Outranked) := by
  rw [chooseAkm_none, chooseAkm_passphrase, RsnIe.Outranked]
  cases enterprise <;> cases rsn.akms.contains .sae <;> cases rsn.akms.contains .dot1xSha256 <;>
    cases rsn.akms.contains .pskSha256 <;> cases rsn.akms.contains .dot1x <;>
    cases rsn.akms.contains .psk <;> simp [Akm.isEnterprise]

end Policy

namespace Connection

variable {S : Platform} {c : Connection S} {draws : Draws S}

/-! ## What asks -/

theorem not_asks_disarm (c : Connection S) (prompt : String) : .requestSecret prompt ∉ c.disarm.2 := by
  unfold disarm
  cases c.armed <;> simp

theorem not_asks_leaving (c : Connection S) (state : State) (prompt : String) :
    .requestSecret prompt ∉ c.leaving state := by
  unfold leaving
  split_ifs
  · exact not_asks_disarm c prompt
  · simp

theorem not_asks_fail (c : Connection S) (failure : Failure) (prompt : String) :
    .requestSecret prompt ∉ (c.fail failure).2 := by
  unfold fail backOff giveUp
  simp only [andThen_snd]
  split_ifs <;> simp [not_asks_leaving, not_asks_disarm, arm]

theorem not_asks_associateWith (c : Connection S) (target : Target) (session : Session S)
    (prompt : String) : .requestSecret prompt ∉ (c.associateWith target session).2 := by
  rw [associateWith_snd]
  simp [not_asks_leaving]

theorem asks_prompt (c : Connection S) (bss : Bss) :
    ∃ prompt, .requestSecret prompt ∈ (c.prompt bss).2 := by
  unfold prompt
  exact ⟨_, List.mem_append_right _ (List.mem_singleton.mpr rfl)⟩

/-- Planning for a BSS asks for its passphrase. -/
def Asks (c : Connection S) (draws : Draws S) (bss : Bss) (roaming : Bool) : Prop :=
  ∃ r prompt, c.plan draws bss roaming = some r ∧ .requestSecret prompt ∈ r.2

variable {bss : Bss} {roaming : Bool}

theorem not_asks_open (hrsn : bss.rsn = none) : ¬c.Asks draws bss roaming := by
  rintro ⟨r, prompt, hplan, hmem⟩
  have hcredential : c.credential bss.rsn.isNone = some .none := by
    rw [hrsn]
    exact if_pos rfl
  cases plan_planned hplan with
  | refused failure _ _ => exact not_asks_fail c failure prompt hmem
  | stay _ => exact absurd hmem List.not_mem_nil
  | enterprise choice hnone _ => rw [hcredential] at hnone; cases hnone
  | prompt choice hnone _ _ => rw [hcredential] at hnone; cases hnone
  | unstaged credential choice failure _ _ => exact not_asks_fail c failure prompt hmem
  | sae credential choice provider r hchosen hstage _ _ =>
    -- an open network runs no provider
    obtain ⟨rsn, hsuites, rfl, -⟩ := evaluate_eq_ok hchosen.evaluated
    rw [negotiateBss, hrsn] at hsuites
    simp only at hsuites
    split_ifs at hsuites
    cases hsuites
    cases hstage
  | associate credential choice auth target _ _ _ _ => exact not_asks_associateWith _ _ _ prompt hmem

/-- Suites can be negotiated when there is an AKM and a pairwise cipher. -/
theorem exists_negotiate (ie : RsnIe) (credential : Option Credential) (P : Akm → Prop) :
    (∃ n, negotiate S.enterprise ie credential = .ok n ∧ P n.akm) ↔
      (∃ akm, Policy.chooseAkm S.enterprise ie credential = some akm ∧ P akm) ∧
        (Policy.choosePairwise ie).isSome := by
  constructor
  · rintro ⟨n, hn, hP⟩
    obtain ⟨hakm, hpairwise, -⟩ := negotiate_eq_ok hn
    exact ⟨⟨n.akm, hakm, hP⟩, Option.isSome_iff_exists.mpr ⟨_, hpairwise⟩⟩
  · rintro ⟨⟨akm, hakm, hP⟩, hpairwise⟩
    obtain ⟨pairwise, hpairwise⟩ := Option.isSome_iff_exists.mp hpairwise
    unfold negotiate
    rw [hakm, hpairwise]
    exact ⟨_, rfl, hP⟩

/-- **What is asked for**: without a profile and a secret, a secured network whose suite chosen from the
access point's list alone is not 802.1X. -/
theorem asks_iff (hprofile : c.profile = none) (hsecret : ∀ t ∈ c.target, t.secret = none) :
    c.Asks draws bss roaming ↔ ∃ ie ∈ bss.rsn, ∃ n,
      negotiate S.enterprise ie none = .ok n ∧ n.akm.isEnterprise = false := by
  cases hrsn : bss.rsn with
  | none =>
    refine iff_of_false (not_asks_open hrsn) ?_
    rintro ⟨ie, ⟨⟩, -⟩
  | some ie =>
    have hcredential : c.credential bss.rsn.isNone = none := by
      rw [hrsn, credential, hprofile]
      cases htarget : c.target with
      | none => rfl
      | some t =>
        show t.secret.map _ = none
        rw [hsecret t htarget]
        rfl
    have hnegotiate : negotiateBss (S := S) bss none = (negotiate S.enterprise ie none).map some := by
      rw [negotiateBss, hrsn]
    constructor
    · rintro ⟨r, prompt, hplan, hmem⟩
      cases plan_planned hplan with
      | refused failure _ _ => exact absurd hmem (not_asks_fail c failure prompt)
      | stay _ => exact absurd hmem List.not_mem_nil
      | enterprise choice _ _ => exact absurd hmem (not_asks_fail c .noCredential prompt)
      | prompt choice _ heval hakm =>
        obtain ⟨rsn, hsuites, rfl, -⟩ := evaluate_eq_ok heval
        rw [hnegotiate] at hsuites
        obtain ⟨n, hn, rfl⟩ := Except.map_eq_ok.mp hsuites
        exact ⟨ie, rfl, n, hn, hakm⟩
      | unstaged credential choice failure _ _ =>
        exact absurd hmem (not_asks_fail c failure prompt)
      | sae credential choice provider r hchosen _ _ _ =>
        rw [hchosen.inHand] at hcredential
        cases hcredential
      | associate credential choice auth target hchosen _ _ _ =>
        rw [hchosen.inHand] at hcredential
        cases hcredential
    · rintro ⟨_, ⟨⟩, n, hn, hakm⟩
      obtain ⟨prompt, hprompt⟩ := c.asks_prompt bss
      refine ⟨_, prompt, ?_, hprompt⟩
      have heval : ∃ choice, c.evaluate bss none roaming = .ok choice ∧ choice.rsn = some n := by
        unfold evaluate
        rw [hnegotiate, hn, hprofile]
        exact ⟨_, rfl, rfl⟩
      obtain ⟨choice, heval, hchoice⟩ := heval
      simp only [plan, hcredential, heval, hchoice, Option.any_some, hakm, Bool.false_eq_true,
        if_false]

/-- **A network is asked for exactly when a passphrase joins it**, unless this build runs 802.1X, the
suites a passphrase satisfies are outranked, and there is a pairwise cipher. -/
theorem asks_joinable_iff (hprofile : c.profile = none) (hsecret : ∀ t ∈ c.target, t.secret = none)
    (secret : String) :
    (c.Asks draws bss roaming ↔ ¬(bss.rsn = none ∧ bss.security = .open) ∧
      ∃ choice, c.evaluate bss (some (.passphrase secret)) roaming = .ok choice) ↔
      ¬(S.enterprise = true ∧ ∃ ie ∈ bss.rsn, ie.Outranked ∧ (Policy.choosePairwise ie).isSome) := by
  have hevaluate : (∃ choice, c.evaluate bss (some (.passphrase secret)) roaming = .ok choice) ↔
      ∃ rsn, negotiateBss (S := S) bss (some (.passphrase secret)) = .ok rsn := by
    rw [evaluate_ok_iff]
    refine exists_congr fun rsn => and_iff_left ?_
    rw [hprofile]
    rintro profile ⟨⟩
  rw [asks_iff hprofile hsecret, hevaluate]
  cases hrsn : bss.rsn with
  | none =>
    refine iff_of_true (iff_of_false ?_ ?_) ?_
    · rintro ⟨ie, ⟨⟩, -⟩
    · rintro ⟨hclosed, rsn, hsuites⟩
      rw [negotiateBss, hrsn] at hsuites
      simp only at hsuites
      split_ifs at hsuites with hopen
      exact hclosed ⟨rfl, hopen⟩
    · rintro ⟨-, ie, ⟨⟩, -⟩
  | some ie =>
    have hjoin : (∃ rsn, negotiateBss (S := S) bss (some (.passphrase secret)) = .ok rsn) ↔
        (∃ akm, Policy.chooseAkm S.enterprise ie (some (.passphrase secret)) = some akm) ∧
          (Policy.choosePairwise ie).isSome := by
      have hexists := exists_negotiate (S := S) ie (some (.passphrase secret)) fun _ => True
      simp only [and_true] at hexists
      rw [← hexists, negotiateBss, hrsn]
      simp only [Except.map_eq_ok]
      constructor
      · rintro ⟨_, n, hn, -⟩
        exact ⟨n, hn⟩
      · rintro ⟨n, hn⟩
        exact ⟨_, n, hn, rfl⟩
    have hclosed : ¬(some ie = none ∧ bss.security = .open) := by
      rintro ⟨⟨⟩, -⟩
    rw [hjoin, and_iff_right hclosed]
    simp only [Option.mem_some_iff, exists_eq_left']
    rw [exists_negotiate ie none fun akm => akm.isEnterprise = false]
    cases (Policy.choosePairwise ie).isSome with
    | false => simp
    | true =>
      simp only [and_true]
      exact Policy.chooseAkm_agree_iff S.enterprise ie secret

/-! ### Two networks -/

theorem asks_joinable_sample : sampleScanning.Asks .sample samplePskBss false := by
  have hsecret : ∀ t ∈ sampleScanning.target, t.secret = none := by
    rintro t ⟨⟩
    rfl
  have hbuild : ¬(Platform.sample.enterprise = true ∧
      ∃ ie ∈ samplePskBss.rsn, ie.Outranked ∧ (Policy.choosePairwise ie).isSome) := by
    rintro ⟨⟨⟩, -⟩
  refine ((asks_joinable_iff rfl hsecret "password").mpr hbuild).mpr ⟨?_, _, rfl⟩
  rintro ⟨⟨⟩, -⟩

end Connection

/-- A build with 802.1X. -/
def Platform.sampleEnterprise : Platform := { Platform.sample with enterprise := true }

/-- Draws without a provider for 802.1X. -/
def Draws.sampleEnterprise : Draws .sampleEnterprise where
  saeSeed := .zero _
  snonce := .ok (.zero 32)
  dot1x _ _ _ _ _ := .error "unsupported"

namespace Connection

/-- A connection of that build, told to join a network. -/
def sampleUnasked : Connection .sampleEnterprise :=
  Machine.exec step (new sampleDevice []) [.poll .sampleEnterprise (.command (.connect [110]))]

/-- PSK and 802.1X suites: a passphrase joins, and the attempt ends without asking for one. -/
theorem mixed_not_asked :
    sampleUnasked.profile = none ∧ (∀ t ∈ sampleUnasked.target, t.secret = none) ∧
      (∃ choice, sampleUnasked.evaluate sampleMixedBss (some (.passphrase "password")) false =
        .ok choice) ∧
      ¬sampleUnasked.Asks .sampleEnterprise sampleMixedBss false ∧
      .failed .noCredential ∈
        (step sampleUnasked (.poll .sampleEnterprise (.scanResults [sampleMixedBss]))).2 := by
  have hplan : sampleUnasked.plan .sampleEnterprise sampleMixedBss false =
      some (sampleUnasked.fail .noCredential) := rfl
  refine ⟨rfl, ?_, ⟨_, rfl⟩, ?_, by decide +kernel⟩
  · rintro t ⟨⟩
    rfl
  · rintro ⟨r, prompt, hr, hmem⟩
    rw [hplan, Option.some_inj] at hr
    rw [← hr] at hmem
    exact not_asks_fail _ _ prompt hmem

end Connection

end Caw
