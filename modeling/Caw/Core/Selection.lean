import Caw.Core.Floor
import Caw.Core.Timers

/-!
# The BSS chosen is the BSS joined

Policy chooses an entry of a scan; the core looks it up again by its BSSID, and requests follow much
later. Here each request is traced back to a scan.

* `Connection.Competes`, `Connection.Strongest`: what the choice is to be;
* `Connection.choiceOf`, `choiceOf_strongest`: what policy chooses is that;
* `Surveyed`: a choice of some scan of the history, and the entry the core found for it;
* `Traced`, **`Traced.step`**: whatever is parked or chosen last has been surveyed;
* **`chosen_requested`**: where the entry found agrees with the entry chosen, every request names a
  strongest entry;
* `shared_bssid`: two networks on one BSSID, and the wrong one is joined.
-/

set_option autoImplicit false

namespace Caw

open Caw.Core

variable {S : Platform}

namespace Connection

/-! ## What policy chooses -/

section Choice

variable (c : Connection S)

/-- The entries of a scan a choice is made among. -/
def Competes (scan : List Bss) (bss : Bss) : Prop :=
  match c.state with
  | .scanning =>
    match c.target with
    | some target => bss.ssid = target.ssid
    | none => ∃ p ∈ c.profiles, p.autoconnect = true ∧ p.ssid = bss.ssid
  | .connected => ∃ session target, c.session = some session ∧ c.target = some target ∧
      Policy.WorthRoaming target.ssid session.choice.bssid (currentSignal session scan) bss
  | _ => False

/-- An entry of the scan that advertises the network; of those it competes with, a strongest. -/
structure Strongest (scan : List Bss) (ssid : Bytes) (best : Bss) : Prop where
  mem : best ∈ scan
  ssid : best.ssid = ssid
  competes : c.Competes scan best
  strongest : ∀ bss ∈ scan, c.Competes scan bss → bss.signalDbm.toInt ≤ best.signalDbm.toInt

/-- The network and the entry policy chooses. -/
def choiceOf (scan : List Bss) : Option (Bytes × Bss) :=
  match c.state with
  | .scanning =>
    match c.target with
    | some target => (Policy.bestBss scan target.ssid).map fun bss => (target.ssid, bss)
    | none => (Policy.bestKnown scan c.profiles).map fun p => (p.2.ssid, p.1)
  | .connected =>
    match c.session, c.target with
    | some session, some target =>
      (Policy.roamTarget scan target.ssid session.choice.bssid (currentSignal session scan)).map
        fun bss => (target.ssid, bss)
    | _, _ => none
  | _ => none

variable {c}

theorem choiceOf_strongest {scan : List Bss} {ssid : Bytes} {best : Bss}
    (h : c.choiceOf scan = some (ssid, best)) : c.Strongest scan ssid best := by
  unfold choiceOf at h
  split at h
  · rename_i hst
    split at h
    · rename_i target htarget
      obtain ⟨bss, hbest, heq⟩ := Option.map_eq_some_iff.mp h
      cases heq
      obtain ⟨hmem, hssid⟩ := Policy.bestBss_mem hbest
      refine ⟨hmem, hssid, by simpa [Competes, hst, htarget] using hssid, fun b hb hcompetes => ?_⟩
      simp only [Competes, hst, htarget] at hcompetes
      exact Policy.bestBss_le hbest b hb hcompetes
    · rename_i htarget
      obtain ⟨⟨bss, p⟩, hbest, heq⟩ := Option.map_eq_some_iff.mp h
      cases heq
      obtain ⟨hmem, hp, hauto, hssid⟩ := Policy.bestKnown_mem hbest
      refine ⟨hmem, hssid.symm, ?_, fun b hb hcompetes => ?_⟩
      · simp only [Competes, hst, htarget]
        exact ⟨p, hp, hauto, hssid⟩
      · simp only [Competes, hst, htarget] at hcompetes
        exact Policy.bestKnown_le hbest b hb hcompetes
  · rename_i hst
    split at h
    · rename_i session target hsession htarget
      obtain ⟨bss, hbest, heq⟩ := Option.map_eq_some_iff.mp h
      cases heq
      obtain ⟨hworth, hle⟩ := Policy.roamTarget_worth hbest
      have hiff : ∀ b, c.Competes scan b ↔ Policy.WorthRoaming target.ssid session.choice.bssid
          (currentSignal session scan) b := by
        intro b
        simp [Competes, hst, hsession, htarget]
      exact ⟨(Policy.roamTarget_mem hbest).1, hworth.1, (hiff _).mpr hworth,
        fun b hb hcompetes => hle b hb ((hiff b).mp hcompetes)⟩
    · cases h
  · cases h

/-- **What is planned from a scan** is the first entry with the BSSID of the entry chosen. -/
theorem plans_scan {scan : List Bss} {c' : Connection S} {bss : Bss} {roaming : Bool}
    (h : c.plans (.scanResults scan) = some (c', bss, roaming)) : ∃ ssid best,
      c.choiceOf scan = some (ssid, best) ∧
      (scan.find? fun bss => bss.bssid = best.bssid) = some bss ∧ c'.aim = some ssid ∧
      c'.pending = c.pending ∧ (c.target.isSome → c'.aim = c.aim) := by
  simp only [plans] at h
  split at h
  · rename_i hst
    obtain ⟨⟨target, bssid⟩, hselection, h⟩ := Option.bind_eq_some_iff.mp h
    obtain ⟨found, hfound, heq⟩ := Option.map_eq_some_iff.mp h
    cases heq
    unfold selection at hselection
    split at hselection
    · rename_i target' htarget
      obtain ⟨best, hbest, heq⟩ := Option.map_eq_some_iff.mp hselection
      cases heq
      exact ⟨target.ssid, best, by simp [choiceOf, hst, htarget, hbest], hfound, rfl, rfl,
        fun _ => by simp [aim, htarget]⟩
    · rename_i htarget
      obtain ⟨⟨best, p⟩, hbest, heq⟩ := Option.map_eq_some_iff.mp hselection
      cases heq
      exact ⟨p.ssid, best, by simp [choiceOf, hst, htarget, hbest], hfound, rfl, rfl,
        fun hsome => by simp [htarget] at hsome⟩
  · rename_i hst
    split at h
    · rename_i session target hsession htarget
      obtain ⟨best, hbest, h⟩ := Option.bind_eq_some_iff.mp h
      obtain ⟨found, hfound, heq⟩ := Option.map_eq_some_iff.mp h
      cases heq
      exact ⟨target.ssid, best, by simp [choiceOf, hst, hsession, htarget, hbest], hfound,
        by simp [aim, htarget], rfl, fun _ => rfl⟩
    · cases h
  · cases h

end Choice

/-! ## Where a pick comes from -/

/-- A scan of the history in which policy chose an entry for the network, and the core found `bss`
under its BSSID. -/
def Surveyed (past : List (Entry S)) (ssid : Bytes) (bss : Bss) : Prop :=
  ∃ e ∈ past, ∃ draws scan best, e.input = .poll draws (.scanResults scan) ∧
    e.pre.choiceOf scan = some (ssid, best) ∧
    (scan.find? fun bss => bss.bssid = best.bssid) = some bss

variable {past : List (Entry S)} {c : Connection S} {draws : Draws S}
  {r : Connection S × List Action}

theorem Surveyed.mono {ssid : Bytes} {bss : Bss} (h : Surveyed past ssid bss)
    (rest : List (Entry S)) : Surveyed (past ++ rest) ssid bss := by
  obtain ⟨e, he, hscan⟩ := h
  exact ⟨e, List.mem_append_left _ he, hscan⟩

/-- What is parked has been surveyed, for the network worked towards. -/
def ParkedInv (past : List (Entry S)) (c : Connection S) : Prop :=
  ∀ bss, c.pending = some bss → ∃ ssid, c.aim = some ssid ∧ Surveyed past ssid bss

theorem ParkedInv.keeps {c' : Connection S} (h : ParkedInv past c) (hkeeps : c.KeepsParked c')
    (rest : List (Entry S)) : ParkedInv (past ++ rest) c' := by
  intro bss hpending
  rcases hkeeps with hnone | ⟨hsame, haim⟩
  · rw [hnone] at hpending
    cases hpending
  · obtain ⟨ssid, hssid, hsurveyed⟩ := h bss (hsame ▸ hpending)
    exact ⟨ssid, haim.trans hssid, hsurveyed.mono rest⟩

theorem planned_parks {c' : Connection S} {bss : Bss} {roaming : Bool}
    (hp : Planned c' draws bss roaming r) :
    c'.KeepsParked r.1 ∨ (r.1.pending = some bss ∧ r.1.aim = c'.aim) := by
  cases hp with
  | refused => exact .inl (retains_fail _).parked
  | stay => exact .inl retains_refl.parked
  | enterprise => exact .inl (retains_fail _).parked
  | prompt => exact .inr ⟨rfl, rfl⟩
  | unstaged => exact .inl (retains_fail _).parked
  | sae credential choice provider q _ _ _ hd =>
    have hq := (retains_saeDriven hd).parked
    rw [enter_fst] at hq
    exact .inl hq
  | associate =>
    rw [associateWith_fst]
    exact .inl (.inr ⟨rfl, rfl⟩)

theorem surveyed_planned {input : Input} {c' : Connection S} {bss : Bss} {roaming : Bool}
    {e : Entry S} (hparked : ParkedInv past c) (hsound : c.Sound) (hpre : e.pre = c)
    (hinput : e.input = .poll draws input) (hplans : c.plans input = some (c', bss, roaming))
    (hp : Planned c' draws bss roaming r) :
    (∃ ssid, c'.aim = some ssid ∧ Surveyed (past ++ [e]) ssid bss) ∧ ParkedInv (past ++ [e]) r.1 := by
  have hmem : e ∈ past ++ [e] := List.mem_append_right _ (List.mem_singleton.mpr rfl)
  have hkey : (∃ ssid, c'.aim = some ssid ∧ Surveyed (past ++ [e]) ssid bss) ∧
      ParkedInv (past ++ [e]) c' := by
    cases input with
    | scanResults scan =>
      obtain ⟨ssid, best, hchoice, hfind, haim, hpending, hsame⟩ := plans_scan hplans
      refine ⟨⟨ssid, haim, e, hmem, draws, scan, best, hinput, hpre ▸ hchoice, hfind⟩, ?_⟩
      by_cases htarget : c.target.isSome
      · exact hparked.keeps (.inr ⟨hpending, hsame htarget⟩) _
      · refine hparked.keeps (.inl (hpending.trans ?_)) _
        by_contra hne
        exact htarget (hsound.targeted (.inr (Option.isSome_iff_ne_none.mpr hne)))
    | command command =>
      cases command with
      | secret value =>
        simp only [plans] at hplans
        split at hplans
        · rename_i target parked htarget hpending
          cases hplans
          obtain ⟨ssid, haim, hsurveyed⟩ := hparked bss hpending
          refine ⟨⟨ssid, ?_, hsurveyed.mono _⟩, by rintro _ ⟨⟩⟩
          rw [← haim, aim, aim, htarget]
          rfl
        · cases hplans
      | _ => cases hplans
    | _ => cases hplans
  refine ⟨hkey.1, ?_⟩
  rcases planned_parks hp with hretains | ⟨hpending, haim⟩
  · intro bss' hpending'
    rcases hretains with hnone | ⟨hsame, haim⟩
    · rw [hnone] at hpending'
      cases hpending'
    · obtain ⟨ssid, hssid, hsurveyed⟩ := hkey.2 bss' (hsame ▸ hpending')
      exact ⟨ssid, haim.trans hssid, hsurveyed⟩
  · intro bss' hpending'
    rw [hpending] at hpending'
    cases hpending'
    obtain ⟨ssid, hssid, hsurveyed⟩ := hkey.1
    exact ⟨ssid, haim.trans hssid, hsurveyed⟩

/-! ## The frequency of a request -/

/-- The frequency a request names. -/
def frequency : Action → Option UInt32
  | .associate request => some request.freqMhz
  | .authenticate request => some request.freqMhz
  | _ => none

/-- The session is on a frequency. -/
def On (freqMhz : UInt32) (c : Connection S) : Prop :=
  ∃ session, c.session = some session ∧ session.choice.freqMhz = freqMhz

variable {freqMhz : UInt32}

theorem assocRequest_freqMhz (ifindex : UInt32) (ssid : Bytes) (session : Session S) :
    (assocRequest ifindex ssid session).freqMhz = session.choice.freqMhz := by
  unfold assocRequest
  split <;> rfl

theorem frequency_associateWith {target : Target} {session : Session S}
    (h : session.choice.freqMhz = freqMhz) :
    ∀ action ∈ requests (c.associateWith target session).2, frequency action = some freqMhz := by
  rw [requests_associateWith, List.forall_mem_singleton, ← h]
  exact congrArg some (assocRequest_freqMhz ..)

theorem frequency_saeDriven {event : SaeEvent} (hon : On freqMhz c) (hd : SaeDriven c event r) :
    (∀ action ∈ requests r.2, frequency action = some freqMhz) ∧
      (r.1.state = .authenticating → On freqMhz r.1) := by
  obtain ⟨session, hsession, hfreq⟩ := hon
  cases hd with
  | off => exact ⟨by simp, fun _ => ⟨session, hsession, hfreq⟩⟩
  | call target session' provider q r htarget hsession' hauth hq hm =>
    rw [hsession] at hsession'
    cases hsession'
    obtain ⟨p', x⟩ := q
    have hon' : On freqMhz (c.withSession (session.withAuth (.preAssoc p'))) := ⟨_, rfl, hfreq⟩
    cases hm with
    | wait => exact ⟨by simp, fun _ => hon'⟩
    | send frame request hreq =>
      refine ⟨?_, fun _ => hon'⟩
      simp only [authRequest, withSession_session, withSession_target, htarget] at hreq
      split_ifs at hreq
      cases hreq
      simp only [andThen_snd, arm_snd, List.cons_append, List.nil_append, requests_cons, isRequest,
        if_true, Bool.false_eq_true, if_false, requests_nil, List.forall_mem_singleton]
      exact congrArg some hfreq
    | noBody => exact fail_idle _ _
    | fail => exact fail_idle _ _
    | done target' session' pmk htarget' hsession' =>
      cases hsession'
      have hkeyed : (keyed (session.withAuth (.preAssoc p')) pmk).choice.freqMhz = freqMhz := by
        rw [keyed_choice, Session.withAuth_choice, hfreq]
      refine ⟨frequency_associateWith hkeyed, fun hst => ?_⟩
      rw [associateWith_fst] at hst
      cases hst

theorem Chosen.frequency {bss : Bss} {roaming : Bool} {credential : Credential} {choice : Choice}
    (h : c.Chosen bss roaming credential choice) : choice.freqMhz = bss.freqMhz := by
  obtain ⟨rsn, -, rfl, -⟩ := evaluate_eq_ok h.evaluated
  rfl

theorem frequency_planned {bss : Bss} {roaming : Bool} (hp : Planned c draws bss roaming r) :
    (∀ action ∈ requests r.2, frequency action = some bss.freqMhz) ∧
      (r.1.state = .authenticating → On bss.freqMhz r.1 ∨
        (c.state = .authenticating ∧ (roaming = true ∨ c.credential bss.rsn.isNone = none))) := by
  cases hp with
  | refused => exact fail_idle _ _
  | enterprise => exact fail_idle _ _
  | unstaged => exact fail_idle _ _
  | stay hroaming => exact ⟨by simp, fun hst => .inr ⟨hst, .inl hroaming⟩⟩
  | prompt choice hcredential =>
    exact ⟨by simp [requests, Connection.prompt], fun hst => .inr ⟨hst, .inr hcredential⟩⟩
  | sae credential choice provider q hchosen hstage hroaming hd =>
    have hon : On bss.freqMhz
        ((c.withSession (newSession choice (.preAssoc provider))).enter .authenticating).1 := by
      rw [enter_fst]
      exact ⟨_, rfl, hchosen.frequency⟩
    obtain ⟨hrequests, hstays⟩ := frequency_saeDriven hon hd
    refine ⟨?_, fun hst => .inl (hstays hst)⟩
    simpa using hrequests
  | associate credential choice auth target hchosen =>
    have hfreq : (newSession choice auth).choice.freqMhz = bss.freqMhz := hchosen.frequency
    refine ⟨frequency_associateWith hfreq, fun hst => ?_⟩
    rw [associateWith_fst] at hst
    cases hst

/-! ## Requests over a run -/

/-- The pick made last is a scanned BSS, the session under way is on its frequency, and what is parked
has been surveyed. -/
structure Traced (past : List (Entry S)) (c : Connection S) : Prop where
  sound : c.Sound
  fits : PickInv (lastPick past) c
  tuned : c.state = .authenticating → ∃ pick, lastPick past = some pick ∧ On pick.bss.freqMhz c
  picked : ∀ pick, lastPick past = some pick → Surveyed past pick.ssid pick.bss
  parked : ParkedInv past c

/-- A poll traced: its requests are for the pick made last, on the frequency of that. -/
structure Follows (past : List (Entry S)) (r : Connection S × List Action) : Prop where
  requests : ∀ action ∈ requests r.2, ∃ pick, lastPick past = some pick ∧ pick.Permits action ∧
    frequency action = some pick.bss.freqMhz
  traced : Traced past r.1

theorem Traced.course {input : Input} {e : Entry S} (h : Traced past c) (hpre : e.pre = c)
    (hinput : e.input = .poll draws input) (hpicks : c.picksCall e.input = c.picks input)
    (hsound : r.1.Sound) (hm : Move c draws input r) : Follows (past ++ [e]) r := by
  have hlast : lastPick (past ++ [e]) = (c.picks input).or (lastPick past) := by
    rw [lastPick_concat, hpre, hpicks]
  have hcleared := cleared_move h.fits hm
  rw [← hlast] at hcleared
  cases hm.course with
  | quiet _ hplans hrequests hretains hstays =>
    replace hlast : lastPick (past ++ [e]) = lastPick past := by rw [hlast, picks, hplans]; rfl
    refine ⟨by simp [hrequests], hsound, hcleared.inv, fun hst => ?_, fun pick hpick => ?_,
      h.parked.keeps hretains.parked _⟩
    · obtain ⟨hst', hsession, -⟩ := hstays hst
      obtain ⟨pick, hpick, session, hs, hfreq⟩ := h.tuned hst'
      exact ⟨pick, hlast.trans hpick, session, hsession.trans hs, hfreq⟩
    · exact (h.picked pick (hlast.symm.trans hpick)).mono _
  | exchange event _ hplans hst hd =>
    replace hlast : lastPick (past ++ [e]) = lastPick past := by rw [hlast, picks, hplans]; rfl
    obtain ⟨pick, hpick, hon⟩ := h.tuned hst
    obtain ⟨hfrequency, hstays⟩ := frequency_saeDriven hon hd
    refine ⟨fun action ha => ?_, hsound, hcleared.inv, fun hst' => ?_, fun pick' hpick' => ?_,
      h.parked.keeps (retains_saeDriven hd).parked _⟩
    · obtain ⟨pick', hpick', hpermits⟩ := hcleared.permits action ha
      rw [hlast, hpick] at hpick'
      cases hpick'
      exact ⟨pick, hlast.trans hpick, hpermits, hfrequency action ha⟩
    · exact ⟨pick, hlast.trans hpick, hstays hst'⟩
    · exact (h.picked pick' (hlast.symm.trans hpick')).mono _
  | planned c' bss roaming _ hplans htarget hbegins hp =>
    replace hlast : lastPick (past ++ [e]) = some (c'.pickOf bss) := by rw [hlast, picks, hplans]; rfl
    obtain ⟨⟨ssid, haim, hsurveyed⟩, hparked⟩ :=
      surveyed_planned (e := e) h.parked h.sound hpre hinput hplans hp
    obtain ⟨hfrequency, hstays⟩ := frequency_planned hp
    refine ⟨fun action ha => ?_, hsound, hcleared.inv, fun hst => ?_, fun pick hpick => ?_, hparked⟩
    · obtain ⟨pick, hpick, hpermits⟩ := hcleared.permits action ha
      refine ⟨pick, hpick, hpermits, ?_⟩
      rw [hlast] at hpick
      cases hpick
      exact hfrequency action ha
    · refine ⟨c'.pickOf bss, hlast, ?_⟩
      rcases hstays hst with hon | ⟨hst', hno | hno⟩
      · exact hon
      · rw [(hbegins hst').1] at hno
        cases hno
      · exact absurd hno (hbegins hst').2
    · rw [hlast] at hpick
      cases hpick
      have hssid : (c'.pickOf bss).ssid = ssid := by
        simp only [pickOf, ssidBytes]
        rw [show c'.target.map Target.ssid = some ssid from haim]
        rfl
      rw [hssid]
      exact hsurveyed

theorem Traced.mono {e : Entry S} (h : Traced past c) (hnone : e.pre.picksCall e.input = none)
    {c' : Connection S} (hsound : c'.Sound) (hstate : c'.state = c.state)
    (hsession : c'.session = c.session) (hpending : c'.pending = c.pending) (haim : c'.aim = c.aim) :
    Traced (past ++ [e]) c' := by
  have hlast : lastPick (past ++ [e]) = lastPick past := by rw [lastPick_concat, hnone, Option.none_or]
  refine ⟨hsound, ?_, ?_, ?_, h.parked.keeps (.inr ⟨hpending, haim⟩) _⟩
  · rw [hlast]
    refine h.fits.congr hstate hsession fun target htarget => ?_
    rw [aim, aim, htarget] at haim
    exact Option.map_eq_some_iff.mp haim
  · rw [hlast]
    intro hst
    obtain ⟨pick, hpick, session, hs, hfreq⟩ := h.tuned (hstate ▸ hst)
    exact ⟨pick, hpick, session, hsession.trans hs, hfreq⟩
  · rw [hlast]
    exact fun pick hpick => (h.picked pick hpick).mono _

/-- **One call.** -/
theorem Traced.step (h : Traced past c) (call : Call S) :
    Follows (past ++ [Machine.entry step c call]) (c.step call) := by
  have hsound : (c.step call).1.Sound := h.sound.step call
  cases call with
  | poll draws input =>
    cases hpoll : c.poll draws input with
    | none =>
      have hstep : c.step (.poll draws input) = (c, []) := by rw [Connection.step, hpoll]; rfl
      have hpicks : c.picksCall (.poll draws input) = none := by rw [picksCall, hpoll]; rfl
      rw [hstep]
      exact ⟨by simp, h.mono hpicks h.sound rfl rfl rfl rfl⟩
    | some r =>
      have hstep : c.step (.poll draws input) = r := by rw [Connection.step, hpoll]; rfl
      have hpicks : c.picksCall (.poll draws input) = c.picks input := by rw [picksCall, hpoll]; rfl
      rw [hstep] at hsound ⊢
      exact h.course rfl rfl hpicks hsound (poll_move hpoll)
  | insertProfile profile =>
    refine ⟨by simp [Connection.step], h.mono rfl hsound rfl rfl rfl ?_⟩
    change ((c.insertProfile profile).target).map _ = _
    rw [insertProfile_target, aim, Option.map_map]
    congr 1
    funext t
    dsimp only [Function.comp]
    split_ifs <;> rfl
  | forgetProfile ssid => exact ⟨by simp [Connection.step], h.mono rfl hsound rfl rfl rfl rfl⟩

theorem traced_new (device : Device) (profiles : List Profile) :
    Traced [] (new device profiles : Connection S) :=
  ⟨sound_new device profiles, (fun hst => nomatch hst), (fun hst => nomatch hst),
    (fun _ h => by cases h), (fun _ h => by cases h)⟩

/-- The entry the core finds under the BSSID chosen has the frequency and the security of the entry
chosen. -/
def Agrees (e : Entry S) : Prop :=
  ∀ draws scan ssid best first, e.input = .poll draws (.scanResults scan) →
    e.pre.choiceOf scan = some (ssid, best) →
    (scan.find? fun bss => bss.bssid = best.bssid) = some first →
    first.freqMhz = best.freqMhz ∧ first.security = best.security ∧ first.rsn = best.rsn

/-- Suites the BSS offers; none on an open network. -/
def Offers (bss : Bss) (rsn : Option Negotiated) : Prop :=
  (rsn = none ∧ bss.rsn = none ∧ bss.security = .open) ∨
    ∃ ie n, bss.rsn = some ie ∧ rsn = some n ∧ n.akm ∈ ie.akms ∧ n.pairwise ∈ ie.pairwiseCiphers ∧
      n.group = ie.groupCipher

/-- A request for one BSS of a network: its address, its frequency, suites it offers. -/
def Names (ssid : Bytes) (bss : Bss) : Action → Prop
  | .associate request => request.ssid = ssid ∧ request.bssid = bss.bssid ∧
      request.freqMhz = bss.freqMhz ∧ ∃ rsn, request.Carries rsn ∧ Offers bss rsn
  | .authenticate request => request.ssid = ssid ∧ request.bssid = bss.bssid ∧
      request.freqMhz = bss.freqMhz ∧ request.authType = Nl80211.authtypeSae ∧
      ∃ n, n.akm.isSae = true ∧ Offers bss (some n)
  | _ => True

/-- The request names an entry of one scan of the history: one that advertises the network, and a
strongest of those it competed with there. -/
def NamesStrongest (past : List (Entry S)) (e : Entry S) : Prop :=
  ∀ action ∈ e.output, isRequest action = true →
    ∃ e' ∈ past ++ [e], ∃ draws scan ssid best, e'.input = .poll draws (.scanResults scan) ∧
      e'.pre.Strongest scan ssid best ∧ Names ssid best action

theorem names_of_permits {pick : Pick} {best : Bss} {action : Action} (hpermits : pick.Permits action)
    (hfrequency : frequency action = some pick.bss.freqMhz) (hbssid : pick.bss.bssid = best.bssid)
    (hfreq : pick.bss.freqMhz = best.freqMhz) (hsecurity : pick.bss.security = best.security)
    (hrsn : pick.bss.rsn = best.rsn) : Names pick.ssid best action := by
  have hoffers : ∀ rsn, pick.Clears rsn → Offers best rsn := by
    intro rsn hclears
    have hoffered := hclears.offered
    rw [hrsn, hsecurity] at hoffered
    exact hoffered
  cases action with
  | associate request =>
    obtain ⟨hssid, hrequest, rsn, hcarries, hclears⟩ := hpermits
    exact ⟨hssid, hrequest.trans hbssid, (Option.some.inj hfrequency).trans hfreq, rsn, hcarries,
      hoffers rsn hclears⟩
  | authenticate request =>
    obtain ⟨hssid, hrequest, htype, n, hsae, hclears⟩ := hpermits
    exact ⟨hssid, hrequest.trans hbssid, (Option.some.inj hfrequency).trans hfreq, htype, n, hsae,
      hoffers (some n) hclears⟩
  | _ => trivial

/-- **The entry chosen is the entry asked for**, in every run whose scans do not disagree about a
BSSID chosen: every request names the address, the frequency and the suites of an entry that advertises
the network worked towards and that no entry it competed with was stronger than. -/
theorem chosen_requested (device : Device) (profiles : List Profile) (calls : List (Call S))
    (h : Machine.Along (fun _ e => Agrees e) (Machine.log step (new device profiles) calls)) :
    Machine.Along NamesStrongest (Machine.log step (new device profiles) calls) := by
  have hG : Machine.Along (fun past e => ∀ e' ∈ past ++ [e], Agrees e')
      (Machine.log step (new device profiles) calls) := by
    intro past e rest heq e' he'
    obtain ⟨before, after, hsplit⟩ := List.append_of_mem he'
    refine h before e' (after ++ rest) ?_
    rw [heq, ← List.singleton_append, ← List.append_assoc, hsplit]
    simp
  refine Machine.along_of_inv (traced_new device profiles)
    (fun past c call htraced _ => (htraced.step call).traced) ?_ calls hG
  intro past c call htraced hagrees action hmem hrequest
  obtain ⟨pick, hlast, hpermits, hfrequency⟩ := (htraced.step call).requests action
    (mem_requests.mpr ⟨hmem, hrequest⟩)
  obtain ⟨e', he', draws, scan, best, hinput, hchoice, hfind⟩ :=
    (htraced.step call).traced.picked pick hlast
  obtain ⟨hfreq, hsecurity, hrsn⟩ := hagrees e' he' draws scan pick.ssid best pick.bss hinput hchoice
    hfind
  have hbssid : pick.bss.bssid = best.bssid := by simpa using List.find?_some hfind
  exact ⟨e', he', draws, scan, pick.ssid, best, hinput, choiceOf_strongest hchoice,
    names_of_permits hpermits hfrequency hbssid hfreq hsecurity hrsn⟩

/-- In a scan that lists no BSSID twice, the entry found is the entry chosen. -/
theorem find_bssid_eq {scan : List Bss} {best : Bss} (hdistinct : (scan.map Bss.bssid).Nodup)
    (hmem : best ∈ scan) : (scan.find? fun bss => bss.bssid = best.bssid) = some best := by
  induction scan with
  | nil => cases hmem
  | cons head rest ih =>
    rw [List.map_cons, List.nodup_cons] at hdistinct
    rcases List.mem_cons.mp hmem with rfl | hmem
    · rw [List.find?_cons, decide_eq_true rfl]
    · have hne : head.bssid ≠ best.bssid := fun h =>
        hdistinct.1 (h ▸ List.mem_map_of_mem hmem)
      rw [List.find?_cons, decide_eq_false hne]
      exact ih hdistinct.2 hmem

theorem agrees_of_distinct {e : Entry S} (hdistinct : ∀ draws scan,
    e.input = .poll draws (.scanResults scan) → (scan.map Bss.bssid).Nodup) : Agrees e := by
  intro draws scan ssid best first hin hchoice hfind
  rw [find_bssid_eq (hdistinct draws scan hin) (choiceOf_strongest hchoice).mem] at hfind
  cases hfind
  exact ⟨rfl, rfl, rfl⟩

/-! ### A join and a move -/

/-- The other access point of the sample network. -/
def sampleOther : Mac := List.Vector.replicate 6 2

/-- A stronger neighbour, the weaker access point of the network, and the one to join. -/
def sampleCrowd : List Bss :=
  [{ sampleBss with bssid := .replicate 6 1, ssid := [111], signalDbm := -30 },
    { sampleBss with bssid := sampleOther, signalDbm := -80 }, sampleBss]

/-- Some time later the other access point is the nearer one. -/
def sampleMoved : List Bss :=
  [{ sampleBss with bssid := sampleOther, signalDbm := -40 }, { sampleBss with signalDbm := -70 }]

/-- The network is joined among its neighbours, and the station moves on. -/
def sampleMove : List (Call .sample) :=
  [.poll .sample (.command (.connect [110])), .poll .sample (.scanResults sampleCrowd),
    .poll .sample (.wireless (.connected none .success)),
    .poll .sample (.lease (.acquired sampleLease)), .poll .sample (.scanResults sampleMoved)]

/-- The access point an association is asked of. -/
def askedBssid : Action → Option Mac
  | .associate request => some request.bssid
  | _ => none

/-- The strongest entry of the network is asked for, and after the move the other one. -/
theorem chosen_requested_sample :
    (Machine.log step (new sampleDevice [] : Connection .sample) sampleMove).flatMap
        (fun e => e.output.filterMap askedBssid) = [sampleBss.bssid, sampleOther] ∧
      Machine.Along NamesStrongest (Machine.log step (new sampleDevice []) sampleMove) := by
  refine ⟨by decide +kernel, chosen_requested sampleDevice [] sampleMove ?_⟩
  rw [Machine.along_log_iff]
  intro before call after heq
  refine agrees_of_distinct fun draws scan hin => ?_
  obtain rfl : call = _ := hin
  have hmem : Call.poll draws (.scanResults scan) ∈ sampleMove := by
    rw [heq]
    exact List.mem_append_right _ List.mem_cons_self
  simp only [sampleMove, List.mem_cons, Call.poll.injEq, reduceCtorEq, and_false,
    Input.scanResults.injEq, List.not_mem_nil, or_false, false_or] at hmem
  rcases hmem with ⟨-, rfl⟩ | ⟨-, rfl⟩
  · decide +kernel
  · decide +kernel

/-! ### Two networks on one BSSID -/

/-- An open network, and a secured one on the same BSSID. -/
def sampleSharedScan : List Bss := [{ sampleBss with ssid := [111] }, samplePskBss]

/-- The secured one is asked for. -/
def sampleShared : List (Call .sample) :=
  [.poll .sample (.command (.connect [110])), .poll .sample (.scanResults sampleSharedScan)]

/-- The association asked for then: it names no suite. -/
def sampleSharedRequest : AssocRequest :=
  assocRequest 3 [110] (newSession (S := .sample)
    { bssid := .zero 6, freqMhz := 2412, signalDbm := -50, advertised := .open, negotiated := .open
      rsn := none, roaming := false } .open)

/-- The secured network is joined in the clear. -/
theorem shared_bssid : ¬ Machine.Along NamesStrongest
    (Machine.log step (new sampleDevice [] : Connection .sample) sampleShared) := by
  intro h
  rw [Machine.along_log_iff] at h
  have hmem : .associate sampleSharedRequest ∈
      (step (Machine.exec step (new sampleDevice []) (sampleShared.take 1))
        (.poll .sample (.scanResults sampleSharedScan))).2 := by decide +kernel
  obtain ⟨e', he', draws, scan, ssid, best, hinput, hstrongest, hnames⟩ :=
    h [_] _ [] rfl (.associate sampleSharedRequest) hmem rfl
  have hscan : scan = sampleSharedScan := by
    rcases List.mem_append.mp he' with he' | he'
    · rw [List.mem_singleton.mp he'] at hinput
      cases hinput
    · rw [List.mem_singleton.mp he'] at hinput
      cases hinput
      rfl
  obtain ⟨hssid, -, -, rsn, hcarries, hoffers⟩ := hnames
  have hbest : best = samplePskBss := by
    have hmem := hstrongest.mem
    have heq : best.ssid = [110] := hstrongest.ssid.trans hssid.symm
    rw [hscan, sampleSharedScan, List.mem_pair] at hmem
    rcases hmem with rfl | rfl
    · cases heq
    · rfl
  rcases hoffers with ⟨rfl, hnone, -⟩ | ⟨ie, n, -, rfl, -⟩
  · rw [hbest] at hnone
    cases hnone
  · cases hcarries.1

end Connection

end Caw
