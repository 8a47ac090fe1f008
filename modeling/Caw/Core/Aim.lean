import Caw.Core.Selection
import Caw.Core.Target

/-!
# The networks a connection names

A connection joins and saves networks by name. It finds the names in three places: the network it works
towards, its profiles, and the command to connect.

* `named`: the network an action joins or saves;
* `Connection.Knows`: a name the connection has, as the network worked towards or from a profile;
* **`aim_move`**, **`named_poll`**: a poll works towards what is known or asked for, and names what is
  known;
* **`not_knows_poll`**: a network that is not known stays so until it is asked for.
-/

set_option autoImplicit false

namespace Caw

open Caw.Core

variable {S : Platform}

namespace Connection

/-- The network an action joins or saves. -/
def named : Action → Option Bytes
  | .associate request => some request.ssid
  | .authenticate request => some request.ssid
  | .saveProfile profile => some profile.ssid
  | _ => none

variable {c c' : Connection S} {draws : Draws S} {input : Input} {r : Connection S × List Action}
  {action : Action} {x : Bytes}

/-! ## What is worked towards -/

/-- A name the connection knows: it works towards the network, or has a profile for it. -/
def Knows (c : Connection S) (ssid : Bytes) : Prop :=
  c.aim = some ssid ∨ ∃ p ∈ c.profiles, p.ssid = ssid

theorem Kept.aim (h : c.Kept r) {ssid : Bytes} (haim : r.1.aim = some ssid) : c.aim = some ssid := by
  rcases h.target with ⟨hnone, -⟩ | hsame
  · rw [Connection.aim, hnone] at haim
    cases haim
  · rwa [Connection.aim, hsame] at haim

theorem aim_onLease (event : LeaseEvent) {ssid : Bytes} (haim : (c.onLease event).1.aim = some ssid) :
    c.aim = some ssid := by
  cases event with
  | acquired lease =>
    let entered : Connection S := { (c.enter .connected).1 with attempts := 0 }
    have hentered : entered.aim = c.aim := by simp [entered, aim]
    have haim' : entered.saveProfile.1.aim = some ssid := haim
    rw [← hentered]
    rcases entered.saveProfile_saves with hkept | ⟨target, target', -, htarget, hpost, hsame, -⟩
    · exact hkept.aim haim'
    · rw [aim, hpost, Option.map_some, hsame] at haim'
      rw [aim, htarget]
      exact haim'
  | lost reason =>
    unfold onLease at haim
    split_ifs at haim
    · simpa [aim] using haim
    · exact haim
  | failed => exact (kept_fail _).aim haim

theorem knows_selection {scan : List Bss} {target : Target} {bssid : Mac}
    (h : c.selection scan = some (target, bssid)) : c.Knows target.ssid := by
  unfold selection at h
  cases htarget : c.target with
  | some t =>
    rw [htarget] at h
    obtain ⟨best, -, heq⟩ := Option.map_eq_some_iff.mp h
    cases heq
    exact .inl (by rw [aim, htarget]; rfl)
  | none =>
    rw [htarget] at h
    obtain ⟨⟨best, p⟩, hbest, heq⟩ := Option.map_eq_some_iff.mp h
    cases heq
    exact .inr ⟨p, (Policy.bestKnown_mem hbest).2.1, rfl⟩

/-- **What a poll works towards** was known before, or has just been asked for. -/
theorem aim_move (hm : Move c draws input r) {ssid : Bytes} (haim : r.1.aim = some ssid) :
    c.Knows ssid ∨ input = .command (.connect ssid) := by
  have hkept (h : c.Kept r) : c.Knows ssid ∨ input = .command (.connect ssid) := .inl (.inl (h.aim haim))
  cases hm with
  | connect asked =>
    simp only [aim, andThen_fst, startScan_fst] at haim
    cases haim
    exact .inr rfl
  | autoconnect =>
    rw [aim, startScan_fst] at haim
    cases haim
  | disconnect => cases haim
  | secret value target htarget =>
    refine .inl (.inl ?_)
    rw [aim, htarget]
    exact haim
  | answer value target bss r htarget hpending hplanned =>
    refine .inl (.inl ?_)
    rw [aim, htarget]
    exact (kept_planned hplanned).aim haim
  | selected scan target bssid bss r hst hselection hfind hplanned =>
    cases (kept_planned hplanned).aim haim
    exact .inl (knows_selection hselection)
  | ignore => exact hkept (kept_quiet rfl)
  | surveyed => exact hkept ⟨⟨rfl, rfl⟩, .inr rfl⟩
  | fetch => exact hkept (kept_quiet rfl)
  | noNetwork => exact hkept (kept_fail _)
  | linkFailed => exact hkept (kept_fail _)
  | joinedUnstaged => exact hkept (kept_fail _)
  | timedOut => exact hkept (kept_fail _)
  | roam scan session target better bss r hst hsession htarget hroam hfind hplanned =>
    exact hkept (kept_planned hplanned)
  | eapolKey frame eapol r hl hparse htype hm => exact hkept (kept_handshakeMove hm)
  | eapolEap frame eapol r hl hparse htype hd => exact hkept (kept_dot1xDriven hd)
  | lease event => exact .inl (.inl (aim_onLease event haim))
  | joinedOpen => exact hkept (kept_configured.of rfl rfl)
  | joinedReady bssid session pmk r hst hsession hauth hk => exact hkept ((kept_keyStart hk).of rfl rfl)
  | joinedDot1x bssid session provider r hst hsession hauth hd =>
    refine .inl (.inl ?_)
    have hd' := (kept_dot1xDriven hd).aim haim
    simpa [aim] using hd'
  | saeFrame frame body r hst hbody hd => exact hkept (kept_saeDriven hd)
  | saeTimeout r hst hd => exact hkept (kept_saeDriven hd)
  | handshakeRetry r hl hm => exact hkept (kept_handshakeMove hm)
  | rescan => exact hkept kept_startScan

/-! ## What is named -/

theorem knows_plans {c' : Connection S} {bss : Bss} {roaming : Bool}
    (h : c.plans input = some (c', bss, roaming)) {ssid : Bytes} (haim : c'.aim = some ssid) :
    c.Knows ssid := by
  cases input with
  | scanResults scan =>
    simp only [plans] at h
    split at h
    · obtain ⟨⟨target, bssid⟩, hselection, h⟩ := Option.bind_eq_some_iff.mp h
      obtain ⟨found, -, heq⟩ := Option.map_eq_some_iff.mp h
      cases heq
      cases haim
      exact knows_selection hselection
    · split at h
      · obtain ⟨best, -, h⟩ := Option.bind_eq_some_iff.mp h
        obtain ⟨found, -, heq⟩ := Option.map_eq_some_iff.mp h
        cases heq
        exact .inl haim
      · cases h
    · cases h
  | command command =>
    cases command with
    | secret value =>
      simp only [plans] at h
      split at h
      · rename_i target bss' htarget hpending
        cases h
        refine .inl ?_
        rw [aim, htarget]
        exact haim
      · cases h
    | _ => cases h
  | _ => cases h

theorem named_associateWith {target : Target} {session : Session S} {ssid : Bytes}
    (hmem : action ∈ requests (c.associateWith target session).2) (hnamed : named action = some ssid) :
    target.ssid = ssid := by
  rw [requests_associateWith, List.mem_singleton] at hmem
  subst hmem
  exact (assocRequest_ssid ..).symm.trans (Option.some.inj hnamed)

theorem named_saeDriven {event : SaeEvent} (hd : SaeDriven c event r) {ssid : Bytes}
    (hmem : action ∈ requests r.2) (hnamed : named action = some ssid) : c.aim = some ssid := by
  cases hd with
  | off => cases hmem
  | call target session provider q r htarget hsession hauth hq hm =>
    rw [aim, htarget, Option.map_some, Option.some.injEq]
    obtain ⟨p', x⟩ := q
    cases hm with
    | wait => cases hmem
    | send frame request hreq =>
      simp only [authRequest, withSession_session, withSession_target, htarget] at hreq
      split_ifs at hreq
      cases hreq
      simp only [andThen_snd, arm_snd, List.cons_append, List.nil_append, requests_cons, isRequest,
        if_true, Bool.false_eq_true, if_false, requests_nil, List.mem_singleton] at hmem
      subst hmem
      exact Option.some.inj hnamed
    | noBody => simp at hmem
    | fail => simp at hmem
    | done target' session' pmk htarget' hsession' =>
      rw [withSession_target, htarget] at htarget'
      cases htarget'
      exact named_associateWith hmem hnamed

theorem named_planned {bss : Bss} {roaming : Bool} (hp : Planned c draws bss roaming r) {ssid : Bytes}
    (hmem : action ∈ requests r.2) (hnamed : named action = some ssid) : c.aim = some ssid := by
  cases hp with
  | refused => simp at hmem
  | enterprise => simp at hmem
  | unstaged => simp at hmem
  | stay => cases hmem
  | prompt => simp [requests, Connection.prompt] at hmem
  | sae credential choice provider q hchosen hstage hroaming hd =>
    have haim := named_saeDriven hd (by simpa using hmem) hnamed
    simpa [aim] using haim
  | associate credential choice auth target hchosen hstage hpre htarget =>
    rw [aim, htarget, Option.map_some, named_associateWith hmem hnamed]

/-- **Whatever a poll names is known.** -/
theorem named_poll (hpoll : c.poll draws input = some r) {ssid : Bytes} (hmem : action ∈ r.2)
    (hnamed : named action = some ssid) : c.Knows ssid := by
  by_cases hrequest : isRequest action = true
  · have hmem' := mem_requests.mpr ⟨hmem, hrequest⟩
    cases (poll_move hpoll).course with
    | quiet _ _ hnone =>
      rw [hnone] at hmem'
      cases hmem'
    | planned c' bss roaming _ hplans _ _ hplanned =>
      exact knows_plans hplans (named_planned hplanned hmem' hnamed)
    | exchange event _ _ _ hd => exact .inl (named_saeDriven hd hmem' hnamed)
  · obtain ⟨profile, rfl⟩ : ∃ profile, action = .saveProfile profile := by
      cases action with
      | saveProfile profile => exact ⟨profile, rfl⟩
      | associate => exact absurd rfl hrequest
      | authenticate => exact absurd rfl hrequest
      | _ => cases hnamed
    have hsaves : profile ∈ saves r.2 := mem_saves.mpr hmem
    cases Option.some.inj hnamed
    cases aimed_poll hpoll with
    | saved lease target target' saved _ htarget _ _ _ hssid heq =>
      rw [heq, List.mem_singleton] at hsaves
      rw [hsaves, hssid]
      exact .inl (by rw [aim, htarget]; rfl)
    | kept _ hkept => simp [hkept.saves] at hsaves
    | lost _ hu => simp [hu.saves] at hsaves
    | fresh _ _ _ _ _ hu => simp [hu.saves] at hsaves
    | typed _ _ _ _ _ hu => simp [hu.saves] at hsaves
    | found _ _ _ _ hu => simp [hu.saves] at hsaves

/-! ## A network that is not known -/

theorem knows_insertProfile {profile : Profile} (h : (c.insertProfile profile).Knows x) :
    c.Knows x ∨ profile.ssid = x := by
  rcases h with haim | ⟨p, hp, hssid⟩
  · rw [aim, insertProfile_target, Option.map_map] at haim
    refine .inl (.inl ?_)
    rw [← haim, aim]
    congr 1
    funext target
    dsimp only [Function.comp]
    split_ifs <;> rfl
  · rcases List.mem_append.mp hp with hp | hp
    · exact .inl (.inr ⟨p, (List.mem_filter.mp hp).1, hssid⟩)
    · rw [List.mem_singleton.mp hp] at hssid
      exact .inr hssid

/-- **A network that is not known stays so**, and no poll names it, until it is asked for. -/
theorem not_knows_poll (h : ¬ c.Knows x) (hinput : input ≠ .command (.connect x))
    (hpoll : c.poll draws input = some r) :
    ¬ r.1.Knows x ∧ ∀ action ∈ r.2, named action ≠ some x := by
  have hnamed : ∀ action ∈ r.2, named action ≠ some x :=
    fun action hmem hx => h (named_poll hpoll hmem hx)
  refine ⟨?_, hnamed⟩
  rintro (haim | ⟨p, hp, hssid⟩)
  · exact (aim_move (poll_move hpoll) haim).elim h hinput
  · rcases profiles_poll hpoll with hu | ⟨lease, profile, -, hsaves, hprofiles⟩
    · rw [hu.profiles] at hp
      exact h (.inr ⟨p, hp, hssid⟩)
    · rw [hprofiles] at hp
      rcases List.mem_append.mp hp with hp | hp
      · exact h (.inr ⟨p, (List.mem_filter.mp hp).1, hssid⟩)
      · rw [List.mem_singleton.mp hp] at hssid
        refine hnamed (.saveProfile profile) (mem_saves.mp ?_) (congrArg some hssid)
        rw [hsaves]
        exact List.mem_singleton.mpr rfl

end Connection

end Caw
