import Caw.Core.Invariant

/-!
# The target of a connection

Few inputs touch the network a connection works towards, and one alone the profiles it has.

* `saves`: the profiles among some actions;
* `Connection.Kept`: a handler that gives the target up or keeps it, and saves nothing;
* `Connection.Aimed`, **`aimed_poll`**: what a poll makes of the target;
* **`profiles_poll`**: the profiles a connection has are those it had, and the one a lease makes it save;
* **`ssid_poll`**: an attempt keeps its network until it comes to rest.
-/

set_option autoImplicit false

namespace Caw

open Caw.Core

variable {S : Platform}

namespace Connection

/-! ## What is saved -/

/-- The profile an action saves. -/
def savedBy : Action → Option Profile
  | .saveProfile profile => some profile
  | _ => none

/-- The profiles among some actions. -/
def saves (actions : List Action) : List Profile := actions.filterMap savedBy

section Saves

variable (c : Connection S)

@[simp] theorem saves_nil : saves [] = [] := rfl

@[simp] theorem saves_append (actions rest : List Action) :
    saves (actions ++ rest) = saves actions ++ saves rest :=
  List.filterMap_append

@[simp] theorem saves_cons (action : Action) (rest : List Action) :
    saves (action :: rest) = (savedBy action).toList ++ saves rest := by
  cases action <;> rfl

theorem mem_saves {profile : Profile} {actions : List Action} :
    profile ∈ saves actions ↔ .saveProfile profile ∈ actions := by
  rw [saves, List.mem_filterMap]
  constructor
  · rintro ⟨action, hmem, hsaved⟩
    cases action <;> cases hsaved
    exact hmem
  · exact fun hmem => ⟨_, hmem, rfl⟩

@[simp] theorem saves_disarm : saves c.disarm.2 = [] := by
  unfold disarm
  cases c.armed <;> rfl

@[simp] theorem saves_leaving (state : State) : saves (c.leaving state) = [] := by
  unfold leaving
  split_ifs <;> simp

@[simp] theorem saves_fail (failure : Failure) : saves (c.fail failure).2 = [] := by
  unfold fail backOff giveUp
  rw [andThen_snd, saves_append]
  dsimp only
  split_ifs <;> simp [savedBy]

end Saves

variable {c c' : Connection S} {draws : Draws S} {r : Connection S × List Action}

/-! ## Handlers -/

/-- Nothing is saved. -/
structure Unsaved (c : Connection S) (r : Connection S × List Action) : Prop where
  profiles : r.1.profiles = c.profiles
  saves : saves r.2 = []

/-- The target is kept, or given up on the way to rest, and nothing is saved. -/
structure Kept (c : Connection S) (r : Connection S × List Action) : Prop extends Unsaved c r where
  target : (r.1.target = none ∧ r.1.state = .idle) ∨ r.1.target = c.target

theorem Unsaved.of (h : c'.Unsaved r) (hprofiles : c'.profiles = c.profiles) : c.Unsaved r :=
  ⟨h.profiles.trans hprofiles, h.saves⟩

theorem Kept.of (h : c'.Kept r) (htarget : c'.target = c.target) (hprofiles : c'.profiles = c.profiles) :
    c.Kept r :=
  ⟨h.toUnsaved.of hprofiles, htarget ▸ h.target⟩

theorem Kept.target_of_some (h : c.Kept r) {target : Target} (htarget : r.1.target = some target) :
    c.target = some target := by
  rcases h.target with ⟨hnone, -⟩ | hsame
  · exact nomatch hnone.symm.trans htarget
  · exact hsame.symm.trans htarget

theorem Kept.append (h : c.Kept r) {actions : List Action} (hactions : Connection.saves actions = []) :
    c.Kept (r.1, actions ++ r.2) :=
  ⟨⟨h.profiles, by simp [hactions, h.saves]⟩, h.target⟩

theorem kept_quiet {actions : List Action} (h : saves actions = []) : c.Kept (c, actions) :=
  ⟨⟨rfl, h⟩, .inr rfl⟩

theorem kept_fail (failure : Failure) : c.Kept (c.fail failure) := by
  refine ⟨⟨?_, saves_fail c failure⟩, ?_⟩
  · rw [fail_fst]
    split_ifs <;> rfl
  · rw [fail_fst]
    split_ifs
    · exact .inr rfl
    · exact .inl ⟨rfl, rfl⟩

theorem kept_enter (state : State) : c.Kept (c.enter state) :=
  ⟨⟨by simp, by simp [savedBy]⟩, .inr (by simp)⟩

theorem kept_startScan : c.Kept c.startScan :=
  ⟨⟨by simp, by simp [startScan, savedBy]⟩, .inr (by simp)⟩

theorem kept_associateWith (target : Target) (session : Session S) :
    c.Kept (c.associateWith target session) :=
  ⟨⟨by simp, by simp [associateWith_snd, savedBy]⟩, .inr (by simp)⟩

theorem kept_configured : c.Kept c.configured := by
  refine ⟨⟨configured_profiles c, ?_⟩, .inr (configured_target c)⟩
  unfold configured
  split_ifs <;> simp [savedBy]

theorem kept_saeDriven {event : SaeEvent} (hd : SaeDriven c event r) : c.Kept r := by
  cases hd with
  | off => exact kept_quiet rfl
  | call target session provider q r htarget hsession hauth hq hm =>
    obtain ⟨p', x⟩ := q
    cases hm with
    | wait => exact ⟨⟨rfl, rfl⟩, .inr rfl⟩
    | send => exact ⟨⟨rfl, rfl⟩, .inr rfl⟩
    | noBody => exact (kept_fail _).of rfl rfl
    | fail => exact (kept_fail _).of rfl rfl
    | done => exact (kept_associateWith _ _).of rfl rfl

theorem kept_keyStart {pmk : Pmk} (hk : KeyStart c draws pmk r) : c.Kept r := by
  cases hk with
  | noNonce => exact kept_fail _
  | start => exact (kept_enter _).of rfl rfl

theorem kept_dot1xDriven {frame : Option Bytes} (hd : Dot1xDriven c draws frame r) : c.Kept r := by
  cases hd with
  | off => exact kept_quiet rfl
  | call target session provider q r htarget hsession hauth hq hm =>
    obtain ⟨p', x⟩ := q
    cases hm with
    | send => exact ⟨⟨rfl, rfl⟩, .inr rfl⟩
    | wait => exact ⟨⟨rfl, rfl⟩, .inr rfl⟩
    | fail => exact (kept_fail _).of rfl rfl
    | done pmk r hk => exact (kept_keyStart hk).of rfl rfl

theorem saves_handshakeActions {actions : List FourWay.Action}
    (h : c.handshakeActions actions = some r) : saves r.2 = [] := by
  refine List.filterMap_eq_nil_iff.mpr fun action hmem => ?_
  have hkeying := keying_handshakeActions h action hmem
  cases action <;> first | rfl | exact hkeying.elim

theorem kept_handshakeMove {input : FourWay.Input} (hm : HandshakeMove c input r) : c.Kept r := by
  cases hm with
  | off => exact kept_quiet rfl
  | fail => exact (kept_fail _).of rfl rfl
  | actions session handshake actions q hsession hhandshake hpoll hactions =>
    obtain ⟨armed, hfst⟩ := handshakeActions_fst hactions
    refine Kept.append ?_ (saves_handshakeActions hactions)
    rw [hfst]
    split_ifs
    · exact kept_configured.of rfl rfl
    · exact (kept_quiet rfl).of rfl rfl

theorem kept_planned {bss : Bss} {roaming : Bool} (hp : Planned c draws bss roaming r) : c.Kept r := by
  cases hp with
  | refused => exact kept_fail _
  | enterprise => exact kept_fail _
  | unstaged => exact kept_fail _
  | stay => exact kept_quiet rfl
  | prompt => exact ⟨⟨rfl, by simp [Connection.prompt, savedBy]⟩, .inr rfl⟩
  | sae credential choice provider q hchosen hstage hroaming hd =>
    have hdriven : c.Kept q := (kept_saeDriven hd).of (by simp) (by simp)
    have hnotify : c.Kept (q.1, [.notify .authenticating] ++ q.2) := hdriven.append rfl
    exact hnotify.append (saves_leaving _ _)
  | associate => exact (kept_associateWith _ _).of rfl rfl

/-! ## Polls -/

/-- Saving puts one profile among those there are, for the target, and is not asked for again. -/
theorem saveProfile_saves (c : Connection S) : c.Kept c.saveProfile ∨ ∃ target target' profile,
    c.target = some target ∧ c.saveProfile.1.target = some target' ∧ target'.ssid = target.ssid ∧
      target'.secret = target.secret ∧ target'.save = false ∧ profile.ssid = target.ssid ∧
      saves c.saveProfile.2 = [profile] ∧
      c.saveProfile.1.profiles = (c.profiles.filter fun p => p.ssid ≠ profile.ssid) ++ [profile] := by
  unfold saveProfile
  split
  · rename_i target session htarget hsession
    split_ifs
    · exact .inl (kept_quiet rfl)
    · split
      · exact .inl (kept_quiet rfl)
      · rename_i credential hcredential
        let profile := { Profile.new target.ssid session.choice.advertised credential with
          autoconnect := true }
        refine .inr ⟨target, _, profile, htarget, rfl, ?_, ?_, ?_, rfl, rfl, rfl⟩
        · dsimp only
          split_ifs <;> rfl
        · dsimp only
          split_ifs <;> rfl
        · dsimp only
          split_ifs <;> rfl
  · exact .inl (kept_quiet rfl)

end Connection

namespace Core

/-- The passphrase an input passes on. -/
def Input.sent : Input → Option String
  | .command (.secret value) => some value
  | _ => none

end Core

namespace Connection

variable {c c' : Connection S} {draws : Draws S} {r : Connection S × List Action}

/-- What a poll makes of the target. -/
inductive Aimed (c : Connection S) (input : Input) (r : Connection S × List Action) : Prop
  | kept : input.sent = none → c.Kept r → Aimed c input r
  | lost : r.1.target = none → c.Unsaved r →
      (c.target = none ∨ c.state = .idle ∨ r.1.state = .idle) → Aimed c input r
  | fresh (target) : r.1.target = some target → r.1.session = none → target.secret = none →
      (target.save = true → r.1.profile = none) → c.Unsaved r →
      input = .command (.connect target.ssid) → Aimed c input r
  | typed (target value) : c.target = some target → input.sent = some value →
      r.1.target = some { target with secret := some value } → c.Unsaved r → Aimed c input r
  | found (target) : r.1.target = some target → target.save = false → target.secret = none →
      c.Unsaved r → c.target = none → Aimed c input r
  | saved (lease target target' profile) : input = .lease (.acquired lease) →
      c.target = some target → r.1.target = some target' → target'.secret = target.secret →
      target'.save = false → profile.ssid = target.ssid → saves r.2 = [profile] →
      r.1.profiles = (c.profiles.filter fun p => p.ssid ≠ profile.ssid) ++ [profile] →
      target'.ssid = target.ssid → Aimed c input r

theorem aimed_onLease (event : LeaseEvent) : c.Aimed (.lease event) (c.onLease event) := by
  cases event with
  | failed => exact .kept rfl (kept_fail _)
  | lost reason =>
    unfold onLease
    split_ifs
    · exact .kept rfl ⟨⟨by simp, by simp [savedBy]⟩, .inr (by simp)⟩
    · exact .kept rfl (kept_quiet rfl)
  | acquired lease =>
    let entered : Connection S := { (c.enter .connected).1 with attempts := 0 }
    have hactions : saves ([.applyLease lease] ++ (c.enter .connected).2) = [] := by simp [savedBy]
    have hentered : c.onLease (.acquired lease) = (entered.saveProfile.1,
        ([.applyLease lease] ++ (c.enter .connected).2) ++ entered.saveProfile.2) := rfl
    rw [hentered]
    rcases entered.saveProfile_saves with hkept |
      ⟨target, target', profile, htarget, hpost, hsame, hsecret, hsave, hssid, hsaves, hprofiles⟩
    · have hkept' : c.Kept entered.saveProfile := hkept.of (by simp [entered]) (by simp [entered])
      exact .kept rfl (hkept'.append hactions)
    · refine .saved lease target target' profile rfl ?_ hpost hsecret hsave hssid ?_ ?_ hsame
      · simpa [entered] using htarget
      · rw [saves_append, hactions, hsaves, List.nil_append]
      · simpa [entered] using hprofiles

theorem aimed_connect (ssid : Bytes) {actions : List Action} (hactions : saves actions = []) :
    c.Aimed (.command (.connect ssid))
      (andThen (c, actions) fun c => (c.restart (some (c.aimedAt ssid))).startScan) := by
  refine .fresh (c.aimedAt ssid) (by simp) (by simp) rfl (fun hsave => ?_) ⟨by simp, ?_⟩ rfl
  · simpa [aimedAt, profile] using hsave
  · simp [hactions, startScan, savedBy]

/-- The target of a scan is the one there was, or one there is a profile for. -/
theorem aimed_selected {scan : List Bss} {target : Target} {bssid : Mac} {bss : Bss}
    (hselection : c.selection scan = some (target, bssid))
    (hplanned : Planned (c.withTarget target) draws bss false r) : c.Aimed (.scanResults scan) r := by
  have hkept := kept_planned hplanned
  have hunsaved : c.Unsaved r := hkept.toUnsaved.of rfl
  rcases hkept.target with ⟨hnone, hidle⟩ | hsame
  · exact .lost hnone hunsaved (.inr (.inr hidle))
  unfold selection at hselection
  cases htarget : c.target with
  | some t =>
    rw [htarget] at hselection
    obtain ⟨best, -, heq⟩ := Option.map_eq_some_iff.mp hselection
    cases heq
    exact .kept rfl ⟨hunsaved, .inr (hsame.trans htarget.symm)⟩
  | none =>
    rw [htarget] at hselection
    obtain ⟨best, -, heq⟩ := Option.map_eq_some_iff.mp hselection
    cases heq
    exact .found _ hsame rfl rfl hunsaved htarget

theorem aimed_move {input : Input} (hsent : input.sent = none) (hm : Move c draws input r) :
    c.Aimed input r := by
  cases hm with
  | ignore => exact .kept hsent (kept_quiet rfl)
  | connect ssid => exact aimed_connect ssid (by split_ifs <;> rfl)
  | autoconnect hidle => exact .lost (by simp) (kept_startScan.toUnsaved.of rfl) (.inr (.inl hidle))
  | secret => cases hsent
  | answer => cases hsent
  | disconnect => exact .lost rfl ⟨rfl, by simp [goIdle, savedBy]⟩ (.inr (.inr rfl))
  | noNetwork => exact .kept rfl (kept_fail _)
  | selected scan target bssid bss r hst hselection hfind hplanned =>
    exact aimed_selected hselection hplanned
  | surveyed => exact .kept rfl ⟨⟨rfl, rfl⟩, .inr rfl⟩
  | roam scan session target better bss r hst hsession htarget hroam hfind hplanned =>
    exact .kept rfl (kept_planned hplanned)
  | eapolKey frame eapol r hl hparse htype hm => exact .kept rfl (kept_handshakeMove hm)
  | eapolEap frame eapol r hl hparse htype hd => exact .kept rfl (kept_dot1xDriven hd)
  | lease event => exact aimed_onLease event
  | fetch => exact .kept rfl (kept_quiet rfl)
  | linkFailed => exact .kept hsent (kept_fail _)
  | joinedOpen => exact .kept rfl (kept_configured.of rfl rfl)
  | joinedReady bssid session pmk r hst hsession hauth hk =>
    exact .kept rfl ((kept_keyStart hk).of rfl rfl)
  | joinedDot1x bssid session provider r hst hsession hauth hd =>
    have hdriven : c.Kept r := (kept_dot1xDriven hd).of (by simp) (by simp)
    have hnotify : c.Kept (r.1, [.notify .handshaking] ++ r.2) := hdriven.append rfl
    exact .kept rfl (hnotify.append (saves_leaving _ _))
  | joinedUnstaged => exact .kept rfl (kept_fail _)
  | saeFrame frame body r hst hbody hd => exact .kept rfl (kept_saeDriven hd)
  | saeTimeout r hst hd => exact .kept rfl (kept_saeDriven hd)
  | handshakeRetry r hl hm => exact .kept rfl (kept_handshakeMove hm)
  | timedOut => exact .kept rfl (kept_fail _)
  | rescan => exact .kept rfl kept_startScan

/-- **What a poll makes of the target.** -/
theorem aimed_poll {input : Input} (hpoll : c.poll draws input = some r) : c.Aimed input r := by
  cases hsent : input.sent with
  | none => exact aimed_move hsent (poll_move hpoll)
  | some value =>
    obtain rfl : input = .command (.secret value) := by
      unfold Input.sent at hsent
      split at hsent
      · cases hsent
        rfl
      · cases hsent
    simp only [poll, onCommand] at hpoll
    split at hpoll
    · rename_i htarget
      cases hpoll
      exact .lost htarget ⟨rfl, rfl⟩ (.inl htarget)
    · rename_i target htarget
      split at hpoll
      · cases hpoll
        exact .typed target value htarget rfl rfl ⟨rfl, rfl⟩
      · have hkept := kept_planned (plan_planned hpoll)
        rcases hkept.target with ⟨hnone, hidle⟩ | hsame
        · exact .lost hnone (hkept.toUnsaved.of rfl) (.inr (.inr hidle))
        · exact .typed target value htarget rfl hsame (hkept.toUnsaved.of rfl)

/-- **The profiles after a poll** are those before it, and the one a lease makes it save. -/
theorem profiles_poll {input : Input} (hpoll : c.poll draws input = some r) :
    c.Unsaved r ∨ ∃ lease profile, input = .lease (.acquired lease) ∧ saves r.2 = [profile] ∧
      r.1.profiles = (c.profiles.filter fun p => p.ssid ≠ profile.ssid) ++ [profile] := by
  cases aimed_poll hpoll with
  | kept _ hkept => exact .inl hkept.toUnsaved
  | lost _ hu _ => exact .inl hu
  | fresh _ _ _ _ _ hu _ => exact .inl hu
  | typed _ _ _ _ _ hu => exact .inl hu
  | found _ _ _ _ hu _ => exact .inl hu
  | saved lease _ _ profile hinput _ _ _ _ _ hsaves hprofiles _ =>
    exact .inr ⟨lease, profile, hinput, hsaves, hprofiles⟩

/-- **An attempt keeps its network** until it comes to rest, unless another is asked for. -/
theorem ssid_poll {input : Input} (hpoll : c.poll draws input = some r)
    (hconnect : ∀ ssid, input ≠ .command (.connect ssid)) (hstate : c.state ≠ .idle) {target : Target}
    (htarget : c.target = some target) :
    r.1.state = .idle ∨ ∃ target', r.1.target = some target' ∧ target'.ssid = target.ssid := by
  cases aimed_poll hpoll with
  | kept _ hkept =>
    rcases hkept.target with ⟨-, hidle⟩ | hsame
    · exact .inl hidle
    · exact .inr ⟨target, hsame.trans htarget, rfl⟩
  | lost _ _ hwhy =>
    rcases hwhy with hnone | hidle | hidle
    · cases hnone.symm.trans htarget
    · exact absurd hidle hstate
    · exact .inl hidle
  | fresh target' _ _ _ _ _ hinput => exact absurd hinput (hconnect _)
  | typed target' value htarget' _ hpost =>
    cases htarget.symm.trans htarget'
    exact .inr ⟨_, hpost, rfl⟩
  | found _ _ _ _ _ hnone => cases hnone.symm.trans htarget
  | saved _ _ target' _ _ htarget' hpost _ _ _ _ _ hssid =>
    cases htarget.symm.trans htarget'
    exact .inr ⟨target', hpost, hssid⟩

end Connection

end Caw
