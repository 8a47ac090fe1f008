import Caw.Core.Report
import Caw.Daemon.Lease
import Caw.Daemon.Routes

/-!
# The exchange and the connection it was begun for

An exchange is begun for a connection, and is to end with it.

* `Daemon.Released`: nothing is left of an exchange;
* `Daemon.Bears`: no failure that may pass is reported beside an exchange;
* `Since`, **`turn_since`**, `feed_since`: a core that comes to rest by itself has ended its exchange;
* `feed_leaves`: one that is told to rest has not;
* `Daemon.Steady`: neither is asked of it;
* **`released_run`**: in a run whose steps are steady an idle core has nothing left of an exchange;
* `released_fails`, `released_fails_lost`: a client that leaves the network leaves the exchange behind,
  and so does a link lost while an address is first asked for.
-/

set_option autoImplicit false

namespace Caw

open Caw.Core

namespace Daemon

open Effect
open Machine (exec log Along run_induction)

variable {S : Platform} {E : System S} {d d' : Daemon S E}

/-- Nothing is left of an exchange: neither itself, nor a timer of it, nor a route. -/
structure Released (d : Daemon S E) : Prop where
  exchange : d.dhcp = none
  timers : ∀ e ∈ d.timers.entries, e.1.isDhcp = false
  routes : ∀ ifindex, ¬ Left ifindex d.journal

/-! ## Actions and the exchange -/

/-- No exchange is begun. -/
def Dry (d d' : Daemon S E) : Prop := d.dhcp = none → d'.dhcp = none

instance : IsPreorder (Daemon S E) Dry where
  refl _ := id
  trans _ _ _ h h' := h' ∘ h

theorem Dry.isSome (h : Dry d d') (hsome : d'.dhcp.isSome) : d.dhcp.isSome := by
  by_contra hnone
  rw [h (Option.not_isSome_iff_eq_none.mp hnone)] at hsome
  cases hsome

theorem permits_dry : Permits (Dry : Daemon S E → Daemon S E → Prop) where
  calls _ _ := id
  timers _ _ _ := id
  routes _ _ hrun hnone := absurd (hnone.symm.trans hrun) nofun
  profiles _ _ := id
  eapol _ _ := id

theorem speaks_dry : Speaks (Dry : Daemon S E → Daemon S E → Prop) where
  sends _ _ _ := id
  unwatched _ := id
  prompts _ _ _ := id

theorem dry_stopDhcp : Keeps Dry (stopDhcp : EngineM S E Unit) :=
  fun _ _ _ h _ => (runs_stopDhcp h).1

theorem dry_perform {action : Core.Action} (h : action ≠ .startDhcp) :
    Keeps Dry (perform action : EngineM S E _) := by
  by_cases haddress : Addresses action
  · refine keeps_bind (keeps_modify fun _ => id) fun _ => ?_
    cases action with
    | startDhcp => exact absurd rfl h
    | failed failure =>
      refine keeps_bind (keeps_bind (speaks_dry.tellFailed _) fun _ => ?_) fun _ => keeps_pure _
      split_ifs
      · exact keeps_bind (keeps_modify fun _ => id) fun _ => dry_stopDhcp
      · exact keeps_pure _
    | _ => exact haddress.elim
  · exact permits_dry.perform speaks_dry (fun _ => id) haddress

theorem runs_perform_failed {failure : Failure} {r : Except String (Option Input)}
    (hterminal : failure.isTerminal = true) (h : Runs (perform (.failed failure)) d r d') :
    d'.dhcp = none := by
  rw [perform, runs_modify_bind] at h
  rcases runs_bind.mp h with ⟨_, d₁, hfailed, hpure⟩ | ⟨e, hfailed, -⟩
  · obtain ⟨-, rfl⟩ := runs_pure.mp hpure
    rcases runs_bind.mp hfailed with ⟨_, d₂, -, hrest⟩ | ⟨e, htell, hr⟩
    · rw [if_pos hterminal, runs_modify_bind] at hrest
      exact (runs_stopDhcp hrest).1
    · cases hr
  · rcases runs_bind.mp hfailed with ⟨_, d₂, -, hrest⟩ | ⟨e, htell, -⟩
    · rw [if_pos hterminal, runs_modify_bind] at hrest
      exact (runs_stopDhcp hrest).1
    · exact absurd htell (total_tellFailed _ _ _ _)

/-- Actions that begin no exchange, a final failure among them, leave none. -/
theorem performAll_failed {actions : List Core.Action} {failure : Failure} {next : List Input}
    (hmem : .failed failure ∈ actions) (hterminal : failure.isTerminal = true)
    (hstart : .startDhcp ∉ actions) (h : Runs (performAll actions) d (.ok next) d') :
    d'.dhcp = none := by
  induction actions generalizing d next with
  | nil => cases hmem
  | cons action rest ih =>
    rcases runs_bind.mp h with ⟨first, d₁, hfirst, hrest⟩ | ⟨e, -, hr⟩
    · rcases runs_bind.mp hrest with ⟨others, d₂, hothers, hpure⟩ | ⟨e, -, hr⟩
      · obtain ⟨-, rfl⟩ := runs_pure.mp hpure
        have hrest : .startDhcp ∉ rest := fun hmem => hstart (List.mem_cons_of_mem _ hmem)
        rcases List.mem_cons.mp hmem with rfl | hmem
        · refine keeps_performAll (fun a ha => dry_perform fun heq => hrest (heq ▸ ha)) _ _ _ hothers ?_
          exact runs_perform_failed hterminal hfirst
        · exact ih hmem hrest hothers
      · cases hr
    · cases hr

theorem perform_done {action : Core.Action} (haction : Addresses action)
    {r : Except String (Option Input)} (h : Runs (perform action) d r d') :
    d.journal ++ [.perform action] <+: d'.journal := by
  cases action with
  | startDhcp =>
    rw [perform, runs_modify_bind] at h
    exact conducts_continues.starts _ _ _ h
  | failed failure =>
    rw [perform, runs_modify_bind] at h
    exact keeps_bind (conducts_continues.failed failure) (fun _ => keeps_pure _) _ _ _ h
  | _ => exact haction.elim

theorem performAll_done {actions : List Core.Action} {next : List Input}
    (h : Runs (performAll actions) d (.ok next) d') :
    ∃ more, d'.journal = d.journal ++ more ∧
      ∀ action ∈ actions, Addresses action → .perform action ∈ more := by
  induction actions generalizing d next with
  | nil =>
    obtain ⟨-, rfl⟩ := runs_pure.mp h
    exact ⟨[], (List.append_nil _).symm, fun _ hmem => absurd hmem List.not_mem_nil⟩
  | cons action rest ih =>
    rcases runs_bind.mp h with ⟨first, d₁, hfirst, hrest⟩ | ⟨e, -, hr⟩
    · rcases runs_bind.mp hrest with ⟨others, d₂, hothers, hpure⟩ | ⟨e, -, hr⟩
      · obtain ⟨-, rfl⟩ := runs_pure.mp hpure
        obtain ⟨more', hmore', hdone⟩ := ih hothers
        obtain ⟨more, hmore⟩ := conducts_continues.perform action _ _ _ hfirst
        refine ⟨more ++ more', by rw [hmore', ← hmore, List.append_assoc], fun a ha haddress => ?_⟩
        rcases List.mem_cons.mp ha with rfl | ha
        · obtain ⟨later, hlater⟩ := perform_done haddress hfirst
          rw [← hmore, List.append_assoc, List.append_cancel_left_eq] at hlater
          rw [← hlater]
          simp
        · exact List.mem_append_right _ (hdone a ha haddress)
      · cases hr
    · cases hr

/-! ## A core that comes to rest by itself -/

/-- No failure that may pass is reported where there is an exchange, or one is begun. -/
def Bears (held : Prop) (done : List Done) : Prop :=
  held ∨ .perform .startDhcp ∈ done →
    ∀ failure, .perform (.failed failure) ∈ done → failure.isTerminal = true

theorem Bears.sublist {held : Prop} {done more : List Done} (h : Bears held more)
    (hsub : ∀ x ∈ done, x ∈ more) : Bears held done := fun hheld failure hmem =>
  h (hheld.imp_right (hsub _)) failure (hsub _ hmem)

/-- Since this was done, a core that rests has ended the exchange, unless a failure that may pass
has been reported. -/
structure Since (base : List Done) (held : Prop) (d : Daemon S E) : Prop where
  grounded : ∀ core, d.core = some core → core.Grounded
  since : ∃ more, d.journal = base ++ more ∧ (Bears held more →
    (d.isIdle = true → d.dhcp = none) ∧ (d.dhcp.isSome → held ∨ .perform .startDhcp ∈ more))

section Since

variable {base : List Done} {held : Prop}

theorem Kin.grounded (hkin : Kin d d') (h : ∀ core, d.core = some core → core.Grounded) :
    ∀ core, d'.core = some core → core.Grounded := by
  intro core' hcore'
  cases hcore : d.core with
  | none =>
    have hnone := hkin.standing
    simp [Daemon.standing, hcore, hcore'] at hnone
  | some core =>
    obtain ⟨core'', hcore'', hstate, hsession, -⟩ := hkin.core hcore
    cases hcore'.symm.trans hcore''
    have hroams : core'.roams = core.roams := by rw [Connection.roams, Connection.roams, hsession]
    exact fun hst => hroams.trans (h core hcore (hstate.symm.trans hst))

theorem Since.kin (h : Since base held d) (hkin : Kin d d') (hcontinues : Continues d d')
    (hdry : Dry d d') : Since base held d' := by
  obtain ⟨more, hmore, hsince⟩ := h.since
  obtain ⟨more', hmore'⟩ := hcontinues
  refine ⟨hkin.grounded h.grounded, more ++ more', by rw [← hmore', hmore, List.append_assoc],
    fun hbears => ?_⟩
  obtain ⟨hidle, hheld⟩ := hsince (hbears.sublist fun x hx => List.mem_append_left _ hx)
  refine ⟨fun hst => hdry (hidle (hkin.isIdle.symm.trans hst)), fun hsome => ?_⟩
  exact (hheld (hdry.isSome hsome)).imp_right (List.mem_append_left _)

theorem Since.gone (hbase : base <+: d.journal) (hgrounded : ∀ core, d.core = some core → core.Grounded)
    (hdhcp : d.dhcp = none) : Since base held d := by
  obtain ⟨more, hmore⟩ := hbase
  refine ⟨hgrounded, more, hmore.symm, fun _ => ⟨fun _ => hdhcp, fun hsome => ?_⟩⟩
  rw [hdhcp] at hsome
  cases hsome

theorem Rests.grounded (h : d.Rests) : ∀ core, d.core = some core → core.Grounded := by
  intro core hcore
  simp [Connection.Grounded, (h core hcore).1]

theorem Since.continues (h : Since base held d) : base <+: d.journal := by
  obtain ⟨more, hmore, -⟩ := h.since
  exact ⟨more, hmore.symm⟩

theorem since_abort (reason : String) :
    Keeps (Keeping (Since base held)) (abort reason : EngineM S E Unit) := by
  intro d r d' h hd
  cases hcore : d.core with
  | some core =>
    obtain ⟨hcleared, -⟩ := cleared_abort (by rw [hcore]; rfl) h
    refine .gone ?_ (runs_abort h).grounded hcleared.dhcp
    exact hd.continues.trans (conducts_continues.abort reason _ _ _ h)
  | none =>
    rcases runs_bind.mp h with ⟨_, d₁, htell, hreset⟩ | ⟨e, htell, -⟩
    · have hd₁ := hd.kin (speaks_kin.tellFailed reason _ _ _ htell)
        (conducts_continues.tellFailed reason _ _ _ htell) (speaks_dry.tellFailed reason _ _ _ htell)
      have hnone : d₁.core = none := by
        rw [(runs_tellFailed htell).2, afterFailure]
        cases d.watcher <;> exact hcore
      rw [reset, runs_get_bind, hnone] at hreset
      obtain ⟨-, rfl⟩ := runs_pure.mp hreset
      exact hd₁
    · exact absurd htell (total_tellFailed _ _ _ _)

/-- **A turn** of a core that is not told to rest. -/
theorem turn_since {input : Input} (hd : Since base held d) (hinput : input ≠ .command .disconnect) :
    Turn (Since base held) IsScan d input := by
  intro core q x d' hcore hpoll hperform
  have hmove := Connection.poll_move hpoll
  have hgrounded := hd.grounded core hcore
  have hkin := kin_performAll q.2 _ _ _ hperform
  have hkept : ∀ core', d'.core = some core' → core'.state = q.1.state ∧ core'.roams = q.1.roams := by
    intro core' hcore'
    obtain ⟨core'', hcore'', hstate, hsession, -⟩ := hkin.core rfl
    cases hcore'.symm.trans hcore''
    exact ⟨hstate, by rw [Connection.roams, Connection.roams, hsession]⟩
  have hcontinues : Continues (d.polled q.1 input) d' :=
    keeps_performAll (fun action _ => conducts_continues.perform action) _ _ _ hperform
  cases x with
  | error e =>
    intro r d₂ habort
    have hsome : d'.core.isSome := by
      obtain ⟨core', hcore', -⟩ := hkin.core rfl
      rw [hcore']
      rfl
    refine .gone ?_ (runs_abort habort).grounded (cleared_abort hsome habort).1.dhcp
    have hpolled : Continues d (d.polled q.1 input) := continues_of rfl
    exact hd.continues.trans ((hpolled.trans hcontinues).trans
      (conducts_continues.abort e _ _ _ habort))
  | ok next =>
    refine ⟨⟨fun core' hcore' => ?_, ?_⟩, yields_performAll q.2 _ next d' hperform⟩
    · obtain ⟨hstate, hroams⟩ := hkept core' hcore'
      exact fun hst => hroams.trans (Connection.grounded_move hgrounded hmove (hstate.symm.trans hst))
    · obtain ⟨more, hmore, hsince⟩ := hd.since
      obtain ⟨done, hdone, hall⟩ := performAll_done hperform
      refine ⟨more ++ .poll input :: done, by rw [hdone, hmore]; simp, fun hbears => ?_⟩
      obtain ⟨hidle, hheld⟩ := hsince (hbears.sublist fun x hx => List.mem_append_left _ hx)
      have hdry (hstart : .startDhcp ∉ q.2) : Dry d d' := by
        have hpolled : Dry (d.polled q.1 input) d' :=
          keeps_performAll (fun a ha => dry_perform fun heq => hstart (heq ▸ ha)) _ _ _ hperform
        exact hpolled
      refine ⟨fun hst => ?_, fun hsome => ?_⟩
      · have hq : q.1.state = .idle := by
          rw [hkin.isIdle] at hst
          exact of_decide_eq_true hst
        have hstart : .startDhcp ∉ q.2 := fun hmem => by
          cases hq.symm.trans (Connection.started_move hgrounded hmove hmem)
        rcases (Connection.reports_move hmove).idle hq with hrest | hnotify | ⟨failure, hfailed⟩
        · refine hdry hstart (hidle ?_)
          simp [isIdle, state, hcore, hrest]
        · exact absurd rfl
            (Connection.announces_move hinput hmove .idle (Connection.mem_notices.mpr hnotify)).1
        · by_cases hterminal : failure.isTerminal = true
          · exact performAll_failed hfailed hterminal hstart hperform
          · -- a failure that may pass: there is no exchange, or it is against the rules
            refine hdry hstart (Option.not_isSome_iff_eq_none.mp fun hsome => hterminal ?_)
            refine hbears ((hheld hsome).imp_right (List.mem_append_left _)) failure ?_
            exact List.mem_append_right _ (List.mem_cons_of_mem _ (hall _ hfailed trivial))
      · by_cases hstart : .startDhcp ∈ q.2
        · exact .inr (List.mem_append_right _ (List.mem_cons_of_mem _ (hall _ hstart trivial)))
        · exact (hheld ((hdry hstart).isSome hsome)).imp_right (List.mem_append_left _)

theorem feed_since {input : Input} (hinput : input ≠ .command .disconnect) :
    Keeps (Keeping (Since base held)) (feed input : EngineM S E Unit) := by
  intro d r d' h hd
  refine feed_ensures (fun d input hd hscan => turn_since hd ?_) (turn_since hd hinput)
    (fun _ => hd) h
  rintro rfl
  obtain ⟨scan, hscan⟩ := hscan
  cases hscan

/-! ## Entry points that tell it nothing -/

theorem Calm.dry (h : Calm d d') : Dry d d' := by
  intro hnone
  have hexchange : d'.dhcp.map DhcpRun.machine = d.dhcp.map DhcpRun.machine := h.exchange
  rwa [hnone, Option.map_none, Option.map_eq_none_iff] at hexchange

theorem Since.calm (h : Since base held d) (hcalm : Calm d d') (hcontinues : Continues d d') :
    Since base held d' := h.kin hcalm.toKin hcontinues hcalm.dry

theorem allows_since : Allows (Keeping (Since base held) : Daemon S E → Daemon S E → Prop) where
  calls d op hd := hd.calm (permits_calm.calls d op) (continues_of rfl)
  timers d timers h hd := hd.calm (permits_calm.timers d timers h) (continues_same rfl)
  routes d run hrun hd := hd.calm (permits_calm.routes d run hrun) (continues_same rfl)
  eapol d eapol hd := hd.calm (permits_calm.eapol d eapol) (continues_same rfl)

theorem borne_since : Borne (fun _ => False) (Since base held : Daemon S E → Prop) where
  allows := allows_since
  feed input hinput := feed_since (by rintro rfl; exact hinput)
  abort := since_abort
  rebuilt device := by
    refine keeps_rebuilt allows_since device fun profiles d r d' h hd => ?_
    rw [runs_modify_bind] at h
    have hrests : d'.Rests := by
      refine Rests.kin ?_ (admits_kin.stopDhcp _ _ _ h)
      rintro core ⟨⟩
      exact ⟨rfl, rfl, rfl⟩
    have hcontinues : Continues _ d' := conducts_continues.stops _ _ _ h
    exact ⟨.gone (hd.1.continues.trans hcontinues) hrests.grounded (runs_stopDhcp h).1, hrests.isIdle⟩
  removed d hd hidle := by
    obtain ⟨more, hmore, hsince⟩ := hd.since
    refine ⟨?_, more, hmore, fun hbears => ⟨fun _ => (hsince hbears).1 hidle, (hsince hbears).2⟩⟩
    rintro core ⟨⟩
  retaken client hclient := hclient.elim

theorem since_connect (ifindex : UInt32) (ssid : String) (client : ClientId) :
    Keeps (Keeping (Since base held)) (connect ifindex ssid client : EngineM S E Unit) := by
  have hjoin : Keeps (Keeping (Since base held)) (do
      prepare ifindex
      supersede client "superseded by another connect request"
      feed (.command (.connect (octetsOf ssid))) : EngineM S E Unit) := by
    refine keeps_bind (borne_since.prepare ifindex) fun _ => keeps_bind (fun d r d' h hd => ?_)
      fun _ => feed_since nofun
    exact hd.calm (calm_supersede _ _ _ _ _ h) (conducts_continues.hosts.supersede _ _ _ _ _ h)
  unfold connect
  split_ifs
  · exact keeps_bind (keeps_throw _) fun _ => hjoin
  · exact hjoin

theorem since_secret (token : UInt64) (value : String) (client : ClientId) :
    Keeps (Keeping (Since base held)) (secret token value client : EngineM S E Unit) := by
  refine keeps_secret (keeps_bind (keeps_modify fun d hd => ?_) fun _ => feed_since nofun) token client
  exact hd.calm (speaks_calm.prompts d d.nextToken none) (continues_same rfl)

theorem since_driveDhcp (input : Dhcp.Input) :
    Keeps (Keeping (Since base held)) (driveDhcp input : EngineM S E _) := by
  intro d r d' h hd
  have hcontinues := conducts_continues.drives input _ _ _ h
  rcases runs_driveDhcp h with ⟨-, rfl, -⟩ | ⟨m, hm, hkin, -, -⟩
  · exact hd
  · refine hd.kin hkin hcontinues fun hnone => ?_
    rw [exchange, hnone] at hm
    cases hm

theorem since_stopDhcp : Keeps (Keeping (Since base held)) (stopDhcp : EngineM S E _) :=
  fun _ _ _ h hd => hd.kin (admits_kin.stopDhcp _ _ _ h) (conducts_continues.stops _ _ _ h)
    (dry_stopDhcp _ _ _ h)

end Since

/-! ## A core that is told to rest -/

/-- The kernel refuses to disconnect. -/
def Done.isRefusal : Done → Bool
  | .call (.disconnect _ _) ok => !ok
  | _ => false

/-- No disconnection is refused. -/
def Granted (d d' : Daemon S E) : Prop :=
  ∃ more, d'.journal = d.journal ++ more ∧ ∀ x ∈ more, x.isRefusal = false

instance : IsPreorder (Daemon S E) Granted where
  refl d := ⟨[], (List.append_nil _).symm, fun _ hx => absurd hx List.not_mem_nil⟩
  trans := by
    rintro d d₁ d' ⟨more, hmore, h⟩ ⟨more', hmore', h'⟩
    refine ⟨more ++ more', by rw [hmore', hmore, List.append_assoc], fun x hx => ?_⟩
    rcases List.mem_append.mp hx with hx | hx
    · exact h x hx
    · exact h' x hx

theorem granted_done {done : Done} (hjournal : d'.journal = d.journal ++ [done])
    (hdone : done.isRefusal = false) : Granted d d' := by
  refine ⟨[done], hjournal, fun x hx => ?_⟩
  rw [List.mem_singleton.mp hx]
  exact hdone

theorem granted_same (hjournal : d'.journal = d.journal) : Granted d d' :=
  ⟨[], by rw [hjournal, List.append_nil], fun _ hx => absurd hx List.not_mem_nil⟩

theorem tells_granted : Tells (Granted : Daemon S E → Daemon S E → Prop) where
  sends _ _ _ := granted_done rfl rfl
  unwatched _ := granted_same rfl

theorem granted_ifindexFor (reason : String) :
    Keeps Granted (ifindexFor reason : EngineM S E UInt32) := by
  refine keeps_bind keeps_get fun d => ?_
  split
  · exact keeps_pure _
  · exact keeps_throw _

theorem granted_nlPort : Keeps Granted (nlPort : EngineM S E Unit) := by
  refine keeps_bind keeps_get fun d => ?_
  split_ifs
  · exact keeps_pure _
  · exact keeps_throw _

theorem granted_disconnect {reason : UInt16} {next : Option Input}
    (h : Runs (perform (.disconnect reason)) d (.ok next) d') : Granted d d' := by
  have hrecord : Granted d (d.record (.perform (.disconnect reason))) := granted_done rfl rfl
  rw [perform, runs_modify_bind] at h
  rcases runs_bind.mp h with ⟨_, d₁, hlink, hpure⟩ | ⟨e, -, hr⟩
  · obtain ⟨-, rfl⟩ := runs_pure.mp hpure
    rcases runs_bind.mp hlink with ⟨ifindex, d₂, hifindex, hlink⟩ | ⟨e, -, hr⟩
    · rcases runs_bind.mp hlink with ⟨_, d₃, hport, hlink⟩ | ⟨e, -, hr⟩
      · rcases runs_bind.mp hlink with ⟨reply, d₄, hreply, hpure⟩ | ⟨e, -, hr⟩
        · obtain ⟨-, rfl⟩ := runs_pure.mp hpure
          have hrequest : Granted d₃ d' := by
            rw [runs_request hreply]
            exact granted_done rfl rfl
          exact IsTrans.trans _ _ _ hrecord (IsTrans.trans _ _ _
            (granted_ifindexFor _ _ _ _ hifindex)
            (IsTrans.trans _ _ _ (granted_nlPort _ _ _ hport) hrequest))
        · cases hr
      · cases hr
    · cases hr
  · cases hr

theorem granted_perform {action : Core.Action}
    (h : (∃ id, action = .clearTimer id) ∨ ∃ state, action = .notify state) :
    Keeps Granted (perform action : EngineM S E _) := by
  refine keeps_bind (keeps_modify fun _ => granted_done rfl rfl) fun _ => ?_
  rcases h with ⟨id, rfl⟩ | ⟨state, rfl⟩
  · exact keeps_bind (keeps_modify fun _ => granted_same rfl) fun _ => keeps_pure _
  · exact keeps_bind (tells_granted.notify state) fun _ => keeps_pure _

theorem mem_disarm {core : Connection S} {action : Core.Action} (h : action ∈ core.disarm.2) :
    ∃ id, action = .clearTimer id := by
  unfold Connection.disarm at h
  cases harmed : core.armed with
  | none => simp [harmed] at h
  | some id =>
    rw [harmed] at h
    exact ⟨id, List.mem_singleton.mp h⟩

theorem mem_goIdle {core : Connection S} {action : Core.Action} (h : action ∈ core.goIdle.2) :
    (∃ id, action = .clearTimer id) ∨ ∃ state, action = .notify state := by
  rcases List.mem_append.mp h with hmem | hmem
  · exact .inl (mem_disarm hmem)
  · exact .inr ⟨.idle, List.mem_singleton.mp hmem⟩

/-- **A core told to rest** that does as it is told has had the kernel disconnect. -/
theorem granted_performAll {core : Connection S} {next : List Input}
    (h : Runs (performAll (Connection.andThen (core, [.disconnect reasonLeaving]) Connection.goIdle).2) d
      (.ok next) d') : Granted d d' := by
  rcases runs_bind.mp h with ⟨first, d₁, hfirst, hothers⟩ | ⟨e, -, hr⟩
  · exact IsTrans.trans _ _ _ (granted_disconnect hfirst) (keeps_bind
      (keeps_performAll fun action hmem => granted_perform (mem_goIdle hmem))
      (fun _ => keeps_pure _) _ _ _ hothers)
  · cases hr

/-- The core has come to rest since, and no disconnection was refused. -/
def Leaving (d₀ d : Daemon S E) : Prop := d.Rests ∧ Dry d₀ d ∧ Granted d₀ d

theorem turn_leaving {d₀ : Daemon S E} {input : Input} (hd : Leaving d₀ d) (hinput : IsScan input) :
    Turn (Leaving d₀) IsScan d input := by
  obtain ⟨scan, rfl⟩ := hinput
  intro core q x d' hcore hpoll hperform
  obtain ⟨hrests, hdry, hgranted⟩ := hd
  cases hpoll.symm.trans (Connection.onScanResults_idle (hrests core hcore).1 scan)
  obtain ⟨rfl, rfl⟩ := runs_pure.mp hperform
  refine ⟨⟨?_, hdry, IsTrans.trans _ _ _ hgranted (granted_done rfl rfl)⟩, fun _ h => nomatch h⟩
  rintro core' ⟨⟩
  exact hrests core hcore

theorem leaving_carried {core : Connection S} {turns : ℕ} {next : List Input} {d₁ : Daemon S E}
    {r : Except String Unit}
    (hperform : Runs (performAll
      (Connection.andThen (core, [.disconnect reasonLeaving]) Connection.goIdle).2)
      (d.polled core.stopped (.command .disconnect)) (.ok next) d₁)
    (hrest : Runs (feedTurns turns ([] ++ next)) d₁ r d') : Leaving d d' := by
  have hgiven : Granted d (d.polled core.stopped (.command .disconnect)) := granted_done rfl rfl
  have hstart : .startDhcp ∉
      (Connection.andThen (core, [.disconnect reasonLeaving]) Connection.goIdle).2 := by
    rw [← Connection.mem_decisions rfl]
    simp
  have hdry : Dry (d.polled core.stopped (.command .disconnect)) d₁ :=
    keeps_performAll (fun a ha => dry_perform fun heq => hstart (heq ▸ ha)) _ _ _ hperform
  have hrests : d₁.Rests := by
    refine Rests.kin ?_ (kin_performAll _ _ _ _ hperform)
    rintro core' ⟨⟩
    exact ⟨rfl, rfl, rfl⟩
  have hleaving : Leaving d d₁ :=
    ⟨hrests, hdry, IsTrans.trans _ _ _ hgiven (granted_performAll hperform)⟩
  exact feedTurns_ensures (fun d input hd hscan => turn_leaving hd hscan) _ _
    (fun i hi => yields_performAll _ _ next d₁ hperform i (by simpa using hi)) hleaving hrest

/-- A core that is told to rest does; its exchange ends where the kernel refuses to disconnect. -/
theorem feed_leaves {r : Except String Unit} (hcore : d.core.isSome)
    (h : Runs (feed (.command .disconnect)) d r d') :
    d'.Rests ∧ Dry d d' ∧ (d'.dhcp = none ∨ Granted d d') := by
  obtain ⟨core, hcore⟩ := Option.isSome_iff_exists.mp hcore
  obtain ⟨x, d₁, hperform, hrest⟩ := runs_attempt_bind.mp (runs_turn hcore rfl h)
  cases x with
  | error e =>
    have hsome : d₁.core.isSome := by
      obtain ⟨core', hcore', -⟩ := (kin_performAll _ _ _ _ hperform).core rfl
      rw [hcore']
      rfl
    have hnone := (cleared_abort hsome hrest).1.dhcp
    exact ⟨runs_abort hrest, fun _ => hnone, .inl hnone⟩
  | ok next =>
    obtain ⟨hrests, hdry, hgranted⟩ := leaving_carried hperform hrest
    exact ⟨hrests, hdry, .inr hgranted⟩

/-! ## Steps -/

/-- The exchange gives up, and is ended before the core is told. -/
def GivesUp (d : Daemon S E) (event : Event) : Prop := ∃ timer m, event = .dhcpTimer timer ∧
  d.exchange = some m ∧ reported (m.poll (.timeout timer)).2 none = some .failed

/-- The core is told to leave the network it is on. -/
def Leaves (d : Daemon S E) (done : List Done) : Event → Prop
  | .disconnect ssid _ => d.ssid = some ssid
  | .forget ssid _ => d.ssid = some ssid ∧ .call (.deleteProfile (octetsOf ssid)) true ∈ done
  | .shutDown => d.isIdle = false
  | _ => False

/-- A step that ends no connection but not its exchange. -/
structure Steady (d : Daemon S E) (event : Event) (done : List Done) : Prop where
  /-- Where there is an exchange, the core is told to leave only for the kernel to refuse it. -/
  leaves : d.dhcp.isSome → Leaves d done event → ∃ x ∈ done, x.isRefusal = true
  /-- Where there is an exchange that does not give up, or one is begun, every failure reported is
  final. -/
  bears : Bears (d.dhcp.isSome ∧ ¬ GivesUp d event) done
  /-- Where a route is put in, the exchange is opened. -/
  opened : Opened done

/-- A core that rests has no exchange. -/
structure Eased (d : Daemon S E) : Prop where
  grounded : ∀ core, d.core = some core → core.Grounded
  idle : d.isIdle = true → d.dhcp = none

theorem Eased.since (h : d.Eased) {held : Prop} (hheld : d.dhcp.isSome → held) :
    Since d.journal held d :=
  ⟨h.grounded, [], (List.append_nil _).symm, fun _ => ⟨h.idle, fun hsome => .inl (hheld hsome)⟩⟩

theorem Since.eased {held : Prop} {more : List Done} (h : Since d.journal held d')
    (hmore : d'.journal = d.journal ++ more) (hbears : Bears held more) : d'.Eased := by
  obtain ⟨hgrounded, more', hmore', hsince⟩ := h
  rw [hmore, List.append_cancel_left_eq] at hmore'
  subst hmore'
  exact ⟨hgrounded, (hsince hbears).1⟩

theorem Eased.kin (h : d.Eased) (hkin : Kin d d') (hdry : Dry d d') : d'.Eased :=
  ⟨hkin.grounded h.grounded, fun hst => hdry (h.idle (hkin.isIdle.symm.trans hst))⟩

theorem Rests.eased (h : d.Rests) (hdhcp : d.dhcp = none) : d.Eased := ⟨h.grounded, fun _ => hdhcp⟩

section Step

variable {more : List Done} {r : Except String Unit}

theorem eased_leaves {d₁ : Daemon S E} (hbefore : Granted d d₁) (hdry : Dry d d₁)
    (hcore : d₁.core.isSome) (h : Runs (feed (.command .disconnect)) d₁ r d')
    (hmore : d'.journal = d.journal ++ more)
    (hrefused : d.dhcp.isSome → ∃ x ∈ more, x.isRefusal = true) : d'.Eased := by
  obtain ⟨hrests, hdry', hleft⟩ := feed_leaves hcore h
  refine hrests.eased ?_
  rcases hleft with hnone | hgranted
  · exact hnone
  · refine hdry' (hdry (Option.not_isSome_iff_eq_none.mp fun hsome => ?_))
    obtain ⟨more', hmore', hclean⟩ := IsTrans.trans _ _ _ hbefore hgranted
    rw [hmore, List.append_cancel_left_eq] at hmore'
    subst hmore'
    obtain ⟨x, hx, hrefusal⟩ := hrefused hsome
    rw [hclean x hx] at hrefusal
    cases hrefusal

theorem granted_supersede (client : ClientId) (reason : String) :
    Keeps Granted (supersede client reason : EngineM S E Unit) := by
  refine keeps_bind keeps_get fun d => keeps_bind (keeps_modify fun _ => granted_same rfl) fun _ => ?_
  have hforget : Keeps Granted (modify fun d => { d with pendingSecret := none } : EngineM S E _) :=
    keeps_modify fun _ => granted_same rfl
  cases d.watcher with
  | none => exact hforget
  | some previous =>
    dsimp only
    split_ifs
    · exact keeps_bind (tells_granted.send _ _) fun _ => hforget
    · exact hforget

theorem eased_disconnect {d₀ : Daemon S E} {ssid : String} {client : ClientId} (hd : d₀.Eased)
    (hbefore : Granted d₀ d) (hcalm : Calm d₀ d) (h : Runs (disconnect ssid client) d r d')
    (hmore : d'.journal = d₀.journal ++ more)
    (hrefused : d₀.dhcp.isSome → d.ssid = some ssid → ∃ x ∈ more, x.isRefusal = true) :
    d'.Eased := by
  rcases runs_disconnect h with ⟨e, -, -, rfl⟩ | ⟨-, hssid, hretaken⟩
  · exact hd.kin hcalm.toKin hcalm.dry
  · rcases runs_bind.mp hretaken with ⟨_, d₁, hsupersede, hfeed⟩ | ⟨e, hsupersede, -⟩
    · have hcalm₁ := calm_supersede _ _ _ _ _ hsupersede
      obtain ⟨core, hcore⟩ := Option.isSome_iff_exists.mp (isSome_core_of_ssid hssid)
      obtain ⟨core₁, hcore₁, -⟩ := hcalm₁.toKin.core hcore
      exact eased_leaves (IsTrans.trans _ _ _ hbefore (granted_supersede _ _ _ _ _ hsupersede))
        (IsTrans.trans _ _ _ hcalm.dry hcalm₁.dry) (by rw [hcore₁]; rfl) hfeed hmore
        fun hsome => hrefused hsome hssid
    · cases (runs_supersede hsupersede).1

theorem eased_forget {ssid : String} {client : ClientId} {r : Except String Bool} (hd : d.Eased)
    (h : Runs (forget ssid client) d r d') (hmore : d'.journal = d.journal ++ more)
    (hrefused : d.dhcp.isSome → Leaves d more (.forget ssid client) →
      ∃ x ∈ more, x.isRefusal = true) : d'.Eased := by
  obtain ⟨x, d₁, hdelete, hout⟩ := runs_forget h
  have hcalm := permits_calm.request _ _ _ _ _ hdelete
  rcases hout with ⟨rfl, -⟩ | ⟨-, ⟨deleted, rfl⟩, hssid, hleave⟩
  · exact hd.kin hcalm.toKin hcalm.dry
  · have hdone := runs_request hdelete
    have hgranted : Granted d d₁ := by
      rw [hdone]
      exact granted_done rfl rfl
    refine eased_disconnect hd hgranted hcalm hleave hmore fun hsome _ => hrefused hsome ⟨?_, ?_⟩
    · rw [hdone] at hssid
      exact hssid
    · have hcontinues := conducts_continues.hosts.disconnect ssid client trivial _ _ _ hleave
      rw [Continues, hmore, hdone] at hcontinues
      obtain ⟨later, hlater⟩ := hcontinues
      rw [record_journal, List.append_assoc, List.append_cancel_left_eq] at hlater
      rw [← hlater]
      simp [Except.isOk, Except.toBool]

theorem eased_shutDown (hd : d.Eased) {r : Except String Unit} (h : Runs shutDown d r d')
    (hmore : d'.journal = d.journal ++ more)
    (hrefused : d.dhcp.isSome → d.isIdle = false → ∃ x ∈ more, x.isRefusal = true) : d'.Eased := by
  rw [shutDown, runs_get_bind] at h
  split_ifs at h with hup
  · obtain ⟨hcore, hidle⟩ := hup
    exact eased_leaves (refl d) (fun hnone => hnone) hcore h hmore fun hsome =>
      hrefused hsome (by simpa using hidle)
  · obtain ⟨-, rfl⟩ := runs_pure.mp h
    exact hd

/-- A timer of the exchange: where it gives up, it is ended before the core is told. -/
theorem eased_dhcpTimer {timer : Dhcp.Timer} (hd : d.Eased) (h : Runs (onDhcpTimer timer) d r d')
    (hmore : d'.journal = d.journal ++ more)
    (hbears : Bears (d.dhcp.isSome ∧ ¬ GivesUp d (.dhcpTimer timer)) more) : d'.Eased := by
  by_cases hgives : GivesUp d (.dhcpTimer timer)
  · obtain ⟨_, m, heq, hm, hreported⟩ := hgives
    cases heq
    rcases runs_bind.mp h with ⟨event, d₁, hdrive, hrest⟩ | ⟨e, hdrive, -⟩
    · rcases runs_driveDhcp hdrive with ⟨hnone, -⟩ | ⟨m', hm', hkin, -, hevent⟩
      · cases hnone.symm.trans hm
      · cases hm.symm.trans hm'
        rw [hreported] at hevent
        cases hevent
        dsimp only at hrest
        rw [if_pos rfl] at hrest
        rcases runs_bind.mp hrest with ⟨_, d₂, hstop, hfeed⟩ | ⟨e, hstop, -⟩
        · have hdriven := conducts_continues.drives _ _ _ _ hdrive
          have hstopped := conducts_continues.stops _ _ _ hstop
          have hkin₂ := IsTrans.trans _ _ _ hkin (admits_kin.stopDhcp _ _ _ hstop)
          have hgone : Since d.journal (d.dhcp.isSome ∧ ¬ GivesUp d (.dhcpTimer timer)) d₂ :=
            .gone (hdriven.trans hstopped) (hkin₂.grounded hd.grounded) (runs_stopDhcp hstop).1
          refine (feed_since ?_ _ _ _ hfeed hgone).eased hmore hbears
          nofun
        · exact absurd hstop (total_stopDhcp _ _ _)
    · exact absurd hdrive (total_driveDhcp _ _ _ _)
  · have hkeeps : Keeps (Keeping (Since d.journal (d.dhcp.isSome ∧ ¬ GivesUp d (.dhcpTimer timer))))
        (onDhcpTimer timer : EngineM S E Unit) := by
      refine keeps_bind (since_driveDhcp _) fun event => ?_
      cases event with
      | none => exact keeps_pure _
      | some event =>
        dsimp only
        split_ifs
        · exact keeps_bind since_stopDhcp fun _ => feed_since nofun
        · exact feed_since nofun
    exact (hkeeps _ _ _ h (hd.since fun hsome => ⟨hsome, hgives⟩)).eased hmore hbears

/-- **A step that is steady** leaves a core that rests without an exchange. -/
theorem eased_handle {event : Event} (hd : d.Eased) (h : Runs (handle event) d r d')
    (hmore : d'.journal = d.journal ++ more) (hsteady : Steady d event more) : d'.Eased := by
  have hsince (hevent : ∀ timer, event ≠ .dhcpTimer timer)
      (hkeeps : Keeps (Keeping (Since d.journal (d.dhcp.isSome ∧ ¬ GivesUp d event)))
        (handle event : EngineM S E Unit)) : d'.Eased := by
    have hgives : ¬ GivesUp d event := fun ⟨timer, _, heq, _⟩ => hevent timer heq
    exact (hkeeps _ _ _ h (hd.since fun hsome => ⟨hsome, hgives⟩)).eased hmore hsteady.bears
  cases event with
  | connect ifindex ssid client => exact hsince nofun (since_connect ifindex ssid client)
  | secret token value client => exact hsince nofun (since_secret token value client)
  | datagram bytes =>
    refine hsince nofun (keeps_bind (since_driveDhcp _) fun event => ?_)
    cases event with
    | none => exact keeps_pure _
    | some event => exact feed_since nofun
  | forgetClient client =>
    refine hsince nofun (keeps_modify fun d hd => hd.calm ⟨⟨rfl, rfl⟩, rfl⟩ (continues_same rfl))
  | dhcpTimer timer => exact eased_dhcpTimer hd h hmore hsteady.bears
  | disconnect ssid client =>
    exact eased_disconnect hd (refl d) (refl d) h hmore hsteady.leaves
  | forget ssid client =>
    rcases runs_bind.mp h with ⟨_, d₁, hforget, hpure⟩ | ⟨e, hforget, -⟩
    · obtain ⟨-, rfl⟩ := runs_pure.mp hpure
      exact eased_forget hd hforget hmore hsteady.leaves
    · exact eased_forget hd hforget hmore hsteady.leaves
  | shutDown => exact eased_shutDown hd h hmore hsteady.leaves
  | _ => exact hsince nofun (borne_since.handle_plain trivial)

end Step

/-! ## Runs -/

theorem start_eased (world : E.World) (nl rtnl : Bool) :
    (start world nl rtnl : Daemon S E).Eased := by
  refine ⟨?_, fun _ => rfl⟩
  rintro core ⟨⟩

theorem start_accounted (world : E.World) (nl rtnl : Bool) :
    (start world nl rtnl : Daemon S E).Accounted :=
  ⟨fun _ _ he => absurd he List.not_mem_nil, fun _ hleft => absurd hleft (Machine.not_latest_nil _)⟩

theorem Eased.released (h : d.Eased) (haccounted : d.Accounted) (hidle : d.isIdle = true) :
    d.Released :=
  ⟨h.idle hidle, haccounted.timers (h.idle hidle), haccounted.not_left (h.idle hidle)⟩

theorem step_eased {woken : ℕ × Event} (hd : d.Eased)
    (hsteady : Steady d woken.2 (deeds (Machine.entry step d woken))) : (step d woken).1.Eased := by
  rcases step_runs d woken with hstep | ⟨r, hrun⟩
  · rw [hstep]
    exact hd
  · have hnow : ({ d with now := woken.1 } : Daemon S E).Eased := ⟨hd.grounded, hd.idle⟩
    refine eased_handle hnow hrun (deeds_eq d woken) ⟨hsteady.leaves, ?_, hsteady.opened⟩
    exact hsteady.bears

theorem step_accounted {woken : ℕ × Event} (hd : d.Accounted)
    (hopened : Opened (deeds (Machine.entry step d woken))) : (step d woken).1.Accounted := by
  rcases step_runs d woken with hstep | ⟨r, hrun⟩
  · rw [hstep]
    exact hd
  · have hnow : ({ d with now := woken.1 } : Daemon S E).Accounted := ⟨hd.timers, hd.routes⟩
    obtain ⟨more, hmore, htidy⟩ := conducts_tidy.handle _ _ _ _ hrun
    have hdeeds := deeds_eq d woken
    rw [show (step d woken).1.journal = d.journal ++ more from hmore,
      List.append_cancel_left_eq] at hdeeds
    exact htidy (hdeeds ▸ hopened) hnow

/-- **The exchange does not outlive its connection** in a run whose steps are steady. -/
theorem released_run (world : E.World) (nl rtnl : Bool) (events : List (ℕ × Event))
    (h : Along (fun _ e => Steady e.pre e.input.2 (deeds e))
      (log step (start world nl rtnl : Daemon S E) events))
    (hidle : (exec step (start world nl rtnl : Daemon S E) events).isIdle = true) :
    (exec step (start world nl rtnl : Daemon S E) events).Released := by
  have hrun := run_induction (J := fun _ d => d.Eased ∧ d.Accounted)
    ⟨start_eased world nl rtnl, start_accounted world nl rtnl⟩
    (fun _ _ _ hd hsteady => ⟨step_eased hd.1 hsteady, step_accounted hd.2 hsteady.opened⟩) events h
  exact hrun.1.released hrun.2 hidle

/-! ### Samples -/

/-- Something goes wrong that a steady step does without. -/
def Done.isMishap : Done → Bool
  | .perform (.failed failure) => !failure.isTerminal
  | .call .openDhcp ok | .call .newXid ok => !ok
  | _ => false

theorem steady_of {event : Event} {done : List Done} (hleaves : ¬ Leaves d done event)
    (hdone : done.any Done.isMishap = false) : Steady d event done := by
  have hnone (x : Done) (hx : x ∈ done) : x.isMishap = false := by
    simpa using List.any_eq_false.mp hdone x hx
  refine ⟨fun _ h => absurd h hleaves, fun _ failure hmem => ?_, fun _ _ => ⟨?_, ?_⟩⟩
  · simpa [Done.isMishap] using hnone _ hmem
  · exact fun hmem => nomatch hnone _ hmem
  · exact fun hmem => nomatch hnone _ hmem

/-- A lease is had, and the machine is put to sleep and wakes up. -/
def sampleResumed : List (ℕ × Event) := sampleLeased ++ [(5, .resume)]

theorem released_run_sample : (exec step sampleStart sampleLeased).dhcp.isSome ∧
    (exec step sampleStart sampleResumed).isIdle = true ∧
    (exec step sampleStart sampleResumed).Released := by
  have hidle : (exec step sampleStart sampleResumed).isIdle = true := by decide +kernel
  refine ⟨by decide +kernel, hidle, released_run _ true true sampleResumed ?_ hidle⟩
  have hclean : (log step sampleStart sampleResumed).all
      (fun e => !(deeds e).any Done.isMishap) = true := by decide +kernel
  refine Machine.along_iff_forall.mpr fun e he => ?_
  have hevents : (log step sampleStart sampleResumed).all (fun e => match e.input.2 with
      | .disconnect .. | .forget .. | .shutDown => false
      | _ => true) = true := by decide +kernel
  refine steady_of (fun hleaves => ?_) (by simpa using List.all_eq_true.mp hclean e he)
  have hevent := List.all_eq_true.mp hevents e he
  cases hinput : e.input.2 <;> rw [hinput] at hleaves hevent <;>
    first | exact hleaves | cases hevent

/-- **The client leaves the network**: the core is idle, and the exchange goes on. -/
theorem released_fails :
    (exec step sampleStart (sampleLeased ++ [(5, .disconnect "n" 7)])).isIdle = true ∧
      ¬ (exec step sampleStart (sampleLeased ++ [(5, .disconnect "n" 7)])).Released := by
  refine ⟨by decide +kernel, fun h => ?_⟩
  have hsome :
      (exec step sampleStart (sampleLeased ++ [(5, .disconnect "n" 7)])).dhcp.isSome = true := by
    decide +kernel
  rw [h.exchange] at hsome
  cases hsome

/-- The link is lost while an address is asked for: the failure may pass, the first attempt is over, and
the exchange goes on. -/
theorem released_fails_lost :
    (exec step sampleStart (sampleOffered ++
        [(4, .notification [Nl80211.cmdDisconnect, 1, 0, 0])])).isIdle = true ∧
      (exec step sampleStart (sampleOffered ++
        [(4, .notification [Nl80211.cmdDisconnect, 1, 0, 0])])).dhcp.isSome = true := by
  decide +kernel

end Daemon

end Caw
