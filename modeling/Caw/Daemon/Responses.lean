import Caw.Daemon.Requests

/-!
# Requests and their responses

Every request is answered once, as long as no client waits twice for the same thing.

* `Reactor.Scheduled`, **`onKeys_tally`**: a deadline for every scan a client waits for, and what comes
  up of them;
* `Reactor.Singly`, **`dispatch_tally`**: a client asks again only once it has its answer, and what one
  event adds to its tally;
* `Kept`, `Steps`: what every event keeps of the loop;
* `Accounts`, **`accounts_run`**: every request is answered once, or waits;
* **`accounts_fail`**: a client that waits twice for the same thing.
-/

set_option autoImplicit false

namespace Caw

open Caw.Core Daemon

namespace Reactor

open Effect Machine

variable {S : Platform} {E : System S} {r r' : Reactor S E} {client : ClientId}

/-! ## Deadlines -/

/-- The clients that wait for scans are those whose deadline is set, or is among these. -/
structure Scheduled (keys : List Key) (r : Reactor S E) : Prop where
  armed : ∀ client, 0 < waiting client r ↔
    .scan client ∈ r.engine.timers.scanKeys ∨ .scan client ∈ keys
  nodup : r.engine.timers.scanKeys.Nodup

theorem Scheduled.of_eq {keys : List Key} (h : Scheduled keys r)
    (htimers : r'.engine.timers.scans = r.engine.timers.scans) (hscans : r'.scans = r.scans) :
    Scheduled keys r' := by
  have hkeys : r'.engine.timers.scanKeys = r.engine.timers.scanKeys := by
    rw [Timers.scanKeys_eq, Timers.scanKeys_eq, htimers]
  refine ⟨fun client => ?_, hkeys ▸ h.nodup⟩
  rw [hkeys, waiting, hscans]
  exact h.armed client

theorem scheduled_finished (response : Message) {keys : List Key} (h : Scheduled keys r)
    (recipient : ClientId) :
    Scheduled (keys.filter fun key => key ≠ .scan recipient) (finished response r recipient) := by
  have hkeys : (finished response r recipient).engine.timers.scanKeys =
      r.engine.timers.scanKeys.filter fun key => key ≠ .scan recipient :=
    r.engine.timers.scanKeys_cancel_scan recipient
  refine ⟨fun client => ?_, ?_⟩
  · have hwaiting : waiting client (finished response r recipient) =
        if client ∈ [recipient] then 0 else waiting client r :=
      waiting_finished (r := r) _ [recipient]
    rw [hkeys, hwaiting]
    by_cases heq : client = recipient
    · simp [heq]
    · simpa [heq] using h.armed client
  · rw [hkeys]
    exact h.nodup.filter _

theorem scheduled_opened (h : Scheduled [] r) (asker : ClientId) (ifindex : UInt32) :
    Scheduled [] { r with
      scans := r.scans ++ [{ client := asker, ifindex }]
      engine := { r.engine with
        timers := r.engine.timers.arm (.scan asker) scanTimeout r.engine.now } } := by
  have hkeys := r.engine.timers.scanKeys_arm_scan asker scanTimeout r.engine.now
  refine ⟨fun client => ?_, ?_⟩
  · have hmem : .scan client ∈ (r.engine.timers.arm (.scan asker) scanTimeout
        r.engine.now).scanKeys ↔ .scan client ∈ r.engine.timers.scanKeys ∨ client = asker := by
      rw [hkeys]
      split_ifs with hasker
      · exact ⟨.inl, fun h => h.elim id fun heq => heq ▸ hasker⟩
      · simp
    have harmed := h.armed client
    rw [hmem, waiting, List.countP_append]
    by_cases heq : client = asker
    · simp [heq]
    · simpa [waiting, heq, Ne.symm heq] using harmed
  · rw [hkeys]
    split_ifs with hmem
    · exact h.nodup
    · refine List.nodup_append.mpr ⟨h.nodup, List.nodup_singleton _, fun key hkey key' hkey' => ?_⟩
      rw [List.mem_singleton.mp hkey']
      exact fun heq => hmem (heq ▸ hkey)

/-- What the engine does arms no scan and disarms none. -/
abbrev SameScans : Daemon S E → Daemon S E → Prop := fun d d' => d'.timers.scans = d.timers.scans

instance : IsPreorder (Daemon S E) SameScans where
  refl _ := rfl
  trans _ _ _ h h' := Eq.trans h' h

theorem admits_scans : Admits (SameScans : Daemon S E → Daemon S E → Prop) where
  calls _ _ := rfl
  timers _ _ hsparing := hsparing.scans
  routes _ _ _ := rfl
  dhcp _ _ := rfl
  eapol _ _ := rfl
  profiles _ _ := rfl

theorem speaks_scans : Speaks (SameScans : Daemon S E → Daemon S E → Prop) where
  sends _ _ _ := rfl
  unwatched _ := rfl
  prompts _ _ _ := rfl

theorem spans_scans : Spans (fun _ => True) (SameScans : Daemon S E → Daemon S E → Prop) where
  toAdmits := admits_scans
  polls _ _ _ _ _ _ := rfl
  performs action := admits_scans.perform_of_speaks speaks_scans fun _ => rfl
  tells := speaks_scans.tellFailed
  builds _ _ _ := rfl
  removes _ := rfl
  supersedes client _ reason d x d' h := by
    rw [(runs_supersede h).2]
    unfold afterSupersede
    split
    · rfl
    · split_ifs <;> rfl
  takes _ := rfl

theorem keeps_scheduled {α : Type} {m : EngineM S E α} {keys : List Key} (hm : Keeps SameScans m) :
    Keeps (Keeping (Scheduled keys)) (withEngine m) :=
  keeps_zoom hm fun _ _ h hr => hr.of_eq h rfl

/-- **Scans that begin and end** are scheduled. -/
theorem hosted_scheduled : Hosted (S := S) (E := E) (fun _ => True) (fun _ => True)
    (fun scans d => d.timers.scans = scans) (Scheduled []) where
  upheld _ := spans_scans.upheld fun _ _ h hd => h.trans hd
  admits _ := spans_scans.admits_keeping fun _ _ h hd => h.trans hd
  lease _ _ := (spans_scans.feed _).mono fun _ _ h hd => h.trans hd
  engine m hm := keeps_scheduled fun d x d' h => hm d.timers.scans d x d' h rfl
  fields r r' hengine _ _ hscans hr := hr.of_eq (by rw [hengine]) hscans
  reply client _ message := keeps_scheduled (keeps_modify fun _ => rfl)
  opens client _ ifindex r x r' h hr := by
    rw [runs_modify_bind] at h
    obtain ⟨d, hd, rfl⟩ := runs_zoom.mp h
    obtain ⟨-, rfl⟩ := runs_modify.mp hd
    exact scheduled_opened hr client ifindex
  finish client _ response r x r' h hr := by
    obtain ⟨-, rfl⟩ := runs_finishScan.mp h
    exact scheduled_finished response hr client

theorem hosted_quiet (pending : List PendingScan) (scans : List (Key × ℕ)) :
    Hosted (S := S) (E := E) (fun _ => True) (fun _ => False)
      (fun scans d => d.timers.scans = scans)
      fun r => r.scans = pending ∧ r.engine.timers.scans = scans where
  upheld _ := spans_scans.upheld fun _ _ h hd => h.trans hd
  admits _ := spans_scans.admits_keeping fun _ _ h hd => h.trans hd
  lease _ _ := (spans_scans.feed _).mono fun _ _ h hd => h.trans hd
  engine _ hm := keeps_zoom (hm scans) fun _ _ h hr => ⟨hr.1, h hr.2⟩
  fields _ _ hengine _ _ hscans hr := ⟨hscans.trans hr.1, hengine ▸ hr.2⟩
  reply _ h := h.elim
  opens _ h := h.elim
  finish _ h := h.elim

theorem total_onKey (key : Key) : Total (onKey key : ReactorM S E Unit) := by
  cases key with
  | scan client =>
    intro r e r' h
    cases (runs_finishScan.mp h).1
  | core id => exact total_withEngine (total_feed _)
  | autoconnect =>
    refine total_bind total_get fun r => ?_
    split_ifs
    · exact total_pure _
    · exact total_bind (total_modify _) fun _ => total_withEngine (total_modify _)
    · exact total_bind (total_attempt _) fun _ => total_bind (total_modify _) fun _ =>
        total_bind total_get fun _ => total_withEngine (total_modify _)
  | dhcp t => exact total_withEngine (total_onDhcpTimer t)

/-- A deadline has been dealt with, and these remain. -/
structure Dealt (keys : List Key) (r r' : Reactor S E) : Prop where
  scheduled : Scheduled keys r'
  fewer : ∀ client, waiting client r' ≤ waiting client r
  same : ∀ client, tally client r' = tally client r

theorem dealt_scan {recipient : ClientId} {keys : List Key} {x : Except String Unit}
    (h : Scheduled (.scan recipient :: keys) r) (hnot : .scan recipient ∉ keys)
    (hone : waiting recipient r ≤ 1) (hrun : Runs (onKey (.scan recipient)) r x r') :
    Dealt keys r r' := by
  obtain ⟨-, rfl⟩ := runs_finishScan.mp hrun
  have hkeys : (.scan recipient :: keys).filter (fun key => key ≠ .scan recipient) = keys := by
    rw [List.filter_cons_of_neg (by simp), List.filter_eq_self]
    exact fun key hmem => decide_eq_true fun heq => hnot (heq ▸ hmem)
  have hwaits := (h.armed recipient).mpr (.inr List.mem_cons_self)
  refine ⟨hkeys ▸ scheduled_finished (.error "scan timed out") h recipient, fun client => ?_,
    fun client => ?_⟩
  · refine (waiting_finished (r := r) _ [recipient]).trans_le ?_
    split_ifs
    · exact Nat.zero_le _
    · exact le_rfl
  · have hall : client ∈ [recipient] → [recipient].count client = waiting client r := by
      intro hmem
      rw [List.mem_singleton.mp hmem, List.count_singleton_self]
      omega
    exact tally_finished (.error "scan timed out") rfl hall

theorem dealt_other {key : Key} {keys : List Key} {x : Except String Unit}
    (h : Scheduled (key :: keys) r) (hscan : key.isScan = false) (hrun : Runs (onKey key) r x r') :
    Dealt keys r r' := by
  have hother (client : ClientId) : key ≠ .scan client := by
    rintro rfl
    cases hscan
  obtain ⟨hscans, htimers⟩ := (hosted_quiet r.scans r.engine.timers.scans).onKey
    (fun client heq => hother client heq) _ _ _ hrun ⟨rfl, rfl⟩
  refine ⟨⟨fun client => ?_, ?_⟩, fun client => ?_, fun client => ?_⟩
  · rw [(h.of_eq htimers hscans).armed client, List.mem_cons]
    exact or_congr_right (or_iff_right (hother client).symm)
  · exact (h.of_eq htimers hscans).nodup
  · rw [waiting, hscans]
    exact le_rfl
  · exact (hosted_tally (tally client r)).onKey
      (fun asker heq => absurd heq (hother asker)) _ _ _ hrun rfl

/-- **Deadlines that come up**, one scan for each client. -/
theorem onKeys_tally {keys : List Key} {x : Except String Unit} (h : Scheduled keys r)
    (hnodup : (keys.filter Key.isScan).Nodup)
    (hone : ∀ client, .scan client ∈ keys → waiting client r ≤ 1) (hrun : Runs (onKeys keys) r x r') :
    Scheduled [] r' ∧ ∀ client, tally client r' = tally client r := by
  induction keys generalizing r with
  | nil =>
    obtain ⟨-, rfl⟩ := runs_pure.mp hrun
    exact ⟨h, fun _ => rfl⟩
  | cons key rest ih =>
    rcases runs_bind.mp hrun with ⟨_, r₁, hkey, hrest⟩ | ⟨e, hkey, -⟩
    · have hstep : Dealt rest r r₁ ∧ (rest.filter Key.isScan).Nodup := by
        cases hscan : key.isScan with
        | true =>
          obtain ⟨recipient, rfl⟩ : ∃ recipient, key = .scan recipient := by
            cases key <;> first | exact ⟨_, rfl⟩ | cases hscan
          rw [List.filter_cons_of_pos hscan, List.nodup_cons] at hnodup
          have hnot : .scan recipient ∉ rest := fun hmem =>
            hnodup.1 (List.mem_filter.mpr ⟨hmem, hscan⟩)
          exact ⟨dealt_scan h hnot (hone _ List.mem_cons_self) hkey, hnodup.2⟩
        | false =>
          rw [List.filter_cons_of_neg (by simp [hscan])] at hnodup
          exact ⟨dealt_other h hscan hkey, hnodup⟩
      obtain ⟨hdone, htally⟩ := ih hstep.1.scheduled hstep.2 (fun client hmem =>
        (hstep.1.fewer client).trans (hone client (List.mem_cons_of_mem _ hmem))) hrest
      exact ⟨hdone, fun client => (htally client).trans (hstep.1.same client)⟩
    · exact absurd hkey (total_onKey key _ _ _)

/-- **Everything due**, one scan for each client. -/
theorem onTimer_tally {x : Except String Unit} (h : Scheduled [] r)
    (hone : ∀ client, .scan client ∈ r.engine.timers.expired r.engine.now → waiting client r ≤ 1)
    (hrun : Runs onTimer r x r') : Scheduled [] r' ∧ ∀ client, tally client r' = tally client r := by
  rw [onTimer, runs_get_bind] at hrun
  rcases runs_bind.mp hrun with ⟨_, r₁, hexpire, hkeys⟩ | ⟨e, hexpire, -⟩
  · obtain ⟨d, hd, rfl⟩ := runs_zoom.mp hexpire
    obtain ⟨-, rfl⟩ := runs_modify.mp hd
    refine onKeys_tally (r := { r with engine := { r.engine with
      timers := r.engine.timers.unexpired r.engine.now } }) ⟨fun client => ?_, ?_⟩
      (Timers.nodup_expired _ h.nodup) hone hkeys
    · have hsplit : .scan client ∈ r.engine.timers.scanKeys ↔
          .scan client ∈ (r.engine.timers.unexpired r.engine.now).scanKeys ∨
            .scan client ∈ r.engine.timers.expired r.engine.now := by
        simp only [Timers.mem_scanKeys, Timers.mem_expired, Timers.unexpired, List.mem_filter,
          decide_eq_true_eq]
        constructor
        · rintro ⟨due, hdue⟩
          rcases Nat.lt_or_ge r.engine.now due with hlt | hle
          · exact .inl ⟨due, hdue, hlt⟩
          · exact .inr ⟨due, hle, hdue⟩
        · rintro (⟨due, hdue, -⟩ | ⟨due, -, hdue⟩)
          · exact ⟨due, hdue⟩
          · exact ⟨due, hdue⟩
      rw [← hsplit]
      exact (h.armed client).trans (or_iff_left List.not_mem_nil)
    · exact (Timers.scanKeys_unexpired_sublist _ _).nodup h.nodup
  · exact absurd hexpire (total_withEngine (total_modify _) _ _ _)

/-! ## Scans -/

/-- A client that waits for the interface alone is answered for each of its scans. -/
theorem count_waitingOn {ifindex : UInt32}
    (h : ∀ s ∈ r.scans, s.client = client → s.ifindex = ifindex) :
    (r.waitingOn ifindex).count client = waiting client r := by
  rw [waitingOn, List.count, List.countP_map, List.countP_filter, waiting]
  refine List.countP_congr fun s hs => ?_
  simp only [Function.comp_apply, Bool.and_eq_true, beq_iff_eq, decide_eq_true_eq]
  exact ⟨And.left, fun heq => ⟨heq, h s hs heq⟩⟩

theorem finishScans_tally {response : Message} {clients : List ClientId} {x : Except String Unit}
    (hresponse : response.isResponse = true)
    (hall : client ∈ clients → clients.count client = waiting client r)
    (hrun : Runs (finishScans response clients) r x r') : tally client r' = tally client r := by
  obtain ⟨-, rfl⟩ := runs_finishScans.mp hrun
  exact tally_finished response hresponse hall

theorem onScanDone_tally {ifindex : UInt32} {x : Except String Unit}
    (hall : client ∈ r.waitingOn ifindex → (r.waitingOn ifindex).count client = waiting client r)
    (hrun : Runs (onScanDone ifindex) r x r') : tally client r' = tally client r := by
  rw [onScanDone, runs_get_bind] at hrun
  dsimp only at hrun
  split_ifs at hrun
  · obtain ⟨-, rfl⟩ := runs_pure.mp hrun
    rfl
  · obtain ⟨found, r₁, hnetworks, hfinish⟩ := runs_attempt_bind.mp hrun
    obtain ⟨d, hd, rfl⟩ := runs_zoom.mp hnetworks
    have hsame : tally client ({ r with engine := d } : Reactor S E) = tally client r :=
      congrArg (· + waiting client r) (admits_account.networks ifindex _ _ _ hd)
    rw [← hsame]
    cases found with
    | ok list => exact finishScans_tally rfl hall hfinish
    | error e => exact finishScans_tally rfl hall hfinish

theorem onScanAborted_tally {ifindex : UInt32} {x : Except String Unit}
    (hall : client ∈ r.waitingOn ifindex → (r.waitingOn ifindex).count client = waiting client r)
    (hrun : Runs (onScanAborted ifindex) r x r') : tally client r' = tally client r := by
  rw [onScanAborted, runs_get_bind] at hrun
  exact finishScans_tally rfl hall hrun

theorem checkResume_tally {offset : ℕ} {x : Except String Unit}
    (hrun : Runs (checkResume offset) r x r') : tally client r' = tally client r := by
  have hfield (f : Reactor S E → Reactor S E) (hengine : ∀ r, (f r).engine = r.engine)
      (hscans : ∀ r, (f r).scans = r.scans) :
      Keeps (Level (tally client)) (modify f : ReactorM S E Unit) :=
    keeps_modify fun r => by rw [Level, tally, tally, waiting, waiting, hengine, hscans]
  have hread : Keeps (Level (tally client))
      (modify fun r => { r with suspendOffset := offset } : ReactorM S E Unit) :=
    hfield _ (fun _ => rfl) fun _ => rfl
  have hwaken : Keeps (Level (tally client)) (do
      modify fun r => { r with autoAttempts := 0 }
      if (← get).autoconnect then armAutoconnect 0
      modify fun r => { r with suspendOffset := offset } : ReactorM S E Unit) := by
    refine keeps_bind (hfield _ (fun _ => rfl) fun _ => rfl) fun _ => keeps_bind keeps_get fun r => ?_
    split_ifs
    · exact keeps_bind (level_withEngine (admits_account.toSpares.arm rfl _)) fun _ => hread
    · exact hread
  rw [checkResume, runs_get_bind] at hrun
  split_ifs at hrun
  · rcases runs_bind.mp hrun with ⟨_, r₁, hresume, hrest⟩ | ⟨e, hresume, -⟩
    · have hsame : tally client r₁ = tally client r :=
        (hosted_tally (tally client r)).engine _ (fun k =>
          ((hosted_tally (tally client r)).upheld k).resume) _ _ _ hresume rfl
      rw [runs_get_bind] at hrest
      rw [← hsame]
      rcases runs_bind.mp hrest with ⟨_, r₂, hscans, hlast⟩ | ⟨e, hscans, -⟩
      · refine (hwaken _ _ _ hlast).trans (finishScans_tally rfl (fun _ => ?_) hscans)
        rw [List.count, List.countP_map, waiting]
        rfl
      · cases (runs_finishScans.mp hscans).1
    · exact (hosted_tally (tally client r)).engine _ (fun k =>
        ((hosted_tally (tally client r)).upheld k).resume) _ _ _ hresume rfl
  · exact hread _ _ _ hrun

/-! ## Clients that go away -/

theorem scheduled_foldl_forgotten {clients : List ClientId} (h : Scheduled [] r) :
    Scheduled [] (clients.foldl forgotten r) := by
  induction clients generalizing r with
  | nil => exact h
  | cons client rest ih =>
    -- what goes away with a client is what an answer would end
    exact ih ((scheduled_finished .ok h client).of_eq rfl rfl)

theorem live_foldl_forgotten {clients : List ClientId} (h : r.engine.Live) :
    (clients.foldl forgotten r).engine.Live := by
  induction clients generalizing r with
  | nil => exact h
  | cons client rest ih =>
    refine ih (h.keep ⟨rfl, rfl⟩ fun watcher hwatcher => ?_)
    change (if r.engine.watcher = some client then none else r.engine.watcher) = some watcher at hwatcher
    split_ifs at hwatcher
    exact hwatcher

theorem tally_foldl_forgotten {clients : List ClientId} (h : client ∉ clients) :
    tally client (clients.foldl forgotten r) = tally client r := by
  induction clients generalizing r with
  | nil => rfl
  | cons gone rest ih =>
    have hother : gone ≠ client := fun heq => h (heq ▸ List.mem_cons_self)
    have hwatching : watching client (forgotten r gone).engine = watching client r.engine := by
      unfold watching forgotten
      by_cases hwatcher : r.engine.watcher = some gone
      · simp [hwatcher, hother]
      · simp [hwatcher]
    have hwaiting : waiting client (forgotten r gone) = waiting client r :=
      (waiting_finished (r := r) .ok [gone]).trans
        (if_neg fun hmem => hother (List.mem_singleton.mp hmem).symm)
    rw [List.foldl_cons, ih fun hmem => h (List.mem_cons_of_mem _ hmem), tally, tally, account, account,
      hwatching, hwaiting]
    rfl

/-! ## Runs -/

/-- No client waits twice for the same thing, as far as the event goes. -/
structure Singly (r : Reactor S E) (event : Event) : Prop where
  watch : ∀ client request, event = .request client request → client ∈ r.clients →
    ¬ r.Retakes client request
  due : event = .timer → ∀ client, .scan client ∈ r.engine.timers.expired r.engine.now →
    waiting client r ≤ 1
  scans : ∀ body wiphy ifindex, event = .wireless body → r.engine.nl = true →
    (Nl80211.Event.decode body = some (.scanComplete wiphy ifindex) ∨
      Nl80211.Event.decode body = some (.scanAborted wiphy ifindex)) →
    ∀ client ∈ r.waitingOn ifindex, ∀ s ∈ r.scans, s.client = client → s.ifindex = ifindex

/-- The requests of a client that an event brings. -/
def brought (client : ClientId) (r : Reactor S E) : Event → ℕ
  | .request sender request =>
    if sender = client ∧ client ∈ r.clients ∧ r.awaited client request = true then 1 else 0
  | _ => 0

theorem onWireless_tally {body : Bytes} {x : Except String Unit} (hsingly : r.Singly (.wireless body))
    (hrun : Runs (onWireless body) r x r') : tally client r' = tally client r := by
  have hfeed (event : Nl80211.Event) (r₁ : Reactor S E)
      (h : Runs (withEngine (Daemon.onWireless event)) r₁ x r') : tally client r' = tally client r₁ :=
    level_withEngine (spans_account.feed _) _ _ _ h
  rw [onWireless, runs_get_bind] at hrun
  split_ifs at hrun with hnl
  · cases hevent : Nl80211.Event.decode body with
    | none =>
      rw [hevent] at hrun
      obtain ⟨-, rfl⟩ := runs_pure.mp hrun
      rfl
    | some event =>
      rw [hevent] at hrun
      cases event with
      | scanComplete wiphy ifindex =>
        have hall (hmem : client ∈ r.waitingOn ifindex) := count_waitingOn
          (hsingly.scans body wiphy ifindex rfl hnl (.inl hevent) client hmem)
        rcases runs_bind.mp hrun with ⟨_, r₁, hdone, hrest⟩ | ⟨e, hdone, -⟩
        · exact (hfeed _ r₁ hrest).trans (onScanDone_tally hall hdone)
        · exact onScanDone_tally hall hdone
      | scanAborted wiphy ifindex =>
        have hall (hmem : client ∈ r.waitingOn ifindex) := count_waitingOn
          (hsingly.scans body wiphy ifindex rfl hnl (.inr hevent) client hmem)
        rcases runs_bind.mp hrun with ⟨_, r₁, hdone, hrest⟩ | ⟨e, hdone, -⟩
        · exact (hfeed _ r₁ hrest).trans (onScanAborted_tally hall hdone)
        · exact onScanAborted_tally hall hdone
      | _ => exact hfeed _ r hrun
  · obtain ⟨-, rfl⟩ := runs_pure.mp hrun
    rfl

/-- **One event** adds to the tally of a client what the client asks for. -/
theorem dispatch_tally {event : Event} {x : Except String Unit} (hsched : Scheduled [] r)
    (hsingly : r.Singly event) (hreap : ∀ gone, event ≠ .reap gone)
    (hrun : Runs (dispatch event) r x r') :
    tally client r' = tally client r + brought client r event := by
  by_cases haccept : event = .accept
  · subst haccept
    obtain ⟨-, rfl⟩ := runs_modify.mp hrun
    rfl
  by_cases hmine : Addresses r event client
  · cases event with
    | request sender request =>
      cases hmine
      rw [dispatch, runs_get_bind] at hrun
      split_ifs at hrun with hclient
      · rw [brought, tally_handle (hsingly.watch client request rfl hclient) hrun]
        simp [hclient]
      · obtain ⟨-, rfl⟩ := runs_pure.mp hrun
        simp [brought, hclient]
    | wireless body => exact onWireless_tally hsingly hrun
    | timer => exact (onTimer_tally hsched (hsingly.due rfl) hrun).2 client
    | suspendClock offset => exact checkResume_tally hrun
    | _ => exact hmine.elim
  · have hbrought : brought client r event = 0 := by
      cases event with
      | request sender request =>
        exact if_neg fun h => hmine h.1.symm
      | _ => rfl
    rw [hbrought]
    refine (hosted_tally (tally client r)).dispatch
      (fun _ => keeps_modify fun _ => id) haccept hreap (fun asker request heq _ => ?_)
      (fun asker hasker => ?_) rfl hrun
    · rintro rfl
      exact hmine (heq ▸ rfl)
    · rintro rfl
      exact hmine hasker

/-- What every run keeps, whatever is asked. -/
structure Kept (r : Reactor S E) : Prop where
  live : r.engine.Live
  scheduled : Scheduled [] r
  fresh : ∀ client ∈ r.clients, client < r.nextId

/-- A client is there, or has yet to come. -/
def Lasts (client : ClientId) (r : Reactor S E) : Prop := client ∈ r.clients ∨ r.nextId ≤ client

/-- What one event keeps, and what it comes to for the clients that last. -/
structure Steps (r r' : Reactor S E) (event : Event) : Prop extends Kept r' where
  lasts : ∀ client, Lasts client r' → Lasts client r
  counts : ∀ client, Lasts client r' → tally client r' = tally client r + brought client r event

theorem hosted_live (clients : List ClientId) (next : ClientId) :
    Hosted (S := S) (E := E) (fun _ => True) (fun _ => True) (fun _ : Unit => Live)
      fun r => r.clients = clients ∧ r.nextId = next ∧ r.engine.Live :=
  hosted_engine upheld_live admits_live (fun _ _ _ _ h hd => live_feed (turn_live_any hd) (fun _ => hd) h)
    (fun _ _ _ h => ⟨h.housed, h.watched⟩) fun _ _ h => ⟨h.housed, h.watched⟩

theorem steps_accept {x : Except String Unit} (h : Kept r) (hrun : Runs (dispatch .accept) r x r') :
    Steps r r' .accept := by
  obtain ⟨-, rfl⟩ := runs_modify.mp hrun
  refine ⟨⟨h.live, h.scheduled.of_eq rfl rfl, fun client hclient => ?_⟩, fun client hlasts => ?_,
    fun _ _ => rfl⟩
  · rcases List.mem_append.mp hclient with hclient | hclient
    · exact (h.fresh client hclient).trans (Nat.lt_succ_self _)
    · rw [List.mem_singleton.mp hclient]
      exact Nat.lt_succ_self _
  · rcases hlasts with hclient | hnext
    · rcases List.mem_append.mp hclient with hclient | hclient
      · exact .inl hclient
      · exact .inr (List.mem_singleton.mp hclient).ge
    · exact .inr (Nat.le_of_succ_le hnext)

theorem steps_reap {gone : List ClientId} {x : Except String Unit} (h : Kept r)
    (hrun : Runs (dispatch (.reap gone)) r x r') : Steps r r' (.reap gone) := by
  obtain ⟨-, rfl⟩ := runs_reap.mp hrun
  have hlasts (client : ClientId) (hl : Lasts client ((r.leaving gone).foldl forgotten
      { r with clients := r.clients.filter fun client => client ∉ gone })) :
      Lasts client r ∧ client ∉ r.leaving gone := by
    rw [Lasts, foldl_forgotten_clients, foldl_forgotten_nextId] at hl
    rcases hl with hclient | hnext
    · have hmem := List.mem_filter.mp hclient
      exact ⟨.inl hmem.1, fun hleaving => by
        simpa using absurd (List.mem_filter.mp hleaving).2 (by simpa using hmem.2)⟩
    · refine ⟨.inr hnext, fun hleaving => ?_⟩
      exact absurd (h.fresh client (List.mem_filter.mp hleaving).1) (not_lt.mpr hnext)
  refine ⟨⟨live_foldl_forgotten h.live, ?_, fun client hclient => ?_⟩, fun client hl =>
    (hlasts client hl).1, fun client hl => tally_foldl_forgotten (hlasts client hl).2⟩
  · exact scheduled_foldl_forgotten (h.scheduled.of_eq rfl rfl)
  · rw [foldl_forgotten_clients] at hclient
    rw [foldl_forgotten_nextId]
    exact h.fresh client (List.mem_filter.mp hclient).1

/-- **One event.** -/
theorem steps_dispatch {event : Event} {x : Except String Unit} (h : Kept r)
    (hsingly : r.Singly event) (hrun : Runs (dispatch event) r x r') : Steps r r' event := by
  by_cases haccept : event = .accept
  · subst haccept
    exact steps_accept h hrun
  by_cases hreap : ∃ gone, event = .reap gone
  · obtain ⟨gone, rfl⟩ := hreap
    exact steps_reap h hrun
  replace hreap (gone : List ClientId) : event ≠ .reap gone := fun heq => hreap ⟨gone, heq⟩
  obtain ⟨hclients, hnext, hlive⟩ := (hosted_live r.clients r.nextId).dispatch
    (fun _ => keeps_modify fun _ hr => ⟨hr.1, hr.2.1, hr.2.2.housed, hr.2.2.watched⟩) haccept hreap
    (fun _ _ _ _ => trivial) (fun _ _ => trivial) ⟨rfl, rfl, h.live⟩ hrun
  have hsched : Scheduled [] r' := by
    by_cases htimer : event = .timer
    · subst htimer
      exact (onTimer_tally h.scheduled (hsingly.due rfl) hrun).1
    · exact hosted_scheduled.dispatch (fun heq => absurd heq htimer) haccept hreap
        (fun _ _ _ _ => trivial) (fun _ _ => trivial) h.scheduled hrun
  have hlasts (client : ClientId) : Lasts client r' ↔ Lasts client r := by
    rw [Lasts, Lasts, hclients, hnext]
  refine ⟨⟨hlive, hsched, ?_⟩, fun client => (hlasts client).mp, fun client _ =>
    dispatch_tally h.scheduled hsingly hreap hrun⟩
  rw [hclients, hnext]
  exact h.fresh

theorem step_steps {woken : ℕ × Event} (h : Kept r) (hsingly : (r.wokenAt woken.1).Singly woken.2) :
    (step r woken).1 = r ∧ (dispatch woken.2).run.run (r.wokenAt woken.1) = none ∨
      Steps (r.wokenAt woken.1) (step r woken).1 woken.2 ∧
        ((dispatch woken.2).run.run (r.wokenAt woken.1)).isSome := by
  have hkept : Kept (r.wokenAt woken.1) :=
    ⟨⟨h.live.housed, h.live.watched⟩, h.scheduled.of_eq rfl rfl, h.fresh⟩
  cases hrun : (dispatch woken.2).run.run (r.wokenAt woken.1) with
  | none => exact .inl ⟨by simp [step, hrun], rfl⟩
  | some p =>
    have heq : (step r woken).1 = p.2 := by simp [step, hrun]
    exact .inr ⟨heq ▸ steps_dispatch hkept hsingly (x := p.1) hrun, rfl⟩

/-- The requests of a client that a step takes, unless the daemon panics over one. -/
def taken (client : ClientId) (e : Entry (Reactor S E) (ℕ × Event) Unit) : ℕ :=
  if ((dispatch e.input.2).run.run (e.pre.wokenAt e.input.1)).isSome then
    brought client e.pre e.input.2
  else 0

/-- The requests of a client that a run took. -/
def requests (client : ClientId) (past : List (Entry (Reactor S E) (ℕ × Event) Unit)) : ℕ :=
  (past.map (taken client)).sum

/-- **Every request of a client was answered once, or is waited for**: the connection is on its way,
and a scan has its deadline. -/
structure Accounts (client : ClientId) (past : List (Entry (Reactor S E) (ℕ × Event) Unit))
    (r : Reactor S E) : Prop where
  answered : responses client r.engine + (watching client r.engine + waiting client r) =
    requests client past
  watched : r.engine.watcher = some client → r.engine.state ≠ .idle ∧ r.engine.state ≠ .connected
  scanned : 0 < waiting client r → ∃ due, (.scan client, due) ∈ r.engine.timers.entries

theorem Kept.accounts {past : List (Entry (Reactor S E) (ℕ × Event) Unit)} (h : Kept r)
    (htally : tally client r = requests client past) : Accounts client past r where
  answered := (Nat.add_assoc _ _ _).symm.trans htally
  watched hwatcher := by
    obtain ⟨core, hcore, hstate⟩ := h.live.watched client hwatcher
    simpa [Daemon.state, hcore] using hstate
  scanned hwaiting :=
    Timers.mem_scanKeys _ |>.mp (((h.scheduled.armed client).mp hwaiting).resolve_right List.not_mem_nil)

theorem kept_start (world : E.World) (nl rtnl autoconnect : Bool) (offset : ℕ) :
    Kept (start world nl rtnl autoconnect offset : Reactor S E) := by
  refine ⟨.of_unwatched ?_ ?_, ⟨fun client => ?_, ?_⟩, nofun⟩
  · cases autoconnect <;> rfl
  · cases autoconnect <;> rfl
  · cases autoconnect <;> simp [start, waiting, Timers.scanKeys, Daemon.start, Timers.arm, Key.isScan]
  · cases autoconnect <;> simp [start, Timers.scanKeys, Daemon.start, Timers.arm, Key.isScan]

/-- A loop whose clients have all been answered, or wait. -/
def Accounted (past : List (Entry (Reactor S E) (ℕ × Event) Unit)) (r : Reactor S E) : Prop :=
  Kept r ∧ ∀ client, Lasts client r → tally client r = requests client past

theorem step_accounted {past : List (Entry (Reactor S E) (ℕ × Event) Unit)} {woken : ℕ × Event}
    (h : Accounted past r) (hsingly : (r.wokenAt woken.1).Singly woken.2) :
    Accounted (past ++ [entry step r woken]) (step r woken).1 := by
  have hrequests (client : ClientId) : requests client (past ++ [entry step r woken]) =
      requests client past + taken client (entry step r woken) := by
    simp [requests]
  rcases step_steps h.1 hsingly with ⟨hsame, hpanic⟩ | ⟨hsteps, hsome⟩
  · have htaken (client : ClientId) : taken client (entry step r woken) = 0 := by
      simp [taken, hpanic]
    rw [hsame]
    refine ⟨h.1, fun client hlasts => ?_⟩
    rw [hrequests, htaken]
    exact h.2 client hlasts
  · refine ⟨hsteps.toKept, fun client hlasts => ?_⟩
    have htaken : taken client (entry step r woken) =
        brought client (r.wokenAt woken.1) woken.2 := by
      rw [taken, entry_pre, entry_input, if_pos hsome]
      cases woken.2 <;> rfl
    rw [hrequests, htaken, ← h.2 client (hsteps.lasts client hlasts)]
    exact hsteps.counts client hlasts

/-- **Every request is answered once** throughout a run in which no client waits twice for the same
thing, as long as the client is there. -/
theorem accounts_run (world : E.World) (nl rtnl autoconnect : Bool) (offset : ℕ)
    (events : List (ℕ × Event))
    (hsingly : Along (fun _ e => (e.pre.wokenAt e.input.1).Singly e.input.2)
      (log step (start world nl rtnl autoconnect offset) events)) :
    Along (fun past e => ∀ client ∈ e.post.clients, Accounts client (past ++ [e]) e.post)
      (log step (start world nl rtnl autoconnect offset) events) := by
  refine along_of_inv (J := Accounted) ⟨kept_start world nl rtnl autoconnect offset, fun client _ => ?_⟩
    (fun past r woken h hsingly => step_accounted h hsingly)
    (fun past r woken h hsingly client hclient => ?_) events hsingly
  · cases autoconnect <;> rfl
  · obtain ⟨hkept, htally⟩ := step_accounted h hsingly
    exact hkept.accounts (htally client (.inl hclient))

theorem singly_accept : r.Singly .accept where
  watch := nofun
  due := nofun
  scans := nofun

theorem singly_request {request : Request} (h : r.engine.watcher ≠ some client) :
    r.Singly (.request client request) where
  watch sender request' heq _ hretakes := by
    cases heq
    exact h hretakes.watching
  due := nofun
  scans := nofun

theorem singly_timer (scanning : List ClientId)
    (hscanning : r.scans.map PendingScan.client = scanning) (hnodup : scanning.Nodup) :
    r.Singly .timer where
  watch := nofun
  due _ client _ := by
    have hcount : waiting client r = scanning.count client := by
      rw [← hscanning, List.count, List.countP_map, waiting]
      rfl
    rw [hcount]
    exact List.nodup_iff_count_le_one.mp hnodup client
  scans := nofun

/-- A loop with one radio, whose scans find nothing. -/
def sampleIdle : Reactor .sample .sample := start [] true true false 0

/-- Two clients ask for the same network, and one of them for a scan that nobody ends. -/
def sampleTurns : List (ℕ × Event) :=
  [(0, .accept), (1, .accept), (2, .request 1 (.scan none)), (3, .request 2 (.connect "n" none)),
    (4, .request 1 (.connect "n" none)), (20000, .timer)]

theorem accounts_run_sample :
    Along (fun past e => ∀ client ∈ e.post.clients, Accounts client (past ++ [e]) e.post)
      (log step sampleIdle sampleTurns) ∧
    (exec step sampleIdle sampleTurns).clients = [1, 2] := by
  refine ⟨accounts_run (E := .sample) [] true true false 0 sampleTurns
    (along_iff_forall.mpr ?_), by decide +kernel⟩
  intro e he
  simp only [sampleTurns, log, List.mem_cons, List.not_mem_nil, or_false] at he
  rcases he with rfl | rfl | rfl | rfl | rfl | rfl
  · exact singly_accept
  · exact singly_accept
  · exact singly_request (by decide +kernel)
  · exact singly_request (by decide +kernel)
  · exact singly_request (by decide +kernel)
  · exact singly_timer [1] (by decide +kernel) (by decide)

/-- A client asks for a network twice, the second time while the first is under way. -/
def sampleAgain : List (ℕ × Event) :=
  [(0, .accept), (1, .request 1 (.connect "n" none)), (2, .request 1 (.connect "n" none))]

/-- A client asks for a scan twice, and nobody ends either. -/
def sampleScans : List (ℕ × Event) :=
  [(0, .accept), (1, .request 1 (.scan none)), (2, .request 1 (.scan none)), (20000, .timer)]

/-- **A client that waits twice** is answered once: neither of its first requests is answered, nor
waited for. -/
theorem accounts_fail :
    1 ∈ (exec step sampleIdle sampleAgain).clients ∧
      ¬ Accounts 1 (log step sampleIdle sampleAgain) (exec step sampleIdle sampleAgain) ∧
    1 ∈ (exec step sampleIdle sampleScans).clients ∧
      ¬ Accounts 1 (log step sampleIdle sampleScans) (exec step sampleIdle sampleScans) := by
  refine ⟨by decide +kernel, fun h => ?_, by decide +kernel, fun h => ?_⟩
  · exact absurd h.answered (by decide +kernel)
  · exact absurd h.answered (by decide +kernel)

end Reactor

end Caw
