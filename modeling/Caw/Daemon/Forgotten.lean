import Caw.Daemon.Ledger

/-!
# Networks that are forgotten

A network whose profile is deleted is joined again only when it is asked for, once the core does not know
it any more.

* `Daemon.Forgotten`: it is neither saved nor known to the core;
* **`forgotten_forget`**, **`forgotten_handle`**: what makes a network forgotten, and what keeps it so;
* `InStep`, `Agreed`, **`in_step_run`**: in a run that leaves no profile of a network behind in memory,
  both sides agree about it and once it is forgotten it stays so;
* `mirrored_fails`: a store that cannot be read, and a network that is joined again.
-/

set_option autoImplicit false

namespace Caw

open Caw.Core

namespace Daemon

open Effect
open Machine (Entry exec log Along Latest run_induction along_of_inv latest_concat not_latest_nil)

variable {S : Platform} {E : System S} {d d' : Daemon S E} {serde : Serde}
  {dir : E.World → Option Dir} {ssid : Bytes} {n : ℕ}

/-- The action performed joins the network. -/
def Done.joins (ssid : Bytes) : Done → Bool
  | .perform (.associate req) => req.ssid = ssid
  | .perform (.authenticate req) => req.ssid = ssid
  | _ => false

theorem Done.joins_eq_false {ssid : Bytes} {action : Core.Action}
    (h : Connection.named action ≠ some ssid) : (Done.perform action).joins ssid = false := by
  cases action with
  | associate req => exact decide_eq_false fun heq => h (congrArg some heq)
  | authenticate req => exact decide_eq_false fun heq => h (congrArg some heq)
  | _ => rfl

/-- The network is not saved and the core does not know it; so often it was joined. -/
structure Forgotten (serde : Serde) (dir : E.World → Option Dir) (ssid : Bytes) (n : ℕ)
    (d : Daemon S E) : Prop where
  written : Store.Written serde (dir d.world)
  off : ∀ q ∈ Store.loadAll serde (dir d.world), q.ssid ≠ ssid
  unknown : ∀ core, d.core = some core → ¬ core.Knows ssid
  joins : d.journal.countP (Done.joins ssid) = n

theorem Forgotten.of {more : List Done} (h : Forgotten serde dir ssid n d)
    (hwritten : Store.Written serde (dir d'.world))
    (hoff : ∀ q ∈ Store.loadAll serde (dir d'.world), q.ssid ≠ ssid)
    (hunknown : ∀ core, d'.core = some core → ¬ core.Knows ssid)
    (hjournal : d'.journal = d.journal ++ more) (hmore : ∀ done ∈ more, done.joins ssid = false) :
    Forgotten serde dir ssid n d' := by
  refine ⟨hwritten, hoff, hunknown, ?_⟩
  have hnone : more.countP (Done.joins ssid) = 0 :=
    List.countP_eq_zero.mpr fun done hmem => by rw [hmore done hmem]; exact Bool.false_ne_true
  rw [hjournal, List.countP_append, hnone, h.joins, Nat.add_zero]

theorem Forgotten.aside (h : Forgotten serde dir ssid n d) (haside : Aside dir d d') :
    Forgotten serde dir ssid n d' := by
  obtain ⟨more, heq, hmore⟩ := haside.journal
  refine h.of (haside.dir.symm ▸ h.written) (haside.dir.symm ▸ h.off) (haside.core ▸ h.unknown) heq
    fun done hmem => ?_
  have hdone := hmore done hmem
  cases done with
  | perform action => cases hdone
  | _ => rfl

theorem aside_supersede (client : ClientId) (reason : String) :
    Aside dir d (d.afterSupersede client reason) := by
  unfold afterSupersede
  split
  · exact aside_same rfl rfl rfl
  · split_ifs
    · exact ⟨rfl, rfl, _, rfl, by simp [Done.aside]⟩
    · exact aside_same rfl rfl rfl

section Store

variable (hE : Stores E serde dir)
include hE

theorem Forgotten.polled (h : Forgotten serde dir ssid n d) {core : Connection S} {input : Input}
    (hunknown : ¬ core.Knows ssid) : Forgotten serde dir ssid n (d.polled core input) := by
  have hworld : dir (d.polled core input).world = dir d.world := hE.draws _
  refine h.of (hworld.symm ▸ h.written) (hworld.symm ▸ h.off) ?_ rfl (by simp [Done.joins])
  rintro core' ⟨⟩
  exact hunknown

theorem forgotten_deletes (other : Bytes) : Keeps (Keeping (Forgotten serde dir ssid n))
    (request (.deleteProfile other) id : EngineM S E Bool) := by
  intro d r d' h hd
  obtain ⟨rfl, -⟩ := runs_asked h
  refine hd.of (hE.written hd.written _) (fun q hq => ?_) hd.unknown rfl (by simp [Done.joins])
  exact hd.off q ((hE.mem_deleted hd.written).mp hq).1

theorem forgotten_saveProfile {p : Profile} (hp : p.ssid ≠ ssid) :
    Keeps (Keeping (Forgotten serde dir ssid n)) (saveProfile p : EngineM S E Unit) := by
  have hsaved (d : Daemon S E) (hd : Forgotten serde dir ssid n d) (core : Option (Connection S))
      (hunknown : ∀ c, core = some c → ¬ c.Knows ssid) (ok : Bool) :
      Forgotten serde dir ssid n { d.record (.call (.saveProfile p) ok) with
        world := (E.call (.saveProfile p) d.world).2, core := core } := by
    refine hd.of (hE.written hd.written _) (fun q hq => ?_) hunknown rfl (by simp [Done.joins])
    rw [hE.mem_saved hd.written] at hq
    split_ifs at hq
    · rcases hq with rfl | ⟨hq, -⟩
      · exact hp
      · exact hd.off q hq
    · exact hd.off q hq
  intro d r d' h hd
  rcases runs_bind.mp h with ⟨reply, d₁, hrequest, hinsert⟩ | ⟨e, hrequest, -⟩
  · obtain ⟨rfl, -⟩ := runs_asked hrequest
    obtain ⟨-, rfl⟩ := runs_modify.mp hinsert
    refine hsaved d hd _ (fun c hc hknows => ?_) _
    obtain ⟨core, hcore, rfl⟩ := Option.map_eq_some_iff.mp hc
    exact (Connection.knows_insertProfile hknows).elim (hd.unknown core hcore) hp
  · obtain ⟨rfl, -⟩ := runs_asked hrequest
    exact hsaved d hd d.core hd.unknown _

theorem tends_forgotten : Tends (fun input => input ≠ .command (.connect ssid))
    (fun action => Connection.named action ≠ some ssid)
    (Forgotten serde dir ssid n : Daemon S E → Prop) where
  toSpares := (spares_aside hE).mono fun _ _ haside hd => hd.aside haside
  toSpeaks := speaks_aside.mono fun _ _ haside hd => hd.aside haside
  dhcp _ _ hd := hd.aside (aside_same rfl rfl rfl)
  polls d core input q hinput hcore hpoll hd := by
    obtain ⟨hunknown, hnamed⟩ := Connection.not_knows_poll (hd.unknown core hcore) hinput hpoll
    exact ⟨hd.polled hE hunknown, hnamed⟩
  performs d action haction hd := hd.of hd.written hd.off hd.unknown rfl
    (by simpa using Done.joins_eq_false haction)
  saves p hp := forgotten_saveProfile hE fun heq => hp (congrArg some heq)
  idles _ h := by
    rw [h.unnamed.1]
    exact (Option.some_ne_none ssid).symm
  leaves := by rintro ⟨⟩
  scans scan := by rintro ⟨⟩

theorem hosts_forgotten : Hosts (fun input => input ≠ .command (.connect ssid))
    (Keeping (Forgotten serde dir ssid n : Daemon S E → Prop)) := by
  refine (tends_forgotten hE).hosts (fun _ _ hd => hd.aside (aside_same rfl rfl rfl))
    (fun _ hd => ⟨hd.written, hd.off, by rintro _ ⟨⟩, hd.joins⟩) fun device d r d' h hd => ?_
  rcases runs_bind.mp h with ⟨profiles, d₁, hload, hrest⟩ | ⟨e, hload, -⟩
  · obtain ⟨_, ok, hr, rfl, hdir, hprofiles⟩ := runs_loadProfiles hE hload
    cases hr
    rw [runs_modify_bind] at hrest
    refine (tends_forgotten hE).stopDhcp _ _ _ hrest ?_
    refine hd.of (hdir.symm ▸ hd.written) (hdir.symm ▸ hd.off) ?_ rfl (by simp [Done.joins])
    rintro core ⟨⟩ (haim | ⟨q, hq, hssid⟩)
    · cases haim
    · cases ok with
      | true => exact hd.off q ((hprofiles q).mp hq) hssid
      | false =>
        cases hprofiles
        cases hq
  · obtain ⟨_, _, hr, -⟩ := runs_loadProfiles hE hload
    cases hr

/-- **An event that does not ask for the network.** -/
theorem forgotten_handle {name : String} {event : Event}
    (hasks : ∀ ifindex client, event ≠ .connect ifindex name client) :
    Keeps (Keeping (Forgotten serde dir (octetsOf name) n)) (handle event : EngineM S E Unit) := by
  have hhosts : Hosts _ (Keeping (Forgotten serde dir (octetsOf name) n : Daemon S E → Prop)) :=
    hosts_forgotten hE
  have htends : Tends _ _ (Forgotten serde dir (octetsOf name) n : Daemon S E → Prop) :=
    tends_forgotten hE
  have hfeeds (input : Input) (hmay : event.MayFeed input) :
      input ≠ .command (.connect (octetsOf name)) := by
    rintro rfl
    obtain ⟨ifindex, ssid, client, hevent, hssid⟩ := hmay.2 _ rfl
    exact hasks ifindex client (by rw [hevent, Store.octetsOf_injective hssid])
  cases event with
  | forget ssid client =>
    exact keeps_bind (hhosts.forget client (forgotten_deletes hE _) (by rintro ⟨⟩)) fun _ => keeps_pure _
  | datagram bytes =>
    exact keeps_onDhcpDatagram (fun _ => hhosts.feeds _ (by rintro ⟨⟩)) htends.driveDhcp bytes
  | dhcpTimer timer =>
    exact keeps_onDhcpTimer (fun _ => hhosts.feeds _ (by rintro ⟨⟩)) htends.driveDhcp
      htends.stopDhcp timer
  | _ =>
    refine hhosts.handle ?_ fun input => hfeeds input
    exact trivial

/-- **A network that is forgotten**: its profile is deleted, and it is left if it is the one joined. -/
theorem forgotten_forget {name : String} {client : ClientId} {begun : Bool}
    (h : Runs (forget name client) d (.ok begun) d') (hwritten : Store.Written serde (dir d.world))
    (hforgets : .call (.deleteProfile (octetsOf name)) true ∈ d'.journal.drop d.journal.length →
      ∀ core, d.core = some core → ∀ q ∈ core.profiles, q.ssid ≠ octetsOf name) :
    ∃ n, Forgotten serde dir (octetsOf name) n d' := by
  obtain ⟨⟨rest, hjournal⟩, hok, hout⟩ := runs_forget_after h
  have hprofiles := hforgets (mem_of_afterDelete hjournal (hok begun rfl))
  have hwritten' : Store.Written serde (dir (d.afterDelete (octetsOf name)).world) :=
    hE.written hwritten _
  have hoff : ∀ q ∈ Store.loadAll serde (dir (d.afterDelete (octetsOf name)).world),
      q.ssid ≠ octetsOf name := fun q hq => ((hE.mem_deleted hwritten).mp hq).2 (hok begun rfl)
  rcases hout with ⟨rfl, hother⟩ | hleave
  · refine ⟨_, hwritten', hoff, fun core hcore hknows => ?_, rfl⟩
    rcases hknows with haim | ⟨q, hq, hssid⟩
    · refine hother begun rfl ?_
      obtain ⟨target, htarget, hssid⟩ := Option.map_eq_some_iff.mp haim
      rw [Daemon.ssid, hcore, Option.bind_some, htarget, Option.map_some, hssid, octetsOf,
        Text.lossy_toUTF8]
    · exact hprofiles core hcore q hq hssid
  · rcases runs_disconnect hleave with ⟨_, hr, -⟩ | ⟨-, hssid, hretaken⟩
    · cases hr
    obtain ⟨-, hfeed⟩ := runs_retaken hretaken
    generalize hd₁ : (d.afterDelete (octetsOf name)).afterSupersede client _ = d₁ at hfeed
    have haside : Aside dir (d.afterDelete (octetsOf name)) d₁ := hd₁ ▸ aside_supersede client _
    obtain ⟨n, hjoins⟩ : ∃ n, d₁.journal.countP (Done.joins (octetsOf name)) = n := ⟨_, rfl⟩
    refine ⟨n, (tends_forgotten hE (n := n)).feed_of ?_ (fun hnone => ?_) hfeed⟩
    · intro core q x d₂ hcore hpoll hrun
      refine (tends_forgotten hE).outcome (fun action hmem => ?_) hrun
        ⟨?_, ?_, ?_, by simpa [Done.joins] using hjoins⟩
      · rw [(Idles.unnamed ⟨core, _, q, hpoll, hmem⟩).1]
        exact (Option.some_ne_none _).symm
      · rw [hE.draws, haside.dir]
        exact hwritten'
      · rw [hE.draws, haside.dir]
        exact hoff
      · cases Option.some.inj hpoll
        rintro core' ⟨⟩ (haim | ⟨q, hq, hssid⟩)
        · cases haim
        · exact hprofiles core (haside.core ▸ hcore) q hq hssid
    · rw [haside.core] at hnone
      have hsome := isSome_core_of_ssid hssid
      rw [hnone] at hsome
      cases hsome

end Store

/-! ## Runs -/

/-- Of one network, the step deletes no profile that is in memory, and saves what it has the core take
up. -/
structure InStep (ssid : Bytes) (e : Entry (Daemon S E) (ℕ × Event) Unit) : Prop where
  forgets : .call (.deleteProfile ssid) true ∈ deeds e →
    ∀ core, e.pre.core = some core → ∀ p ∈ core.profiles, p.ssid ≠ ssid
  saves : ∀ p ∈ e.pre.learned e.input.2, p.ssid = ssid → .call (.saveProfile p) true ∈ deeds e

/-- A request about a network: to join it, or one to forget it that succeeds. -/
inductive Concerns (ssid : String) (e : Entry (Daemon S E) (ℕ × Event) Unit) : Bool → Prop
  | asked {ifindex client} : e.input.2 = .connect ifindex ssid client → Concerns ssid e true
  | forgot {client} : e.input.2 = .forget ssid client →
      e.pre.wake e.input.1 e.input.2 = some (.ok (), e.post) → Concerns ssid e false

/-- If the profile of the network was deleted, it is not joined in this step, unless it is asked for. -/
def Shuns (ssid : String) (past : List (Entry (Daemon S E) (ℕ × Event) Unit))
    (e : Entry (Daemon S E) (ℕ × Event) Unit) : Prop :=
  Latest (Concerns ssid) past false → (∀ ifindex client, e.input.2 ≠ .connect ifindex ssid client) →
    ∀ done ∈ deeds e, done.joins (octetsOf ssid) = false

/-- After the step memory and disk hold the same profiles, and no network that is forgotten is joined. -/
structure Mirrored (serde : Serde) (dir : E.World → Option Dir)
    (past : List (Entry (Daemon S E) (ℕ × Event) Unit)) (e : Entry (Daemon S E) (ℕ × Event) Unit) :
    Prop where
  profiles : ∀ core, e.post.core = some core →
    ∀ p, p ∈ core.profiles ↔ p ∈ Store.loadAll serde (dir e.post.world)
  shuns : ∀ ssid, Shuns ssid past e

/-- The same of one network, where the store may have more than memory if it could not be read when that
was last tried. -/
structure Agreed (serde : Serde) (dir : E.World → Option Dir) (ssid : Bytes)
    (past : List (Entry (Daemon S E) (ℕ × Event) Unit)) (e : Entry (Daemon S E) (ℕ × Event) Unit) :
    Prop where
  known : ∀ core, e.post.core = some core →
    ∀ p ∈ core.profiles, p.ssid = ssid → p ∈ Store.loadAll serde (dir e.post.world)
  complete : ¬ e.post.Unread → ∀ core, e.post.core = some core →
    ∀ p ∈ Store.loadAll serde (dir e.post.world), p.ssid = ssid → p ∈ core.profiles
  shuns : ∀ name, octetsOf name = ssid → Shuns name past e

section Runs

variable (hE : Stores E serde dir)
include hE

theorem booked_step (hd : Booked serde dir ssid none d) {woken : ℕ × Event}
    (h : InStep ssid (Machine.entry step d woken)) : Booked serde dir ssid none (step d woken).1 := by
  rcases step_runs d woken with hstep | ⟨r, hrun⟩
  · rw [hstep]
    exact hd
  · exact booked_handle hE hrun ⟨hd.written, hd.known, hd.complete⟩ h.forgets h.saves

theorem forgotten_step {name : String} {woken : ℕ × Event}
    (hasks : ∀ ifindex client, woken.2 ≠ .connect ifindex name client)
    (hd : Forgotten serde dir (octetsOf name) n d) :
    Forgotten serde dir (octetsOf name) n (step d woken).1 := by
  rcases step_runs d woken with hstep | ⟨r, hrun⟩
  · rw [hstep]
    exact hd
  · exact forgotten_handle hE hasks _ _ _ hrun ⟨hd.written, hd.off, hd.unknown, hd.joins⟩

theorem forgotten_forgot {name : String} {client : ClientId} {now : ℕ}
    (hwritten : Store.Written serde (dir d.world))
    (h : InStep (octetsOf name) (Machine.entry step d (now, .forget name client)))
    (hwake : d.wake now (.forget name client) = some (.ok (), (step d (now, .forget name client)).1)) :
    ∃ n, Forgotten serde dir (octetsOf name) n (step d (now, .forget name client)).1 := by
  have hrun : Runs (handle (.forget name client)) { d with now := now } (.ok ())
      (step d (now, .forget name client)).1 := hwake
  rcases runs_bind.mp hrun with ⟨begun, d₁, hforget, hpure⟩ | ⟨e, -, hr⟩
  · obtain ⟨-, heq⟩ := runs_pure.mp hpure
    rw [← heq] at hforget
    exact forgotten_forget hE hforget hwritten h.forgets
  · cases hr

/-- **In a run whose steps delete no profile of a network that is in memory** and save what they have the
core take up of it, memory and disk agree about the network, and once it is forgotten it stays so. -/
theorem in_step_run {world : E.World} (hwritten : Store.Written serde (dir world)) (nl rtnl : Bool)
    (ssid : Bytes) (woken : List (ℕ × Event))
    (h : Along (fun _ e => InStep ssid e) (log step (start world nl rtnl) woken)) :
    Along (Agreed serde dir ssid) (log step (start world nl rtnl) woken) := by
  refine along_of_inv (J := fun past d => Booked serde dir ssid none d ∧ ∀ name, octetsOf name = ssid →
      Latest (Concerns name) past false → ∃ n, Forgotten serde dir (octetsOf name) n d) ?_ ?_ ?_ woken h
  · exact ⟨⟨hwritten, by rintro _ ⟨⟩, fun _ => by rintro _ ⟨⟩⟩, fun _ _ hlatest =>
      absurd hlatest (not_latest_nil _)⟩
  · rintro past d i ⟨hbooked, hgone⟩ hin
    refine ⟨booked_step hE hbooked hin, fun name hname hlatest => ?_⟩
    rcases (latest_concat _ _ _).mp hlatest with hforgot | ⟨hnone, hlatest⟩
    · obtain ⟨now, event⟩ := i
      cases hforgot with
      | forgot hevent hwake =>
        cases hevent
        exact forgotten_forgot hE hbooked.written (hname ▸ hin) hwake
    · obtain ⟨n, hforgotten⟩ := hgone name hname hlatest
      exact ⟨n, forgotten_step hE (fun ifindex client heq => hnone true (.asked heq)) hforgotten⟩
  · rintro past d i ⟨hbooked, hgone⟩ hin
    have hpost : Booked serde dir ssid none (step d i).1 := booked_step hE hbooked hin
    refine ⟨fun core hcore p hp hssid => expected_none.mp (hpost.known core hcore p hp hssid),
      fun hread core hcore p hp hssid =>
        hpost.complete hread core hcore p hssid (expected_none.mpr hp), ?_⟩
    intro name hname hlatest hasks done hmem
    obtain ⟨n, hforgotten⟩ := hgone name hname hlatest
    have hjoins := (forgotten_step hE hasks hforgotten).joins
    rw [deeds_eq, List.countP_append, hforgotten.joins, Nat.add_eq_left, List.countP_eq_zero] at hjoins
    exact eq_false_of_ne_true (hjoins done hmem)

end Runs

/-! ### Samples -/

/-- A profile that is deleted, and one that is saved. -/
def Done.deleted : Done → Option Bytes
  | .call (.deleteProfile ssid) true => some ssid
  | _ => none

/-- A profile that is saved. -/
def Done.saved : Done → Option Profile
  | .call (.saveProfile p) true => some p
  | _ => none

theorem mem_deleted {ssid : Bytes} {done : List Done} :
    ssid ∈ done.filterMap Done.deleted ↔ .call (.deleteProfile ssid) true ∈ done := by
  rw [List.mem_filterMap]
  constructor
  · rintro ⟨x, hmem, hx⟩
    unfold Done.deleted at hx
    split at hx
    · cases hx
      exact hmem
    · cases hx
  · exact fun hmem => ⟨_, hmem, rfl⟩

theorem mem_saved {p : Profile} {done : List Done} :
    p ∈ done.filterMap Done.saved ↔ .call (.saveProfile p) true ∈ done := by
  rw [List.mem_filterMap]
  constructor
  · rintro ⟨x, hmem, hx⟩
    unfold Done.saved at hx
    split at hx
    · cases hx
      exact hmem
    · cases hx
  · exact fun hmem => ⟨_, hmem, rfl⟩

theorem inStep_iff {e : Entry (Daemon S E) (ℕ × Event) Unit} : InStep ssid e ↔
    (ssid ∈ (deeds e).filterMap Done.deleted → ∀ core ∈ e.pre.core, ∀ p ∈ core.profiles,
      p.ssid ≠ ssid) ∧
    ∀ p ∈ e.pre.learned e.input.2, p.ssid = ssid → p ∈ (deeds e).filterMap Done.saved := by
  simp only [mem_deleted, mem_saved]
  exact ⟨fun h => ⟨h.forgets, h.saves⟩, fun h => ⟨h.1, h.2⟩⟩

instance (e : Entry (Daemon S E) (ℕ × Event) Unit) : Decidable (InStep ssid e) :=
  decidable_of_iff _ inStep_iff.symm

/-- A system with a store on disk, which may be unreadable; each scan finds the next list of
networks. -/
def System.stored (serde : Serde) : System .sample where
  World := Option Dir × Bool × List (List Bss)
  call op world := match op with
    | .scanResults _ => (.ok (world.2.2.head?.getD []), world.1, world.2.1, world.2.2.tail)
    | .loadProfiles =>
      (if world.2.1 then .ok (Store.loadAll serde world.1) else .error ⟨none, "unreadable"⟩, world)
    | .saveProfile p => match Store.save serde world.1 p with
      | (.ok _, dir) => (.ok (), dir, world.2)
      | (.error _, dir) => (.error ⟨none, "cannot be saved"⟩, dir, world.2)
    | .deleteProfile ssid => match Store.delete world.1 ssid with
      | (.ok deleted, dir) => (.ok deleted, dir, world.2)
      | (.error _, _) => (.error ⟨none, "cannot be deleted"⟩, world)
    | op => (.ok op.sampleReply, world)
  draw world := (.sample, world)

theorem stores_stored
    (hserde : ∀ p json, serde.toVecPretty p = some json → serde.fromSlice json = some p) :
    Stores (System.stored serde) serde Prod.fst where
  reads := hserde
  draws _ := rfl
  others op w hsave hdelete := by
    cases op with
    | saveProfile p => exact absurd rfl (hsave p)
    | deleteProfile ssid => exact absurd rfl (hdelete ssid)
    | _ => rfl
  loads w profiles h p := by
    obtain ⟨dir, readable, scans⟩ := w
    cases readable with
    | true =>
      cases h
      rfl
    | false => cases h
  saves w p h := by
    simp only [System.stored] at h ⊢
    split at h
    · rename_i heq
      rw [heq]
    · cases h
  loses w p h := by
    simp only [System.stored] at h ⊢
    split at h
    · cases h
    · rename_i e dir heq
      exact .inr ⟨e, by rw [heq]⟩
  deletes w ssid deleted h := by
    simp only [System.stored] at h ⊢
    split at h
    · rename_i heq
      cases h
      rw [heq]
    · cases h
  spares w ssid h := by
    simp only [System.stored] at h ⊢
    split at h
    · cases h
    · rfl

/-- The profile a join of the sample network saves. -/
def sampleProfile : Profile := { Profile.new [0x6e] .open .none with autoconnect := true }

/-- The profile of another network. -/
def sampleOther : Profile := .new [0x6d] .open .none

/-- Only these profiles can be written. -/
def sampleSerde : Serde where
  fromSlice bytes :=
    if bytes = [0x7b] then some sampleProfile else if bytes = [0x7c] then some sampleOther else none
  toVecPretty p :=
    if p = sampleProfile then some [0x7b] else if p = sampleOther then some [0x7c] else none

theorem sampleSerde_reads (p : Profile) (json : Bytes) (h : sampleSerde.toVecPretty p = some json) :
    sampleSerde.fromSlice json = some p := by
  simp only [sampleSerde] at h ⊢
  split_ifs at h with hp hother
  · cases h
    rw [hp]
    rfl
  · cases h
    rw [hother]
    rfl

/-- A daemon with a store, and the sample network around it. -/
def sampleStored (dir : Option Dir) (readable : Bool) : Daemon .sample (System.stored sampleSerde) :=
  start (dir, readable, [[Connection.sampleBss], [Connection.sampleBss]]) true true

/-- The same, where the network was saved before. -/
def sampleSaved (readable : Bool) : Daemon .sample (System.stored sampleSerde) :=
  sampleStored (Store.save sampleSerde none sampleProfile).2 readable

/-- The same, where another network was saved too. -/
def sampleBoth : Daemon .sample (System.stored sampleSerde) :=
  sampleStored (Store.save sampleSerde (Store.save sampleSerde none sampleProfile).2 sampleOther).2 true

/-- Results of a scan are there. -/
def sampleScanned : Event := .notification [Nl80211.cmdNewScanResults, 1, 0, 0]

theorem concerns_forgot {ssid : String} {client : ClientId} {now : ℕ}
    (h : (d.wake now (.forget ssid client)).any (fun p => p.1.isOk) = true) :
    Concerns ssid (Machine.entry step d (now, .forget ssid client)) false := by
  obtain ⟨⟨r, d'⟩, hwake, hr⟩ := (Option.any_eq_true _ _).mp h
  cases r with
  | error e => cases hr
  | ok =>
    refine .forgot rfl ?_
    rw [Machine.entry_post, step, hwake]
    exact hwake

/-- A network that is joined and saved, until its interface goes away. -/
def sampleRemoved : List (ℕ × Event) := sampleLeased ++ [(5, .link (.removed 3))]

/-- It is forgotten, and the interface comes back. -/
def sampleForgotten : List (ℕ × Event) :=
  sampleRemoved ++ [(6, .forget "n" 7), (7, .autoconnect 3)]

/-- It is forgotten while the core knows it, and joined again. -/
def sampleRejoined : List (ℕ × Event) := [(0, .autoconnect 3), (1, .forget "n" 7), (2, sampleScanned)]

theorem in_step_run_sample :
    Store.loadAll sampleSerde (exec step (sampleStored none true) sampleLeased).world.1 =
        [sampleProfile] ∧
      (∀ done ∈ deeds (Machine.entry step (exec step (sampleStored none true) sampleForgotten)
        (8, sampleScanned)), done.joins (octetsOf "n") = false) ∧
      ∀ core, (exec step sampleBoth sampleRejoined).core = some core → sampleOther ∈ core.profiles := by
  refine ⟨by decide +kernel, ?_, fun core hcore => ?_⟩
  · have hin : ∀ e ∈ log step (sampleStored none true) (sampleForgotten ++ [(8, sampleScanned)]),
        InStep (octetsOf "n") e := by decide +kernel
    have hagreed : Along (Agreed sampleSerde Prod.fst (octetsOf "n"))
        (log step (sampleStored none true) (sampleForgotten ++ [(8, sampleScanned)])) :=
      in_step_run (stores_stored sampleSerde_reads) .start true true _ _ (Machine.along_iff_forall.mpr hin)
    rw [Machine.log_concat, Machine.along_concat] at hagreed
    refine hagreed.2.shuns "n" rfl ?_ (by rintro _ _ ⟨⟩)
    rw [sampleForgotten, Machine.log_append]
    refine ⟨_, _, [_], rfl, concerns_forgot (by decide +kernel), fun later hlater b hconcerns => ?_⟩
    rw [List.mem_singleton.mp hlater] at hconcerns
    cases hconcerns with
    | asked hevent => cases hevent
    | forgot hevent _ => cases hevent
  · have hin : ∀ e ∈ log step sampleBoth sampleRejoined, InStep sampleOther.ssid e := by decide +kernel
    have hwritten : Store.Written sampleSerde
        (Store.save sampleSerde (Store.save sampleSerde none sampleProfile).2 sampleOther).2 :=
      .saved _ (.saved _ .start)
    have hagreed : Along (Agreed sampleSerde Prod.fst sampleOther.ssid)
        (log step sampleBoth sampleRejoined) :=
      in_step_run (stores_stored sampleSerde_reads) hwritten true true _ _
        (Machine.along_iff_forall.mpr hin)
    have hread : ¬ (exec step sampleBoth sampleRejoined).Unread := by
      unfold Unread
      decide +kernel
    exact (hagreed [_, _] _ [] rfl).complete hread core hcore _ (by decide +kernel) rfl

/-- **A store that cannot be read** leaves the core without what is on disk; and a network that is
forgotten while the core knows it is joined again by an autoconnect. -/
theorem mirrored_fails :
    ¬ Along (Mirrored sampleSerde Prod.fst) (log step (sampleSaved false) [(0, .autoconnect 3)]) ∧
      ¬ Along (Mirrored sampleSerde Prod.fst)
        (log step (sampleSaved true) sampleRejoined) := by
  constructor
  · intro h
    have hmirrored := (h [] _ [] rfl).profiles
    have hmemory : (exec step (sampleSaved false) [(0, .autoconnect 3)]).core.map
        Connection.profiles = some [] := by decide +kernel
    have hdisk : sampleProfile ∈ Store.loadAll sampleSerde
        (exec step (sampleSaved false) [(0, .autoconnect 3)]).world.1 := by decide +kernel
    obtain ⟨core, hcore, hprofiles⟩ := Option.map_eq_some_iff.mp hmemory
    have hmem := (hmirrored core hcore sampleProfile).mpr hdisk
    rw [hprofiles] at hmem
    cases hmem
  · intro h
    have hshuns := (h [_, _] _ [] rfl).shuns "n" ⟨[_], _, [], rfl, concerns_forgot (by decide +kernel),
      by simp⟩ (by rintro _ _ ⟨⟩)
    have hjoins : (deeds (Machine.entry step (exec step (sampleSaved true)
        [(0, .autoconnect 3), (1, .forget "n" 7)]) (2, sampleScanned))).any
          (Done.joins (octetsOf "n")) = true := by decide +kernel
    obtain ⟨done, hmem, hdone⟩ := List.any_eq_true.mp hjoins
    exact Bool.false_ne_true ((hshuns done hmem).symm.trans hdone)

end Daemon

end Caw
