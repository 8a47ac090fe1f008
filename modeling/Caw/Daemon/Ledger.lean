import Caw.Core.Aim
import Caw.Core.Profiles
import Caw.Daemon.Success

/-!
# The profiles in memory and on disk

The engine keeps the saved networks twice: the core has them in memory, and the store on disk.

* `Daemon.Tends`, **`Tends.feed`**, `Tends.hosts`: an invariant that tells inputs and actions apart;
* `Stores`: a system with a profile store;
* `Aside`: steps that leave the core and the store alone;
* `Booked`, `Ledger`: of one network, the profiles in memory are those on disk, but for one that is still
  to be saved;
* `Booked.owes`, `Booked.saved`, `Booked.deleted`, **`booked_rebuilds`**: what changes either side;
* **`booked_handle`**: an event that deletes no profile of the network in memory and saves what is taken
  up.
-/

set_option autoImplicit false

namespace Caw

open Caw.Core

namespace Daemon

open Effect
open Machine (Entry exec log Along)

variable {S : Platform} {E : System S} {d d' : Daemon S E}

/-! ## Invariants that tell actions apart -/

theorem Spares.mono {R R' : Daemon S E → Daemon S E → Prop} (hR : Spares R)
    (h : ∀ d d', R d d' → R' d d') : Spares R' where
  calls d op hop := h _ _ (hR.calls d op hop)
  timers d timers hsparing := h _ _ (hR.timers d timers hsparing)
  routes d run hrun := h _ _ (hR.routes d run hrun)
  eapol d eapol := h _ _ (hR.eapol d eapol)

theorem Speaks.mono {R R' : Daemon S E → Daemon S E → Prop} (hR : Speaks R)
    (h : ∀ d d', R d d' → R' d d') : Speaks R' where
  sends d client message := h _ _ (hR.sends d client message)
  unwatched d := h _ _ (hR.unwatched d)
  prompts d token pending := h _ _ (hR.prompts d token pending)

theorem Idles.unnamed {action : Core.Action} (h : Idles S action) :
    Connection.named action = none ∧ ∀ p, action ≠ .saveProfile p := by
  have hsave : ∀ p, action ≠ .saveProfile p := by
    rintro p rfl
    obtain ⟨core, draws, q, hpoll, hmem⟩ := h
    rcases Connection.profiles_poll hpoll with hu | ⟨lease, -, hlease, -⟩
    · rw [← Connection.mem_saves, hu.saves] at hmem
      cases hmem
    · cases hlease
  refine ⟨?_, hsave⟩
  have hdecision := h.not_decision
  cases action with
  | associate => cases hdecision
  | authenticate => cases hdecision
  | saveProfile p => exact absurd rfl (hsave p)
  | _ => rfl

/-- What an invariant asks where inputs of one kind have actions of one kind performed. -/
structure Tends (F : Input → Prop) (A : Core.Action → Prop) (J : Daemon S E → Prop) : Prop
    extends Spares (Keeping J), Speaks (Keeping J) where
  dhcp : ∀ d run, Keeping J d { d with dhcp := run }
  polls : ∀ d core input q, F input → d.core = some core →
    core.poll (E.draw d.world).1 input = some q → J d →
    J (d.polled q.1 input) ∧ ∀ action ∈ q.2, A action
  performs : ∀ d action, A action → Keeping J d (d.record (.perform action))
  saves : ∀ profile, A (.saveProfile profile) →
    Keeps (Keeping J) (saveProfile profile : EngineM S E Unit)
  idles : ∀ action, Idles S action → A action
  leaves : F (.command .disconnect)
  scans : ∀ scan, F (.scanResults scan)

namespace Tends

variable {F : Input → Prop} {A : Core.Action → Prop} {J : Daemon S E → Prop} (hJ : Tends F A J)
include hJ

theorem perform {action : Core.Action} (haction : A action) :
    Keeps (Keeping J) (perform action : EngineM S E _) :=
  hJ.toSpares.perform hJ.dhcp (fun d => hJ.performs d action haction) (fun _ _ => hJ.notify _)
    (fun _ _ => hJ.tellFailed _) (fun _ _ => hJ.requestSecret _) fun profile heq =>
      hJ.saves profile (heq ▸ haction)

theorem stopDhcp : Keeps (Keeping J) (stopDhcp : EngineM S E Unit) := hJ.toSpares.stopDhcp hJ.dhcp

theorem driveDhcp (input : Dhcp.Input) : Keeps (Keeping J) (driveDhcp input : EngineM S E _) :=
  hJ.toSpares.driveDhcp hJ.dhcp input

theorem abort (reason : String) : Keeps (Keeping J) (abort reason : EngineM S E Unit) :=
  hJ.toSpares.toCalls.abort_of
    (fun d core q hcore hpoll hd => (hJ.polls d core _ q hJ.leaves hcore hpoll hd).1)
    (fun action h => hJ.perform (hJ.idles action h)) hJ.stopDhcp (hJ.tellFailed reason)

theorem outcome {actions : List Core.Action} (hactions : ∀ action ∈ actions, A action)
    {x : Except String (List Input)} (hrun : Runs (performAll actions) d x d') (hd : J d) :
    Outcome J F x d' := by
  have hd' : J d' := keeps_performAll (fun action hmem => hJ.perform (hactions action hmem))
    _ _ _ hrun hd
  cases x with
  | ok next =>
    refine ⟨hd', fun input hmem => ?_⟩
    obtain ⟨scan, rfl⟩ := yields_performAll actions _ _ _ hrun input hmem
    exact hJ.scans scan
  | error e => exact fun r d'' habort => hJ.abort e _ _ _ habort hd'

theorem turn {input : Input} (hinput : F input) (hd : J d) : Turn J F d input := by
  intro core q x d' hcore hpoll hrun
  obtain ⟨hpolled, hactions⟩ := hJ.polls d core input q hinput hcore hpoll hd
  exact hJ.outcome hactions hrun hpolled

/-- **An input whose first turn keeps the invariant** keeps it to the end. -/
theorem feed_of {input : Input} (hfirst : Turn J F d input) (hnone : d.core = none → J d)
    {r : Except String Unit} (h : Runs (Daemon.feed input) d r d') : J d' :=
  feed_ensures (fun _ _ hd hinput => hJ.turn hinput hd) hfirst hnone h

theorem feed {input : Input} (hinput : F input) :
    Keeps (Keeping J) (feed input : EngineM S E Unit) :=
  fun _ _ _ h hd => hJ.feed_of (hJ.turn hinput hd) (fun _ => hd) h

theorem hosts (hwatches : ∀ d client, Keeping J d { d with watcher := some client })
    (hremoves : ∀ d, Keeping J d { d with core := none, device := none })
    (hrebuilds : ∀ device, Keeps (Keeping J) (do
      let profiles ← loadProfiles
      modify fun d => { d.withCore (.new device profiles) with device := some device, eapol := none }
      Daemon.stopDhcp : EngineM S E Unit)) : Hosts F (Keeping J) where
  toCalls := hJ.toSpares.toCalls
  toSpeaks := hJ.toSpeaks
  feeds _ hinput := hJ.feed hinput
  aborts := hJ.abort
  watches := hwatches
  removes := hremoves
  rebuilds := hrebuilds

end Tends

/-! ## A system with a store -/

/-- The system keeps the profiles in a directory. Its operations on them are those of the store, or fail;
a failure to save may come from any part of it. -/
structure Stores (E : System S) (serde : Serde) (dir : E.World → Option Dir) : Prop where
  reads : ∀ p json, serde.toVecPretty p = some json → serde.fromSlice json = some p
  draws : ∀ w, dir (E.draw w).2 = dir w
  others : ∀ op w, (∀ p, op ≠ .saveProfile p) → (∀ ssid, op ≠ .deleteProfile ssid) →
    dir (E.call op w).2 = dir w
  loads : ∀ w (profiles : List Profile), (E.call .loadProfiles w).1 = .ok profiles →
    ∀ p, p ∈ profiles ↔ p ∈ Store.loadAll serde (dir w)
  saves : ∀ w p, (E.call (.saveProfile p) w).1.isOk = true →
    Store.save serde (dir w) p = (.ok (), dir (E.call (.saveProfile p) w).2)
  loses : ∀ w p, (E.call (.saveProfile p) w).1.isOk = false →
    dir (E.call (.saveProfile p) w).2 = dir w ∨
      ∃ e, Store.save serde (dir w) p = (.error e, dir (E.call (.saveProfile p) w).2)
  deletes : ∀ w ssid deleted, (E.call (.deleteProfile ssid) w).1 = .ok deleted →
    Store.delete (dir w) ssid = (.ok deleted, dir (E.call (.deleteProfile ssid) w).2)
  spares : ∀ w ssid, (E.call (.deleteProfile ssid) w).1.isOk = false →
    dir (E.call (.deleteProfile ssid) w).2 = dir w

section Store

variable {serde : Serde} {dir : E.World → Option Dir} (hE : Stores E serde dir)
include hE

theorem Stores.written {w : E.World} (h : Store.Written serde (dir w)) (op : Op) :
    Store.Written serde (dir (E.call op w).2) := by
  by_cases hsave : ∃ p, op = .saveProfile p
  · obtain ⟨p, rfl⟩ := hsave
    have hsaved := h.saved p
    cases hok : (E.call (.saveProfile p) w).1.isOk with
    | true => rwa [hE.saves w p hok] at hsaved
    | false =>
      rcases hE.loses w p hok with hsame | ⟨e, heq⟩
      · rwa [hsame]
      · rwa [heq] at hsaved
  by_cases hdelete : ∃ ssid, op = .deleteProfile ssid
  · obtain ⟨ssid, rfl⟩ := hdelete
    have hdeleted := h.deleted ssid
    cases hreply : (E.call (.deleteProfile ssid) w).1 with
    | ok deleted => rwa [hE.deletes w ssid deleted hreply] at hdeleted
    | error e => rwa [hE.spares w ssid (by rw [hreply]; rfl)]
  rwa [hE.others op w (fun p heq => hsave ⟨p, heq⟩) fun ssid heq => hdelete ⟨ssid, heq⟩]

theorem Stores.mem_saved {w : E.World} (h : Store.Written serde (dir w)) {p q : Profile} :
    q ∈ Store.loadAll serde (dir (E.call (.saveProfile p) w).2) ↔
      if (E.call (.saveProfile p) w).1.isOk then
        q = p ∨ (q ∈ Store.loadAll serde (dir w) ∧ q.ssid ≠ p.ssid)
      else q ∈ Store.loadAll serde (dir w) := by
  cases hok : (E.call (.saveProfile p) w).1.isOk with
  | true => exact Store.mem_loadAll_save hE.reads h (hE.saves w p hok)
  | false =>
    rcases hE.loses w p hok with hsame | ⟨e, heq⟩
    · rw [hsame]
      rfl
    · exact Store.mem_loadAll_save_error hE.reads h heq

theorem Stores.mem_deleted {w : E.World} (h : Store.Written serde (dir w)) {ssid : Bytes} {q : Profile} :
    q ∈ Store.loadAll serde (dir (E.call (.deleteProfile ssid) w).2) ↔
      q ∈ Store.loadAll serde (dir w) ∧
        ((E.call (.deleteProfile ssid) w).1.isOk = true → q.ssid ≠ ssid) := by
  cases hreply : (E.call (.deleteProfile ssid) w).1 with
  | ok deleted =>
    rw [Store.mem_loadAll_delete hE.reads h (hE.deletes w ssid deleted hreply)]
    exact and_congr_right fun _ => ⟨fun hne _ => hne, fun hne => hne rfl⟩
  | error e =>
    rw [hE.spares w ssid (by rw [hreply]; rfl)]
    exact (and_iff_left fun hok => by cases hok).symm

end Store

/-! ## Steps that leave the profiles alone -/

/-- It is a message, or an operation that leaves the profiles on disk alone. -/
def Done.aside : Done → Bool
  | .call op _ => op.sparesProfiles
  | .send .. => true
  | _ => false

/-- The core and the profiles on disk are left alone. -/
structure Aside (dir : E.World → Option Dir) (d d' : Daemon S E) : Prop where
  core : d'.core = d.core
  dir : dir d'.world = dir d.world
  journal : ∃ more, d'.journal = d.journal ++ more ∧ ∀ done ∈ more, done.aside = true

section Aside

variable {dir : E.World → Option Dir}

theorem aside_same (hcore : d'.core = d.core) (hworld : d'.world = d.world)
    (hjournal : d'.journal = d.journal) : Aside dir d d' :=
  ⟨hcore, congrArg dir hworld, [], hjournal.trans (List.append_nil _).symm, by simp⟩

instance : IsPreorder (Daemon S E) (Aside dir) where
  refl _ := aside_same rfl rfl rfl
  trans _ _ _ h h' := by
    obtain ⟨more, heq, hmore⟩ := h.journal
    obtain ⟨more', heq', hmore'⟩ := h'.journal
    refine ⟨h'.core.trans h.core, h'.dir.trans h.dir, more ++ more', ?_, ?_⟩
    · rw [heq', heq, List.append_assoc]
    · intro done hmem
      exact (List.mem_append.mp hmem).elim (hmore done) (hmore' done)

theorem spares_aside {serde : Serde} (hE : Stores E serde dir) :
    Spares (Aside dir : Daemon S E → Daemon S E → Prop) where
  calls d op hop := by
    refine ⟨rfl, hE.others op d.world ?_ ?_, _, rfl, by simpa [Done.aside] using hop⟩
    · rintro p rfl
      cases hop
    · rintro ssid rfl
      cases hop
  timers _ _ _ := aside_same rfl rfl rfl
  routes _ _ _ := aside_same rfl rfl rfl
  eapol _ _ := aside_same rfl rfl rfl

theorem speaks_aside : Speaks (Aside dir : Daemon S E → Daemon S E → Prop) where
  sends _ _ _ := ⟨rfl, rfl, _, rfl, by simp [Done.aside]⟩
  unwatched _ := aside_same rfl rfl rfl
  prompts _ _ _ := aside_same rfl rfl rfl

end Aside

/-! ## Memory and disk -/

/-- Whether an attempt to read the store has succeeded. -/
def Done.read : Done → Option Bool
  | .call .loadProfiles ok => some ok
  | _ => none

/-- The store could not be read when that was last tried. -/
def Unread (d : Daemon S E) : Prop := (d.journal.filterMap Done.read).getLast? = some false

theorem unread_append {more : List Done} (hjournal : d'.journal = d.journal ++ more)
    (h : ∀ done ∈ more, done.read = none) : d'.Unread ↔ d.Unread := by
  rw [Unread, Unread, hjournal, List.filterMap_append, List.filterMap_eq_nil_iff.mpr h, List.append_nil]

/-- The profile is on disk, once the one that is owed is saved. -/
def Expected (serde : Serde) (dir : Option Dir) (owed : Option Profile) (q : Profile) : Prop :=
  q ∈ owed ∨ (q ∈ Store.loadAll serde dir ∧ ∀ p ∈ owed, q.ssid ≠ p.ssid)

/-- **The profiles of a network in memory are those on disk**, but for one that is owed. Where the store
could not be read there may be more on disk. -/
structure Booked (serde : Serde) (dir : E.World → Option Dir) (ssid : Bytes) (owed : Option Profile)
    (d : Daemon S E) : Prop where
  written : Store.Written serde (dir d.world)
  known : ∀ core, d.core = some core → ∀ q ∈ core.profiles, q.ssid = ssid →
    Expected serde (dir d.world) owed q
  complete : ¬ d.Unread → ∀ core, d.core = some core →
    ∀ q, q.ssid = ssid → Expected serde (dir d.world) owed q → q ∈ core.profiles

/-- The same, until the profile that is owed is saved. -/
def Ledger (serde : Serde) (dir : E.World → Option Dir) (ssid : Bytes) (n : ℕ) (owed : Option Profile)
    (d : Daemon S E) : Prop :=
  Booked serde dir ssid none d ∨
    (Booked serde dir ssid owed d ∧ ∀ p ∈ owed, .call (.saveProfile p) true ∉ d.journal.drop n)

section Booked

variable {serde : Serde} {dir : E.World → Option Dir} {ssid : Bytes} {owed : Option Profile} {n : ℕ}

@[simp] theorem expected_none {dir : Option Dir} {q : Profile} :
    Expected serde dir none q ↔ q ∈ Store.loadAll serde dir := by simp [Expected]

theorem ledger_none : Ledger serde dir ssid n none d ↔ Booked serde dir ssid none d := by simp [Ledger]

theorem Booked.disowned (h : Booked serde dir ssid owed d) (hother : ∀ p ∈ owed, p.ssid ≠ ssid) :
    Booked serde dir ssid none d := by
  have hexpected (q : Profile) (hq : q.ssid = ssid) :
      Expected serde (dir d.world) owed q ↔ q ∈ Store.loadAll serde (dir d.world) := by
    constructor
    · rintro (howed | ⟨hdisk, -⟩)
      · exact absurd hq (hother q howed)
      · exact hdisk
    · exact fun hdisk => .inr ⟨hdisk, fun p hp heq => hother p hp (heq ▸ hq)⟩
  refine ⟨h.written, fun core hcore q hq hssid => ?_, fun hread core hcore q hssid hq => ?_⟩
  · exact expected_none.mpr ((hexpected q hssid).mp (h.known core hcore q hq hssid))
  · exact h.complete hread core hcore q hssid ((hexpected q hssid).mpr (expected_none.mp hq))

theorem Ledger.booked (h : Ledger serde dir ssid n owed d)
    (hsaved : ∀ p ∈ owed, p.ssid = ssid → .call (.saveProfile p) true ∈ d.journal.drop n) :
    Booked serde dir ssid none d := by
  rcases h with hbooked | ⟨hbooked, hdue⟩
  · exact hbooked
  · exact hbooked.disowned fun p hp hssid => hdue p hp (hsaved p hp hssid)

theorem Booked.of (h : Booked serde dir ssid owed d) (hwritten : Store.Written serde (dir d'.world))
    (hdisk : ∀ q, q ∈ Store.loadAll serde (dir d'.world) ↔ q ∈ Store.loadAll serde (dir d.world))
    (hunread : d.Unread → d'.Unread)
    (hcore : ∀ core', d'.core = some core' →
      ∃ core, d.core = some core ∧ core'.profiles = core.profiles) : Booked serde dir ssid owed d' := by
  have hexpected (q : Profile) :
      Expected serde (dir d'.world) owed q ↔ Expected serde (dir d.world) owed q := by
    rw [Expected, Expected, hdisk]
  refine ⟨hwritten, fun core' hcore' q hq hssid => ?_, fun hread core' hcore' q hssid hq => ?_⟩
  · obtain ⟨core, hd, heq⟩ := hcore core' hcore'
    rw [heq] at hq
    exact (hexpected q).mpr (h.known core hd q hq hssid)
  · obtain ⟨core, hd, heq⟩ := hcore core' hcore'
    rw [heq]
    exact h.complete (fun hd => hread (hunread hd)) core hd q hssid ((hexpected q).mp hq)

theorem Ledger.of {more : List Done} (h : Ledger serde dir ssid n owed d)
    (hbooked : ∀ owed, Booked serde dir ssid owed d → Booked serde dir ssid owed d')
    (hjournal : d'.journal = d.journal ++ more)
    (hmore : ∀ p ∈ owed, .call (.saveProfile p) true ∉ more) : Ledger serde dir ssid n owed d' := by
  refine h.imp (hbooked none) fun ⟨hd, hdue⟩ => ⟨hbooked owed hd, fun p hp hmem => ?_⟩
  rw [hjournal, List.drop_append] at hmem
  rcases List.mem_append.mp hmem with hmem | hmem
  · exact hdue p hp hmem
  · exact hmore p hp (List.mem_of_mem_drop hmem)

theorem Booked.aside (h : Booked serde dir ssid owed d) (haside : Aside dir d d') :
    Booked serde dir ssid owed d' := by
  obtain ⟨more, heq, hmore⟩ := haside.journal
  refine h.of ?_ (fun q => by rw [haside.dir]) (unread_append heq fun done hmem => ?_).mpr
    fun core' hcore' => ⟨core', haside.core ▸ hcore', rfl⟩
  · rw [haside.dir]
    exact h.written
  · have hdone := hmore done hmem
    cases done with
    | call op ok => cases op <;> first | rfl | cases hdone
    | _ => rfl

theorem Ledger.aside (h : Ledger serde dir ssid n owed d) (haside : Aside dir d d') :
    Ledger serde dir ssid n owed d' := by
  obtain ⟨more, heq, hmore⟩ := haside.journal
  exact h.of (fun _ hd => hd.aside haside) heq fun p _ hmem => by cases hmore _ hmem

/-! ## What is done with profiles -/

/-- **A request** is put down with what it came to. -/
theorem runs_asked {op : Op} {describe : String → String} {r : Except String op.Reply}
    (h : Runs (request op describe) d r d') :
    d' = { d.record (.call op (E.call op d.world).1.isOk) with world := (E.call op d.world).2 } ∧
      ((∃ reply, r = .ok reply ∧ (E.call op d.world).1 = .ok reply) ∨
        ∃ e text, r = .error text ∧ (E.call op d.world).1 = .error e) := by
  rw [request, ask, runs_modifyGet_bind] at h
  dsimp only at h
  cases hreply : (E.call op d.world).1 with
  | ok reply =>
    rw [hreply] at h
    obtain ⟨rfl, rfl⟩ := runs_pure.mp h
    exact ⟨rfl, .inl ⟨reply, rfl, rfl⟩⟩
  | error e =>
    rw [hreply] at h
    obtain ⟨rfl, rfl⟩ := runs_throw.mp h
    exact ⟨rfl, .inr ⟨e, _, rfl, rfl⟩⟩

/-- The daemon once it has tried to delete a profile. -/
def afterDelete (d : Daemon S E) (ssid : Bytes) : Daemon S E :=
  { d.record (.call (.deleteProfile ssid) (E.call (.deleteProfile ssid) d.world).1.isOk) with
    world := (E.call (.deleteProfile ssid) d.world).2 }

/-- **A request to forget** deletes the profile, and leaves the network if it is the one joined. -/
theorem runs_forget_after {ssid : String} {client : ClientId} {r : Except String Bool}
    (h : Runs (forget ssid client) d r d') :
    (∃ rest, d'.journal = (d.afterDelete (octetsOf ssid)).journal ++ rest) ∧
      (∀ begun, r = .ok begun → (E.call (.deleteProfile (octetsOf ssid)) d.world).1.isOk = true) ∧
      ((d' = d.afterDelete (octetsOf ssid) ∧
          ∀ begun, r = .ok begun → (d.afterDelete (octetsOf ssid)).ssid ≠ some ssid) ∨
        Runs (disconnect ssid client) (d.afterDelete (octetsOf ssid)) (.ok ()) d') := by
  have hok (begun : Bool) (hr : r = .ok begun) :
      (E.call (.deleteProfile (octetsOf ssid)) d.world).1.isOk = true := by
    subst hr
    rcases runs_bind.mp h with ⟨deleted, d₁, hdelete, -⟩ | ⟨e, -, hr⟩
    · rcases (runs_asked hdelete).2 with ⟨_, -, hreply⟩ | ⟨_, _, hr, -⟩
      · rw [hreply]
        rfl
      · cases hr
    · cases hr
  obtain ⟨x, d₁, hdelete, hout⟩ := runs_forget h
  obtain ⟨rfl, -⟩ := runs_asked hdelete
  rcases hout with ⟨rfl, -, hleaves⟩ | ⟨-, -, -, hleave⟩
  · refine ⟨⟨[], (List.append_nil _).symm⟩, hok, .inl ⟨rfl, fun begun hr hssid => ?_⟩⟩
    obtain ⟨e, -, he⟩ := hleaves hssid
    cases hr.symm.trans he
  · obtain ⟨rest, heq⟩ := conducts_continues.hosts.disconnect _ _ trivial _ _ _ hleave
    exact ⟨⟨rest, heq.symm⟩, hok, .inr hleave⟩

theorem mem_of_afterDelete {ssid : Bytes} {rest : List Done}
    (hjournal : d'.journal = (d.afterDelete ssid).journal ++ rest)
    (hok : (E.call (.deleteProfile ssid) d.world).1.isOk = true) :
    .call (.deleteProfile ssid) true ∈ d'.journal.drop d.journal.length := by
  rw [hjournal, afterDelete, record_journal, List.append_assoc, List.drop_left, hok]
  exact List.mem_cons_self

/-- The profiles an event has the core take up: those it saves with a lease the exchange reports. -/
def learned (d : Daemon S E) (event : Event) : List Profile :=
  match event.dhcpInput, d.exchange, d.core with
  | some input, some m, some core =>
    match reported (m.poll input).2 none with
    | some (.acquired lease) => Connection.saves (core.onLease (.acquired lease)).2
    | _ => []
  | _, _, _ => []

section Steps

variable (hE : Stores E serde dir)
include hE

theorem Booked.polled (h : Booked serde dir ssid owed d) {core : Connection S} {input : Input}
    {q : Connection S × List Core.Action} (hcore : d.core = some core) (hu : core.Unsaved q) :
    Booked serde dir ssid owed (d.polled q.1 input) := by
  have hunread : d.Unread → (d.polled q.1 input).Unread :=
    (unread_append rfl (by simp [Done.read])).mpr
  refine h.of ?_ (fun p => by rw [Daemon.polled, hE.draws]) hunread ?_
  · rw [Daemon.polled, hE.draws]
    exact h.written
  · rintro core' ⟨⟩
    exact ⟨core, hcore, hu.profiles⟩

/-- **A poll that saves a profile** leaves it owed. -/
theorem Booked.owes (h : Booked serde dir ssid none d) {core : Connection S} {input : Input}
    {q : Connection S × List Core.Action} {p : Profile} (hcore : d.core = some core)
    (hprofiles : q.1.profiles = (core.profiles.filter fun p' => p'.ssid ≠ p.ssid) ++ [p]) :
    Booked serde dir ssid (some p) (d.polled q.1 input) := by
  have hmem (p' : Profile) : p' ∈ q.1.profiles ↔ p' = p ∨ (p' ∈ core.profiles ∧ p'.ssid ≠ p.ssid) := by
    simp [hprofiles, or_comm]
  have hexpected (p' : Profile) : Expected serde (dir (d.polled q.1 input).world) (some p) p' ↔
      p' = p ∨ (p' ∈ Store.loadAll serde (dir d.world) ∧ p'.ssid ≠ p.ssid) := by
    simp [Expected, Daemon.polled, hE.draws, eq_comm]
  have hunread : (d.polled q.1 input).Unread ↔ d.Unread := unread_append rfl (by simp [Done.read])
  refine ⟨?_, ?_, fun hread => ?_⟩
  · rw [Daemon.polled, hE.draws]
    exact h.written
  · rintro core' ⟨⟩ p' hp' hssid
    refine (hexpected p').mpr (((hmem p').mp hp').imp_right fun ⟨hp', hne⟩ => ⟨?_, hne⟩)
    exact expected_none.mp (h.known core hcore p' hp' hssid)
  · rintro core' ⟨⟩ p' hssid hp'
    refine (hmem p').mpr (((hexpected p').mp hp').imp_right fun ⟨hp', hne⟩ => ⟨?_, hne⟩)
    exact h.complete (fun hd => hread (hunread.mpr hd)) core hcore p' hssid (expected_none.mpr hp')

/-- **A poll** leaves owed what it saves. -/
theorem Booked.after (h : Booked serde dir ssid none d) {core : Connection S} {input : Input}
    {draws : Draws S} {q : Connection S × List Core.Action} (hcore : d.core = some core)
    (hpoll : core.poll draws input = some q) : ∃ owed, Booked serde dir ssid owed (d.polled q.1 input) ∧
      ∀ p, .saveProfile p ∈ q.2 ↔ p ∈ owed := by
  rcases Connection.profiles_poll hpoll with hu | ⟨_, p, -, hsaved, hprofiles⟩
  · refine ⟨none, h.polled hE hcore hu, fun p => ?_⟩
    rw [← Connection.mem_saves, hu.saves]
    simp
  · refine ⟨some p, h.owes hE hcore hprofiles, fun p' => ?_⟩
    rw [← Connection.mem_saves, hsaved, List.mem_singleton, Option.mem_some_iff, eq_comm]

/-- The operation on disk that saves a profile, and the profile in memory. -/
theorem Booked.saved (h : Booked serde dir ssid owed d) {p : Profile} (howed : ∀ p' ∈ owed, p' = p)
    (hok : (E.call (.saveProfile p) d.world).1.isOk = true) :
    Booked serde dir ssid none { d.record (.call (.saveProfile p) true) with
      world := (E.call (.saveProfile p) d.world).2
      core := d.core.map fun core => core.insertProfile p } := by
  have hdisk (q : Profile) : q ∈ Store.loadAll serde (dir (E.call (.saveProfile p) d.world).2) ↔
      q = p ∨ (q ∈ Store.loadAll serde (dir d.world) ∧ q.ssid ≠ p.ssid) := by
    rw [hE.mem_saved h.written, hok, if_pos rfl]
  have hmem (core : Connection S) (q : Profile) : q ∈ (core.insertProfile p).profiles ↔
      q = p ∨ (q ∈ core.profiles ∧ q.ssid ≠ p.ssid) := by
    simp [or_comm]
  refine ⟨hE.written h.written _, ?_, fun hread => ?_⟩
  · rintro core' hcore' q hq hssid
    obtain ⟨core, hcore, rfl⟩ := Option.map_eq_some_iff.mp hcore'
    refine expected_none.mpr ((hdisk q).mpr (((hmem core q).mp hq).imp_right fun ⟨hq, hne⟩ => ?_))
    rcases h.known core hcore q hq hssid with hq | hq
    · exact absurd (congrArg Profile.ssid (howed q hq)) hne
    · exact ⟨hq.1, hne⟩
  · rintro core' hcore' q hssid hq
    obtain ⟨core, hcore, rfl⟩ := Option.map_eq_some_iff.mp hcore'
    refine (hmem core q).mpr (((hdisk q).mp (expected_none.mp hq)).imp_right fun ⟨hq, hne⟩ => ⟨?_, hne⟩)
    have hunread : ¬ d.Unread := fun hd => hread ((unread_append rfl (by simp [Done.read])).mpr hd)
    refine h.complete hunread core hcore q hssid ?_
    exact .inr ⟨hq, fun p' hp' => howed p' hp' ▸ hne⟩

theorem ledger_saveProfile {p : Profile} (hp : p ∈ owed) :
    Keeps (Keeping (Ledger serde dir ssid n owed)) (saveProfile p : EngineM S E Unit) := by
  have howed : ∀ p' ∈ owed, p' = p := fun p' hp' => Option.mem_unique hp' hp
  intro d r d' h hd
  rcases runs_bind.mp h with ⟨reply, d₁, hrequest, hinsert⟩ | ⟨e, hrequest, -⟩
  · obtain ⟨rfl, hreply⟩ := runs_asked hrequest
    obtain ⟨-, rfl⟩ := runs_modify.mp hinsert
    rcases hreply with ⟨_, -, hreply⟩ | ⟨_, _, hr, -⟩
    · have hok : (E.call (.saveProfile p) d.world).1.isOk = true := by rw [hreply]; rfl
      rw [hok]
      rcases hd with hd | ⟨hd, -⟩
      · exact .inl (hd.saved hE (by simp) hok)
      · exact .inl (hd.saved hE howed hok)
    · cases hr
  · obtain ⟨rfl, hreply⟩ := runs_asked hrequest
    rcases hreply with ⟨_, hr, -⟩ | ⟨_, _, -, hreply⟩
    · cases hr
    · have hfailed : (E.call (.saveProfile p) d.world).1.isOk = false := by rw [hreply]; rfl
      rw [hfailed]
      refine hd.of (fun owed hd => hd.of (hE.written hd.written _) (fun q => ?_) ?_ ?_) rfl (by simp)
      · rw [hE.mem_saved hd.written, hfailed]
        rfl
      · exact (unread_append rfl (by simp [Done.read])).mpr
      · exact fun core hcore => ⟨core, hcore, rfl⟩

/-- **A deletion** of what is not in memory. -/
theorem Booked.deleted (h : Booked serde dir ssid none d) {other : Bytes}
    (hnone : (E.call (.deleteProfile other) d.world).1.isOk = true → other = ssid →
      ∀ core, d.core = some core → ∀ q ∈ core.profiles, q.ssid ≠ ssid) :
    Booked serde dir ssid none (d.afterDelete other) := by
  refine ⟨hE.written h.written _, fun core hcore q hq hssid => ?_, fun hread core hcore q hssid hq => ?_⟩
  · refine expected_none.mpr ((hE.mem_deleted h.written).mpr ⟨?_, fun hok hother => ?_⟩)
    · exact expected_none.mp (h.known core hcore q hq hssid)
    · exact hnone hok (hother.symm.trans hssid) core hcore q hq hssid
  · have hunread : ¬ d.Unread := fun hd => hread ((unread_append rfl (by simp [Done.read])).mpr hd)
    refine h.complete hunread core hcore q hssid (expected_none.mpr ?_)
    exact ((hE.mem_deleted h.written).mp (expected_none.mp hq)).1

theorem tends_ledger : Tends (fun input => ∀ lease, input ≠ .lease (.acquired lease))
    (fun action => ∀ p, action = .saveProfile p → p ∈ owed)
    (Ledger serde dir ssid n owed : Daemon S E → Prop) where
  toSpares := (spares_aside hE).mono fun _ _ haside hd => hd.aside haside
  toSpeaks := speaks_aside.mono fun _ _ haside hd => hd.aside haside
  dhcp _ _ hd := hd.aside (aside_same rfl rfl rfl)
  polls d core input q hinput hcore hpoll hd := by
    rcases Connection.profiles_poll hpoll with hu | ⟨lease, -, heq, -⟩
    · refine ⟨hd.of (fun _ hd => hd.polled hE hcore hu) rfl (by simp), fun action hmem p heq => ?_⟩
      have hsaves : p ∈ Connection.saves q.2 := Connection.mem_saves.mpr (heq ▸ hmem)
      rw [hu.saves] at hsaves
      cases hsaves
    · exact absurd heq (hinput lease)
  performs d action _ hd := hd.of
    (fun _ hd => hd.of hd.written (fun _ => Iff.rfl) (unread_append rfl (by simp [Done.read])).mpr
      fun core hcore => ⟨core, hcore, rfl⟩) rfl (by simp)
  saves p hp := ledger_saveProfile hE (hp p rfl)
  idles _ h p heq := absurd heq (h.unnamed.2 p)
  leaves := by rintro lease ⟨⟩
  scans scan := by rintro lease ⟨⟩

theorem tends_booked : Tends (fun input => ∀ lease, input ≠ .lease (.acquired lease))
    (fun action => ∀ p, action = .saveProfile p → p ∈ (none : Option Profile))
    (Booked serde dir ssid none : Daemon S E → Prop) := by
  have heq : Ledger serde dir ssid 0 none = (Booked serde dir ssid none : Daemon S E → Prop) :=
    funext fun _ => propext ledger_none
  rw [← heq]
  exact tends_ledger hE

theorem runs_loadProfiles {r : Except String (List Profile)} (h : Runs loadProfiles d r d') :
    ∃ profiles ok, r = .ok profiles ∧ d' = { d.record (.call .loadProfiles ok) with
        world := (E.call .loadProfiles d.world).2 } ∧ dir d'.world = dir d.world ∧
      if ok then ∀ p, p ∈ profiles ↔ p ∈ Store.loadAll serde (dir d.world) else profiles = [] := by
  have hdir : dir (E.call .loadProfiles d.world).2 = dir d.world :=
    hE.others _ _ (by rintro _ ⟨⟩) (by rintro _ ⟨⟩)
  rw [loadProfiles, ask, runs_modifyGet_bind] at h
  dsimp only at h
  cases hreply : (E.call .loadProfiles d.world).1 with
  | ok profiles =>
    rw [hreply] at h
    obtain ⟨rfl, rfl⟩ := runs_pure.mp h
    exact ⟨profiles, true, rfl, rfl, hdir, hE.loads _ profiles hreply⟩
  | error e =>
    rw [hreply] at h
    obtain ⟨rfl, rfl⟩ := runs_pure.mp h
    exact ⟨[], false, rfl, rfl, hdir, rfl⟩

/-- **A core built from what the store lists.** -/
theorem booked_rebuilds (device : Device) : Keeps (Keeping (Booked serde dir ssid none)) (do
    let profiles ← loadProfiles
    modify fun d => { d.withCore (.new device profiles) with device := some device, eapol := none }
    stopDhcp : EngineM S E Unit) := by
  intro d r d' h hd
  rcases runs_bind.mp h with ⟨profiles, d₁, hload, hrest⟩ | ⟨e, hload, -⟩
  · obtain ⟨_, ok, hr, hd₁, hdir, hprofiles⟩ := runs_loadProfiles hE hload
    cases hr
    rw [runs_modify_bind] at hrest
    refine (tends_booked hE).stopDhcp _ _ _ hrest ⟨hdir.symm ▸ hd.written, ?_, fun hread => ?_⟩
    · rintro core ⟨⟩ q hq -
      cases ok with
      | true => exact expected_none.mpr (hdir.symm ▸ (hprofiles q).mp hq)
      | false =>
        cases hprofiles
        cases hq
    · rintro core ⟨⟩ q - hq
      cases ok with
      | true => exact (hprofiles q).mpr (hdir ▸ expected_none.mp hq)
      | false => exact absurd (by simp [Unread, hd₁, Done.read]) hread
  · obtain ⟨_, _, hr, -⟩ := runs_loadProfiles hE hload
    cases hr

theorem hosts_booked : Hosts (fun input => ∀ lease, input ≠ .lease (.acquired lease))
    (Keeping (Booked serde dir ssid none : Daemon S E → Prop)) :=
  (tends_booked hE).hosts (fun _ _ hd => hd.aside (aside_same rfl rfl rfl))
    (fun _ hd => hd.of hd.written (fun _ => Iff.rfl) id (by rintro _ ⟨⟩)) (booked_rebuilds hE)

/-! ## Events -/

/-- **A lease that is taken up**, where the profile it makes the core save is saved. -/
theorem booked_acquired {lease : Dhcp.Lease} {r : Except String Unit} {n : ℕ}
    (h : Runs (feed (.lease (.acquired lease))) d r d') (hd : Booked serde dir ssid none d)
    (hfresh : ∀ p, .call (.saveProfile p) true ∉ d.journal.drop n)
    (hsaves : ∀ core p, d.core = some core → .saveProfile p ∈ (core.onLease (.acquired lease)).2 →
      p.ssid = ssid → .call (.saveProfile p) true ∈ d'.journal.drop n) :
    Booked serde dir ssid none d' := by
  cases hcore : d.core with
  | none => exact runs_feed_none hcore h ▸ hd
  | some core =>
    have hpolled : core.poll (E.draw d.world).1 (.lease (.acquired lease)) =
        some (core.onLease (.acquired lease)) := rfl
    obtain ⟨owed, howed, hsaved⟩ := hd.after hE hcore hpolled
    have hledger : Ledger serde dir ssid n owed d' := by
      refine (tends_ledger hE).feed_of ?_ (fun hnone => by cases hcore.symm.trans hnone) h
      intro core' q x d₂ hcore' hpoll hrun
      cases hcore.symm.trans hcore'
      cases Option.some.inj hpoll
      refine (tends_ledger hE).outcome (fun action hmem p heq => (hsaved p).mp (heq ▸ hmem)) hrun
        (.inr ⟨howed, fun p _ hmem => ?_⟩)
      dsimp only at hmem
      rw [List.drop_append] at hmem
      rcases List.mem_append.mp hmem with hmem | hmem
      · exact hfresh p hmem
      · cases List.mem_singleton.mp (List.mem_of_mem_drop hmem)
    exact hledger.booked fun p hp => hsaves core p hcore ((hsaved p).mpr hp)

theorem booked_reported {input : Dhcp.Input} {event : LeaseEvent} {woken : Event} {d₁ : Daemon S E}
    {r : Except String Unit} (hd : Booked serde dir ssid none d) (hinput : woken.dhcpInput = some input)
    (hdrive : Runs (driveDhcp input) d (.ok (some event)) d₁) {d₂ : Daemon S E}
    (haside : Aside dir d₁ d₂) (h : Runs (feed (.lease event)) d₂ r d')
    (hsaves : ∀ p ∈ d.learned woken, p.ssid = ssid →
      .call (.saveProfile p) true ∈ d'.journal.drop d.journal.length) :
    Booked serde dir ssid none d' := by
  have haside₁ : Aside dir d d₁ := (spares_aside hE).driveDhcp (fun _ _ => aside_same rfl rfl rfl) input
    _ _ _ hdrive
  have haside₂ : Aside dir d d₂ := IsTrans.trans _ _ _ haside₁ haside
  have hd₂ := hd.aside haside₂
  obtain ⟨m, hm, hreported⟩ := driven hdrive
  cases event with
  | acquired lease =>
    refine booked_acquired hE (n := d.journal.length) h hd₂ (fun p hmem => ?_)
      fun core p hcore hmem hssid => ?_
    · obtain ⟨more, heq, hmore⟩ := haside₂.journal
      rw [heq, List.drop_left] at hmem
      cases hmore _ hmem
    · have hcore' : d.core = some core := haside₂.core ▸ hcore
      refine hsaves p ?_ hssid
      simpa only [learned, hinput, hm, hcore', hreported, Connection.mem_saves] using hmem
  | lost reason => exact (hosts_booked hE).feeds _ (by rintro _ ⟨⟩) _ _ _ h hd₂
  | failed => exact (hosts_booked hE).feeds _ (by rintro _ ⟨⟩) _ _ _ h hd₂

theorem booked_forget {name : String} {client : ClientId} {r : Except String Bool}
    (h : Runs (forget name client) d r d') (hd : Booked serde dir ssid none d)
    (hforgets : .call (.deleteProfile ssid) true ∈ d'.journal.drop d.journal.length →
      ∀ core, d.core = some core → ∀ q ∈ core.profiles, q.ssid ≠ ssid) :
    Booked serde dir ssid none d' := by
  obtain ⟨⟨rest, hjournal⟩, -, hout⟩ := runs_forget_after h
  have hdeleted : Booked serde dir ssid none (d.afterDelete (octetsOf name)) :=
    hd.deleted hE fun hok hssid => hforgets (hssid ▸ mem_of_afterDelete hjournal hok)
  rcases hout with ⟨rfl, -⟩ | hleave
  · exact hdeleted
  · exact (hosts_booked hE).disconnect _ _ (by rintro _ ⟨⟩) _ _ _ hleave hdeleted

/-- **An event**, where no profile of the network in memory is deleted and what is taken up is saved. -/
theorem booked_handle {event : Event} {r : Except String Unit} (h : Runs (handle event) d r d')
    (hd : Booked serde dir ssid none d)
    (hforgets : .call (.deleteProfile ssid) true ∈ d'.journal.drop d.journal.length →
      ∀ core, d.core = some core → ∀ q ∈ core.profiles, q.ssid ≠ ssid)
    (hsaves : ∀ p ∈ d.learned event, p.ssid = ssid →
      .call (.saveProfile p) true ∈ d'.journal.drop d.journal.length) :
    Booked serde dir ssid none d' := by
  have hquiet {d₁ : Daemon S E} {input : Dhcp.Input} {x : Except String (Option LeaseEvent)}
      (hdrive : Runs (driveDhcp input) d x d₁) : Booked serde dir ssid none d₁ :=
    hd.aside ((spares_aside hE).driveDhcp (fun _ _ => aside_same rfl rfl rfl) input _ _ _ hdrive)
  cases event with
  | forget name client =>
    rcases runs_bind.mp h with ⟨begun, d₁, hforget, hpure⟩ | ⟨e, hforget, -⟩
    · obtain ⟨-, rfl⟩ := runs_pure.mp hpure
      exact booked_forget hE hforget hd hforgets
    · exact booked_forget hE hforget hd hforgets
  | datagram bytes =>
    rcases runs_bind.mp h with ⟨news, d₁, hdrive, hrest⟩ | ⟨e, hdrive, -⟩
    · cases news with
      | none =>
        obtain ⟨-, rfl⟩ := runs_pure.mp hrest
        exact hquiet hdrive
      | some news => exact booked_reported hE hd rfl hdrive (refl d₁) hrest hsaves
    · exact hquiet hdrive
  | dhcpTimer timer =>
    rcases runs_bind.mp h with ⟨news, d₁, hdrive, hrest⟩ | ⟨e, hdrive, -⟩
    · cases news with
      | none =>
        obtain ⟨-, rfl⟩ := runs_pure.mp hrest
        exact hquiet hdrive
      | some news =>
        dsimp only at hrest
        split_ifs at hrest
        · rcases runs_bind.mp hrest with ⟨_, d₂, hstop, hfeed⟩ | ⟨e, hstop, -⟩
          · have haside : Aside dir d₁ d₂ := (spares_aside hE).stopDhcp
              (fun _ _ => aside_same rfl rfl rfl) _ _ _ hstop
            exact booked_reported hE hd rfl hdrive haside hfeed hsaves
          · exact absurd hstop (total_stopDhcp _ _ _)
        · exact booked_reported hE hd rfl hdrive (refl d₁) hrest hsaves
    · exact hquiet hdrive
  | _ =>
    refine (hosts_booked hE).handle ?_ (fun _ hmay lease => hmay.1 _) _ _ _ h hd
    exact trivial

end Steps

end Booked

end Daemon

end Caw
