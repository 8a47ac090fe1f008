import Caw.Core.Rekey

/-!
# Pairwise rekeys

What a connection that is up makes of the access point's rekey of the pairwise key.

* `FourWay.Rekeys`: message 1 and then message 3, each as often as it is sent, all of them valid;
* `Connection.Keyed`, `poll_message1`, `poll_message3`: how the connection takes them;
* `Steady`, `Renewed`: the rekey is answered and installed, and the connection stays up with its lease;
* **`pairwise_rekey_iff`**: it does exactly when its session comes from a roam;
* `rekey_reconfigures`: one that does not.
-/

set_option autoImplicit false

namespace Caw

open Caw.Core
open Machine (Entry entry log exec)

variable {S : Platform}

namespace FourWay

variable (P : Primitives)

/-- The handshake as a machine of frames. -/
def pollFrame (h : FourWay) (bytes : Bytes) : FourWay × Except Eapol.Error (List Action) :=
  h.poll P (.frame bytes)

/-- A message 1 this handshake answers. -/
def Message1Valid (h : FourWay) (bytes : Bytes) : Prop :=
  ∃ eapol frame version ptk, Message1 P h bytes eapol frame version ptk

/-- A message 3 this handshake answers. -/
def Message3Valid (h : FourWay) (bytes : Bytes) : Prop :=
  ∃ eapol frame ptk keyData gtk, Message3 P h bytes eapol frame ptk keyData gtk

/-- The access point rekeys: message 1 at least once, and then message 3 at least once, each of them
valid for the handshake as it comes. -/
structure Rekeys (h : FourWay) (asks confirms : List Bytes) : Prop where
  asked : asks ≠ []
  confirmed : confirms ≠ []
  message1 : ∀ e ∈ log (pollFrame P) h asks, Message1Valid P e.pre e.input
  message3 : ∀ e ∈ log (pollFrame P) (exec (pollFrame P) h asks) confirms,
    Message3Valid P e.pre e.input

end FourWay

namespace Connection

/-- An EAPOL frame reaches the connection. -/
def hears (frame : Draws S × Bytes) : Call S := .poll frame.1 (.eapol frame.2)

variable {c : Connection S} {choice : Choice} {handshake : FourWay} {draws : Draws S} {bytes : Bytes}

/-- The connection is up on a secured session that holds this handshake. -/
structure Keyed (c : Connection S) (choice : Choice) (handshake : FourWay) : Prop where
  state : c.state = .connected
  session : ∃ session, c.session = some session ∧ session.handshake = some handshake ∧
    session.choice = choice
  secured : choice.rsn.isSome

variable (draws) in
theorem poll_message1 (hk : c.Keyed choice handshake)
    (hm : handshake.Message1Valid S.prim bytes) : ∃ c' reply, c.poll draws (.eapol bytes) =
        some (c', [.sendEapol reply, .setTimer .handshakeRetry retryIntervalMs]) ∧
      c'.Keyed choice (handshake.pollFrame S.prim bytes).1 ∧
      (handshake.pollFrame S.prim bytes).1.state = .awaitingMsg3 := by
  obtain ⟨eapol, frame, version, ptk, hm⟩ := hm
  obtain ⟨session, hsession, hhandshake, rfl⟩ := hk.session
  rw [poll_eapolKey (.inr hk.state) hsession hhandshake hm.toIncoming, FourWay.pollFrame, hm.poll_eq]
  exact ⟨_, _, rfl, ⟨hk.state, ⟨_, rfl, rfl, rfl⟩, hk.secured⟩, rfl⟩

theorem pairwiseInstall_eq {session : Session S} (hsession : c.session = some session)
    (hrsn : session.choice.rsn.isSome) (keys : Keys) : ∃ installed pairwise,
      c.pairwiseInstall keys = some installed ∧ installed.pairwise = some pairwise ∧
        pairwise.ptk = keys.ptk := by
  obtain ⟨rsn, hrsn⟩ := Option.isSome_iff_exists.mp hrsn
  cases hinstall : c.pairwiseInstall keys with
  | none => simp [pairwiseInstall, hsession, hrsn] at hinstall
  | some installed =>
    simp only [pairwiseInstall, hsession, Option.bind_some, hrsn, Option.map_some,
      Option.some.injEq] at hinstall
    subst hinstall
    exact ⟨_, _, rfl, rfl, rfl⟩

variable (c) in
theorem handshakeActions_install (frame : Bytes) {keys : Keys} {installed : KeyInstall}
    (h : c.pairwiseInstall keys = some installed) :
    c.handshakeActions ([.send frame, .disarmTimer] ++ FourWay.completion true keys) =
      some (c.disarm.1, .sendEapol frame :: (c.disarm.2 ++ [.installKeys installed])) := by
  have h' : c.disarm.1.pairwiseInstall keys = some installed := h
  simp only [List.cons_append, List.nil_append, FourWay.completion, if_true, handshakeActions,
    handshakeAction, Option.bind_some, tryThen, h', Option.map_some, List.append_nil]

/-- The actions leave the connection where it is. -/
def Steady (actions : List Action) : Prop :=
  ∀ action ∈ actions, action ≠ .startDhcp ∧ ∀ state, action = .notify state → state = .connected

theorem steady_disarm (c : Connection S) : Steady c.disarm.2 := by
  intro action hmem
  obtain ⟨id, -, rfl⟩ := Option.map_eq_some_iff.mp (Option.mem_toList.mp hmem)
  exact ⟨nofun, nofun⟩

variable (draws) in
theorem poll_message3_again (hk : c.Keyed choice handshake) (hst : handshake.state = .established)
    (hm : handshake.Message3Valid S.prim bytes) : ∃ c' reply rest,
      c.poll draws (.eapol bytes) = some (c', .sendEapol reply :: rest) ∧ Steady rest ∧
      c'.Keyed choice (handshake.pollFrame S.prim bytes).1 ∧
      (handshake.pollFrame S.prim bytes).1.state = .established := by
  obtain ⟨eapol, frame, ptk, keyData, gtk, hm⟩ := hm
  obtain ⟨session, hsession, hhandshake, rfl⟩ := hk.session
  rw [poll_eapolKey (.inr hk.state) hsession hhandshake hm.toIncoming, FourWay.pollFrame, hm.poll_eq]
  have hfirst : decide (handshake.state = .awaitingMsg3) = false := by simp [hst]
  let c₀ := c.withSession (session.withHandshake (handshake.afterMsg3 frame))
  refine ⟨c₀.disarm.1, handshake.signedMsg4 S.prim frame ptk, c₀.disarm.2, ?_, steady_disarm c₀,
    ⟨hk.state, ⟨_, rfl, rfl, rfl⟩, hk.secured⟩, rfl⟩
  rw [hfirst]
  simp [onHandshakeActions, handshakeActions, handshakeAction, FourWay.completion, tryThen, andThen,
    isComplete, c₀]

variable (draws) in
/-- The first message 3 is answered and its keys are installed; the connection stays up if its session
comes from a roam, and otherwise configures an address. -/
theorem poll_message3 (hk : c.Keyed choice handshake) (hst : handshake.state = .awaitingMsg3)
    (hm : handshake.Message3Valid S.prim bytes) : ∃ c' reply installed pairwise before after,
      c.poll draws (.eapol bytes) =
        some (c', .sendEapol reply :: (before ++ .installKeys installed :: after)) ∧
      installed.pairwise = some pairwise ∧ handshake.ptk = some pairwise.ptk ∧ Steady before ∧
      (choice.roaming = true → Steady after ∧ c'.Keyed choice (handshake.pollFrame S.prim bytes).1) ∧
      (choice.roaming = false → .startDhcp ∈ after) ∧
      (handshake.pollFrame S.prim bytes).1.state = .established := by
  obtain ⟨eapol, frame, ptk, keyData, gtk, hm⟩ := hm
  obtain ⟨session, hsession, hhandshake, rfl⟩ := hk.session
  rw [poll_eapolKey (.inr hk.state) hsession hhandshake hm.toIncoming, FourWay.pollFrame, hm.poll_eq]
  let c₀ := c.withSession (session.withHandshake (handshake.afterMsg3 frame))
  have hfirst : decide (handshake.state = .awaitingMsg3) = true := by simp [hst]
  obtain ⟨installed, pairwise, hinstall, hpairwise, hptk⟩ :=
    c₀.pairwiseInstall_eq rfl hk.secured { ptk, gtk }
  have hactions := handshakeActions_install c₀ (handshake.signedMsg4 S.prim frame ptk) hinstall
  have hcomplete : ([FourWay.Action.send (handshake.signedMsg4 S.prim frame ptk), .disarmTimer] ++
      FourWay.completion true { ptk, gtk }).any isComplete = true := rfl
  refine ⟨(c₀.disarm.1.configured).1, handshake.signedMsg4 S.prim frame ptk, installed, pairwise,
    c₀.disarm.2, (c₀.disarm.1.configured).2, ?_, hpairwise, by rw [hptk]; exact hm.current,
    steady_disarm c₀, ?_, ?_, rfl⟩
  · rw [hfirst, onHandshakeActions, hactions, hcomplete]
    simp [andThen]
  · intro hroaming
    have hroam : (c₀.disarm.1.session.any fun s => s.choice.roaming) = true := by
      change session.choice.roaming = true
      exact hroaming
    refine ⟨?_, ?_, ?_, hk.secured⟩
    · rw [configured, if_pos hroam]
      simp [Steady, leaving]
    · rw [configured, if_pos hroam]
      simp
    · rw [configured_session]
      exact ⟨_, rfl, rfl, rfl⟩
  · intro hroaming
    have hroam : ¬ (c₀.disarm.1.session.any fun s => s.choice.roaming) = true := by
      change ¬ session.choice.roaming = true
      simp [hroaming]
    rw [configured, if_neg hroam]
    simp

/-! ## The whole rekey -/

/-- The frame is answered, and the connection stays up with its lease. -/
structure Unnoticed (e : Connection.Entry S) : Prop where
  replied : ∃ reply, .sendEapol reply ∈ e.output
  up : e.post.state = .connected
  steady : Steady e.output

/-- The call has a pairwise key installed. -/
def Installs (e : Connection.Entry S) (ptk : Ptk) : Prop :=
  ∃ installed pairwise, .installKeys installed ∈ e.output ∧ installed.pairwise = some pairwise ∧
    pairwise.ptk = ptk

/-- The frames of a rekey renew the pairwise key, and nothing else. -/
structure Renewed (c : Connection S) (frames : List (Draws S × Bytes)) (ptk : Option Ptk) : Prop where
  unnoticed : ∀ e ∈ log step c (frames.map hears), Unnoticed e
  installed : ∃ e ∈ log step c (frames.map hears), ∃ p, ptk = some p ∧ Installs e p

theorem entry_hears {q : Draws S × Bytes} {r : Connection S × List Action}
    (h : c.poll q.1 (.eapol q.2) = some r) : step c (hears q) = r := by
  rw [hears, step, h]
  rfl

theorem steady_cons {action : Action} {actions : List Action} (hdhcp : action ≠ .startDhcp)
    (hnotify : ∀ state, action ≠ .notify state) (h : Steady actions) : Steady (action :: actions) := by
  intro a hmem
  rcases List.mem_cons.mp hmem with rfl | hmem
  · exact ⟨hdhcp, fun state heq => absurd heq (hnotify state)⟩
  · exact h a hmem

/-- Messages 1 are all answered, and the connection ends up with the handshake of the last. -/
theorem asks_run (asks : List (Draws S × Bytes)) (hk : c.Keyed choice handshake)
    (hvalid : ∀ e ∈ log (FourWay.pollFrame S.prim) handshake (asks.map Prod.snd),
      FourWay.Message1Valid S.prim e.pre e.input) :
    (∀ e ∈ log step c (asks.map hears), Unnoticed e) ∧
      (exec step c (asks.map hears)).Keyed choice
        (exec (FourWay.pollFrame S.prim) handshake (asks.map Prod.snd)) ∧
      (asks ≠ [] →
        (exec (FourWay.pollFrame S.prim) handshake (asks.map Prod.snd)).state = .awaitingMsg3) := by
  induction asks generalizing c handshake with
  | nil => exact ⟨fun e hmem => (nomatch hmem), hk, fun h => absurd rfl h⟩
  | cons q asks ih =>
    obtain ⟨c', reply, hpoll, hk', hst⟩ :=
      poll_message1 q.1 hk (hvalid _ List.mem_cons_self)
    have hstep := entry_hears hpoll
    obtain ⟨hrest, hend, hlast⟩ := ih hk' fun e hmem => hvalid e (List.mem_cons_of_mem _ hmem)
    rw [List.map_cons, List.map_cons, Machine.log_cons_of_eq hstep, Machine.exec_cons_of_eq hstep]
    refine ⟨fun e hmem => ?_, hend, fun _ => ?_⟩
    · rcases List.mem_cons.mp hmem with rfl | hmem
      · exact ⟨⟨reply, List.mem_cons_self⟩, hk'.state,
          steady_cons nofun nofun (steady_cons nofun nofun fun a ha => nomatch ha)⟩
      · exact hrest e hmem
    · cases asks with
      | nil => exact hst
      | cons q' asks => exact hlast (List.cons_ne_nil q' asks)

theorem confirms_run (confirms : List (Draws S × Bytes)) (hk : c.Keyed choice handshake)
    (hst : handshake.state = .established)
    (hvalid : ∀ e ∈ log (FourWay.pollFrame S.prim) handshake (confirms.map Prod.snd),
      FourWay.Message3Valid S.prim e.pre e.input) :
    ∀ e ∈ log step c (confirms.map hears), Unnoticed e := by
  induction confirms generalizing c handshake with
  | nil => exact fun e hmem => nomatch hmem
  | cons q confirms ih =>
    obtain ⟨c', reply, rest, hpoll, hsteady, hk', hst'⟩ :=
      poll_message3_again q.1 hk hst (hvalid _ List.mem_cons_self)
    intro e hmem
    rw [List.map_cons, Machine.log_cons_of_eq (entry_hears hpoll)] at hmem
    rcases List.mem_cons.mp hmem with rfl | hmem
    · exact ⟨⟨reply, List.mem_cons_self⟩, hk'.state, steady_cons nofun nofun hsteady⟩
    · exact ih hk' hst' (fun e hmem => hvalid e (List.mem_cons_of_mem _ hmem)) e hmem

/-- A rekey renews the key and nothing else exactly when the session comes from a roam. -/
theorem Keyed.renewed_iff (hk : c.Keyed choice handshake) (asks confirms : List (Draws S × Bytes))
    (h : handshake.Rekeys S.prim (asks.map Prod.snd) (confirms.map Prod.snd)) :
    c.Renewed (asks ++ confirms)
        (exec (FourWay.pollFrame S.prim) handshake (asks.map Prod.snd)).ptk ↔
      choice.roaming = true := by
  obtain ⟨hasks, hk', hst⟩ := asks_run asks hk h.message1
  have hasked : asks ≠ [] := fun hno => h.asked (by rw [hno]; rfl)
  obtain ⟨q, confirms, rfl⟩ := List.exists_cons_of_ne_nil
    (fun hno : confirms = [] => h.confirmed (by rw [hno]; rfl))
  obtain ⟨c', reply, installed, pairwise, before, after, hpoll, hpairwise, hptk, hbefore, hroam,
    hfirst, hst'⟩ := poll_message3 q.1 hk' (hst hasked) (h.message3 _ List.mem_cons_self)
  have hlog : log step c ((asks ++ q :: confirms).map hears) = log step c (asks.map hears) ++
      ⟨exec step c (asks.map hears), hears q, .sendEapol reply ::
        (before ++ .installKeys installed :: after), c'⟩ :: log step c' (confirms.map hears) := by
    rw [List.map_append, Machine.log_append, List.map_cons,
      Machine.log_cons_of_eq (entry_hears hpoll)]
  constructor
  · intro hrenewed
    by_contra hno
    have hmem : .startDhcp ∈ Action.sendEapol reply :: (before ++ .installKeys installed :: after) := by
      simp [hfirst (by simpa using hno)]
    have hall := hrenewed.unnoticed
    rw [hlog] at hall
    exact ((hall _ (List.mem_append_right _ List.mem_cons_self)).steady _ hmem).1 rfl
  · intro hroaming
    obtain ⟨hafter, hk''⟩ := hroam hroaming
    refine ⟨fun e hmem => ?_, ?_⟩
    · rw [hlog] at hmem
      rcases List.mem_append.mp hmem with hmem | hmem
      · exact hasks e hmem
      rcases List.mem_cons.mp hmem with rfl | hmem
      · refine ⟨⟨reply, List.mem_cons_self⟩, hk''.state, steady_cons nofun nofun fun a ha => ?_⟩
        rcases List.mem_append.mp ha with ha | ha
        · exact hbefore a ha
        · refine steady_cons ?_ ?_ hafter a ha <;> exact nofun
      · exact confirms_run confirms hk'' hst'
          (fun e hmem => h.message3 e (List.mem_cons_of_mem _ hmem)) e hmem
    · refine ⟨_, by rw [hlog]; exact List.mem_append_right _ List.mem_cons_self, pairwise.ptk, hptk,
        installed, pairwise, by simp, hpairwise, rfl⟩

/-- **Pairwise rekeys.** In every reachable state that is up with a handshake, a rekey of the access
point is answered, installs the new key and leaves the connection up with its lease exactly when the
session comes from a roam. -/
theorem pairwise_rekey_iff (device : Device) (profiles : List Profile) (calls : List (Call S))
    (session : Session S) (handshake : FourWay) (asks confirms : List (Draws S × Bytes))
    (hst : (exec step (new device profiles) calls : Connection S).state = .connected)
    (hsession : (exec step (new device profiles) calls).session = some session)
    (hhandshake : session.handshake = some handshake)
    (hrekeys : handshake.Rekeys S.prim (asks.map Prod.snd) (confirms.map Prod.snd)) :
    (exec step (new device profiles) calls).Renewed (asks ++ confirms)
        (exec (FourWay.pollFrame S.prim) handshake (asks.map Prod.snd)).ptk ↔
      session.choice.roaming = true := by
  refine Keyed.renewed_iff ⟨hst, ⟨session, hsession, hhandshake, rfl⟩, ?_⟩ asks confirms hrekeys
  exact (Reachable.sound ⟨calls, rfl⟩).secured session hsession (.inr (by simp [hhandshake]))

end Connection

/-! ## The frames of an access point with the same keys -/

namespace Exchange

open FourWay (pollFrame Message1Valid Message3Valid)

variable {P : Primitives} {x : Exchange P} {h : FourWay}

theorem Holds.asks (hx : x.Holds h) (hrun : h.state ≠ .failed) (counters : List UInt64)
    (hincreasing : counters.Pairwise (· < ·))
    (hfresh : ∀ n ∈ counters, ∀ seen, h.rxCounter = some seen → seen < n) :
    (∀ e ∈ log (pollFrame P) h (counters.map x.msg1), Message1Valid P e.pre e.input) ∧
      ∀ last, counters.getLast? = some last →
        x.Keyed (exec (pollFrame P) h (counters.map x.msg1)) ∧
        (exec (pollFrame P) h (counters.map x.msg1)).state = .awaitingMsg3 ∧
        (exec (pollFrame P) h (counters.map x.msg1)).rxCounter = some last := by
  induction counters generalizing h with
  | nil => exact ⟨fun e hmem => (nomatch hmem), fun last hlast => (nomatch hlast)⟩
  | cons n counters ih =>
    have hm := hx.message1 n hrun (hfresh n List.mem_cons_self)
    have hstep : pollFrame P h (x.msg1 n) = (x.awaiting h n, (pollFrame P h (x.msg1 n)).2) := by
      rw [pollFrame, hm.poll_eq]
      rfl
    have hkeyed := hx.keyed_awaiting n
    obtain ⟨hrest, hend⟩ := ih hkeyed.toHolds (fun hno => nomatch hno)
      (List.pairwise_cons.mp hincreasing).2 (by
        rintro m hm _ ⟨⟩
        exact (List.pairwise_cons.mp hincreasing).1 m hm)
    rw [List.map_cons, Machine.log_cons_of_eq hstep, Machine.exec_cons_of_eq hstep]
    refine ⟨fun e hmem => ?_, fun last hlast => ?_⟩
    · rcases List.mem_cons.mp hmem with rfl | hmem
      · exact ⟨_, _, _, _, hm⟩
      · exact hrest e hmem
    · cases counters with
      | nil =>
        cases hlast
        exact ⟨hkeyed, rfl, rfl⟩
      | cons m counters => exact hend last (by rwa [List.getLast?_cons_cons] at hlast)

theorem Keyed.confirms (hx : x.Keyed h) (hst : h.state = .awaitingMsg3 ∨ h.state = .established)
    (counters : List UInt64) (hincreasing : counters.Pairwise (· < ·))
    (hfresh : ∀ n ∈ counters, ∀ seen, h.rxCounter = some seen → seen < n) :
    ∀ e ∈ log (pollFrame P) h (counters.map x.msg3), Message3Valid P e.pre e.input := by
  induction counters generalizing h with
  | nil => exact fun e hmem => nomatch hmem
  | cons n counters ih =>
    obtain ⟨eapol, frame, hm, -⟩ := hx.message3 n hst (hfresh n List.mem_cons_self)
    obtain ⟨reply, hpoll⟩ := hx.poll_msg3 n hst (hfresh n List.mem_cons_self)
    have hstep : pollFrame P h (x.msg3 n) = _ := hpoll
    intro e hmem
    rw [List.map_cons, Machine.log_cons_of_eq hstep] at hmem
    rcases List.mem_cons.mp hmem with rfl | hmem
    · exact ⟨_, _, _, _, _, hm⟩
    · refine ih (hx.established n) (.inr rfl) (List.pairwise_cons.mp hincreasing).2 ?_ e hmem
      rintro m hm _ ⟨⟩
      exact (List.pairwise_cons.mp hincreasing).1 m hm

/-- **An access point with the same keys rekeys**, however often it repeats its messages, as long as
it counts upwards. -/
theorem Holds.rekeys (hx : x.Holds h) (hrun : h.state ≠ .failed) (asks confirms : List UInt64)
    (hasked : asks ≠ []) (hconfirmed : confirms ≠ [])
    (hincreasing : (asks ++ confirms).Pairwise (· < ·))
    (hfresh : ∀ n ∈ asks, ∀ seen, h.rxCounter = some seen → seen < n) :
    h.Rekeys P (asks.map x.msg1) (confirms.map x.msg3) := by
  obtain ⟨hbefore, hafter, hbetween⟩ := List.pairwise_append.mp hincreasing
  have hlast := List.getLast?_eq_some_getLast hasked
  obtain ⟨hvalid, hend⟩ := hx.asks hrun asks hbefore hfresh
  obtain ⟨hkeyed, hst, hcounter⟩ := hend _ hlast
  refine ⟨by simpa using hasked, by simpa using hconfirmed, hvalid,
    hkeyed.confirms (.inl hst) confirms hafter fun n hn seen hseen => ?_⟩
  cases hcounter.symm.trans hseen
  exact hbetween _ (List.mem_of_getLast? hlast) n hn

end Exchange

/-! ### A first join and a roam -/

namespace Connection

/-- The sample handshake once it has completed, as a rekey finds it. -/
def sampleSettled (h : FourWay) : Bool :=
  h.state = .established && h.config.akm = .psk && h.config.beaconRsnIe = [eidRsn, 2, 1, 0] &&
    h.rxCounter = some 2

/-- The ANonce of the rekey. -/
def sampleNextAnonce : Octets 32 := List.Vector.replicate 32 0x44

/-- The access point of a completed sample handshake rekeys, repeating both of its messages. -/
theorem exists_rekeys {h : FourWay} (hsettled : sampleSettled h = true) : ∃ asks confirms,
    h.Rekeys .sample asks confirms := by
  simp only [sampleSettled, Bool.and_eq_true, decide_eq_true_eq] at hsettled
  obtain ⟨⟨⟨hst, hakm⟩, hrsn⟩, hcounter⟩ := hsettled
  obtain ⟨ptk, hptk⟩ : ∃ ptk, derivePtk .sample h.pmk h.config.akm h.config.bssid h.config.ownMac
      sampleNextAnonce h.snonce = .ok ptk := by
    rw [hakm]
    exact ⟨_, rfl⟩
  let x : Exchange .sample :=
    { pmk := h.pmk, config := h.config, snonce := h.snonce, anonce := sampleNextAnonce, ptk
      wrapped := sampleIcv ++ sampleKeyData, keyData := sampleKeyData, gtk := Sample.gtk
      derived := hptk
      fits := by decide
      unwrapped := Primitives.sample_unwrap _ _ (by decide) (by decide)
      sameRsn := by
        rw [hrsn]
        exact Authenticator.rsnElement_cons 2 [1, 0] _ rfl (by decide)
      carries := by
        rw [sampleKeyData, Authenticator.gtkKde_skip 2 [1, 0] _ rfl (by decide),
          Authenticator.gtkKde_cons 1 Sample.gtk.key _ (.inl rfl)]
        rfl }
  have hholds : x.Holds h := ⟨rfl, rfl, rfl⟩
  refine ⟨_, _, hholds.rekeys (by simp [hst]) [3, 4] [5, 6] (by simp) (by simp) (by decide) ?_⟩
  rw [hcounter]
  rintro n hn _ ⟨⟩
  simp only [List.mem_cons, List.not_mem_nil, or_false] at hn
  rcases hn with rfl | rfl <;> decide

/-- The sample network joined, with its address. -/
def sampleUp : List (Call .sample) :=
  sampleHandshake ++ [.poll .sample (.lease (.acquired sampleLease))]

/-- Another access point of the sample network. -/
def sampleFar : Mac := ⟨[0x02, 0x00, 0x00, 0x00, 0x00, 0x01], rfl⟩

/-- The PTK of the sample passphrase at that access point. -/
def sampleFarPtk : Ptk :=
  Ptk.split (prfSha1 .sample (derivePmk .sample "password" [110]).toList ptkLabel
    ((Octets.zero 6).toList ++ sampleFar.toList ++ (Octets.zero 32).toList ++
      Sample.anonce.toList) ptkLen).toList

/-- The sample network roamed to that access point. -/
def sampleRoamed : List (Call .sample) :=
  sampleUp ++
    [.poll .sample
        (.scanResults [samplePskBss, { samplePskBss with bssid := sampleFar, signalDbm := -30 }]),
      .poll .sample (.wireless (.connected none .success)),
      .poll .sample (.eapol (Authenticator.msg1 .hmacSha1 1 Sample.anonce)),
      .poll .sample (.eapol (Authenticator.msg3 .sample .hmacSha1 2 Sample.anonce sampleFarPtk.kck
        (sampleIcv ++ sampleKeyData)))]

/-- What is held after a run: the flag of its session and whether its handshake is the settled one. -/
def sampleHeld (c : Connection .sample) : Option (Bool × Option Bool) :=
  c.session.map fun session => (session.choice.roaming, session.handshake.map sampleSettled)

theorem exists_held (c : Connection .sample) (roaming : Bool)
    (h : sampleHeld c = some (roaming, some true)) : ∃ session handshake,
      c.session = some session ∧ session.handshake = some handshake ∧
      session.choice.roaming = roaming ∧ sampleSettled handshake = true := by
  obtain ⟨session, hsession, heq⟩ := Option.map_eq_some_iff.mp h
  obtain ⟨hroaming, hhandshake⟩ := Prod.mk.inj heq
  obtain ⟨handshake, hhandshake, hsettled⟩ := Option.map_eq_some_iff.mp hhandshake
  exact ⟨session, handshake, hsession, hhandshake, hroaming, hsettled⟩

/-- The frames with the draws they arrive under. -/
def drawn (frames : List Bytes) : List (Draws .sample × Bytes) :=
  frames.map fun frame => (.sample, frame)

@[simp] theorem map_snd_drawn (frames : List Bytes) : (drawn frames).map Prod.snd = frames := by
  simp [drawn, Function.comp_def]

set_option maxRecDepth 10000 in
/-- After a roam, a rekey is not noticed. -/
theorem pairwise_rekey_sample : ∃ asks confirms ptk,
    (Machine.exec step (new sampleDevice []) sampleRoamed).Renewed (asks ++ confirms) ptk := by
  obtain ⟨session, handshake, hsession, hhandshake, hroaming, hsettled⟩ :=
    exists_held (Machine.exec step (new sampleDevice []) sampleRoamed) true (by decide +kernel)
  obtain ⟨asks, confirms, hrekeys⟩ := exists_rekeys hsettled
  have hrekeys' : handshake.Rekeys .sample ((drawn asks).map Prod.snd)
      ((drawn confirms).map Prod.snd) := by simpa using hrekeys
  exact ⟨drawn asks, drawn confirms, _,
    (pairwise_rekey_iff sampleDevice [] sampleRoamed session handshake (drawn asks) (drawn confirms)
      (by decide +kernel) hsession hhandshake hrekeys').mpr hroaming⟩

set_option maxRecDepth 10000 in
/-- After a first join, it is. -/
theorem rekey_reconfigures : ∃ session handshake asks confirms,
    (Machine.exec step (new sampleDevice []) sampleUp : Connection .sample).state = .connected ∧
      (Machine.exec step (new sampleDevice []) sampleUp).session = some session ∧
      session.handshake = some handshake ∧
      handshake.Rekeys .sample (asks.map Prod.snd) (confirms.map Prod.snd) ∧
      ¬ (Machine.exec step (new sampleDevice []) sampleUp).Renewed (asks ++ confirms)
        (exec (FourWay.pollFrame .sample) handshake (asks.map Prod.snd)).ptk := by
  obtain ⟨session, handshake, hsession, hhandshake, hroaming, hsettled⟩ :=
    exists_held (Machine.exec step (new sampleDevice []) sampleUp) false (by decide +kernel)
  obtain ⟨asks, confirms, hrekeys⟩ := exists_rekeys hsettled
  have hrekeys' : handshake.Rekeys .sample ((drawn asks).map Prod.snd)
      ((drawn confirms).map Prod.snd) := by simpa using hrekeys
  have hst : (Machine.exec step (new sampleDevice []) sampleUp).state = .connected := by
    decide +kernel
  refine ⟨session, handshake, drawn asks, drawn confirms, hst, hsession, hhandshake, hrekeys',
    fun hrenewed => ?_⟩
  have hkeyed : (Machine.exec step (new sampleDevice []) sampleUp).Keyed session.choice handshake :=
    ⟨hst, ⟨session, hsession, hhandshake, rfl⟩,
      (Reachable.sound ⟨sampleUp, rfl⟩).secured session hsession (.inr (by simp [hhandshake]))⟩
  have hroamed := (hkeyed.renewed_iff _ _ hrekeys').mp hrenewed
  simp [hroaming] at hroamed

end Connection

end Caw
