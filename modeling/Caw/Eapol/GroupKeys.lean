import Caw.Eapol.GroupRekey

/-!
# Group keys that are lost

The group keys a run hands over against the ones its frames carry.

* `CarriesGtk`, `carriesGtk_iff_answered`: the messages 3 and group messages 1 a handshake answers;
* `RepeatsGtk`: a message 3 that comes again;
* `LatestCarried`: the group key of the access point, as the last answered frame has it;
* **`delivered_carried_iff`**: after every answered frame the group key handed over last is the one
  it carries, exactly when no message 3 that comes again carries a new one;
* `group_key_lost`: one that does, and whose key is lost.
-/

set_option autoImplicit false

namespace Caw

namespace FourWay

open Eapol (Error)
open Machine (Entry entry log exec Along Latest)

variable {P : Primitives} {h h' : FourWay} {i : Input} {past : List Event} {gtk : Gtk}

variable (P) in
/-- In this state the input is a message 3 or a group message 1 that the handshake answers, and it
carries the group key `gtk`. -/
def CarriesGtk (h : FourWay) (i : Input) (gtk : Gtk) : Prop :=
  ∃ bytes eapol frame ptk keyData, i = .frame bytes ∧
    (GroupMessage1 P h bytes eapol frame ptk keyData gtk ∨
      Message3 P h bytes eapol frame ptk keyData gtk)

variable (P) in
/-- In this state the input is a message 3 that comes again, with the group key `gtk`. -/
def RepeatsGtk (h : FourWay) (i : Input) (gtk : Gtk) : Prop :=
  h.state = .established ∧ ∃ bytes eapol frame ptk keyData, i = .frame bytes ∧
    Message3 P h bytes eapol frame ptk keyData gtk

variable (P) in
/-- The last answered frame that carried a group key carried `gtk`. -/
def LatestCarried (past : List Event) (gtk : Gtk) : Prop :=
  Latest (fun e => CarriesGtk P e.pre e.input) past gtk

/-- The frames that carry a group key are the answered ones that carry a MIC. -/
theorem carriesGtk_iff_answered (h : FourWay) (bytes : Bytes) :
    (∃ gtk, CarriesGtk P h (.frame bytes) gtk) ↔
      ∃ frame, answeredFrame (entry (poll P) h (.frame bytes)) = some frame ∧
        frame.keyInfo.mic = true := by
  constructor
  · rintro ⟨gtk, _, eapol, frame, ptk, keyData, hbytes, hm | hm⟩
    · cases hbytes
      refine ⟨frame, ?_, hm.mic⟩
      simp [answeredFrame, hm.poll_eq, sends, Action.frame?, hm.toIncoming.keyFrame_eq,
        Except.toOption]
    · cases hbytes
      refine ⟨frame, ?_, hm.mic⟩
      simp [answeredFrame, hm.poll_eq, sends, Action.frame?, hm.toIncoming.keyFrame_eq,
        Except.toOption]
  · rintro ⟨frame, hanswered, hmic⟩
    have hs := poll_step (P := P) h (.frame bytes)
    obtain ⟨h', o, hpoll⟩ : ∃ h' o, h.poll P (.frame bytes) = (h', o) := ⟨_, _, rfl⟩
    rw [hpoll] at hs
    simp only [answeredFrame, Machine.entry_input, Machine.entry_output, hpoll] at hanswered
    cases hs with
    | ignore _ => cases hanswered
    | fail _ _ => cases hanswered
    | message1 _ eapol f version ptk hm =>
      simp only [sends, List.filterMap_cons, Action.frame?, List.filterMap_nil,
        hm.toIncoming.keyFrame_eq, Except.toOption, Option.some.injEq] at hanswered
      subst hanswered
      rw [hm.noMic] at hmic
      cases hmic
    | message3 _ eapol f ptk keyData gtk hm =>
      exact ⟨gtk, bytes, eapol, f, ptk, keyData, rfl, .inr hm⟩
    | groupMessage1 _ eapol f ptk keyData gtk hm =>
      exact ⟨gtk, bytes, eapol, f, ptk, keyData, rfl, .inl hm⟩

theorem Authentic.gtk_unique {bytes : Bytes} {eapol eapol' : Eapol} {frame frame' : KeyFrame}
    {ptk ptk' : Ptk} {keyData keyData' : Bytes} {gtk' : Gtk}
    (ha : Authentic P h bytes eapol frame ptk keyData gtk)
    (ha' : Authentic P h bytes eapol' frame' ptk' keyData' gtk') : gtk = gtk' := by
  cases ha.header.symm.trans ha'.header
  cases ha.body.symm.trans ha'.body
  cases ha.current.symm.trans ha'.current
  cases ha.unwrapped.symm.trans ha'.unwrapped
  cases ha.carries.symm.trans ha'.carries
  rfl

theorem CarriesGtk.unique {gtk' : Gtk} (hc : CarriesGtk P h i gtk) (hc' : CarriesGtk P h i gtk') :
    gtk = gtk' := by
  obtain ⟨bytes, eapol, frame, ptk, keyData, rfl, hm⟩ := hc
  obtain ⟨_, eapol', frame', ptk', keyData', hbytes, hm'⟩ := hc'
  cases hbytes
  have ha : Authentic P h bytes eapol frame ptk keyData gtk :=
    hm.elim GroupMessage1.toAuthentic Message3.toAuthentic
  have ha' : Authentic P h bytes eapol' frame' ptk' keyData' gtk' :=
    hm'.elim GroupMessage1.toAuthentic Message3.toAuthentic
  exact ha.gtk_unique ha'

theorem TakesGtk.carries (ht : TakesGtk P h i gtk) : CarriesGtk P h i gtk := by
  obtain ⟨bytes, eapol, frame, ptk, keyData, hi, hm | ⟨-, hm⟩⟩ := ht
  · exact ⟨bytes, eapol, frame, ptk, keyData, hi, .inl hm⟩
  · exact ⟨bytes, eapol, frame, ptk, keyData, hi, .inr hm⟩

/-- A group key is handed over, unless it comes with a message 3 that comes again. -/
theorem CarriesGtk.takes_or_repeats (hc : CarriesGtk P h i gtk) :
    TakesGtk P h i gtk ∨ RepeatsGtk P h i gtk := by
  obtain ⟨bytes, eapol, frame, ptk, keyData, hi, hm | hm⟩ := hc
  · exact .inl ⟨bytes, eapol, frame, ptk, keyData, hi, .inl hm⟩
  · rcases hm.expected with hst | hst
    · exact .inl ⟨bytes, eapol, frame, ptk, keyData, hi, .inr ⟨hst, hm⟩⟩
    · exact .inr ⟨hst, bytes, eapol, frame, ptk, keyData, hi, hm⟩

theorem RepeatsGtk.carries (hr : RepeatsGtk P h i gtk) : CarriesGtk P h i gtk := by
  obtain ⟨-, bytes, eapol, frame, ptk, keyData, hi, hm⟩ := hr
  exact ⟨bytes, eapol, frame, ptk, keyData, hi, .inr hm⟩

theorem RepeatsGtk.delivers_eq (hr : RepeatsGtk P h i gtk) : delivers (h.poll P i).2 = [] := by
  obtain ⟨hst, bytes, eapol, frame, ptk, keyData, rfl, hm⟩ := hr
  rw [hm.poll_eq, delivers_message3]
  simp [hst]

theorem delivers_eq_nil (hno : ∀ g, ¬ CarriesGtk P h i g) : delivers (h.poll P i).2 = [] := by
  rcases step_delivers (poll_step (P := P) h i) with hnone | ⟨g, -, ht⟩
  · exact hnone
  · exact absurd ht.carries (hno g)

/-! ## Runs -/

variable (P) in
/-- The group key of an answered frame is the one handed over last. -/
def Delivered (past : List Event) (e : Event) : Prop :=
  ∀ gtk, CarriesGtk P e.pre e.input gtk → lastDelivered (past ++ [e]) = some gtk

variable (P) in
/-- A message 3 that comes again carries the group key of the last answered frame. -/
def Unchanged (past : List Event) (e : Event) : Prop :=
  ∀ gtk, RepeatsGtk P e.pre e.input gtk → LatestCarried P past gtk

section Step

variable (hpast : ∀ g, lastDelivered past = some g ↔ LatestCarried P past g)

include hpast in
/-- As long as nothing has been lost, a step loses the key of a message 3 that comes again with a new
one, and no other. -/
theorem delivered_iff_unchanged (h : FourWay) (i : Input) :
    Delivered P past (entry (poll P) h i) ↔ Unchanged P past (entry (poll P) h i) := by
  constructor
  · intro hdelivered gtk hr
    have hlast := hdelivered gtk hr.carries
    rw [Machine.entry_pre, Machine.entry_input] at hr
    rw [lastDelivered_concat, Machine.entry_output, hr.delivers_eq] at hlast
    exact (hpast gtk).mp hlast
  · intro hunchanged gtk hc
    rw [lastDelivered_concat, Machine.entry_output]
    rcases hc.takes_or_repeats with ht | hr
    · rw [Machine.entry_pre, Machine.entry_input] at ht
      rw [ht.delivers_eq]
      rfl
    · rw [Machine.entry_pre, Machine.entry_input] at hr
      rw [hr.delivers_eq]
      exact (hpast gtk).mpr (hunchanged gtk hr)

include hpast in
/-- A step that loses nothing keeps the key handed over last the one carried last. -/
theorem lastDelivered_iff_latestCarried (h : FourWay) (i : Input)
    (hdelivered : Delivered P past (entry (poll P) h i)) (g : Gtk) :
    lastDelivered (past ++ [entry (poll P) h i]) = some g ↔
      LatestCarried P (past ++ [entry (poll P) h i]) g := by
  rw [LatestCarried, Machine.latest_concat]
  by_cases hno : ∀ g, ¬ CarriesGtk P h i g
  · have hnone : lastDelivered (past ++ [entry (poll P) h i]) = lastDelivered past := by
      rw [lastDelivered_concat, Machine.entry_output, delivers_eq_nil hno]
      rfl
    rw [hnone, hpast]
    exact ⟨fun hl => .inr ⟨hno, hl⟩, fun hor => (hor.resolve_left (hno g)).2⟩
  · obtain ⟨gtk, hc⟩ := not_forall_not.mp hno
    rw [hdelivered gtk hc, Option.some.injEq]
    refine ⟨fun heq => .inl (heq ▸ hc), fun hor => ?_⟩
    exact hc.unique (hor.resolve_right fun hr => hr.1 gtk hc)

end Step

/-- **Whether a group key is lost.** In every run the group key handed over last is the one of the last
answered frame, after each frame answered, exactly when no message 3 that comes again carries another
key than the last answered frame. -/
theorem delivered_carried_iff (P : Primitives) (pmk : Pmk) (config : Config) (snonce : Octets 32)
    (inputs : List Input) :
    Along (Delivered P) (log (poll P) (withSnonce pmk config snonce) inputs) ↔
      Along (Unchanged P) (log (poll P) (withSnonce pmk config snonce) inputs) := by
  suffices hboth : (Along (Delivered P) (log (poll P) (withSnonce pmk config snonce) inputs) ↔
      Along (Unchanged P) (log (poll P) (withSnonce pmk config snonce) inputs)) ∧
      (Along (Delivered P) (log (poll P) (withSnonce pmk config snonce) inputs) →
        ∀ g, lastDelivered (log (poll P) (withSnonce pmk config snonce) inputs) = some g ↔
          LatestCarried P (log (poll P) (withSnonce pmk config snonce) inputs) g) from hboth.1
  induction inputs using List.reverseRecOn with
  | nil =>
    refine ⟨⟨fun _ => Machine.along_nil, fun _ => Machine.along_nil⟩, fun _ g => ?_⟩
    exact ⟨fun hl => (nomatch hl), fun hc => absurd hc (Machine.not_latest_nil g)⟩
  | append_singleton inputs i ih =>
    rw [Machine.log_concat, Machine.along_concat, Machine.along_concat, ← ih.1]
    refine ⟨and_congr_right fun hpast => ?_, fun ⟨hpast, hnow⟩ g => ?_⟩
    · exact delivered_iff_unchanged (ih.2 hpast) _ i
    · exact lastDelivered_iff_latestCarried (ih.2 hpast) _ i hnow g

end FourWay

/-! ## A group key that is lost -/

namespace Exchange

open FourWay (CarriesGtk lastDelivered)
open Machine (log)

variable {P : Primitives} (x : Exchange P)

/-- **The key of a message 3 that comes again is lost**: it is answered, and the group key handed over
last stays the first one. -/
theorem changed_key_lost (y : Exchange P) (hkeyed : ∀ h, x.Keyed h → y.Keyed h) : ∃ past e,
    log (FourWay.poll P) x.station [.frame (x.msg1 1), .frame (x.msg3 2), .frame (y.msg3 3)] =
      past ++ [e] ∧ CarriesGtk P e.pre e.input y.gtk ∧ lastDelivered (past ++ [e]) = some x.gtk := by
  have hk1 := x.holds_station.keyed_awaiting 1
  have hk2 := hkeyed _ (hk1.established 2)
  have hfresh : ∀ seen, some (2 : UInt64) = some seen → seen < 3 := by
    rintro _ ⟨⟩
    decide
  obtain ⟨r1, h1⟩ := x.holds_station.poll_msg1 1 (fun h => nomatch h) (fun _ h => nomatch h)
  obtain ⟨r2, h2⟩ := hk1.poll_msg3 2 (.inl rfl) (by rintro _ ⟨⟩; exact (by decide : (1 : UInt64) < 2))
  obtain ⟨r3, h3⟩ := hk2.poll_msg3 3 (.inr rfl) hfresh
  obtain ⟨eapol, frame, hm, -⟩ := hk2.message3 3 (.inr rfl) hfresh
  rw [Machine.log_cons_of_eq h1, Machine.log_cons_of_eq h2, Machine.log_cons_of_eq h3]
  exact ⟨[_, _], _, rfl, ⟨_, eapol, frame, y.ptk, y.keyData, rfl, .inr hm⟩, rfl⟩

end Exchange

namespace Sample

/-- The group key the sample access point has changed to. -/
def nextGtk : Gtk := { key := List.replicate 16 0x6b, index := 2 }

/-- Key data with the next group key. -/
def nextKeyData : Bytes :=
  eidRsn :: 20 :: (rsnBody ++ (Authenticator.gtkKdeBytes 2 nextGtk.key ++ [0xdd, 0]))

/-- The sample association once its group key has changed. -/
def nextExchange : Exchange .sample :=
  { exchange with
    wrapped := sampleIcv ++ nextKeyData
    keyData := nextKeyData
    gtk := nextGtk
    fits := by decide
    unwrapped := Primitives.sample_unwrap ptk.kek nextKeyData (by decide) (by decide)
    sameRsn := Authenticator.rsnElement_cons 20 rsnBody _ rfl (by decide)
    carries := by
      rw [nextKeyData, Authenticator.gtkKde_skip 20 rsnBody _ rfl (by decide),
        Authenticator.gtkKde_cons 2 nextGtk.key _ (.inl rfl)]
      rfl }

end Sample

namespace FourWay

open Machine (log Along)

/-- The sample run: a handshake whose message 4 is lost, and message 3 again with the key the access
point has changed to in between. It is answered, and the key is not handed over. -/
theorem group_key_lost :
    ¬ Along (Delivered .sample) (log (poll .sample) (withSnonce Sample.pmk Sample.config Sample.snonce)
      [.frame (Sample.exchange.msg1 1), .frame (Sample.exchange.msg3 2),
        .frame (Sample.nextExchange.msg3 3)]) := by
  intro halong
  obtain ⟨past, e, heq, hcarries, hlast⟩ := Sample.exchange.changed_key_lost Sample.nextExchange
    fun h hk => ⟨⟨hk.pmk, hk.config, hk.snonce⟩, hk.ptk, hk.anonce, hk.version⟩
  have hnow := halong past e [] heq _ hcarries
  rw [hlast] at hnow
  exact absurd hnow (by decide)

end FourWay

end Caw
