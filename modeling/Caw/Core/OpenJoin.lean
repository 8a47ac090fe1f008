import Caw.Core.Floor
import Caw.Nl80211.Bss

/-!
# Joins in the clear

An association without an RSN element, and what the elements reported for its BSS may hold.

* `assocRequest_ies`: a secured session has an element to show;
* `planned_open`: what is asked for in the clear was classified as open;
* **`open_join_iff`**: a body that holds a security element none of which is legible is joined in the
  clear, and no other;
* `truncated_rsn_joined`: a WPA2 network whose RSN element lost its last octets.
-/

set_option autoImplicit false

namespace Caw

open Caw.Core

variable {S : Platform}

namespace Connection

variable {c : Connection S} {draws : Draws S} {r : Connection S × List Action}

theorem assocRequest_ies {session : Session S} {n : Negotiated} (hrsn : session.choice.rsn = some n)
    (ifindex : UInt32) (ssid : Bytes) : (assocRequest ifindex ssid session).ies ≠ [] := by
  simp [assocRequest, hrsn, assocIe, StationRsn.encode]

theorem associateWith_ies {target : Target} {session : Session S} {n : Negotiated}
    (hrsn : session.choice.rsn = some n) {request : AssocRequest}
    (hmem : .associate request ∈ requests (c.associateWith target session).2) : request.ies ≠ [] := by
  rw [requests_associateWith, List.mem_singleton] at hmem
  cases hmem
  exact assocRequest_ies hrsn _ _

/-- **The exchange of a secured session asks for nothing in the clear.** -/
theorem saeDriven_ies {event : SaeEvent} {session : Session S} {n : Negotiated}
    (hsession : c.session = some session) (hrsn : session.choice.rsn = some n)
    (hd : SaeDriven c event r) {request : AssocRequest} (hmem : .associate request ∈ requests r.2) :
    request.ies ≠ [] := by
  cases hd with
  | off => simp at hmem
  | call target session' provider q r htarget hsession' hauth hq hm =>
    rw [hsession] at hsession'
    cases hsession'
    obtain ⟨p', x⟩ := q
    cases hm with
    | wait => simp at hmem
    | send frame request' => simp at hmem
    | noBody => simp at hmem
    | fail => simp at hmem
    | done target' session' pmk htarget' hsession' =>
      cases hsession'
      have hkeyed : (keyed (session.withAuth (.preAssoc p')) pmk).choice.rsn = some n := by
        rw [keyed_choice, Session.withAuth_choice, hrsn]
      exact associateWith_ies hkeyed hmem

/-- **What is asked for in the clear was classified as open.** -/
theorem planned_open {bss : Bss} {roaming : Bool} (hp : Planned c draws bss roaming r)
    {request : AssocRequest} (hmem : .associate request ∈ r.2) (hies : request.ies = []) :
    bss.rsn = none ∧ bss.security = .open := by
  have hrequest : .associate request ∈ requests r.2 := mem_requests.mpr ⟨hmem, rfl⟩
  cases hp with
  | refused => simp at hrequest
  | stay => simp at hrequest
  | enterprise => simp at hrequest
  | prompt => simp [requests, Connection.prompt] at hrequest
  | unstaged => simp at hrequest
  | sae credential choice provider q hchosen hstage hroaming hd =>
    obtain ⟨n, hrsn⟩ : ∃ n, choice.rsn = some n := by
      cases hrsn : choice.rsn with
      | some n => exact ⟨n, rfl⟩
      | none => simp [stage, hrsn] at hstage
    have hq : .associate request ∈ requests q.2 := by simpa using hrequest
    have hsession : ((c.withSession (newSession choice (.preAssoc provider))).enter
        .authenticating).1.session = some (newSession choice (.preAssoc provider)) := by
      rw [enter_fst]
      rfl
    exact absurd hies (saeDriven_ies hsession hrsn hd hq)
  | associate credential choice auth target hchosen =>
    rcases (hchosen.clears).2.offered with ⟨-, hrsn, hopen⟩ | ⟨ie, n, -, hrsn, -⟩
    · exact ⟨hrsn, hopen⟩
    · exact absurd hies (associateWith_ies hrsn hrequest)

/-- The session of an open join. -/
def openSession (bss : Bss) : Session .sample :=
  newSession { bssid := bss.bssid, freqMhz := bss.freqMhz, signalDbm := bss.signalDbm
               advertised := .open, negotiated := .open, rsn := none, roaming := false } .open

/-- A connection without profiles that works towards one network. -/
def sampleAimed (ssid : Bytes) : Connection .sample :=
  (new sampleDevice []).withTarget (discovered ssid)

theorem plan_open {bss : Bss} (hrsn : bss.rsn = none) (hopen : bss.security = .open) :
    ∃ r, (sampleAimed bss.ssid).plan .sample bss false = some r ∧
      .associate (assocRequest 3 bss.ssid (openSession bss)) ∈ r.2 := by
  have hplan : (sampleAimed bss.ssid).plan .sample bss false = some
      (((sampleAimed bss.ssid).withSession (openSession bss)).associateWith (discovered bss.ssid)
        (openSession bss)) := by
    simp only [plan, credential, hrsn, Option.isNone_none, if_true, evaluate, negotiateBss, hopen,
      Except.bind, provided]
    rfl
  refine ⟨_, hplan, ?_⟩
  rw [associateWith_snd]
  exact List.mem_append_right _ (List.mem_cons_of_mem _ List.mem_cons_self)

/-- **Joins in the clear.** A BSS joined without an RSN element has no security element among those
reported for it, and no Privacy bit, exactly where the Privacy bit is set after all, or a security
element there would be is of the version that parses. -/
theorem open_join_iff (nested : Bytes) (bss : Bss) (h : Bss.parse nested = some bss) :
    (∀ (S : Platform) (c : Connection S) draws roaming r request,
        c.plan draws bss roaming = some r → .associate request ∈ r.2 → request.ies = [] →
        ¬ Protects (Nl80211.BssReport.ofNested nested).elements ∧
          (Nl80211.BssReport.ofNested nested).privacy = false) ↔
      ((Nl80211.BssReport.ofNested nested).privacy = true ∨
        (Protects (Nl80211.BssReport.ofNested nested).elements →
          ∃ el ∈ elements (Nl80211.BssReport.ofNested nested).elements, el.Legible)) := by
  obtain ⟨hrsn, hsecurity⟩ := bss_parse h
  rw [← beaconIes_isSome]
  constructor
  · intro hclear
    by_contra hno
    obtain ⟨hprivacy, hnothing⟩ := not_or.mp hno
    obtain ⟨hprotects, hnone⟩ := Classical.not_imp.mp hnothing
    obtain ⟨hnorsn, hnowpa⟩ := not_or.mp hnone
    rw [Option.not_isSome_iff_eq_none] at hnorsn hnowpa
    have hopen : bss.security = .open := by
      rw [hsecurity, BeaconIes.security, classify_open_iff, hnorsn]
      exact ⟨rfl, hnowpa, Bool.eq_false_iff.mpr hprivacy⟩
    obtain ⟨r, hplan, hmem⟩ := plan_open (hrsn.trans hnorsn) hopen
    exact (hclear _ _ _ _ _ _ hplan hmem rfl).1 hprotects
  · intro hcond S c draws roaming r request hplan hmem hies
    obtain ⟨hnorsn, hopen⟩ := planned_open (plan_planned hplan) hmem hies
    rw [hsecurity, BeaconIes.security, classify_open_iff] at hopen
    obtain ⟨-, hnowpa, hprivacy⟩ := hopen
    refine ⟨fun hprotects => ?_, hprivacy⟩
    rcases hcond with htrue | hlegible
    · rw [hprivacy] at htrue
      cases htrue
    · rcases hlegible hprotects with hsome | hsome
      · rw [← hrsn, hnorsn] at hsome
        cases hsome
      · rw [hnowpa] at hsome
        cases hsome

/-! ### An RSN element cut short -/

/-- A BSS nest: its BSSID, no Privacy bit, and the elements given. -/
def sampleNest (ies : Bytes) : Bytes :=
  [10, 0, 1, 0, 2, 0, 0, 0, 1, 0, 0, 0] ++ Bytes.toLE 2 (4 + ies.length) ++ [6, 0] ++ ies

/-- The SSID `n`, and an RSN element with one octet of its version left. -/
def sampleTruncated : Bytes := [0, 1, 110, 48, 1, 1]

/-- The SSID `n` and an RSN element. -/
def sampleRsn : Bytes := [0, 1, 110, 48, 2, 1, 0]

theorem open_join_sample : ∃ bss, Bss.parse (sampleNest sampleRsn) = some bss ∧
    ∀ (S : Platform) (c : Connection S) draws roaming r request, c.plan draws bss roaming = some r →
      .associate request ∈ r.2 → request.ies ≠ [] := by
  have hparse : (Bss.parse (sampleNest sampleRsn)).isSome = true := by decide
  obtain ⟨bss, hbss⟩ := Option.isSome_iff_exists.mp hparse
  refine ⟨bss, hbss, fun S c draws roaming r request hplan hmem hies => ?_⟩
  have hlegible : ∃ el ∈ elements (Nl80211.BssReport.ofNested (sampleNest sampleRsn)).elements,
      el.Legible := ⟨{ id := 48, payload := [1, 0], raw := [48, 2, 1, 0] }, by decide, .inl ⟨rfl, rfl⟩⟩
  have hclear := (open_join_iff (sampleNest sampleRsn) bss hbss).mpr (.inr fun _ => hlegible) S c draws
    roaming r request hplan hmem hies
  exact hclear.1 ⟨{ id := 48, payload := [1, 0], raw := [48, 2, 1, 0] }, .inl (by decide), .inl rfl⟩

/-- The elements hold an RSN element, and the network is joined in the clear. -/
theorem truncated_rsn_joined : ∃ bss, Bss.parse (sampleNest sampleTruncated) = some bss ∧
    Protects (Nl80211.BssReport.ofNested (sampleNest sampleTruncated)).elements ∧
    ∃ r request, (sampleAimed bss.ssid).plan .sample bss false = some r ∧
      .associate request ∈ r.2 ∧ request.ssid = [110] ∧ request.ies = [] := by
  have hparse : (Bss.parse (sampleNest sampleTruncated)).map Bss.ssid = some [110] := by decide
  obtain ⟨bss, hbss, hssid⟩ := Option.map_eq_some_iff.mp hparse
  obtain ⟨hrsn, hsecurity⟩ := bss_parse hbss
  have hnorsn : bss.rsn = none := hrsn.trans (by decide)
  have hopen : bss.security = .open := hsecurity.trans (by decide)
  obtain ⟨r, hplan, hmem⟩ := plan_open hnorsn hopen
  refine ⟨bss, hbss, ?_, r, _, hplan, hmem, hssid, rfl⟩
  exact ⟨{ id := 48, payload := [1], raw := [48, 1, 1] }, .inl (by decide), .inl rfl⟩

end Connection

end Caw
