import Caw.Eapol.Frag

/-!
# A restarted exchange

Whether an exchange that is asked to start again has anything left of what went before.

* `Exchange.step`, `Exchange.results`: requests and sends, as a machine, and what they return;
* `Agrees`, **`Agrees.step`**: exchanges that differ in a message already sent are the same to the
  outside;
* `Began`: what an exchange keeps of how it was made;
* **`fresh_iff`**: a restarted exchange is a fresh one exactly if nothing was left to send.
-/

set_option autoImplicit false

namespace Caw

namespace Frag

open Eapol (Error)
open Machine (exec Reachable)

namespace Exchange

/-- A call of the exchange. -/
inductive Op where
  | request (typeData : Bytes)
  | send (message : Bytes)

/-- What a call returns. -/
inductive Result where
  | incoming (r : Except Error Incoming)
  | first (packet : Option Bytes)

/-- One call. -/
def step (x : Exchange) : Op → Exchange × Result
  | .request typeData => ((x.onRequest typeData).2, .incoming (x.onRequest typeData).1)
  | .send message => ((x.send message).2, .first (x.send message).1)

/-- What a sequence of calls returns. -/
def results (x : Exchange) (ops : List Op) : List Result := Machine.outputs step x ops

/-! ## Exchanges that cannot be told apart -/

/-- The two differ at most in a message all of which has been sent. -/
structure Agrees (x y : Exchange) : Prop where
  inbound : x.inbound = y.inbound
  baseFlags : x.baseFlags = y.baseFlags
  mirrorVersion : x.mirrorVersion = y.mirrorVersion
  fragmentSize : x.outbound.fragmentSize = y.outbound.fragmentSize
  outbound : x.outbound = y.outbound ∨ (x.outbound.isEmpty = true ∧ y.outbound.isEmpty = true)

section Agrees

variable {x y : Exchange}

theorem queue_eq {f g : Fragmenter} (h : f.fragmentSize = g.fragmentSize) (message : Bytes) :
    f.queue message = g.queue message := by
  cases f
  cases g
  cases h
  rfl

theorem Agrees.mirror (h : Agrees x y) (fragment : Fragment) :
    Agrees (x.mirror fragment) (y.mirror fragment) := by
  obtain ⟨hin, hbase, hmirror, hsize, hout⟩ := h
  refine ⟨hin, ?_, hmirror, hsize, hout⟩
  rw [Exchange.mirror, Exchange.mirror, hmirror, hbase]

theorem Agrees.onRequest (h : Agrees x y) (typeData : Bytes) :
    (x.onRequest typeData).1 = (y.onRequest typeData).1 ∧
      Agrees (x.onRequest typeData).2 (y.onRequest typeData).2 := by
  rw [Exchange.onRequest, Exchange.onRequest]
  cases Fragment.parse typeData with
  | error e => exact ⟨rfl, h⟩
  | ok fragment =>
    obtain ⟨hin, hbase, hmirror, hsize, hout⟩ := h.mirror fragment
    simp only
    by_cases hstart : fragment.start = true
    · rw [if_pos hstart, if_pos hstart]
      exact ⟨rfl, ⟨rfl, hbase, hmirror, hsize, hout⟩⟩
    rw [if_neg hstart, if_neg hstart]
    have hempty : (x.mirror fragment).outbound.isEmpty = (y.mirror fragment).outbound.isEmpty := by
      rcases hout with heq | ⟨hx, hy⟩
      · rw [heq]
      · rw [hx, hy]
    by_cases hleft : (!(y.mirror fragment).outbound.isEmpty) = true
    · -- Something is left to send, so it is the same message.
      have hsame : (x.mirror fragment).outbound = (y.mirror fragment).outbound :=
        hout.resolve_right fun hboth => by simp [hboth.2] at hleft
      rw [hempty, if_pos hleft, if_pos hleft]
      by_cases hdata : (!fragment.data.isEmpty) = true
      · rw [if_pos hdata, if_pos hdata]
        exact ⟨rfl, ⟨hin, hbase, hmirror, hsize, hout⟩⟩
      · rw [if_neg hdata, if_neg hdata, hsame, hbase]
        exact ⟨rfl, ⟨hin, rfl, hmirror, rfl, .inl rfl⟩⟩
    · rw [hempty, if_neg hleft, if_neg hleft, hin]
      rcases (y.mirror fragment).inbound.push fragment with ⟨e | _ | message, inbound⟩
      · exact ⟨rfl, ⟨rfl, hbase, hmirror, hsize, hout⟩⟩
      · refine ⟨?_, ⟨rfl, hbase, hmirror, hsize, hout⟩⟩
        exact congrArg (fun base => Except.ok (Incoming.reply [base])) hbase
      · exact ⟨rfl, ⟨rfl, hbase, hmirror, hsize, hout⟩⟩

/-- **What agrees goes on to agree**, and returns the same. -/
theorem Agrees.step (h : Agrees x y) (op : Op) :
    (x.step op).2 = (y.step op).2 ∧ Agrees (x.step op).1 (y.step op).1 := by
  cases op with
  | request typeData =>
    obtain ⟨hresult, hnext⟩ := h.onRequest typeData
    exact ⟨congrArg Result.incoming hresult, hnext⟩
  | send message =>
    rw [Exchange.step, Exchange.step, Exchange.send, Exchange.send]
    by_cases hempty : message.isEmpty = true
    · rw [if_pos hempty, if_pos hempty]
      exact ⟨rfl, h⟩
    · rw [if_neg hempty, if_neg hempty, queue_eq h.fragmentSize, h.baseFlags]
      exact ⟨rfl, ⟨h.inbound, rfl, h.mirrorVersion, rfl, .inl rfl⟩⟩

theorem Agrees.results (h : Agrees x y) (ops : List Op) : x.results ops = y.results ops :=
  Machine.outputs_eq (R := Agrees) (fun _ _ hxy op => hxy.step op) h ops

end Agrees

/-! ## Restarts -/

/-- The exchange is still the one that was made with this fragment size, for a method that has a
version to mirror or has none. -/
structure Began (fragmentSize : ℕ) (mirrorVersion : Bool) (x : Exchange) : Prop where
  size : x.outbound.fragmentSize = max fragmentSize 1
  mirrors : x.mirrorVersion = mirrorVersion
  base : mirrorVersion = false → x.baseFlags = 0

section Restart

variable {x : Exchange} {fragmentSize : ℕ} {mirrorVersion : Bool} {typeData : Bytes}
  {fragment : Fragment}

theorem Began.mirror (h : Began fragmentSize mirrorVersion x) (fragment : Fragment) :
    Began fragmentSize mirrorVersion (x.mirror fragment) := by
  refine ⟨h.size, h.mirrors, fun hmirror => ?_⟩
  rw [Exchange.mirror, h.mirrors, hmirror]
  exact h.base hmirror

theorem Began.step (h : Began fragmentSize mirrorVersion x) (op : Op) :
    Began fragmentSize mirrorVersion (x.step op).1 := by
  cases op with
  | send message =>
    rw [Exchange.step, Exchange.send, Fragmenter.next]
    simp only
    split_ifs
    · exact h
    · exact ⟨h.size, h.mirrors, h.base⟩
    · exact ⟨h.size, h.mirrors, h.base⟩
  | request typeData =>
    rw [Exchange.step, Exchange.onRequest]
    cases Fragment.parse typeData with
    | error e => exact h
    | ok fragment =>
      obtain ⟨hsize, hversion, hbase⟩ := h.mirror fragment
      simp only
      split_ifs
      · exact ⟨hsize, hversion, hbase⟩
      · exact ⟨hsize, hversion, hbase⟩
      · exact ⟨hsize, hversion, hbase⟩
      · rcases (x.mirror fragment).inbound.push fragment with ⟨e | _ | message, inbound⟩ <;>
          exact ⟨hsize, hversion, hbase⟩

theorem began_exec (fragmentSize : ℕ) (mirrorVersion : Bool) (ops : List Op) :
    Began fragmentSize mirrorVersion (exec step (new fragmentSize mirrorVersion) ops) :=
  Reachable.invariant ⟨ops, rfl⟩ ⟨rfl, rfl, fun _ => rfl⟩ fun _ op h => h.step op

/-- A fresh exchange that mirrors the version of a request. -/
def fresh (fragmentSize : ℕ) (mirrorVersion : Bool) (fragment : Fragment) : Exchange :=
  (new fragmentSize mirrorVersion).mirror fragment

theorem step_start (hparse : Fragment.parse typeData = .ok fragment) (hstart : fragment.start = true) :
    (x.step (.request typeData)).1 = { x.mirror fragment with inbound := .new } := by
  rw [step, onRequest, hparse]
  simp only [if_pos hstart]
  rfl

theorem Began.agrees_fresh (h : Began fragmentSize mirrorVersion x)
    (hempty : x.outbound.isEmpty = true) (fragment : Fragment) :
    Agrees { x.mirror fragment with inbound := .new } (fresh fragmentSize mirrorVersion fragment) where
  inbound := rfl
  baseFlags := by
    rw [fresh, Exchange.mirror, Exchange.mirror, h.mirrors]
    cases mirrorVersion with
    | false => exact h.base rfl
    | true => rfl
  mirrorVersion := h.mirrors
  fragmentSize := h.size
  outbound := .inr ⟨hempty, rfl⟩

theorem onRequest_left (hleft : x.outbound.isEmpty = false) :
    ∃ packet, (x.onRequest [0]).1 = .ok (.reply packet) := by
  refine ⟨(x.outbound.cut (x.mirror ⟨0, none, []⟩).baseFlags).1, ?_⟩
  rw [onRequest, parse_ack masked_zero]
  simp [Fragment.start, mirror, hleft]

theorem onRequest_fresh (fragmentSize : ℕ) (mirrorVersion : Bool) (fragment : Fragment) :
    ((fresh fragmentSize mirrorVersion fragment).onRequest [0]).1 = .ok (.message []) := by
  rw [onRequest, parse_ack masked_zero]
  rfl

/-- **Which restarts carry nothing over**: those of an exchange that has nothing left to send. -/
theorem fresh_iff (fragmentSize : ℕ) (mirrorVersion : Bool) (earlier : List Op)
    (hparse : Fragment.parse typeData = .ok fragment) (hstart : fragment.start = true) :
    (∀ later, (exec step (new fragmentSize mirrorVersion) (earlier ++ [.request typeData])).results
        later = (fresh fragmentSize mirrorVersion fragment).results later) ↔
      (exec step (new fragmentSize mirrorVersion) earlier).outbound.isEmpty = true := by
  have hbegan := began_exec fragmentSize mirrorVersion earlier
  rw [Machine.exec_concat, step_start hparse hstart]
  generalize exec step (new fragmentSize mirrorVersion) earlier = x at hbegan ⊢
  constructor
  · intro hresults
    by_contra hempty
    have hleft : { x.mirror fragment with inbound := .new }.outbound.isEmpty = false :=
      Bool.not_eq_true _ ▸ hempty
    obtain ⟨packet, hreply⟩ := onRequest_left hleft
    have hfirst := List.head_eq_of_cons_eq (hresults [.request [0]])
    rw [Machine.entry_output, Machine.entry_output, step, step, hreply, onRequest_fresh] at hfirst
    cases hfirst
  · exact fun hempty later => (hbegan.agrees_fresh hempty fragment).results later

/-- A start. -/
def startRequest : Bytes := [flagStart]

theorem fresh_iff_start :
    (∀ later, (exec step (new 1 true) ([.send [7]] ++ [.request startRequest])).results later =
      (fresh 1 true ⟨flagStart, none, []⟩).results later) ↔
    (exec step (new 1 true) [.send [7]]).outbound.isEmpty = true :=
  fresh_iff 1 true [.send [7]] rfl (by decide)

/-- **A restart in the middle of a message** sends the rest of it afterwards. -/
theorem fresh_fails : ¬ ∀ later,
    (exec step (new 1 true) ([.send [7, 8]] ++ [.request startRequest])).results later =
      (fresh 1 true ⟨flagStart, none, []⟩).results later := by
  intro h
  have hfirst := List.head_eq_of_cons_eq (h [.request [0]])
  cases hfirst

end Restart

end Exchange

end Frag

end Caw
