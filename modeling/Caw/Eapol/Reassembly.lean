import Caw.Eapol.Frag

/-!
# Reassembly against any peer

What a reassembler holds and returns, whatever fragments are pushed into it.

* `Reassembler.step`: pushes and resets, as a machine;
* `pieces`: the fragments taken in since the last message or reset;
* `Whole`: the law of what is held and what is returned;
* **`Reassembler.push_cases`**: what one fragment can do;
* `Gathers`, **`Gathers.step`**: what is held are the pieces, and their declared length bounds them;
* **`whole_run`**: every run keeps the law.
-/

set_option autoImplicit false

namespace Caw

namespace Frag

open Eapol (Error)
open Machine (Entry entry log Along)

namespace Reassembler

/-- A call of the reassembler. -/
inductive Op where
  | push (fragment : Fragment)
  | reset

/-- One call, and what a push returns. -/
def step (r : Reassembler) : Op → Reassembler × Option (Except Error (Option Bytes))
  | .push fragment => ((r.push fragment).2, some (r.push fragment).1)
  | .reset => (r.reset, none)

/-- A step of a reassembler's run. -/
abbrev Event : Type := Entry Reassembler Op (Option (Except Error (Option Bytes)))

/-! ## The law -/

/-- The fragments taken in, one call later: a fragment out of order is refused, and a message, a reset
or a fragment too large leaves nothing. -/
def gather (fs : List Fragment) (e : Event) : List Fragment :=
  match e.input, e.output with
  | .push fragment, some (.ok none) => fs ++ [fragment]
  | .push _, some (.error .fragmentOutOfOrder) => fs
  | _, _ => []

/-- The fragments taken in since the last message or reset. -/
def pieces (past : List Event) : List Fragment := past.foldl gather []

@[simp] theorem pieces_concat (past : List Event) (e : Event) :
    pieces (past ++ [e]) = gather (pieces past) e := by
  rw [pieces, List.foldl_append]
  rfl

/-- **The law of reassembly.** No more is held than the ceiling allows; and a message is the data of the
fragments taken in since the last one, as long as the first of them declared, and no later one declares
a length. -/
def Whole (past : List Event) (e : Event) : Prop :=
  e.post.buf.length ≤ maxTlsMessage ∧
    ∀ fragment message, e.input = .push fragment → e.output = some (.ok (some message)) →
      message = (pieces past ++ [fragment]).flatMap Fragment.data ∧
      (∀ first declared, (pieces past ++ [fragment]).head? = some first →
        first.declaredLen = some declared → message.length = declared) ∧
      ∀ later ∈ (pieces past ++ [fragment]).tail, later.declaredLen = none

/-! ## One fragment -/

theorem inProgress_eq_false {r : Reassembler} : r.inProgress = false ↔ r = new := by
  obtain ⟨buf, declared⟩ := r
  cases buf <;> cases declared <;> simp [inProgress, new]

/-- What a fragment says of the length, taken in: it opens a message and declares one, or it does not. -/
def Opens (r : Reassembler) (fragment : Fragment) (declared : Option ℕ) : Prop :=
  (∃ d, fragment.declaredLen = some d ∧ d ≤ maxTlsMessage ∧ r = new ∧ declared = some d) ∨
    (fragment.declaredLen = none ∧ declared = r.declared ∧ (r ≠ new ∨ fragment.more = false))

theorem extend_cases (r : Reassembler) (fragment : Fragment) :
    r.extend fragment = (.error .fragmentTooLarge, new) ∨
      ((∀ d, r.declared = some d → (r.buf ++ fragment.data).length ≤ d) ∧
        ((fragment.more = true ∧
            r.extend fragment = (.ok none, { r with buf := r.buf ++ fragment.data })) ∨
          (fragment.more = false ∧
            (∀ d, r.declared = some d → (r.buf ++ fragment.data).length = d) ∧
            r.extend fragment = (.ok (some (r.buf ++ fragment.data)), new)))) := by
  obtain ⟨buf, declared⟩ := r
  rw [extend]
  simp only
  by_cases hover : overflows { buf := buf ++ fragment.data, declared } = true
  · rw [if_pos hover]
    exact .inl rfl
  rw [if_neg hover]
  have hfits : ∀ d, declared = some d → (buf ++ fragment.data).length ≤ d := by
    rintro d rfl
    exact not_lt.mp fun hlt => hover (decide_eq_true hlt)
  by_cases hmore : fragment.more = true
  · rw [if_pos hmore]
    exact .inr ⟨hfits, .inl ⟨hmore, rfl⟩⟩
  rw [if_neg hmore]
  by_cases hshort : declared.any ((buf ++ fragment.data).length ≠ ·) = true
  · rw [if_pos hshort]
    exact .inl rfl
  rw [if_neg hshort]
  refine .inr ⟨hfits, .inr ⟨by simpa using hmore, ?_, rfl⟩⟩
  rintro d rfl
  simpa using hshort

/-- **One fragment**: it is refused, it is too large, it is taken in, or it completes the message. -/
theorem push_cases (r : Reassembler) (fragment : Fragment) :
    r.push fragment = (.error .fragmentOutOfOrder, r) ∨
      r.push fragment = (.error .fragmentTooLarge, new) ∨
      ∃ declared, Opens r fragment declared ∧
        (∀ d, declared = some d → (r.buf ++ fragment.data).length ≤ d) ∧
        ((fragment.more = true ∧
            r.push fragment = (.ok none, { buf := r.buf ++ fragment.data, declared })) ∨
          (fragment.more = false ∧
            (∀ d, declared = some d → (r.buf ++ fragment.data).length = d) ∧
            r.push fragment = (.ok (some (r.buf ++ fragment.data)), new))) := by
  rw [push]
  cases hlen : fragment.declaredLen with
  | some d =>
    simp only
    by_cases hbusy : r.inProgress = true
    · rw [if_pos hbusy]
      exact .inl rfl
    rw [if_neg hbusy]
    have hnew : r = new := inProgress_eq_false.mp (by simpa using hbusy)
    by_cases hlarge : maxTlsMessage < d
    · rw [if_pos hlarge, hnew]
      exact .inr (.inl rfl)
    rw [if_neg hlarge]
    refine .inr ((extend_cases { r with declared := some d } fragment).imp_right fun h => ?_)
    exact ⟨some d, .inl ⟨d, hlen, not_lt.mp hlarge, hnew, rfl⟩, h⟩
  | none =>
    simp only
    by_cases hlost : (!r.inProgress && fragment.more) = true
    · rw [if_pos hlost]
      exact .inl rfl
    rw [if_neg hlost]
    refine .inr ((extend_cases r fragment).imp_right fun h => ?_)
    refine ⟨r.declared, .inr ⟨hlen, rfl, ?_⟩, h⟩
    by_cases hnew : r = new
    · rw [inProgress_eq_false.mpr hnew] at hlost
      exact .inr (by simpa using hlost)
    · exact .inl hnew

/-! ## The invariant -/

/-- What is held are the pieces; the first of them declared a length, which bounds them, and no other
did. -/
structure Gathers (fs : List Fragment) (r : Reassembler) : Prop where
  buf : r.buf = fs.flatMap Fragment.data
  declared : r.declared = fs.head?.bind Fragment.declaredLen
  idle : r.declared = none → fs = []
  bounded : ∀ d, r.declared = some d → r.buf.length ≤ d ∧ d ≤ maxTlsMessage
  later : ∀ fragment ∈ fs.tail, fragment.declaredLen = none

theorem gathers_nil : Gathers [] new := ⟨rfl, rfl, fun _ => rfl, nofun, nofun⟩

section Gathers

variable {fs : List Fragment} {r : Reassembler} {fragment : Fragment} {declared : Option ℕ}

theorem Gathers.length_le (h : Gathers fs r) : r.buf.length ≤ maxTlsMessage := by
  cases hd : r.declared with
  | some d => exact (h.bounded d hd).1.trans (h.bounded d hd).2
  | none =>
    rw [h.buf, h.idle hd]
    exact Nat.zero_le _

theorem Gathers.nil_of_new (h : Gathers fs new) : fs = [] := h.idle rfl

theorem Gathers.opens (h : Gathers fs r) (hopens : Opens r fragment declared) :
    declared = (fs ++ [fragment]).head?.bind Fragment.declaredLen ∧
      r.buf ++ fragment.data = (fs ++ [fragment]).flatMap Fragment.data ∧
      (∀ later ∈ (fs ++ [fragment]).tail, later.declaredLen = none) ∧
      (∀ d, declared = some d → d ≤ maxTlsMessage) ∧
      (declared = none → fragment.more = false) := by
  have hbuf : r.buf ++ fragment.data = (fs ++ [fragment]).flatMap Fragment.data := by
    rw [List.flatMap_append, h.buf, List.flatMap_singleton]
  obtain ⟨d, hlen, hmax, rfl, rfl⟩ | ⟨hlen, rfl, hgoes⟩ := hopens
  · rw [h.nil_of_new] at hbuf ⊢
    refine ⟨hlen.symm, hbuf, nofun, ?_, nofun⟩
    rintro _ ⟨⟩
    exact hmax
  · cases fs with
    | nil =>
      have hnew : r = new := by
        obtain ⟨buf, declared⟩ := r
        exact congrArg₂ Reassembler.mk h.buf h.declared
      refine ⟨h.declared.trans hlen.symm, hbuf, nofun, fun d hd => (h.bounded d hd).2, fun _ => ?_⟩
      exact hgoes.resolve_left (not_not.mpr hnew)
    | cons first rest =>
      refine ⟨h.declared, hbuf, ?_, fun d hd => (h.bounded d hd).2, fun hd => ?_⟩
      · intro later hmem
        rcases List.mem_append.mp hmem with hmem | hmem
        · exact h.later later hmem
        · rw [List.mem_singleton.mp hmem]
          exact hlen
      · cases h.idle hd

end Gathers

variable {past : List Event} {r : Reassembler}

/-- **The invariant is kept.** -/
theorem Gathers.step (h : Gathers (pieces past) r) (op : Op) :
    Gathers (pieces (past ++ [entry Reassembler.step r op])) (r.step op).1 := by
  rw [pieces_concat]
  cases op with
  | reset => exact gathers_nil
  | push fragment =>
    rw [Reassembler.step]
    obtain hpush | hpush | ⟨declared, hopens, hfits, ⟨hmore, hpush⟩ | ⟨-, -, hpush⟩⟩ :=
      r.push_cases fragment
    · rw [entry, Reassembler.step, hpush]
      exact h
    · rw [entry, Reassembler.step, hpush]
      exact gathers_nil
    · obtain ⟨hdeclared, hbuf, hlater, hmax, hlast⟩ := h.opens hopens
      rw [entry, Reassembler.step, hpush]
      refine ⟨hbuf, hdeclared, fun hd => ?_, fun d hd => ⟨hfits d hd, hmax d hd⟩, hlater⟩
      cases hmore.symm.trans (hlast hd)
    · rw [entry, Reassembler.step, hpush]
      exact gathers_nil

theorem Gathers.whole (h : Gathers (pieces past) r) (op : Op) :
    Whole past (entry Reassembler.step r op) := by
  refine ⟨(h.step op).length_le, ?_⟩
  rintro fragment message hop hout
  rw [Machine.entry_input] at hop
  subst hop
  rw [Machine.entry_output, Reassembler.step] at hout
  obtain hpush | hpush | ⟨declared, hopens, -, ⟨-, hpush⟩ | ⟨-, hfull, hpush⟩⟩ := r.push_cases fragment
  · rw [hpush] at hout
    cases hout
  · rw [hpush] at hout
    cases hout
  · rw [hpush] at hout
    cases hout
  · rw [hpush] at hout
    cases hout
    obtain ⟨hdeclared, hbuf, hlater, -, -⟩ := h.opens hopens
    refine ⟨hbuf, fun first d hfirst hd => hfull d ?_, hlater⟩
    rw [hdeclared, hfirst]
    exact hd

/-- **Every message is whole.** Whatever is pushed, what is held stays below the ceiling, and a message
is made of the fragments of one message. -/
theorem whole_run (ops : List Op) : Along Whole (log Reassembler.step new ops) :=
  Machine.along_of_inv (G := fun _ _ => True) (J := fun past r => Gathers (pieces past) r)
    gathers_nil (fun _ _ op h _ => h.step op) (fun _ _ op h _ => h.whole op) ops
    fun _ _ _ _ => trivial

end Reassembler

end Frag

end Caw
