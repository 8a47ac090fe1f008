import Caw.Dhcp.Client

/-!
# The times of a lease

When a lease is renewed, when it is rebound and when it ends, in the machine's own words.

* `defaultT1`, `defaultT2`, `renewSecs`, `rebindSecs`: the computation of `Lease.fromAck` in 32 and 64
  bits;
* `defaultT2_toNat`, `renewSecs_toNat`, `rebindSecs_toNat`: none of it overflows;
* `serverT1`, `serverT2`, `Granted`: the times a server names, and the lease they are held against;
* **`Dhcp.fromAck_times`**: the times of a lease are in order, and the server's are used exactly where
  they fit into it.
-/

set_option autoImplicit false

namespace Caw

namespace Dhcp

/-! ## The words of the machine -/

/-- Half the lease. -/
def defaultT1 (leaseSecs : UInt32) : UInt32 := (leaseSecs.toUInt64 / 2).toUInt32

/-- Seven eighths of it, by way of a product that needs more than 32 bits. -/
def defaultT2 (leaseSecs : UInt32) : UInt32 := (leaseSecs.toUInt64 * 7 / 8).toUInt32

/-- When a lease is renewed: the server's T1 where it is inside the lease. -/
def renewSecs (msg : Message) (leaseSecs : UInt32) : UInt32 :=
  match msg.get optT1 with
  | some (.t1 t) => if 0 < t ∧ t < leaseSecs then t else defaultT1 leaseSecs
  | _ => defaultT1 leaseSecs

/-- When a lease is rebound: the server's T2 where it is between the renewal and the end. -/
def rebindSecs (msg : Message) (leaseSecs renew : UInt32) : UInt32 :=
  match msg.get optT2 with
  | some (.t2 t) => if renew < t ∧ t < leaseSecs then t else max (defaultT2 leaseSecs) renew
  | _ => max (defaultT2 leaseSecs) renew

variable (msg : Message) (secs renew : UInt32)

theorem seven_mul_toNat : (secs.toUInt64 * 7).toNat = secs.toNat * 7 := by
  have hsecs := secs.toNat_lt
  rw [UInt64.toNat_mul, UInt32.toNat_toUInt64]
  exact Nat.mod_eq_of_lt (show secs.toNat * 7 < 2 ^ 64 by omega)

theorem defaultT1_toNat : (defaultT1 secs).toNat = secs.toNat / 2 := by
  have hsecs := secs.toNat_lt
  rw [defaultT1, UInt64.toNat_toUInt32, UInt64.toNat_div, UInt32.toNat_toUInt64]
  exact Nat.mod_eq_of_lt (show secs.toNat / 2 < 2 ^ 32 by omega)

theorem defaultT2_toNat : (defaultT2 secs).toNat = secs.toNat * 7 / 8 := by
  have hsecs := secs.toNat_lt
  rw [defaultT2, UInt64.toNat_toUInt32, UInt64.toNat_div, seven_mul_toNat]
  exact Nat.mod_eq_of_lt (show secs.toNat * 7 / 8 < 2 ^ 32 by omega)

theorem max_toNat (a b : UInt32) : (max a b).toNat = max a.toNat b.toNat := by
  show (if a ≤ b then b else a).toNat = _
  by_cases h : a ≤ b
  · rw [if_pos h, max_eq_right (UInt32.le_iff_toNat_le.mp h)]
  · rw [UInt32.le_iff_toNat_le] at h
    rw [if_neg (mt UInt32.le_iff_toNat_le.mp h), max_eq_left (Nat.le_of_not_le h)]

theorem renewSecs_toNat : (renewSecs msg secs).toNat = renewTime msg secs.toNat := by
  by_cases hserver : ∃ t, msg.get optT1 = some (.t1 t)
  · obtain ⟨t, ht⟩ := hserver
    simp only [renewSecs, renewTime, ht, UInt32.lt_iff_toNat_lt, UInt32.toNat_zero]
    split_ifs
    · rfl
    · exact defaultT1_toNat secs
  · have hsecs : renewSecs msg secs = defaultT1 secs := by
      unfold renewSecs
      split
      · rename_i t ht
        exact absurd ⟨t, ht⟩ hserver
      · rfl
    have htime : renewTime msg secs.toNat = secs.toNat / 2 := by
      unfold renewTime
      split
      · rename_i t ht
        exact absurd ⟨t, ht⟩ hserver
      · rfl
    rw [hsecs, htime, defaultT1_toNat]

theorem rebindSecs_toNat :
    (rebindSecs msg secs renew).toNat = rebindTime msg secs.toNat renew.toNat := by
  have hdefault : (max (defaultT2 secs) renew).toNat = max (secs.toNat * 7 / 8) renew.toNat := by
    rw [max_toNat, defaultT2_toNat]
  by_cases hserver : ∃ t, msg.get optT2 = some (.t2 t)
  · obtain ⟨t, ht⟩ := hserver
    simp only [rebindSecs, rebindTime, ht, UInt32.lt_iff_toNat_lt]
    split_ifs
    · rfl
    · exact hdefault
  · have hsecs : rebindSecs msg secs renew = max (defaultT2 secs) renew := by
      unfold rebindSecs
      split
      · rename_i t ht
        exact absurd ⟨t, ht⟩ hserver
      · rfl
    have htime : rebindTime msg secs.toNat renew.toNat = max (secs.toNat * 7 / 8) renew.toNat := by
      unfold rebindTime
      split
      · rename_i t ht
        exact absurd ⟨t, ht⟩ hserver
      · rfl
    rw [hsecs, htime, hdefault]

/-! ## The server's times -/

/-- The T1 that the server names. -/
def serverT1 : Option UInt32 :=
  match msg.get optT1 with
  | some (.t1 t) => some t
  | _ => none

/-- And its T2. -/
def serverT2 : Option UInt32 :=
  match msg.get optT2 with
  | some (.t2 t) => some t
  | _ => none

/-- A T1 that lies inside the lease. -/
def FitsT1 (t : UInt32) : Prop := 0 < t ∧ t < secs

/-- A T2 that lies between the renewal and the end of the lease. -/
def FitsT2 (t : UInt32) : Prop := renew < t ∧ t < secs

instance (t : UInt32) : Decidable (FitsT1 secs t) := inferInstanceAs (Decidable (_ ∧ _))

instance (t : UInt32) : Decidable (FitsT2 secs renew t) := inferInstanceAs (Decidable (_ ∧ _))

theorem renewSecs_eq : renewSecs msg secs =
    ((serverT1 msg).filter fun t => FitsT1 secs t).getD (defaultT1 secs) := by
  unfold renewSecs serverT1
  split
  · rename_i t _
    by_cases ht : FitsT1 secs t
    · rw [if_pos (show _ ∧ _ from ht), Option.filter_some, if_pos (decide_eq_true ht), Option.getD_some]
    · rw [if_neg (show ¬ (_ ∧ _) from ht), Option.filter_some, if_neg (by simpa using ht),
        Option.getD_none]
  · rfl

theorem rebindSecs_eq : rebindSecs msg secs renew =
    ((serverT2 msg).filter fun t => FitsT2 secs renew t).getD (max (defaultT2 secs) renew) := by
  unfold rebindSecs serverT2
  split
  · rename_i t _
    by_cases ht : FitsT2 secs renew t
    · rw [if_pos (show _ ∧ _ from ht), Option.filter_some, if_pos (decide_eq_true ht), Option.getD_some]
    · rw [if_neg (show ¬ (_ ∧ _) from ht), Option.filter_some, if_neg (by simpa using ht),
        Option.getD_none]
  · rfl

/-- **The renewal falls inside the lease**, whatever the server names. -/
theorem renewSecs_lt : (renewSecs msg secs).toNat ≤ secs.toNat ∧
    (0 < secs.toNat → (renewSecs msg secs).toNat < secs.toNat) := by
  rw [renewSecs_eq]
  cases h : (serverT1 msg).filter fun t => FitsT1 secs t with
  | none =>
    rw [Option.getD_none, defaultT1_toNat]
    omega
  | some t =>
    have ht : FitsT1 secs t := by simpa using (Option.filter_eq_some_iff.mp h).2
    have hlt : t.toNat < secs.toNat := UInt32.lt_iff_toNat_lt.mp ht.2
    rw [Option.getD_some]
    omega

/-- **And the rebinding between the renewal and the end.** -/
theorem rebindSecs_between (hle : renew.toNat ≤ secs.toNat)
    (hlt : 0 < secs.toNat → renew.toNat < secs.toNat) :
    renew.toNat ≤ (rebindSecs msg secs renew).toNat ∧
      (rebindSecs msg secs renew).toNat ≤ secs.toNat ∧
      (0 < secs.toNat → (rebindSecs msg secs renew).toNat < secs.toNat) := by
  rw [rebindSecs_eq]
  cases h : (serverT2 msg).filter fun t => FitsT2 secs renew t with
  | none =>
    rw [Option.getD_none, max_toNat, defaultT2_toNat]
    omega
  | some t =>
    have ht : FitsT2 secs renew t := by simpa using (Option.filter_eq_some_iff.mp h).2
    have hrenew : renew.toNat < t.toNat := UInt32.lt_iff_toNat_lt.mp ht.1
    have hend : t.toNat < secs.toNat := UInt32.lt_iff_toNat_lt.mp ht.2
    rw [Option.getD_some]
    omega

/-! ## What is read out of an ACK -/

/-- The times of a lease that was granted for so many seconds. -/
structure Granted (lease : Lease) : Prop where
  option : msg.get optLeaseTime = some (.leaseTime secs)
  ends : lease.leaseSecs = secs.toNat
  renew : lease.renewSecs = (renewSecs msg secs).toNat
  rebind : lease.rebindSecs = (rebindSecs msg secs (renewSecs msg secs)).toNat

variable {msg}

theorem granted_of_fromAck {lease : Lease} (h : Lease.fromAck msg = .ok lease) :
    ∃ secs, Granted msg secs lease := by
  unfold Lease.fromAck at h
  split at h
  · cases h
  · split_ifs at h
    split at h
    · split at h
      · cases h
      · split at h
        · rename_i secs hsecs
          split at h
          · cases h
          · cases h
            refine ⟨secs, hsecs, rfl, (renewSecs_toNat msg secs).symm, ?_⟩
            rw [rebindSecs_toNat, renewSecs_toNat]
        · cases h
    · cases h
  · cases h

/-- **The times of a lease are in order.** Of every ACK that is accepted, whatever lease time it
names and whatever T1 and T2: the renewal is not after the rebinding, and the rebinding not after the
end; both are before the end of a lease of any length at all; the server's T1 is used exactly where it
lies inside the lease, and its T2 exactly where it lies between the renewal and the end; and nothing
on the way overflows. -/
theorem fromAck_times {lease : Lease} (h : Lease.fromAck msg = .ok lease) :
    (lease.renewSecs ≤ lease.rebindSecs ∧ lease.rebindSecs ≤ lease.leaseSecs) ∧
    (0 < lease.leaseSecs →
      lease.renewSecs < lease.leaseSecs ∧ lease.rebindSecs < lease.leaseSecs) ∧
    ∃ secs renew rebind : UInt32, msg.get optLeaseTime = some (.leaseTime secs) ∧
      lease.leaseSecs = secs.toNat ∧ lease.renewSecs = renew.toNat ∧
      lease.rebindSecs = rebind.toNat ∧
      renew = ((serverT1 msg).filter fun t => FitsT1 secs t).getD (defaultT1 secs) ∧
      rebind =
        ((serverT2 msg).filter fun t => FitsT2 secs renew t).getD (max (defaultT2 secs) renew) ∧
      (secs.toUInt64 * 7).toNat = secs.toNat * 7 ∧
      (defaultT1 secs).toNat = secs.toNat / 2 ∧ (defaultT2 secs).toNat = secs.toNat * 7 / 8 := by
  obtain ⟨secs, hoption, hends, hrenew, hrebind⟩ := granted_of_fromAck h
  have hbefore := renewSecs_lt msg secs
  have hbetween := rebindSecs_between msg secs (renewSecs msg secs) hbefore.1 hbefore.2
  rw [← hends, ← hrenew, ← hrebind] at hbetween
  rw [← hends, ← hrenew] at hbefore
  exact ⟨⟨hbetween.1, hbetween.2.1⟩, fun hpos => ⟨hbefore.2 hpos, hbetween.2.2 hpos⟩, secs, _, _,
    hoption, hends, hrenew, hrebind, renewSecs_eq msg secs, rebindSecs_eq msg secs _,
    seven_mul_toNat secs, defaultT1_toNat secs, defaultT2_toNat secs⟩

/-- A lease without end, whose T1 is its end and whose T2 is a second before it. -/
def endlessAck : Message :=
  { Message.request 0 (.zero 6) with
    yiaddr := .broadcast
    options := [.messageType .ack, .subnetMask .broadcast, .leaseTime 0xffffffff,
      .serverId .broadcast, .t1 0xffffffff, .t2 0xfffffffe] }

/-- What is read out of it. -/
def endlessLease : Lease where
  addr := .broadcast
  prefixLen := 32
  gateway := none
  dns := []
  server := .broadcast
  leaseSecs := 4294967295
  renewSecs := 2147483647
  rebindSecs := 4294967294

theorem fromAck_endlessAck : Lease.fromAck endlessAck = .ok endlessLease := by decide +kernel

theorem fromAck_times_endless :
    (2147483647 ≤ 4294967294 ∧ 4294967294 ≤ endlessLease.leaseSecs) ∧
      endlessLease.rebindSecs < endlessLease.leaseSecs :=
  ⟨(fromAck_times fromAck_endlessAck).1,
    ((fromAck_times fromAck_endlessAck).2.1 (show 0 < 4294967295 by decide)).2⟩

end Dhcp

end Caw
