import Caw.Core.FileName
import Caw.Core.Policy
import Mathlib.Data.List.AList

/-!
# The profile store

One JSON file a network, in a directory of their own.

* `Node`, `Dir`, `Serde`: what a directory holds, and the reading and writing of a profile;
* `load`, `loadAll`, `save`, `delete`: the store;
* `Addressed`: the file under a name is the one the store finds by SSID;
* **`addressed_iff`**: a profile listed is addressed by the SSID of its name unless that is an alias;
* **`written_run`**: a directory only the store has written holds no alias, and every profile in it is
  under the name of its own SSID;
* **`file_names`**: names and SSIDs correspond, aliases apart;
* **`mem_loadAll`**, **`mem_loadAll_save`**, **`mem_loadAll_delete`**: what it lists, and what a save or a
  deletion makes of that.
-/

set_option autoImplicit false

namespace Caw

/-! ## Directories -/

/-- What a name in a directory stands for. -/
inductive Node where
  | file (bytes : Bytes)
  | directory
deriving DecidableEq

/-- The entries of a directory, by the octets of their names. -/
abbrev Dir : Type := AList fun _ : Bytes => Node

/-- How an operation on a file can fail. -/
inductive IoError where
  | notFound
  | other
deriving DecidableEq

/-- How an operation of the store can fail. -/
inductive StoreError where
  | io (error : IoError)
  | malformed
  | emptySsid
deriving DecidableEq

/-- The JSON form of a profile. -/
structure Serde where
  fromSlice : Bytes → Option Profile
  toVecPretty : Profile → Option Bytes

namespace Dir

/-- The contents of a file; the directory itself may be missing. -/
def read (dir : Option Dir) (name : Bytes) : Except IoError Bytes :=
  match dir.bind (AList.lookup name) with
  | none => .error .notFound
  | some .directory => .error .other
  | some (.file bytes) => .ok bytes

/-- A file created, or truncated and written. -/
def write (dir : Dir) (name bytes : Bytes) : Except IoError Dir :=
  match dir.lookup name with
  | some .directory => .error .other
  | _ => .ok (dir.insert name (.file bytes))

/-- A file moved over another name. -/
def rename (dir : Dir) (source target : Bytes) : Except IoError Dir :=
  match dir.lookup source, dir.lookup target with
  | none, _ => .error .notFound
  | some _, some .directory => .error .other
  | some node, _ => .ok ((dir.erase source).insert target node)

end Dir

/-! ## The store -/

namespace Store

variable (S : Serde)

/-- The name of a profile's file, as the directory has it. -/
def pathFor (ssid : Bytes) : Bytes := octetsOf (fileName ssid)

/-- Read one profile. -/
def load (dir : Option Dir) (ssid : Bytes) : Except StoreError (Option Profile) :=
  match Dir.read dir (pathFor ssid) with
  | .ok bytes =>
    match S.fromSlice bytes with
    | some profile => .ok (some profile)
    | none => .error .malformed
  | .error .notFound => .ok none
  | .error e => .error (.io e)

/-- The profile of a directory entry, unless it is to be skipped. -/
def loadEntry (entry : Sigma fun _ : Bytes => Node) : Option Profile :=
  match Text.ofOctets entry.1 with
  | none => none
  | some name =>
    if (ssidFromFileName name).isNone then none
    else
      match entry.2 with
      | .file bytes => S.fromSlice bytes
      | .directory => none

/-- Every profile in the directory. -/
def loadAll (dir : Option Dir) : List Profile :=
  match dir with
  | none => []
  | some dir => dir.entries.filterMap (loadEntry S)

/-- Where a profile is written before it is renamed. -/
def tempFor (ssid : Bytes) : Bytes := pathFor ssid ++ octetsOf ".tmp"

/-- Write a profile, replacing any earlier one for the same SSID. -/
def save (dir : Option Dir) (profile : Profile) : Except StoreError Unit × Option Dir :=
  if profile.ssid = [] then (.error .emptySsid, dir)
  else
    let dir := dir.getD ∅
    match S.toVecPretty profile with
    | none => (.error .malformed, some dir)
    | some json =>
      match dir.write (tempFor profile.ssid) json with
      | .error e => (.error (.io e), some dir)
      | .ok dir =>
        match dir.rename (tempFor profile.ssid) (pathFor profile.ssid) with
        | .error e => (.error (.io e), some dir)
        | .ok dir => (.ok (), some dir)

/-- Forget a network. -/
def delete (dir : Option Dir) (ssid : Bytes) : Except StoreError Bool × Option Dir :=
  match dir with
  | none => (.ok false, none)
  | some dir =>
    match dir.lookup (pathFor ssid) with
    | none => (.ok false, some dir)
    | some .directory => (.error (.io .other), some dir)
    | some (.file _) => (.ok true, some (dir.erase (pathFor ssid)))

variable {S}

/-! ## Names -/

theorem isSuffix_of_read {name : String} {ssid : Bytes} (h : ssidFromFileName name = some ssid) :
    octetsOf ".json" <:+ octetsOf name := by
  obtain ⟨-, pieces, hname, -⟩ := ssidFromFileName_eq_some_iff.mp h
  exact ⟨_, hname.symm⟩

theorem ssidFromFileName_temp {name : String} {ssid : Bytes} (h : octetsOf name = tempFor ssid) :
    ssidFromFileName name = none := by
  refine Option.eq_none_iff_forall_ne_some.mpr fun out hout => ?_
  obtain ⟨stem, hstem⟩ := isSuffix_of_read hout
  have hjson : octetsOf ".json" = [0x2e, 0x6a, 0x73, 0x6f] ++ [0x6e] := by decide +kernel
  have htmp : octetsOf ".tmp" = [0x2e, 0x74, 0x6d] ++ [0x70] := by decide +kernel
  rw [h, tempFor, hjson, htmp, ← List.append_assoc, ← List.append_assoc] at hstem
  exact absurd (List.append_inj_right' hstem rfl) (by decide)

theorem octetsOf_injective : Function.Injective octetsOf := Text.toUTF8_toList_injective

theorem pathFor_inj {a b : Bytes} (ha : a ≠ []) (hb : b ≠ []) (h : pathFor a = pathFor b) :
    a = b := by
  have hname := octetsOf_injective h
  have hread := ssidFromFileName_fileName ha
  rw [hname, ssidFromFileName_fileName hb] at hread
  exact (Option.some_inj.mp hread).symm

theorem pathFor_ne_tempFor {a b : Bytes} (ha : a ≠ []) : pathFor a ≠ tempFor b := by
  intro h
  have hread := ssidFromFileName_temp h
  rw [ssidFromFileName_fileName ha] at hread
  cases hread

/-! ## What an operation does -/

theorem read_eq_ok_iff {dir : Dir} {name bytes : Bytes} :
    Dir.read (some dir) name = .ok bytes ↔ dir.lookup name = some (.file bytes) := by
  rw [Dir.read, Option.bind_some]
  split
  · next h => simp [h]
  · next h => simp [h]
  · next h => simp [h]

theorem load_of_lookup {dir : Dir} {ssid bytes : Bytes} {p : Profile}
    (h : dir.lookup (pathFor ssid) = some (.file bytes)) (hp : S.fromSlice bytes = some p) :
    load S (some dir) ssid = .ok (some p) := by
  simp only [load, read_eq_ok_iff.mpr h, hp]

theorem write_eq_ok_iff {dir dir' : Dir} {name bytes : Bytes} :
    dir.write name bytes = .ok dir' ↔
      dir.lookup name ≠ some .directory ∧ dir' = dir.insert name (.file bytes) := by
  rw [Dir.write]
  split
  · next h => simp [h]
  · next h =>
    rw [Except.ok.injEq, and_iff_right h]
    exact eq_comm

theorem rename_eq_ok_iff {dir dir' : Dir} {source target : Bytes} :
    dir.rename source target = .ok dir' ↔
      ∃ node, dir.lookup source = some node ∧ dir.lookup target ≠ some .directory ∧
        dir' = (dir.erase source).insert target node := by
  rw [Dir.rename]
  split
  · next h => simp [h]
  · next hs ht => simp [hs, ht]
  · next hs ht =>
    rw [Except.ok.injEq]
    constructor
    · rintro rfl
      exact ⟨_, hs, ht, rfl⟩
    · rintro ⟨node, hnode, -, rfl⟩
      rw [hs] at hnode
      rw [Option.some_inj.mp hnode]

/-- **What a save leaves behind.** -/
theorem save_ok {dir dir' : Option Dir} {p : Profile} (h : save S dir p = (.ok (), dir')) :
    p.ssid ≠ [] ∧ ∃ json, S.toVecPretty p = some json ∧
      dir' = some ((((dir.getD ∅).insert (tempFor p.ssid) (.file json)).erase
        (tempFor p.ssid)).insert (pathFor p.ssid) (.file json)) := by
  rw [save] at h
  split_ifs at h with hempty
  · cases h
  refine ⟨hempty, ?_⟩
  split at h
  · cases h
  next json hjson =>
  refine ⟨json, hjson, ?_⟩
  dsimp only at h
  split at h
  · cases h
  next written hwrite =>
  obtain ⟨-, rfl⟩ := write_eq_ok_iff.mp hwrite
  split at h
  · cases h
  next renamed hrename =>
  obtain ⟨node, hnode, -, rfl⟩ := rename_eq_ok_iff.mp hrename
  rw [AList.lookup_insert] at hnode
  rw [← (Prod.mk.inj h).2, ← Option.some_inj.mp hnode]

theorem loadEntry_eq_some_iff {entry : Sigma fun _ : Bytes => Node} {p : Profile} :
    loadEntry S entry = some p ↔ ∃ name ssid bytes, entry.1 = octetsOf name ∧
      ssidFromFileName name = some ssid ∧ entry.2 = .file bytes ∧ S.fromSlice bytes = some p := by
  rw [loadEntry]
  constructor
  · intro h
    split at h
    · cases h
    next name hname =>
    split_ifs at h with hread
    rw [Option.isNone_iff_eq_none, ← ne_eq, Option.ne_none_iff_exists'] at hread
    obtain ⟨ssid, hssid⟩ := hread
    split at h
    · next bytes hnode =>
      exact ⟨name, ssid, bytes, (Text.ofOctets_eq_some_iff.mp hname).symm, hssid, hnode, h⟩
    · cases h
  · rintro ⟨name, ssid, bytes, hname, hssid, hnode, hp⟩
    have htext : Text.ofOctets entry.1 = some name := Text.ofOctets_eq_some_iff.mpr hname.symm
    rw [htext]
    simp only [hssid, hnode, hp, Option.isNone_some, Bool.false_eq_true, if_false]

/-! ## Listed and addressed -/

variable (S)

/-- The file under a name is the one the store finds by the SSID. -/
structure Addressed (dir : Dir) (name : String) (ssid : Bytes) (p : Profile) : Prop where
  load : load S (some dir) ssid = .ok (some p)
  delete : delete (some dir) ssid = (.ok true, some (dir.erase (octetsOf name)))
  save : ∀ q dir', q.ssid = ssid → save S (some dir) q = (.ok (), some dir') →
    (∃ json, S.toVecPretty q = some json ∧ dir'.lookup (octetsOf name) = some (.file json)) ∧
      ∀ other, other ≠ name → (ssidFromFileName other).isSome →
        dir'.lookup (octetsOf other) = dir.lookup (octetsOf other)

variable {S}

theorem addressed_of_fileName {dir : Dir} {ssid bytes : Bytes} {p : Profile}
    (h : dir.lookup (pathFor ssid) = some (.file bytes)) (hp : S.fromSlice bytes = some p) :
    Addressed S dir (fileName ssid) ssid p where
  load := load_of_lookup h hp
  delete := by simp only [Store.delete, h]; rfl
  save := by
    rintro q dir' rfl hsave
    obtain ⟨-, json, hjson, hdir⟩ := save_ok hsave
    obtain rfl := Option.some_inj.mp hdir
    refine ⟨⟨json, hjson, AList.lookup_insert _⟩, fun other hother hread => ?_⟩
    have hpath : octetsOf other ≠ pathFor q.ssid := fun heq => hother (octetsOf_injective heq)
    have htemp : octetsOf other ≠ tempFor q.ssid := by
      intro heq
      rw [ssidFromFileName_temp heq] at hread
      cases hread
    rw [AList.lookup_insert_ne hpath, AList.lookup_erase_ne htemp, AList.lookup_insert_ne htemp]
    rfl

/-- Deleting what is addressed takes it away, so it is under the name of its SSID. -/
theorem fileName_of_addressed {dir : Dir} {name : String} {ssid : Bytes} {p : Profile}
    (hname : octetsOf name ∈ dir) (h : Addressed S dir name ssid p) : fileName ssid = name := by
  by_contra hne
  have hpath : octetsOf name ≠ pathFor ssid := fun heq => hne (octetsOf_injective heq).symm
  have hdelete := h.delete
  simp only [delete] at hdelete
  split at hdelete
  · cases hdelete
  · cases hdelete
  · have herase := congrArg (AList.lookup (octetsOf name))
      (Option.some_inj.mp (Prod.mk.inj hdelete).2)
    rw [AList.lookup_erase, AList.lookup_erase_ne hpath] at herase
    exact absurd hname (AList.lookup_eq_none.mp herase)

/-- **A profile listed is addressed by its SSID unless its name is an alias.** -/
theorem addressed_iff {dir : Dir} {entry : Sigma fun _ : Bytes => Node} {p : Profile}
    (hentry : entry ∈ dir.entries) (h : loadEntry S entry = some p) :
    ∃ name ssid, entry.1 = octetsOf name ∧ ssidFromFileName name = some ssid ∧
      (Addressed S dir name ssid p ↔ ¬Alias name) := by
  obtain ⟨name, ssid, bytes, hname, hssid, hnode, hp⟩ := loadEntry_eq_some_iff.mp h
  refine ⟨name, ssid, hname, hssid, fun haddr => ?_, fun halias => ?_⟩
  · have hmem : octetsOf name ∈ dir := hname ▸ AList.mem_keys.mpr (List.mem_keys_of_mem hentry)
    refine fileName_eq_iff.mp fun out hout => ?_
    rw [hssid] at hout
    rw [← Option.some_inj.mp hout]
    exact fileName_of_addressed hmem haddr
  · obtain rfl : fileName ssid = name := fileName_eq_iff.mpr halias ssid hssid
    have hlookup : dir.lookup (pathFor ssid) = some (.file bytes) := by
      rw [pathFor, ← hname, AList.mem_lookup_iff.mpr hentry, hnode]
    exact addressed_of_fileName hlookup hp

/-- A profile listed is addressed by the SSID it holds exactly when its file has the name of that. -/
theorem addressed_own_iff {dir : Dir} {entry : Sigma fun _ : Bytes => Node} {p : Profile}
    {name : String} (hentry : entry ∈ dir.entries) (h : loadEntry S entry = some p)
    (hname : entry.1 = octetsOf name) : Addressed S dir name p.ssid p ↔ name = fileName p.ssid := by
  obtain ⟨_, _, bytes, -, -, hnode, hp⟩ := loadEntry_eq_some_iff.mp h
  constructor
  · intro haddr
    have hmem : octetsOf name ∈ dir := hname ▸ AList.mem_keys.mpr (List.mem_keys_of_mem hentry)
    exact (fileName_of_addressed hmem haddr).symm
  · rintro rfl
    have hlookup : dir.lookup (pathFor p.ssid) = some (.file bytes) := by
      rw [pathFor, ← hname, AList.mem_lookup_iff.mpr hentry, hnode]
    exact addressed_of_fileName hlookup hp

/-! ## Directories the store has written -/

/-- The states a store's own operations lead to, from no directory at all. -/
inductive Written (S : Serde) : Option Dir → Prop
  | start : Written S none
  | saved {dir : Option Dir} (p : Profile) : Written S dir → Written S (save S dir p).2
  | deleted {dir : Option Dir} (ssid : Bytes) : Written S dir → Written S (delete dir ssid).2

/-- A file the store puts in a directory: a profile under its own name, or a temporary one. -/
def Ours (S : Serde) (name : Bytes) (node : Node) : Prop :=
  ∃ p json, p.ssid ≠ [] ∧ S.toVecPretty p = some json ∧ node = .file json ∧
    (name = pathFor p.ssid ∨ name = tempFor p.ssid)

theorem lookup_save {dir : Option Dir} {p : Profile} {name : Bytes} {node : Node}
    (h : (save S dir p).2.bind (AList.lookup name) = some node) :
    dir.bind (AList.lookup name) = some node ∨ Ours S name node := by
  have hdir : ∀ {node}, (dir.getD ∅).lookup name = some node →
      dir.bind (AList.lookup name) = some node := by
    intro node hnode
    cases dir with
    | none => cases hnode
    | some dir => exact hnode
  rw [save] at h
  split_ifs at h with hempty
  · exact .inl h
  split at h
  · exact .inl (hdir h)
  next json hjson =>
  have hours : ∀ {name}, name = pathFor p.ssid ∨ name = tempFor p.ssid →
      Ours S name (.file json) :=
    fun hname => ⟨p, json, hempty, hjson, rfl, hname⟩
  have hwritten : ∀ {node}, ((dir.getD ∅).insert (tempFor p.ssid) (.file json)).lookup name =
      some node → dir.bind (AList.lookup name) = some node ∨ Ours S name node := by
    intro node hnode
    by_cases htemp : name = tempFor p.ssid
    · rw [htemp, AList.lookup_insert, Option.some_inj] at hnode
      rw [← hnode]
      exact .inr (hours (.inr htemp))
    · rw [AList.lookup_insert_ne htemp] at hnode
      exact .inl (hdir hnode)
  dsimp only at h
  split at h
  · exact .inl (hdir h)
  next written hwrite =>
  obtain ⟨-, rfl⟩ := write_eq_ok_iff.mp hwrite
  split at h
  · exact hwritten h
  next renamed hrename =>
  obtain ⟨moved, hmoved, -, rfl⟩ := rename_eq_ok_iff.mp hrename
  rw [AList.lookup_insert, Option.some_inj] at hmoved
  rw [Option.bind_some] at h
  by_cases hpath : name = pathFor p.ssid
  · rw [hpath, AList.lookup_insert, Option.some_inj] at h
    rw [← h, ← hmoved]
    exact .inr (hours (.inl hpath))
  · rw [AList.lookup_insert_ne hpath] at h
    by_cases htemp : name = tempFor p.ssid
    · rw [htemp, AList.lookup_erase] at h
      cases h
    · rw [AList.lookup_erase_ne htemp] at h
      exact hwritten h

theorem lookup_delete {dir : Option Dir} {ssid name : Bytes} {node : Node}
    (h : (delete dir ssid).2.bind (AList.lookup name) = some node) :
    dir.bind (AList.lookup name) = some node := by
  cases dir with
  | none => exact h
  | some dir =>
    rw [delete] at h
    split at h
    · exact h
    · exact h
    · rw [Option.bind_some] at h
      by_cases hname : name = pathFor ssid
      · rw [hname, AList.lookup_erase] at h
        cases h
      · rwa [AList.lookup_erase_ne hname] at h

/-- Every file of a directory only the store has written is one of its own. -/
theorem Written.ours {dir : Option Dir} (h : Written S dir) {name : Bytes} {node : Node}
    (hnode : dir.bind (AList.lookup name) = some node) : Ours S name node := by
  induction h generalizing name node with
  | start => cases hnode
  | saved p _ ih => exact (lookup_save hnode).elim ih id
  | deleted ssid _ ih => exact ih (lookup_delete hnode)

/-- **In a directory only the store has written**, where a profile reads back as it was written, every
profile listed is under the name of its own SSID, which finds it. -/
theorem written_run (hserde : ∀ p json, S.toVecPretty p = some json → S.fromSlice json = some p)
    {dir : Dir} (h : Written S (some dir)) {entry : Sigma fun _ : Bytes => Node} {p : Profile}
    (hentry : entry ∈ dir.entries) (hp : loadEntry S entry = some p) :
    entry.1 = pathFor p.ssid ∧ load S (some dir) p.ssid = .ok (some p) := by
  have hlookup : dir.lookup entry.1 = some entry.2 := AList.mem_lookup_iff.mpr hentry
  obtain ⟨name, ssid, bytes, hname, hssid, hnode, hbytes⟩ := loadEntry_eq_some_iff.mp hp
  obtain ⟨q, json, -, hjson, hfile, hpath⟩ := h.ours hlookup
  obtain rfl : bytes = json := Node.file.inj (hnode.symm.trans hfile)
  obtain rfl : p = q := Option.some_inj.mp (hbytes.symm.trans (hserde q bytes hjson))
  rcases hpath with hpath | htemp
  · rw [hpath, hfile] at hlookup
    exact ⟨hpath, load_of_lookup hlookup hbytes⟩
  · rw [ssidFromFileName_temp (hname.symm.trans htemp)] at hssid
    cases hssid

/-- **Names and SSIDs correspond, aliases apart.** The name of an SSID reads back as it; a name is
that of the SSID it reads as exactly when it is no alias, and then no other such name reads as that
SSID; a listed profile is the one the SSID of its name addresses exactly when that is no alias, and
the one its own SSID addresses exactly when the name is that of its own SSID; and in a directory only
the store has written it is. -/
theorem file_names (S : Serde) :
    (∀ ssid, ssid ≠ [] → ssidFromFileName (fileName ssid) = some ssid) ∧
    (∀ name, (∀ ssid, ssidFromFileName name = some ssid → fileName ssid = name) ↔ ¬Alias name) ∧
    (∀ a b ssid, ¬Alias a → ¬Alias b → ssidFromFileName a = some ssid →
      ssidFromFileName b = some ssid → a = b) ∧
    (∀ (dir : Dir) (entry : Sigma fun _ : Bytes => Node) (p : Profile), entry ∈ dir.entries →
      loadEntry S entry = some p →
      ∃ name ssid, entry.1 = octetsOf name ∧ ssidFromFileName name = some ssid ∧
        (Addressed S dir name ssid p ↔ ¬Alias name) ∧
        (Addressed S dir name p.ssid p ↔ name = fileName p.ssid)) ∧
    ((∀ p json, S.toVecPretty p = some json → S.fromSlice json = some p) →
      ∀ dir : Dir, Written S (some dir) → ∀ (entry : Sigma fun _ : Bytes => Node) (p : Profile),
        entry ∈ dir.entries → loadEntry S entry = some p → entry.1 = pathFor p.ssid) := by
  refine ⟨fun ssid => ssidFromFileName_fileName, fun name => fileName_eq_iff, ?_, ?_,
    fun hserde dir hwritten entry p hentry hp => (written_run hserde hwritten hentry hp).1⟩
  · intro a b ssid ha hb hreadA hreadB
    rw [← fileName_eq_iff.mpr ha ssid hreadA, ← fileName_eq_iff.mpr hb ssid hreadB]
  · intro dir entry p hentry hp
    obtain ⟨name, ssid, hname, hread, haddr⟩ := addressed_iff hentry hp
    exact ⟨name, ssid, hname, hread, haddr, addressed_own_iff hentry hp hname⟩

/-- An escaped letter: two names are read as one network. -/
theorem escaped_letter :
    ssidFromFileName "%41.json" = some [0x41] ∧ fileName [0x41] ≠ "%41.json" ∧
      ssidFromFileName "A.json" = some [0x41] := by
  decide +kernel

/-! ## What is listed -/

theorem pathFor_ne {a b : Bytes} (ha : a ≠ []) (hab : a ≠ b) : pathFor a ≠ pathFor b := by
  intro h
  by_cases hb : b = []
  · subst hb
    have hread : ssidFromFileName (fileName []) = none := by decide +kernel
    rw [← octetsOf_injective h, ssidFromFileName_fileName ha] at hread
    cases hread
  · exact hab (pathFor_inj ha hb h)

theorem load_eq_ok_some_iff {dir : Option Dir} {ssid : Bytes} {p : Profile} :
    load S dir ssid = .ok (some p) ↔ ∃ bytes,
      dir.bind (AList.lookup (pathFor ssid)) = some (.file bytes) ∧ S.fromSlice bytes = some p := by
  cases dir with
  | none =>
    have hload : load S none ssid = .ok none := rfl
    rw [hload]
    simp
  | some dir =>
    constructor
    · intro h
      rw [load] at h
      split at h
      · rename_i bytes hbytes
        split at h
        · rename_i q hq
          cases h
          exact ⟨bytes, read_eq_ok_iff.mp hbytes, hq⟩
        · cases h
      · cases h
      · cases h
    · rintro ⟨bytes, hlookup, hp⟩
      exact load_of_lookup hlookup hp

section Listed

variable (hserde : ∀ p json, S.toVecPretty p = some json → S.fromSlice json = some p)
  {dir dir' : Option Dir} {p q : Profile} {ssid : Bytes}
include hserde

/-- **In a directory only the store has written**, the profiles listed are those found by SSID. -/
theorem mem_loadAll (h : Written S dir) :
    p ∈ loadAll S dir ↔ p.ssid ≠ [] ∧ load S dir p.ssid = .ok (some p) := by
  cases dir with
  | none => simp [loadAll, load_eq_ok_some_iff]
  | some dir =>
    rw [loadAll, List.mem_filterMap]
    constructor
    · rintro ⟨entry, hentry, hp⟩
      refine ⟨?_, (written_run hserde h hentry hp).2⟩
      have hlookup : dir.lookup entry.1 = some entry.2 := AList.mem_lookup_iff.mpr hentry
      obtain ⟨-, -, bytes, -, -, hnode, hbytes⟩ := loadEntry_eq_some_iff.mp hp
      obtain ⟨q, json, hssid, hjson, hfile, -⟩ := h.ours hlookup
      have heq : bytes = json := Node.file.inj (hnode.symm.trans hfile)
      have hread : S.fromSlice json = some p := heq ▸ hbytes
      obtain rfl : p = q := Option.some_inj.mp (hread.symm.trans (hserde q json hjson))
      exact hssid
    · rintro ⟨hssid, hload⟩
      obtain ⟨bytes, hlookup, hp⟩ := load_eq_ok_some_iff.mp hload
      exact ⟨⟨pathFor p.ssid, .file bytes⟩, AList.mem_lookup_iff.mp hlookup,
        loadEntry_eq_some_iff.mpr
          ⟨fileName p.ssid, p.ssid, bytes, rfl, ssidFromFileName_fileName hssid, rfl, hp⟩⟩

/-- **A profile saved takes the place of any other one for its SSID.** -/
theorem mem_loadAll_save (h : Written S dir) (hsave : save S dir p = (.ok (), dir')) :
    q ∈ loadAll S dir' ↔ q = p ∨ (q ∈ loadAll S dir ∧ q.ssid ≠ p.ssid) := by
  have hwritten : Written S dir' := by
    have hstep := h.saved p
    rwa [hsave] at hstep
  obtain ⟨hssid, json, hjson, hdir⟩ := save_ok hsave
  rw [mem_loadAll hserde hwritten, mem_loadAll hserde h, load_eq_ok_some_iff, load_eq_ok_some_iff,
    hdir, Option.bind_some]
  by_cases hq : q.ssid = p.ssid
  · rw [hq, AList.lookup_insert]
    constructor
    · rintro ⟨-, bytes, hbytes, hread⟩
      cases hbytes
      exact .inl (Option.some_inj.mp (hread.symm.trans (hserde p json hjson)))
    · rintro (rfl | ⟨-, hne⟩)
      · exact ⟨hssid, json, rfl, hserde q json hjson⟩
      · exact absurd rfl hne
  · have hne : q ≠ p := fun heq => hq (heq ▸ rfl)
    rw [or_iff_right hne, and_iff_left hq]
    refine and_congr_right fun hempty => ?_
    have htemp := pathFor_ne_tempFor (b := p.ssid) hempty
    rw [AList.lookup_insert_ne (pathFor_ne hempty hq), AList.lookup_erase_ne htemp,
      AList.lookup_insert_ne htemp]
    cases dir <;> rfl

theorem mem_loadAll_save_error {e : StoreError} (h : Written S dir)
    (hsave : save S dir p = (.error e, dir')) : q ∈ loadAll S dir' ↔ q ∈ loadAll S dir := by
  have hwritten : Written S dir' := by
    have hstep := h.saved p
    rwa [hsave] at hstep
  rw [mem_loadAll hserde hwritten, mem_loadAll hserde h]
  refine and_congr_right fun hempty => ?_
  have hsame : (some (dir.getD ∅)).bind (AList.lookup (pathFor q.ssid)) =
      dir.bind (AList.lookup (pathFor q.ssid)) := by cases dir <;> rfl
  have hlookup : dir'.bind (AList.lookup (pathFor q.ssid)) =
      dir.bind (AList.lookup (pathFor q.ssid)) := by
    rw [save] at hsave
    split_ifs at hsave
    · cases hsave
      rfl
    split at hsave
    · cases hsave
      exact hsame
    dsimp only at hsave
    split at hsave
    · cases hsave
      exact hsame
    next written hwrite =>
    obtain ⟨-, rfl⟩ := write_eq_ok_iff.mp hwrite
    split at hsave
    · cases hsave
      rw [Option.bind_some, AList.lookup_insert_ne (pathFor_ne_tempFor hempty)]
      exact hsame
    · cases hsave
  rw [load_eq_ok_some_iff, load_eq_ok_some_iff, hlookup]

/-- **A network forgotten is not listed any more**, and no other one goes with it. -/
theorem mem_loadAll_delete (h : Written S dir) {deleted : Bool}
    (hdelete : delete dir ssid = (.ok deleted, dir')) :
    q ∈ loadAll S dir' ↔ q ∈ loadAll S dir ∧ q.ssid ≠ ssid := by
  have hwritten : Written S dir' := by
    have hstep := h.deleted ssid
    rwa [hdelete] at hstep
  rw [mem_loadAll hserde hwritten, mem_loadAll hserde h, and_assoc]
  refine and_congr_right fun hempty => ?_
  rw [load_eq_ok_some_iff, load_eq_ok_some_iff]
  cases dir with
  | none =>
    cases hdelete
    simp
  | some dir =>
    rw [delete] at hdelete
    split at hdelete
    · rename_i hnone
      cases hdelete
      by_cases hq : q.ssid = ssid
      · simp [hq, hnone]
      · rw [and_iff_left hq]
    · cases hdelete
    · cases hdelete
      simp only [Option.bind_some]
      by_cases hq : q.ssid = ssid
      · rw [hq, AList.lookup_erase]
        simp
      · rw [and_iff_left hq, AList.lookup_erase_ne (pathFor_ne hempty hq)]

end Listed

end Store

end Caw
