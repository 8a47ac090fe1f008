import Caw.Lib.Gather
import Caw.Lib.Utf8
import Caw.Nl80211.Event

/-!
# Wireless PHYs

What radios there are and what they can do, gathered from the messages of a dump.

* `ExtFeatures.has`, `WiphyChunk.parse`, `WiphyChunk.mergeInto`, `wiphys`: one message, and a dump;
* `Describes`, `chunkOf`, **`parse_eq`**: what a message says about the PHY it names;
* `Parts`: attributes spread over messages, each of them in one;
* `foldl_into_eq`, **`into_parts`**: what is gathered from the parts is what the whole says;
* `Split`: a dump that spreads every PHY over as many messages as it likes, in any order;
* **`wiphys_split`**: it yields what a dump with one message for each PHY yields.
-/

set_option autoImplicit false

namespace Caw

namespace Nl80211

/-- Attribute: the name of the radio. -/
def attrWiphyName : ℕ := 2
/-- Attribute: the interface types the radio supports. -/
def attrSupportedIftypes : ℕ := 32
/-- Attribute: the extended features, a bit each. -/
def attrExtFeatures : ℕ := 217

/-- The interface type of an access point. -/
def iftypeAp : ℕ := 3

/-- Feature: the four-way handshake with a PSK in firmware. -/
def extFeature4wayHandshakeStaPsk : ℕ := 15
/-- Feature: the four-way handshake after 802.1X in firmware. -/
def extFeature4wayHandshakeSta1x : ℕ := 16
/-- Feature: SAE in firmware. -/
def extFeatureSaeOffload : ℕ := 38

/-- The bitmap of extended features, the least significant bit of its first octet first. -/
structure ExtFeatures where
  bitmap : Bytes
deriving DecidableEq

/-- A kernel older than the feature sends fewer octets: what is not there is not supported. -/
def ExtFeatures.has (f : ExtFeatures) (index : ℕ) : Bool :=
  (f.bitmap[index / 8]?).any fun b => b &&& (1 <<< UInt8.ofNat (index % 8)) ≠ 0

/-- A wireless PHY and its capabilities. -/
structure Wiphy where
  index : UInt32
  name : String
  supportsAp : Bool
  offloads4wayPsk : Bool
  offloads4way1x : Bool
  offloadsSae : Bool
deriving DecidableEq

/-- What one message of a dump says. -/
structure WiphyChunk where
  index : UInt32
  name : Option String
  supportsAp : Bool
  features : Option ExtFeatures
deriving DecidableEq

/-- A string that ends with a zero. -/
def strOf (payload : Bytes) : Option String :=
  (payload.findIdx? fun b => b = 0).bind fun stop => Text.ofOctets (payload.take stop)

/-- The types of the nested flags are the interface types. -/
def nestsAp (payload : Bytes) : Bool :=
  (attrsFrom payload.length payload).any fun t => t.kind = iftypeAp

namespace WiphyChunk

/-- Nothing said yet. -/
def empty : WiphyChunk where
  index := 0xffffffff
  name := none
  supportsAp := false
  features := none

/-- One attribute, with whether an index has been seen. -/
def addAttr (state : WiphyChunk × Bool) (a : Attr) : Option (WiphyChunk × Bool) :=
  if a.kind = attrWiphy then (u32Of a.payload).map fun index => ({ state.1 with index }, true)
  else if a.kind = attrWiphyName then some ({ state.1 with name := strOf a.payload }, state.2)
  else if a.kind = attrSupportedIftypes then
    some ({ state.1 with supportsAp := nestsAp a.payload }, state.2)
  else if a.kind = attrExtFeatures then some ({ state.1 with features := some ⟨a.payload⟩ }, state.2)
  else some state

/-- Read one message about a radio. -/
def parse (payload : Bytes) : Option WiphyChunk :=
  ((attrs payload).foldlM addAttr (empty, false)).bind fun state =>
    if state.2 then some state.1 else none

/-- Never clear a capability another chunk established. -/
def mergeInto (chunk : WiphyChunk) (wiphy : Wiphy) : Wiphy where
  index := wiphy.index
  name := chunk.name.getD wiphy.name
  supportsAp := wiphy.supportsAp || chunk.supportsAp
  offloads4wayPsk := wiphy.offloads4wayPsk || chunk.features.any (·.has extFeature4wayHandshakeStaPsk)
  offloads4way1x := wiphy.offloads4way1x || chunk.features.any (·.has extFeature4wayHandshakeSta1x)
  offloadsSae := wiphy.offloadsSae || chunk.features.any (·.has extFeatureSaeOffload)

/-- A PHY nothing is known about. -/
def blank (index : UInt32) : Wiphy where
  index := index
  name := ""
  supportsAp := false
  offloads4wayPsk := false
  offloads4way1x := false
  offloadsSae := false

/-- The radio that one message tells of. -/
def intoWiphy (chunk : WiphyChunk) : Wiphy := chunk.mergeInto (blank chunk.index)

end WiphyChunk

open WiphyChunk (addAttr parse mergeInto intoWiphy blank)

/-- Every PHY, from the messages of a dump. -/
def wiphys (payloads : List Bytes) : List Wiphy :=
  Gather.sorted (fun a b => decide (a ≤ b)) Wiphy.index
    (Gather.all Wiphy.index WiphyChunk.index intoWiphy mergeInto (payloads.filterMap parse))

/-! ## One message -/

/-- The message names its PHY. -/
def Describes (index : UInt32) (payload : Bytes) : Prop :=
  (∃ a ∈ attrs payload, a.kind = attrWiphy) ∧
    ∀ a ∈ attrs payload, a.kind = attrWiphy → u32Of a.payload = some index

deriving instance DecidableEq for Attr

/-- The attributes of a type. -/
def ofKind (kind : ℕ) (l : List Attr) : List Attr := l.filter fun a => a.kind = kind

/-- The payload of the last of them. -/
def last (l : List Attr) : Option Bytes := l.getLast?.map Attr.payload

/-- What attributes say of a PHY. -/
def chunkOf (index : UInt32) (l : List Attr) : WiphyChunk where
  index := index
  name := (last (ofKind attrWiphyName l)).bind strOf
  supportsAp := (last (ofKind attrSupportedIftypes l)).any nestsAp
  features := (last (ofKind attrExtFeatures l)).map ExtFeatures.mk

theorem last_ofKind_concat (kind : ℕ) (l : List Attr) (a : Attr) :
    last (ofKind kind (l ++ [a])) = if a.kind = kind then some a.payload else last (ofKind kind l) := by
  rw [ofKind, List.filter_append]
  by_cases ha : a.kind = kind
  · simp [last, ha]
  · simp [last, ofKind, ha]

theorem foldlM_addAttr {index : UInt32} {l : List Attr}
    (h : ∀ a ∈ l, a.kind = attrWiphy → u32Of a.payload = some index) :
    l.foldlM addAttr (.empty, false) =
      some (chunkOf (if l.any (fun a => a.kind = attrWiphy) then index else 0xffffffff) l,
        l.any fun a => a.kind = attrWiphy) := by
  induction l using List.reverseRecOn with
  | nil => rfl
  | append_singleton l a ih =>
    rw [List.foldlM_append, ih fun b hb => h b (List.mem_append_left _ hb)]
    have hlast := h a (by simp)
    simp only [Option.bind_eq_bind, Option.bind_some, List.foldlM_cons, List.foldlM_nil, addAttr,
      chunkOf, last_ofKind_concat, List.any_append, List.any_cons, List.any_nil, Bool.or_false]
    by_cases hwiphy : a.kind = attrWiphy
    · simp [hwiphy, hlast hwiphy, attrWiphy, attrWiphyName, attrSupportedIftypes, attrExtFeatures]
    by_cases hname : a.kind = attrWiphyName
    · simp [hname, attrWiphy, attrWiphyName, attrSupportedIftypes, attrExtFeatures]
    by_cases htypes : a.kind = attrSupportedIftypes
    · simp [htypes, attrWiphy, attrWiphyName, attrSupportedIftypes, attrExtFeatures]
    by_cases hfeatures : a.kind = attrExtFeatures
    · simp [hfeatures, attrWiphy, attrWiphyName, attrSupportedIftypes, attrExtFeatures]
    · simp [hwiphy, hname, htypes, hfeatures]

/-- **A message that names its PHY** is read as what its attributes say. -/
theorem parse_eq {index : UInt32} {payload : Bytes} (h : Describes index payload) :
    parse payload = some (chunkOf index (attrs payload)) := by
  have hany : (attrs payload).any (fun a => a.kind = attrWiphy) = true := by simpa using h.1
  rw [parse, foldlM_addAttr h.2, hany]
  rfl

/-! ## Many messages -/

/-- The attributes of this type are spread over the messages as one of them. -/
def Parts (kind : ℕ) (ls : List (List Attr)) (l : List Attr) : Prop :=
  ∃ m n, ls.map (ofKind kind) = List.replicate m [] ++ ofKind kind l :: List.replicate n []

section Parts

variable {kind : ℕ} {ls : List (List Attr)} {l : List Attr}

theorem ofKind_eq_nil (h : ∀ a ∈ l, a.kind ≠ kind) : ofKind kind l = [] :=
  List.filter_eq_nil_iff.mpr fun a ha => by simpa using h a ha

theorem Parts.of_mem {ls' : List (List Attr)} {l' : List Attr}
    (h : ∀ k ∈ ls, ∀ a ∈ k, a.kind ≠ kind) (h' : ∀ k ∈ ls', ∀ a ∈ k, a.kind ≠ kind)
    (heq : ofKind kind l' = ofKind kind l) : Parts kind (ls ++ l' :: ls') l := by
  have hnil : ∀ ks : List (List Attr), (∀ k ∈ ks, ∀ a ∈ k, a.kind ≠ kind) →
      ks.map (ofKind kind) = List.replicate ks.length [] := fun ks hks =>
    List.map_eq_replicate_iff.mpr fun k hk => ofKind_eq_nil (hks k hk)
  refine ⟨ls.length, ls'.length, ?_⟩
  rw [List.map_append, List.map_cons, hnil ls h, hnil ls' h', heq]

theorem Parts.ne_nil (h : Parts kind ls l) : ls ≠ [] := by
  rintro rfl
  obtain ⟨m, n, heq⟩ := h
  have hlen := congrArg List.length heq
  simp at hlen

theorem Parts.of_name {l₁ l₂ : List Attr} (h₁ : l₁ = l.filter fun a => a.kind ≠ attrWiphyName)
    (h₂ : ∀ a ∈ l₂, a.kind = attrWiphy ∨ a.kind = attrWiphyName)
    (hname : ofKind attrWiphyName l₂ = ofKind attrWiphyName l) (hkind : kind ≠ attrWiphy) :
    Parts kind [l₁, l₂] l := by
  by_cases hk : kind = attrWiphyName
  · subst hk
    show Parts attrWiphyName ([l₁] ++ l₂ :: []) l
    refine Parts.of_mem (fun k hmem a ha => ?_) (by simp) hname
    rw [List.mem_singleton.mp hmem, h₁] at ha
    simpa using (List.mem_filter.mp ha).2
  · show Parts kind ([] ++ l₁ :: [l₂]) l
    refine Parts.of_mem (by simp) (fun k hmem a ha heq => ?_) ?_
    · rw [List.mem_singleton.mp hmem] at ha
      rcases h₂ a ha with h | h
      · exact hkind (heq.symm.trans h)
      · exact hk (heq.symm.trans h)
    · rw [h₁, ofKind, ofKind, List.filter_filter]
      refine List.filter_congr fun a _ => ?_
      by_cases ha : a.kind = kind
      · simp [ha, hk]
      · simp [ha]

/-- What is read of the attributes of this type is read of one of the messages. -/
theorem Parts.map {γ : Type} (h : Parts kind ls l) (f : List Attr → γ) :
    ∃ m n, (ls.map fun l' => f (ofKind kind l')) =
      List.replicate m (f []) ++ f (ofKind kind l) :: List.replicate n (f []) := by
  obtain ⟨m, n, heq⟩ := h
  refine ⟨m, n, ?_⟩
  have hmap := congrArg (List.map f) heq
  simpa [Function.comp_def] using hmap

theorem Parts.any_eq (h : Parts kind ls l) {f : List Attr → Bool} (hf : f [] = false) :
    ls.any (fun l' => f (ofKind kind l')) = f (ofKind kind l) := by
  obtain ⟨m, n, heq⟩ := h.map f
  have hany := congrArg (List.any · id) heq
  simpa [hf, Function.comp_def] using hany

theorem Parts.getD_eq (h : Parts kind ls l) {f : List Attr → Option String} (hf : f [] = none)
    (name : String) :
    ls.foldl (fun name l' => (f (ofKind kind l')).getD name) name =
      (f (ofKind kind l)).getD name := by
  obtain ⟨m, n, heq⟩ := h.map f
  have hskip : ∀ n name, (List.replicate n (none : Option String)).foldl (fun name o => o.getD name)
      name = name := by
    intro n name
    induction n with
    | zero => rfl
    | succ n ih => exact ih
  have hfold : ls.foldl (fun name l' => (f (ofKind kind l')).getD name) name =
      (ls.map fun l' => f (ofKind kind l')).foldl (fun name o => o.getD name) name := by
    rw [List.foldl_map]
  rw [hfold, heq, hf, List.foldl_append, hskip, List.foldl_cons, hskip]

end Parts

theorem foldl_into_eq (index : UInt32) (ls : List (List Attr)) (hne : ls ≠ []) :
    (ls.map (chunkOf index)).foldl (Gather.into intoWiphy mergeInto) none = some
      { index := index
        name := ls.foldl
          (fun name l => ((last (ofKind attrWiphyName l)).bind strOf).getD name) ""
        supportsAp := ls.any fun l => (last (ofKind attrSupportedIftypes l)).any nestsAp
        offloads4wayPsk := ls.any fun l => ((last (ofKind attrExtFeatures l)).map ExtFeatures.mk).any
          (·.has extFeature4wayHandshakeStaPsk)
        offloads4way1x := ls.any fun l => ((last (ofKind attrExtFeatures l)).map ExtFeatures.mk).any
          (·.has extFeature4wayHandshakeSta1x)
        offloadsSae := ls.any fun l => ((last (ofKind attrExtFeatures l)).map ExtFeatures.mk).any
          (·.has extFeatureSaeOffload) } := by
  induction ls using List.reverseRecOn with
  | nil => exact absurd rfl hne
  | append_singleton ls l ih =>
    rw [List.map_append, List.foldl_append]
    rcases List.eq_nil_or_concat ls with rfl | ⟨ls', l', rfl⟩
    · simp [Gather.into, intoWiphy, mergeInto, blank, chunkOf]
    · rw [ih (by simp)]
      simp [Gather.into, mergeInto, chunkOf, List.foldl_append, List.any_append, Bool.or_assoc]

/-- **The parts say what the whole says.** -/
theorem into_parts {index : UInt32} {ls : List (List Attr)} {l : List Attr}
    (h : ∀ kind, kind ≠ attrWiphy → Parts kind ls l) :
    (ls.map (chunkOf index)).foldl (Gather.into intoWiphy mergeInto) none =
      some (intoWiphy (chunkOf index l)) := by
  have hname := h attrWiphyName (by decide)
  have htypes := h attrSupportedIftypes (by decide)
  have hfeatures := h attrExtFeatures (by decide)
  rw [foldl_into_eq index ls hname.ne_nil,
    hname.getD_eq (f := fun l => (last l).bind strOf) rfl,
    htypes.any_eq (f := fun l => (last l).any nestsAp) rfl,
    hfeatures.any_eq (f := fun l => ((last l).map ExtFeatures.mk).any
      (·.has extFeature4wayHandshakeStaPsk)) rfl,
    hfeatures.any_eq (f := fun l => ((last l).map ExtFeatures.mk).any
      (·.has extFeature4wayHandshakeSta1x)) rfl,
    hfeatures.any_eq (f := fun l => ((last l).map ExtFeatures.mk).any
      (·.has extFeatureSaeOffload)) rfl]
  simp [intoWiphy, mergeInto, blank, chunkOf]

/-! ## Dumps -/

/-- A message, with the PHY it names. -/
abbrev Named : Type := UInt32 × Bytes

/-- The messages about a PHY. -/
def about (index : UInt32) (dump : List Named) : List Named := dump.filter fun p => p.1 = index

/-- One dump has a message for each PHY; the other spreads the attributes of each over any number of
messages, each attribute in one of them, in any order. -/
structure Split (whole split : List Named) : Prop where
  distinct : (whole.map Prod.fst).Nodup
  single : ∀ q ∈ whole, Describes q.1 q.2
  described : ∀ p ∈ split, Describes p.1 p.2
  known : ∀ p ∈ split, p.1 ∈ whole.map Prod.fst
  parts : ∀ q ∈ whole, ∀ kind, kind ≠ attrWiphy →
    Parts kind ((about q.1 split).map fun p => attrs p.2) (attrs q.2)

theorem index_intoWiphy (c : WiphyChunk) : (intoWiphy c).index = c.index := rfl

theorem index_mergeInto (c : WiphyChunk) (w : Wiphy) : (mergeInto c w).index = w.index := rfl

/-- What is gathered of a dump. -/
def gathered (dump : List Named) : List Wiphy :=
  Gather.all Wiphy.index WiphyChunk.index intoWiphy mergeInto ((dump.map Prod.snd).filterMap parse)

theorem nodup_gathered (dump : List Named) : ((gathered dump).map Wiphy.index).Nodup :=
  Gather.nodup_all index_intoWiphy index_mergeInto _

theorem find_gathered {dump : List Named} (h : ∀ p ∈ dump, Describes p.1 p.2) (index : UInt32) :
    (gathered dump).find? (fun w => w.index = index) =
      (((about index dump).map fun p => attrs p.2).map (chunkOf index)).foldl
        (Gather.into intoWiphy mergeInto) none := by
  have hchunks : (dump.map Prod.snd).filterMap parse = dump.map fun p => chunkOf p.1 (attrs p.2) := by
    rw [List.filterMap_map]
    induction dump with
    | nil => rfl
    | cons p dump ih =>
      rw [List.forall_mem_cons] at h
      rw [List.filterMap_cons, Function.comp_apply, parse_eq h.1]
      simp only [List.map_cons, ih h.2]
  rw [gathered, Gather.find_all index_intoWiphy index_mergeInto, hchunks, List.filter_map,
    List.map_map]
  have hindex : (about index dump).map (fun p => chunkOf p.1 (attrs p.2)) =
      (about index dump).map (fun p => chunkOf index (attrs p.2)) := by
    refine List.map_congr_left fun p hp => ?_
    rw [show p.1 = index by simpa using (List.mem_filter.mp hp).2]
  exact congrArg (List.foldl _ none) hindex

theorem about_eq {whole : List Named} (h : (whole.map Prod.fst).Nodup) {q : Named} (hq : q ∈ whole) :
    about q.1 whole = [q] := by
  induction whole with
  | nil => cases hq
  | cons p whole ih =>
    rw [List.map_cons, List.nodup_cons] at h
    rcases List.mem_cons.mp hq with rfl | hq
    · have hnone : about q.1 whole = [] := by
        refine List.filter_eq_nil_iff.mpr fun p hp heq => h.1 ?_
        exact List.mem_map.mpr ⟨p, hp, by simpa using heq⟩
      rw [about, List.filter_cons_of_pos (by simp)]
      exact congrArg (q :: ·) hnone
    · have hne : p.1 ≠ q.1 := fun heq => h.1 (List.mem_map.mpr ⟨q, hq, heq.symm⟩)
      rw [about, List.filter_cons_of_neg (by simpa using hne)]
      exact ih h.2 hq

section Split

variable {whole split : List Named}

theorem Split.find_whole (h : Split whole split) {q : Named} (hq : q ∈ whole) :
    (gathered whole).find? (fun w => w.index = q.1) = some (intoWiphy (chunkOf q.1 (attrs q.2))) := by
  rw [find_gathered h.single, about_eq h.distinct hq]
  rfl

theorem find_unnamed {dump : List Named} (h : ∀ p ∈ dump, Describes p.1 p.2) {index : UInt32}
    (hindex : index ∉ dump.map Prod.fst) : (gathered dump).find? (fun w => w.index = index) = none := by
  have hnone : about index dump = [] := by
    refine List.filter_eq_nil_iff.mpr fun p hp heq => hindex ?_
    exact List.mem_map.mpr ⟨p, hp, by simpa using heq⟩
  rw [find_gathered h, hnone]
  rfl

theorem Split.find_eq (h : Split whole split) (index : UInt32) :
    (gathered split).find? (fun w => w.index = index) =
      (gathered whole).find? fun w => w.index = index := by
  by_cases hmem : index ∈ whole.map Prod.fst
  · obtain ⟨q, hq, rfl⟩ := List.mem_map.mp hmem
    rw [h.find_whole hq, find_gathered h.described, into_parts (h.parts q hq)]
  · have hsplit : index ∉ split.map Prod.fst := by
      intro hin
      obtain ⟨p, hp, rfl⟩ := List.mem_map.mp hin
      exact hmem (h.known p hp)
    rw [find_unnamed h.described hsplit, find_unnamed h.single hmem]

/-- **A dump may be split anyhow.** Both dumps yield the same PHYs, each of those there are once, sorted
by index. -/
theorem wiphys_split (h : Split whole split) :
    wiphys (split.map Prod.snd) = wiphys (whole.map Prod.snd) ∧
      (wiphys (split.map Prod.snd)).Pairwise (fun a b => a.index < b.index) ∧
      ∀ index, (∃ w ∈ wiphys (split.map Prod.snd), w.index = index) ↔ index ∈ whole.map Prod.fst := by
  have htrans : ∀ a b c : UInt32, decide (a ≤ b) = true → decide (b ≤ c) = true →
      decide (a ≤ c) = true := by
    intro a b c hab hbc
    exact decide_eq_true (UInt32.le_trans (of_decide_eq_true hab) (of_decide_eq_true hbc))
  have htotal : ∀ a b : UInt32, (decide (a ≤ b) || decide (b ≤ a)) = true := by
    intro a b
    simpa using UInt32.le_total a b
  have hanti : ∀ a b : UInt32, decide (a ≤ b) = true → decide (b ≤ a) = true → a = b := by
    intro a b hab hba
    exact UInt32.le_antisymm (of_decide_eq_true hab) (of_decide_eq_true hba)
  refine ⟨Gather.sorted_eq htrans htotal hanti (nodup_gathered split) (nodup_gathered whole) h.find_eq,
    ?_, fun index => ?_⟩
  · refine (Gather.pairwise_sorted htrans htotal (nodup_gathered split)).imp fun {a b} hab => ?_
    exact UInt32.lt_of_le_of_ne (of_decide_eq_true hab.1) hab.2
  · constructor
    · rintro ⟨w, hw, rfl⟩
      have hfound := (Gather.mem_iff_find (nodup_gathered split) w).mp (Gather.mem_sorted.mp hw)
      by_contra hmem
      rw [h.find_eq, find_unnamed h.single hmem] at hfound
      cases hfound
    · intro hmem
      obtain ⟨q, hq, rfl⟩ := List.mem_map.mp hmem
      have hfound := (h.find_eq q.1).trans (h.find_whole hq)
      exact ⟨_, Gather.mem_sorted.mpr (List.mem_of_find?_eq_some hfound), rfl⟩

end Split

/-- Two PHYs in a message each. -/
def sampleWhole : List Named :=
  [(0, [3, 1, 0, 0, 8, 0, 1, 0, 0, 0, 0, 0, 7, 0, 2, 0, 112, 48, 0, 0, 7, 0, 217, 0, 0, 128, 1, 0]),
    (1, [3, 1, 0, 0, 8, 0, 1, 0, 1, 0, 0, 0, 7, 0, 2, 0, 112, 49, 0, 0, 8, 0, 32, 128, 4, 0, 3, 0])]

/-- And in two messages each, of which the second has the name. -/
def sampleSplit : List Named :=
  [(1, [3, 1, 0, 0, 8, 0, 1, 0, 1, 0, 0, 0, 8, 0, 32, 128, 4, 0, 3, 0]),
    (0, [3, 1, 0, 0, 8, 0, 1, 0, 0, 0, 0, 0, 7, 0, 217, 0, 0, 128, 1, 0]),
    (1, [3, 1, 0, 0, 8, 0, 1, 0, 1, 0, 0, 0, 7, 0, 2, 0, 112, 49, 0, 0]),
    (0, [3, 1, 0, 0, 7, 0, 2, 0, 112, 48, 0, 0, 8, 0, 1, 0, 0, 0, 0, 0])]

theorem split_sample : Split sampleWhole sampleSplit where
  distinct := by decide
  single := by unfold Describes; decide
  described := by unfold Describes; decide
  known := by decide
  parts := by
    intro q hq kind hkind
    simp only [sampleWhole, List.mem_cons, List.not_mem_nil, or_false] at hq
    rcases hq with rfl | rfl
    · exact Parts.of_name (by decide +kernel) (by decide) (by decide +kernel) hkind
    · exact Parts.of_name (by decide +kernel) (by decide) (by decide +kernel) hkind

theorem wiphys_split_sample :
    wiphys (sampleSplit.map Prod.snd) = wiphys (sampleWhole.map Prod.snd) ∧
      (wiphys (sampleSplit.map Prod.snd)).Pairwise (fun a b => a.index < b.index) ∧
      ∀ index, (∃ w ∈ wiphys (sampleSplit.map Prod.snd), w.index = index) ↔
        index ∈ sampleWhole.map Prod.fst :=
  wiphys_split split_sample

end Nl80211

end Caw
