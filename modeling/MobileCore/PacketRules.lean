import MobileCore.LastWrite

namespace MobileCore.PacketRules

open MobileCore.LastWrite

inductive Direction where
  | ul
  | dl
deriving DecidableEq, Repr

structure Packet where
  teid : UInt32 := 0
  ueIp : UInt32 := 0
  dscp : UInt8 := 0
  payloadLen : UInt16 := 0
  arrivalNs : UInt64 := 0
  qfi : UInt8 := 0
  pdrId : UInt32 := 0
  farId : UInt32 := 0
  classified : Bool := false
  dropped : Bool := false
  seq : UInt32 := 0
  dir : Direction := .ul
deriving DecidableEq, Repr

structure PDR where
  pdrId : UInt32 := 0
  teid : UInt32 := 0
  ueIp : UInt32 := 0
  dir : Direction := .ul
  farId : UInt32 := 0
  qerId : UInt32 := 0
  precedence : UInt32 := 100
deriving DecidableEq, Repr

inductive FarAction where
  | forward
  | drop
  | buffer
deriving DecidableEq, Repr

structure FAR where
  farId : UInt32 := 0
  action : FarAction := .forward
  dstIp : UInt32 := 0
  dstPort : UInt16 := 0
  encapGtpu : Bool := false
deriving DecidableEq, Repr

structure QER where
  qerId : UInt32 := 0
  qfi : UInt8 := 0
  ulMbrKbps : UInt32 := 0
  dlMbrKbps : UInt32 := 0
  ulGbrKbps : UInt32 := 0
  dlGbrKbps : UInt32 := 0
deriving DecidableEq, Repr

structure RuleTable where
  pdrs : Table UInt32 PDR := ∅
  fars : Table UInt32 FAR := ∅
  qers : Table UInt32 QER := ∅
  teidToPdr : Table UInt32 UInt32 := ∅
  ueipToPdr : Table UInt32 UInt32 := ∅

namespace RuleTable

def addPdr (rt : RuleTable) (pdr : PDR) : RuleTable :=
  let rt := { rt with pdrs := rt.pdrs.insert pdr.pdrId pdr }
  if pdr.dir = .ul then
    { rt with teidToPdr := rt.teidToPdr.insert pdr.teid pdr.pdrId }
  else
    { rt with ueipToPdr := rt.ueipToPdr.insert pdr.ueIp pdr.pdrId }

def addFar (rt : RuleTable) (far : FAR) : RuleTable :=
  { rt with fars := rt.fars.insert far.farId far }

def addQer (rt : RuleTable) (qer : QER) : RuleTable :=
  { rt with qers := rt.qers.insert qer.qerId qer }

/-- The lookup of every packet: the index of its direction, then the rule by identifier. -/
def matchPdr (rt : RuleTable) (pkt : Packet) : Option PDR :=
  if pkt.dir = .ul then
    match rt.teidToPdr.lookup pkt.teid with
    | none => none
    | some pdrId => rt.pdrs.lookup pdrId
  else
    match rt.ueipToPdr.lookup pkt.ueIp with
    | none => none
    | some pdrId => rt.pdrs.lookup pdrId

def getFar (rt : RuleTable) (farId : UInt32) : Option FAR := rt.fars.lookup farId

def getQer (rt : RuleTable) (qerId : UInt32) : Option QER := rt.qers.lookup qerId

end RuleTable

/-- The table after a sequence of `add_pdr` calls on an empty one. -/
def addAll (L : List PDR) : RuleTable := L.foldl RuleTable.addPdr {}

def PDR.matchKey (pdr : PDR) : Direction × UInt32 :=
  (pdr.dir, if pdr.dir = .ul then pdr.teid else pdr.ueIp)

def Packet.matchKey (pkt : Packet) : Direction × UInt32 :=
  (pkt.dir, if pkt.dir = .ul then pkt.teid else pkt.ueIp)

/-- The identifier the index of a direction holds for a key. -/
def RuleTable.indexed (rt : RuleTable) : Direction × UInt32 → Option UInt32
  | (.ul, teid) => rt.teidToPdr.lookup teid
  | (.dl, ueIp) => rt.ueipToPdr.lookup ueIp

theorem matchPdr_eq_indexed (rt : RuleTable) (pkt : Packet) :
    rt.matchPdr pkt = (rt.indexed pkt.matchKey).bind rt.pdrs.lookup := by
  unfold RuleTable.matchPdr Packet.matchKey
  cases pkt.dir with
  | ul =>
      change _ = (rt.teidToPdr.lookup pkt.teid).bind rt.pdrs.lookup
      cases rt.teidToPdr.lookup pkt.teid <;> rfl
  | dl =>
      change _ = (rt.ueipToPdr.lookup pkt.ueIp).bind rt.pdrs.lookup
      cases rt.ueipToPdr.lookup pkt.ueIp <;> rfl

theorem exists_packet_matchKey (k : Direction × UInt32) :
    ∃ pkt : Packet, pkt.matchKey = k := by
  obtain ⟨dir, key⟩ := k
  exact ⟨{ teid := key, ueIp := key, dir := dir }, by simp [Packet.matchKey]⟩

theorem addAll_snoc (L : List PDR) (pdr : PDR) : addAll (L ++ [pdr]) = (addAll L).addPdr pdr := by
  simp [addAll]

theorem pdrs_addAll (L : List PDR) :
    (addAll L).pdrs = L.foldl (write (fun _ => true) PDR.pdrId id) ∅ := by
  induction L using List.reverseRecOn with
  | nil => rfl
  | append_singleton L pdr ih =>
      rw [addAll_snoc, List.foldl_append, ← ih]
      unfold RuleTable.addPdr
      split <;> rfl

theorem teidToPdr_addAll (L : List PDR) :
    (addAll L).teidToPdr = L.foldl (write (fun pdr => pdr.dir == .ul) PDR.teid PDR.pdrId) ∅ := by
  induction L using List.reverseRecOn with
  | nil => rfl
  | append_singleton L pdr ih =>
      rw [addAll_snoc, List.foldl_append, ← ih]
      unfold RuleTable.addPdr
      cases hdir : pdr.dir <;> simp [write, hdir]

theorem ueipToPdr_addAll (L : List PDR) :
    (addAll L).ueipToPdr = L.foldl (write (fun pdr => pdr.dir == .dl) PDR.ueIp PDR.pdrId) ∅ := by
  induction L using List.reverseRecOn with
  | nil => rfl
  | append_singleton L pdr ih =>
      rw [addAll_snoc, List.foldl_append, ← ih]
      unfold RuleTable.addPdr
      cases hdir : pdr.dir <;> simp [write, hdir]

theorem lookup_pdrs_addAll (L : List PDR) (id : UInt32) :
    (addAll L).pdrs.lookup id = lastWhere (fun pdr => pdr.pdrId == id) L := by
  rw [pdrs_addAll, lookup_foldl_write, Option.map_id]
  rfl

theorem indexed_addAll (L : List PDR) (k : Direction × UInt32) :
    (addAll L).indexed k = (lastWhere (fun pdr => pdr.matchKey == k) L).map PDR.pdrId := by
  obtain ⟨dir, key⟩ := k
  cases dir with
  | ul =>
      have hkeys : (fun pdr : PDR => pdr.dir == .ul && pdr.teid == key) =
          fun pdr => pdr.matchKey == (.ul, key) := by
        funext pdr
        unfold PDR.matchKey
        cases hdir : pdr.dir <;> rfl
      show (addAll L).teidToPdr.lookup key = _
      rw [teidToPdr_addAll, lookup_foldl_write, hkeys]
  | dl =>
      have hkeys : (fun pdr : PDR => pdr.dir == .dl && pdr.ueIp == key) =
          fun pdr => pdr.matchKey == (.dl, key) := by
        funext pdr
        unfold PDR.matchKey
        cases hdir : pdr.dir <;> rfl
      show (addAll L).ueipToPdr.lookup key = _
      rw [ueipToPdr_addAll, lookup_foldl_write, hkeys]

/-- `match_pdr` returns only stored PDRs that match the packet, and one whenever there is one. -/
structure IndexConsistent (rt : RuleTable) : Prop where
  sound : ∀ pkt pdr, rt.matchPdr pkt = some pdr →
    (∃ id, rt.pdrs.lookup id = some pdr) ∧ pdr.matchKey = pkt.matchKey
  complete : ∀ pkt pdr id, rt.pdrs.lookup id = some pdr → pdr.matchKey = pkt.matchKey →
    ∃ found, rt.matchPdr pkt = some found

/-- Whenever an identifier is added again later, its direction and key are as well. -/
def KeysReAdded (L : List PDR) : Prop :=
  ∀ before pdr after, L = before ++ pdr :: after →
    (∃ later ∈ after, later.pdrId = pdr.pdrId) → ∃ later ∈ after, later.matchKey = pdr.matchKey

/-- The rule a packet is matched to: the last one stored under the identifier of the last PDR
added for the packet's key. -/
theorem matchPdr_addAll (L : List PDR) (pkt : Packet) :
    (addAll L).matchPdr pkt =
      (lastWhere (fun pdr => pdr.matchKey == pkt.matchKey) L).bind
        fun indexed => lastWhere (fun pdr => pdr.pdrId == indexed.pdrId) L := by
  rw [matchPdr_eq_indexed, indexed_addAll]
  cases lastWhere (fun pdr => pdr.matchKey == pkt.matchKey) L with
  | none => rfl
  | some indexed => exact lookup_pdrs_addAll L indexed.pdrId

/-- No history loses a stored rule: some PDR is found for the key of every stored one. -/
theorem matchPdr_complete (L : List PDR) (pkt : Packet) (pdr : PDR) (id : UInt32)
    (hstored : (addAll L).pdrs.lookup id = some pdr) (hkey : pdr.matchKey = pkt.matchKey) :
    ∃ found, (addAll L).matchPdr pkt = some found := by
  rw [lookup_pdrs_addAll] at hstored
  obtain ⟨_, before, after, rfl, _⟩ := (lastWhere_eq_some _ _ _).mp hstored
  have hmem : pdr ∈ before ++ pdr :: after := by simp
  obtain ⟨indexed, hindexed⟩ :=
    lastWhere_isSome_of_mem (p := fun pdr => pdr.matchKey == pkt.matchKey) hmem (by simp [hkey])
  obtain ⟨_, before', after', hsplit, _⟩ := (lastWhere_eq_some _ _ _).mp hindexed
  obtain ⟨found, hfound⟩ :=
    lastWhere_isSome_of_mem (p := fun pdr => pdr.pdrId == indexed.pdrId)
      (L := before ++ pdr :: after) (a := indexed) (by simp [hsplit]) (by simp)
  exact ⟨found, by rw [matchPdr_addAll, hindexed]; exact hfound⟩

theorem matchPdr_sound_of_keysReAdded (L : List PDR) (hL : KeysReAdded L) (pkt : Packet)
    (pdr : PDR) (hmatch : (addAll L).matchPdr pkt = some pdr) :
    (∃ id, (addAll L).pdrs.lookup id = some pdr) ∧ pdr.matchKey = pkt.matchKey := by
  rw [matchPdr_addAll] at hmatch
  obtain ⟨indexed, hindexed, hstored⟩ := Option.bind_eq_some_iff.mp hmatch
  refine ⟨⟨indexed.pdrId, by rw [lookup_pdrs_addAll, hstored]⟩, ?_⟩
  obtain ⟨hkey, before, after, rfl, hafter⟩ := (lastWhere_eq_some _ _ _).mp hindexed
  have hkey : indexed.matchKey = pkt.matchKey := by simpa using hkey
  -- The key was never added again after `indexed`, so neither was the identifier.
  have hlast : ∀ later ∈ after, (later.pdrId == indexed.pdrId) = false := by
    intro later hlater
    by_contra hid
    obtain ⟨again, hagain, hsame⟩ :=
      hL before indexed after rfl ⟨later, hlater, by simpa using hid⟩
    have hmiss := hafter again hagain
    rw [hsame, hkey] at hmiss
    simp at hmiss
  rw [lastWhere_of_split (by simp) hlast] at hstored
  obtain rfl := Option.some.inj hstored
  exact hkey

theorem keysReAdded_of_indexConsistent (L : List PDR) (hcons : IndexConsistent (addAll L)) :
    KeysReAdded L := by
  rintro before pdr after rfl ⟨later, hlater, hid⟩
  by_contra hnone
  push Not at hnone
  obtain ⟨pkt, hpkt⟩ := exists_packet_matchKey pdr.matchKey
  have hindexed : lastWhere (fun p => p.matchKey == pkt.matchKey) (before ++ pdr :: after) =
      some pdr :=
    lastWhere_of_split (by simp [hpkt]) (fun b hb => by simpa [hpkt] using hnone b hb)
  -- What is stored under the identifier came after `pdr`, so under another key.
  obtain ⟨stored, hstored⟩ :=
    lastWhere_isSome_of_mem (p := fun p => p.pdrId == pdr.pdrId) hlater (by simp [hid])
  obtain ⟨hstoredId, mid, rest, hafter, hrest⟩ := (lastWhere_eq_some _ _ _).mp hstored
  have hmatch : (addAll (before ++ pdr :: after)).matchPdr pkt = some stored := by
    rw [matchPdr_addAll, hindexed]
    refine (lastWhere_eq_some _ _ _).mpr ⟨hstoredId, before ++ pdr :: mid, rest, ?_, hrest⟩
    simp [hafter]
  have hkey := (hcons.sound pkt stored hmatch).2
  exact hnone stored (by simp [hafter]) (hkey.trans hpkt)

/-- The indexes are consistent after exactly those histories that never reuse an identifier
without also adding its old direction and key again. -/
theorem indexConsistent_iff_keysReAdded (L : List PDR) :
    IndexConsistent (addAll L) ↔ KeysReAdded L :=
  ⟨keysReAdded_of_indexConsistent L, fun hL =>
    ⟨matchPdr_sound_of_keysReAdded L hL, matchPdr_complete L⟩⟩

/-- A PDR that moves to another TEID leaves its old TEID in the index. -/
theorem stale_teid_after_re_add :
    ¬ IndexConsistent (addAll
      [{ pdrId := 1, teid := 1000, farId := 1 }, { pdrId := 1, teid := 2000, farId := 1 }]) := by
  intro hcons
  have hwrong := hcons.sound { teid := 1000 } { pdrId := 1, teid := 2000, farId := 1 } (by decide)
  exact absurd hwrong.2 (by decide)

end MobileCore.PacketRules
