import MobileCore.PacketRules

namespace MobileCore.RulePrecedence

open LastWrite PacketRules

/-- A stored rule of the packet's direction and key. -/
def StoredFor (rt : RuleTable) (pkt : Packet) (pdr : PDR) : Prop :=
  rt.pdrs.lookup pdr.pdrId = some pdr ∧ pdr.matchKey = pkt.matchKey

/-- The match is the rule that comes first by precedence, and there is none without a rule. -/
def MatchesLowest (rt : RuleTable) (pkt : Packet) : Prop :=
  match rt.matchPdr pkt with
  | some pdr =>
    StoredFor rt pkt pdr ∧ ∀ other, StoredFor rt pkt other → pdr.precedence ≤ other.precedence
  | none => ∀ other, ¬ StoredFor rt pkt other

/-- Two histories end with the same stored rules. -/
def SameStored (L L' : List PDR) : Prop :=
  ∀ id, (addAll L).pdrs.lookup id = (addAll L').pdrs.lookup id

def DistinctPrecedences (rt : RuleTable) (pkt : Packet) : Prop :=
  ∀ pdr other, StoredFor rt pkt pdr → StoredFor rt pkt other →
    pdr.precedence = other.precedence → pdr = other

/-- The rule is added and its identifier is not added again. -/
def AddedLast (L : List PDR) (pdr : PDR) : Prop :=
  ∃ before after, L = before ++ pdr :: after ∧ ∀ later ∈ after, later.pdrId ≠ pdr.pdrId

/-- The last rule added for a key keeps its identifier, and no other rule of the key that keeps
its own has a lower precedence number. -/
def LastIsLowest (L : List PDR) (k : Direction × UInt32) : Prop :=
  ∀ pdr before after, L = before ++ pdr :: after → pdr.matchKey = k →
    (∀ later ∈ after, later.matchKey ≠ k) →
    (∀ later ∈ after, later.pdrId ≠ pdr.pdrId) ∧
      ∀ other, AddedLast L other → other.matchKey = k → pdr.precedence ≤ other.precedence

theorem addedLast_iff (L : List PDR) (pdr : PDR) :
    AddedLast L pdr ↔ (addAll L).pdrs.lookup pdr.pdrId = some pdr := by
  rw [lookup_pdrs_addAll, lastWhere_eq_some]
  constructor
  · rintro ⟨before, after, hsplit, hafter⟩
    exact ⟨by simp, before, after, hsplit, fun later hlater => by simpa using hafter later hlater⟩
  · rintro ⟨_, before, after, hsplit, hafter⟩
    exact ⟨before, after, hsplit, fun later hlater => by simpa using hafter later hlater⟩

theorem storedFor_iff (L : List PDR) (pkt : Packet) (pdr : PDR) :
    StoredFor (addAll L) pkt pdr ↔ AddedLast L pdr ∧ pdr.matchKey = pkt.matchKey := by
  rw [addedLast_iff]
  rfl

theorem lastWhere_key {before after : List PDR} {pdr : PDR} {k : Direction × UInt32}
    (hkey : pdr.matchKey = k) (hkeys : ∀ later ∈ after, later.matchKey ≠ k) :
    lastWhere (fun p => p.matchKey == k) (before ++ pdr :: after) = some pdr :=
  lastWhere_of_split (by simp [hkey]) fun later hlater => by simpa using hkeys later hlater

theorem lastWhere_id {before after : List PDR} {pdr : PDR}
    (hids : ∀ later ∈ after, later.pdrId ≠ pdr.pdrId) :
    lastWhere (fun p => p.pdrId == pdr.pdrId) (before ++ pdr :: after) = some pdr :=
  lastWhere_of_split (by simp) fun later hlater => by simpa using hids later hlater

theorem matchPdr_of_last {before after : List PDR} {pdr : PDR} {pkt : Packet}
    (hkey : pdr.matchKey = pkt.matchKey) (hkeys : ∀ later ∈ after, later.matchKey ≠ pkt.matchKey)
    (hids : ∀ later ∈ after, later.pdrId ≠ pdr.pdrId) :
    (addAll (before ++ pdr :: after)).matchPdr pkt = some pdr := by
  rw [matchPdr_addAll, lastWhere_key hkey hkeys, Option.bind_some]
  exact lastWhere_id hids

theorem last_of_matchPdr {before after : List PDR} {pdr found : PDR} {pkt : Packet}
    (hkey : pdr.matchKey = pkt.matchKey) (hkeys : ∀ later ∈ after, later.matchKey ≠ pkt.matchKey)
    (hmatch : (addAll (before ++ pdr :: after)).matchPdr pkt = some found)
    (hfound : found.matchKey = pkt.matchKey) :
    found = pdr ∧ ∀ later ∈ after, later.pdrId ≠ pdr.pdrId := by
  rw [matchPdr_addAll, lastWhere_key hkey hkeys, Option.bind_some] at hmatch
  have hid : ∀ later ∈ after, later.pdrId ≠ pdr.pdrId := by
    intro later hlater hsame
    -- The last rule under the identifier would come after the last one of the key.
    obtain ⟨again, hagain⟩ := lastWhere_isSome_of_mem
      (p := fun p => p.pdrId == pdr.pdrId) hlater (by simp [hsame])
    obtain ⟨hagainId, mid, rest, hafter, hrest⟩ := (lastWhere_eq_some _ _ _).mp hagain
    have hlast : lastWhere (fun p => p.pdrId == pdr.pdrId) (before ++ pdr :: after) =
        some again := by
      refine (lastWhere_eq_some _ _ _).mpr ⟨hagainId, before ++ pdr :: mid, rest, ?_, hrest⟩
      simp [hafter]
    obtain rfl := Option.some.inj (hlast.symm.trans hmatch)
    exact hkeys again (by simp [hafter]) hfound
  exact ⟨Option.some.inj (hmatch.symm.trans (lastWhere_id hid)), hid⟩

theorem matchesLowest_iff (L : List PDR) (pkt : Packet) :
    MatchesLowest (addAll L) pkt ↔ LastIsLowest L pkt.matchKey := by
  constructor
  · rintro h pdr before after rfl hkey hkeys
    cases hmatch : (addAll (before ++ pdr :: after)).matchPdr pkt with
    | none =>
        obtain ⟨stored, hstored⟩ := lastWhere_isSome_of_mem
          (p := fun p => p.pdrId == pdr.pdrId) (L := before ++ pdr :: after) (a := pdr)
          (by simp) (by simp)
        rw [matchPdr_addAll, lastWhere_key hkey hkeys, Option.bind_some, hstored] at hmatch
        cases hmatch
    | some found =>
        rw [MatchesLowest, hmatch] at h
        obtain ⟨hstored, hlowest⟩ := h
        obtain ⟨rfl, hids⟩ := last_of_matchPdr hkey hkeys hmatch hstored.2
        refine ⟨hids, fun other hother hotherKey => hlowest other ?_⟩
        exact (storedFor_iff _ pkt other).mpr ⟨hother, hotherKey⟩
  · intro h
    cases hlast : lastWhere (fun p => p.matchKey == pkt.matchKey) L with
    | none =>
        have hmatch : (addAll L).matchPdr pkt = none := by
          rw [matchPdr_addAll, hlast, Option.bind_none]
        rw [MatchesLowest, hmatch]
        intro other hstored
        obtain ⟨⟨before, after, rfl, _⟩, hkey⟩ := (storedFor_iff L pkt other).mp hstored
        have hmiss := (lastWhere_eq_none _ _).mp hlast other (by simp)
        exact absurd hkey (by simpa using hmiss)
    | some pdr =>
        obtain ⟨hkey, before, after, rfl, hafter⟩ := (lastWhere_eq_some _ _ _).mp hlast
        have hkey : pdr.matchKey = pkt.matchKey := by simpa using hkey
        have hkeys : ∀ later ∈ after, later.matchKey ≠ pkt.matchKey :=
          fun later hlater => by simpa using hafter later hlater
        obtain ⟨hids, hlowest⟩ := h pdr before after rfl hkey hkeys
        rw [MatchesLowest, matchPdr_of_last hkey hkeys hids]
        refine ⟨(storedFor_iff _ pkt pdr).mpr ⟨⟨before, after, rfl, hids⟩, hkey⟩, ?_⟩
        intro other hstored
        obtain ⟨hother, hotherKey⟩ := (storedFor_iff _ pkt other).mp hstored
        exact hlowest other hother hotherKey

theorem MatchesLowest.congr {L L' : List PDR} {pkt : Packet} (h : MatchesLowest (addAll L) pkt)
    (h' : MatchesLowest (addAll L') pkt) (hsame : SameStored L L')
    (hdistinct : DistinctPrecedences (addAll L) pkt) :
    (addAll L).matchPdr pkt = (addAll L').matchPdr pkt := by
  have hstored (pdr : PDR) : StoredFor (addAll L) pkt pdr ↔ StoredFor (addAll L') pkt pdr := by
    simp only [StoredFor, hsame pdr.pdrId]
  unfold MatchesLowest at h h'
  cases hmatch : (addAll L).matchPdr pkt with
  | none =>
      cases hmatch' : (addAll L').matchPdr pkt with
      | none => rfl
      | some pdr' =>
          rw [hmatch] at h
          rw [hmatch'] at h'
          exact absurd ((hstored pdr').mpr h'.1) (h pdr')
  | some pdr =>
      rw [hmatch] at h
      cases hmatch' : (addAll L').matchPdr pkt with
      | none =>
          rw [hmatch'] at h'
          exact absurd ((hstored pdr).mp h.1) (h' pdr)
      | some pdr' =>
          rw [hmatch'] at h'
          have hback := (hstored pdr').mpr h'.1
          have hle := h.2 pdr' hback
          have hge := h'.2 pdr ((hstored pdr).mp h.1)
          exact congrArg some (hdistinct pdr pdr' h.1 hback (UInt32.le_antisymm hle hge))

/-- Two histories match by precedence, and the same when they store the same rules, exactly when
in each the last rule added for the packet's key keeps its identifier and is the lowest. -/
theorem matchPdr_precedence_iff (L L' : List PDR) (pkt : Packet) :
    (MatchesLowest (addAll L) pkt ∧ MatchesLowest (addAll L') pkt ∧
        (SameStored L L' → DistinctPrecedences (addAll L) pkt →
          (addAll L).matchPdr pkt = (addAll L').matchPdr pkt)) ↔
      LastIsLowest L pkt.matchKey ∧ LastIsLowest L' pkt.matchKey := by
  rw [← matchesLowest_iff, ← matchesLowest_iff]
  constructor
  · rintro ⟨h, h', _⟩
    exact ⟨h, h'⟩
  · rintro ⟨h, h'⟩
    exact ⟨h, h', fun hsame hdistinct => h.congr h' hsame hdistinct⟩

/-- The rule of precedence 100 that is added last wins over the one of precedence 10. -/
theorem later_rule_wins :
    ¬ MatchesLowest (addAll [{ pdrId := 1, teid := 1000, precedence := 10 },
      { pdrId := 2, teid := 1000, precedence := 100 }]) { teid := 1000 } := by
  intro h
  have hlowest := h.2 { pdrId := 1, teid := 1000, precedence := 10 } ⟨by decide, by decide⟩
  exact absurd hlowest (by decide)

end MobileCore.RulePrecedence
