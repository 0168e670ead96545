import Whooshd.Library.Pairing

namespace Whooshd.Continuous
set_option autoImplicit true

inductive PrimitiveInvariantViolation where
  | slotAlreadyOwned | requestAlreadyHasSlot | releasedSlotRetainedOwner
  | cancelledEmittedOutput | timedOutEmittedOutput | samplingStateMismatch
  | failureEscalationUndeclared | cleanupNotIdempotent | snapshotLeak
  deriving DecidableEq, Repr

structure SlotOwnershipClaim where
  requestId : String
  slotId : String
  deriving DecidableEq, Repr

structure SlotReleaseClaim where
  requestId : String
  slotId : String
  deriving DecidableEq, Repr

/-- The owner of each slot and the slot of each request, while claims are validated. -/
structure Ownership where
  slotOwners : Dict String String
  reqSlots : Dict String String
  deriving DecidableEq

namespace Ownership

def empty : Ownership := ⟨.empty, .empty⟩

/-- What a claim violates. -/
def claimViolations (o : Ownership) (c : SlotOwnershipClaim) :
    List PrimitiveInvariantViolation :=
  (if (o.slotOwners.get? c.slotId).any (· ≠ c.requestId) then [.slotAlreadyOwned] else []) ++
    if (o.reqSlots.get? c.requestId).any (· ≠ c.slotId) then [.requestAlreadyHasSlot] else []

/-- A claim counts from there on, whether it violates something or not. -/
def claim (o : Ownership) (c : SlotOwnershipClaim) : Ownership :=
  ⟨o.slotOwners.set c.slotId c.requestId, o.reqSlots.set c.requestId c.slotId⟩

def releaseViolations (o : Ownership) (r : SlotReleaseClaim) :
    List PrimitiveInvariantViolation :=
  if o.slotOwners.get? r.slotId = some r.requestId then [] else [.releasedSlotRetainedOwner]

def release (o : Ownership) (r : SlotReleaseClaim) : Ownership :=
  ⟨o.slotOwners.erase r.slotId, o.reqSlots.erase r.requestId⟩

/-- The loop over the claims: the ownership after it and the violations that it found. -/
def claimAll (o : Ownership) : List SlotOwnershipClaim →
    Ownership × List PrimitiveInvariantViolation
  | [] => (o, [])
  | c :: claims =>
    let (o', violations) := (o.claim c).claimAll claims
    (o', o.claimViolations c ++ violations)

def releaseAll (o : Ownership) : List SlotReleaseClaim → List PrimitiveInvariantViolation
  | [] => []
  | r :: releases => o.releaseViolations r ++ (o.release r).releaseAll releases

end Ownership

def validateSlotOwnershipClaims (claims : List SlotOwnershipClaim)
    (releases : List SlotReleaseClaim) : List PrimitiveInvariantViolation :=
  let (o, violations) := Ownership.empty.claimAll claims
  violations ++ o.releaseAll releases

/-- The request and the slot of a claim. -/
def SlotOwnershipClaim.pair (c : SlotOwnershipClaim) : String × String := (c.requestId, c.slotId)

def SlotReleaseClaim.pair (r : SlotReleaseClaim) : String × String := (r.requestId, r.slotId)

namespace Ownership

variable {o : Ownership} {pairs : List (String × String)}

/-- The ownership is that of the claimed pairs. -/
def Of (o : Ownership) (pairs : List (String × String)) : Prop :=
  PairedOff.Indexed o.slotOwners o.reqSlots pairs

theorem Of.claimViolations_iff (h : o.Of pairs) (c : SlotOwnershipClaim) :
    o.claimViolations c = [] ↔ ∀ q ∈ pairs, q.1 = c.requestId ↔ q.2 = c.slotId := by
  have hpair := PairedOff.Indexed.goes_with_iff h c.pair
  rw [SlotOwnershipClaim.pair] at hpair
  rw [← hpair, claimViolations, List.append_eq_nil_iff]
  simp [Option.all_eq_true, Option.any_eq_true]

theorem Of.claim (h : o.Of pairs) {c : SlotOwnershipClaim}
    (hgoes : ∀ q ∈ pairs, q.1 = c.requestId ↔ q.2 = c.slotId) :
    (o.claim c).Of (pairs ++ [c.pair]) :=
  PairedOff.Indexed.insert (p := c.pair) h hgoes

/-- No claim violates anything exactly if all of them pair off, and then the ownership is that
of all of them. -/
theorem Of.claimAll (h : o.Of pairs) (hpairs : PairedOff pairs)
    (claims : List SlotOwnershipClaim) :
    ((o.claimAll claims).2 = [] ↔ PairedOff (pairs ++ claims.map (·.pair))) ∧
      (PairedOff (pairs ++ claims.map (·.pair)) →
        (o.claimAll claims).1.Of (pairs ++ claims.map (·.pair))) := by
  induction claims generalizing o pairs with
  | nil => simpa [Ownership.claimAll] using ⟨hpairs, fun _ => h⟩
  | cons c claims ih =>
    have hassoc : pairs ++ (c :: claims).map (·.pair) =
        pairs ++ [c.pair] ++ claims.map (·.pair) := by simp
    rw [hassoc, Ownership.claimAll, List.append_eq_nil_iff, h.claimViolations_iff]
    by_cases hgoes : ∀ q ∈ pairs, q.1 = c.requestId ↔ q.2 = c.slotId
    · have hnext := ih (h.claim hgoes) (PairedOff.append_singleton.mpr ⟨hpairs, hgoes⟩)
      exact ⟨(and_iff_right hgoes).trans hnext.1, hnext.2⟩
    · have hnot : ¬PairedOff (pairs ++ [c.pair] ++ claims.map (·.pair)) :=
        fun hall => hgoes (PairedOff.append_singleton.mp hall.of_append).2
      exact ⟨iff_of_false (fun hnone => hgoes hnone.1) hnot, fun hall => absurd hall hnot⟩

/-- Every release is of what is still owned exactly if each is of an owned pair and no slot is
released twice. -/
theorem releaseAll_iff (o : Ownership) (releases : List SlotReleaseClaim) :
    o.releaseAll releases = [] ↔ (releases.map (·.slotId)).Nodup ∧
      ∀ r ∈ releases, o.slotOwners.get? r.slotId = some r.requestId := by
  induction releases generalizing o with
  | nil => simp [releaseAll]
  | cons r releases ih =>
    have hviolation : o.releaseViolations r = [] ↔
        o.slotOwners.get? r.slotId = some r.requestId := by
      rw [releaseViolations]
      split <;> simp_all
    rw [releaseAll, List.append_eq_nil_iff, hviolation, ih, List.map_cons, List.nodup_cons]
    constructor
    · rintro ⟨howned, hnodup, hrest⟩
      have hfresh : ∀ r' ∈ releases, r'.slotId ≠ r.slotId := by
        intro r' hr' heq
        have hother := hrest r' hr'
        rw [release, heq, Dict.get?_erase_self] at hother
        cases hother
      refine ⟨⟨?_, hnodup⟩, ?_⟩
      · intro hin
        obtain ⟨r', hr', heq⟩ := List.mem_map.mp hin
        exact hfresh r' hr' heq
      · intro r' hr'
        rcases List.mem_cons.mp hr' with rfl | hr'
        · exact howned
        · have hother := hrest r' hr'
          rwa [release, Dict.get?_erase_ne (hfresh r' hr')] at hother
    · rintro ⟨⟨hfresh, hnodup⟩, hall⟩
      refine ⟨hall r (by simp), hnodup, ?_⟩
      intro r' hr'
      have hne : r'.slotId ≠ r.slotId :=
        fun heq => hfresh (List.mem_map.mpr ⟨r', hr', heq⟩)
      rw [release, Dict.get?_erase_ne hne]
      exact hall r' (List.mem_cons_of_mem _ hr')

end Ownership

/-- The claims and the releases are in order exactly if the claims pair requests and slots off,
each release is of a claimed pair, and no slot is released twice. -/
theorem validateSlotOwnershipClaims_iff (claims : List SlotOwnershipClaim)
    (releases : List SlotReleaseClaim) :
    validateSlotOwnershipClaims claims releases = [] ↔
      PairedOff (claims.map (·.pair)) ∧ (releases.map (·.slotId)).Nodup ∧
        ∀ r ∈ releases, r.pair ∈ claims.map (·.pair) := by
  have hall := Ownership.Of.claimAll (o := .empty) PairedOff.Indexed.empty PairedOff.nil claims
  rw [List.nil_append] at hall
  rw [validateSlotOwnershipClaims, List.append_eq_nil_iff, Ownership.releaseAll_iff, hall.1]
  apply and_congr_right
  intro hpairs
  have hof := hall.2 hpairs
  apply and_congr_right
  intro _
  apply forall₂_congr
  intro r _
  exact hof.first r.requestId r.slotId

inductive MLXSlotLifecycleFailureReason where
  | duplicateSlotOwner | duplicateRequestSlot | releaseWrongOwner | releaseDidNotClearOwner
  | lateChunkAcceptedForTombstone | tombstoneReusedWithoutGenerationBump | cleanupNotIdempotent
  | snapshotLeak | importFailed | modelLoadFailed | unknown
  deriving DecidableEq, Repr

inductive MLXSlotTombstoneReason where
  | success | cancelled | timedOut | failed | invalidOutput | shutdown
  deriving DecidableEq, Repr

structure MLXVirtualSlotClaim where
  requestId : String
  slotId : String
  generation : Int
  deriving DecidableEq, Repr

structure MLXVirtualSlotRelease where
  requestId : String
  slotId : String
  generation : Int
  reason : MLXSlotTombstoneReason
  deriving DecidableEq, Repr

structure MLXVirtualSlotTombstone where
  requestId : String
  slotId : String
  generation : Int
  reason : MLXSlotTombstoneReason
  deriving DecidableEq, Repr

/-- The slots and the requests that were met so far, as the dictionaries hold them. -/
def virtualClaimFailures (tombstones : List MLXVirtualSlotTombstone)
    (slotOwners reqSlots : List String) :
    List MLXVirtualSlotClaim → List MLXSlotLifecycleFailureReason
  | [] => []
  | c :: claims =>
    (if (tombstones.map fun t => (t.slotId, t.generation)).contains (c.slotId, c.generation) then
        [.tombstoneReusedWithoutGenerationBump] else []) ++
      (if slotOwners.contains c.slotId then [.duplicateSlotOwner] else []) ++
      (if reqSlots.contains c.requestId then [.duplicateRequestSlot] else []) ++
      virtualClaimFailures tombstones (c.slotId :: slotOwners) (c.requestId :: reqSlots) claims

def validateVirtualSlotClaims (claims : List MLXVirtualSlotClaim)
    (tombstones : List MLXVirtualSlotTombstone) : List MLXSlotLifecycleFailureReason :=
  virtualClaimFailures tombstones [] [] claims

/-- The first claim of the slot has to be the released one. -/
def validateRelease (release : MLXVirtualSlotRelease) (claims : List MLXVirtualSlotClaim) :
    List MLXSlotLifecycleFailureReason :=
  match claims.find? (·.slotId = release.slotId) with
  | none => [.releaseDidNotClearOwner]
  | some owner =>
    if owner.requestId ≠ release.requestId then [.releaseWrongOwner]
    else if owner.generation ≠ release.generation then [.releaseWrongOwner]
    else []

/-- A late chunk is told by its slot and generation; the request that it names is not looked
at. -/
def validateTombstoneLateChunk (tombstones : List MLXVirtualSlotTombstone) (_requestId : String)
    (slotId : String) (generation : Int) : List MLXSlotLifecycleFailureReason :=
  if tombstones.any fun t => t.slotId = slotId ∧ t.generation = generation then
    [.lateChunkAcceptedForTombstone]
  else []

/-- The tombstone that a release leaves. -/
def MLXVirtualSlotRelease.tombstone (r : MLXVirtualSlotRelease) : MLXVirtualSlotTombstone :=
  ⟨r.requestId, r.slotId, r.generation, r.reason⟩

def MLXVirtualSlotClaim.key (c : MLXVirtualSlotClaim) : String × Int := (c.slotId, c.generation)

def MLXVirtualSlotTombstone.key (t : MLXVirtualSlotTombstone) : String × Int :=
  (t.slotId, t.generation)

theorem virtualClaimFailures_iff (tombstones : List MLXVirtualSlotTombstone)
    (slotOwners reqSlots : List String) (claims : List MLXVirtualSlotClaim) :
    virtualClaimFailures tombstones slotOwners reqSlots claims = [] ↔
      ((claims.map (·.slotId)).Nodup ∧ ∀ c ∈ claims, c.slotId ∉ slotOwners) ∧
        ((claims.map (·.requestId)).Nodup ∧ ∀ c ∈ claims, c.requestId ∉ reqSlots) ∧
        ∀ c ∈ claims, c.key ∉ tombstones.map (·.key) := by
  induction claims generalizing slotOwners reqSlots with
  | nil => simp [virtualClaimFailures]
  | cons c claims ih =>
    rw [virtualClaimFailures, List.append_eq_nil_iff, List.append_eq_nil_iff,
      List.append_eq_nil_iff, ih]
    have hreused : (if (tombstones.map fun t => (t.slotId, t.generation)).contains
        (c.slotId, c.generation) then
          [MLXSlotLifecycleFailureReason.tombstoneReusedWithoutGenerationBump] else []) = [] ↔
        c.key ∉ tombstones.map (·.key) := by
      simp [MLXVirtualSlotClaim.key, MLXVirtualSlotTombstone.key]
    have hslot : (if slotOwners.contains c.slotId then
        [MLXSlotLifecycleFailureReason.duplicateSlotOwner] else []) = [] ↔
        c.slotId ∉ slotOwners := by simp
    have hrequest : (if reqSlots.contains c.requestId then
        [MLXSlotLifecycleFailureReason.duplicateRequestSlot] else []) = [] ↔
        c.requestId ∉ reqSlots := by simp
    rw [hreused, hslot, hrequest]
    simp only [List.map_cons, List.nodup_cons, List.mem_map, List.mem_cons, not_or,
      forall_eq_or_imp, not_exists, not_and]
    grind

theorem validateVirtualSlotClaims_iff (claims : List MLXVirtualSlotClaim)
    (tombstones : List MLXVirtualSlotTombstone) :
    validateVirtualSlotClaims claims tombstones = [] ↔
      (claims.map (·.slotId)).Nodup ∧ (claims.map (·.requestId)).Nodup ∧
        ∀ c ∈ claims, c.key ∉ tombstones.map (·.key) := by
  rw [validateVirtualSlotClaims, virtualClaimFailures_iff]
  simp

theorem validateTombstoneLateChunk_iff (tombstones : List MLXVirtualSlotTombstone)
    (requestId slotId : String) (generation : Int) :
    validateTombstoneLateChunk tombstones requestId slotId generation = [] ↔
      (slotId, generation) ∉ tombstones.map (·.key) := by
  rw [validateTombstoneLateChunk]
  simp [MLXVirtualSlotTombstone.key]

section Cycle

variable {claims : List MLXVirtualSlotClaim} {tombstones : List MLXVirtualSlotTombstone}
  {release : MLXVirtualSlotRelease}

theorem find?_slotId (hslots : (claims.map (·.slotId)).Nodup) (hc : c ∈ claims) :
    claims.find? (·.slotId = c.slotId) = some c := by
  cases hfind : claims.find? (·.slotId = c.slotId) with
  | none =>
    have hnone := List.find?_eq_none.mp hfind c hc
    simp at hnone
  | some owner =>
    have hslot := List.find?_some hfind
    have howner := List.mem_of_find?_eq_some hfind
    rw [List.inj_on_of_nodup_map hslots howner hc (by simpa using hslot)]

theorem validateRelease_iff (hslots : (claims.map (·.slotId)).Nodup) :
    validateRelease release claims = [] ↔
      ∃ c ∈ claims, c.requestId = release.requestId ∧ c.slotId = release.slotId ∧
        c.generation = release.generation := by
  constructor
  · intro h
    rw [validateRelease] at h
    split at h
    · cases h
    · next owner hfind =>
      have hslot := List.find?_some hfind
      split at h
      · cases h
      · next hrequest =>
        split at h
        · cases h
        · next hgeneration =>
          exact ⟨owner, List.mem_of_find?_eq_some hfind, not_not.mp hrequest, by simpa using hslot,
            not_not.mp hgeneration⟩
  · rintro ⟨c, hc, hrequest, hslot, hgeneration⟩
    rw [validateRelease, ← hslot, find?_slotId hslots hc]
    simp [hrequest, hgeneration]

/-- The claims of the other slots. -/
def remaining (claims : List MLXVirtualSlotClaim) (release : MLXVirtualSlotRelease) :
    List MLXVirtualSlotClaim :=
  claims.filter (·.slotId ≠ release.slotId)

/-- The slot of a release can be claimed again exactly by a request that has no slot, under a
generation that has no tombstone. -/
theorem reclaim_iff (h : validateVirtualSlotClaims claims tombstones = [])
    (hslot : c.slotId = release.slotId) :
    validateVirtualSlotClaims (remaining claims release ++ [c])
        (tombstones ++ [release.tombstone]) = [] ↔
      c.requestId ∉ (remaining claims release).map (·.requestId) ∧
        c.key ∉ tombstones.map (·.key) ∧ c.generation ≠ release.generation := by
  obtain ⟨hslots, hrequests, hkeys⟩ := (validateVirtualSlotClaims_iff _ _).mp h
  have hsublist : (remaining claims release).Sublist claims := List.filter_sublist
  have hother : ∀ c' ∈ remaining claims release, c'.slotId ≠ release.slotId := by
    intro c' hc'
    simpa using (List.mem_filter.mp hc').2
  have hkey : ∀ c' : MLXVirtualSlotClaim, c'.slotId = release.slotId →
      (c'.key = release.tombstone.key ↔ c'.generation = release.generation) := by
    intro c' hc'
    simp [MLXVirtualSlotClaim.key, MLXVirtualSlotTombstone.key, MLXVirtualSlotRelease.tombstone,
      hc']
  rw [validateVirtualSlotClaims_iff]
  simp only [List.map_append, List.map_cons, List.map_nil, List.mem_append, List.mem_singleton,
    not_or]
  constructor
  · rintro ⟨-, hnodup, hfresh⟩
    obtain ⟨htombstones, hreleased⟩ := hfresh c (.inr rfl)
    refine ⟨?_, htombstones, fun heq => hreleased ((hkey c hslot).mpr heq)⟩
    have hdisjoint := (List.nodup_append.mp hnodup).2.2
    intro hin
    exact hdisjoint _ hin _ (by simp) rfl
  · rintro ⟨hrequest, htombstones, hgeneration⟩
    refine ⟨?_, ?_, ?_⟩
    · apply List.nodup_append.mpr
      refine ⟨hslots.sublist (hsublist.map _), by simp, ?_⟩
      intro slot hin slot' hslot'
      obtain ⟨c', hc', rfl⟩ := List.mem_map.mp hin
      rw [List.mem_singleton.mp hslot', hslot]
      exact hother c' hc'
    · apply List.nodup_append.mpr
      refine ⟨hrequests.sublist (hsublist.map _), by simp, ?_⟩
      intro request hin request' hrequest'
      rw [List.mem_singleton.mp hrequest']
      rintro rfl
      exact hrequest hin
    · intro c' hc'
      rcases hc' with hc' | rfl
      · refine ⟨hkeys c' (hsublist.subset hc'), ?_⟩
        intro heq
        exact hother c' hc' (Prod.mk.inj heq).1
      · exact ⟨htombstones, fun heq => hgeneration ((hkey c' hslot).mp heq)⟩

/-- Claims that are in order stay so through a release: only a claim's own request can release
it, no live slot takes a late chunk for a tombstone, and a released slot turns its late chunks
away and is claimed again only under a new generation. -/
theorem virtualSlots_cycle (h : validateVirtualSlotClaims claims tombstones = []) :
    (∀ release, validateRelease release claims = [] ↔
      ∃ c ∈ claims, c.requestId = release.requestId ∧ c.slotId = release.slotId ∧
        c.generation = release.generation) ∧
    (∀ c ∈ claims, ∀ requestId,
      validateTombstoneLateChunk tombstones requestId c.slotId c.generation = []) ∧
    ∀ release, validateRelease release claims = [] →
      validateVirtualSlotClaims (remaining claims release)
          (tombstones ++ [release.tombstone]) = [] ∧
      (∀ requestId, validateTombstoneLateChunk (tombstones ++ [release.tombstone]) requestId
        release.slotId release.generation = [.lateChunkAcceptedForTombstone]) ∧
      ∀ c, c.slotId = release.slotId →
        (validateVirtualSlotClaims (remaining claims release ++ [c])
            (tombstones ++ [release.tombstone]) = [] ↔
          c.requestId ∉ (remaining claims release).map (·.requestId) ∧
            c.key ∉ tombstones.map (·.key) ∧ c.generation ≠ release.generation) := by
  obtain ⟨hslots, hrequests, hkeys⟩ := (validateVirtualSlotClaims_iff _ _).mp h
  refine ⟨fun _ => validateRelease_iff hslots, ?_, ?_⟩
  · intro c hc requestId
    exact (validateTombstoneLateChunk_iff _ _ _ _).mpr (hkeys c hc)
  · intro release _
    have hsublist : (remaining claims release).Sublist claims := List.filter_sublist
    refine ⟨?_, ?_, fun c => reclaim_iff h⟩
    · rw [validateVirtualSlotClaims_iff]
      refine ⟨hslots.sublist (hsublist.map _), hrequests.sublist (hsublist.map _), ?_⟩
      intro c hc
      rw [List.map_append, List.mem_append, not_or]
      apply And.intro (hkeys c (hsublist.subset hc))
      have hne : c.slotId ≠ release.slotId := by simpa using (List.mem_filter.mp hc).2
      intro heq
      rw [List.map_singleton, List.mem_singleton] at heq
      exact hne (Prod.mk.inj heq).1
    · intro requestId
      rw [validateTombstoneLateChunk, if_pos]
      simp [MLXVirtualSlotRelease.tombstone]

end Cycle

/-- Two slots are claimed, the first one for the second time. -/
def twoClaims : List MLXVirtualSlotClaim := [⟨"r1", "s1", 2⟩, ⟨"r2", "s2", 1⟩]

theorem virtualSlots_cycle_two :
    validateVirtualSlotClaims twoClaims [⟨"r0", "s1", 1, .success⟩] = [] ∧
      (validateRelease ⟨"r1", "s1", 2, .success⟩ twoClaims = [] ↔
        ∃ c ∈ twoClaims, c.requestId = "r1" ∧ c.slotId = "s1" ∧ c.generation = 2) := by
  have h : validateVirtualSlotClaims twoClaims [⟨"r0", "s1", 1, .success⟩] = [] := by
    simp [validateVirtualSlotClaims, virtualClaimFailures, twoClaims]
  exact ⟨h, (virtualSlots_cycle h).1 ⟨"r1", "s1", 2, .success⟩⟩

end Whooshd.Continuous
