import Xprobe.Foundation.Matching
import Xprobe.Correlator.Nearest

/-!
# What nearest pairing computes

Without a sample limit, `correlate_nearest` gives each start, in order, an end that is nearest to it
among those that no earlier start has taken. The two range queries find the last timestamp at or
before the start and the first at or after it. Both are minimal on their side of the start, since
the map holds exactly the unused ends and no empty bucket.
-/

namespace Xprobe.Correlator

open Foundation Protocol

/-! ## Distance -/

def distance (start e : EventRef) : Nat :=
  ((e.timestampNs.toNat : Int) - start.timestampNs.toNat).natAbs

/-- An end is nearest to a start, compared with another one: it is not farther, and at the same
    distance it is at or after the start if the other one is. -/
structure NoFarther (start chosen other : EventRef) : Prop where
  distance_le : distance start chosen ≤ distance start other
  tie : distance start chosen = distance start other → start.timestampNs ≤ other.timestampNs →
    start.timestampNs ≤ chosen.timestampNs

/-! ## The choice of a timestamp -/

variable {available : BTreeMap UInt64 (List EventRef)}

/-- The two ways to choose: the last timestamp before the start if it is strictly nearer than the
    first one after it, which is chosen otherwise. -/
theorem selectTimestamp_cases {startNs selected : UInt64}
    (h : selectTimestamp available startNs = some (some selected)) :
    (available.lastLE startNs = some selected ∧
        ∀ after, available.firstGE startNs = some after →
          startNs.toNat - selected.toNat < after.toNat - startNs.toNat) ∨
      (available.firstGE startNs = some selected ∧
        ∀ before, available.lastLE startNs = some before →
          selected.toNat - startNs.toNat ≤ startNs.toNat - before.toNat) := by
  unfold selectTimestamp at h
  cases hbefore : available.lastLE startNs with
  | none =>
    cases hafter : available.firstGE startNs with
    | none =>
      rw [hbefore, hafter] at h
      cases h
    | some after =>
      rw [hbefore, hafter] at h
      cases h
      exact .inr ⟨rfl, nofun⟩
  | some before =>
    cases hafter : available.firstGE startNs with
    | none =>
      rw [hbefore, hafter] at h
      cases h
      exact .inl ⟨rfl, nofun⟩
    | some after =>
      have hle := (BTreeMap.lastLE_eq_some hbefore).1
      have hge := (BTreeMap.firstGE_eq_some hafter).1
      rw [hbefore, hafter] at h
      simp only [checkedSub_of_le hle, checkedSub_of_le hge, some_bind, Option.some.injEq,
        UInt64.lt_iff_toNat_lt, UInt64.toNat_sub_of_le _ _ hle, UInt64.toNat_sub_of_le _ _ hge] at h
      -- a tie goes to the later end
      split_ifs at h with hcloser
      · subst h
        refine .inl ⟨rfl, ?_⟩
        intro after' hafter'
        cases hafter'
        exact hcloser
      · subst h
        refine .inr ⟨rfl, ?_⟩
        intro before' hbefore'
        cases hbefore'
        exact not_lt.mp hcloser

/-- A chosen end is nearest, compared with any end in the map. -/
theorem noFarther_of_selectTimestamp {start chosen other : EventRef} {bucket : List EventRef}
    (h : selectTimestamp available start.timestampNs = some (some chosen.timestampNs))
    (hother : available.get? other.timestampNs = some bucket) : NoFarther start chosen other := by
  suffices hboth : distance start chosen ≤ distance start other ∧
      (distance start chosen = distance start other → start.timestampNs ≤ other.timestampNs →
        start.timestampNs ≤ chosen.timestampNs) from ⟨hboth.1, hboth.2⟩
  simp only [distance, UInt64.le_iff_toNat_le]
  rcases selectTimestamp_cases h with ⟨hbefore, hnearer⟩ | ⟨hafter, hnearer⟩
  · have hchosen := UInt64.le_iff_toNat_le.mp (BTreeMap.lastLE_eq_some hbefore).1
    rcases le_total other.timestampNs start.timestampNs with hle | hle
    · -- both are before the start, and the chosen one is the later of the two
      obtain ⟨last, hlast, hmax⟩ := BTreeMap.exists_lastLE_ge hother hle
      cases hbefore.symm.trans hlast
      rw [UInt64.le_iff_toNat_le] at hle hmax
      omega
    · obtain ⟨first, hfirst, hmin⟩ := BTreeMap.exists_firstGE_le hother hle
      have hlt := hnearer first hfirst
      rw [UInt64.le_iff_toNat_le] at hle hmin
      omega
  · have hchosen := UInt64.le_iff_toNat_le.mp (BTreeMap.firstGE_eq_some hafter).1
    rcases le_total other.timestampNs start.timestampNs with hle | hle
    · obtain ⟨last, hlast, hmax⟩ := BTreeMap.exists_lastLE_ge hother hle
      have hle' := hnearer last hlast
      rw [UInt64.le_iff_toNat_le] at hle hmax
      omega
    · obtain ⟨first, hfirst, hmin⟩ := BTreeMap.exists_firstGE_le hother hle
      cases hafter.symm.trans hfirst
      rw [UInt64.le_iff_toNat_le] at hle hmin
      omega

/-! ## The loop -/

/-- The pair of a start and the end it takes. -/
def nearestPair (choice : EventRef × EventRef) : Pair :=
  ⟨choice.1, choice.2, absDiff choice.2.timestampNs choice.1.timestampNs⟩

/-- An end in the map is in the bucket of its timestamp. -/
theorem BucketsWellFormed.get?_of_mem (h : BucketsWellFormed available) {e : EventRef}
    (he : e ∈ available.values.flatten) :
    ∃ bucket, available.get? e.timestampNs = some bucket := by
  obtain ⟨bucket, hbucket, hmem⟩ := List.mem_flatten.mp he
  obtain ⟨⟨timestamp, bucket'⟩, hentry, rfl⟩ := List.mem_map.mp hbucket
  have hget := BTreeMap.get?_eq_some_iff.mpr hentry
  rw [(h timestamp bucket' hget).2 e hmem]
  exact ⟨bucket', hget⟩

/-- The loop appends one pair for each choice, up to the limit, on which the choices do not
    depend. -/
theorem nearestLoop_bestChoices (todo : List EventRef) {st : NearestState}
    (hbuckets : BucketsWellFormed st.available) :
    ∃ choices, BestChoices NoFarther todo st.available.values.flatten choices ∧
      ∀ limit, st.pairs.length ≤ limit → ∃ st', nearestLoop limit todo st = some st' ∧
        st'.pairs = st.pairs ++ (choices.map nearestPair).take (limit - st.pairs.length) := by
  induction todo generalizing st with
  | nil => exact ⟨[], .served _, fun limit _ => ⟨st, rfl, by simp⟩⟩
  | cons start rest ih =>
    rcases selectTimestamp_spec st.available start.timestampNs with
      ⟨hselect, hempty⟩ | ⟨selected, bucket, hselect, hget⟩
    -- no end is left: the remaining starts get nothing
    · have hvalues : st.available.values.flatten = [] := by
        rw [BTreeMap.values, hempty]
        rfl
      rw [hvalues]
      refine ⟨[], .noneLeft _, fun limit _ => ?_⟩
      rw [nearestLoop, hselect]
      split_ifs <;> exact ⟨_, rfl, by simp⟩
    · obtain ⟨hne, htimes⟩ := hbuckets selected bucket hget
      cases hlast : bucket.getLast? with
      | none => exact absurd (List.getLast?_eq_none_iff.mp hlast) hne
      | some e =>
        have htime : e.timestampNs = selected := htimes e (List.mem_of_getLast? hlast)
        subst htime
        -- the last event of the selected bucket is taken and the rest put back
        have htaken := values_putBack_perm hget hlast
        obtain ⟨choices, hbest, hruns⟩ := @ih
          { st with
            available := putBack st.available e.timestampNs bucket.dropLast
            pairs := st.pairs ++ [nearestPair (start, e)] }
          (bucketsWellFormed_putBack hbuckets hget)
        refine ⟨(start, e) :: choices, .choose htaken ?_ hbest, fun limit hlimit => ?_⟩
        -- every end that is left is in a bucket, and no bucket is closer than the selected one
        · intro other hother
          obtain ⟨otherBucket, hgetOther⟩ := hbuckets.get?_of_mem
            (htaken.symm.subset (List.mem_cons_of_mem e hother))
          exact noFarther_of_selectTimestamp hselect hgetOther
        -- the limit is only looked at before a start, so a run is cut after its pairs
        · rw [nearestLoop]
          split_ifs with hfull
          · exact ⟨_, rfl, by simp [hfull]⟩
          obtain ⟨st', hrun, hpairs⟩ := hruns limit
            (by rw [List.length_append, List.length_singleton]; omega)
          have hroom : limit - st.pairs.length = limit - (st.pairs.length + 1) + 1 := by omega
          refine ⟨st', ?_, ?_⟩
          · simp only [hselect, hget, hlast, some_bind]
            exact hrun
          · rw [hpairs, hroom, List.map_cons, List.take_succ_cons, List.append_assoc,
              List.length_append]
            rfl

/-- Nearest pairing gives the choices in order, cut at the limit. -/
theorem correlateNearest_choices (starts ends : Slice EventRef) :
    ∃ choices, BestChoices NoFarther starts.toList ends.toList choices ∧
      ∀ limit, ∃ st, correlateNearest starts.toList ends.toList limit = some (nearestOutcome st) ∧
        st.pairs = truncate limit (choices.map nearestPair) := by
  obtain ⟨choices, hbest, hruns⟩ := @nearestLoop_bestChoices starts.toList
    ⟨availableEnds ends.toList, [], 0, false⟩ (availableEnds_wellFormed _)
  have hbest := hbest.of_perm (availableEnds_perm ends.toList)
  have hlength := hbest.length_eq.le.trans (min_le_left _ _)
  refine ⟨choices, hbest, fun limit => ?_⟩
  obtain ⟨st, hrun, hpairs⟩ := hruns (limit.getD usizeMax) (Nat.zero_le _)
  refine ⟨st, ?_, hpairs.trans (take_getD_eq_truncate ?_ limit)⟩
  · simp only [correlateNearest, hrun, some_bind]
  · rw [List.length_map]
    exact hlength.trans starts.length_lt_usizeMax.le

/-- Without a limit, nearest pairing serves the starts in order. Each takes an end that is nearest
    to it among those that earlier starts have not taken, and only one side can have events left. -/
theorem correlateNearest_nearest (starts ends : Slice EventRef) :
    ∃ outcome, correlateNearest starts.toList ends.toList none = some outcome ∧
      outcome.pairs.length = min starts.toList.length ends.toList.length ∧
      outcome.pairs.map Pair.startEvent = starts.toList.take outcome.pairs.length ∧
      ∀ before pair after, outcome.pairs = before ++ pair :: after →
        ∃ others, ends.toList.Perm (before.map Pair.endEvent ++ pair.endEvent :: others) ∧
          ∀ other ∈ others, NoFarther pair.startEvent pair.endEvent other := by
  obtain ⟨choices, hbest, hruns⟩ := correlateNearest_choices starts ends
  obtain ⟨st, hrun, hpairs⟩ := hruns none
  refine ⟨nearestOutcome st, hrun, ?_, ?_, ?_⟩
  · rw [nearestOutcome, hpairs, truncate_none, List.length_map, hbest.length_eq]
  · rw [nearestOutcome, hpairs, truncate_none, List.map_map, List.length_map, ← hbest.map_fst_eq]
    rfl
  · intro before pair after hsplit
    rw [nearestOutcome, hpairs, truncate_none] at hsplit
    obtain ⟨front, back, rfl, rfl, hback⟩ := List.map_eq_append_iff.mp hsplit
    obtain ⟨choice, back, rfl, rfl, rfl⟩ := List.map_eq_cons_iff.mp hback
    obtain ⟨others, hperm, hothers⟩ := hbest.exists_others
    refine ⟨others, ?_, hothers⟩
    rw [List.map_map]
    exact hperm

end Xprobe.Correlator
