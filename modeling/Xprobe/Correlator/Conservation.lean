import Xprobe.Correlator.Measure

/-!
# Conservation of selected events

Without a sample limit the counters of an outcome add up: every selected start and every selected
end is paired, counted as unmatched, or ambiguous. What counts as ambiguous depends on the policy;
`lostStarts` and `lostEnds` say how many events of each side that is.
-/

namespace Xprobe.Correlator

open Foundation Protocol

/-- The exact policy pairs by lifecycle. -/
def LifecycleKinds.any (lifecycles : LifecycleKinds) : Bool :=
  lifecycles.syscall || lifecycles.pythonGc || lifecycles.nvtx

/-- The starts that an outcome neither pairs nor counts as unmatched: the overwritten ones of a
    lifecycle, and the starts with a mismatched correlation key. -/
def lostStarts (starts ends : List EventRef) (policy : MatchPolicy) (lifecycles : LifecycleKinds)
    (outcome : Outcome) : Nat :=
  match policy with
  | .exact =>
    if lifecycles.any then outcome.ambiguous else mismatchedCount starts ends starts
  | _ => 0

/-- The ends that an outcome neither pairs nor counts as unmatched: those with a mismatched
    correlation key. -/
def lostEnds (starts ends : List EventRef) (policy : MatchPolicy) (lifecycles : LifecycleKinds) :
    Nat :=
  match policy with
  | .exact => if lifecycles.any then 0 else mismatchedCount starts ends ends
  | _ => 0

/-- The ambiguous count of a policy: keyed exact pairing counts the larger side of each mismatched
    key, a lifecycle counts its lost starts, and the other policies have no ambiguity. -/
def AmbiguousCounted (starts ends : List EventRef) (policy : MatchPolicy)
    (lifecycles : LifecycleKinds) (outcome : Outcome) : Prop :=
  match policy with
  | .exact =>
    if lifecycles.any then
      outcome.ambiguous = lostStarts starts ends policy lifecycles outcome
    else
      outcome.ambiguous =
        ∑ key ∈ mismatchedKeys starts ends, max (keyCount starts key) (keyCount ends key)
  | _ => outcome.ambiguous = 0

/-- No selected event is lost or counted twice: for any starts and ends, without a limit, every
    policy finishes with counters that add up to the number of starts and to the number of ends, and
    keyed exact pairing reports, as ambiguous, the larger side of each mismatched key. -/
theorem correlateSelected_conserves (starts ends : Slice EventRef) (policy : MatchPolicy)
    (lifecycles : LifecycleKinds) :
    ∃ outcome, correlateSelected starts.toList ends.toList policy none lifecycles = some outcome ∧
      outcome.pairs.length + outcome.unmatchedStart +
          lostStarts starts.toList ends.toList policy lifecycles outcome = starts.toList.length ∧
      outcome.pairs.length + outcome.unmatchedEnd +
          lostEnds starts.toList ends.toList policy lifecycles = ends.toList.length ∧
      AmbiguousCounted starts.toList ends.toList policy lifecycles outcome := by
  cases policy with
  -- only exact pairing loses events: a lifecycle to later starts, keys to a mismatch
  | exact =>
    unfold correlateSelected
    by_cases hthread : (lifecycles.syscall || lifecycles.pythonGc) = true
    · have hany : lifecycles.any = true := by simp [LifecycleKinds.any, hthread]
      have h := correlateLifecycle_conserves (fun event => some (threadKey event))
        starts.toList ends.toList
      refine ⟨_, if_pos hthread, ?_, ?_, by simp [AmbiguousCounted, lostStarts, hany]⟩
      · simpa [lostStarts, hany, correlateThreadLifecycle] using h.starts_balance
      · simpa [lostEnds, hany, correlateThreadLifecycle] using h.ends_balance
    · by_cases hnvtx : lifecycles.nvtx = true
      · have hany : lifecycles.any = true := by simp [LifecycleKinds.any, hnvtx]
        have h := correlateLifecycle_conserves correlationKey starts.toList ends.toList
        refine ⟨_, (if_neg hthread).trans (if_pos hnvtx), ?_, ?_, by
          simp [AmbiguousCounted, lostStarts, hany]⟩
        · simpa [lostStarts, hany, correlateNvtxLifecycle] using h.starts_balance
        · simpa [lostEnds, hany, correlateNvtxLifecycle] using h.ends_balance
      · have hany : lifecycles.any = false := by
          simp only [LifecycleKinds.any, Bool.or_eq_false_iff]
          simpa [hnvtx] using hthread
        have h := correlateExact_conserves starts.toList ends.toList
        refine ⟨_, (if_neg hthread).trans (if_neg hnvtx), ?_, ?_, ?_⟩
        · simpa [lostStarts, hany] using h.starts_balance
        · simpa [lostEnds, hany] using h.ends_balance
        · simpa [AmbiguousCounted, hany] using
            correlateExact_ambiguous starts.toList ends.toList none
  -- the other policies count every event that they do not pair
  | firstAfter =>
    obtain ⟨outcome, hrun, h, hzero⟩ := correlateFirstAfter_conserves starts ends
    exact ⟨outcome, hrun, h.starts_balance, h.ends_balance, hzero⟩
  | nearest =>
    obtain ⟨outcome, hrun, h, hzero⟩ := correlateNearest_conserves starts ends
    exact ⟨outcome, hrun, h.starts_balance, h.ends_balance, hzero⟩
  | stackNested =>
    obtain ⟨outcome, hrun, h, hzero⟩ := correlateStackNested_conserves starts ends
    exact ⟨outcome, hrun, h.starts_balance, h.ends_balance, hzero⟩
  | streamOrder =>
    obtain ⟨outcome, hrun, h, hzero⟩ := correlateStreamOrder_conserves starts.toList ends.toList
    exact ⟨outcome, hrun, h.starts_balance, h.ends_balance, hzero⟩

end Xprobe.Correlator
