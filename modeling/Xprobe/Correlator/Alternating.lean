import Xprobe.Correlator.Lifecycle

/-!
# Alternating timelines

A timeline alternates when the entries of each key are starts and ends in turn. The loop of a
lifecycle then never sees a start while another one of its key is pending. An end is unmatched when
it is the first entry of its key, a start is left over when it is the last, and all others form pairs
of neighbours.
-/

namespace Xprobe.Correlator

open Foundation Protocol

variable {κ : Type} [LinearOrder κ] (key : Event → Option κ)

def ofKey (k : κ) (entries : List TimelineEntry) : List TimelineEntry :=
  entries.filter (fun entry => key entry.event.event = some k)

/-- The entries of each key are starts and ends in turn. -/
def Alternates (entries : List TimelineEntry) : Prop :=
  ∀ k, (ofKey key k entries).IsChain (fun a b => a.isEnd ≠ b.isEnd)

def keysOf (entries : List TimelineEntry) : Finset κ :=
  (entries.filterMap (fun entry => key entry.event.event)).toFinset

def openingEnds (entries : List TimelineEntry) : Finset κ :=
  (keysOf key entries).filter (fun k => (ofKey key k entries).head?.any TimelineEntry.isEnd)

def closingStarts (entries : List TimelineEntry) : Finset κ :=
  (keysOf key entries).filter (fun k => (ofKey key k entries).getLast?.any (!·.isEnd))

section Keys

variable {key} {entries : List TimelineEntry} {entry : TimelineEntry} {k : κ}

theorem mem_ofKey_iff :
    entry ∈ ofKey key k entries ↔ entry ∈ entries ∧ key entry.event.event = some k := by
  rw [ofKey, List.mem_filter, decide_eq_true_eq]

theorem ofKey_perm {entries' : List TimelineEntry} (h : entries.Perm entries') (k : κ) :
    (ofKey key k entries).Perm (ofKey key k entries') :=
  h.filter _

theorem ofKey_lifecycleTimeline (starts ends : List EventRef) (k : κ) :
    ofKey key k (lifecycleTimeline starts ends) =
      sortByKey lifecycleOrder (ofKey key k (timelineEntries starts ends)) :=
  filter_sortByKey _ _ _

theorem ofKey_map {refs : List EventRef} {f : EventRef → TimelineEntry} {p : EventRef → Bool}
    (h : ∀ ref ∈ refs, key (f ref).event.event = some k ↔ p ref = true) :
    ofKey key k (refs.map f) = (refs.filter p).map f := by
  rw [ofKey, List.filter_map]
  apply congrArg (List.map f)
  apply List.filter_congr
  intro ref href
  rw [Bool.eq_iff_iff, Function.comp_apply, decide_eq_true_eq]
  exact h ref href

private theorem mem_keysOf_of_mem (h : entry ∈ ofKey key k entries) : k ∈ keysOf key entries := by
  obtain ⟨hmem, hkey⟩ := mem_ofKey_iff.mp h
  rw [keysOf, List.mem_toFinset, List.mem_filterMap]
  exact ⟨entry, hmem, hkey⟩

theorem mem_openingEnds_iff :
    k ∈ openingEnds key entries ↔ (ofKey key k entries).head?.any TimelineEntry.isEnd = true := by
  rw [openingEnds, Finset.mem_filter, and_iff_right_iff_imp]
  intro h
  cases hhead : (ofKey key k entries).head? with
  | none => simp [hhead] at h
  | some entry => exact mem_keysOf_of_mem (List.mem_of_head? hhead)

theorem mem_closingStarts_iff :
    k ∈ closingStarts key entries ↔ (ofKey key k entries).getLast?.any (!·.isEnd) = true := by
  rw [closingStarts, Finset.mem_filter, and_iff_right_iff_imp]
  intro h
  cases hlast : (ofKey key k entries).getLast? with
  | none => simp [hlast] at h
  | some entry => exact mem_keysOf_of_mem (List.mem_of_getLast? hlast)

theorem ofKey_concat (hkey : key entry.event.event = some k) (k' : κ) :
    ofKey key k' (entries ++ [entry]) =
      if k' = k then ofKey key k entries ++ [entry] else ofKey key k' entries := by
  unfold ofKey
  rw [List.filter_append]
  split_ifs with h
  · rw [h, List.filter_cons_of_pos (by simpa using hkey), List.filter_nil]
  · have hne : ¬ key entry.event.event = some k' := by
      rw [hkey]
      exact fun heq => h (Option.some.inj heq).symm
    rw [List.filter_cons_of_neg (by simpa using hne), List.filter_nil, List.append_nil]

theorem Alternates.of_concat (h : Alternates key (entries ++ [entry])) :
    Alternates key entries := by
  intro k
  have hk := h k
  unfold ofKey at hk
  rw [List.filter_append] at hk
  exact hk.left_of_append

/-- The entry before the last one of a key is of the other kind. -/
theorem Alternates.getLast?_ne (h : Alternates key (entries ++ [entry]))
    (hkey : key entry.event.event = some k) {previous : TimelineEntry}
    (hlast : (ofKey key k entries).getLast? = some previous) : previous.isEnd ≠ entry.isEnd := by
  have hk := h k
  rw [ofKey_concat hkey, if_pos rfl, List.isChain_append] at hk
  exact hk.2.2 previous hlast entry rfl

/-- A new entry changes the opening ends only when it is the first of its key. -/
theorem openingEnds_concat (hkey : key entry.event.event = some k) :
    openingEnds key (entries ++ [entry]) =
      if ofKey key k entries = [] ∧ entry.isEnd = true then insert k (openingEnds key entries)
      else openingEnds key entries := by
  ext k'
  rw [mem_openingEnds_iff, ofKey_concat hkey]
  by_cases hk : k' = k
  · subst hk
    cases hentries : ofKey key k' entries with
    | nil => cases hend : entry.isEnd <;> simp [hend, mem_openingEnds_iff, hentries]
    | cons first rest => simp [mem_openingEnds_iff, hentries]
  · split_ifs
    · simp [hk, mem_openingEnds_iff]
    · exact mem_openingEnds_iff.symm

theorem not_mem_openingEnds (h : ofKey key k entries = []) : k ∉ openingEnds key entries := by
  simp [mem_openingEnds_iff, h]

end Keys

/-! ## The loop on an alternating timeline -/

structure AlternatingInv (entries : List TimelineEntry) (st : LifecycleState κ) : Prop where
  pending : ∀ k event, st.pending.get? k = some event ↔
    (ofKey key k entries).getLast? = some ⟨false, event⟩
  unmatchedStart : st.unmatchedStart = 0
  unmatchedEnd : st.unmatchedEnd = (openingEnds key entries).card
  ambiguous : st.ambiguous = 0

section Loop

variable {key} {entries : List TimelineEntry} {st : LifecycleState κ} {k : κ}

theorem alternatingInv_init : AlternatingInv key [] (⟨.empty, [], 0, 0, 0⟩ : LifecycleState κ) where
  pending := by
    intro k event
    simp [ofKey]
  unmatchedStart := rfl
  unmatchedEnd := rfl
  ambiguous := rfl

private theorem lifecycleStep_alternating_start (h : AlternatingInv key entries st)
    {event : EventRef} (hkey : key event.event = some k)
    (halternates : Alternates key (entries ++ [⟨false, event⟩])) :
    AlternatingInv key (entries ++ [⟨false, event⟩]) (lifecycleStep key st ⟨false, event⟩) := by
  have hnone : st.pending.get? k = none := by
    cases hget : st.pending.get? k with
    | none => rfl
    | some old =>
      exact (halternates.getLast?_ne hkey ((h.pending k old).mp hget) rfl).elim
  have hstep : lifecycleStep key st ⟨false, event⟩ =
      { st with pending := st.pending.insert k event } := by
    simp [lifecycleStep, hkey, hnone]
  rw [hstep]
  refine { h with pending := ?_, unmatchedEnd := ?_ }
  · intro k' event'
    rw [ofKey_concat hkey]
    show (st.pending.insert k event).get? k' = some event' ↔ _
    rw [BTreeMap.get?_insert]
    split_ifs with hk
    · simp
    · exact h.pending k' event'
  · rw [openingEnds_concat hkey, if_neg (by simp)]
    exact h.unmatchedEnd

private theorem lifecycleStep_alternating_end (h : AlternatingInv key entries st)
    {event : EventRef} (hkey : key event.event = some k)
    (halternates : Alternates key (entries ++ [⟨true, event⟩]))
    (hlate : ∀ earlier ∈ entries, earlier.event.timestampNs ≤ event.timestampNs) :
    AlternatingInv key (entries ++ [⟨true, event⟩]) (lifecycleStep key st ⟨true, event⟩) := by
  cases hget : st.pending.get? k with
  | none =>
    -- the key has no entries yet: its last one would be a start
    have hempty : ofKey key k entries = [] := by
      by_contra hne
      obtain ⟨previous, hlast⟩ := Option.isSome_iff_exists.mp (List.getLast?_isSome.mpr hne)
      have hkind := halternates.getLast?_ne hkey hlast
      obtain ⟨isEnd, start⟩ := previous
      cases isEnd with
      | true => exact hkind rfl
      | false =>
        rw [(h.pending k start).mpr hlast] at hget
        cases hget
    have hstep : lifecycleStep key st ⟨true, event⟩ =
        { st with unmatchedEnd := st.unmatchedEnd + 1 } := by
      simp [lifecycleStep, hkey, hget]
    rw [hstep]
    refine { h with pending := ?_, unmatchedEnd := ?_ }
    · intro k' event'
      rw [ofKey_concat hkey]
      show st.pending.get? k' = some event' ↔ _
      split_ifs with hk
      · simp [hk, hget]
      · exact h.pending k' event'
    · rw [openingEnds_concat hkey, if_pos ⟨hempty, rfl⟩,
        Finset.card_insert_of_notMem (not_mem_openingEnds hempty), ← h.unmatchedEnd]
  | some start =>
    have hlast := (h.pending k start).mp hget
    have hne : ofKey key k entries ≠ [] := List.ne_nil_of_mem (List.mem_of_getLast? hlast)
    have hle : start.timestampNs ≤ event.timestampNs :=
      hlate _ (mem_ofKey_iff.mp (List.mem_of_getLast? hlast)).1
    have hstep : lifecycleStep key st ⟨true, event⟩ =
        { st with
          pending := st.pending.erase k
          pairs := st.pairs ++ [⟨start, event, event.timestampNs - start.timestampNs⟩] } := by
      simp [lifecycleStep, hkey, hget, checkedSub_of_le hle]
    rw [hstep]
    refine { h with pending := ?_, unmatchedEnd := ?_ }
    · intro k' event'
      rw [ofKey_concat hkey]
      show (st.pending.erase k).get? k' = some event' ↔ _
      rw [BTreeMap.get?_erase]
      split_ifs with hk
      · simp
      · exact h.pending k' event'
    · rw [openingEnds_concat hkey, if_neg (fun hfirst => hne hfirst.1)]
      exact h.unmatchedEnd

/-- The loop over an alternating timeline that is sorted by time. -/
theorem foldl_lifecycleStep_alternating
    (hsorted : entries.Pairwise (fun a b => a.event.timestampNs ≤ b.event.timestampNs))
    (hkeys : ∀ entry ∈ entries, (key entry.event.event).isSome = true)
    (halternates : Alternates key entries) :
    AlternatingInv key entries
      (entries.foldl (lifecycleStep key) ⟨.empty, [], 0, 0, 0⟩) := by
  induction entries using List.reverseRecOn with
  | nil => exact alternatingInv_init
  | append_singleton entries entry ih =>
    obtain ⟨hbefore, -, hlate⟩ := List.pairwise_append.mp hsorted
    have h := ih hbefore (fun e he => hkeys e (List.mem_append_left _ he)) halternates.of_concat
    obtain ⟨k, hkey⟩ := Option.isSome_iff_exists.mp
      (hkeys entry (List.mem_append_right _ List.mem_cons_self))
    rw [List.foldl_append, List.foldl_cons, List.foldl_nil]
    obtain ⟨isEnd, event⟩ := entry
    cases isEnd with
    | false => exact lifecycleStep_alternating_start h hkey halternates
    | true =>
      exact lifecycleStep_alternating_end h hkey halternates
        (fun earlier hearlier => hlate earlier hearlier _ List.mem_cons_self)

/-- The starts that are left are those of the keys that end with one. -/
theorem AlternatingInv.len_pending (h : AlternatingInv key entries st) :
    st.pending.len = (closingStarts key entries).card := by
  have hkeys : (st.pending.entries.map Prod.fst).toFinset = closingStarts key entries := by
    ext k
    rw [List.mem_toFinset, mem_closingStarts_iff, List.mem_map]
    constructor
    · rintro ⟨⟨k', event⟩, hentry, rfl⟩
      rw [(h.pending k' event).mp (BTreeMap.get?_eq_some_iff.mpr hentry)]
      rfl
    · intro hstart
      cases hlast : (ofKey key k entries).getLast? with
      | none => simp [hlast] at hstart
      | some last =>
        obtain ⟨isEnd, event⟩ := last
        obtain rfl : isEnd = false := by simpa [hlast] using hstart
        exact ⟨(k, event), BTreeMap.get?_eq_some_iff.mp ((h.pending k event).mpr hlast), rfl⟩
  rw [← hkeys, List.toFinset_card_of_nodup st.pending.keys_nodup, List.length_map]
  rfl

end Loop

/-- On an alternating timeline, every entry is in a pair, an end that opens its key or a start that
    closes it. -/
theorem correlateLifecycle_alternating (starts ends : List EventRef)
    (hkeys : ∀ event ∈ starts ++ ends, (key event.event).isSome = true)
    (halternates : Alternates key (lifecycleTimeline starts ends)) :
    2 * (correlateLifecycle key starts ends none).pairs.length +
        (openingEnds key (lifecycleTimeline starts ends)).card +
        (closingStarts key (lifecycleTimeline starts ends)).card =
      starts.length + ends.length := by
  have hinv := foldl_lifecycleStep_alternating (lifecycleTimeline_sorted starts ends)
    (fun entry hentry => by
      apply hkeys
      have hmem := (lifecycleTimeline_perm starts ends).mem_iff.mp hentry
      simp only [timelineEntries, List.mem_append, List.mem_map] at hmem ⊢
      rcases hmem with ⟨event, hevent, rfl⟩ | ⟨event, hevent, rfl⟩
      · exact .inl hevent
      · exact .inr hevent) halternates
  obtain ⟨hstarts, hends⟩ := correlateLifecycle_conserves key starts ends
  have hlen := hinv.len_pending
  have hunmatched := hinv.unmatchedEnd
  have hnokey := hinv.unmatchedStart
  have hambiguous := hinv.ambiguous
  simp only [correlateLifecycle, lifecycleLoop] at hstarts hends ⊢
  omega

end Xprobe.Correlator
