import Mathlib

/-!
# A log with many writers

A bounded array that many writers fill at the same time without a lock. A writer draws the next index
from a counter, writes its entry part by part, marks the entry as ready, and then moves the count of
committed entries forward as long as the next entry is ready. A writer that loses a race for the
count reads it again; the exchange may also fail for no reason.

The writers take their steps in any order. `Sound` is the invariant of all interleavings: indices are
drawn once, a ready entry is complete, and entries below the committed count are ready. Its last part
says why no ready entry is left behind: whenever the entry at the committed count is ready, some
writer is still in the loop that commits entries.
-/

namespace Xprobe.Foundation.CommitLog

/-! ## States and steps -/

/-- Where a writer is. -/
inductive Phase where
  | waiting
  /-- The drawn index lies outside the array. -/
  | refused
  | writing (pending : Finset ℕ)
  | loading
  | checking (seen : ℕ)
  | exchanging (seen : ℕ)
  | finished

/-- The writer is in the loop that commits entries, or about to enter it. -/
def Phase.InLoop : Phase → Prop
  | .loading => True
  | .checking _ => True
  | .exchanging _ => True
  | _ => False

/-- The writer has not begun, or is done. -/
def Phase.AtRest : Phase → Prop
  | .waiting => True
  | .refused => True
  | .finished => True
  | _ => False

structure Writer where
  phase : Phase
  index : Option ℕ

/-- The shared memory and the writers. An entry is a function from its parts. -/
structure Log (ι β : Type*) where
  count : ℕ
  committed : ℕ
  ready : ℕ → Bool
  entries : ℕ → ℕ → β
  writers : ι → Writer

/-- What a writer does when it is its turn: its next access, a write of one part, or an exchange that
    fails for no reason. -/
inductive Action where
  | next
  | write (part : ℕ)
  | fail

section Steps

variable {ι β : Type*} [DecidableEq ι] (capacity size : ℕ) (content : ι → ℕ → β)

def Log.setWriter (log : Log ι β) (writer : ι) (phase : Phase) (index : Option ℕ) : Log ι β :=
  { log with writers := Function.update log.writers writer ⟨phase, index⟩ }

def Log.next (log : Log ι β) (writer : ι) : Log ι β :=
  let index := (log.writers writer).index
  match (log.writers writer).phase with
  | .waiting =>
    let drawn := { log with count := log.count + 1 }
    if log.count < capacity then
      drawn.setWriter writer (.writing (Finset.range size)) (some log.count)
    else drawn.setWriter writer .refused (some log.count)
  | .writing pending =>
    if pending = ∅ then
      let published :=
        { log with ready := fun i => log.ready i || decide (index = some i) }
      published.setWriter writer .loading index
    else log
  | .loading => log.setWriter writer (.checking log.committed) index
  | .checking seen =>
    if seen < capacity ∧ log.ready seen = true then log.setWriter writer (.exchanging seen) index
    else log.setWriter writer .finished index
  | .exchanging seen =>
    if log.committed = seen then
      { log with committed := seen + 1 }.setWriter writer (.checking (seen + 1)) index
    else log.setWriter writer (.checking log.committed) index
  | .refused => log
  | .finished => log

def Log.step (log : Log ι β) (writer : ι) (action : Action) : Log ι β :=
  match action with
  | .next => log.next capacity size writer
  | .write part =>
    match log.writers writer with
    | ⟨.writing pending, some index⟩ =>
      if part < size then
        { log with
          entries := Function.update log.entries index
            (Function.update (log.entries index) part (content writer part)) }.setWriter writer
          (.writing (pending.erase part)) (some index)
      else log
    | _ => log
  | .fail =>
    match log.writers writer with
    | ⟨.exchanging _, index⟩ => log.setWriter writer (.checking log.committed) index
    | _ => log

end Steps

section Invariant

variable {ι β : Type*} [DecidableEq ι]

@[simp] theorem Log.setWriter_ready (log : Log ι β) (writer : ι) (phase : Phase)
    (index : Option ℕ) : (log.setWriter writer phase index).ready = log.ready := rfl

@[simp] theorem Log.setWriter_entries (log : Log ι β) (writer : ι) (phase : Phase)
    (index : Option ℕ) : (log.setWriter writer phase index).entries = log.entries := rfl

@[simp] theorem Log.setWriter_writers_self (log : Log ι β) (writer : ι) (phase : Phase)
    (index : Option ℕ) : (log.setWriter writer phase index).writers writer = ⟨phase, index⟩ :=
  Function.update_self ..

variable {log : Log ι β} {writer : ι}

theorem Log.setWriter_writers_of_ne {other : ι} (h : other ≠ writer) (phase : Phase)
    (index : Option ℕ) :
    (log.setWriter writer phase index).writers other = log.writers other :=
  Function.update_of_ne h ..

/-- A turn changes no other writer. -/
theorem Log.step_writers_of_ne (capacity size : ℕ) (content : ι → ℕ → β) (log : Log ι β) {other : ι}
    (h : other ≠ writer) (action : Action) :
    (log.step capacity size content writer action).writers other = log.writers other := by
  -- each branch leaves the writers alone or updates the one whose turn it is
  cases action with
  | next =>
    unfold Log.step Log.next
    cases (log.writers writer).phase with
    | waiting =>
      dsimp only
      split_ifs <;> exact Function.update_of_ne h ..
    | refused => rfl
    | writing pending =>
      dsimp only
      split_ifs
      · exact Function.update_of_ne h ..
      · rfl
    | loading => exact Function.update_of_ne h ..
    | checking seen =>
      dsimp only
      split_ifs <;> exact Function.update_of_ne h ..
    | exchanging seen =>
      dsimp only
      split_ifs <;> exact Function.update_of_ne h ..
    | finished => rfl
  | write part =>
    unfold Log.step
    dsimp only
    split
    · split_ifs
      · exact Function.update_of_ne h ..
      · rfl
    · rfl
  | fail =>
    unfold Log.step
    dsimp only
    split
    · exact Function.update_of_ne h ..
    · rfl

/-- A writer that draws an index outside the array is refused. -/
theorem Log.step_refused {capacity : ℕ} (size : ℕ) (content : ι → ℕ → β)
    (hwaiting : (log.writers writer).phase = .waiting) (hfull : capacity ≤ log.count) :
    ((log.step capacity size content writer .next).writers writer).phase = .refused := by
  unfold Log.step Log.next
  rw [hwaiting]
  dsimp only
  rw [if_neg (not_lt.mpr hfull), Log.setWriter_writers_self]

variable (capacity size : ℕ) (content : ι → ℕ → β)

/-! ## The invariant -/

omit [DecidableEq ι] in
/-- The entry of a writer is complete and ready. -/
def Published (log : Log ι β) (writer : ι) : Prop :=
  ∃ index, (log.writers writer).index = some index ∧ index < capacity ∧ log.ready index = true ∧
    ∀ part < size, log.entries index part = content writer part

omit [DecidableEq ι] in
/-- What holds of a writer in its phase. -/
def WriterSound (log : Log ι β) (writer : ι) : Prop :=
  match (log.writers writer).phase with
  | .waiting => (log.writers writer).index = none
  | .refused => ∃ index, (log.writers writer).index = some index ∧ capacity ≤ index
  | .writing pending => ∃ index, (log.writers writer).index = some index ∧ index < capacity ∧
      log.ready index = false ∧
      ∀ part < size, part ∉ pending → log.entries index part = content writer part
  | .loading => Published capacity size content log writer
  | .checking seen => Published capacity size content log writer ∧ seen ≤ log.committed
  | .exchanging seen => Published capacity size content log writer ∧ seen ≤ log.committed ∧
      seen < capacity ∧ log.ready seen = true
  | .finished => Published capacity size content log writer

omit [DecidableEq ι] in
structure Sound (log : Log ι β) : Prop where
  index_lt : ∀ writer index, (log.writers writer).index = some index → index < log.count
  drawn : ∀ index < log.count, ∃ writer, (log.writers writer).index = some index
  unique : ∀ v w index, (log.writers v).index = some index →
    (log.writers w).index = some index → v = w
  ready_lt : ∀ index, log.ready index = true → index < log.count ∧ index < capacity
  committed_le : log.committed ≤ capacity
  committed_ready : ∀ index < log.committed, log.ready index = true
  writer : ∀ writer, WriterSound capacity size content log writer
  progress : log.committed < capacity → log.ready log.committed = true →
    ∃ writer, (log.writers writer).phase.InLoop

variable {capacity size content}

omit [DecidableEq ι] in
/-- A writer is not disturbed by steps that leave its entry alone and take nothing back. -/
theorem WriterSound.frame {log' : Log ι β} (h : WriterSound capacity size content log writer)
    (hwriter : log'.writers writer = log.writers writer)
    (hcommitted : log.committed ≤ log'.committed)
    (hready : ∀ index, log.ready index = true → log'.ready index = true)
    (hown : ∀ index, (log.writers writer).index = some index →
      log'.ready index = log.ready index ∧ log'.entries index = log.entries index) :
    WriterSound capacity size content log' writer := by
  have hpublished : Published capacity size content log writer →
      Published capacity size content log' writer := by
    rintro ⟨index, hindex, hlt, hisReady, hparts⟩
    refine ⟨index, by rw [hwriter, hindex], hlt, hready index hisReady, ?_⟩
    rw [(hown index hindex).2]
    exact hparts
  unfold WriterSound at h ⊢
  rw [hwriter]
  cases hphase : (log.writers writer).phase with
  | waiting =>
    rw [hphase] at h
    exact h
  | refused =>
    rw [hphase] at h
    exact h
  | writing pending =>
    rw [hphase] at h
    obtain ⟨index, hindex, hlt, hnot, hparts⟩ := h
    refine ⟨index, hindex, hlt, ?_, ?_⟩
    · rw [(hown index hindex).1, hnot]
    · rw [(hown index hindex).2]
      exact hparts
  | loading =>
    rw [hphase] at h
    exact hpublished h
  | checking seen =>
    rw [hphase] at h
    exact ⟨hpublished h.1, h.2.trans hcommitted⟩
  | exchanging seen =>
    rw [hphase] at h
    exact ⟨hpublished h.1, h.2.1.trans hcommitted, h.2.2.1, hready seen h.2.2.2⟩
  | finished =>
    rw [hphase] at h
    exact hpublished h

variable (h : Sound capacity size content log)

include h

omit [DecidableEq ι] in
/-- A step of a writer that keeps its index: it may touch its own entry, and take nothing back. -/
theorem Sound.update {log' : Log ι β} (hcount : log'.count = log.count)
    (hindex : (log'.writers writer).index = (log.writers writer).index)
    (hothers : ∀ w, w ≠ writer → log'.writers w = log.writers w)
    (hmono : log.committed ≤ log'.committed)
    (hready : ∀ index, log.ready index = true → log'.ready index = true)
    (hown : ∀ index, (log.writers writer).index ≠ some index →
      log'.ready index = log.ready index ∧ log'.entries index = log.entries index)
    (hready_lt : ∀ index, log'.ready index = true → index < log'.count ∧ index < capacity)
    (hcommitted : log'.committed ≤ capacity)
    (hcommitted_ready : ∀ index < log'.committed, log'.ready index = true)
    (hwriter : WriterSound capacity size content log' writer)
    (hprogress : log'.committed < capacity → log'.ready log'.committed = true →
      ∃ w, (log'.writers w).phase.InLoop) :
    Sound capacity size content log' := by
  have hsame : ∀ w, (log'.writers w).index = (log.writers w).index := by
    intro w
    rcases eq_or_ne w writer with rfl | hne
    · exact hindex
    · rw [hothers w hne]
  refine
    { index_lt := ?_
      drawn := ?_
      unique := ?_
      ready_lt := hready_lt
      committed_le := hcommitted
      committed_ready := hcommitted_ready
      writer := ?_
      progress := hprogress }
  · intro w index hw
    rw [hsame] at hw
    rw [hcount]
    exact h.index_lt w index hw
  · intro index hlt
    rw [hcount] at hlt
    obtain ⟨w, hw⟩ := h.drawn index hlt
    exact ⟨w, by rw [hsame, hw]⟩
  · intro v w index hv hw
    rw [hsame] at hv hw
    exact h.unique v w index hv hw
  · intro w
    rcases eq_or_ne w writer with rfl | hne
    · exact hwriter
    · -- another writer has another index
      refine (h.writer w).frame (hothers w hne) hmono hready (fun index hw => hown index ?_)
      exact fun hown => hne (h.unique w writer index hw hown)

/-- A step in which only the phase of the writer changes. -/
theorem Sound.setPhase (writer : ι) {phase : Phase} (hwriter : WriterSound capacity size content
      (log.setWriter writer phase (log.writers writer).index) writer)
    (hprogress : phase.InLoop ∨ ¬ (log.committed < capacity ∧ log.ready log.committed = true)) :
    Sound capacity size content (log.setWriter writer phase (log.writers writer).index) := by
  refine h.update rfl (by rw [Log.setWriter_writers_self])
    (fun w hw => Log.setWriter_writers_of_ne hw ..) le_rfl (fun _ => id) (fun _ _ => ⟨rfl, rfl⟩)
    h.ready_lt h.committed_le h.committed_ready hwriter ?_
  intro hlt hready
  rcases hprogress with hloop | hnot
  · exact ⟨writer, by rw [Log.setWriter_writers_self]; exact hloop⟩
  · exact absurd ⟨hlt, hready⟩ hnot

omit [DecidableEq ι] in
/-- A writer outside the loop is not the one that will commit the next entry. -/
theorem Sound.progress_of_ne
    (hphase : ¬ (log.writers writer).phase.InLoop) (hlt : log.committed < capacity)
    (hready : log.ready log.committed = true) :
    ∃ w, w ≠ writer ∧ (log.writers w).phase.InLoop := by
  obtain ⟨w, hw⟩ := h.progress hlt hready
  refine ⟨w, ?_, hw⟩
  rintro rfl
  exact hphase hw

/-! ## Every step keeps it -/

/-- Drawing an index: the writer gets one that nobody had. -/
theorem Sound.draw (hwaiting : (log.writers writer).phase = .waiting) {phase : Phase}
    (hwriter : WriterSound capacity size content
      (Log.setWriter { log with count := log.count + 1 } writer phase (some log.count)) writer) :
    Sound capacity size content
      (Log.setWriter { log with count := log.count + 1 } writer phase (some log.count)) := by
  have hnone : (log.writers writer).index = none := by
    have hsound := h.writer writer
    rwa [WriterSound, hwaiting] at hsound
  refine
    { index_lt := ?_
      drawn := ?_
      unique := ?_
      ready_lt := fun index hready => ⟨(h.ready_lt index hready).1.trans (Nat.lt_succ_self _),
        (h.ready_lt index hready).2⟩
      committed_le := h.committed_le
      committed_ready := h.committed_ready
      writer := ?_
      progress := ?_ }
  -- the count grows past the index that it gave away
  · intro w index hw
    rcases eq_or_ne w writer with rfl | hne
    · rw [Log.setWriter_writers_self] at hw
      cases hw
      exact Nat.lt_succ_self _
    · rw [Log.setWriter_writers_of_ne hne] at hw
      exact (h.index_lt w index hw).trans (Nat.lt_succ_self _)
  · intro index hlt
    rcases Nat.lt_succ_iff_lt_or_eq.mp hlt with hold | rfl
    · obtain ⟨w, hw⟩ := h.drawn index hold
      have hne : w ≠ writer := by
        rintro rfl
        rw [hnone] at hw
        cases hw
      exact ⟨w, by rw [Log.setWriter_writers_of_ne hne]; exact hw⟩
    · exact ⟨writer, by rw [Log.setWriter_writers_self]⟩
  · -- the new index is above all that were drawn before
    have hnew : ∀ w, w ≠ writer → ∀ index, (log.writers w).index = some index →
        index ≠ log.count := fun w _ index hw => (h.index_lt w index hw).ne
    intro v w index hv hw
    rcases eq_or_ne v writer with rfl | hv'
    · rcases eq_or_ne w v with rfl | hw'
      · rfl
      · rw [Log.setWriter_writers_self] at hv
        rw [Log.setWriter_writers_of_ne hw'] at hw
        cases hv
        exact absurd rfl (hnew w hw' _ hw)
    · rw [Log.setWriter_writers_of_ne hv'] at hv
      rcases eq_or_ne w writer with rfl | hw'
      · rw [Log.setWriter_writers_self] at hw
        cases hw
        exact absurd rfl (hnew v hv' _ hv)
      · rw [Log.setWriter_writers_of_ne hw'] at hw
        exact h.unique v w index hv hw
  -- the others do not see the draw, and the writer had no entry to commit before
  · intro w
    rcases eq_or_ne w writer with rfl | hne
    · exact hwriter
    · exact (h.writer w).frame (Log.setWriter_writers_of_ne hne ..) le_rfl (fun _ => id)
        (fun _ _ => ⟨rfl, rfl⟩)
  · intro hlt hready
    obtain ⟨w, hne, hw⟩ := h.progress_of_ne (by rw [hwaiting]; exact id) hlt hready
    exact ⟨w, by rw [Log.setWriter_writers_of_ne hne]; exact hw⟩

/-- Writing a part: only the writer's own entry changes, and nobody else has its index. -/
theorem Sound.write {pending : Finset ℕ} {index : ℕ}
    (hphase : log.writers writer = ⟨.writing pending, some index⟩) (part : ℕ) :
    Sound capacity size content
      (Log.setWriter
        { log with
          entries := Function.update log.entries index
            (Function.update (log.entries index) part (content writer part)) } writer
        (.writing (pending.erase part)) (some index)) := by
  have hsound := h.writer writer
  rw [WriterSound, hphase] at hsound
  obtain ⟨_, hindex, hlt, hnot, hparts⟩ := hsound
  cases hindex
  refine h.update rfl (by rw [Log.setWriter_writers_self, hphase])
    (fun w hw => Log.setWriter_writers_of_ne hw ..) le_rfl (fun _ => id) ?_ h.ready_lt
    h.committed_le h.committed_ready ?_ ?_
  · intro i hi
    rw [hphase] at hi
    exact ⟨rfl, Function.update_of_ne (fun heq => hi (congrArg some heq.symm)) ..⟩
  · rw [WriterSound, Log.setWriter_writers_self]
    refine ⟨index, rfl, hlt, hnot, fun q hq hmem => ?_⟩
    rw [Log.setWriter_entries]
    dsimp only
    rw [Function.update_self]
    rcases eq_or_ne q part with rfl | hqp
    · rw [Function.update_self]
    · rw [Function.update_of_ne hqp]
      exact hparts q hq (fun hpending => hmem (Finset.mem_erase.mpr ⟨hqp, hpending⟩))
  · intro hlt' hready
    obtain ⟨w, hne, hw⟩ := h.progress_of_ne (by rw [hphase]; exact id) hlt' hready
    exact ⟨w, by rw [Log.setWriter_writers_of_ne hne]; exact hw⟩

/-- Marking the entry as ready, once all its parts are written. The writer then enters the loop. -/
theorem Sound.publish (hphase : (log.writers writer).phase = .writing ∅) :
    Sound capacity size content
      (Log.setWriter
        { log with
          ready := fun i => log.ready i || decide ((log.writers writer).index = some i) } writer
        .loading (log.writers writer).index) := by
  have hsound := h.writer writer
  rw [WriterSound, hphase] at hsound
  obtain ⟨index, hindex, hlt, -, hparts⟩ := hsound
  have hmono : ∀ i, log.ready i = true →
      (log.ready i || decide ((log.writers writer).index = some i)) = true := by
    intro i hi
    rw [hi, Bool.true_or]
  refine h.update rfl (by rw [Log.setWriter_writers_self])
    (fun w hw => Log.setWriter_writers_of_ne hw ..) le_rfl hmono ?_ ?_ h.committed_le
    (fun i hi => hmono i (h.committed_ready i hi)) ?_ ?_
  · intro i hi
    exact ⟨by rw [Log.setWriter_ready]; simp [hi], rfl⟩
  · intro i hi
    rw [Log.setWriter_ready, Bool.or_eq_true, decide_eq_true_eq] at hi
    rcases hi with hold | hnew
    · exact h.ready_lt i hold
    · rw [hindex] at hnew
      cases hnew
      exact ⟨h.index_lt writer _ hindex, hlt⟩
  -- no part is pending, so the entry is complete when it becomes ready
  · rw [WriterSound, Log.setWriter_writers_self]
    refine ⟨index, by rw [Log.setWriter_writers_self, hindex], hlt, ?_, ?_⟩
    · rw [Log.setWriter_ready]
      simp [hindex]
    · exact fun part hpart => hparts part hpart (Finset.notMem_empty part)
  · intro _ _
    exact ⟨writer, by rw [Log.setWriter_writers_self]; trivial⟩

/-- Committing the next entry, which the writer has seen ready. The writer stays in the loop. -/
theorem Sound.commit {seen : ℕ}
    (hphase : (log.writers writer).phase = .exchanging seen) (hseen : log.committed = seen) :
    Sound capacity size content
      (Log.setWriter { log with committed := seen + 1 } writer (.checking (seen + 1))
        (log.writers writer).index) := by
  have hsound := h.writer writer
  rw [WriterSound, hphase] at hsound
  obtain ⟨⟨index, hindex, hlt, hready, hparts⟩, -, hcapacity, hnext⟩ := hsound
  refine h.update rfl (by rw [Log.setWriter_writers_self])
    (fun w hw => Log.setWriter_writers_of_ne hw ..) ?_ (fun _ => id) (fun _ _ => ⟨rfl, rfl⟩)
    h.ready_lt hcapacity ?_ ?_ ?_
  · rw [hseen]
    exact Nat.le_succ seen
  · intro i hi
    rcases Nat.lt_succ_iff_lt_or_eq.mp hi with hold | rfl
    · exact h.committed_ready i (hseen ▸ hold)
    · exact hnext
  · rw [WriterSound, Log.setWriter_writers_self]
    exact ⟨⟨index, by rw [Log.setWriter_writers_self, hindex], hlt, hready, hparts⟩, le_rfl⟩
  · intro _ _
    exact ⟨writer, by rw [Log.setWriter_writers_self]; trivial⟩

/-- A writer that has published its entry can take up any count that is not above the committed
    one. -/
theorem Sound.recheck (hpublished : Published capacity size content log writer) {seen : ℕ}
    (hseen : seen ≤ log.committed) :
    Sound capacity size content
      (log.setWriter writer (.checking seen) (log.writers writer).index) := by
  have hloop : (Phase.checking seen).InLoop := trivial
  refine h.setPhase writer ?_ (.inl hloop)
  obtain ⟨index, hindex, hrest⟩ := hpublished
  rw [WriterSound, Log.setWriter_writers_self]
  exact ⟨⟨index, by rw [Log.setWriter_writers_self, hindex], hrest⟩, hseen⟩

/-- A writer leaves the loop only when the next entry is not ready. -/
theorem Sound.leave {seen : ℕ} (hphase : (log.writers writer).phase = .checking seen)
    (hend : ¬ (seen < capacity ∧ log.ready seen = true)) :
    Sound capacity size content
      (log.setWriter writer .finished (log.writers writer).index) := by
  have hsound := h.writer writer
  rw [WriterSound, hphase] at hsound
  obtain ⟨⟨index, hindex, hrest⟩, hseen⟩ := hsound
  apply h.setPhase writer
  · rw [WriterSound, Log.setWriter_writers_self]
    exact ⟨index, by rw [Log.setWriter_writers_self, hindex], hrest⟩
  · right
    rintro ⟨hlt, hready⟩
    -- everything below the committed count is ready, so the writer has seen the count itself
    rcases hseen.lt_or_eq with hbelow | rfl
    · exact hend ⟨hbelow.trans hlt, h.committed_ready seen hbelow⟩
    · exact hend ⟨hlt, hready⟩

theorem Sound.next (writer : ι) : Sound capacity size content (log.next capacity size writer) := by
  have hsound := h.writer writer
  unfold Log.next
  cases hphase : (log.writers writer).phase with
  | waiting =>
    dsimp only
    split_ifs with hlt
    · apply h.draw hphase
      -- nobody has drawn this index, so nothing of its entry is ready
      have hfresh : log.ready log.count = false := by
        rw [Bool.eq_false_iff]
        exact fun hready => lt_irrefl _ (h.ready_lt _ hready).1
      rw [WriterSound, Log.setWriter_writers_self]
      refine ⟨log.count, rfl, hlt, hfresh, ?_⟩
      exact fun part hpart hmem => absurd (Finset.mem_range.mpr hpart) hmem
    · apply h.draw hphase
      rw [WriterSound, Log.setWriter_writers_self]
      exact ⟨log.count, rfl, not_lt.mp hlt⟩
  | refused => exact h
  | writing pending =>
    dsimp only
    split_ifs with hempty
    · rw [hempty] at hphase
      exact h.publish hphase
    · exact h
  | loading =>
    rw [WriterSound, hphase] at hsound
    exact h.recheck hsound le_rfl
  | checking seen =>
    dsimp only
    split_ifs with hready
    · have hloop : (Phase.exchanging seen).InLoop := trivial
      refine h.setPhase writer ?_ (.inl hloop)
      rw [WriterSound, hphase] at hsound
      obtain ⟨⟨index, hindex, hrest⟩, hseen⟩ := hsound
      rw [WriterSound, Log.setWriter_writers_self]
      exact ⟨⟨index, by rw [Log.setWriter_writers_self, hindex], hrest⟩, hseen, hready⟩
    · exact h.leave hphase hready
  | exchanging seen =>
    dsimp only
    split_ifs with hseen
    · exact h.commit hphase hseen
    · rw [WriterSound, hphase] at hsound
      exact h.recheck hsound.1 le_rfl
  | finished => exact h

theorem Sound.step (writer : ι) (action : Action) :
    Sound capacity size content (log.step capacity size content writer action) := by
  cases action with
  | next => exact h.next writer
  | write part =>
    unfold Log.step
    dsimp only
    split
    · rename_i pending index hwriter
      split_ifs
      · exact h.write hwriter part
      · exact h
    · exact h
  | fail =>
    unfold Log.step
    dsimp only
    split
    · rename_i seen index hwriter
      have hsound := h.writer writer
      rw [WriterSound, hwriter] at hsound
      have hrecheck := h.recheck hsound.1 le_rfl
      rwa [hwriter] at hrecheck
    · exact h

omit h

omit [DecidableEq ι] in
/-- The log before anybody writes. -/
theorem sound_start (hcount : log.count = 0) (hcommitted : log.committed = 0)
    (hready : ∀ index, log.ready index = false)
    (hwriters : ∀ writer, log.writers writer = ⟨.waiting, none⟩) :
    Sound capacity size content log where
  index_lt writer index hindex := by
    rw [hwriters] at hindex
    cases hindex
  drawn index hindex := by
    rw [hcount] at hindex
    exact absurd hindex (Nat.not_lt_zero index)
  unique v w index hv := by
    rw [hwriters] at hv
    cases hv
  ready_lt index hindex := by
    rw [hready] at hindex
    cases hindex
  committed_le := hcommitted ▸ Nat.zero_le capacity
  committed_ready index hindex := by
    rw [hcommitted] at hindex
    exact absurd hindex (Nat.not_lt_zero index)
  writer writer := by
    rw [WriterSound, hwriters]
  progress _ hnext := by
    rw [hready] at hnext
    cases hnext

/-! ## What it says -/

variable (h : Sound capacity size content log)

include h

omit [DecidableEq ι] in
/-- No more is committed than was drawn and has room. -/
theorem Sound.committed_le_min : log.committed ≤ min log.count capacity := by
  refine le_min ?_ h.committed_le
  by_contra hlt
  have hready := h.committed_ready log.count (not_le.mp hlt)
  exact lt_irrefl _ (h.ready_lt _ hready).1

omit [DecidableEq ι] in
/-- A writer with an index has no room for it, is writing its entry, or has made it complete and
    ready. -/
theorem Sound.of_index {index : ℕ} (hindex : (log.writers writer).index = some index) :
    capacity ≤ index ∨
      (∃ pending, (log.writers writer).phase = .writing pending ∧ log.ready index = false) ∨
      ((∀ pending, (log.writers writer).phase ≠ .writing pending) ∧ log.ready index = true ∧
        ∀ part < size, log.entries index part = content writer part) := by
  have hpublished : Published capacity size content log writer → log.ready index = true ∧
      ∀ part < size, log.entries index part = content writer part := by
    rintro ⟨i, hi, -, hrest⟩
    rw [hindex] at hi
    cases hi
    exact hrest
  have hsound := h.writer writer
  rw [WriterSound] at hsound
  cases hphase : (log.writers writer).phase with
  -- only a writer that has drawn has an index
  | waiting =>
    rw [hphase, hindex] at hsound
    cases hsound
  | refused =>
    rw [hphase] at hsound
    obtain ⟨i, hi, hle⟩ := hsound
    rw [hindex] at hi
    cases hi
    exact .inl hle
  | writing pending =>
    rw [hphase] at hsound
    obtain ⟨i, hi, -, hnot, -⟩ := hsound
    rw [hindex] at hi
    cases hi
    exact .inr (.inl ⟨pending, rfl, hnot⟩)
  -- from the publication on the entry is complete
  | loading =>
    rw [hphase] at hsound
    exact .inr (.inr ⟨nofun, hpublished hsound⟩)
  | checking seen =>
    rw [hphase] at hsound
    exact .inr (.inr ⟨nofun, hpublished hsound.1⟩)
  | exchanging seen =>
    rw [hphase] at hsound
    exact .inr (.inr ⟨nofun, hpublished hsound.1⟩)
  | finished =>
    rw [hphase] at hsound
    exact .inr (.inr ⟨nofun, hpublished hsound⟩)

omit [DecidableEq ι] in
/-- A ready entry is the complete entry of the writer that drew its index. -/
theorem Sound.published_of_ready {index : ℕ} (hready : log.ready index = true) :
    ∃ writer, (log.writers writer).index = some index ∧
      (∀ part < size, log.entries index part = content writer part) ∧
      ∀ pending, (log.writers writer).phase ≠ .writing pending := by
  obtain ⟨hcount, hcapacity⟩ := h.ready_lt index hready
  obtain ⟨writer, hindex⟩ := h.drawn index hcount
  rcases h.of_index hindex with hle | ⟨pending, -, hnot⟩ | ⟨hphase, -, hparts⟩
  · exact absurd hcapacity (not_lt.mpr hle)
  · rw [hready] at hnot
    cases hnot
  · exact ⟨writer, hindex, hparts, hphase⟩

omit [DecidableEq ι] in
/-- Nobody writes to a ready entry. -/
theorem Sound.not_writing {index : ℕ} (hready : log.ready index = true) {pending : Finset ℕ} :
    log.writers writer ≠ ⟨.writing pending, some index⟩ := by
  intro hwriter
  obtain ⟨owner, howner, -, hphase⟩ := h.published_of_ready hready
  have hsame := h.unique owner writer index howner (by rw [hwriter])
  rw [hsame, hwriter] at hphase
  exact hphase pending rfl

omit [DecidableEq ι] in
/-- When every writer rests, everything that was drawn and has room is committed. -/
theorem Sound.committed_eq_min (hrest : ∀ writer, (log.writers writer).phase.AtRest) :
    log.committed = min log.count capacity := by
  refine le_antisymm h.committed_le_min ?_
  by_contra hlt
  have hlt := not_le.mp hlt
  have hcount : log.committed < log.count := lt_of_lt_of_le hlt (min_le_left _ _)
  have hcapacity : log.committed < capacity := lt_of_lt_of_le hlt (min_le_right _ _)
  -- the writer of the next entry has finished, so the entry is ready
  have hready : log.ready log.committed = true := by
    obtain ⟨writer, hindex⟩ := h.drawn log.committed hcount
    rcases h.of_index hindex with hle | ⟨pending, hphase, -⟩ | ⟨-, hready, -⟩
    · exact absurd hcapacity (not_lt.mpr hle)
    · have hwriting := hrest writer
      rw [hphase] at hwriting
      cases hwriting
    · exact hready
  -- and then somebody would still be in the loop
  obtain ⟨writer, hloop⟩ := h.progress hcapacity hready
  have hphase := hrest writer
  cases hwriter : (log.writers writer).phase <;> rw [hwriter] at hloop hphase <;>
    first | exact hloop | exact hphase

/-! ## Counters of 64 bits -/

/-- The log with its two counters as words of 64 bits. -/
def Log.words (log : Log ι β) : Log ι β :=
  { log with count := log.count % 2 ^ 64, committed := log.committed % 2 ^ 64 }

omit [DecidableEq ι] in
/-- As long as fewer than `2 ^ 64` indices were drawn, no counter has wrapped. -/
theorem Sound.words_eq (hcount : log.count < 2 ^ 64) : log.words = log := by
  have hcommitted := h.committed_le_min.trans (min_le_left _ _)
  rw [Log.words, Nat.mod_eq_of_lt hcount, Nat.mod_eq_of_lt (hcommitted.trans_lt hcount)]

omit h

theorem Log.step_count_le (log : Log ι β) (writer : ι) (action : Action) :
    (log.step capacity size content writer action).count ≤ log.count + 1 := by
  cases action with
  | next =>
    unfold Log.step Log.next
    -- only a writer that waits draws an index
    cases (log.writers writer).phase <;> dsimp only <;> (try split_ifs) <;>
      first | exact le_rfl | exact Nat.le_succ _
  | write part =>
    unfold Log.step
    dsimp only
    split
    · split_ifs <;> exact Nat.le_succ _
    · exact Nat.le_succ _
  | fail =>
    unfold Log.step
    dsimp only
    split <;> exact Nat.le_succ _

/-! ## What is never taken back -/

/-- A step commits more or the same, and leaves what is ready as it is. -/
theorem Sound.step_keeps (h : Sound capacity size content log) (writer : ι) (action : Action) :
    log.committed ≤ (log.step capacity size content writer action).committed ∧
      ∀ index, log.ready index = true →
        (log.step capacity size content writer action).ready index = true ∧
        (log.step capacity size content writer action).entries index = log.entries index := by
  cases action with
  | next =>
    unfold Log.step Log.next
    cases hphase : (log.writers writer).phase with
    | waiting =>
      dsimp only
      split_ifs <;> exact ⟨le_rfl, fun index hready => ⟨hready, rfl⟩⟩
    | refused => exact ⟨le_rfl, fun index hready => ⟨hready, rfl⟩⟩
    | writing pending =>
      dsimp only
      split_ifs
      · exact ⟨le_rfl, fun index hready => ⟨by simp [hready], rfl⟩⟩
      · exact ⟨le_rfl, fun index hready => ⟨hready, rfl⟩⟩
    | loading => exact ⟨le_rfl, fun index hready => ⟨hready, rfl⟩⟩
    | checking seen =>
      dsimp only
      split_ifs <;> exact ⟨le_rfl, fun index hready => ⟨hready, rfl⟩⟩
    | exchanging seen =>
      dsimp only
      split_ifs with hseen
      · exact ⟨hseen ▸ Nat.le_succ _, fun index hready => ⟨hready, rfl⟩⟩
      · exact ⟨le_rfl, fun index hready => ⟨hready, rfl⟩⟩
    | finished => exact ⟨le_rfl, fun index hready => ⟨hready, rfl⟩⟩
  | write part =>
    unfold Log.step
    dsimp only
    split
    · rename_i pending own hwriter
      split_ifs
      · refine ⟨le_rfl, fun index hready => ⟨hready, ?_⟩⟩
        -- the entry that is being written is not ready
        have hne : index ≠ own := by
          rintro rfl
          exact h.not_writing hready hwriter
        exact Function.update_of_ne hne ..
      · exact ⟨le_rfl, fun index hready => ⟨hready, rfl⟩⟩
    · exact ⟨le_rfl, fun index hready => ⟨hready, rfl⟩⟩
  | fail =>
    unfold Log.step
    dsimp only
    split <;> exact ⟨le_rfl, fun index hready => ⟨hready, rfl⟩⟩

end Invariant

end Xprobe.Foundation.CommitLog
