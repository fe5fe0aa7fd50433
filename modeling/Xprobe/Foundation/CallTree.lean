import Mathlib

/-!
# Nested calls and a stack

A thread that calls a function, which may call itself, enters and leaves in a nested way. `Calls` is
the tree of its calls, `Calls.trace` the sequence of its entries and returns. `scanCalls` walks such
a sequence with a stack and gives each return the entry on top.

If the sequence is cut off at some point, the scan has paired the calls that returned before the
cut, each with its own return, and has the calls that did not on its stack (`scanCalls_cut`).
-/

namespace Xprobe.Foundation

variable {α : Type*}

/-! ## Calls -/

inductive Calls (α : Type*)
  | done
  | call (entry exit : α) (inner next : Calls α)

namespace Calls

/-- The entries (`false`) and the returns (`true`), in the order in which they happen. -/
def trace : Calls α → List (Bool × α)
  | done => []
  | call entry exit inner next => (false, entry) :: (inner.trace ++ (true, exit) :: next.trace)

def returned (seen : α → Bool) : Calls α → List (α × α)
  | done => []
  | call entry exit inner next =>
    inner.returned seen ++ (if seen exit then [(entry, exit)] else []) ++ next.returned seen

/-- The entries of the calls that were open at the cut, innermost first. -/
def stillOpen (seen : α → Bool) : Calls α → List α
  | done => []
  | call entry exit inner next =>
    next.stillOpen seen ++
      (inner.stillOpen seen ++ (if seen entry && !seen exit then [entry] else []))

/-- What happened before the cut. -/
def cut (seen : α → Bool) (calls : Calls α) : List (Bool × α) :=
  calls.trace.filter (fun event => seen event.2)

/-- Nothing is seen after something that is not. -/
def CutOff (seen : α → Bool) (calls : Calls α) : Prop :=
  calls.trace.Pairwise (fun a b => seen b.2 = true → seen a.2 = true)

end Calls

/-! ## The scan -/

/-- The state of the scan: the open entries, innermost first, and the pairs. -/
structure CallScan (α : Type*) where
  stack : List α
  pairs : List (α × α)

/-- One event of the scan. A return that finds no entry is passed over. -/
def scanCall (st : CallScan α) : Bool × α → CallScan α
  | (false, entry) => { st with stack := entry :: st.stack }
  | (true, exit) =>
    match st.stack with
    | [] => st
    | entry :: rest => ⟨rest, st.pairs ++ [(entry, exit)]⟩

def scanCalls (st : CallScan α) (events : List (Bool × α)) : CallScan α :=
  events.foldl scanCall st

theorem scanCalls_append (st : CallScan α) (events events' : List (Bool × α)) :
    scanCalls st (events ++ events') = scanCalls (scanCalls st events) events' :=
  List.foldl_append

/-- The last entry that is open, below `depth` later ones. The events come last first, and a return
    closes the last open entry before it. -/
def lastOpen : List (Bool × α) → ℕ → Option α
  | [], _ => none
  | (true, _) :: before, depth => lastOpen before (depth + 1)
  | (false, entry) :: _, 0 => some entry
  | (false, _) :: before, depth + 1 => lastOpen before depth

variable {calls : Calls α}

namespace Calls

variable {seen : α → Bool} {entry exit : α} {inner next : Calls α}

variable (h : (call entry exit inner next).CutOff seen)

include h

theorem CutOff.ofInner : inner.CutOff seen :=
  (List.pairwise_append.mp (List.pairwise_cons.mp h).2).1

theorem CutOff.ofNext : next.CutOff seen :=
  (List.pairwise_cons.mp (List.pairwise_append.mp (List.pairwise_cons.mp h).2).2.1).2

variable {event : Bool × α}

theorem CutOff.seen_entry
    (hmem : event ∈ inner.trace ++ (true, exit) :: next.trace) (hseen : seen event.2 = true) :
    seen entry = true :=
  (List.pairwise_cons.mp h).1 event hmem hseen

theorem CutOff.seen_inner
    (hmem : event ∈ inner.trace) (hseen : seen exit = true) : seen event.2 = true :=
  (List.pairwise_append.mp (List.pairwise_cons.mp h).2).2.2 event hmem _ List.mem_cons_self hseen

theorem CutOff.seen_exit (hmem : event ∈ next.trace)
    (hseen : seen event.2 = true) : seen exit = true :=
  (List.pairwise_cons.mp (List.pairwise_append.mp (List.pairwise_cons.mp h).2).2.1).1 event hmem
    hseen

omit h

/-- A thread of which nothing is seen. -/
theorem unseen (h : ∀ event ∈ calls.trace, seen event.2 = false) :
    calls.cut seen = [] ∧ calls.returned seen = [] ∧ calls.stillOpen seen = [] := by
  refine ⟨?_, ?_⟩
  · rw [cut, List.filter_eq_nil_iff]
    intro event hevent
    rw [h event hevent]
    exact Bool.false_ne_true
  · induction calls with
    | done => exact ⟨rfl, rfl⟩
    | call entry exit inner next ihInner ihNext =>
      simp only [trace, List.forall_mem_cons, List.forall_mem_append] at h
      obtain ⟨hentry, hinner, hexit, hnext⟩ := h
      obtain ⟨hinnerReturned, hinnerOpen⟩ := ihInner hinner
      obtain ⟨hnextReturned, hnextOpen⟩ := ihNext hnext
      simp [returned, stillOpen, hentry, hexit, hinnerReturned, hinnerOpen, hnextReturned,
        hnextOpen]

/-- A thread that is seen to its end has no open calls. -/
theorem stillOpen_of_seen (h : ∀ event ∈ calls.trace, seen event.2 = true) :
    calls.stillOpen seen = [] := by
  induction calls with
  | done => rfl
  | call entry exit inner next ihInner ihNext =>
    simp only [trace, List.forall_mem_cons, List.forall_mem_append] at h
    obtain ⟨hentry, hinner, hexit, hnext⟩ := h
    simp [stillOpen, hexit, ihInner hinner, ihNext hnext]

/-- The entries before the cut. -/
def entries (seen : α → Bool) (calls : Calls α) : List α :=
  ((calls.cut seen).filter (fun event => !event.1)).map Prod.snd

/-- The returns before the cut. -/
def exits (seen : α → Bool) (calls : Calls α) : List α :=
  ((calls.cut seen).filter (fun event => event.1)).map Prod.snd

theorem entries_call : (call entry exit inner next).entries seen =
    (if seen entry then [entry] else []) ++ (inner.entries seen ++ next.entries seen) := by
  simp only [entries, cut, List.filter_filter]
  cases hentry : seen entry with
  | false => simp [trace, hentry]
  | true => simp [trace, hentry]

theorem exits_call : (call entry exit inner next).exits seen =
    inner.exits seen ++ ((if seen exit then [exit] else []) ++ next.exits seen) := by
  simp only [exits, cut, List.filter_filter]
  cases hexit : seen exit with
  | false => simp [trace, hexit]
  | true => simp [trace, hexit]

theorem length_exits (seen : α → Bool) (calls : Calls α) :
    (calls.exits seen).length = (calls.returned seen).length := by
  induction calls with
  | done => rfl
  | call entry exit inner next ihInner ihNext =>
    rw [exits_call, returned, List.length_append, List.length_append, List.length_append,
      List.length_append, ihInner, ihNext]
    split_ifs
    · exact (Nat.add_assoc _ _ _).symm
    · exact (Nat.add_assoc _ _ _).symm

/-- Every call that was entered before the cut has returned or is still open. -/
theorem length_entries (h : calls.CutOff seen) : (calls.entries seen).length =
      (calls.returned seen).length + (calls.stillOpen seen).length := by
  induction calls with
  | done => rfl
  | call entry exit inner next ihInner ihNext =>
    have hentered : seen exit = true → seen entry = true :=
      h.seen_entry (List.mem_append_right _ List.mem_cons_self)
    have hone : (if seen entry then [entry] else []).length =
        (if seen exit then [(entry, exit)] else []).length +
          (if seen entry && !seen exit then [entry] else []).length := by
      cases hexit : seen exit with
      | false => simp
      | true => simp [hentered hexit]
    rw [entries_call, returned, stillOpen]
    simp only [List.length_append, ihInner h.ofInner, ihNext h.ofNext, hone]
    omega

end Calls

open Calls in
/-- The scan over what is seen of a thread pairs the calls that returned and keeps those that are
    still open on its stack. -/
theorem scanCalls_cut {seen : α → Bool} (h : calls.CutOff seen) (st : CallScan α) :
    scanCalls st (calls.cut seen) =
      ⟨calls.stillOpen seen ++ st.stack, st.pairs ++ calls.returned seen⟩ := by
  induction calls generalizing st with
  | done => simp [cut, trace, scanCalls, stillOpen, returned]
  | call entry exit inner next ihInner ihNext =>
    cases hentry : seen entry with
    | false =>
      -- nothing was seen of this call, nor of anything after its entry
      have hnone : ∀ event ∈ (call entry exit inner next).trace, seen event.2 = false := by
        intro event hevent
        rcases List.mem_cons.mp hevent with rfl | hlater
        · exact hentry
        · rw [← Bool.not_eq_true]
          intro hseen
          rw [h.seen_entry hlater hseen] at hentry
          cases hentry
      obtain ⟨hcut, hreturned, hopen⟩ := unseen hnone
      rw [hcut, hreturned, hopen, List.append_nil, List.nil_append]
      rfl
    | true =>
      have hcut : (call entry exit inner next).cut seen =
          (false, entry) :: (inner.cut seen ++
            ((if seen exit then [(true, exit)] else []) ++ next.cut seen)) := by
        cases hexit : seen exit with
        | false => simp [cut, trace, hentry, hexit]
        | true => simp [cut, trace, hentry, hexit]
      rw [hcut]
      change scanCalls { st with stack := entry :: st.stack } _ = _
      rw [scanCalls_append, ihInner h.ofInner, scanCalls_append]
      cases hexit : seen exit with
      | false =>
        -- the call is open, so nothing after it was seen
        obtain ⟨hnextCut, hnextReturned, hnextOpen⟩ := @unseen α next seen (by
          intro event hevent
          rw [← Bool.not_eq_true]
          intro hseen
          rw [h.seen_exit hevent hseen] at hexit
          cases hexit)
        simp [scanCalls, stillOpen, returned, hnextCut, hnextReturned, hnextOpen, hentry, hexit]
      | true =>
        -- the call has returned, so the calls inside it have, and the entry is on top again
        have hinnerOpen : inner.stillOpen seen = [] :=
          stillOpen_of_seen (fun event hevent => h.seen_inner hevent hexit)
        rw [if_pos rfl, hinnerOpen]
        change scanCalls ⟨st.stack, st.pairs ++ inner.returned seen ++ [(entry, exit)]⟩ _ = _
        rw [ihNext h.ofNext]
        simp [stillOpen, returned, hinnerOpen, hexit]

end Xprobe.Foundation
