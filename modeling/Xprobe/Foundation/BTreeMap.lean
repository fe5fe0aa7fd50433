import Xprobe.Foundation.Ledger

/-!
# Ordered maps

`BTreeMap κ ν` is a finite map whose iteration order is the order of its keys. The representation
is the sorted list of its entries; strict sortedness is a field, so a map with a repeated or
misplaced key cannot be built.

The lookup laws (`get?_insert`, `get?_erase`) describe a map as a function, the permutation laws
(`entries_insert_perm`, `entries_perm_of_get?`) as a multiset of entries, for counting arguments.
-/

namespace Xprobe.Foundation

structure BTreeMap (κ ν : Type*) [LinearOrder κ] where
  entries : List (κ × ν)
  sorted : entries.Pairwise (fun a b => a.1 < b.1)

namespace BTreeMap

variable {κ ν : Type*} [LinearOrder κ]

/-! ## Operations -/

/-- The map without entries. -/
def empty : BTreeMap κ ν := ⟨[], List.Pairwise.nil⟩

/-- `BTreeMap::get`. -/
def get? (m : BTreeMap κ ν) (k : κ) : Option ν :=
  (m.entries.find? (fun e => decide (e.1 = k))).map Prod.snd

def insertEntry (k : κ) (v : ν) : List (κ × ν) → List (κ × ν)
  | [] => [(k, v)]
  | e :: rest =>
    if k < e.1 then (k, v) :: e :: rest
    else if k = e.1 then (k, v) :: rest
    else e :: insertEntry k v rest

variable {k : κ} {v : ν}

theorem mem_insertEntry {e : κ × ν} {l : List (κ × ν)} (h : e ∈ insertEntry k v l) :
    e = (k, v) ∨ e ∈ l := by
  induction l with
  | nil => exact Or.inl (List.mem_singleton.mp h)
  | cons e' rest ih =>
    rw [insertEntry] at h
    split_ifs at h with hlt heq
    · exact List.mem_cons.mp h
    · rcases List.mem_cons.mp h with h | h
      · exact Or.inl h
      · exact Or.inr (List.mem_cons_of_mem _ h)
    · rcases List.mem_cons.mp h with h | h
      · exact Or.inr (List.mem_cons.mpr (Or.inl h))
      · rcases ih h with h | h
        · exact Or.inl h
        · exact Or.inr (List.mem_cons_of_mem _ h)

theorem insertEntry_sorted (k : κ) (v : ν) {l : List (κ × ν)}
    (hl : l.Pairwise (fun a b => a.1 < b.1)) :
    (insertEntry k v l).Pairwise (fun a b => a.1 < b.1) := by
  induction l with
  | nil => exact List.pairwise_singleton _ _
  | cons e rest ih =>
    obtain ⟨he, hrest⟩ := List.pairwise_cons.mp hl
    rw [insertEntry]
    split_ifs with hlt heq
    · refine List.pairwise_cons.mpr ⟨?_, hl⟩
      intro e' he'
      rcases List.mem_cons.mp he' with rfl | hmem
      · exact hlt
      · exact lt_trans hlt (he e' hmem)
    · refine List.pairwise_cons.mpr ⟨?_, hrest⟩
      intro e' he'
      exact heq ▸ he e' he'
    · refine List.pairwise_cons.mpr ⟨?_, ih hrest⟩
      intro e' he'
      rcases mem_insertEntry he' with rfl | hmem
      · exact lt_of_le_of_ne (not_lt.mp hlt) (Ne.symm heq)
      · exact he e' hmem

/-- `BTreeMap::insert`; the previous value is `get?` before the call. -/
def insert (m : BTreeMap κ ν) (k : κ) (v : ν) : BTreeMap κ ν :=
  ⟨insertEntry k v m.entries, insertEntry_sorted k v m.sorted⟩

/-- `BTreeMap::remove`; the removed value is `get?` before the call. -/
def erase (m : BTreeMap κ ν) (k : κ) : BTreeMap κ ν :=
  ⟨m.entries.filter (fun e => decide (e.1 ≠ k)), m.sorted.sublist List.filter_sublist⟩

/-- `BTreeMap::values`. -/
def values (m : BTreeMap κ ν) : List ν := m.entries.map Prod.snd

/-- `BTreeMap::len`. -/
def len (m : BTreeMap κ ν) : Nat := m.entries.length

/-- The greatest key at or below a bound: `range(..=bound).next_back()`. -/
def lastLE (m : BTreeMap κ ν) (bound : κ) : Option κ :=
  ((m.entries.filter (fun e => decide (e.1 ≤ bound))).getLast?).map Prod.fst

/-- The least key at or above a bound: `range(bound..).next()`. -/
def firstGE (m : BTreeMap κ ν) (bound : κ) : Option κ :=
  ((m.entries.filter (fun e => decide (bound ≤ e.1))).head?).map Prod.fst

/-! ## Lookup laws -/

@[simp] theorem get?_empty (k : κ) : (empty : BTreeMap κ ν).get? k = none := rfl

private theorem find?_insertEntry (k k' : κ) (v : ν) (l : List (κ × ν)) :
    ((insertEntry k v l).find? (fun e => decide (e.1 = k'))).map Prod.snd =
      if k' = k then some v else (l.find? (fun e => decide (e.1 = k'))).map Prod.snd := by
  induction l with
  | nil =>
    by_cases h : k' = k
    · simp [insertEntry, h]
    · simp [insertEntry, h, Ne.symm h]
  | cons e rest ih =>
    rw [insertEntry]
    by_cases hk : k' = k
    · subst hk
      rw [if_pos rfl] at ih ⊢
      split_ifs with hlt heq
      · simp
      · simp
      · rw [List.find?_cons_of_neg (by simpa using Ne.symm heq), ih]
    · rw [if_neg hk] at ih ⊢
      split_ifs with hlt heq
      · rw [List.find?_cons_of_neg (by simpa using Ne.symm hk)]
      · rw [List.find?_cons_of_neg (by simpa using Ne.symm hk),
          List.find?_cons_of_neg (by simpa [← heq] using Ne.symm hk)]
      · by_cases hek : e.1 = k'
        · rw [List.find?_cons_of_pos (by simpa using hek),
            List.find?_cons_of_pos (by simpa using hek)]
        · rw [List.find?_cons_of_neg (by simpa using hek),
            List.find?_cons_of_neg (by simpa using hek), ih]

theorem get?_insert (m : BTreeMap κ ν) (k k' : κ) (v : ν) :
    (m.insert k v).get? k' = if k' = k then some v else m.get? k' :=
  find?_insertEntry k k' v m.entries

private theorem find?_filter_ne (k k' : κ) (l : List (κ × ν)) :
    (l.filter (fun e => decide (e.1 ≠ k))).find? (fun e => decide (e.1 = k')) =
      if k' = k then none else l.find? (fun e => decide (e.1 = k')) := by
  rw [List.find?_filter]
  split_ifs with h
  · subst h
    refine List.find?_eq_none.mpr ?_
    intro e _
    simp
  · congr 1
    funext e
    by_cases he : e.1 = k'
    · simp [he, h]
    · simp [he]

theorem get?_erase (m : BTreeMap κ ν) (k k' : κ) :
    (m.erase k).get? k' = if k' = k then none else m.get? k' := by
  unfold get? erase
  rw [find?_filter_ne]
  split_ifs <;> rfl

theorem keys_nodup (m : BTreeMap κ ν) : (m.entries.map Prod.fst).Nodup := by
  refine List.Pairwise.imp ?_ (List.pairwise_map.mpr m.sorted)
  intro a b hab
  exact ne_of_lt hab

variable {m : BTreeMap κ ν}

theorem get?_eq_some_iff : m.get? k = some v ↔ (k, v) ∈ m.entries := by
  unfold get?
  constructor
  · intro h
    obtain ⟨e, he, rfl⟩ := Option.map_eq_some_iff.mp h
    have hk : e.1 = k := by simpa using List.find?_some he
    rw [← hk]
    exact List.mem_of_find?_eq_some he
  · intro h
    cases hf : m.entries.find? (fun e => decide (e.1 = k)) with
    | none =>
      have := List.find?_eq_none.mp hf _ h
      simp at this
    | some e =>
      have hk : e.1 = k := by simpa using List.find?_some hf
      -- the keys are distinct, so the entry found is the one given
      have heq : e = (k, v) :=
        List.inj_on_of_nodup_map m.keys_nodup (List.mem_of_find?_eq_some hf) h hk
      simp [heq]

theorem get?_eq_none_iff : m.get? k = none ↔ ∀ e ∈ m.entries, e.1 ≠ k := by
  simp [get?, List.find?_eq_none]

/-! ## Permutation laws -/

theorem erase_of_get?_eq_none (h : m.get? k = none) : (m.erase k).entries = m.entries := by
  refine List.filter_eq_self.mpr ?_
  intro e he
  simpa using get?_eq_none_iff.mp h e he

theorem nodup_entries (m : BTreeMap κ ν) : m.entries.Nodup := m.keys_nodup.of_map _

private theorem nodup_cons_erase (m : BTreeMap κ ν) (k : κ) (v : ν) :
    ((k, v) :: (m.erase k).entries).Nodup :=
  List.nodup_cons.mpr ⟨by simp [erase], (m.erase k).nodup_entries⟩

theorem entries_insert_perm (m : BTreeMap κ ν) (k : κ) (v : ν) :
    (m.insert k v).entries.Perm ((k, v) :: (m.erase k).entries) := by
  refine (List.perm_ext_iff_of_nodup (m.insert k v).nodup_entries (m.nodup_cons_erase k v)).mpr ?_
  rintro ⟨k', v'⟩
  rw [List.mem_cons, ← get?_eq_some_iff, get?_insert, ← get?_eq_some_iff, get?_erase]
  by_cases hk : k' = k
  · simp [hk, eq_comm]
  · simp [hk]

theorem entries_perm_of_get? (h : m.get? k = some v) :
    m.entries.Perm ((k, v) :: (m.erase k).entries) := by
  refine (List.perm_ext_iff_of_nodup m.nodup_entries (m.nodup_cons_erase k v)).mpr ?_
  rintro ⟨k', v'⟩
  rw [List.mem_cons, ← get?_eq_some_iff, ← get?_eq_some_iff, get?_erase]
  by_cases hk : k' = k
  · simp [hk, h, eq_comm]
  · simp [hk]

theorem values_insert_perm (m : BTreeMap κ ν) (k : κ) (v : ν) :
    (m.insert k v).values.Perm (v :: (m.erase k).values) :=
  (m.entries_insert_perm k v).map Prod.snd

theorem values_perm_of_get? (h : m.get? k = some v) : m.values.Perm (v :: (m.erase k).values) :=
  (entries_perm_of_get? h).map Prod.snd

theorem values_erase_of_get?_eq_none (h : m.get? k = none) : (m.erase k).values = m.values := by
  rw [values, values, erase_of_get?_eq_none h]

theorem len_eq_length_values (m : BTreeMap κ ν) : m.len = m.values.length := by
  rw [len, values, List.length_map]

theorem len_insert (m : BTreeMap κ ν) (k : κ) (v : ν) : (m.insert k v).len = (m.erase k).len + 1 :=
  (m.entries_insert_perm k v).length_eq

theorem len_of_get? (h : m.get? k = some v) : m.len = (m.erase k).len + 1 :=
  (entries_perm_of_get? h).length_eq

theorem len_erase_of_get?_eq_none (h : m.get? k = none) : (m.erase k).len = m.len := by
  rw [len, len, erase_of_get?_eq_none h]

/-! ## Maps in a ledger

A loop that keeps elements in a map while it builds a list `placed`. -/

section Ledgers

variable {placed total : List ν} {lost : Nat}

variable (h : Ledger (placed ++ m.values) lost total)

include h

/-- A new element goes under a free key. -/
theorem ledger_insert_fresh (hget : m.get? k = none)
    (v : ν) : Ledger (placed ++ (m.insert k v).values) lost (v :: total) := by
  have hvalues := m.values_insert_perm k v
  rw [values_erase_of_get?_eq_none hget] at hvalues
  exact (h.place v).perm
    (List.perm_middle.symm.trans (hvalues.symm.append_left placed)) (List.Perm.refl _)

/-- The element under a key is given to `placed`. -/
theorem ledger_take (hget : m.get? k = some v) :
    Ledger ((placed ++ [v]) ++ (m.erase k).values) lost total := by
  rw [List.append_assoc]
  exact h.perm ((values_perm_of_get? hget).append_left placed) (List.Perm.refl _)

/-- The element under a key is given up. -/
theorem ledger_erase (hget : m.get? k = some v) :
    Ledger (placed ++ (m.erase k).values) (lost + 1) total := by
  have hvalues := (values_perm_of_get? hget).append_left placed
  have hfirst : Ledger (placed ++ ([v] ++ (m.erase k).values)) lost total :=
    h.perm hvalues (List.Perm.refl _)
  exact hfirst.drop [v]

/-- A new element replaces the one under its key, which is given up. -/
theorem ledger_overwrite {old : ν} (hget : m.get? k = some old) (v : ν) :
    Ledger (placed ++ (m.insert k v).values) (lost + 1) (v :: total) := by
  have hvalues := (m.values_insert_perm k v).symm.append_left placed
  exact ((ledger_erase h hget).place v).perm (List.perm_middle.symm.trans hvalues)
    (List.Perm.refl _)

end Ledgers

/-! ## Range queries -/

variable {bound : κ}

theorem lastLE_eq_some (h : m.lastLE bound = some k) : k ≤ bound ∧ ∃ v, m.get? k = some v := by
  obtain ⟨e, he, rfl⟩ := Option.map_eq_some_iff.mp h
  obtain ⟨hmem, hle⟩ := List.mem_filter.mp (List.mem_of_getLast? he)
  exact ⟨of_decide_eq_true hle, e.2, get?_eq_some_iff.mpr hmem⟩

theorem firstGE_eq_some (h : m.firstGE bound = some k) : bound ≤ k ∧ ∃ v, m.get? k = some v := by
  obtain ⟨e, he, rfl⟩ := Option.map_eq_some_iff.mp h
  obtain ⟨hmem, hle⟩ := List.mem_filter.mp (List.mem_of_head? he)
  exact ⟨of_decide_eq_true hle, e.2, get?_eq_some_iff.mpr hmem⟩

/-- No key at or below the bound is greater than the one found. -/
theorem exists_lastLE_ge (h : m.get? k = some v) (hle : k ≤ bound) :
    ∃ last, m.lastLE bound = some last ∧ k ≤ last := by
  have hmem : (k, v) ∈ m.entries.filter (fun e => decide (e.1 ≤ bound)) :=
    List.mem_filter.mpr ⟨get?_eq_some_iff.mp h, decide_eq_true hle⟩
  cases hlast : (m.entries.filter (fun e => decide (e.1 ≤ bound))).getLast? with
  | none =>
    rw [List.getLast?_eq_none_iff.mp hlast] at hmem
    cases hmem
  | some last =>
    refine ⟨last.1, by rw [lastLE, hlast, Option.map_some], ?_⟩
    have hsorted := m.sorted.filter (fun e => decide (e.1 ≤ bound))
    rw [← List.dropLast_append_getLast? last hlast] at hmem hsorted
    rcases List.mem_append.mp hmem with hfront | hend
    · exact ((List.pairwise_append.mp hsorted).2.2 _ hfront last (List.mem_singleton.mpr rfl)).le
    · rw [← List.mem_singleton.mp hend]

/-- No key at or above the bound is less than the one found. -/
theorem exists_firstGE_le (h : m.get? k = some v) (hle : bound ≤ k) :
    ∃ first, m.firstGE bound = some first ∧ first ≤ k := by
  have hmem : (k, v) ∈ m.entries.filter (fun e => decide (bound ≤ e.1)) :=
    List.mem_filter.mpr ⟨get?_eq_some_iff.mp h, decide_eq_true hle⟩
  have hsorted := m.sorted.filter (fun e => decide (bound ≤ e.1))
  rw [firstGE]
  cases hfilter : m.entries.filter (fun e => decide (bound ≤ e.1)) with
  | nil =>
    rw [hfilter] at hmem
    cases hmem
  | cons first rest =>
    rw [hfilter] at hmem hsorted
    refine ⟨first.1, rfl, ?_⟩
    rcases List.mem_cons.mp hmem with hfirst | hrest
    · rw [← hfirst]
    · exact (List.rel_of_pairwise_cons hsorted hrest).le

/-- Every key is at or below a bound or at or above it, so both queries miss only in the empty
    map. -/
theorem entries_eq_nil_of_range_none (hbefore : m.lastLE bound = none)
    (hafter : m.firstGE bound = none) : m.entries = [] := by
  rw [lastLE, Option.map_eq_none_iff, List.getLast?_eq_none_iff] at hbefore
  rw [firstGE, Option.map_eq_none_iff, List.head?_eq_none_iff] at hafter
  refine List.eq_nil_iff_forall_not_mem.mpr ?_
  intro e he
  rcases le_total e.1 bound with hle | hle
  · simpa [hle] using List.filter_eq_nil_iff.mp hbefore e he
  · simpa [hle] using List.filter_eq_nil_iff.mp hafter e he

/-! ## Maps of groups -/

section Groups

variable {α β : Type*}

/-- `entry(k).or_default().push(a)`. -/
def push (m : BTreeMap κ (List β)) (k : κ) (b : β) : BTreeMap κ (List β) :=
  m.insert k ((m.get? k).getD [] ++ [b])

theorem get?_push (m : BTreeMap κ (List β)) (k k' : κ) (b : β) : (m.push k b).get? k' =
      if k' = k then some ((m.get? k).getD [] ++ [b]) else m.get? k' :=
  get?_insert m k k' _

/-- The list of a key, which is empty for a key without an entry. -/
def bucket (m : BTreeMap κ (List β)) (k : κ) : List β := (m.get? k).getD []

theorem bucket_of_get? {m : BTreeMap κ (List β)} {l : List β} (h : m.get? k = some l) :
    m.bucket k = l := by
  rw [bucket, h, Option.getD_some]

theorem bucket_push (m : BTreeMap κ (List β)) (k k' : κ) (b : β) :
    (m.push k b).bucket k' = if k' = k then m.bucket k' ++ [b] else m.bucket k' := by
  rw [bucket, get?_push]
  split_ifs with h
  · rw [h]
    rfl
  · rfl

theorem bucket_insert (m : BTreeMap κ (List β)) (k k' : κ) (l : List β) :
    (m.insert k l).bucket k' = if k' = k then l else m.bucket k' := by
  rw [bucket, get?_insert]
  split_ifs <;> rfl

theorem mem_values_of_mem_bucket {m : BTreeMap κ (List β)} {b : β} (h : b ∈ m.bucket k) :
    b ∈ m.values.flatten := by
  cases hget : m.get? k with
  | none =>
    rw [bucket, hget] at h
    cases h
  | some l =>
    rw [bucket_of_get? hget] at h
    exact List.mem_flatten.mpr
      ⟨l, List.mem_map.mpr ⟨(k, l), get?_eq_some_iff.mp hget, rfl⟩, h⟩

theorem flatten_values_push_perm (m : BTreeMap κ (List β)) (k : κ) (b : β) :
    (m.push k b).values.flatten.Perm (b :: m.values.flatten) := by
  refine ((m.values_insert_perm k _).flatten).trans ?_
  cases hget : m.get? k with
  | none =>
    rw [values_erase_of_get?_eq_none hget]
    simp
  | some group =>
    have hvalues := (values_perm_of_get? hget).flatten
    simp only [Option.getD_some, List.flatten_cons] at hvalues ⊢
    refine ((List.perm_append_comm).append_right _).trans ?_
    exact (hvalues.symm.cons b)

def groupBy (key : α → Option κ) (l : List α) : BTreeMap κ (List α) × Nat :=
  l.foldl (fun (groups, missing) a =>
    match key a with
    | some k => (groups.push k a, missing)
    | none => (groups, missing + 1)) (empty, 0)

def group (key : α → Option κ) (l : List α) (k : κ) : List α :=
  l.filter (fun a => decide (key a = some k))

variable {key : α → Option κ}

theorem mem_group {l : List α} {a : α} : a ∈ group key l k ↔ a ∈ l ∧ key a = some k := by
  simp [group]

private theorem groupBy_concat (key : α → Option κ) (l : List α) (a : α) : groupBy key (l ++ [a]) =
      match key a with
      | some k => ((groupBy key l).1.push k a, (groupBy key l).2)
      | none => ((groupBy key l).1, (groupBy key l).2 + 1) := by
  rw [groupBy, List.foldl_append]
  rfl

theorem get?_groupBy (key : α → Option κ) (l : List α) (k : κ) :
    (groupBy key l).1.get? k = if group key l k = [] then none else some (group key l k) := by
  -- the loop appends, so the induction takes the last element off
  induction l using List.reverseRecOn with
  | nil => rfl
  | append_singleton l a ih =>
    have hgroup : group key (l ++ [a]) k = group key l k ++ if key a = some k then [a] else [] := by
      rw [group, List.filter_append, group]
      split_ifs with h <;> simp [h]
    have hgetD : ((groupBy key l).1.get? k).getD [] = group key l k := by
      rw [ih]
      split_ifs with h
      · exact h.symm
      · rfl
    rw [groupBy_concat, hgroup]
    cases hk : key a with
    | none => simp [ih]
    | some k' =>
      rw [get?_push]
      by_cases heq : k = k'
      · subst heq
        simp [hgetD]
      · simp [heq, Ne.symm heq, ih]

theorem mem_groupBy_entries {l : List α} {g : List α} :
    (k, g) ∈ (groupBy key l).1.entries ↔ g = group key l k ∧ g ≠ [] := by
  rw [← get?_eq_some_iff, get?_groupBy]
  split_ifs with h
  · constructor
    · intro hnone
      cases hnone
    · rintro ⟨rfl, hne⟩
      exact absurd h hne
  · constructor
    · intro hsome
      cases hsome
      exact ⟨rfl, h⟩
    · rintro ⟨rfl, _⟩
      rfl

/-- Grouping puts every element into one group or counts it as missing a key. -/
theorem ledger_groupBy (key : α → Option κ) (l : List α) :
    Ledger (groupBy key l).1.values.flatten (groupBy key l).2 l := by
  induction l using List.reverseRecOn with
  | nil => exact Ledger.nil
  | append_singleton l a ih =>
    have hlast := (List.perm_append_singleton a l).symm
    rw [groupBy_concat]
    cases hk : key a with
    | none => exact (ih.lose a).perm (List.Perm.refl _) hlast
    | some k =>
      exact (ih.place a).perm ((groupBy key l).1.flatten_values_push_perm k a).symm hlast

/-! ### Counting by key -/

theorem mem_keys_groupBy {l : List α} :
    k ∈ (groupBy key l).1.entries.map Prod.fst ↔ k ∈ l.filterMap key := by
  rw [List.mem_map, List.mem_filterMap]
  constructor
  · rintro ⟨⟨k', g⟩, hmem, rfl⟩
    obtain ⟨rfl, hne⟩ := mem_groupBy_entries.mp hmem
    obtain ⟨a, ha⟩ := List.exists_mem_of_ne_nil _ hne
    exact ⟨a, mem_group.mp ha⟩
  · rintro ⟨a, ha, hk⟩
    have hne : group key l k ≠ [] := List.ne_nil_of_mem (mem_group.mpr ⟨ha, hk⟩)
    exact ⟨(k, group key l k), mem_groupBy_entries.mpr ⟨rfl, hne⟩, rfl⟩

/-- A sum over the groups of a list is a sum over its keys. -/
theorem sum_entries_groupBy (key : α → Option κ) (l : List α) (f : κ → Nat) :
    ((groupBy key l).1.entries.map (fun e => f e.1)).sum = ∑ k ∈ (l.filterMap key).toFinset, f k := by
  have hkeys : ((groupBy key l).1.entries.map Prod.fst).toFinset = (l.filterMap key).toFinset := by
    ext k
    rw [List.mem_toFinset, List.mem_toFinset, mem_keys_groupBy]
  rw [← hkeys, List.sum_toFinset f (groupBy key l).1.keys_nodup, List.map_map]
  rfl

/-- The elements with a key in a finite set, counted key by key. -/
theorem length_filter_key_mem (key : α → Option κ) (l : List α) (ks : Finset κ) :
    (l.filter (fun a => decide (∃ k ∈ ks, key a = some k))).length =
      ∑ k ∈ ks, (group key l k).length := by
  induction l with
  | nil => simp [group]
  | cons a rest ih =>
    have hgroup : ∀ k, (group key (a :: rest) k).length =
        (if key a = some k then 1 else 0) + (group key rest k).length := by
      intro k
      by_cases h : key a = some k
      · simp [group, h, Nat.add_comm]
      · simp [group, h]
    -- the head contributes to the group of its own key only
    have hhead : ∑ k ∈ ks, (if key a = some k then 1 else 0) =
        if ∃ k ∈ ks, key a = some k then 1 else 0 := by
      cases hk : key a with
      | none => simp
      | some k₀ => simp
    simp only [hgroup, Finset.sum_add_distrib, hhead, ← ih]
    by_cases h : ∃ k ∈ ks, key a = some k
    · rw [List.filter_cons_of_pos (by simpa using h), if_pos h, List.length_cons, Nat.add_comm]
    · rw [List.filter_cons_of_neg (by simpa using h), if_neg h, Nat.zero_add]

end Groups

/-! ## Mapping the values -/

def mapValues {ν' : Type*} (f : ν → ν') (m : BTreeMap κ ν) : BTreeMap κ ν' :=
  ⟨m.entries.map (fun e => (e.1, f e.2)), List.pairwise_map.mpr m.sorted⟩

section

variable {ν' : Type*} (f : ν → ν') (m : BTreeMap κ ν)

@[simp] theorem values_mapValues : (m.mapValues f).values = m.values.map f := by
  simp [values, mapValues]

@[simp] theorem len_mapValues : (m.mapValues f).len = m.len := by
  simp [len, mapValues]

@[simp] theorem get?_mapValues (k : κ) : (m.mapValues f).get? k = (m.get? k).map f := by
  simp only [get?, mapValues, List.find?_map, Option.map_map]
  rfl

theorem insertEntry_map (k : κ) (v : ν) (l : List (κ × ν)) :
    (insertEntry k v l).map (fun e => (e.1, f e.2)) =
      insertEntry k (f v) (l.map (fun e => (e.1, f e.2))) := by
  induction l with
  | nil => rfl
  | cons e rest ih =>
    rw [insertEntry, List.map_cons, insertEntry]
    split_ifs
    · rfl
    · rfl
    · rw [List.map_cons, ih]

theorem mapValues_insert (k : κ) (v : ν) :
    (m.insert k v).mapValues f = (m.mapValues f).insert k (f v) := by
  simp only [mapValues, insert, insertEntry_map]

theorem mapValues_erase (k : κ) : (m.erase k).mapValues f = (m.mapValues f).erase k := by
  simp only [mapValues, erase, List.filter_map]
  rfl

@[simp] theorem lastLE_mapValues (bound : κ) : (m.mapValues f).lastLE bound = m.lastLE bound := by
  simp only [lastLE, mapValues, List.filter_map, List.getLast?_map, Option.map_map]
  rfl

@[simp] theorem firstGE_mapValues (bound : κ) :
    (m.mapValues f).firstGE bound = m.firstGE bound := by
  simp only [firstGE, mapValues, List.filter_map, List.head?_map, Option.map_map]
  rfl

end

theorem mapValues_push {β γ : Type*} (f : β → γ) (m : BTreeMap κ (List β)) (k : κ) (b : β) :
    (m.push k b).mapValues (List.map f) = (m.mapValues (List.map f)).push k (f b) := by
  rw [push, push, mapValues_insert, get?_mapValues]
  cases m.get? k with
  | none => rfl
  | some group => simp

/-- Grouping mapped elements maps the groups, when the map keeps the keys. -/
theorem groupBy_map {α β : Type*} {key : α → Option κ} {key' : β → Option κ} {f : α → β}
    (hkey : ∀ a, key' (f a) = key a) (l : List α) :
    groupBy key' (l.map f) =
      ((groupBy key l).1.mapValues (List.map f), (groupBy key l).2) := by
  induction l using List.reverseRecOn with
  | nil => rfl
  | append_singleton l a ih =>
    rw [List.map_append, List.map_singleton]
    simp only [groupBy, List.foldl_append, List.foldl_cons, List.foldl_nil] at ih ⊢
    rw [ih, hkey]
    cases key a with
    | none => rfl
    | some k => simp only [mapValues_push]

end BTreeMap

end Xprobe.Foundation
