import Mathlib

/-!
# Open addressing

A hash table with open addressing: a key is stored in the first free slot on the path that starts at
its home slot and visits every slot once. A removed key leaves a tombstone, so that the paths that
run through its slot stay unbroken.

The table is a function from indices to slots, of which the first `capacity` count. `Holds` says
that it stores a finite map; it is kept by storing a key where `locate` found it absent, by replacing
a value in place, and by removing a key.
-/

namespace Xprobe.Foundation.OpenAddressing

/-! ## Slots and paths -/

inductive Slot (K V : Type*) where
  | empty
  | tombstone
  | live (key : K) (value : V)

def Slot.key? {K V : Type*} : Slot K V → Option K
  | .live key _ => some key
  | _ => none

theorem Slot.key?_eq_some {K V : Type*} {slot : Slot K V} {key : K} (h : slot.key? = some key) :
    ∃ value, slot = .live key value := by
  cases slot with
  | empty => cases h
  | tombstone => cases h
  | live stored value =>
    cases h
    exact ⟨value, rfl⟩

/-- The indices that are visited from a first one, around the end of the table. -/
def probes (capacity first : ℕ) : List ℕ :=
  (List.range capacity).map (fun probe => (first + probe) % capacity)

variable {index : ℕ}

theorem lt_of_mem_probes {capacity first : ℕ} (h : index ∈ probes capacity first) :
    index < capacity := by
  obtain ⟨probe, hprobe, rfl⟩ := List.mem_map.mp h
  exact Nat.mod_lt _ (Nat.zero_lt_of_lt (List.mem_range.mp hprobe))

theorem nodup_probes (capacity first : ℕ) : (probes capacity first).Nodup := by
  apply List.Nodup.map_on _ List.nodup_range
  intro i hi j hj heq
  -- two offsets below the capacity that agree modulo the capacity are equal
  have hmod : i % capacity = j % capacity := Nat.ModEq.add_left_cancel' first heq
  rwa [Nat.mod_eq_of_lt (List.mem_range.mp hi), Nat.mod_eq_of_lt (List.mem_range.mp hj)] at hmod

theorem mem_probes_iff {capacity first : ℕ} : index ∈ probes capacity first ↔ index < capacity := by
  refine ⟨lt_of_mem_probes, fun h => ?_⟩
  -- a list of `capacity` different indices below the capacity contains all of them
  have hsubset : (probes capacity first).toFinset ⊆ Finset.range capacity := by
    intro i hi
    exact Finset.mem_range.mpr (lt_of_mem_probes (List.mem_toFinset.mp hi))
  have hcard : (Finset.range capacity).card ≤ (probes capacity first).toFinset.card := by
    rw [List.toFinset_card_of_nodup (nodup_probes capacity first)]
    simp [probes]
  have heq := Finset.eq_of_subset_of_card_le hsubset hcard
  rw [← List.mem_toFinset, heq]
  exact Finset.mem_range.mpr h

/-- A list without duplicates is split at an element in one way only. -/
theorem split_unique {α : Type*} {l before after before' after' : List α} {a : α} (h : l.Nodup)
    (heq : l = before ++ a :: after) (heq' : l = before' ++ a :: after') : before = before' := by
  induction before generalizing l before' with
  | nil =>
    cases before' with
    | nil => rfl
    | cons b before' =>
      rw [heq, List.nil_append, List.cons_append, List.cons.injEq] at heq'
      rw [heq, List.nil_append, List.nodup_cons] at h
      exact absurd (heq'.2 ▸ List.mem_append_right _ List.mem_cons_self) h.1
  | cons b before ih =>
    rw [heq, List.cons_append] at h heq'
    have htail := (List.nodup_cons.mp h).2
    cases before' with
    | nil =>
      rw [List.nil_append, List.cons.injEq] at heq'
      exact absurd (heq'.1 ▸ List.mem_append_right _ List.mem_cons_self) (List.nodup_cons.mp h).1
    | cons b' before' =>
      rw [List.cons_append, List.cons.injEq] at heq'
      rw [heq'.1, ih htail rfl heq'.2]

section Search

variable {K V : Type*} [DecidableEq K]

/-! ## Searching -/

/-- Where the search for a key ends: at the slot of the key, or without it, with the first slot on
    the way that could take it. -/
inductive Location where
  | present (index : ℕ)
  | absent (free : Option ℕ)
  deriving DecidableEq

/-- The search for a key along a path. An empty slot ends it. -/
def locate (slots : ℕ → Slot K V) (key : K) : List ℕ → Option ℕ → Location
  | [], free => .absent free
  | index :: rest, free =>
    match slots index with
    | .empty => .absent (free.or (some index))
    | .tombstone => locate slots key rest (free.or (some index))
    | .live stored _ => if stored = key then .present index else locate slots key rest free

variable {key : K} {path : List ℕ} {free : Option ℕ}

variable {slots : ℕ → Slot K V}

/-- A search that succeeds ends at a slot of the key. -/
theorem live_of_locate_present (h : locate slots key path free = .present index) :
    index ∈ path ∧ ∃ value, slots index = .live key value := by
  induction path generalizing free with
  | nil => cases h
  | cons i rest ih =>
    rw [locate] at h
    cases hslot : slots i with
    | empty =>
      rw [hslot] at h
      cases h
    | tombstone =>
      rw [hslot] at h
      obtain ⟨hmem, hlive⟩ := ih h
      exact ⟨List.mem_cons_of_mem _ hmem, hlive⟩
    | live stored value =>
      rw [hslot] at h
      dsimp only at h
      by_cases hkey : stored = key
      · rw [if_pos hkey] at h
        cases h
        exact ⟨List.mem_cons_self, value, hkey ▸ hslot⟩
      · rw [if_neg hkey] at h
        obtain ⟨hmem, hlive⟩ := ih h
        exact ⟨List.mem_cons_of_mem _ hmem, hlive⟩

variable {value : V}

/-- A key that is stored behind slots that are not empty is found. -/
theorem locate_ne_absent {before after : List ℕ} (hlive : slots index = .live key value)
    (hbefore : ∀ i ∈ before, slots i ≠ .empty) (free result : Option ℕ) :
    locate slots key (before ++ index :: after) free ≠ .absent result := by
  induction before generalizing free with
  | nil => simp [locate, hlive]
  | cons i rest ih =>
    have hrest := ih (fun j hj => hbefore j (List.mem_cons_of_mem _ hj))
    rw [List.cons_append, locate]
    cases hslot : slots i with
    | empty => exact absurd hslot (hbefore i List.mem_cons_self)
    | tombstone => exact hrest _
    | live stored _ =>
      dsimp only
      split_ifs
      · nofun
      · exact hrest _

/-- Once a slot is proposed, the search keeps it. -/
theorem proposed_of_locate_absent (h : locate slots key path (some index) = .absent free) :
    free = some index := by
  induction path with
  | nil =>
    cases h
    rfl
  | cons i rest ih =>
    rw [locate] at h
    cases hslot : slots i with
    | empty =>
      rw [hslot] at h
      cases h
      rfl
    | tombstone =>
      rw [hslot] at h
      exact ih h
    | live stored value =>
      rw [hslot] at h
      dsimp only at h
      split_ifs at h
      exact ih h

/-- The slot that a search without success proposes is the first one on the path that stores no
    key. -/
theorem free_of_locate_absent (h : locate slots key path none = .absent (some index)) :
    ∃ before after, path = before ++ index :: after ∧ (slots index).key? = none ∧
      ∀ i ∈ before, (slots i).key? ≠ none := by
  induction path with
  | nil => cases h
  | cons i rest ih =>
    rw [locate] at h
    cases hslot : slots i with
    | empty =>
      rw [hslot] at h
      cases h
      exact ⟨[], rest, rfl, by rw [hslot]; rfl, by simp⟩
    | tombstone =>
      rw [hslot] at h
      cases proposed_of_locate_absent h
      exact ⟨[], rest, rfl, by rw [hslot]; rfl, by simp⟩
    | live stored value =>
      rw [hslot] at h
      dsimp only at h
      split_ifs at h
      obtain ⟨before, after, hpath, hfree, hbefore⟩ := ih h
      refine ⟨i :: before, after, by rw [hpath, List.cons_append], hfree, fun j hj => ?_⟩
      rcases List.mem_cons.mp hj with rfl | hmem
      · rw [hslot]
        exact Option.some_ne_none _
      · exact hbefore j hmem

/-- A search that proposes no slot has passed only slots that store a key. -/
theorem live_of_locate_full (h : locate slots key path none = .absent none) :
    ∀ i ∈ path, (slots i).key? ≠ none := by
  induction path with
  | nil => simp
  | cons i rest ih =>
    rw [locate] at h
    cases hslot : slots i with
    | empty =>
      rw [hslot] at h
      cases h
    | tombstone =>
      rw [hslot] at h
      cases proposed_of_locate_absent h
    | live stored value =>
      rw [hslot] at h
      dsimp only at h
      split_ifs at h
      intro j hj
      rcases List.mem_cons.mp hj with rfl | hmem
      · rw [hslot]
        exact Option.some_ne_none _
      · exact ih h j hmem

/-! ## Tables that hold a map -/

/-- The table stores a finite map: a slot stores a key with its value exactly when the map does, no
    key is stored twice, and the path from the home of a key to its slot has no empty slot. -/
structure Holds (capacity : ℕ) (home : K → ℕ) (slots : ℕ → Slot K V)
    (entries : Finmap (fun _ : K => V)) : Prop where
  lookup : ∀ key value, entries.lookup key = some value ↔
    ∃ index < capacity, slots index = .live key value
  unique : ∀ i < capacity, ∀ j < capacity, ∀ key, (slots i).key? = some key →
    (slots j).key? = some key → i = j
  reachable : ∀ index key, (slots index).key? = some key → ∀ before after,
    probes capacity (home key) = before ++ index :: after → ∀ i ∈ before, slots i ≠ .empty

/-- An empty table stores nothing. -/
theorem holds_empty {capacity : ℕ} {home : K → ℕ} (h : ∀ index < capacity, slots index = .empty) :
    Holds capacity home slots ∅ where
  lookup key value := by
    refine ⟨fun hlookup => absurd hlookup (by simp), ?_⟩
    rintro ⟨index, hindex, hlive⟩
    rw [h index hindex] at hlive
    cases hlive
  unique i hi j hj key hkey := by
    rw [h i hi] at hkey
    cases hkey
  reachable index key hkey before after hpath := by
    have hindex : index < capacity :=
      lt_of_mem_probes (hpath ▸ List.mem_append_right before List.mem_cons_self)
    rw [h index hindex] at hkey
    cases hkey

namespace Holds

variable {capacity : ℕ} {home : K → ℕ} {slots : ℕ → Slot K V} {entries : Finmap (fun _ : K => V)}

variable (h : Holds capacity home slots entries)

include h

theorem mem_iff : key ∈ entries ↔ ∃ index < capacity, (slots index).key? = some key := by
  rw [Finmap.mem_iff]
  constructor
  · rintro ⟨value, hlookup⟩
    obtain ⟨index, hindex, hlive⟩ := (h.lookup key value).mp hlookup
    exact ⟨index, hindex, by rw [hlive]; rfl⟩
  · rintro ⟨index, hindex, hkey⟩
    obtain ⟨value, hlive⟩ := Slot.key?_eq_some hkey
    exact ⟨value, (h.lookup key value).mpr ⟨index, hindex, hlive⟩⟩

/-- There are as many keys as slots that store one. -/
theorem card_keys : entries.keys.card =
      ((Finset.range capacity).filter (fun index => (slots index).key?.isSome)).card := by
  have himage : entries.keys.map Function.Embedding.some =
      ((Finset.range capacity).filter (fun index => (slots index).key?.isSome)).image
        (fun index => (slots index).key?) := by
    ext key
    simp only [Finset.mem_map, Finset.mem_image, Finset.mem_filter, Finset.mem_range,
      Finmap.mem_keys, h.mem_iff, Function.Embedding.some_apply]
    constructor
    · rintro ⟨stored, ⟨index, hindex, hkey⟩, rfl⟩
      exact ⟨index, ⟨hindex, by rw [hkey]; rfl⟩, hkey⟩
    · rintro ⟨index, ⟨hindex, hsome⟩, rfl⟩
      obtain ⟨stored, hkey⟩ := Option.isSome_iff_exists.mp hsome
      exact ⟨stored, ⟨index, hindex, hkey⟩, hkey.symm⟩
  rw [← Finset.card_map Function.Embedding.some, himage]
  -- no key is stored twice
  apply Finset.card_image_of_injOn
  intro i hi j hj hij
  rw [Finset.mem_coe, Finset.mem_filter, Finset.mem_range] at hi hj
  obtain ⟨key, hkey⟩ := Option.isSome_iff_exists.mp hi.2
  exact h.unique i hi.1 j hj.1 key hkey (hij.symm.trans hkey)

theorem card_eq_capacity
    (hfull : ∀ index < capacity, (slots index).key? ≠ none) : entries.keys.card = capacity := by
  rw [h.card_keys, Finset.filter_true_of_mem, Finset.card_range]
  intro index hindex
  exact Option.isSome_iff_ne_none.mpr (hfull index (Finset.mem_range.mp hindex))

theorem card_lt_capacity (hindex : index < capacity) (hfree : (slots index).key? = none) :
    entries.keys.card < capacity := by
  rw [h.card_keys]
  refine lt_of_lt_of_eq (Finset.card_lt_card ?_) (Finset.card_range capacity)
  apply Finset.filter_ssubset.mpr
  exact ⟨index, Finset.mem_range.mpr hindex, by simp [hfree]⟩

/-! ### Updates -/

/-- Writing a slot that belongs to a key: before and after it stores no other key, and no other slot
    stores this one. The map may change at the key. -/
private theorem write (hindex : index < capacity)
    {slot : Slot K V} (hold : ∀ stored, (slots index).key? = some stored → stored = key)
    (hslot : ∀ stored, slot.key? = some stored → stored = key)
    (honly : ∀ i < capacity, (slots i).key? = some key → i = index)
    {entries' : Finmap (fun _ : K => V)}
    (hsame : ∀ value, entries'.lookup key = some value ↔ slot = .live key value)
    (hother : ∀ key', key' ≠ key → entries'.lookup key' = entries.lookup key')
    (hne : slot ≠ .empty) (hfront : ∀ before after, probes capacity (home key) =
      before ++ index :: after → ∀ i ∈ before, slots i ≠ .empty) :
    Holds capacity home (Function.update slots index slot) entries' where
  lookup key' value := by
    by_cases heq : key' = key
    · rw [heq, hsame]
      constructor
      · intro hlive
        exact ⟨index, hindex, by rw [Function.update_self, hlive]⟩
      · rintro ⟨i, hi, hlive⟩
        rcases eq_or_ne i index with rfl | hii
        · rwa [Function.update_self] at hlive
        · rw [Function.update_of_ne hii] at hlive
          exact absurd (honly i hi (by rw [hlive]; rfl)) hii
    -- another key is stored where it was, which is not the slot that is written
    · rw [hother key' heq, h.lookup]
      refine exists_congr fun i => and_congr_right fun _ => ?_
      rcases eq_or_ne i index with rfl | hii
      · rw [Function.update_self]
        exact ⟨fun hlive => absurd (hold key' (by rw [hlive]; rfl)) heq,
          fun hlive => absurd (hslot key' (by rw [hlive]; rfl)) heq⟩
      · rw [Function.update_of_ne hii]
  unique i hi j hj key' hi' hj' := by
    rcases eq_or_ne i index with rfl | hii
    · rcases eq_or_ne j i with rfl | hji
      · rfl
      · rw [Function.update_self] at hi'
        rw [Function.update_of_ne hji, hslot key' hi'] at hj'
        exact (honly j hj hj').symm
    · rw [Function.update_of_ne hii] at hi'
      rcases eq_or_ne j index with rfl | hji
      · rw [Function.update_self] at hj'
        rw [hslot key' hj'] at hi'
        exact honly i hi hi'
      · rw [Function.update_of_ne hji] at hj'
        exact h.unique i hi j hj key' hi' hj'
  reachable i key' hi' before after hpath k hk := by
    rcases eq_or_ne k index with rfl | hki
    · rwa [Function.update_self]
    · rw [Function.update_of_ne hki]
      rcases eq_or_ne i index with rfl | hii
      · rw [Function.update_self] at hi'
        rw [hslot key' hi'] at hpath
        exact hfront before after hpath k hk
      · rw [Function.update_of_ne hii] at hi'
        exact h.reachable i key' hi' before after hpath k hk

/-- Storing a new key in the first free slot on its path. -/
theorem store (hkey : key ∉ entries) {before after : List ℕ}
    (hpath : probes capacity (home key) = before ++ index :: after)
    (hfree : (slots index).key? = none) (hbefore : ∀ i ∈ before, (slots i).key? ≠ none)
    (value : V) :
    Holds capacity home (Function.update slots index (.live key value))
      (entries.insert key value) := by
  have hindex : index < capacity :=
    lt_of_mem_probes (hpath ▸ List.mem_append_right before List.mem_cons_self)
  have hold : ∀ stored, (slots index).key? = some stored → stored = key := by simp [hfree]
  refine h.write hindex hold ?_ ?_ ?_ ?_ (by nofun) ?_
  · intro stored hstored
    cases hstored
    rfl
  · exact fun i hi hstored => absurd (h.mem_iff.mpr ⟨i, hi, hstored⟩) hkey
  · intro value'
    rw [Finmap.lookup_insert, Option.some.injEq, Slot.live.injEq]
    simp
  · exact fun key' hkey' => Finmap.lookup_insert_of_ne _ hkey'
  -- everything before the first free slot stores a key
  · intro before' after' hpath' i hi hempty
    have hsame := split_unique (nodup_probes _ _) hpath hpath'
    apply hbefore i (hsame ▸ hi)
    rw [hempty]
    rfl

/-- Rewriting the slot of a key, with the key or with a tombstone. -/
private theorem rewrite (hindex : index < capacity)
    (hlive : slots index = .live key value) {slot : Slot K V} (hne : slot ≠ .empty)
    (hslot : ∀ stored, slot.key? = some stored → stored = key) {entries' : Finmap (fun _ : K => V)}
    (hsame : ∀ value', entries'.lookup key = some value' ↔ slot = .live key value')
    (hother : ∀ key', key' ≠ key → entries'.lookup key' = entries.lookup key') :
    Holds capacity home (Function.update slots index slot) entries' := by
  have hkey : (slots index).key? = some key := by rw [hlive]; rfl
  refine h.write hindex ?_ hslot ?_ hsame hother hne (h.reachable index key hkey)
  · exact fun stored hstored => (Option.some.inj (hkey.symm.trans hstored)).symm
  · exact fun i hi hstored => h.unique i hi index hindex key hstored hkey

/-- Replacing the value of a key in its slot. -/
theorem replace (hindex : index < capacity) (hlive : slots index = .live key value) (value' : V) :
    Holds capacity home (Function.update slots index (.live key value'))
      (entries.insert key value') := by
  refine h.rewrite hindex hlive (by nofun) ?_ ?_ ?_
  · intro stored hstored
    cases hstored
    rfl
  · intro value''
    rw [Finmap.lookup_insert, Option.some.injEq, Slot.live.injEq]
    simp
  · intro key' hkey'
    exact Finmap.lookup_insert_of_ne _ hkey'

/-- Removing a key leaves a tombstone in its slot. -/
theorem remove (hindex : index < capacity) (hlive : slots index = .live key value) :
    Holds capacity home (Function.update slots index .tombstone) (entries.erase key) := by
  refine h.rewrite hindex hlive (by nofun) (by nofun) ?_ ?_
  · intro value'
    rw [Finmap.lookup_erase]
    exact ⟨nofun, nofun⟩
  · intro key' hkey'
    exact Finmap.lookup_erase_ne hkey'

/-! ### What a search tells -/

/-- A search along the whole path finds every key of the map. -/
theorem not_mem_of_absent
    (hlocate : locate slots key (probes capacity (home key)) none = .absent free) :
    key ∉ entries := by
  intro hmem
  obtain ⟨index, hindex, hkey⟩ := h.mem_iff.mp hmem
  obtain ⟨value, hlive⟩ := Slot.key?_eq_some hkey
  obtain ⟨before, after, hpath⟩ :=
    List.append_of_mem (mem_probes_iff.mpr hindex : index ∈ probes capacity (home key))
  apply locate_ne_absent hlive (h.reachable index key hkey before after hpath) none free
  rw [← hpath]
  exact hlocate

/-- A search that ends at a slot has found the key with its value. -/
theorem lookup_of_present
    (hlocate : locate slots key (probes capacity (home key)) none = .present index) :
    index < capacity ∧ ∃ value, slots index = .live key value ∧
      entries.lookup key = some value := by
  obtain ⟨hmem, value, hlive⟩ := live_of_locate_present hlocate
  have hindex := lt_of_mem_probes hmem
  exact ⟨hindex, value, hlive, (h.lookup key value).mpr ⟨index, hindex, hlive⟩⟩

/-- A search that proposes a slot: there is room, and the slot can take the key. -/
theorem store_of_absent
    (hlocate : locate slots key (probes capacity (home key)) none = .absent (some index)) :
    index < capacity ∧ (slots index).key? = none ∧ entries.keys.card < capacity ∧ ∀ value,
      Holds capacity home (Function.update slots index (.live key value))
        (entries.insert key value) := by
  obtain ⟨before, after, hpath, hfree, hbefore⟩ := free_of_locate_absent hlocate
  have hindex : index < capacity :=
    lt_of_mem_probes (hpath ▸ List.mem_append_right before List.mem_cons_self)
  refine ⟨hindex, hfree, h.card_lt_capacity hindex hfree, ?_⟩
  exact h.store (h.not_mem_of_absent hlocate) hpath hfree hbefore

/-- A search that proposes no slot: the table is full. -/
theorem full_of_absent
    (hlocate : locate slots key (probes capacity (home key)) none = .absent none) :
    entries.keys.card = capacity := by
  apply h.card_eq_capacity
  intro index hindex
  exact live_of_locate_full hlocate index (mem_probes_iff.mpr hindex)

end Holds

end Search

end Xprobe.Foundation.OpenAddressing
