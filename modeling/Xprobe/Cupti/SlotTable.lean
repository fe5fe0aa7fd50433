import Xprobe.Foundation.OpenAddressing
import Xprobe.Cupti.Activity
import Xprobe.Cupti.Agent

/-!
# The slot tables of the agent

What the two hash tables of the agent share (`cupti/src/cupti_agent.c`): the FNV-1a hash of the bytes
of a key, the slots that a loop visits from the home slot on, names that are written over the older
content of a slot, and what is recorded when a table is full.

All of it is 64-bit arithmetic. A table that fits in memory is small enough for the index
`first + probe` not to wrap, so its loops visit the path of open addressing.
-/

namespace Xprobe.Cupti

open Foundation OpenAddressing

/-! ## Hashes -/

def fnvHash (bytes : List UInt8) : UInt64 :=
  bytes.foldl (fun hash byte => (hash ^^^ byte.toUInt64) * 1099511628211) 1469598103934665603

/-! ## Visited slots -/

/-- The indices `(hash % capacity + probe) % capacity` for each probe below the capacity. -/
def probeIndices (hash capacity : UInt64) : List Nat :=
  (List.range capacity.toNat).map (fun probe =>
    ((hash % capacity + UInt64.ofNat probe) % capacity).toNat)

def homeSlot (capacity hash : UInt64) : Nat := hash.toNat % capacity.toNat

theorem probeIndices_eq_probes {capacity : UInt64} (h : 2 * capacity.toNat ≤ 2 ^ 64)
    (hash : UInt64) :
    probeIndices hash capacity = probes capacity.toNat (homeSlot capacity hash) := by
  apply List.map_congr_left
  intro probe hprobe
  have hprobe : probe < capacity.toNat := List.mem_range.mp hprobe
  have hfirst : hash.toNat % capacity.toNat < capacity.toNat := Nat.mod_lt _ (by omega)
  have hsmall : (UInt64.ofNat probe).toNat = probe :=
    UInt64.toNat_ofNat_of_lt' (show probe < 2 ^ 64 by omega)
  have hsum : hash.toNat % capacity.toNat + probe < 2 ^ 64 := by omega
  rw [UInt64.toNat_mod, UInt64.toNat_add, UInt64.toNat_mod, hsmall, Nat.mod_eq_of_lt hsum, homeSlot]

/-! ## Arrays of slots -/

section Table

variable {σ K V : Type}

/-- An array of slots as a function from indices. -/
def slotAt (view : σ → Slot K V) (slots : List σ) (index : Nat) : Slot K V :=
  (slots[index]?).elim .empty view

variable {index : Nat}

theorem slotAt_of_getElem? {view : σ → Slot K V} {slots : List σ} {slot : σ}
    (h : slots[index]? = some slot) : slotAt view slots index = view slot := by
  rw [slotAt, h, Option.elim_some]

variable [DecidableEq K]

def search (view : σ → Slot K V) (hash : K → UInt64) (capacity : UInt64) (slots : List σ)
    (key : K) : Location :=
  locate (slotAt view slots) key (probeIndices (hash key) capacity) none

structure Table (view : σ → Slot K V) (Valid : σ → Prop) (hash : K → UInt64) (capacity : UInt64)
    (slots : List σ) (entries : Finmap (fun _ : K => V)) : Prop where
  capacity_ne : capacity ≠ 0
  capacity_le : 2 * capacity.toNat ≤ 2 ^ 64
  length_slots : slots.length = capacity.toNat
  valid : ∀ slot ∈ slots, Valid slot
  holds : Holds capacity.toNat (fun key => homeSlot capacity (hash key)) (slotAt view slots) entries

namespace Table

variable {view : σ → Slot K V} {Valid : σ → Prop} {hash : K → UInt64} {capacity : UInt64}
  {slots : List σ} {entries : Finmap (fun _ : K => V)}

/-- An array of unused slots holds nothing. -/
theorem of_unused (hcapacity : capacity ≠ 0) (hsmall : 2 * capacity.toNat ≤ 2 ^ 64)
    (hlength : slots.length = capacity.toNat)
    (h : ∀ slot ∈ slots, Valid slot ∧ view slot = .empty) :
    Table view Valid hash capacity slots ∅ := by
  refine ⟨hcapacity, hsmall, hlength, fun slot hmem => (h slot hmem).1, holds_empty ?_⟩
  intro index hindex
  have hslot := List.getElem?_eq_getElem (hlength ▸ hindex : index < slots.length)
  rw [slotAt_of_getElem? hslot]
  exact (h _ (List.mem_of_getElem? hslot)).2

variable (h : Table view Valid hash capacity slots entries)

include h

theorem lt_length_of_mem_path (key : K) (hmem : index ∈ probeIndices (hash key) capacity) :
    index < slots.length := by
  rw [probeIndices_eq_probes h.capacity_le] at hmem
  rw [h.length_slots]
  exact lt_of_mem_probes hmem

theorem getElem?_of_lt (hindex : index < capacity.toNat) :
    ∃ slot, slots[index]? = some slot ∧ Valid slot ∧ slotAt view slots index = view slot := by
  have hslot := List.getElem?_eq_getElem (h.length_slots ▸ hindex : index < slots.length)
  exact ⟨_, hslot, h.valid _ (List.mem_of_getElem? hslot), slotAt_of_getElem? hslot⟩

/-- Replacing one slot, when the new one is valid and the slots then hold other entries. -/
theorem set (hindex : index < capacity.toNat) {slot : σ} (hslot : Valid slot)
    {entries' : Finmap (fun _ : K => V)}
    (hholds : Holds capacity.toNat (fun key => homeSlot capacity (hash key))
      (Function.update (slotAt view slots) index (view slot)) entries') :
    Table view Valid hash capacity (slots.set index slot) entries' where
  capacity_ne := h.capacity_ne
  capacity_le := h.capacity_le
  length_slots := (List.length_set ..).trans h.length_slots
  valid slot' hmem := by
    rcases List.mem_or_eq_of_mem_set hmem with hold | rfl
    · exact h.valid slot' hold
    · exact hslot
  holds := by
    rw [← h.length_slots] at hindex
    convert hholds using 1
    funext i
    rcases eq_or_ne i index with rfl | hne
    · rw [Function.update_self, slotAt, List.getElem?_set_self hindex, Option.elim_some]
    · rw [Function.update_of_ne hne, slotAt, List.getElem?_set_ne hne.symm, slotAt]

variable {key : K}

/-- A search that ends at a slot: it stores the key, and another slot for the key or a tombstone can
    take its place. -/
theorem of_present (hsearch : search view hash capacity slots key = .present index) :
    ∃ slot value, slots[index]? = some slot ∧ Valid slot ∧ view slot = .live key value ∧
      entries.lookup key = some value ∧
      (∀ {slot' value'}, Valid slot' → view slot' = .live key value' →
        Table view Valid hash capacity (slots.set index slot') (entries.insert key value')) ∧
      ∀ {slot'}, Valid slot' → view slot' = .tombstone →
        Table view Valid hash capacity (slots.set index slot') (entries.erase key) := by
  rw [search, probeIndices_eq_probes h.capacity_le] at hsearch
  obtain ⟨hindex, value, hlive, hlookup⟩ := h.holds.lookup_of_present hsearch
  obtain ⟨slot, hslot, hvalid, hview⟩ := h.getElem?_of_lt hindex
  refine ⟨slot, value, hslot, hvalid, hview ▸ hlive, hlookup, ?_, ?_⟩
  · intro slot' value' hvalid' hview'
    exact h.set hindex hvalid' (hview' ▸ h.holds.replace hindex hlive value')
  · intro slot' hvalid' hview'
    exact h.set hindex hvalid' (hview' ▸ h.holds.remove hindex hlive)

/-- A search that proposes a slot: there is room, and the slot can take the key. -/
theorem of_absent (hsearch : search view hash capacity slots key = .absent (some index)) :
    ∃ slot, slots[index]? = some slot ∧ (view slot).key? = none ∧
      entries.keys.card < capacity.toNat ∧
      ∀ {slot' value}, Valid slot' → view slot' = .live key value →
        Table view Valid hash capacity (slots.set index slot') (entries.insert key value) := by
  rw [search, probeIndices_eq_probes h.capacity_le] at hsearch
  obtain ⟨hindex, hfree, hroom, hstore⟩ := h.holds.store_of_absent hsearch
  obtain ⟨slot, hslot, -, hview⟩ := h.getElem?_of_lt hindex
  refine ⟨slot, hslot, hview ▸ hfree, hroom, ?_⟩
  intro slot' value hvalid' hview'
  exact h.set hindex hvalid' (hview' ▸ hstore value)

theorem not_mem_of_absent {free : Option Nat}
    (hsearch : search view hash capacity slots key = .absent free) : key ∉ entries := by
  rw [search, probeIndices_eq_probes h.capacity_le] at hsearch
  exact h.holds.not_mem_of_absent hsearch

/-- A search that proposes no slot: the table is full. -/
theorem full_of_absent (hsearch : search view hash capacity slots key = .absent none) :
    entries.keys.card = capacity.toNat := by
  rw [search, probeIndices_eq_probes h.capacity_le] at hsearch
  exact h.holds.full_of_absent hsearch

end Table

end Table

/-! ## Names in slots -/

/-- The bytes of a text and its terminator over the start of a field. -/
def writeText (field text : List UInt8) : List UInt8 := text ++ 0 :: field.drop (text.length + 1)

theorem length_writeText {field text : List UInt8} (h : text.length < field.length) :
    (writeText field text).length = field.length := by
  simp only [writeText, List.length_append, List.length_cons, List.length_drop]
  omega

/-- A reader of the field sees the text, whatever the field held before. -/
theorem cString_writeText (field : List UInt8) {text : List UInt8} (h : 0 ∉ text) :
    cString (writeText field text) = text := cString_append_nul h

/-! ## Full tables -/

def AgentState.dropRecord (state : AgentState) : AgentState :=
  { state with
    store := { state.store with agentDroppedRecords := state.store.agentDroppedRecords + 1 } }

def AgentControl.reachLimit (control : AgentControl) : AgentControl :=
  { control with stopReason := .recordLimit, captureState := .limitReached }

end Xprobe.Cupti
