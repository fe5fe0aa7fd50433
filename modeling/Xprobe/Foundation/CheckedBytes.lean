import Xprobe.Foundation.Bytes
import Xprobe.Foundation.Checked
import Xprobe.Foundation.Fallible

/-!
# Code that may panic or fail

A computation over bytes has three ways to end: it returns a value, it returns an error, or it
panics, because it indexed outside a slice, divided by zero or overflowed. `Panicking` has all
three, and `returned` marks a computation that did not panic.

To show that a piece of code never panics, compare it step by step with the same code over total
reads: `returned_bind` is the rule for one step, and it hands on what the step established.
-/

namespace Xprobe.Foundation

variable {ε α β : Type}

/-! ## Panics and errors -/

/-- A computation that panics (`none`) or returns a result or an error. -/
abbrev Panicking (ε α : Type) := ExceptT ε Option α

/-- A computation that did not panic. -/
def returned (x : Except ε α) : Panicking ε α := ExceptT.mk (some x)

theorem pure_eq_returned (a : α) : (pure a : Panicking ε α) = returned (.ok a) := rfl

theorem liftM_except (x : Except ε α) : (liftM x : Panicking ε α) = returned x := rfl

theorem liftM_some (a : α) : (liftM (some a) : Panicking ε α) = returned (.ok a) := rfl

theorem returned_ok_bind (a : α) (f : α → Panicking ε β) : returned (.ok a) >>= f = f a := rfl

/-- A step that returned, followed by code that does not panic after it. -/
theorem returned_bind {x : Except ε α} {f : α → Except ε β} {g : α → Panicking ε β}
    (h : ∀ a, x = .ok a → g a = returned (f a)) : returned x >>= g = returned (x >>= f) := by
  cases x with
  | error e => rfl
  | ok a => exact h a rfl

/-- The computation does not panic, and a value that it returns satisfies a predicate. -/
def Ends (x : Panicking ε α) (post : α → Prop) : Prop :=
  ∃ result, x = returned result ∧ ∀ a, result = .ok a → post a

theorem Ends.pure {post : α → Prop} {a : α} (h : post a) : Ends (pure a : Panicking ε α) post :=
  ⟨.ok a, rfl, fun _ heq => Except.ok.inj heq ▸ h⟩

variable {f : α → Panicking ε β} {post : β → Prop}

theorem Ends.bind {x : Panicking ε α} {mid : α → Prop} (hx : Ends x mid)
    (hf : ∀ a, mid a → Ends (f a) post) : Ends (x >>= f) post := by
  obtain ⟨result, rfl, hmid⟩ := hx
  cases result with
  | error e => exact ⟨.error e, rfl, nofun⟩
  | ok a => exact hf a (hmid a rfl)

theorem Ends.liftM_bind {x : Except ε α} (hf : ∀ a, x = .ok a → Ends (f a) post) :
    Ends ((liftM x : Panicking ε α) >>= f) post :=
  Ends.bind ⟨x, rfl, fun _ ha => ha⟩ hf

theorem Ends.okOr_bind {x : Option α} {e : ε} (hf : ∀ a, x = some a → Ends (f a) post) :
    Ends ((liftM (okOr x e) : Panicking ε α) >>= f) post :=
  Ends.liftM_bind fun a ha => hf a (okOr_eq_ok_iff.mp ha)

/-- `a / b` for `u64`. -/
def divU64 (a b : UInt64) : Option UInt64 := if b = 0 then none else some (a / b)

theorem divU64_of_ne {a b : UInt64} (h : b ≠ 0) : divU64 a b = some (a / b) := if_neg h

/-- `condition.then(|| read)`: the read only takes place under the condition. -/
def thenRead (condition : Prop) [Decidable condition] (read : Option α) : Option (Option α) :=
  if condition then read.map some else some none

theorem thenRead_some (condition : Prop) [Decidable condition] (a : α) :
    thenRead condition (some a) = some (if condition then some a else none) := by
  unfold thenRead
  split_ifs <;> rfl

/-! ## Slices -/

/-- `&bytes[start..stop]`. -/
def sliceRange (bytes : List UInt8) (start stop : Nat) : Option (List UInt8) :=
  if start ≤ stop ∧ stop ≤ bytes.length then some (sliceAt bytes start (stop - start)) else none

variable {bytes : List UInt8}

theorem sliceRange_of_le {start stop : Nat} (hstart : start ≤ stop) (hstop : stop ≤ bytes.length) :
    sliceRange bytes start stop = some (sliceAt bytes start (stop - start)) :=
  if_pos ⟨hstart, hstop⟩

/-- `&bytes[start..]`. -/
def sliceFrom (bytes : List UInt8) (start : Nat) : Option (List UInt8) :=
  if start ≤ bytes.length then some (bytes.drop start) else none

theorem sliceFrom_of_le {start : Nat} (h : start ≤ bytes.length) :
    sliceFrom bytes start = some (bytes.drop start) := if_pos h

/-- `read_u32`, where the field may lie outside the bytes. -/
def readU32At (bytes : List UInt8) (offset : Nat) : Option UInt32 := do
  let stop ← addU64 offset 4
  let field ← sliceRange bytes offset stop
  return UInt32.ofNat (ofLeBytes field)

/-- `read_u64`, where the field may lie outside the bytes. -/
def readU64At (bytes : List UInt8) (offset : Nat) : Option UInt64 := do
  let stop ← addU64 offset 8
  let field ← sliceRange bytes offset stop
  return UInt64.ofNat (ofLeBytes field)

variable {offset : Nat}

theorem readU32At_of_le (hfits : offset + 4 < 2 ^ 64) (h : offset + 4 ≤ bytes.length) :
    readU32At bytes offset = some (readU32 bytes offset) := by
  rw [readU32At, addU64_of_lt hfits, some_bind,
    sliceRange_of_le (Nat.le_add_right offset 4) h, Nat.add_sub_cancel_left]
  rfl

theorem readU64At_of_le (hfits : offset + 8 < 2 ^ 64) (h : offset + 8 ≤ bytes.length) :
    readU64At bytes offset = some (readU64 bytes offset) := by
  rw [readU64At, addU64_of_lt hfits, some_bind,
    sliceRange_of_le (Nat.le_add_right offset 8) h, Nat.add_sub_cancel_left]
  rfl

theorem length_sliceAt {length : Nat} (h : offset + length ≤ bytes.length) :
    (sliceAt bytes offset length).length = length := by
  rw [sliceAt, List.length_take, List.length_drop]
  omega

/-- Every chunk has the size asked for. -/
theorem length_of_mem_chunksExact {size : Nat} {chunk : List UInt8}
    (h : chunk ∈ chunksExact size bytes) : chunk.length = size := by
  obtain ⟨i, hi, rfl⟩ := List.mem_map.mp h
  have hcount : i + 1 ≤ bytes.length / size := List.mem_range.mp hi
  have hend : i * size + size ≤ bytes.length := by
    calc i * size + size = (i + 1) * size := (Nat.succ_mul i size).symm
      _ ≤ bytes.length / size * size := Nat.mul_le_mul_right size hcount
      _ ≤ bytes.length := Nat.div_mul_le_self bytes.length size
  exact length_sliceAt hend

/-! ## C strings -/

/-- `bytes.iter().position(|byte| *byte == 0).unwrap_or(bytes.len())`. -/
def nulPosition (bytes : List UInt8) : Nat :=
  (bytes.findIdx? (· == 0)).getD bytes.length

theorem nulPosition_le (bytes : List UInt8) : nulPosition bytes ≤ bytes.length := by
  unfold nulPosition
  cases h : bytes.findIdx? (· == 0) with
  | none => exact le_rfl
  | some i => exact (List.findIdx?_eq_some_iff_getElem.mp h).1.le

/-- The bytes before the first NUL are a C string. -/
theorem take_nulPosition (bytes : List UInt8) : bytes.take (nulPosition bytes) = cString bytes := by
  induction bytes with
  | nil => rfl
  | cons b rest ih =>
    rw [cString] at ih ⊢
    by_cases hb : b = 0
    · subst hb
      simp [nulPosition, List.findIdx?_cons]
    · have hposition : nulPosition (b :: rest) = nulPosition rest + 1 := by
        simp only [nulPosition, List.findIdx?_cons, beq_iff_eq, hb, ite_false, List.length_cons]
        cases rest.findIdx? (· == 0) <;> rfl
      rw [hposition, List.take_succ_cons, ih, List.takeWhile_cons, if_pos (decide_eq_true hb)]

theorem length_cString (bytes : List UInt8) : (cString bytes).length = nulPosition bytes := by
  rw [← take_nulPosition, List.length_take, Nat.min_eq_left (nulPosition_le bytes)]

end Xprobe.Foundation
