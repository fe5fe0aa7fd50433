import Xprobe.Foundation.Bytes

/-!
# Cutting UTF-8 texts

The encoding of a character is a first byte that tells how many bytes there are, followed by tail
bytes. So the encoding of a text says where its characters end: the bytes of one text are a prefix
of the bytes of another only if its characters are, and the first bytes of a text are a text exactly
when they end with a whole character.

`fittingChars` is the longest prefix of a text that fits into a number of bytes.
-/

namespace Xprobe.Foundation

/-! ## Characters -/

/-- A byte that continues a character. -/
def IsTail (byte : UInt8) : Prop := 0x80 ≤ byte.toNat ∧ byte.toNat < 0xc0

/-- The first byte of a character of so many bytes. -/
def IsLead (byte : UInt8) (length : ℕ) : Prop :=
  length = 1 ∧ byte.toNat < 0x80 ∨
  length = 2 ∧ 0xc0 ≤ byte.toNat ∧ byte.toNat < 0xe0 ∨
  length = 3 ∧ 0xe0 ≤ byte.toNat ∧ byte.toNat < 0xf0 ∨
  length = 4 ∧ 0xf0 ≤ byte.toNat ∧ byte.toNat < 0xf8

theorem IsLead.unique {byte : UInt8} {m n : ℕ} (hm : IsLead byte m) (hn : IsLead byte n) :
    m = n := by
  unfold IsLead at hm hn
  omega

theorem IsLead.not_isTail {byte : UInt8} {n : ℕ} (h : IsLead byte n) : ¬IsTail byte := by
  unfold IsLead at h
  unfold IsTail
  omega

private theorem toNat_ofNat_add_mod {n m base : ℕ} (hm : 0 < m) (h : base + m ≤ 256) :
    (UInt8.ofNat (n % m + base)).toNat = n % m + base := by
  have hlt := Nat.mod_lt n hm
  rw [UInt8.toNat_ofNat', Nat.mod_eq_of_lt (by omega)]

private theorem isTail_ofNat (n : ℕ) : IsTail (UInt8.ofNat (n % 64 + 128)) := by
  have hlt := Nat.mod_lt n (by decide : 0 < 64)
  rw [IsTail, toNat_ofNat_add_mod (by decide) (by decide)]
  omega

private theorem isTail_of_mem_tails {ns : List ℕ} {byte : UInt8}
    (h : byte ∈ ns.map fun n => UInt8.ofNat (n % 64 + 128)) : IsTail byte := by
  obtain ⟨n, -, rfl⟩ := List.mem_map.mp h
  exact isTail_ofNat n

/-- The bytes of a character. -/
theorem utf8EncodeChar_shape (c : Char) :
    ∃ lead tail, String.utf8EncodeChar c = lead :: tail ∧ IsLead lead (tail.length + 1) ∧
      ∀ byte ∈ tail, IsTail byte := by
  simp only [String.utf8EncodeChar]
  set v := c.val.toNat
  -- one case for every length of an encoding
  split_ifs with h1 h2 h3
  · refine ⟨_, [], rfl, .inl ⟨rfl, ?_⟩, by simp⟩
    rw [UInt8.toNat_ofNat', Nat.mod_eq_of_lt (by omega)]
    omega
  · refine ⟨_, [v].map _, rfl, .inr (.inl ⟨rfl, ?_⟩), fun _ => isTail_of_mem_tails⟩
    have hlt := Nat.mod_lt (v / 64) (by decide : 0 < 32)
    rw [toNat_ofNat_add_mod (by decide) (by decide)]
    omega
  · refine ⟨_, [v / 64, v].map _, rfl, .inr (.inr (.inl ⟨rfl, ?_⟩)),
      fun _ => isTail_of_mem_tails⟩
    have hlt := Nat.mod_lt (v / 4096) (by decide : 0 < 16)
    rw [toNat_ofNat_add_mod (by decide) (by decide)]
    omega
  · refine ⟨_, [v / 4096, v / 64, v].map _, rfl, .inr (.inr (.inr ⟨rfl, ?_⟩)),
      fun _ => isTail_of_mem_tails⟩
    have hlt := Nat.mod_lt (v / 262144) (by decide : 0 < 8)
    rw [toNat_ofNat_add_mod (by decide) (by decide)]
    omega

/-! ## Texts -/

def encodeChars (chars : List Char) : List UInt8 := chars.flatMap String.utf8EncodeChar

@[simp] theorem encodeChars_nil : encodeChars [] = [] := rfl

@[simp] theorem encodeChars_cons (c : Char) (chars : List Char) :
    encodeChars (c :: chars) = String.utf8EncodeChar c ++ encodeChars chars := by
  simp [encodeChars]

@[simp] theorem encodeChars_append (chars chars' : List Char) :
    encodeChars (chars ++ chars') = encodeChars chars ++ encodeChars chars' := by
  simp [encodeChars]

theorem utf8Bytes_ofList_eq (chars : List Char) :
    utf8Bytes (String.ofList chars) = encodeChars chars := utf8Bytes_ofList chars

theorem utf8Bytes_eq (text : String) : utf8Bytes text = encodeChars text.toList := by
  rw [← utf8Bytes_ofList_eq, String.ofList_toList]

theorem utf8EncodeChar_injective : Function.Injective String.utf8EncodeChar := by
  intro c d h
  have hbytes : utf8Bytes (String.ofList [c]) = utf8Bytes (String.ofList [d]) := by
    simp only [utf8Bytes_ofList_eq, encodeChars_cons, encodeChars_nil, h]
  have htext := congrArg fromUtf8 hbytes
  rw [fromUtf8_utf8Bytes, fromUtf8_utf8Bytes, Option.some.injEq] at htext
  have hlists := congrArg String.toList htext
  rw [String.toList_ofList, String.toList_ofList] at hlists
  exact List.singleton_inj.mp hlists

/-- No character is hidden at the start of another. -/
theorem utf8EncodeChar_eq_of_append_eq {c d : Char} {rest rest' : List UInt8}
    (h : String.utf8EncodeChar c ++ rest = String.utf8EncodeChar d ++ rest') : c = d := by
  obtain ⟨lead, tail, hc, hlead, -⟩ := utf8EncodeChar_shape c
  obtain ⟨lead', tail', hd, hlead', -⟩ := utf8EncodeChar_shape d
  have hfirst : lead = lead' := by
    rw [hc, hd] at h
    exact (List.cons.inj h).1
  have hlength : (String.utf8EncodeChar c).length = (String.utf8EncodeChar d).length := by
    rw [hc, hd]
    exact hlead.unique (hfirst ▸ hlead')
  exact utf8EncodeChar_injective (List.append_inj h hlength).1

/-- The bytes of a text start with the bytes of another only if its characters do. -/
theorem isPrefix_of_encodeChars {chars chars' : List Char}
    (h : encodeChars chars <+: encodeChars chars') : chars <+: chars' := by
  induction chars generalizing chars' with
  | nil => exact List.nil_prefix
  | cons c rest ih =>
    obtain ⟨after, hafter⟩ := h
    cases chars' with
    | nil =>
      obtain ⟨lead, tail, hc, -, -⟩ := utf8EncodeChar_shape c
      simp [hc] at hafter
    | cons d rest' =>
      rw [encodeChars_cons, encodeChars_cons, List.append_assoc] at hafter
      obtain rfl := utf8EncodeChar_eq_of_append_eq hafter
      exact List.cons_prefix_cons.mpr ⟨rfl, ih ⟨after, List.append_cancel_left hafter⟩⟩

/-! ## The longest prefix that fits -/

/-- The longest prefix of the characters whose bytes fit into the budget. -/
def fittingChars : ℕ → List Char → List Char
  | _, [] => []
  | budget, c :: rest =>
    if (String.utf8EncodeChar c).length ≤ budget then
      c :: fittingChars (budget - (String.utf8EncodeChar c).length) rest
    else []

theorem isPrefix_fittingChars (budget : ℕ) (chars : List Char) :
    fittingChars budget chars <+: chars := by
  induction chars generalizing budget with
  | nil => exact List.nil_prefix
  | cons c rest ih =>
    rw [fittingChars]
    split_ifs
    · exact List.cons_prefix_cons.mpr ⟨rfl, ih _⟩
    · exact List.nil_prefix

theorem length_encodeChars_fittingChars_le (budget : ℕ) (chars : List Char) :
    (encodeChars (fittingChars budget chars)).length ≤ budget := by
  induction chars generalizing budget with
  | nil => exact Nat.zero_le _
  | cons c rest ih =>
    rw [fittingChars]
    split_ifs with hfits
    · have hrest := ih (budget - (String.utf8EncodeChar c).length)
      rw [encodeChars_cons, List.length_append]
      omega
    · exact Nat.zero_le _

/-- All characters fit, or the next one does not. -/
theorem fittingChars_cases (budget : ℕ) (chars : List Char) : fittingChars budget chars = chars ∨
      ∃ next rest, chars = fittingChars budget chars ++ next :: rest ∧
        budget < (encodeChars (fittingChars budget chars)).length +
          (String.utf8EncodeChar next).length := by
  induction chars generalizing budget with
  | nil => exact .inl rfl
  | cons c rest ih =>
    rw [fittingChars]
    split_ifs with hfits
    · rcases ih (budget - (String.utf8EncodeChar c).length) with hall | ⟨next, after, heq, hlt⟩
      · exact .inl (by rw [hall])
      · refine .inr ⟨next, after, ?_, ?_⟩
        · rw [List.cons_append, ← heq]
        · rw [encodeChars_cons, List.length_append]
          omega
    · exact .inr ⟨c, rest, rfl, by simpa using hfits⟩

/-- No longer prefix fits. -/
theorem fittingChars_longest {budget : ℕ} {chars front : List Char} (hfront : front <+: chars)
    (hfits : (encodeChars front).length ≤ budget) : front <+: fittingChars budget chars := by
  induction chars generalizing budget front with
  | nil =>
    rw [List.prefix_nil.mp hfront]
    exact List.nil_prefix
  | cons c rest ih =>
    cases front with
    | nil => exact List.nil_prefix
    | cons d front =>
      obtain ⟨rfl, hrest⟩ := List.cons_prefix_cons.mp hfront
      rw [encodeChars_cons, List.length_append] at hfits
      rw [fittingChars, if_pos (by omega)]
      exact List.cons_prefix_cons.mpr ⟨rfl, ih hrest (by omega)⟩

/-- The first bytes of a text are those of the characters that fit, and the start of the next
    character. -/
theorem take_encodeChars {budget : ℕ} {front rest : List Char} {next : Char}
    (hfits : (encodeChars front).length ≤ budget)
    (hnext : budget < (encodeChars front).length + (String.utf8EncodeChar next).length) :
    (encodeChars (front ++ next :: rest)).take budget =
      encodeChars front ++
        (String.utf8EncodeChar next).take (budget - (encodeChars front).length) := by
  rw [encodeChars_append, encodeChars_cons, List.take_append, List.take_of_length_le hfits,
    List.take_append, Nat.sub_eq_zero_of_le (by omega : budget - (encodeChars front).length ≤ _),
    List.take_zero, List.append_nil]

/-! ## Where a text may be cut -/

def EndsWithChar (text : String) (budget : ℕ) : Prop :=
  ∃ count, encodeChars (text.toList.take count) = (utf8Bytes text).take budget

/-- The first bytes of a text are a text exactly when they end with a whole character. -/
theorem fromUtf8_take_isSome_iff (text : String) (budget : ℕ) :
    (fromUtf8 ((utf8Bytes text).take budget)).isSome = true ↔ EndsWithChar text budget := by
  constructor
  · intro h
    obtain ⟨front, hfront⟩ := Option.isSome_iff_exists.mp h
    have hbytes := utf8Bytes_of_fromUtf8 hfront
    rw [utf8Bytes_eq] at hbytes
    have hencoded : encodeChars front.toList <+: encodeChars text.toList := by
      rw [hbytes, utf8Bytes_eq]
      exact List.take_prefix _ _
    have hchars := List.prefix_iff_eq_take.mp (isPrefix_of_encodeChars hencoded)
    exact ⟨front.toList.length, by rw [← hchars, hbytes]⟩
  · rintro ⟨count, hcount⟩
    rw [← hcount, ← utf8Bytes_ofList_eq, fromUtf8_utf8Bytes]
    rfl

end Xprobe.Foundation
