import Xprobe.Foundation.Text

/-!
# Texts that are written and cut again

When the cuts of `str` find the pieces that a text was put together from: a cut at the last
separator, a cut at the first occurrence of a pattern, and the hexadecimal digits of a number. A
pattern that has its separator only at its start cannot reach over the end of a piece.
-/

namespace Xprobe.Foundation.Text

/-! ## Cuts -/

theorem rsplitOnce_append {text before after : String} {separator : Char}
    (htext : text.toList = before.toList ++ separator :: after.toList)
    (h : separator ∉ after.toList) : rsplitOnce text separator = some (before, after) := by
  have hreverse : text.toList.reverse =
      after.toList.reverse ++ separator :: before.toList.reverse := by
    simp [htext]
  rw [rsplitOnce, hreverse, cutFirst_append (by simpa using h)]
  simp

variable {separator : Char} {word before after : List Char}

theorem cutPattern_eq_none (h : separator ∉ after) : cutPattern (separator :: word) after = none := by
  induction after with
  | nil => rfl
  | cons c rest ih =>
    obtain ⟨hc, hrest⟩ := not_or.mp (mt List.mem_cons.mpr h)
    rw [cutPattern, ih hrest]
    simp [List.isPrefixOf, hc]

/-- An occurrence that starts in the first piece ends there. -/
theorem prefix_of_prefix_append (hword : separator ∉ word) {c : Char}
    (h : separator :: word <+: c :: before ++ separator :: after) :
    separator :: word <+: c :: before := by
  rcases List.prefix_or_prefix_of_prefix h (List.prefix_append _ _) with hinside | ⟨rest, hrest⟩
  · exact hinside
  · rw [← hrest, List.prefix_append_right_inj] at h
    cases rest with
    | nil => exact ⟨[], by simpa using hrest.symm⟩
    | cons first tail =>
      obtain ⟨rfl, -⟩ := List.cons_prefix_cons.mp h
      obtain ⟨-, htail⟩ := List.cons.inj hrest
      exact absurd (htail ▸ by simp) hword

/-- A first piece without the pattern is passed over. -/
theorem cutPattern_append (hword : separator ∉ word) (h : ¬separator :: word <:+: before)
    (after : List Char) :
    cutPattern (separator :: word) (before ++ separator :: after) =
      (cutPattern (separator :: word) (separator :: after)).map
        (fun parts => (before ++ parts.1, parts.2)) := by
  induction before with
  | nil => simp
  | cons c rest ih =>
    have hstart : (separator :: word).isPrefixOf (c :: (rest ++ separator :: after)) = false := by
      rw [Bool.eq_false_iff, ne_eq, List.isPrefixOf_iff_prefix]
      intro hoccurs
      exact h (prefix_of_prefix_append hword hoccurs).isInfix
    have hrest : ¬separator :: word <:+: rest := fun hoccurs =>
      h (hoccurs.trans (List.suffix_cons c rest).isInfix)
    rw [List.cons_append, cutPattern, hstart, ih hrest, if_neg (by simp), Option.map_map]
    rfl

theorem splitOnceStr_append {text path name : String} (hword : separator ∉ word)
    (hfree : ¬separator :: word <:+: path.toList)
    (htext : text.toList = path.toList ++ separator :: (word ++ name.toList)) :
    splitOnceStr text (String.ofList (separator :: word)) = some (path, name) := by
  have hhere : cutPattern (separator :: word) (separator :: (word ++ name.toList)) =
      some ([], name.toList) := by
    have hstart : (separator :: word).isPrefixOf (separator :: (word ++ name.toList)) = true :=
      List.isPrefixOf_iff_prefix.mpr ⟨name.toList, rfl⟩
    rw [cutPattern, if_pos hstart]
    simp
  rw [splitOnceStr, String.toList_ofList, htext, cutPattern_append hword hfree, hhere]
  simp

theorem splitOnceStr_eq_none {text path : String} (hword : separator ∉ word)
    (hfree : ¬separator :: word <:+: path.toList) (hafter : separator ∉ after)
    (hother : ¬word <+: after) (htext : text.toList = path.toList ++ separator :: after) :
    splitOnceStr text (String.ofList (separator :: word)) = none := by
  have hhere : cutPattern (separator :: word) (separator :: after) = none := by
    have hstart : (separator :: word).isPrefixOf (separator :: after) = false := by
      rw [Bool.eq_false_iff, ne_eq, List.isPrefixOf_iff_prefix, List.cons_prefix_cons]
      exact fun hoccurs => hother hoccurs.2
    rw [cutPattern, hstart, cutPattern_eq_none hafter]
    simp
  rw [splitOnceStr, String.toList_ofList, htext, cutPattern_append hword hfree, hhere]
  rfl

/-! ## Hexadecimal numbers -/

/-- What `{:x}` prints of a `u64`. -/
def lowerHex (value : UInt64) : String := String.ofList (Nat.toDigits 16 value.toNat)

theorem readHexDigits_append {acc : ℕ} (hacc : acc < 2 ^ 64) (front back : List Char) :
    readHexDigits acc (front ++ back) =
      (readHexDigits acc front).bind (fun value => readHexDigits value.toNat back) := by
  induction front generalizing acc with
  | nil =>
    simp only [List.nil_append, readHexDigits, Option.bind_some, UInt64.toNat_ofNat_of_lt' hacc]
  | cons c rest ih =>
    rw [List.cons_append, readHexDigits, readHexDigits]
    cases hdigit : hexDigit c with
    | none => rfl
    | some digit =>
      dsimp only
      split_ifs with hfits
      · exact ih hfits
      · rfl

theorem hexDigit_digitChar : ∀ {digit : ℕ}, digit < 16 → hexDigit digit.digitChar = some digit := by
  decide

theorem readHexDigits_toDigits {value : ℕ} (h : value < 2 ^ 64) :
    readHexDigits 0 (Nat.toDigits 16 value) = some (UInt64.ofNat value) := by
  induction value using Nat.strong_induction_on with
  | _ value ih =>
    by_cases hsmall : value < 16
    · rw [Nat.toDigits_of_lt_base hsmall]
      simp only [readHexDigits, hexDigit_digitChar hsmall, Nat.zero_mul, Nat.zero_add, if_pos h]
    · -- the last digit is appended to the digits of the quotient
      have hquotient : value / 16 < 2 ^ 64 := by omega
      rw [Nat.toDigits_of_base_le (by norm_num) (not_lt.mp hsmall),
        readHexDigits_append (by norm_num), ih (value / 16) (by omega) hquotient]
      have hsum : value / 16 * 16 + value % 16 = value := by omega
      simp only [Option.bind_some, readHexDigits, UInt64.toNat_ofNat_of_lt' hquotient,
        hexDigit_digitChar (Nat.mod_lt value (by norm_num)), hsum, if_pos h]

theorem hexDigit_isSome_of_readHexDigits {acc : ℕ} {digits : List Char} {value : UInt64}
    (h : readHexDigits acc digits = some value) : ∀ c ∈ digits, (hexDigit c).isSome = true := by
  induction digits generalizing acc with
  | nil => simp
  | cons c rest ih =>
    rw [readHexDigits] at h
    cases hdigit : hexDigit c with
    | none => simp [hdigit] at h
    | some digit =>
      simp only [hdigit, Option.ite_none_right_eq_some] at h
      exact List.forall_mem_cons.mpr ⟨by simp [hdigit], ih h.2⟩

theorem not_mem_lowerHex {c : Char} (h : hexDigit c = none) (value : UInt64) :
    c ∉ (lowerHex value).toList := by
  intro hmem
  rw [lowerHex, String.toList_ofList] at hmem
  simpa [h] using
    hexDigit_isSome_of_readHexDigits (readHexDigits_toDigits value.toNat_lt) c hmem

theorem fromStrRadix16_lowerHex (value : UInt64) : fromStrRadix16 (lowerHex value) = some value := by
  have hplus := not_mem_lowerHex (by decide : hexDigit '+' = none) value
  have hread := readHexDigits_toDigits value.toNat_lt
  rw [lowerHex, String.toList_ofList] at hplus
  rw [fromStrRadix16, lowerHex, String.toList_ofList]
  cases hdigits : Nat.toDigits 16 value.toNat with
  | nil => exact absurd hdigits Nat.toDigits_ne_nil
  | cons first rest =>
    rw [hdigits] at hplus hread
    have hfirst : first ≠ '+' := fun hplus' => hplus (hplus' ▸ List.mem_cons_self)
    simp [hfirst, hread]

end Xprobe.Foundation.Text
