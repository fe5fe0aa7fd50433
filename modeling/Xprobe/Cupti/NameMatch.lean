import Xprobe.Cupti.Filter

/-!
# Matching names

What `name_matches` decides about an observed name of any length. It reads at most
`XPROBE_CUPTI_NAME_LENGTH` bytes of the name. That is enough for an exact match and for a start; the
end of a longer name and a part behind the limit are out of its reach.
-/

namespace Xprobe.Cupti

open Foundation

/-! ## Occurrences -/

/-- A list occurs in another one at some offset. -/
theorem infix_iff_exists_offset {α : Type} {word text : List α} :
    word <:+: text ↔ ∃ offset, offset + word.length ≤ text.length ∧
      (text.drop offset).take word.length = word := by
  constructor
  · rintro ⟨before, after, rfl⟩
    refine ⟨before.length, by simp, ?_⟩
    rw [List.append_assoc, List.drop_left, List.take_left]
  · rintro ⟨offset, -, hword⟩
    rw [← hword]
    exact (List.take_prefix _ _).isInfix.trans (List.drop_suffix _ _).isInfix

/-! ## Terminated names -/

section Terminated

variable {name : List UInt8} (rest : List UInt8)

theorem boundedNameLength_terminated (h : 0 ∉ name) :
    boundedNameLength (name ++ 0 :: rest) = min nameLength name.length := by
  have hall : ∀ byte ∈ name.take nameLength, decide (byte ≠ 0) = true := by
    intro byte hbyte
    exact decide_eq_true (ne_of_mem_of_not_mem (List.mem_of_mem_take hbyte) h)
  rw [boundedNameLength, List.take_append, List.takeWhile_append_of_pos hall, List.length_append,
    List.length_take]
  -- what follows the name is its terminator, or nothing when the limit is reached before
  have hend : ((0 :: rest).take (nameLength - name.length)).takeWhile (· ≠ 0) = [] := by
    cases nameLength - name.length with
    | zero => rfl
    | succ n => rfl
  rw [hend]
  rfl

theorem drop_take_terminated {offset length : Nat} (h : offset + length ≤ name.length) :
    ((name ++ 0 :: rest).drop offset).take length = (name.drop offset).take length := by
  rw [List.drop_append_of_le_length (by omega),
    List.take_append_of_le_length (by rw [List.length_drop]; omega)]

end Terminated

/-- The name of a filter is what stands before its terminator. -/
theorem cString_eq_take (filter : Filter) :
    cString filter.name = filter.name.take (boundedNameLength filter.name) := by
  have hlength : boundedNameLength filter.name = (cString filter.name).length := by
    rw [boundedNameLength, List.take_of_length_le (by rw [filter.name_length])]
    rfl
  rw [hlength, cString]
  exact (List.prefix_iff_eq_take.mp (List.takeWhile_prefix _))

theorem length_cString_name (filter : Filter) :
    (cString filter.name).length = boundedNameLength filter.name := by
  rw [boundedNameLength, List.take_of_length_le (by rw [filter.name_length])]
  rfl

/-- `memcmp` of a filter name and a part of a terminated name that does not reach the terminator. -/
theorem sameBytes_iff {filter : Filter} {name : List UInt8} (rest : List UInt8) {offset : Nat}
    (h : offset + boundedNameLength filter.name ≤ name.length) :
    sameBytes filter.name ((name ++ 0 :: rest).drop offset) (boundedNameLength filter.name) = true ↔
      (name.drop offset).take (cString filter.name).length = cString filter.name := by
  rw [sameBytes, beq_iff_eq, drop_take_terminated rest h, ← cString_eq_take, length_cString_name,
    eq_comm]

/-! ## The four kinds of match -/

def NameMatch.Holds (kind : NameMatch) (word name : List UInt8) : Prop :=
  match kind with
  | .any => True
  | .exact => name = word
  | .prefixed => word <+: name
  | .suffixed => word <:+ name
  | .contains => word <:+: name

/-- The bytes that `name_matches` reads decide whether the name matches. -/
def NameMatch.Visible (kind : NameMatch) (word name : List UInt8) : Prop :=
  match kind with
  | .suffixed => word <:+ name → name.length < nameLength
  | .contains => word <:+: name → word <:+: name.take nameLength
  | _ => True

section Kinds

variable {filter : Filter} {name : List UInt8} (rest : List UInt8)

theorem nameMatches_exact (hkind : filter.nameMatch = NameMatch.exact.code)
    (hfilter : boundedNameLength filter.name < nameLength) (hname : 0 ∉ name) :
    nameMatches filter (some (name ++ 0 :: rest)) = true ↔ name = cString filter.name := by
  have hany : NameMatch.exact.code ≠ NameMatch.any.code := by decide
  simp only [nameMatches, Option.getD_some, hkind, hany, hfilter.ne, if_false, if_true,
    boundedNameLength_terminated rest hname, Bool.and_eq_true, decide_eq_true_eq, beq_iff_eq]
  constructor
  · rintro ⟨⟨hshort, hlength⟩, hsame⟩
    have hwhole := (@sameBytes_iff filter name rest 0 (by omega)).mp hsame
    rw [List.drop_zero, length_cString_name, List.take_of_length_le (by omega)] at hwhole
    exact hwhole
  · intro heq
    have hlength : name.length = boundedNameLength filter.name := by rw [heq, length_cString_name]
    refine ⟨⟨by omega, by omega⟩, ?_⟩
    refine (@sameBytes_iff filter name rest 0 (by omega)).mpr ?_
    rw [List.drop_zero, ← heq, List.take_length]

theorem nameMatches_prefixed (hkind : filter.nameMatch = NameMatch.prefixed.code)
    (hfilter : boundedNameLength filter.name < nameLength) (hname : 0 ∉ name) :
    nameMatches filter (some (name ++ 0 :: rest)) = true ↔ cString filter.name <+: name := by
  have hany : NameMatch.prefixed.code ≠ NameMatch.any.code := by decide
  have hexact : NameMatch.prefixed.code ≠ NameMatch.exact.code := by decide
  simp only [nameMatches, Option.getD_some, hkind, hany, hexact, hfilter.ne, if_false, if_true,
    boundedNameLength_terminated rest hname, Bool.and_eq_true, decide_eq_true_eq]
  constructor
  · rintro ⟨hlength, hsame⟩
    have hstart := (@sameBytes_iff filter name rest 0 (by omega)).mp hsame
    rw [List.prefix_iff_eq_take]
    exact hstart.symm
  · intro hstart
    have hlength := hstart.length_le
    rw [length_cString_name] at hlength
    refine ⟨by omega, (@sameBytes_iff filter name rest 0 (by omega)).mpr ?_⟩
    exact (List.prefix_iff_eq_take.mp hstart).symm

theorem nameMatches_suffixed (hkind : filter.nameMatch = NameMatch.suffixed.code)
    (hfilter : boundedNameLength filter.name < nameLength) (hname : 0 ∉ name) :
    nameMatches filter (some (name ++ 0 :: rest)) = true ↔
      name.length < nameLength ∧ cString filter.name <:+ name := by
  have hany : NameMatch.suffixed.code ≠ NameMatch.any.code := by decide
  have hexact : NameMatch.suffixed.code ≠ NameMatch.exact.code := by decide
  have hprefixed : NameMatch.suffixed.code ≠ NameMatch.prefixed.code := by decide
  simp only [nameMatches, Option.getD_some, hkind, hany, hexact, hprefixed, hfilter.ne, if_false,
    if_true, boundedNameLength_terminated rest hname, Bool.and_eq_true, decide_eq_true_eq]
  constructor
  · rintro ⟨⟨hshort, hlength⟩, hsame⟩
    have hmin : min nameLength name.length = name.length := by omega
    rw [hmin] at hsame hlength
    have hend := (@sameBytes_iff filter name rest _ (by omega)).mp hsame
    refine ⟨by omega, List.suffix_iff_eq_drop.mpr ?_⟩
    rw [length_cString_name] at hend ⊢
    rw [List.take_of_length_le (by rw [List.length_drop]; omega)] at hend
    exact hend.symm
  · rintro ⟨hshort, hend⟩
    have hlength := hend.length_le
    rw [length_cString_name] at hlength
    have hmin : min nameLength name.length = name.length := by omega
    rw [hmin]
    refine ⟨⟨hshort, hlength⟩, (@sameBytes_iff filter name rest _ (by omega)).mpr ?_⟩
    have hdrop := List.suffix_iff_eq_drop.mp hend
    rw [length_cString_name] at hdrop ⊢
    rw [List.take_of_length_le (by rw [List.length_drop]; omega)]
    exact hdrop.symm

theorem nameMatches_contains (hkind : filter.nameMatch = NameMatch.contains.code)
    (hfilter : boundedNameLength filter.name < nameLength) (hname : 0 ∉ name) :
    nameMatches filter (some (name ++ 0 :: rest)) = true ↔
      cString filter.name <:+: name.take nameLength := by
  have hany : NameMatch.contains.code ≠ NameMatch.any.code := by decide
  have hexact : NameMatch.contains.code ≠ NameMatch.exact.code := by decide
  have hprefixed : NameMatch.contains.code ≠ NameMatch.prefixed.code := by decide
  have hsuffixed : NameMatch.contains.code ≠ NameMatch.suffixed.code := by decide
  -- inside the first bytes the two texts are the same
  have htake : ∀ {offset}, offset + boundedNameLength filter.name ≤ min nameLength name.length →
      ((name.take nameLength).drop offset).take (cString filter.name).length =
        (name.drop offset).take (cString filter.name).length := by
    intro offset hoffset
    rw [List.drop_take, List.take_take, length_cString_name, min_eq_left (by omega)]
  simp only [nameMatches, Option.getD_some, hkind, hany, hexact, hprefixed, hsuffixed, hfilter.ne,
    if_false, if_true, boundedNameLength_terminated rest hname, Bool.or_eq_true, beq_iff_eq,
    List.any_eq_true, List.mem_range, infix_iff_exists_offset, List.length_take]
  constructor
  · rintro (hempty | ⟨offset, hoffset, hsame⟩)
    · exact ⟨0, by rw [length_cString_name]; omega, by
        rw [← length_cString_name, List.length_eq_zero_iff] at hempty
        rw [hempty]
        rfl⟩
    · refine ⟨offset, by rw [length_cString_name]; omega, ?_⟩
      rw [htake (by omega)]
      exact (sameBytes_iff rest (by omega)).mp hsame
  · rintro ⟨offset, hoffset, hword⟩
    rw [length_cString_name] at hoffset
    refine .inr ⟨offset, by omega, (sameBytes_iff rest (by omega)).mpr ?_⟩
    rw [← htake hoffset]
    exact hword

end Kinds

/-- For a filter name below the limit and a terminated name of any length, `name_matches` decides
    the match exactly when the bytes that it reads do. -/
theorem nameMatches_decides_iff (filter : Filter) (kind : NameMatch) (name rest : List UInt8)
    (hkind : filter.nameMatch = kind.code) (hfilter : boundedNameLength filter.name < nameLength)
    (hname : 0 ∉ name) :
    (nameMatches filter (some (name ++ 0 :: rest)) = true ↔
        kind.Holds (cString filter.name) name) ↔
      kind.Visible (cString filter.name) name := by
  cases kind with
  | any => simp [nameMatches, hkind, NameMatch.Holds, NameMatch.Visible]
  | exact =>
    rw [nameMatches_exact rest hkind hfilter hname]
    simp [NameMatch.Holds, NameMatch.Visible]
  | prefixed =>
    rw [nameMatches_prefixed rest hkind hfilter hname]
    simp [NameMatch.Holds, NameMatch.Visible]
  | suffixed =>
    rw [nameMatches_suffixed rest hkind hfilter hname, NameMatch.Holds, NameMatch.Visible]
    constructor
    · exact fun h hend => (h.mpr hend).1
    · exact fun h => ⟨fun hboth => hboth.2, fun hend => ⟨h hend, hend⟩⟩
  | contains =>
    rw [nameMatches_contains rest hkind hfilter hname, NameMatch.Holds, NameMatch.Visible]
    constructor
    · exact fun h => h.mpr
    · exact fun h => ⟨fun hpart => hpart.trans (List.take_prefix _ _).isInfix, h⟩

/-- A filter accepts a terminated name when its name matches and the bytes that it reads show that.
    The name of a filter is terminated too, unless it takes every name. -/
theorem nameMatches_iff {filter : Filter} {name : List UInt8} (rest : List UInt8)
    (hname : 0 ∉ name) :
    nameMatches filter (some (name ++ 0 :: rest)) = true ↔
      ∃ kind : NameMatch, filter.nameMatch = kind.code ∧
        (kind = .any ∨ boundedNameLength filter.name < nameLength) ∧
        kind.Holds (cString filter.name) name ∧ kind.Visible (cString filter.name) name := by
  constructor
  · intro h
    -- the order of the source: any name, a filter without a terminator, then the other codes
    by_cases hany : filter.nameMatch = NameMatch.any.code
    · exact ⟨.any, hany, .inl rfl, trivial, trivial⟩
    by_cases hlong : boundedNameLength filter.name = nameLength
    · simp [nameMatches, hany, hlong] at h
    have hfilter : boundedNameLength filter.name < nameLength := by
      refine lt_of_le_of_ne ?_ hlong
      exact (List.takeWhile_prefix _).length_le.trans (List.length_take_le _ _)
    by_cases hexact : filter.nameMatch = NameMatch.exact.code
    · have hholds := (nameMatches_exact rest hexact hfilter hname).mp h
      exact ⟨.exact, hexact, .inr hfilter, hholds, trivial⟩
    by_cases hprefixed : filter.nameMatch = NameMatch.prefixed.code
    · have hholds := (nameMatches_prefixed rest hprefixed hfilter hname).mp h
      exact ⟨.prefixed, hprefixed, .inr hfilter, hholds, trivial⟩
    by_cases hsuffixed : filter.nameMatch = NameMatch.suffixed.code
    · obtain ⟨hshort, hholds⟩ := (nameMatches_suffixed rest hsuffixed hfilter hname).mp h
      exact ⟨.suffixed, hsuffixed, .inr hfilter, hholds, fun _ => hshort⟩
    by_cases hcontains : filter.nameMatch = NameMatch.contains.code
    · have hpart := (nameMatches_contains rest hcontains hfilter hname).mp h
      exact ⟨.contains, hcontains, .inr hfilter, hpart.trans (List.take_prefix _ _).isInfix,
        fun _ => hpart⟩
    · -- any other code accepts nothing
      simp [nameMatches, hany, hlong, hexact, hprefixed, hsuffixed, hcontains] at h
  · rintro ⟨kind, hkind, hany | hfilter, hholds, hvisible⟩
    · simp [nameMatches, hkind, hany]
    cases kind with
    | any => simp [nameMatches, hkind]
    | exact => exact (nameMatches_exact rest hkind hfilter hname).mpr hholds
    | prefixed => exact (nameMatches_prefixed rest hkind hfilter hname).mpr hholds
    | suffixed =>
      exact (nameMatches_suffixed rest hkind hfilter hname).mpr ⟨hvisible hholds, hholds⟩
    | contains => exact (nameMatches_contains rest hkind hfilter hname).mpr (hvisible hholds)

theorem NameMatch.code_injective : Function.Injective NameMatch.code := by
  intro kind kind' h
  cases kind <;> cases kind' <;> first | rfl | exact absurd h (by decide)

/-- The whole of a short name is read. -/
theorem NameMatch.visible_of_short (kind : NameMatch) (word : List UInt8) {name : List UInt8}
    (h : name.length < nameLength) : kind.Visible word name := by
  cases kind with
  | suffixed => exact fun _ => h
  | contains => exact fun hpart => by rwa [List.take_of_length_le h.le]
  | _ => exact trivial

/-! ## A long name -/

def kernelNameFilter (kind : NameMatch) (word : List UInt8) (h : word.length ≤ nameLength) :
    Filter :=
  { recordKind := RecordKind.gpuKernelStart.code, apiDomain := 0, memcpyKind := 0
    nameMatch := kind.code, name := word ++ List.replicate (nameLength - word.length) 0
    name_length := length_paddedName h }

/-- The name `gemm_nt` ends with `_nt`. -/
theorem nameMatches_decides_gemm :
    nameMatches (kernelNameFilter .suffixed (utf8Bytes "_nt") (by decide))
        (some (utf8Bytes "gemm_nt" ++ 0 :: [])) = true ↔
      NameMatch.suffixed.Holds (utf8Bytes "_nt") (utf8Bytes "gemm_nt") :=
  (nameMatches_decides_iff (kernelNameFilter .suffixed (utf8Bytes "_nt") (by decide)) .suffixed
    (utf8Bytes "gemm_nt") [] rfl (by decide) (by decide)).mpr (fun _ => by decide)

/-- A kernel name of 131 bytes that ends with `_nt`. -/
def longName : List UInt8 := List.replicate 128 97 ++ utf8Bytes "_nt"

/-- Neither a filter for names that end with `_nt` nor one for names that contain it accepts the
    long name. -/
theorem longName_unmatched : NameMatch.suffixed.Holds (utf8Bytes "_nt") longName ∧
      nameMatches (kernelNameFilter .suffixed (utf8Bytes "_nt") (by decide))
        (some (longName ++ [0])) = false ∧
      NameMatch.contains.Holds (utf8Bytes "_nt") longName ∧
      nameMatches (kernelNameFilter .contains (utf8Bytes "_nt") (by decide))
        (some (longName ++ [0])) = false := by
  have hend : utf8Bytes "_nt" <:+ longName := ⟨List.replicate 128 97, rfl⟩
  exact ⟨hend, by decide +kernel, hend.isInfix, by decide +kernel⟩

end Xprobe.Cupti
