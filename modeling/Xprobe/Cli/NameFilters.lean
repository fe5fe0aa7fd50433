import Xprobe.Foundation.Pattern
import Xprobe.Cli.ArmConfig

/-!
# Name patterns lowered to name filters

`bounded_kernel_name_filter` replaces a pattern by a test that the agent can make: the exact name, a
start, an end or a part of it. The pattern itself is a regular expression, and the test should
accept the same names.

What is assumed of the regular expressions is `RegexCrate`, for patterns made of anchors, `.*`,
characters and escapes. `regex_literal` takes every escape of a character that is no letter or digit
for the character. Two of them, `\<` and `\>`, are word boundaries instead.
-/

namespace Xprobe.Cli

open Foundation Foundation.Pattern Cupti
open Correlator (RegexEngine Regex anchoredLiteral regexLiteral regexLiteralChars isBoundedNameRegex
  boundedNameCandidates)

/-! ## The meaning of filters and patterns -/

/-- The names that a filter accepts. -/
def FilterHolds : CuptiNameFilter → String → Prop
  | .any, _ => True
  | .exact literal, name => name = literal
  | .prefixed literal, name => literal.toList <+: name.toList
  | .suffixed literal, name => literal.toList <:+ name.toList
  | .contains literal, name => literal.toList <:+: name.toList

/-- The regular expressions of the `regex` crate, on patterns without operators. -/
structure RegexCrate (engine : RegexEngine) (isWord : Char → Bool) : Prop where
  less_not_word : isWord '<' = false
  greater_not_word : isWord '>' = false
  matches_found : ∀ {pattern atoms regex}, parseAtoms pattern.toList = some atoms →
    engine pattern = .ok regex → ∀ name : String,
      (regex.isMatch name = true ↔ Found isWord atoms name.toList)
  rejects : ∀ {pattern atoms c}, parseAtoms pattern.toList = some atoms →
    Atom.badEscape c ∈ atoms → ∀ regex, engine pattern ≠ .ok regex

/-! ## Reading a literal -/

/-- What `regex_literal` has read: the items of the pattern, and the characters they are written
    with. -/
structure LiteralItems (inner literal : List Char) (items : List Atom) : Prop where
  chars : items.map Atom.char = literal
  kinds : ∀ item ∈ items, item.IsItem ∨ ∃ c, item = .badEscape c
  parses : ∀ rest, parseAtoms (inner ++ rest) = (parseAtoms rest).map (items ++ ·)
  escapes_eq : ∀ rest, escapes (inner ++ rest) = escapes inner ++ escapes rest
  wordStart : Atom.wordStart ∈ items ↔ '<' ∈ escapes inner
  wordEnd : Atom.wordEnd ∈ items ↔ '>' ∈ escapes inner

theorem literalItems_nil : LiteralItems [] [] [] where
  chars := rfl
  kinds := nofun
  parses rest := by simp
  escapes_eq _ := rfl
  wordStart := by simp [escapes]
  wordEnd := by simp [escapes]

/-- An escaped character that is no letter or digit. -/
theorem escapedAtom_cases {c : Char} (h : Text.isAsciiAlphanumeric c = false) :
    ∃ atom, escapedAtom c = some atom ∧ atom.char = c ∧
      (atom.IsItem ∨ ∃ c, atom = .badEscape c) ∧ (atom = .wordStart ↔ c = '<') ∧
      (atom = .wordEnd ↔ c = '>') := by
  rw [escapedAtom, h, if_neg Bool.false_ne_true]
  by_cases hless : c = '<'
  · exact ⟨.wordStart, by rw [if_pos hless], by rw [hless]; rfl, .inl trivial, by simp [hless],
      by simp [hless]⟩
  by_cases hgreater : c = '>'
  · exact ⟨.wordEnd, by rw [if_neg hless, if_pos hgreater], by rw [hgreater]; rfl, .inl trivial,
      by simp [hless], by simp [hgreater]⟩
  rw [if_neg hless, if_neg hgreater]
  by_cases hascii : c.toNat < 128
  · exact ⟨.literal c, by rw [if_pos hascii], rfl, .inl trivial, by simp [hless],
      by simp [hgreater]⟩
  · exact ⟨.badEscape c, by rw [if_neg hascii], rfl, .inr ⟨c, rfl⟩, by simp [hless],
      by simp [hgreater]⟩

variable {pattern : String} {items closing opening : List Atom}

variable {inner literal : List Char}

theorem LiteralItems.escaped (h : LiteralItems inner literal items) {c : Char}
    (hc : Text.isAsciiAlphanumeric c = false) :
    ∃ items', LiteralItems ('\\' :: c :: inner) (c :: literal) items' := by
  obtain ⟨atom, hatom, hchar, hitem, hstart, hend⟩ := escapedAtom_cases hc
  refine ⟨atom :: items, ?_, ?_, ?_, ?_, ?_, ?_⟩
  · rw [List.map_cons, hchar, h.chars]
  · intro item hmem
    rcases List.mem_cons.mp hmem with rfl | hrest
    · exact hitem
    · exact h.kinds item hrest
  · intro rest
    show parseAtoms ('\\' :: c :: (inner ++ rest)) = _
    rw [parseAtoms, hatom, Option.bind_some, h.parses rest, Option.map_map]
    rfl
  · intro rest
    show c :: escapes (inner ++ rest) = _
    rw [h.escapes_eq rest]
    rfl
  · rw [escapes, List.mem_cons, List.mem_cons, h.wordStart, eq_comm, hstart, @eq_comm _ c]
  · rw [escapes, List.mem_cons, List.mem_cons, h.wordEnd, eq_comm, hend, @eq_comm _ c]

theorem LiteralItems.plain (h : LiteralItems inner literal items) {c : Char}
    (hc : metaCharacters.contains c = false) :
    LiteralItems (c :: inner) (c :: literal) (.literal c :: items) := by
  have hback : c ≠ '\\' := ne_of_not_meta hc (by decide)
  have hescapes : ∀ rest, escapes (c :: rest) = escapes rest := by
    intro rest
    rw [escapes]
    intro _ _ hbackslash
    exact absurd hbackslash hback
  refine ⟨?_, ?_, ?_, ?_, ?_, ?_⟩
  · rw [List.map_cons, h.chars]
    rfl
  · intro item hmem
    rcases List.mem_cons.mp hmem with rfl | hrest
    · exact .inl trivial
    · exact h.kinds item hrest
  · intro rest
    show parseAtoms (c :: (inner ++ rest)) = _
    rw [parseAtoms_cons hc, h.parses rest, Option.map_map]
    rfl
  · intro rest
    show escapes (c :: (inner ++ rest)) = _
    rw [hescapes, hescapes, h.escapes_eq rest]
  · rw [hescapes, ← h.wordStart, List.mem_cons]
    simp
  · rw [hescapes, ← h.wordEnd, List.mem_cons]
    simp

theorem exists_literalItems (h : regexLiteralChars inner = some literal) :
    ∃ items, LiteralItems inner literal items := by
  fun_induction regexLiteralChars inner generalizing literal with
  | case1 =>
    cases h
    exact ⟨[], literalItems_nil⟩
  | case2 => cases h
  | case3 c rest halnum => cases h
  | case4 c rest halnum ih =>
    obtain ⟨literal', hliteral', rfl⟩ := Option.map_eq_some_iff.mp h
    obtain ⟨items, hitems⟩ := ih hliteral'
    exact hitems.escaped (Bool.eq_false_iff.mpr halnum)
  | case5 c rest hone htwo hmeta => cases h
  | case6 c rest hone htwo hmeta ih =>
    obtain ⟨literal', hliteral', rfl⟩ := Option.map_eq_some_iff.mp h
    obtain ⟨items, hitems⟩ := ih hliteral'
    -- a backslash is read with the character after it, so it is not here
    have hback : c ≠ '\\' := by
      intro hc
      cases rest with
      | nil => exact hone hc rfl
      | cons d rest' => exact htwo d rest' hc rfl
    refine ⟨_, hitems.plain ?_⟩
    rw [metaCharacters, List.contains_cons, Bool.eq_false_iff.mpr hmeta, Bool.or_false]
    exact beq_eq_false_iff_ne.mpr hback

/-! ## Candidates -/

/-- What a candidate of `bounded_kernel_name_filter` stands for: atoms before and after the literal,
    and a filter with the meaning of an occurrence between them. -/
structure CandidateMeaning (anchors : String × String) (filter : String → CuptiNameFilter)
    (opening closing : List Atom) : Prop where
  isOpening : Opening opening
  isClosing : Closing closing
  opens : ∀ rest, parseAtoms (anchors.1.toList ++ rest) = (parseAtoms rest).map (opening ++ ·)
  closes : parseAtoms anchors.2.toList = some closing
  opening_escapes : ∀ rest, escapes (anchors.1.toList ++ rest) = escapes rest
  closing_escapes : escapes anchors.2.toList = []
  filter_ne_any : ∀ literal, filter literal ≠ .any
  holds_iff : ∀ literal name : String,
    FilterHolds (filter literal) name ↔
      OccursBetween opening literal.toList closing name.toList

private theorem holds_exact_iff (literal name : String) : FilterHolds (.exact literal) name ↔
      OccursBetween [.textStart] literal.toList [.textEnd] name.toList := by
  constructor
  · intro h
    change name = literal at h
    subst h
    exact ⟨[], [], by simp, fun _ => rfl, fun _ => rfl⟩
  · rintro ⟨before, after, htext, hstart, hend⟩
    rw [hstart rfl, hend rfl] at htext
    show name = literal
    exact String.toList_injective (by simpa using htext)

private theorem holds_prefixed_iff (hclosing : closing ≠ [.textEnd]) (literal name : String) :
    FilterHolds (.prefixed literal) name ↔
      OccursBetween [.textStart] literal.toList closing name.toList := by
  constructor
  · rintro ⟨after, hafter⟩
    exact ⟨[], after, by rw [← hafter]; rfl, fun _ => rfl, fun h => absurd h hclosing⟩
  · rintro ⟨before, after, htext, hstart, -⟩
    rw [hstart rfl] at htext
    exact ⟨after, htext.symm⟩

private theorem holds_suffixed_iff (hopening : opening ≠ [.textStart]) (literal name : String) :
    FilterHolds (.suffixed literal) name ↔
      OccursBetween opening literal.toList [.textEnd] name.toList := by
  constructor
  · rintro ⟨before, hbefore⟩
    exact ⟨before, [], by rw [← hbefore, List.append_nil], fun h => absurd h hopening, fun _ => rfl⟩
  · rintro ⟨before, after, htext, -, hend⟩
    rw [hend rfl, List.append_nil] at htext
    exact ⟨before, htext.symm⟩

private theorem holds_contains_iff (hopening : opening ≠ [.textStart])
    (hclosing : closing ≠ [.textEnd]) (literal name : String) :
    FilterHolds (.contains literal) name ↔
      OccursBetween opening literal.toList closing name.toList := by
  constructor
  · rintro ⟨before, after, htext⟩
    exact ⟨before, after, htext.symm, fun h => absurd h hopening, fun h => absurd h hclosing⟩
  · rintro ⟨before, after, htext, -, -⟩
    exact ⟨before, after, htext.symm⟩

/-- Every candidate has a meaning. -/
theorem exists_candidateMeaning {anchors : String × String} {filter : String → CuptiNameFilter}
    (h : (anchors, filter) ∈ kernelNameCandidates) :
    ∃ opening closing, CandidateMeaning anchors filter opening closing := by
  have hnone : ∀ rest, parseAtoms ("".toList ++ rest) = (parseAtoms rest).map ([] ++ ·) := by
    intro rest
    simp
  have hstart : ∀ rest, parseAtoms ("^".toList ++ rest) =
      (parseAtoms rest).map ([.textStart] ++ ·) := fun _ => rfl
  have hany : ∀ rest, parseAtoms (".*".toList ++ rest) =
      (parseAtoms rest).map ([.anything] ++ ·) := fun _ => rfl
  simp only [kernelNameCandidates, List.mem_cons, Prod.mk.injEq, List.not_mem_nil, or_false] at h
  rcases h with ⟨rfl, rfl⟩ | ⟨rfl, rfl⟩ | ⟨rfl, rfl⟩ | ⟨rfl, rfl⟩ | ⟨rfl, rfl⟩ | ⟨rfl, rfl⟩ |
    ⟨rfl, rfl⟩ | ⟨rfl, rfl⟩
  · exact ⟨[.textStart], [.textEnd], .inr (.inl rfl), .inr (.inl rfl), hstart, rfl, fun _ => rfl,
      rfl, nofun, holds_exact_iff⟩
  · exact ⟨[.textStart], [.anything], .inr (.inl rfl), .inr (.inr rfl), hstart, rfl, fun _ => rfl,
      rfl, nofun, holds_prefixed_iff (by decide)⟩
  · exact ⟨[.anything], [.textEnd], .inr (.inr rfl), .inr (.inl rfl), hany, rfl, fun _ => rfl,
      rfl, nofun, holds_suffixed_iff (by decide)⟩
  · exact ⟨[.anything], [.anything], .inr (.inr rfl), .inr (.inr rfl), hany, rfl, fun _ => rfl,
      rfl, nofun, holds_contains_iff (by decide) (by decide)⟩
  · exact ⟨[.textStart], [], .inr (.inl rfl), .inl rfl, hstart, rfl, fun _ => rfl, rfl, nofun,
      holds_prefixed_iff (by decide)⟩
  · exact ⟨[], [.textEnd], .inl rfl, .inr (.inl rfl), hnone, rfl, fun _ => rfl, rfl, nofun,
      holds_suffixed_iff (by decide)⟩
  · exact ⟨[.anything], [], .inr (.inr rfl), .inl rfl, hany, rfl, fun _ => rfl, rfl, nofun,
      holds_contains_iff (by decide) (by decide)⟩
  · exact ⟨[], [], .inl rfl, .inl rfl, hnone, rfl, fun _ => rfl, rfl, nofun,
      holds_contains_iff (by decide) (by decide)⟩

/-! ## The lowered pattern -/

/-- The filter of one candidate, if its literal can be sent to the agent. -/
def candidateFilter (pattern : String)
    (candidate : (String × String) × (String → CuptiNameFilter)) : Option CuptiNameFilter := do
  let literal ← anchoredLiteral pattern candidate.1
  if literal = "" ∨ nameLength ≤ literal.utf8ByteSize then none
  else some (candidate.2 literal)

theorem boundedKernelNameFilter_eq (h : pattern ≠ ".*") : boundedKernelNameFilter pattern =
      (kernelNameCandidates.findSome? (candidateFilter pattern)).getD .any := by
  rw [boundedKernelNameFilter, if_neg h]
  rfl

private theorem candidateFilter_eq_some {candidate : (String × String) × (String → CuptiNameFilter)}
    {filter : CuptiNameFilter} (h : candidateFilter pattern candidate = some filter) :
    ∃ literal, anchoredLiteral pattern candidate.1 = some literal ∧ literal ≠ "" ∧
      literal.utf8ByteSize < nameLength ∧ filter = candidate.2 literal := by
  rw [candidateFilter] at h
  obtain ⟨literal, hliteral, h⟩ := Option.bind_eq_some_iff.mp h
  split_ifs at h with hbad
  cases h
  rw [not_or, not_le] at hbad
  exact ⟨literal, hliteral, hbad.1, hbad.2, rfl⟩

/-- A pattern is lowered to a test exactly when the correlator calls it bounded. -/
theorem boundedKernelNameFilter_ne_any_iff (pattern : String) :
    boundedKernelNameFilter pattern ≠ .any ↔ isBoundedNameRegex pattern = true := by
  by_cases hall : pattern = ".*"
  · subst hall
    decide
  rw [boundedKernelNameFilter_eq hall]
  constructor
  · intro h
    cases hfind : kernelNameCandidates.findSome? (candidateFilter pattern) with
    | none =>
      rw [hfind] at h
      exact absurd rfl h
    | some filter =>
      obtain ⟨candidate, hmem, hcandidate⟩ := List.exists_of_findSome?_eq_some hfind
      obtain ⟨literal, hliteral, hempty, hlength, -⟩ := candidateFilter_eq_some hcandidate
      refine List.any_eq_true.mpr ⟨candidate.1, List.mem_map_of_mem (f := Prod.fst) hmem, ?_⟩
      rw [hliteral]
      simp only [bne_iff_ne, ne_eq, hempty, not_false_eq_true, decide_eq_true_eq, Bool.and_eq_true]
      exact ⟨trivial, hlength⟩
  · intro h hany
    obtain ⟨anchors, hanchors, hbounded⟩ := List.any_eq_true.mp h
    obtain ⟨⟨anchors', filter⟩, hmem, rfl⟩ := List.mem_map.mp
      (show anchors ∈ kernelNameCandidates.map Prod.fst from hanchors)
    -- this candidate gives a filter, so the search finds one
    cases hliteral : anchoredLiteral pattern anchors' with
    | none => simp [hliteral] at hbounded
    | some literal =>
      simp only [hliteral, Bool.and_eq_true, bne_iff_ne, decide_eq_true_eq] at hbounded
      have hthis : candidateFilter pattern (anchors', filter) = some (filter literal) := by
        rw [candidateFilter, hliteral]
        exact if_neg (not_or.mpr ⟨hbounded.1, not_le.mpr hbounded.2⟩)
      cases hfind : kernelNameCandidates.findSome? (candidateFilter pattern) with
      | none =>
        rw [List.findSome?_eq_none_iff.mp hfind _ hmem] at hthis
        cases hthis
      | some found =>
        obtain ⟨candidate, hcandidate, heq⟩ := List.exists_of_findSome?_eq_some hfind
        obtain ⟨literal', -, -, -, rfl⟩ := candidateFilter_eq_some heq
        obtain ⟨opening, closing, hmeaning⟩ := exists_candidateMeaning hcandidate
        rw [hfind] at hany
        exact hmeaning.filter_ne_any literal' hany

/-- A pattern that is lowered: its atoms, and the test as an occurrence between its anchors. -/
structure Lowered (pattern : String) (opening items closing : List Atom) : Prop where
  isOpening : Opening opening
  isClosing : Closing closing
  parses : parseAtoms pattern.toList = some (opening ++ (items ++ closing))
  kinds : ∀ item ∈ items, item.IsItem ∨ ∃ c, item = .badEscape c
  wordStart : Atom.wordStart ∈ items ↔ '<' ∈ escapes pattern.toList
  wordEnd : Atom.wordEnd ∈ items ↔ '>' ∈ escapes pattern.toList
  holds_iff : ∀ name : String, FilterHolds (boundedKernelNameFilter pattern) name ↔
    OccursBetween opening (items.map Atom.char) closing name.toList

theorem exists_lowered (h : boundedKernelNameFilter pattern ≠ .any) :
    ∃ opening items closing, Lowered pattern opening items closing := by
  have hall : pattern ≠ ".*" := by
    rintro rfl
    exact h rfl
  rw [boundedKernelNameFilter_eq hall] at h
  cases hfind : kernelNameCandidates.findSome? (candidateFilter pattern) with
  | none =>
    rw [hfind] at h
    exact absurd rfl h
  | some filter =>
    obtain ⟨⟨anchors, make⟩, hmem, hcandidate⟩ := List.exists_of_findSome?_eq_some hfind
    obtain ⟨literal, hliteral, -, -, rfl⟩ := candidateFilter_eq_some hcandidate
    obtain ⟨opening, closing, hmeaning⟩ := exists_candidateMeaning hmem
    -- cut the pattern into its anchors and the part that was read as a literal
    rw [anchoredLiteral, Option.bind_eq_some_iff] at hliteral
    obtain ⟨inner, hinner, hregex⟩ := hliteral
    obtain ⟨rest, hrest, hsuffix⟩ := Option.bind_eq_some_iff.mp hinner
    obtain ⟨chars, hchars, rfl⟩ := Option.map_eq_some_iff.mp hregex
    obtain ⟨items, hitems⟩ := exists_literalItems hchars
    have htext : pattern.toList = anchors.1.toList ++ (inner.toList ++ anchors.2.toList) := by
      rw [Text.toList_of_stripPrefix hrest, Text.toList_of_stripSuffix hsuffix]
    have hescapes : escapes pattern.toList = escapes inner.toList := by
      rw [htext, hmeaning.opening_escapes, hitems.escapes_eq, hmeaning.closing_escapes,
        List.append_nil]
    have hfilter : boundedKernelNameFilter pattern = make (String.ofList chars) := by
      rw [boundedKernelNameFilter_eq hall, hfind]
      rfl
    refine ⟨opening, items, closing,
      { isOpening := hmeaning.isOpening
        isClosing := hmeaning.isClosing
        parses := ?_
        kinds := hitems.kinds
        wordStart := hescapes ▸ hitems.wordStart
        wordEnd := hescapes ▸ hitems.wordEnd
        holds_iff := ?_ }⟩
    · rw [htext, hmeaning.opens, hitems.parses, hmeaning.closes]
      rfl
    · intro name
      rw [hfilter, hmeaning.holds_iff, String.toList_ofList, hitems.chars]

/-! ## Filters and regular expressions -/

variable {regex : Regex}

/-- A pattern that the regular expressions accept has no escape that they reject. -/
theorem Lowered.isItem {engine : RegexEngine} {isWord : Char → Bool}
    (hcrate : RegexCrate engine isWord) (haccepted : engine pattern = .ok regex)
    (h : Lowered pattern opening items closing) : ∀ item ∈ items, item.IsItem := by
  intro item hitem
  rcases h.kinds item hitem with hkind | ⟨c, rfl⟩
  · exact hkind
  · have hmem : Atom.badEscape c ∈ opening ++ (items ++ closing) :=
      List.mem_append_right _ (List.mem_append_left _ hitem)
    exact absurd haccepted (hcrate.rejects h.parses hmem regex)

/-- The regular expression of a lowered pattern: its items, found between its anchors. -/
theorem Lowered.isMatch_iff {engine : RegexEngine} {isWord : Char → Bool}
    (hcrate : RegexCrate engine isWord) (haccepted : engine pattern = .ok regex)
    (h : Lowered pattern opening items closing) (name : String) :
    regex.isMatch name = true ↔ FoundBetween isWord opening items closing name.toList := by
  rw [hcrate.matches_found h.parses haccepted, found_iff_foundBetween h.isOpening h.isClosing]

/-- For every pattern that the regular expressions accept: it is lowered to a test exactly when
    `is_bounded_name_regex` accepts it, and the test accepts the names that the pattern matches,
    exactly when no lowered pattern escapes `<` or `>`. -/
theorem boundedKernelNameFilter_agrees_iff (engine : RegexEngine) (isWord : Char → Bool)
    (pattern : String) (regex : Regex) (hcrate : RegexCrate engine isWord)
    (haccepted : engine pattern = .ok regex) :
    ((boundedKernelNameFilter pattern ≠ .any ↔ isBoundedNameRegex pattern = true) ∧
      (boundedKernelNameFilter pattern ≠ .any → ∀ name,
        FilterHolds (boundedKernelNameFilter pattern) name ↔ regex.isMatch name = true)) ↔
    (boundedKernelNameFilter pattern ≠ .any →
      '<' ∉ escapes pattern.toList ∧ '>' ∉ escapes pattern.toList) := by
  rw [and_iff_right (boundedKernelNameFilter_ne_any_iff pattern)]
  refine imp_congr_right fun hlowered => ?_
  obtain ⟨opening, items, closing, h⟩ := exists_lowered hlowered
  have hitems := h.isItem hcrate haccepted
  constructor
  · intro hagrees
    -- a word boundary gives a name on which the two differ
    by_contra hescaped
    have hboundary : ∃ item ∈ items, item = .wordStart ∨ item = .wordEnd := by
      rw [← h.wordStart, ← h.wordEnd, not_and_or, not_not, not_not] at hescaped
      rcases hescaped with hstart | hend
      · exact ⟨.wordStart, hstart, .inl rfl⟩
      · exact ⟨.wordEnd, hend, .inr rfl⟩
    obtain ⟨text, htext⟩ := exists_ne_of_boundary hitems hboundary hcrate.less_not_word
      hcrate.greater_not_word opening closing
    apply htext
    have hname := hagrees (String.ofList text)
    rwa [h.holds_iff, h.isMatch_iff hcrate haccepted, String.toList_ofList] at hname
  · rintro ⟨hless, hgreater⟩ name
    have hliterals : ∀ item ∈ items, ∃ c, item = .literal c := by
      intro item hitem
      have hkind := hitems item hitem
      cases item with
      | literal c => exact ⟨c, rfl⟩
      | wordStart => exact absurd (h.wordStart.mp hitem) hless
      | wordEnd => exact absurd (h.wordEnd.mp hitem) hgreater
      | textStart => cases hkind
      | textEnd => cases hkind
      | anything => cases hkind
      | badEscape c => cases hkind
    rw [h.holds_iff, h.isMatch_iff hcrate haccepted, foundBetween_literals_iff hliterals]

/-! ## An engine for the fragment -/

def asciiWord (c : Char) : Bool := Text.isAsciiAlphanumeric c || c == '_'

def isBadEscape : Atom → Bool
  | .badEscape _ => true
  | _ => false

open Classical in
/-- The regular expression of some atoms. -/
noncomputable def regexOf (atoms : List Atom) : Regex :=
  { isMatch := fun name => decide (Found asciiWord atoms name.toList) }

open Classical in
theorem regexOf_isMatch {atoms : List Atom} {name : String} :
    (regexOf atoms).isMatch name = true ↔ Found asciiWord atoms name.toList :=
  decide_eq_true_iff

/-- An engine that knows the patterns without operators, and those only. -/
noncomputable def fragmentEngine : RegexEngine := fun pattern =>
  match parseAtoms pattern.toList with
  | none => .error "outside the fragment"
  | some atoms =>
    if atoms.any isBadEscape then .error "unrecognized escape sequence" else .ok (regexOf atoms)

theorem fragmentEngine_eq_ok {atoms : List Atom} (hparse : parseAtoms pattern.toList = some atoms)
    (h : fragmentEngine pattern = .ok regex) :
    atoms.any isBadEscape = false ∧ regex = regexOf atoms := by
  rw [fragmentEngine, hparse] at h
  cases hbad : atoms.any isBadEscape with
  | true => simp [hbad] at h
  | false =>
    simp only [hbad, Bool.false_eq_true, if_false, Except.ok.injEq] at h
    exact ⟨rfl, h.symm⟩

theorem regexCrate_fragmentEngine : RegexCrate fragmentEngine asciiWord where
  less_not_word := by decide
  greater_not_word := by decide
  matches_found := by
    intro pattern atoms regex hparse haccepted name
    rw [(fragmentEngine_eq_ok hparse haccepted).2]
    exact regexOf_isMatch
  rejects := by
    intro pattern atoms c hparse hmem regex haccepted
    have hnone := (fragmentEngine_eq_ok hparse haccepted).1
    rw [List.any_eq_false] at hnone
    exact hnone _ hmem rfl

/-- The atoms of `^gemm.*`. -/
def gemmStart : List Atom :=
  [.textStart, .literal 'g', .literal 'e', .literal 'm', .literal 'm', .anything]

theorem boundedKernelNameFilter_agrees_gemm :
    FilterHolds (.prefixed "gemm") "gemm_nt" ↔ (regexOf gemmStart).isMatch "gemm_nt" = true := by
  have hagrees := (boundedKernelNameFilter_agrees_iff fragmentEngine asciiWord "^gemm.*"
    (regexOf gemmStart) regexCrate_fragmentEngine rfl).mpr (fun _ => by decide)
  exact hagrees.2 (by decide) "gemm_nt"

/-- The atoms of `\<gemm`. -/
def gemmWord : List Atom := [.wordStart, .literal 'g', .literal 'e', .literal 'm', .literal 'm']

/-- `\<gemm` is lowered to a search for `<gemm`. It matches the kernel `gemm`, the search does
    not. -/
theorem wordBoundary_lowered_wrongly : fragmentEngine "\\<gemm" = .ok (regexOf gemmWord) ∧
      boundedKernelNameFilter "\\<gemm" = .contains "<gemm" ∧
      (regexOf gemmWord).isMatch "gemm" = true ∧
      ¬ FilterHolds (boundedKernelNameFilter "\\<gemm") "gemm" := by
  have hfilter : boundedKernelNameFilter "\\<gemm" = .contains "<gemm" := by decide
  refine ⟨rfl, hfilter, ?_, ?_⟩
  · -- the boundary matches before the first character
    have hfound : Found asciiWord gemmWord "gemm".toList :=
      ⟨[], "gemm".toList, [], rfl, [], "gemm".toList, rfl, ⟨rfl, rfl, by decide⟩,
        (acceptsAll_literals (by simp)).mpr rfl⟩
    exact regexOf_isMatch.mpr hfound
  · rw [hfilter]
    show ¬ "<gemm".toList <:+: "gemm".toList
    decide

end Xprobe.Cli
