import Xprobe.Foundation.Text

/-!
# Patterns without operators

A fragment of regular expressions: concatenations of anchors, `.*`, characters and escapes. Patterns
are read as text and have a meaning of their own, a relation between the text before a match, the
match and the text after it.

The main results compare such a pattern with the plain occurrence of a text. Between anchors, a
sequence of characters occurs where its text does; a sequence that holds a word boundary never has
the meaning of any plain text, whatever the anchors.
-/

namespace Xprobe.Foundation.Pattern

/-! ## Atoms -/

/-- `^`, `$`, `.*`, a character, `\<`, `\>`, or an escape that is not allowed. -/
inductive Atom where
  | textStart
  | textEnd
  | anything
  | literal (c : Char)
  | wordStart
  | wordEnd
  | badEscape (c : Char)
  deriving Repr, DecidableEq

def metaCharacters : List Char := '\\' :: ".+*?()|[]\x7b\x7d^$".toList

/-- The atom of an escaped character. Letters and digits are outside the fragment; of the others,
    only those in ASCII may be escaped. -/
def escapedAtom (c : Char) : Option Atom :=
  if Text.isAsciiAlphanumeric c then none
  else if c = '<' then some .wordStart
  else if c = '>' then some .wordEnd
  else if c.toNat < 128 then some (.literal c)
  else some (.badEscape c)

/-- The atoms of a pattern in the fragment. -/
def parseAtoms : List Char → Option (List Atom)
  | [] => some []
  | '^' :: rest => (parseAtoms rest).map (.textStart :: ·)
  | '$' :: rest => (parseAtoms rest).map (.textEnd :: ·)
  | '.' :: '*' :: rest => (parseAtoms rest).map (.anything :: ·)
  | '\\' :: c :: rest =>
    (escapedAtom c).bind (fun atom => (parseAtoms rest).map (atom :: ·))
  | c :: rest =>
    if metaCharacters.contains c then none else (parseAtoms rest).map (.literal c :: ·)

def escapes : List Char → List Char
  | '\\' :: c :: rest => c :: escapes rest
  | _ :: rest => escapes rest
  | [] => []

variable {c : Char}

theorem ne_of_not_meta {d : Char} (hc : metaCharacters.contains c = false)
    (hd : d ∈ metaCharacters) : c ≠ d := by
  rintro rfl
  rw [List.contains_iff_mem.mpr hd] at hc
  cases hc

/-- A character without a meaning of its own stands for itself. -/
theorem parseAtoms_cons (hc : metaCharacters.contains c = false) (rest : List Char) :
    parseAtoms (c :: rest) = (parseAtoms rest).map (.literal c :: ·) := by
  rw [parseAtoms, hc, if_neg Bool.false_ne_true]
  · exact ne_of_not_meta hc (by decide)
  · exact ne_of_not_meta hc (by decide)
  · intro _ hdot
    exact absurd hdot (ne_of_not_meta hc (by decide))
  · intro _ _ hbackslash
    exact absurd hbackslash (ne_of_not_meta hc (by decide))

/-! ## Escaping -/

def escapeWith (special text : List Char) : List Char :=
  text.flatMap (fun c => if special.contains c then ['\\', c] else [c])

/-- Characters that stand for themselves when they are escaped, among them all those with a meaning of
    their own. -/
structure Escapable (special : List Char) : Prop where
  covers : ∀ c ∈ metaCharacters, c ∈ special
  not_alphanumeric : ∀ c ∈ special, Text.isAsciiAlphanumeric c = false
  ascii : ∀ c ∈ special, c.toNat < 128
  not_less : '<' ∉ special
  not_greater : '>' ∉ special

theorem escapeWith_cons (special : List Char) (c : Char) (text : List Char) :
    escapeWith special (c :: text) =
      (if special.contains c then ['\\', c] else [c]) ++ escapeWith special text := rfl

variable {special : List Char}

theorem Escapable.escapedAtom (h : Escapable special) (hc : c ∈ special) :
    escapedAtom c = some (.literal c) := by
  have hless : c ≠ '<' := ne_of_mem_of_not_mem hc h.not_less
  have hgreater : c ≠ '>' := ne_of_mem_of_not_mem hc h.not_greater
  rw [Pattern.escapedAtom, h.not_alphanumeric c hc, if_neg Bool.false_ne_true, if_neg hless,
    if_neg hgreater, if_pos (h.ascii c hc)]

theorem Escapable.not_meta (h : Escapable special) (hc : special.contains c = false) :
    metaCharacters.contains c = false := by
  rw [← Bool.not_eq_true, List.contains_iff_mem] at hc ⊢
  exact fun hmeta => hc (h.covers c hmeta)

/-- Escaping at most doubles the size of a text. -/
theorem utf8Len_escapeWith_le (special text : List Char) :
    String.utf8Len (escapeWith special text) ≤ 2 * String.utf8Len text := by
  induction text with
  | nil => rfl
  | cons c text ih =>
    have hsize := Char.utf8Size_pos c
    have hback : '\\'.utf8Size = 1 := rfl
    rw [escapeWith_cons]
    split_ifs with hc
    · simp only [List.cons_append, List.nil_append, String.utf8Len_cons]
      omega
    · simp only [List.cons_append, List.nil_append, String.utf8Len_cons]
      omega

/-- An escaped text is read as its characters. -/
theorem parseAtoms_escapeWith (h : Escapable special) (text rest : List Char) :
    parseAtoms (escapeWith special text ++ rest) =
      (parseAtoms rest).map (text.map Atom.literal ++ ·) := by
  induction text with
  | nil => simp [escapeWith]
  | cons c text ih =>
    rw [escapeWith_cons, List.append_assoc]
    cases hc : special.contains c with
    | true =>
      show parseAtoms ('\\' :: c :: (escapeWith special text ++ rest)) = _
      rw [parseAtoms, h.escapedAtom (List.contains_iff_mem.mp hc), Option.bind_some, ih,
        Option.map_map]
      rfl
    | false =>
      show parseAtoms (c :: (escapeWith special text ++ rest)) = _
      rw [parseAtoms_cons (h.not_meta hc), ih, Option.map_map]
      rfl

/-! ## Meaning -/

section Meaning

variable (isWord : Char → Bool)

def endsInWord (text : List Char) : Bool := text.getLast?.any isWord

def startsInWord (text : List Char) : Bool := text.head?.any isWord

def Atom.Accepts (atom : Atom) (before matched after : List Char) : Prop :=
  match atom with
  | .textStart => matched = [] ∧ before = []
  | .textEnd => matched = [] ∧ after = []
  | .anything => '\n' ∉ matched
  | .literal c => matched = [c]
  | .wordStart => matched = [] ∧ endsInWord isWord before = false ∧ startsInWord isWord after = true
  | .wordEnd => matched = [] ∧ endsInWord isWord before = true ∧ startsInWord isWord after = false
  | .badEscape _ => False

/-- What a concatenation of atoms matches. -/
def AcceptsAll : List Atom → List Char → List Char → List Char → Prop
  | [], _, matched, _ => matched = []
  | atom :: rest, before, matched, after =>
    ∃ first others, matched = first ++ others ∧
      atom.Accepts isWord before first (others ++ after) ∧
      AcceptsAll rest (before ++ first) others after

/-- The pattern matches somewhere in the text. -/
def Found (atoms : List Atom) (text : List Char) : Prop :=
  ∃ before matched after, text = before ++ matched ++ after ∧
    AcceptsAll isWord atoms before matched after

end Meaning

variable {isWord : Char → Bool}

variable {before matched after : List Char}

theorem acceptsAll_append {xs ys : List Atom} : AcceptsAll isWord (xs ++ ys) before matched after ↔
      ∃ first others, matched = first ++ others ∧
        AcceptsAll isWord xs before first (others ++ after) ∧
        AcceptsAll isWord ys (before ++ first) others after := by
  induction xs generalizing before matched with
  | nil =>
    constructor
    · intro h
      exact ⟨[], matched, rfl, rfl, by rwa [List.append_nil]⟩
    · rintro ⟨first, others, rfl, hfirst, hothers⟩
      cases hfirst
      rwa [List.append_nil] at hothers
  | cons atom rest ih =>
    constructor
    · rintro ⟨head, tail, rfl, hhead, htail⟩
      obtain ⟨first, others, rfl, hfirst, hothers⟩ := ih.mp htail
      refine ⟨head ++ first, others, by rw [List.append_assoc], ⟨head, first, rfl, ?_, hfirst⟩, ?_⟩
      · rwa [← List.append_assoc]
      · rwa [← List.append_assoc]
    · rintro ⟨first, others, rfl, ⟨head, tail, rfl, hhead, htail⟩, hothers⟩
      refine ⟨head, tail ++ others, by rw [List.append_assoc], ?_, ih.mpr
        ⟨tail, others, rfl, htail, ?_⟩⟩
      · rwa [List.append_assoc]
      · rwa [List.append_assoc]

@[simp] theorem acceptsAll_singleton {atom : Atom} :
    AcceptsAll isWord [atom] before matched after ↔ atom.Accepts isWord before matched after := by
  constructor
  · rintro ⟨first, others, rfl, hatom, hothers⟩
    cases hothers
    simpa using hatom
  · intro h
    exact ⟨matched, [], by simp, by simpa using h, rfl⟩

/-! ## Anchors -/

/-- What may stand before the characters: nothing, `^` or `.*`. -/
def Opening (atoms : List Atom) : Prop := atoms = [] ∨ atoms = [.textStart] ∨ atoms = [.anything]

/-- What may stand after the characters: nothing, `$` or `.*`. -/
def Closing (atoms : List Atom) : Prop := atoms = [] ∨ atoms = [.textEnd] ∨ atoms = [.anything]

/-- Atoms that match within a text, at its start or its end if they are anchored there. -/
def FoundBetween (isWord : Char → Bool) (opening atoms closing : List Atom) (text : List Char) :
    Prop :=
  ∃ before matched after, text = before ++ matched ++ after ∧
    AcceptsAll isWord atoms before matched after ∧
    (opening = [.textStart] → before = []) ∧ (closing = [.textEnd] → after = [])

variable {opening : List Atom}

private theorem opening_at_start {first : List Char}
    (hfirst : AcceptsAll isWord opening before first after) (hstart : opening = [.textStart]) :
    before ++ first = [] := by
  subst hstart
  obtain ⟨rfl, rfl⟩ := acceptsAll_singleton.mp hfirst
  rfl

/-- Nothing, an anchor where it holds, and `.*` all match nothing. -/
private theorem acceptsAll_nil {atoms : List Atom} {anchor : Atom}
    (h : atoms = [] ∨ atoms = [anchor] ∨ atoms = [.anything])
    (hanchor : atoms = [anchor] → anchor.Accepts isWord before [] after) :
    AcceptsAll isWord atoms before [] after := by
  rcases h with rfl | rfl | rfl
  · rfl
  · exact acceptsAll_singleton.mpr (hanchor rfl)
  · exact acceptsAll_singleton.mpr List.not_mem_nil

variable {closing : List Atom}

private theorem closing_at_end {last : List Char}
    (hlast : AcceptsAll isWord closing before last after) (hend : closing = [.textEnd]) :
    last ++ after = [] := by
  subst hend
  obtain ⟨rfl, rfl⟩ := acceptsAll_singleton.mp hlast
  rfl

/-- A search does not need what `.*` matches at the ends of a pattern: it can always be nothing. -/
theorem found_iff_foundBetween (hopening : Opening opening) (hclosing : Closing closing)
    (atoms : List Atom) (text : List Char) :
    Found isWord (opening ++ (atoms ++ closing)) text ↔
      FoundBetween isWord opening atoms closing text := by
  constructor
  · rintro ⟨before, matched, after, rfl, h⟩
    obtain ⟨first, rest, rfl, hfirst, hrest⟩ := acceptsAll_append.mp h
    obtain ⟨middle, last, rfl, hmiddle, hlast⟩ := acceptsAll_append.mp hrest
    exact ⟨before ++ first, middle, last ++ after, by simp, hmiddle, opening_at_start hfirst,
      closing_at_end hlast⟩
  · rintro ⟨before, matched, after, rfl, hmatched, hstart, hend⟩
    refine ⟨before, matched, after, rfl, acceptsAll_append.mpr ⟨[], matched, rfl,
      acceptsAll_nil hopening (⟨rfl, hstart ·⟩), acceptsAll_append.mpr ⟨matched, [], by simp, ?_, ?_⟩⟩⟩
    · simpa using hmatched
    · exact acceptsAll_nil hclosing (⟨rfl, hend ·⟩)

/-! ## Characters -/

/-- A character, or a word boundary. -/
def Atom.IsItem : Atom → Prop
  | .literal _ | .wordStart | .wordEnd => True
  | _ => False

/-- The character that an item is written with. -/
def Atom.char : Atom → Char
  | .literal c => c
  | .wordStart => '<'
  | .wordEnd => '>'
  | .badEscape c => c
  | _ => '.'

/-- The character that an item matches, if it matches one. -/
def Atom.consumed : Atom → Option Char
  | .literal c => some c
  | _ => none

/-- A text occurs in another one, at its start or its end if it is anchored there. -/
def OccursBetween (opening : List Atom) (word : List Char) (closing : List Atom)
    (text : List Char) : Prop :=
  ∃ before after, text = before ++ word ++ after ∧
    (opening = [.textStart] → before = []) ∧ (closing = [.textEnd] → after = [])

variable {items : List Atom}

theorem acceptsAll_literals (h : ∀ item ∈ items, ∃ c, item = .literal c) :
    AcceptsAll isWord items before matched after ↔ matched = items.map Atom.char := by
  induction items generalizing before matched with
  | nil => rfl
  | cons item rest ih =>
    obtain ⟨c, rfl⟩ := h item List.mem_cons_self
    have hrest := fun {b m} => @ih b m (fun item' hitem' => h item' (List.mem_cons_of_mem _ hitem'))
    constructor
    · rintro ⟨first, others, rfl, hfirst, hothers⟩
      rw [hrest.mp hothers, (hfirst : first = [c])]
      rfl
    · rintro rfl
      exact ⟨[c], rest.map Atom.char, rfl, rfl, hrest.mpr rfl⟩

/-- Between anchors, characters are found where their text occurs. -/
theorem foundBetween_literals_iff (h : ∀ item ∈ items, ∃ c, item = .literal c)
    (opening closing : List Atom) (text : List Char) :
    FoundBetween isWord opening items closing text ↔
      OccursBetween opening (items.map Atom.char) closing text := by
  constructor
  · rintro ⟨before, matched, after, htext, hmatched, hanchors⟩
    rw [acceptsAll_literals h] at hmatched
    subst hmatched
    exact ⟨before, after, htext, hanchors⟩
  · rintro ⟨before, after, htext, hanchors⟩
    exact ⟨before, _, after, htext, (acceptsAll_literals h).mpr rfl, hanchors⟩

/-! ## Word boundaries -/

/-- Items match exactly the characters among them. -/
theorem matched_of_acceptsAll (h : ∀ item ∈ items, item.IsItem)
    (haccepts : AcceptsAll isWord items before matched after) :
    matched = items.filterMap Atom.consumed := by
  induction items generalizing before matched with
  | nil => exact haccepts
  | cons item rest ih =>
    obtain ⟨first, others, rfl, hfirst, hothers⟩ := haccepts
    have hrest := ih (fun item' hitem' => h item' (List.mem_cons_of_mem _ hitem')) hothers
    have hitem := h item List.mem_cons_self
    rw [hrest]
    cases item with
    | literal c => rw [(hfirst : first = [c])]; rfl
    | wordStart => rw [hfirst.1]; rfl
    | wordEnd => rw [hfirst.1]; rfl
    | textStart => cases hitem
    | textEnd => cases hitem
    | anything => cases hitem
    | badEscape c => cases hitem

theorem endsInWord_append_congr {before' : List Char}
    (h : endsInWord isWord before = endsInWord isWord before') (more : List Char) :
    endsInWord isWord (before ++ more) = endsInWord isWord (before' ++ more) := by
  rcases List.eq_nil_or_concat more with rfl | ⟨front, last, rfl⟩
  · simpa using h
  · simp [endsInWord, ← List.append_assoc]

theorem startsInWord_append_congr {after' : List Char}
    (h : startsInWord isWord after = startsInWord isWord after') (more : List Char) :
    startsInWord isWord (more ++ after) = startsInWord isWord (more ++ after') := by
  cases more with
  | nil => exact h
  | cons c rest => rfl

/-- Of the text around a match, items see only whether a word character touches it. -/
theorem acceptsAll_congr (h : ∀ item ∈ items, item.IsItem) {before' after' : List Char}
    (hbefore : endsInWord isWord before = endsInWord isWord before')
    (hafter : startsInWord isWord after = startsInWord isWord after')
    (haccepts : AcceptsAll isWord items before matched after) :
    AcceptsAll isWord items before' matched after' := by
  induction items generalizing before before' matched with
  | nil => exact haccepts
  | cons item rest ih =>
    obtain ⟨first, others, rfl, hfirst, hothers⟩ := haccepts
    have hnext := startsInWord_append_congr hafter others
    refine ⟨first, others, rfl, ?_, ih (fun item' hitem' => h item' (List.mem_cons_of_mem _ hitem'))
      (endsInWord_append_congr hbefore first) hothers⟩
    have hitem := h item List.mem_cons_self
    cases item with
    | literal c => exact hfirst
    | wordStart => exact ⟨hfirst.1, hbefore ▸ hfirst.2.1, hnext ▸ hfirst.2.2⟩
    | wordEnd => exact ⟨hfirst.1, hbefore ▸ hfirst.2.1, hnext ▸ hfirst.2.2⟩
    | textStart => cases hitem
    | textEnd => cases hitem
    | anything => cases hitem
    | badEscape c => cases hitem

/-- A character that a word boundary is written with. -/
def isMark (c : Char) : Bool := c == '<' || c == '>'

/-- Written out, items have a mark more for every word boundary. -/
theorem countP_consumed_lt (h : ∀ item ∈ items, item.IsItem)
    (hboundary : ∃ item ∈ items, item = .wordStart ∨ item = .wordEnd) :
    (items.filterMap Atom.consumed).countP isMark < (items.map Atom.char).countP isMark := by
  have hle : ∀ items : List Atom, (∀ item ∈ items, item.IsItem) →
      (items.filterMap Atom.consumed).countP isMark ≤ (items.map Atom.char).countP isMark := by
    intro items hitems
    refine List.Sublist.countP_le ?_
    induction items with
    | nil => exact List.Sublist.slnil
    | cons item rest ih =>
      have hrest := ih (fun item' hitem' => hitems item' (List.mem_cons_of_mem _ hitem'))
      cases item with
      | literal c => exact hrest.cons_cons c
      | wordStart => exact hrest.cons '<'
      | wordEnd => exact hrest.cons '>'
      | textStart => cases hitems _ List.mem_cons_self
      | textEnd => cases hitems _ List.mem_cons_self
      | anything => cases hitems _ List.mem_cons_self
      | badEscape c => cases hitems _ List.mem_cons_self
  -- split the items at a boundary: it is written with a mark and matches nothing
  obtain ⟨item, hitem, hkind⟩ := hboundary
  obtain ⟨front, back, rfl⟩ := List.append_of_mem hitem
  have hfront := hle front (fun i hi => h i (List.mem_append_left _ hi))
  have hback := hle back (fun i hi => h i (List.mem_append_right _ (List.mem_cons_of_mem _ hi)))
  have hmark : isMark item.char = true ∧ item.consumed = none := by
    rcases hkind with rfl | rfl
    · exact ⟨rfl, rfl⟩
    · exact ⟨rfl, rfl⟩
  rw [List.filterMap_append, List.filterMap_cons_none hmark.2, List.map_append, List.map_cons,
    List.countP_append, List.countP_append, List.countP_cons_of_pos hmark.1]
  omega

private def lastWord (isWord : Char → Bool) (text : List Char) : List Char :=
  (text.getLast?.filter isWord).toList

private def firstWord (isWord : Char → Bool) (text : List Char) : List Char :=
  (text.head?.filter isWord).toList

private theorem endsInWord_lastWord (text : List Char) :
    endsInWord isWord (lastWord isWord text) = endsInWord isWord text := by
  rw [endsInWord, endsInWord, lastWord]
  cases hlast : text.getLast? with
  | none => rfl
  | some c =>
    cases hword : isWord c <;> simp [Option.filter, hword]

private theorem startsInWord_firstWord (text : List Char) :
    startsInWord isWord (firstWord isWord text) = startsInWord isWord text := by
  rw [startsInWord, startsInWord, firstWord]
  cases hfirst : text.head? with
  | none => rfl
  | some c =>
    cases hword : isWord c <;> simp [Option.filter, hword]

private theorem countP_toList_filter (hlt : isWord '<' = false) (hgt : isWord '>' = false)
    (c : Option Char) : (c.filter isWord).toList.countP isMark = 0 := by
  rw [List.countP_eq_zero]
  intro d hd hmark
  rw [Option.mem_toList, Option.filter_eq_some_iff] at hd
  rw [isMark, Bool.or_eq_true, beq_iff_eq, beq_iff_eq] at hmark
  rcases hmark with rfl | rfl
  · exact absurd hd.2 (by rw [hlt]; exact Bool.false_ne_true)
  · exact absurd hd.2 (by rw [hgt]; exact Bool.false_ne_true)

/-- Items with a word boundary do not mean the text that they are written with: some text tells the
    two apart. -/
theorem exists_ne_of_boundary (h : ∀ item ∈ items, item.IsItem)
    (hboundary : ∃ item ∈ items, item = .wordStart ∨ item = .wordEnd) (hlt : isWord '<' = false)
    (hgt : isWord '>' = false) (opening closing : List Atom) :
    ∃ text, ¬ (OccursBetween opening (items.map Atom.char) closing text ↔
      FoundBetween isWord opening items closing text) := by
  by_cases hsome : ∃ text, FoundBetween isWord opening items closing text
  · -- keep of the surroundings of a match only the word characters that touch it: the match stays,
    -- but there are too few marks for the text
    obtain ⟨text, before, matched, after, -, hmatched, hstart, hend⟩ := hsome
    refine ⟨lastWord isWord before ++ matched ++ firstWord isWord after, fun hiff => ?_⟩
    obtain ⟨b, a, htext, -⟩ := hiff.mpr
      ⟨_, matched, _, rfl, acceptsAll_congr h (endsInWord_lastWord before).symm
        (startsInWord_firstWord after).symm hmatched,
        fun hopening => by rw [hstart hopening]; rfl, fun hclosing => by rw [hend hclosing]; rfl⟩
    have hcount := congrArg (List.countP isMark) htext
    have hmarks := countP_consumed_lt h hboundary
    rw [matched_of_acceptsAll h hmatched, List.countP_append, List.countP_append, lastWord,
      firstWord, countP_toList_filter hlt hgt, countP_toList_filter hlt hgt, List.countP_append,
      List.countP_append] at hcount
    omega
  · -- a pattern that matches nothing does not match its own text
    refine ⟨items.map Atom.char, fun hiff => hsome ⟨_, hiff.mp ⟨[], [], by simp, ?_, ?_⟩⟩⟩
    · exact fun _ => rfl
    · exact fun _ => rfl

end Xprobe.Foundation.Pattern
