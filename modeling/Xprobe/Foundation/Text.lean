import Mathlib

/-!
# String operations

The `str` methods of the Rust standard library that selector parsers use, over the characters of a
Lean `String`. Lengths are in UTF-8 bytes, as `str::len` is.

Formatted error texts are kept as a list of pieces, so that a text quoted with `{:?}` stays the
text it quotes.
-/

namespace Xprobe.Foundation

namespace Text

/-! ## Searching and cutting -/

/-- `str::starts_with` on a string pattern. -/
def startsWith (text pattern : String) : Bool := pattern.toList.isPrefixOf text.toList

/-- `str::ends_with` on a string pattern. -/
def endsWith (text pattern : String) : Bool := pattern.toList.isSuffixOf text.toList

/-- `str::strip_prefix`. -/
def stripPrefix (text pattern : String) : Option String :=
  if startsWith text pattern then
    some (String.ofList (text.toList.drop pattern.toList.length))
  else none

/-- `str::strip_suffix`. -/
def stripSuffix (text pattern : String) : Option String :=
  if endsWith text pattern then
    some (String.ofList (text.toList.take (text.toList.length - pattern.toList.length)))
  else none

/-- `str::split` at one character. -/
def split (separator : Char) (text : String) : List String :=
  (text.toList.splitOn separator).map String.ofList

def cutFirst (separator : Char) : List Char → Option (List Char × List Char)
  | [] => none
  | c :: rest =>
    if c = separator then some ([], rest)
    else (cutFirst separator rest).map (fun (before, after) => (c :: before, after))

/-- `str::splitn`: at most `n` fields, the last one uncut. -/
def splitnChars (separator : Char) : Nat → List Char → List (List Char)
  | 0, _ => []
  | 1, text => [text]
  | n + 2, text =>
    match cutFirst separator text with
    | none => [text]
    | some (before, after) => before :: splitnChars separator (n + 1) after

/-- `str::splitn` at one character. -/
def splitn (n : Nat) (separator : Char) (text : String) : List String :=
  (splitnChars separator n text.toList).map String.ofList

/-- `str::split_once` at one character. -/
def splitOnce (text : String) (separator : Char) : Option (String × String) :=
  (cutFirst separator text.toList).map
    (fun (before, after) => (String.ofList before, String.ofList after))

/-- `str::rsplit_once` at one character. -/
def rsplitOnce (text : String) (separator : Char) : Option (String × String) :=
  (cutFirst separator text.toList.reverse).map
    (fun (after, before) => (String.ofList before.reverse, String.ofList after.reverse))

/-- The characters before and after the first occurrence of a pattern. -/
def cutPattern (pattern : List Char) : List Char → Option (List Char × List Char)
  | [] => if pattern.isEmpty then some ([], []) else none
  | c :: rest =>
    if pattern.isPrefixOf (c :: rest) then some ([], (c :: rest).drop pattern.length)
    else (cutPattern pattern rest).map (fun (before, after) => (c :: before, after))

/-- `str::split_once` at a string pattern. -/
def splitOnceStr (text pattern : String) : Option (String × String) :=
  (cutPattern pattern.toList text.toList).map
    (fun (before, after) => (String.ofList before, String.ofList after))

/-- A separator that is not in the first field ends it. -/
theorem cutFirst_append {separator : Char} {before : List Char} (h : separator ∉ before)
    (after : List Char) : cutFirst separator (before ++ separator :: after) = some (before, after) := by
  induction before with
  | nil => rw [List.nil_append, cutFirst, if_pos rfl]
  | cons c rest ih =>
    obtain ⟨hc, hrest⟩ := not_or.mp (mt List.mem_cons.mpr h)
    rw [List.cons_append, cutFirst, if_neg (Ne.symm hc), ih hrest, Option.map_some]

variable {text pattern : String}

/-- What is left is the text behind the pattern. -/
theorem toList_of_stripPrefix {rest : String} (h : stripPrefix text pattern = some rest) :
    text.toList = pattern.toList ++ rest.toList := by
  rw [stripPrefix] at h
  split_ifs at h with hstarts
  obtain ⟨tail, htail⟩ := List.isPrefixOf_iff_prefix.mp hstarts
  cases h
  rw [String.toList_ofList, ← htail, List.drop_left]

/-- What is left is the text before the pattern. -/
theorem toList_of_stripSuffix {rest : String} (h : stripSuffix text pattern = some rest) :
    text.toList = rest.toList ++ pattern.toList := by
  rw [stripSuffix] at h
  split_ifs at h with hends
  obtain ⟨front, hfront⟩ := List.isSuffixOf_iff_suffix.mp hends
  cases h
  rw [String.toList_ofList, ← hfront, List.length_append, Nat.add_sub_cancel, List.take_left]

theorem stripPrefix_of_toList {rest : String} (h : text.toList = pattern.toList ++ rest.toList) :
    stripPrefix text pattern = some rest := by
  have hstarts : startsWith text pattern = true :=
    List.isPrefixOf_iff_prefix.mpr ⟨rest.toList, h.symm⟩
  rw [stripPrefix, if_pos hstarts, h, List.drop_left, String.ofList_toList]

theorem stripSuffix_of_toList {rest : String} (h : text.toList = rest.toList ++ pattern.toList) :
    stripSuffix text pattern = some rest := by
  have hends : endsWith text pattern = true :=
    List.isSuffixOf_iff_suffix.mpr ⟨rest.toList, h.symm⟩
  rw [stripSuffix, if_pos hends, h, List.length_append, Nat.add_sub_cancel, List.take_left,
    String.ofList_toList]

theorem stripPrefix_eq_none (h : startsWith text pattern = false) :
    stripPrefix text pattern = none := by
  simp [stripPrefix, h]

/-- A text that starts with a word and a separator has the word as its first field. -/
theorem split_of_startsWith {word : String} {separator : Char}
    (hpattern : pattern.toList = word.toList ++ [separator]) (hword : separator ∉ word.toList)
    (h : startsWith text pattern = true) : ∃ rest, split separator text = word :: rest := by
  obtain ⟨tail, htail⟩ := List.isPrefixOf_iff_prefix.mp h
  rw [hpattern, List.append_assoc, List.singleton_append] at htail
  have hword' : ∀ c ∈ word.toList, (c == separator) = false := by
    intro c hc
    simpa using fun heq : c = separator => hword (heq ▸ hc)
  have hfirst := List.splitOnP_append_cons_of_forall_mem hword' separator (by simp) tail
  refine ⟨(tail.splitOn separator).map String.ofList, ?_⟩
  rw [split, ← htail, List.splitOn, hfirst, List.map_cons, String.ofList_toList]
  rfl

/-! ## Characters and numbers -/

/-- `char::is_ascii_alphanumeric`. -/
def isAsciiAlphanumeric (c : Char) : Bool :=
  ('0' ≤ c && c ≤ '9') || ('a' ≤ c && c ≤ 'z') || ('A' ≤ c && c ≤ 'Z')

/-- The value of a hexadecimal digit. -/
def hexDigit (c : Char) : Option Nat :=
  if '0' ≤ c && c ≤ '9' then some (c.toNat - '0'.toNat)
  else if 'a' ≤ c && c ≤ 'f' then some (c.toNat - 'a'.toNat + 10)
  else if 'A' ≤ c && c ≤ 'F' then some (c.toNat - 'A'.toNat + 10)
  else none

/-- Read hexadecimal digits into a 64-bit word, `none` on another character or on overflow. -/
def readHexDigits (acc : Nat) : List Char → Option UInt64
  | [] => some (UInt64.ofNat acc)
  | c :: rest =>
    match hexDigit c with
    | none => none
    | some digit =>
      if acc * 16 + digit < 2 ^ 64 then readHexDigits (acc * 16 + digit) rest else none

/-- `u64::from_str_radix(text, 16)`: one leading plus sign is accepted, an empty text is not. -/
def fromStrRadix16 (text : String) : Option UInt64 :=
  match text.toList with
  | [] => none
  | ['+'] => none
  | '+' :: rest => readHexDigits 0 rest
  | digits => readHexDigits 0 digits

/-! ## Lines and words -/

def dropCarriageReturn (line : List Char) : List Char :=
  if line.getLast? = some '\r' then line.dropLast else line

/-- `str::lines`: a line ends at a line feed, with the carriage return before it; what follows the
    last line feed is a line only if there is something. -/
def lines (text : String) : List String :=
  let pieces := text.toList.splitOn '\n'
  let terminated := pieces.dropLast.map dropCarriageReturn
  let unterminated := (pieces.getLast?.filter (fun line => !line.isEmpty)).toList
  (terminated ++ unterminated).map String.ofList

/-- `char::is_whitespace`: the `White_Space` characters of Unicode. -/
def isWhitespace (c : Char) : Bool :=
  let n := c.toNat
  (0x09 ≤ n && n ≤ 0x0d) || n == 0x20 || n == 0x85 || n == 0xa0 || n == 0x1680 ||
    (0x2000 ≤ n && n ≤ 0x200a) || n == 0x2028 || n == 0x2029 || n == 0x202f || n == 0x205f ||
    n == 0x3000

/-- `str::split_whitespace`. -/
def splitWhitespace (text : String) : List String :=
  ((text.toList.splitOnP isWhitespace).filter (fun word => !word.isEmpty)).map String.ofList

/-! ## Formatted texts -/

/-- One piece of a formatted text: literal text, a value printed with `{:?}`, or one printed
    with `{}`. -/
inductive Piece where
  | lit (text : String)
  | debug (value : String)
  | display (value : String)
  deriving Repr, DecidableEq

end Text

/-- The text of an error, before its values are printed. -/
abbrev Message := List Text.Piece

/-- A message without placeholders. -/
def Message.of (text : String) : Message := [.lit text]

end Xprobe.Foundation
