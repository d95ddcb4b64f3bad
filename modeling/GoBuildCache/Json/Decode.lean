import GoBuildCache.Strings.Hex
import GoBuildCache.Strings.Decimal
import GoBuildCache.Strings.Utf8

/-!
# `encoding/json`: the scanner and the reader of values

`json.Unmarshal` first checks that its input is one JSON value with spaces around it
(`checkValid`), then decodes that value into the target.  This module writes the first half,
together with the unquoting of strings: `parseDocument` reads a document into a `JValue`.  The
decoding into the Go types of the program lives beside those types (`Protocol.Request`).

* Spaces are the four bytes of JSON: space, `\t`, `\n` and `\r` (`skipSpace`).
* `parseNumber` is the scanner's number grammar, `-`? (`0` | `1`-`9` digits) (`.` digits)?
  (`e`|`E` (`+`|`-`)? digits)?.  A number keeps its literal, which the decoder parses for the
  type of its target.
* A string is scanned and unquoted at once, one `strStep` at a time.  A step is the closing
  quote; an escape of the scanner's set, where `\uXXXX` goes through `utf16.DecodeRune` for a
  surrogate pair and a lone surrogate becomes `U+FFFD`; a byte under `0x20`, which is a syntax
  error; an ASCII byte; or a rune as `utf8.DecodeRune` reads it, encoded again, so that a byte
  that starts no valid sequence becomes `U+FFFD`.  `unquote` returns valid input without
  escapes unchanged on its fast path, which is what its slow path writes too, so the model has
  the slow path only.
* Arrays and objects nest at most `maxNestingDepth` deep.
* The reader takes fuel.  Every step of it reads at least one byte, so `parseDocument` starts
  it with the length of the input plus one.

The main lemma is `parseValue_stringValid`: every string the reader returns is valid UTF-8,
whatever the input.
-/

namespace GoBuildCache.Json

open Utf8

/-- A JSON value as the decoder sees it once the scanner has accepted it: a number keeps its
literal, and a string is already unquoted. -/
inductive JValue where
  | null
  | bool (b : Bool)
  | number (lit : Bytes)
  | string (s : Bytes)
  | array (elems : List JValue)
  | object (members : List (Bytes × JValue))

/-! ## Spaces, literals and numbers -/

/-- `isSpace` of the scanner: space, `\t`, `\n` and `\r`. -/
def isSpace (c : UInt8) : Bool := c == 32 || c == 9 || c == 10 || c == 13

/-- The input after the spaces at its head. -/
def skipSpace (s : Bytes) : Bytes := s.dropWhile isSpace

/-- The integer part of a number: `0`, or a digit `1`-`9` and the digits after it. -/
def parseIntPart : Bytes → Option (Bytes × Bytes)
  | 48 :: rest => some ([48], rest)
  | c :: rest =>
    if 49 ≤ c.toNat ∧ c.toNat ≤ 57 then
      some (c :: (rest.span Decimal.isDigit).1, (rest.span Decimal.isDigit).2)
    else none
  | [] => none

/-- The fraction of a number: nothing, or `.` and at least one digit. -/
def parseFrac : Bytes → Option (Bytes × Bytes)
  | 46 :: rest =>
    match rest.span Decimal.isDigit with
    | ([], _) => none
    | (ds, r) => some (46 :: ds, r)
  | s => some ([], s)

/-- The sign of an exponent, if there is one. -/
def expSign : Bytes → Bytes × Bytes
  | 43 :: r => ([43], r)
  | 45 :: r => ([45], r)
  | r => ([], r)

/-- The exponent of a number: nothing, or `e` or `E`, a sign or none, and at least one digit. -/
def parseExp : Bytes → Option (Bytes × Bytes)
  | c :: rest =>
    if c = 101 ∨ c = 69 then
      match (expSign rest).2.span Decimal.isDigit with
      | ([], _) => none
      | (ds, r) => some (c :: ((expSign rest).1 ++ ds), r)
    else some ([], c :: rest)
  | [] => some ([], [])

/-- The scanner's number grammar: the literal and the input after it. -/
def parseNumber (s : Bytes) : Option (Bytes × Bytes) := do
  let (sign, s1) : Bytes × Bytes := if s.head? = some 45 then ([45], s.tail) else ([], s)
  let (i, s2) ← parseIntPart s1
  let (f, s3) ← parseFrac s2
  let (e, s4) ← parseExp s3
  pure (sign ++ i ++ f ++ e, s4)

/-! ## Strings -/

/-- `getu4`: the value of the four hexadecimal digits of a `\u` escape. -/
def getu4 (h1 h2 h3 h4 : UInt8) : Option Nat :=
  match Hex.fromHexChar h1, Hex.fromHexChar h2, Hex.fromHexChar h3, Hex.fromHexChar h4 with
  | some a, some b, some c, some d => some (((a * 16 + b) * 16 + c) * 16 + d)
  | _, _, _, _ => none

/-- `utf16.IsSurrogate`. -/
def isSurrogate (r : Nat) : Bool := 0xD800 ≤ r && r < 0xE000

/-- `utf16.DecodeRune`: the rune of a surrogate pair, or `U+FFFD`. -/
def decodeSurrogates (r1 r2 : Nat) : Nat :=
  if 0xD800 ≤ r1 ∧ r1 < 0xDC00 ∧ 0xDC00 ≤ r2 ∧ r2 < 0xE000 then
    (r1 - 0xD800) * 0x400 + (r2 - 0xDC00) + 0x10000
  else runeError

/-- The one-letter escapes the scanner accepts, and the byte `unquote` writes for each. -/
def shortEscape : UInt8 → Option UInt8
  | 34 => some 34
  | 92 => some 92
  | 47 => some 47
  | 98 => some 8
  | 102 => some 12
  | 110 => some 10
  | 114 => some 13
  | 116 => some 9
  | _ => none

/-- One step through the content of a string. -/
inductive StrStep where
  /-- The closing quote, and the input after it. -/
  | close (rest : Bytes)
  /-- One character or escape of the content as `unquote` writes it, and the input after it. -/
  | char (out : Bytes) (rest : Bytes)

/-- What `unquote` writes for `\uXXXX` of value `u`, and the input after it.  A surrogate needs
a second `\u` escape right after it that completes the pair; otherwise it is `U+FFFD` and the
input after the first escape is read next. -/
def unicodeStep (u : Nat) (rest : Bytes) : StrStep :=
  if isSurrogate u then
    match rest with
    | 92 :: 117 :: k1 :: k2 :: k3 :: k4 :: rest' =>
      match getu4 k1 k2 k3 k4 with
      | some u' =>
        if decodeSurrogates u u' ≠ runeError then .char (encodeRune (decodeSurrogates u u')) rest'
        else .char (encodeRune runeError) rest
      | none => .char (encodeRune runeError) rest
    | _ => .char (encodeRune runeError) rest
  else .char (encodeRune u) rest

/-- The escape after a backslash: `\u` and four hexadecimal digits, or a one-letter escape. -/
def escapeStep : Bytes → Option StrStep
  | 117 :: h1 :: h2 :: h3 :: h4 :: rest => (getu4 h1 h2 h3 h4).map fun u => unicodeStep u rest
  | e :: rest => (shortEscape e).map fun b => .char [b] rest
  | [] => none

/-- One step of the scanner and of `unquote` together, in the order of `unquote`'s cases;
`none` is a syntax error. -/
def strStep : Bytes → Option StrStep
  | [] => none
  | c :: rest =>
    if c = 34 then some (.close rest)
    else if c = 92 then escapeStep rest
    else if c.toNat < 0x20 then none
    else if c.toNat < 0x80 then some (.char [c] rest)
    else some (.char (encodeRune (decodeFirst c rest).1) ((c :: rest).drop (decodeFirst c rest).2))

/-- The content of a string after its opening quote: the unquoted bytes and the input after the
closing quote. -/
def parseStringBody : Nat → Bytes → Option (Bytes × Bytes)
  | 0, _ => none
  | n + 1, s =>
    match strStep s with
    | none => none
    | some (.close rest) => some ([], rest)
    | some (.char out rest) => (parseStringBody n rest).map fun p => (out ++ p.1, p.2)

/-! ## Values -/

/-- `maxNestingDepth` of the scanner. -/
def maxNestingDepth : Nat := 10000

/-- What follows a value inside an array or an object, after spaces: a comma and the spaces
after it (`true`), or the closing bracket `close` (`false`). -/
def parseSep (close : UInt8) (s : Bytes) : Option (Bool × Bytes) :=
  match skipSpace s with
  | 44 :: r => some (true, skipSpace r)
  | c :: r => if c = close then some (false, r) else none
  | [] => none

/-- The elements of an array after `[` and the spaces after it, given the reader of one
element: values separated by commas, up to `]`. -/
def parseElems (value : Bytes → Option (JValue × Bytes)) :
    Nat → Bytes → Option (List JValue × Bytes)
  | 0, _ => none
  | n + 1, s =>
    match value s with
    | none => none
    | some (v, r) =>
      match parseSep 93 r with
      | none => none
      | some (true, r') => (parseElems value n r').map fun p => (v :: p.1, p.2)
      | some (false, r') => some ([v], r')

/-- One member of an object: a string key, `:` after spaces, and a value after spaces. -/
def parseMember (value : Bytes → Option (JValue × Bytes)) (n : Nat) :
    Bytes → Option ((Bytes × JValue) × Bytes)
  | 34 :: s =>
    match parseStringBody n s with
    | none => none
    | some (k, r) =>
      match skipSpace r with
      | 58 :: r' => (value (skipSpace r')).map fun p => ((k, p.1), p.2)
      | _ => none
  | _ => none

/-- The members of an object after `{` and the spaces after it, separated by commas, up to
`}`. -/
def parseMembers (value : Bytes → Option (JValue × Bytes)) :
    Nat → Bytes → Option (List (Bytes × JValue) × Bytes)
  | 0, _ => none
  | n + 1, s =>
    match parseMember value n s with
    | none => none
    | some (m, r) =>
      match parseSep 125 r with
      | none => none
      | some (true, r') => (parseMembers value n r').map fun p => (m :: p.1, p.2)
      | some (false, r') => some ([m], r')

/-- A literal `true`, `false` or `null` after its first letter: the rest of its letters. -/
def parseLiteral (lit : Bytes) (v : JValue) (s : Bytes) : Option (JValue × Bytes) :=
  if lit.isPrefixOf s then some (v, s.drop lit.length) else none

/-- An object after `{` and the spaces after it: `}`, or members. -/
def parseObject (nested : Bytes → Option (JValue × Bytes)) (n : Nat) :
    Bytes → Option (JValue × Bytes)
  | 125 :: r => some (.object [], r)
  | s => (parseMembers nested n s).map fun p => (.object p.1, p.2)

/-- An array after `[` and the spaces after it: `]`, or elements. -/
def parseArray (nested : Bytes → Option (JValue × Bytes)) (n : Nat) :
    Bytes → Option (JValue × Bytes)
  | 93 :: r => some (.array [], r)
  | s => (parseElems nested n s).map fun p => (.array p.1, p.2)

/-- One value at the head of the input, inside `depth` open arrays and objects, given the reader
`nested` of the values one level deeper.  The first byte decides, as in `stateBeginValue`. -/
def parseValueWith (nested : Bytes → Option (JValue × Bytes)) (n depth : Nat) :
    Bytes → Option (JValue × Bytes)
  | [] => none
  | c :: rest =>
    if c = 123 then
      if depth < maxNestingDepth then parseObject nested n (skipSpace rest) else none
    else if c = 91 then
      if depth < maxNestingDepth then parseArray nested n (skipSpace rest) else none
    else if c = 34 then (parseStringBody n rest).map fun p => (.string p.1, p.2)
    else if c = 116 then parseLiteral [114, 117, 101] (.bool true) rest
    else if c = 102 then parseLiteral [97, 108, 115, 101] (.bool false) rest
    else if c = 110 then parseLiteral [117, 108, 108] .null rest
    else (parseNumber (c :: rest)).map fun p => (.number p.1, p.2)

/-- One value at the head of the input, inside `depth` open arrays and objects, and the input
after it. -/
def parseValue : Nat → Nat → Bytes → Option (JValue × Bytes)
  | 0, _, _ => none
  | n + 1, depth, s => parseValueWith (parseValue n (depth + 1)) n depth s

/-- `checkValid` and the scan of `Unmarshal`: one value with nothing but spaces around it. -/
def parseDocument (data : Bytes) : Option JValue :=
  match parseValue (data.length + 1) 0 (skipSpace data) with
  | some (v, rest) => if skipSpace rest = [] then some v else none
  | none => none

/-! ## Every string read is valid UTF-8 -/

theorem unicodeStep_char (u : Nat) (rest : Bytes) :
    ∃ r rest', unicodeStep u rest = .char (encodeRune r) rest' := by
  unfold unicodeStep
  split_ifs
  · split
    · split
      · split_ifs <;> exact ⟨_, _, rfl⟩
      · exact ⟨_, _, rfl⟩
    · exact ⟨_, _, rfl⟩
  · exact ⟨_, _, rfl⟩

/-- The byte a one-letter escape writes is ASCII. -/
theorem shortEscape_ascii {e b : UInt8} (h : shortEscape e = some b) : b.toNat < 0x80 := by
  revert h; unfold shortEscape; split <;> intro h <;> cases h <;> decide

/-- Every step through a string writes the encoding of one rune. -/
theorem strStep_char {s out rest : Bytes} (h : strStep s = some (.char out rest)) :
    ∃ r, out = encodeRune r := by
  match s, h with
  | c :: t, h =>
    simp only [strStep] at h
    split_ifs at h with h34 h92 h20 h80
    · cases h
    · unfold escapeStep at h
      split at h
      · obtain ⟨u, -, hu⟩ := Option.map_eq_some'.1 h
        obtain ⟨r, rest', he⟩ := unicodeStep_char u _
        rw [he] at hu
        cases hu
        exact ⟨r, rfl⟩
      · obtain ⟨b, hb, he⟩ := Option.map_eq_some'.1 h
        cases he
        exact ⟨b.toNat, (encodeRune_ascii (shortEscape_ascii hb)).symm⟩
      · cases h
    · cases h
      exact ⟨c.toNat, (encodeRune_ascii h80).symm⟩
    · cases h
      exact ⟨_, rfl⟩

/-- Every string body the reader unquotes is valid UTF-8. -/
theorem parseStringBody_valid {n : Nat} {s out rest : Bytes}
    (h : parseStringBody n s = some (out, rest)) : valid out = true := by
  induction n generalizing s out rest with
  | zero => cases h
  | succ n ih =>
    unfold parseStringBody at h
    split at h
    · cases h
    · cases h; rfl
    · rename_i out' rest' hs
      obtain ⟨p, hp, he⟩ := Option.map_eq_some'.1 h
      cases he
      obtain ⟨r, rfl⟩ := strStep_char hs
      rw [valid_encodeRune_append]
      exact ih hp

/-- A string of the tree is valid UTF-8; other values say nothing. -/
def JValue.StringValid : JValue → Prop
  | .string s => valid s = true
  | _ => True

/-- The reader of one value returns a string only from a string literal, and that string is
valid UTF-8. -/
theorem parseValueWith_stringValid {nested : Bytes → Option (JValue × Bytes)} {n depth : Nat}
    {s rest : Bytes} {v : JValue} (h : parseValueWith nested n depth s = some (v, rest)) :
    v.StringValid := by
  match s, h with
  | c :: t, h =>
    simp only [parseValueWith] at h
    split_ifs at h
    · unfold parseObject at h
      split at h
      · cases h; trivial
      · obtain ⟨p, -, he⟩ := Option.map_eq_some'.1 h
        cases he; trivial
    · unfold parseArray at h
      split at h
      · cases h; trivial
      · obtain ⟨p, -, he⟩ := Option.map_eq_some'.1 h
        cases he; trivial
    · obtain ⟨p, hp, he⟩ := Option.map_eq_some'.1 h
      cases he
      exact parseStringBody_valid (show _ = some (p.1, p.2) from hp)
    all_goals first
      | (unfold parseLiteral at h; split_ifs at h; cases h; trivial)
      | (obtain ⟨p, -, he⟩ := Option.map_eq_some'.1 h; cases he; trivial)

theorem parseValue_stringValid {n depth : Nat} {s rest : Bytes} {v : JValue}
    (h : parseValue n depth s = some (v, rest)) : v.StringValid := by
  cases n with
  | zero => cases h
  | succ n => exact parseValueWith_stringValid h

/-- One member's value is a value the reader of one value returned. -/
theorem parseMember_value {value : Bytes → Option (JValue × Bytes)} {n : Nat} {s r : Bytes}
    {m : Bytes × JValue} (h : parseMember value n s = some (m, r)) :
    ∃ s', value s' = some (m.2, r) := by
  unfold parseMember at h
  split at h
  · split at h
    · cases h
    · split at h
      · obtain ⟨p, hp, he⟩ := Option.map_eq_some'.1 h
        cases he
        exact ⟨_, hp⟩
      · cases h
  · cases h

/-- The members of an object keep what the reader of one value guarantees of each value. -/
theorem parseMembers_forall {value : Bytes → Option (JValue × Bytes)} {P : JValue → Prop}
    (hv : ∀ {s v r}, value s = some (v, r) → P v) {n : Nat} {s rest : Bytes}
    {ms : List (Bytes × JValue)} (h : parseMembers value n s = some (ms, rest)) :
    ∀ m ∈ ms, P m.2 := by
  induction n generalizing s ms rest with
  | zero => cases h
  | succ n ih =>
    simp only [parseMembers] at h
    split at h
    · cases h
    · rename_i m r hm
      have hmv : P m.2 := let ⟨_, hs⟩ := parseMember_value hm; hv hs
      split at h
      · cases h
      · obtain ⟨p, hp, he⟩ := Option.map_eq_some'.1 h
        cases he
        intro m' hm'
        rcases List.mem_cons.1 hm' with rfl | hm'
        · exact hmv
        · exact ih hp m' hm'
      · cases h
        intro m' hm'
        rcases List.mem_cons.1 hm' with rfl | hm'
        · exact hmv
        · cases hm'

/-- The members of an object read by one value's reader keep what the nested reader
guarantees of each value. -/
theorem parseValueWith_object {nested : Bytes → Option (JValue × Bytes)} {P : JValue → Prop}
    (hv : ∀ {s v r}, nested s = some (v, r) → P v) {n depth : Nat} {s rest : Bytes}
    {ms : List (Bytes × JValue)} (h : parseValueWith nested n depth s = some (.object ms, rest)) :
    ∀ m ∈ ms, P m.2 := by
  match s, h with
  | c :: t, h =>
    simp only [parseValueWith] at h
    split_ifs at h
    · unfold parseObject at h
      split at h
      · cases h; intro m hm; cases hm
      · obtain ⟨p, hp, he⟩ := Option.map_eq_some'.1 h
        cases he
        exact parseMembers_forall hv hp
    · unfold parseArray at h
      split at h
      · cases h
      · obtain ⟨p, -, he⟩ := Option.map_eq_some'.1 h
        cases he
    all_goals first
      | (unfold parseLiteral at h; split_ifs at h; cases h)
      | (obtain ⟨p, -, he⟩ := Option.map_eq_some'.1 h; cases he)

/-- Every member value of a document's top-level object that is a string is valid UTF-8. -/
theorem parseDocument_object_stringValid {data : Bytes} {ms : List (Bytes × JValue)}
    (h : parseDocument data = some (.object ms)) : ∀ m ∈ ms, m.2.StringValid := by
  unfold parseDocument at h
  split at h
  · rename_i v rest hv
    split_ifs at h
    cases h
    simp only [parseValue] at hv
    exact parseValueWith_object parseValue_stringValid hv
  · cases h

end GoBuildCache.Json
