import GoBuildCache.Json.Decode
import GoBuildCache.Strings.Base64

/-!
# `encoding/json`: writing values, and reading them back

`json.Marshal` writes a struct field by field.  This module writes the encoders the program's
two structs need, and proves that the reader of `Json.Decode` reads their output back.

* `encodeString` is `appendString` with HTML escaping, as `json.Marshal` calls it.  It goes rune
  by rune (`escapeRune`): a byte of `htmlSafeSet` is copied, any other ASCII byte is escaped
  (`escapeByte`, with the short forms `\b`, `\f`, `\n`, `\r`, `\t` of Go 1.22), a byte that
  starts no valid sequence is written `�`, `U+2028` and `U+2029` are escaped, and every
  other rune is copied.
* An `int64` is `strconv.AppendInt(·, 10)`, which is `Decimal.formatInt`; a `[]byte` is its
  standard base64 encoding in quotes (`encodeBytes`); a struct is `{`, its written fields as
  `"name":value` separated by commas, and `}` (`encodeObject`).
* Reading back: `Reads t v` says that the reader, with fuel at least the length of `t`, reads
  the value `v` from `t` followed by anything that may follow a value.  Strings read back as
  their `toValid` (`reads_encodeString`), integers as their literal (`reads_formatInt`), byte
  slices as the string of their base64 (`reads_encodeBytes`), and `null` as itself.  A struct
  whose members read back reads back as the object of their values, inside fewer than
  `maxNestingDepth` open values (`parseValue_encodeObject`).
* No encoder writes a byte under `0x20` (`Printable`, `printable_encodeObject`), so no value
  holds the newline that ends its line.
-/

namespace GoBuildCache.Json

open Utf8

/-! ## Strings -/

/-- `htmlSafeSet`: the ASCII bytes that `appendString` copies when it escapes HTML, every
printable byte but `"`, `\`, `<`, `>` and `&`. -/
def htmlSafe (b : UInt8) : Bool :=
  0x20 ≤ b.toNat && b.toNat < 0x80 && b != 34 && b != 92 && b != 60 && b != 62 && b != 38

/-- `appendString`'s escape of an ASCII byte outside `htmlSafeSet`. -/
def escapeByte (b : UInt8) : Bytes :=
  if b = 92 ∨ b = 34 then [92, b]
  else if b = 8 then [92, 98]
  else if b = 12 then [92, 102]
  else if b = 10 then [92, 110]
  else if b = 13 then [92, 114]
  else if b = 9 then [92, 116]
  else [92, 117, 48, 48, Hex.hextable (b.toNat / 16), Hex.hextable (b.toNat % 16)]

/-- `appendString` on one rune of its input, as `utf8.DecodeRune` reads it. -/
def escapeRune (r : Nat) (span : Bytes) : Bytes :=
  if r < 0x80 then
    if htmlSafe r.toUInt8 then [r.toUInt8] else escapeByte r.toUInt8
  else if r = runeError ∧ span.length = 1 then [92, 117, 102, 102, 102, 100]
  else if r = 0x2028 ∨ r = 0x2029 then [92, 117, 50, 48, 50, Hex.hextable (r % 16)]
  else span

/-- `appendString(dst, s, true)`: the JSON string literal `json.Marshal` writes for `s`. -/
def encodeString (s : Bytes) : Bytes :=
  34 :: ((runes s).flatMap fun p => escapeRune p.1 p.2) ++ [34]

/-! ## Integers, byte slices and structs -/

/-- `encodeByteSlice`: the standard base64 encoding of the bytes, in quotes. -/
def encodeBytes (b : Bytes) : Bytes := 34 :: Base64.encodeToString b ++ [34]

/-- The struct encoder: `{`, the written fields as `"name":value` separated by commas, `}`.
Each field is its name and the text of its value. -/
def encodeObject (fields : List (Bytes × Bytes)) : Bytes :=
  123 :: List.intercalate [44] (fields.map fun f => encodeString f.1 ++ 58 :: f.2) ++ [125]

/-- The slice encoder: `[`, the elements separated by commas, `]`. -/
def encodeArray (elems : List Bytes) : Bytes := 91 :: List.intercalate [44] elems ++ [93]

/-! ## Reading strings back -/

theorem htmlSafe_iff (b : UInt8) :
    htmlSafe b = true ↔ 0x20 ≤ b.toNat ∧ b.toNat < 0x80 ∧ b ≠ 34 ∧ b ≠ 92 ∧ b ≠ 60 ∧ b ≠ 62 ∧
      b ≠ 38 := by
  simp [htmlSafe, and_assoc]

/-- `unquote` reads a safe byte as itself. -/
theorem strStep_plain {c : UInt8} (hc : htmlSafe c = true) (rest : Bytes) :
    strStep (c :: rest) = some (.char [c] rest) := by
  obtain ⟨h20, h80, h34, h92, -⟩ := (htmlSafe_iff c).1 hc
  simp only [strStep, if_neg h34, if_neg h92, if_neg (show ¬ c.toNat < 0x20 by omega), if_pos h80]

/-- `unquote` reads `\u` and four hexadecimal digits of a value under `0xD800` as that rune. -/
theorem strStep_unicode {h1 h2 h3 h4 : UInt8} {u : Nat} (hu : getu4 h1 h2 h3 h4 = some u)
    (hs : u < 0xD800) (rest : Bytes) :
    strStep (92 :: 117 :: h1 :: h2 :: h3 :: h4 :: rest) = some (.char (encodeRune u) rest) := by
  have hsur : isSurrogate u = false := by simp [isSurrogate]; omega
  simp only [strStep, escapeStep, if_neg (show (92 : UInt8) ≠ 34 by decide), if_true, hu,
    Option.map_some', unicodeStep, hsur, Bool.false_eq_true, if_false]

/-- `appendString` escapes a byte with a one-letter escape that `unquote` reads back as it, or
as `\u00` and its two hexadecimal digits. -/
theorem escapeByte_cases (b : UInt8) :
    (∃ e, shortEscape e = some b ∧ escapeByte b = [92, e]) ∨
      escapeByte b = [92, 117, 48, 48, Hex.hextable (b.toNat / 16), Hex.hextable (b.toNat % 16)] := by
  rw [escapeByte]
  by_cases h : b = 92 ∨ b = 34
  · rw [if_pos h]
    rcases h with rfl | rfl
    exacts [.inl ⟨92, rfl, rfl⟩, .inl ⟨34, rfl, rfl⟩]
  rw [if_neg h]
  by_cases h : b = 8
  · subst h; exact .inl ⟨98, rfl, rfl⟩
  rw [if_neg h]
  by_cases h : b = 12
  · subst h; exact .inl ⟨102, rfl, rfl⟩
  rw [if_neg h]
  by_cases h : b = 10
  · subst h; exact .inl ⟨110, rfl, rfl⟩
  rw [if_neg h]
  by_cases h : b = 13
  · subst h; exact .inl ⟨114, rfl, rfl⟩
  rw [if_neg h]
  by_cases h : b = 9
  · subst h; exact .inl ⟨116, rfl, rfl⟩
  rw [if_neg h]
  exact .inr rfl

/-- A one-letter escape is a printable letter other than `u`. -/
theorem shortEscape_printable {e b : UInt8} (h : shortEscape e = some b) : 0x20 ≤ e.toNat ∧ e ≠ 117 := by
  revert h; unfold shortEscape; split <;> intro h <;> cases h <;> decide

theorem escapeStep_short {e : UInt8} (hu : e ≠ 117) (rest : Bytes) :
    escapeStep (e :: rest) = (shortEscape e).map fun b => .char [b] rest := by
  unfold escapeStep
  split
  · rename_i h; cases h; exact absurd rfl hu
  · rename_i h; cases h; rfl
  · rename_i h; cases h

/-- `unquote` reads every escape of `escapeByte` as the byte escaped. -/
theorem strStep_escapeByte {c : UInt8} (hc : c.toNat < 0x80) (rest : Bytes) :
    strStep (escapeByte c ++ rest) = some (.char [c] rest) := by
  rcases escapeByte_cases c with ⟨e, he, h⟩ | h
  · have hu := (shortEscape_printable he).2
    rw [h, List.cons_append, List.cons_append, List.nil_append]
    simp only [strStep, if_neg (show (92 : UInt8) ≠ 34 by decide), if_true, escapeStep_short hu, he]
    rfl
  · have hu : getu4 48 48 (Hex.hextable (c.toNat / 16)) (Hex.hextable (c.toNat % 16)) =
        some c.toNat := by
      simp only [getu4, show Hex.fromHexChar 48 = some 0 from rfl,
        Hex.fromHexChar_hextable (show c.toNat / 16 < 16 by omega),
        Hex.fromHexChar_hextable (show c.toNat % 16 < 16 by omega), Option.some.injEq]
      omega
    rw [h, List.cons_append, List.cons_append, List.cons_append, List.cons_append, List.cons_append,
      List.cons_append, List.nil_append, strStep_unicode hu (by omega), encodeRune_ascii hc]

/-- `unquote` reads what `appendString` writes for one rune as the encoding of that rune. -/
theorem strStep_escapeRune {r : Nat} {span : Bytes} (hp : RuneEntry (r, span)) (rest : Bytes) :
    strStep (escapeRune r span ++ rest) = some (.char (encodeRune r) rest) := by
  simp only [RuneEntry] at hp
  unfold escapeRune
  split_ifs with h80 hsafe herr hsep
  · rw [List.singleton_append, strStep_plain hsafe,
      show encodeRune r = [r.toUInt8] from if_pos h80]
  · rw [strStep_escapeByte (by rw [toNat_toUInt8 (by omega)]; exact h80),
      show encodeRune r = [r.toUInt8] from if_pos h80]
  · rw [herr.1]; rfl
  · rcases hsep with rfl | rfl <;> rfl
  · rcases hp with ⟨h, -⟩ | ⟨rfl, b, -, rfl⟩ | ⟨-, hsc, rfl⟩
    · exact absurd h h80
    · exact absurd ⟨rfl, rfl⟩ herr
    · obtain ⟨b0, tl, he⟩ := List.exists_cons_of_ne_nil (encodeRune_ne_nil r)
      have hb0 := encodeRune_high (r := r) (by omega) b0 (by rw [he]; exact .head _)
      rw [he, List.cons_append]
      simp only [strStep, decodeFirst_encodeRune_append hsc he rest,
        if_neg (show b0 ≠ 34 by rintro rfl; exact absurd hb0 (by decide)),
        if_neg (show b0 ≠ 92 by rintro rfl; exact absurd hb0 (by decide)),
        if_neg (show ¬ b0.toNat < 0x20 by omega), if_neg (show ¬ b0.toNat < 0x80 by omega)]
      simp [List.drop_append_of_le_length, he]

/-- The body of a string literal written rune by rune reads back as the runes re-encoded. -/
theorem parseStringBody_escaped {ps : List (Nat × Bytes)} (hps : ∀ p ∈ ps, RuneEntry p)
    {n : Nat} (hn : ps.length < n) (rest : Bytes) :
    parseStringBody n ((ps.flatMap fun p => escapeRune p.1 p.2) ++ 34 :: rest) =
      some (ps.flatMap (fun p => encodeRune p.1), rest) := by
  induction ps generalizing n with
  | nil =>
    obtain ⟨m, rfl⟩ := Nat.exists_eq_add_of_lt hn
    rfl
  | cons p ps ih =>
    cases n with
    | zero => cases hn
    | succ m =>
      simp only [List.flatMap_cons, List.append_assoc, parseStringBody,
        strStep_escapeRune (hps p (.head _) : RuneEntry (p.1, p.2)),
        ih (fun q hq => hps q (.tail _ hq)) (n := m) (by simp only [List.length_cons] at hn; omega),
        Option.map_some']

/-- A rune is written as at least one byte. -/
theorem escapeRune_ne_nil {p : Nat × Bytes} (hp : RuneEntry p) : escapeRune p.1 p.2 ≠ [] := by
  unfold escapeRune
  split_ifs with h80
  · exact List.cons_ne_nil _ _
  · rcases escapeByte_cases p.1.toUInt8 with ⟨e, -, h⟩ | h <;> rw [h] <;> exact List.cons_ne_nil _ _
  · exact List.cons_ne_nil _ _
  · exact List.cons_ne_nil _ _
  · rcases hp with ⟨h, -⟩ | ⟨-, b, -, h⟩ | ⟨-, -, h⟩
    · exact absurd h h80
    · rw [h]; exact List.cons_ne_nil _ _
    · rw [h]; exact encodeRune_ne_nil _

theorem length_runes_le (s : Bytes) :
    (runes s).length ≤ ((runes s).flatMap fun p => escapeRune p.1 p.2).length := by
  have key : ∀ ps : List (Nat × Bytes), (∀ p ∈ ps, RuneEntry p) →
      ps.length ≤ (ps.flatMap fun p => escapeRune p.1 p.2).length := by
    intro ps hps
    induction ps with
    | nil => exact le_refl 0
    | cons p ps ih =>
      have := List.length_pos_of_ne_nil (escapeRune_ne_nil (hps p (.head _)))
      simp only [List.length_cons, List.flatMap_cons, List.length_append]
      have := ih fun q hq => hps q (.tail _ hq)
      omega
  exact key _ fun p hp => runeEntry_of_mem_runes hp

/-! ## What may follow a value -/

/-- What follows a value of an object or an array, or the end of a document: nothing, a comma,
`}` or `]`. -/
def EndsValue (rest : Bytes) : Prop :=
  rest = [] ∨ ∃ c t, rest = c :: t ∧ (c = 44 ∨ c = 125 ∨ c = 93)

/-- `t` is a text of the value `v`: it starts with no space, and the reader, with fuel at least
its length and at any depth, reads `v` from `t` and whatever may follow a value. -/
def Reads (t : Bytes) (v : JValue) : Prop :=
  (∃ c u, t = c :: u ∧ isSpace c = false) ∧
    ∀ n depth rest, t.length ≤ n → EndsValue rest → parseValue n depth (t ++ rest) = some (v, rest)

/-- The body of a string literal of `json.Marshal` reads back as the string made valid. -/
theorem parseStringBody_encodeString (s : Bytes) {n : Nat} (hn : (encodeString s).length ≤ n + 1)
    (rest : Bytes) :
    ∃ body, encodeString s = 34 :: body ∧ parseStringBody n (body ++ rest) = some (toValid s, rest) := by
  have hle := length_runes_le s
  simp only [encodeString, List.length_cons, List.length_append, List.length_singleton] at hn
  refine ⟨(runes s).flatMap (fun p => escapeRune p.1 p.2) ++ [34],
    by rw [encodeString, List.cons_append], ?_⟩
  rw [List.append_assoc, List.singleton_append,
    parseStringBody_escaped (fun p hp => runeEntry_of_mem_runes hp) (by omega)]
  rfl

/-- A string literal of `json.Marshal` reads back as the string made valid. -/
theorem reads_encodeString (s : Bytes) : Reads (encodeString s) (.string (toValid s)) := by
  refine ⟨⟨34, _, rfl, rfl⟩, fun n depth rest hn _ => ?_⟩
  obtain ⟨m, rfl⟩ : ∃ m, n = m + 1 :=
    ⟨n - 1, by simp only [encodeString, List.length_append, List.length_cons] at hn; omega⟩
  obtain ⟨body, hb, hp⟩ := parseStringBody_encodeString s hn rest
  rw [hb, List.cons_append, parseValue]
  simp only [parseValueWith, if_neg (show (34 : UInt8) ≠ 123 by decide),
    if_neg (show (34 : UInt8) ≠ 91 by decide), if_true, hp]
  rfl

/-! ## Integers and `null` -/

theorem span_append {p : UInt8 → Bool} {l r : Bytes} (hl : ∀ a ∈ l, p a = true)
    (hr : ∀ a ∈ r.head?, p a = false) : (l ++ r).span p = (l, r) := by
  rw [List.span_eq_take_drop]
  induction l with
  | nil =>
    cases r with
    | nil => rfl
    | cons a r => simp [List.takeWhile_cons, List.dropWhile_cons, hr a rfl]
  | cons a l ih =>
    simp only [List.cons_append, List.takeWhile_cons, List.dropWhile_cons, hl a (.head _), if_true,
      Prod.mk.injEq] at ih ⊢
    exact ⟨congrArg _ (ih fun b hb => hl b (.tail _ hb)).1, (ih fun b hb => hl b (.tail _ hb)).2⟩

theorem EndsValue.head {rest : Bytes} (h : EndsValue rest) :
    ∀ c ∈ rest.head?, c = 44 ∨ c = 125 ∨ c = 93 := by
  rcases h with rfl | ⟨c, t, rfl, hc⟩
  · intro c hc; cases hc
  · intro c' hc'; cases hc'; exact hc

theorem parseIntPart_formatNat (n : Nat) {rest : Bytes} (he : EndsValue rest) :
    parseIntPart (Decimal.formatNat n ++ rest) = some (Decimal.formatNat n, rest) := by
  rcases Nat.eq_zero_or_pos n with rfl | hn
  · rfl
  · obtain ⟨c, t, hf, hc⟩ := Decimal.formatNat_head_pos hn
    have hd : ∀ a ∈ t, Decimal.isDigit a = true := fun a ha =>
      Decimal.formatNat_isDigit n a (hf ▸ .tail _ ha)
    have hr : ∀ a ∈ rest.head?, Decimal.isDigit a = false := fun a ha => by
      rcases he.head a ha with rfl | rfl | rfl <;> rfl
    rw [hf, List.cons_append]
    have h48 : c ≠ 48 := by rintro rfl; exact absurd hc.1 (by decide)
    simp only [parseIntPart, span_append hd hr, if_pos hc]


theorem parseFrac_of_endsValue {rest : Bytes} (he : EndsValue rest) : parseFrac rest = some ([], rest) := by
  rcases he with rfl | ⟨c, t, rfl, hc⟩
  · rfl
  · rcases hc with rfl | rfl | rfl <;> rfl

theorem parseExp_of_endsValue {rest : Bytes} (he : EndsValue rest) : parseExp rest = some ([], rest) := by
  rcases he with rfl | ⟨c, t, rfl, hc⟩
  · rfl
  · rcases hc with rfl | rfl | rfl <;> rfl

/-- The scanner reads a printed integer up to its end. -/
theorem parseNumber_formatInt (i : Int) {rest : Bytes} (he : EndsValue rest) :
    parseNumber (Decimal.formatInt i ++ rest) = some (Decimal.formatInt i, rest) := by
  unfold Decimal.formatInt
  split
  · simp [parseNumber, parseIntPart_formatNat _ he, parseFrac_of_endsValue he, parseExp_of_endsValue he]
  · obtain ⟨c, t, hf, h43, h45⟩ := Decimal.formatNat_head i.toNat
    have := parseIntPart_formatNat i.toNat he
    rw [hf, List.cons_append] at this ⊢
    simp [parseNumber, h45, this, parseFrac_of_endsValue he, parseExp_of_endsValue he]


theorem skipSpace_cons {c : UInt8} (hc : isSpace c = false) (t : Bytes) : skipSpace (c :: t) = c :: t :=
  List.dropWhile_cons_of_neg (by simp [hc])

/-- A document that is the text of a value reads as that value. -/
theorem parseDocument_of_reads {t : Bytes} {v : JValue} (h : Reads t v) : parseDocument t = some v := by
  obtain ⟨⟨c, u, rfl, hc⟩, hv⟩ := h
  have hp := hv ((c :: u).length + 1) 0 [] (by omega) (.inl rfl)
  rw [List.append_nil] at hp
  rw [parseDocument, skipSpace_cons hc, hp]
  rfl

theorem digit_range {c : UInt8} (hc : c = 45 ∨ Decimal.isDigit c = true) :
    45 ≤ c.toNat ∧ c.toNat ≤ 57 := by
  rcases hc with rfl | hc
  · decide
  · simp only [Decimal.isDigit, Bool.and_eq_true, decide_eq_true_eq] at hc; omega

/-- A byte from `-` on is not a space. -/
theorem isSpace_of_digit {c : UInt8} (h : 45 ≤ c.toNat) : isSpace c = false := by
  have ne : ∀ b : UInt8, b.toNat < 45 → (c == b) = false := fun b hb =>
    beq_false_of_ne fun e => by subst e; omega
  rw [isSpace, ne 32 (by decide), ne 9 (by decide), ne 10 (by decide), ne 13 (by decide)]
  rfl

/-- A byte that starts a number, `-` or a digit, starts no other kind of value. -/
theorem parseValueWith_number {nested : Bytes → Option (JValue × Bytes)} {n depth : Nat} {c : UInt8}
    (hc : c = 45 ∨ Decimal.isDigit c = true) (rest : Bytes) :
    parseValueWith nested n depth (c :: rest) =
      (parseNumber (c :: rest)).map fun p => (.number p.1, p.2) := by
  have h := digit_range hc
  have ne : ∀ b : UInt8, (b.toNat < 45 ∨ 57 < b.toNat) → c ≠ b := fun b hb e => by subst e; omega
  rw [parseValueWith, if_neg (ne 123 (by decide)), if_neg (ne 91 (by decide)),
    if_neg (ne 34 (by decide)), if_neg (ne 116 (by decide)), if_neg (ne 102 (by decide)),
    if_neg (ne 110 (by decide))]

/-- `strconv.AppendInt` writes a number that reads back as its literal. -/
theorem reads_formatInt (i : Int) : Reads (Decimal.formatInt i) (.number (Decimal.formatInt i)) := by
  obtain ⟨c, u, hf, hc⟩ : ∃ c u, Decimal.formatInt i = c :: u ∧ (c = 45 ∨ Decimal.isDigit c = true) := by
    unfold Decimal.formatInt
    split
    · exact ⟨45, _, rfl, .inl rfl⟩
    · obtain ⟨c, u, he⟩ := List.exists_cons_of_ne_nil (Decimal.formatNat_ne_nil i.toNat)
      exact ⟨c, u, he, .inr (Decimal.formatNat_isDigit _ c (by rw [he]; exact .head _))⟩
  refine ⟨⟨c, u, hf, ?_⟩, fun n depth rest hn he => ?_⟩
  · exact isSpace_of_digit (digit_range hc).1
  · obtain ⟨m, rfl⟩ := Nat.exists_eq_add_of_lt (show 0 < n by rw [hf] at hn; simp at hn; omega)
    rw [parseValue, hf, List.cons_append, parseValueWith_number hc, ← List.cons_append, ← hf,
      parseNumber_formatInt i he]
    rfl

/-- `null` reads back as `null`. -/
theorem reads_null : Reads (ascii "null") .null := by
  have hnull : ascii "null" = [110, 117, 108, 108] := by decide
  refine ⟨⟨110, _, hnull, rfl⟩, fun n depth rest hn _ => ?_⟩
  rw [hnull] at hn ⊢
  obtain ⟨m, rfl⟩ := Nat.exists_eq_add_of_lt (show 0 < n by simp at hn; omega)
  simp [parseValue, parseValueWith, parseLiteral]

/-- `true` reads back as `true`. -/
theorem reads_true : Reads (ascii "true") (.bool true) := by
  have htrue : ascii "true" = [116, 114, 117, 101] := by decide
  refine ⟨⟨116, _, htrue, rfl⟩, fun n depth rest hn _ => ?_⟩
  rw [htrue] at hn ⊢
  obtain ⟨m, rfl⟩ := Nat.exists_eq_add_of_lt (show 0 < n by simp at hn; omega)
  simp [parseValue, parseValueWith, parseLiteral]

/-! ## Objects -/

/-- The members of a struct between its braces, as the struct encoder writes them. -/
def encodeMembers (fields : List (Bytes × Bytes)) : Bytes :=
  List.intercalate [44] (fields.map fun f => encodeString f.1 ++ 58 :: f.2)

theorem encodeObject_eq (fields : List (Bytes × Bytes)) :
    encodeObject fields = 123 :: encodeMembers fields ++ [125] := rfl

/-- A member of a struct: its name, the text the encoder writes for its value, and the value
that the reader reads back from that text. -/
structure Member where
  name : Bytes
  text : Bytes
  value : JValue
  reads : Reads text value

/-- What the struct encoder writes of a member. -/
def Member.field (f : Member) : Bytes × Bytes := (f.name, f.text)

/-- What the reader returns for a member: the name unquoted, and the value. -/
def Member.entry (f : Member) : Bytes × JValue := (toValid f.name, f.value)

/-- One member reads back as its unquoted name and its value. -/
theorem parseMember_encode (f : Member) {m k depth : Nat} (hm : f.text.length ≤ m)
    (hk : (encodeString f.name).length ≤ k + 1) {rest : Bytes} (he : EndsValue rest) :
    parseMember (parseValue m depth) k (encodeString f.name ++ 58 :: (f.text ++ rest)) =
      some (f.entry, rest) := by
  obtain ⟨body, hb, hp⟩ := parseStringBody_encodeString f.name hk (58 :: (f.text ++ rest))
  obtain ⟨⟨c, u, hc, hsp⟩, hv⟩ := f.reads
  rw [hb, List.cons_append]
  simp only [parseMember, hp, skipSpace_cons (c := 58) rfl]
  rw [hc, List.cons_append, skipSpace_cons hsp, ← List.cons_append, ← hc, hv m depth rest hm he]
  rfl

theorem encodeMembers_head (f : Member) (fs : List Member) :
    ∃ t, encodeMembers ((f :: fs).map Member.field) = 34 :: t := by
  cases fs <;> simp [encodeMembers, List.intercalate, encodeString, Member.field]

theorem parseMembers_encode {fs : List Member} (hne : fs ≠ []) {m n depth : Nat}
    (hm : (encodeMembers (fs.map Member.field)).length ≤ m)
    (hn : (encodeMembers (fs.map Member.field)).length < n) (rest : Bytes) :
    parseMembers (parseValue m depth) n (encodeMembers (fs.map Member.field) ++ 125 :: rest) =
      some (fs.map Member.entry, rest) := by
  induction fs generalizing n with
  | nil => exact absurd rfl hne
  | cons f fs ih =>
    obtain ⟨k, rfl⟩ : ∃ k, n = k + 1 := ⟨n - 1, by omega⟩
    cases fs with
    | nil =>
      have h1 : encodeMembers ([f].map Member.field) = encodeString f.name ++ 58 :: f.text := by
        simp [encodeMembers, List.intercalate, Member.field]
      rw [h1] at hm hn ⊢
      simp only [List.length_append, List.length_cons] at hm hn
      rw [List.append_assoc, List.cons_append]
      simp only [parseMembers, parseMember_encode f (m := m) (k := k) (by omega) (by omega)
        (.inr ⟨125, rest, rfl, .inr (.inl rfl)⟩)]
      rfl
    | cons g gs =>
      have heq : encodeMembers ((f :: g :: gs).map Member.field) =
          encodeString f.name ++ 58 :: f.text ++ 44 :: encodeMembers ((g :: gs).map Member.field) := by
        simp [encodeMembers, List.intercalate, Member.field]
      obtain ⟨t, ht⟩ := encodeMembers_head g gs
      rw [heq] at hm hn ⊢
      simp only [List.length_append, List.length_cons] at hm hn
      simp only [List.append_assoc, List.cons_append]
      simp only [parseMembers, parseMember_encode f (m := m) (k := k) (by omega) (by omega)
        (.inr ⟨44, _, rfl, .inl rfl⟩)]
      simp only [parseSep, skipSpace_cons (c := 44) rfl, ht, List.cons_append,
        skipSpace_cons (c := 34) rfl]
      rw [← List.cons_append, ← ht, ih (List.cons_ne_nil _ _) (by omega) (by omega)]
      rfl

theorem parseObject_members {nested : Bytes → Option (JValue × Bytes)} {n : Nat} (t : Bytes) :
    parseObject nested n (34 :: t) = (parseMembers nested n (34 :: t)).map fun p => (.object p.1, p.2) :=
  rfl

/-- A struct reads back as the object of its members' values, inside fewer than
`maxNestingDepth` open values; whatever follows its `}` is left. -/
theorem parseValue_encodeObject (fs : List Member) {n depth : Nat} (hd : depth < maxNestingDepth)
    (hn : (encodeObject (fs.map Member.field)).length ≤ n) (rest : Bytes) :
    parseValue n depth (encodeObject (fs.map Member.field) ++ rest) =
      some (.object (fs.map Member.entry), rest) := by
  rw [encodeObject_eq] at hn ⊢
  simp only [List.length_cons, List.length_append, List.length_singleton] at hn
  obtain ⟨m, rfl⟩ : ∃ m, n = m + 1 := ⟨n - 1, by omega⟩
  simp only [List.cons_append, List.append_assoc, List.singleton_append, List.nil_append,
    parseValue, parseValueWith, if_true, if_pos hd]
  cases fs with
  | nil => rfl
  | cons f fs =>
    obtain ⟨t, ht⟩ := encodeMembers_head f fs
    rw [ht, List.cons_append, skipSpace_cons (c := 34) rfl, parseObject_members, ← List.cons_append,
      ← ht, parseMembers_encode (m := m) (List.cons_ne_nil _ _) (by omega) (by omega)]
    rfl

/-- `json.Unmarshal`'s scan reads a struct as the object of its members' values. -/
theorem parseDocument_encodeObject (fs : List Member) :
    parseDocument (encodeObject (fs.map Member.field)) = some (.object (fs.map Member.entry)) := by
  obtain ⟨t, ht⟩ : ∃ t, encodeObject (fs.map Member.field) = 123 :: t := ⟨_, encodeObject_eq _⟩
  have h := parseValue_encodeObject fs (n := (encodeObject (fs.map Member.field)).length + 1)
    (show 0 < maxNestingDepth by decide) (by omega) []
  rw [List.append_nil] at h
  rw [parseDocument, ht, skipSpace_cons (c := 123) rfl, ← ht, h]
  rfl

/-! ## Byte slices -/

theorem escapeRune_safe {b : UInt8} (hb : htmlSafe b = true) : escapeRune b.toNat [b] = [b] := by
  have h80 := ((htmlSafe_iff b).1 hb).2.1
  simp only [escapeRune, if_pos h80, toUInt8_toNat, hb, if_true]

/-- `appendString` copies a string of safe bytes between its quotes. -/
theorem encodeString_of_htmlSafe {s : Bytes} (hs : ∀ b ∈ s, htmlSafe b = true) :
    encodeString s = 34 :: s ++ [34] := by
  rw [encodeString, runes_ascii fun b hb => ((htmlSafe_iff b).1 (hs b hb)).2.1]
  congr 2
  induction s with
  | nil => rfl
  | cons b s ih =>
    simp only [List.map_cons, List.flatMap_cons, escapeRune_safe (hs b (.head _)),
      ih fun c hc => hs c (.tail _ hc), List.singleton_append]

theorem htmlSafe_of_mem_encodeToString {c : UInt8} {bs : Bytes} (hc : c ∈ Base64.encodeToString bs) :
    htmlSafe c = true := by
  have key : ∀ n < 64, htmlSafe (Base64.encodeStd n) = true := by decide
  rcases Base64.mem_encodeToString hc with rfl | ⟨n, hn, rfl⟩
  exacts [rfl, key n hn]

/-- A `[]byte` is written as the string literal of its base64 encoding. -/
theorem encodeBytes_eq (b : Bytes) : encodeBytes b = encodeString (Base64.encodeToString b) :=
  (encodeString_of_htmlSafe fun _ => htmlSafe_of_mem_encodeToString).symm

theorem reads_encodeBytes (b : Bytes) : Reads (encodeBytes b) (.string (Base64.encodeToString b)) := by
  have hv : valid (Base64.encodeToString b) = true :=
    valid_ascii fun c hc => ((htmlSafe_iff c).1 (htmlSafe_of_mem_encodeToString hc)).2.1
  have h := reads_encodeString (Base64.encodeToString b)
  rwa [toValid_of_valid hv, ← encodeBytes_eq] at h


/-! ## No encoder writes a control byte -/

/-- No byte of the text is a control byte under `0x20`. -/
def Printable (t : Bytes) : Prop := ∀ b ∈ t, 0x20 ≤ b.toNat

instance (t : Bytes) : Decidable (Printable t) := inferInstanceAs (Decidable (∀ b ∈ t, _))

theorem Printable.newline_not_mem {t : Bytes} (h : Printable t) : (10 : UInt8) ∉ t :=
  fun hm => absurd (h 10 hm) (by decide)

theorem Printable.append {s t : Bytes} (hs : Printable s) (ht : Printable t) : Printable (s ++ t) :=
  fun b hb => (List.mem_append.1 hb).elim (hs b) (ht b)

theorem Printable.cons {c : UInt8} {t : Bytes} (hc : 0x20 ≤ c.toNat) (ht : Printable t) :
    Printable (c :: t) :=
  List.forall_mem_cons.2 ⟨hc, ht⟩

theorem printable_hextable {n : Nat} (h : n < 16) : 0x20 ≤ (Hex.hextable n).toNat := by
  rcases Hex.hextable_range h with h | h <;> omega

theorem printable_escapeByte (c : UInt8) : Printable (escapeByte c) := by
  rcases escapeByte_cases c with ⟨e, he, h⟩ | h <;> rw [h]
  · exact .cons (by decide) (.cons (shortEscape_printable he).1 (by decide))
  · have h1 := printable_hextable (show c.toNat / 16 < 16 by have := UInt8.toNat_lt_256 c; omega)
    have h2 := printable_hextable (show c.toNat % 16 < 16 by omega)
    exact .cons (by decide) (.cons (by decide) (.cons (by decide) (.cons (by decide)
      (.cons h1 (.cons h2 (by decide))))))

theorem printable_escapeRune {p : Nat × Bytes} (hp : RuneEntry p) : Printable (escapeRune p.1 p.2) := by
  unfold escapeRune
  split_ifs with h80 hsafe herr hsep
  · exact List.forall_mem_singleton.2 ((htmlSafe_iff _).1 hsafe).1
  · exact printable_escapeByte _
  · decide
  · have := printable_hextable (show p.1 % 16 < 16 by omega)
    exact .cons (by decide) (.cons (by decide) (.cons (by decide) (.cons (by decide)
      (.cons (by decide) (.cons this (by decide))))))
  · rcases hp with ⟨h, -⟩ | ⟨h, b, -, hb⟩ | ⟨-, -, h⟩
    · exact absurd h h80
    · exact absurd ⟨h, by rw [hb]; rfl⟩ herr
    · rw [h]
      exact fun b hb => le_trans (by decide) (encodeRune_high (by omega) b hb)

theorem printable_encodeString (s : Bytes) : Printable (encodeString s) := by
  refine Printable.cons (by decide) (Printable.append ?_ (by decide))
  intro b hb
  obtain ⟨p, hp, hbp⟩ := List.mem_flatMap.1 hb
  exact printable_escapeRune (runeEntry_of_mem_runes hp) b hbp

theorem printable_formatInt (i : Int) : Printable (Decimal.formatInt i) := by
  have hd : ∀ n, Printable (Decimal.formatNat n) := fun n b hb => by
    have := Decimal.formatNat_isDigit n b hb
    simp only [Decimal.isDigit, Bool.and_eq_true, decide_eq_true_eq] at this
    omega
  unfold Decimal.formatInt
  split
  exacts [Printable.cons (by decide) (hd _), hd _]

theorem printable_encodeBytes (b : Bytes) : Printable (encodeBytes b) :=
  encodeBytes_eq b ▸ printable_encodeString _

theorem printable_intercalate {sep : Bytes} (hs : Printable sep) :
    ∀ {xs : List Bytes}, (∀ x ∈ xs, Printable x) → Printable (List.intercalate sep xs)
  | [], _ => fun _ hb => by simp [List.intercalate] at hb
  | [x], h => by simpa [List.intercalate] using h
  | x :: y :: xs, h => by
    rw [show List.intercalate sep (x :: y :: xs) = x ++ (sep ++ List.intercalate sep (y :: xs)) from rfl]
    exact (h x (.head _)).append (hs.append (printable_intercalate hs fun z hz => h z (.tail _ hz)))

/-- A struct whose values are printable texts is printable. -/
theorem printable_encodeObject {fields : List (Bytes × Bytes)} (h : ∀ f ∈ fields, Printable f.2) :
    Printable (encodeObject fields) := by
  refine Printable.cons (by decide) (Printable.append ?_ (by decide))
  have hm : ∀ x ∈ fields.map (fun f => encodeString f.1 ++ 58 :: f.2), Printable x := by
    simp only [List.mem_map]
    rintro x ⟨f, hf, rfl⟩
    exact (printable_encodeString _).append (Printable.cons (by decide) (h f hf))
  exact printable_intercalate (by decide) hm

end GoBuildCache.Json
