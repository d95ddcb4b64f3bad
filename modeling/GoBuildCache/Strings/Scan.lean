import GoBuildCache.Strings.Decimal
import GoBuildCache.Strings.Utf8

/-!
# `strings.TrimSpace`, `strings.Split` and `fmt.Sscanf`

`LocalCache.readMetadata` splits the sidecar at newlines, trims each line, picks the line by
its key with `strings.HasPrefix`, and reads the value with `fmt.Sscanf(line, "key:%s", &v)` or
`fmt.Sscanf(line, "key:%d", &v)`, ignoring the error.  This module writes those library
functions at the level of runes, as Go reads them:

* `isSpace` is `unicode.IsSpace`, which is also the table `space` of `fmt`'s scanner, and
  `trimSpace` drops the leading and the trailing space runes.  Go's `TrimRightFunc` decodes
  backwards; a valid rune at the end of a string starts at a byte that no earlier rune covers,
  so reading the runes forwards finds the same trailing spaces.
* `strings.Split(s, "\n")` is Mathlib's `List.splitOn 10`, and `strings.HasPrefix` is
  `List.isPrefixOf`.
* `sscanfString` and `sscanfInt` are `Sscanf` with a format made of a literal without spaces
  followed by one `%s` or `%d` verb.  They return the new value of the target variable: on
  any scan error Go's `errorHandler` recovers before the assignment, so the variable keeps its
  old value.  Each verb skips spaces twice (`doScanf`, then `convertString` or `scanInt`); the
  second skip finds nothing, so the model skips once.

The lemmas read back what a printer of the program writes: a line of non-space ASCII is its
own trim (`trimSpace_of_plain`), `%s` reads a non-empty plain token to its end
(`sscanfString_plain`), and `%d` reads `strconv.FormatInt`'s output as the same `int64`
(`sscanfInt_formatInt`).
-/

namespace GoBuildCache.Scan

open Utf8

/-! ## Spaces and `strings.TrimSpace` -/

/-- `unicode.IsSpace`: `\t`, `\n`, `\v`, `\f`, `\r`, space, `U+0085`, `U+00A0`, and the
`White_Space` runes above Latin-1.  `fmt`'s scanner uses the same set. -/
def isSpace (r : Nat) : Bool :=
  (9 ≤ r && r ≤ 13) || r == 32 || r == 0x85 || r == 0xA0 || r == 0x1680 ||
    (0x2000 ≤ r && r ≤ 0x200A) || r == 0x2028 || r == 0x2029 || r == 0x202F ||
    r == 0x205F || r == 0x3000

/-- `strings.TrimSpace`: the string without its leading and trailing space runes. -/
def trimSpace (s : Bytes) : Bytes :=
  (((runes s).dropWhile fun p => isSpace p.1).reverse.dropWhile fun p => isSpace p.1).reverse.flatMap
    Prod.snd

/-- ASCII bytes none of which is a space: what the sidecar's printer writes on a line. -/
def Plain (s : Bytes) : Prop := ∀ b ∈ s, b.toNat < 0x80 ∧ isSpace b.toNat = false

instance (s : Bytes) : Decidable (Plain s) :=
  inferInstanceAs (Decidable (∀ b ∈ s, b.toNat < 0x80 ∧ isSpace b.toNat = false))

/-- Printable ASCII bytes other than the space are plain. -/
theorem plain_of_printable {s : Bytes} (hs : ∀ b ∈ s, 33 ≤ b.toNat ∧ b.toNat < 0x80) : Plain s := by
  have key : ∀ r < 0x80, 33 ≤ r → isSpace r = false := by decide
  exact fun b hb => ⟨(hs b hb).2, key _ (hs b hb).2 (hs b hb).1⟩

theorem Plain.not_mem_newline {s : Bytes} (hs : Plain s) : (10 : UInt8) ∉ s := fun h =>
  absurd (hs 10 h).2 (by decide)

theorem Plain.append {s t : Bytes} (hs : Plain s) (ht : Plain t) : Plain (s ++ t) := by
  intro b hb
  rcases List.mem_append.1 hb with h | h
  · exact hs b h
  · exact ht b h

theorem Plain.runes_eq {s : Bytes} (hs : Plain s) : runes s = s.map fun b => (b.toNat, [b]) :=
  runes_ascii fun b hb => (hs b hb).1

private theorem dropWhile_of_forall_not {α : Type} {p : α → Bool} {l : List α}
    (h : ∀ a ∈ l, p a = false) : l.dropWhile p = l := by
  cases l with
  | nil => rfl
  | cons a l => exact List.dropWhile_cons_of_neg (by simp [h a (.head _)])

/-- A string of non-space ASCII bytes is its own trim. -/
theorem trimSpace_of_plain {s : Bytes} (hs : Plain s) : trimSpace s = s := by
  have hsp : ∀ p ∈ runes s, isSpace p.1 = false := by
    intro p hp
    rw [hs.runes_eq] at hp
    obtain ⟨b, hb, rfl⟩ := List.mem_map.1 hp
    exact (hs b hb).2
  rw [trimSpace, dropWhile_of_forall_not hsp,
    dropWhile_of_forall_not (fun p hp => hsp p (List.mem_reverse.1 hp)), List.reverse_reverse,
    flatMap_runes]

/-- A string that starts with an ASCII byte other than a space does not trim to nothing. -/
theorem trimSpace_ne_nil {c : UInt8} (hc : c.toNat < 0x80) (hs : isSpace c.toNat = false)
    (t : Bytes) : trimSpace (c :: t) ≠ [] := by
  rw [trimSpace, runes_ascii_cons hc, List.dropWhile_cons_of_neg (by simp [hs])]
  have hne : ((c.toNat, [c]) :: runes t).reverse.dropWhile (fun p => isSpace p.1) ≠ [] := by
    rw [Ne, List.dropWhile_eq_nil_iff]
    exact fun hall => absurd (hall _ (List.mem_reverse.2 (.head _))) (by simp [hs])
  obtain ⟨p, ps, hp⟩ := List.exists_cons_of_ne_nil hne
  have hmem : p ∈ (c.toNat, [c]) :: runes t :=
    List.mem_reverse.1 ((List.dropWhile_suffix _).subset (hp ▸ List.mem_cons_self _ _))
  have hsnd : p.2 ≠ [] := by
    rcases List.mem_cons.1 hmem with rfl | h
    · exact List.cons_ne_nil _ _
    · exact (runeEntry_of_mem_runes h).snd_ne_nil
  rw [hp, List.reverse_cons, List.flatMap_append, List.flatMap_cons, List.flatMap_nil, List.append_nil]
  exact fun h => hsnd (List.append_eq_nil.1 h).2

/-! ## `fmt.Sscanf` with one verb -/

/-- `ss.SkipSpace` as `Sscanf` runs it: space runes are skipped, and a newline, which is not a
space for `Sscanf`, is the error `unexpected newline`.  (A `\r` before the newline is skipped
first, as Go's `peek` does.) -/
def skipSpace : List (Nat × Bytes) → Option (List (Nat × Bytes))
  | [] => some []
  | p :: ps => if p.1 = 10 then none else if isSpace p.1 then skipSpace ps else some (p :: ps)

/-- `ss.advance` on a literal without spaces or `%`: each rune of the format must be the next
rune of the input; a mismatch is `input does not match format` and the end of the input is
`unexpected EOF`. -/
def matchLiteral : List Nat → List (Nat × Bytes) → Option (List (Nat × Bytes))
  | [], rs => some rs
  | _ :: _, [] => none
  | c :: cs, p :: ps => if c = p.1 then matchLiteral cs ps else none

/-- The `%s` verb after the literal (`convertString` then `token(true, notSpace)`): the next
run of non-space runes, each written back with `utf8.AppendRune`.  The end of the input is an
error (`notEOF`). -/
def scanString (input : List (Nat × Bytes)) : Option Bytes :=
  match skipSpace input with
  | none => none
  | some [] => none
  | some rs => some ((rs.takeWhile fun p => !isSpace p.1).flatMap fun p => encodeRune p.1)

/-- The runes `0`-`9` of `decimalDigits`. -/
def isDecimalDigit (r : Nat) : Bool := 48 ≤ r && r ≤ 57

/-- `s.accept(sign)`: a leading `+` or `-` goes into the token. -/
def acceptSign : List (Nat × Bytes) → Bytes × List (Nat × Bytes)
  | [] => ([], [])
  | p :: ps => if p.1 = 43 ∨ p.1 = 45 then ([p.1.toUInt8], ps) else ([], p :: ps)

/-- The `%d` verb for an `int64` target after the literal (`scanInt(verb, 64)`): an optional
sign, at least one decimal digit (`expected integer` otherwise), as many digits as follow, then
`strconv.ParseInt(tok, 10, 64)`, whose error is raised as a scan error. -/
def scanInt (input : List (Nat × Bytes)) : Option Int64 :=
  match skipSpace input with
  | none => none
  | some rs =>
    match ((acceptSign rs).2.takeWhile fun p => isDecimalDigit p.1) with
    | [] => none
    | digits =>
      match Decimal.parseInt ((acceptSign rs).1 ++ digits.map fun p => p.1.toUInt8) with
      | .ok v => some v
      | .error _ => none

/-- `fmt.Sscanf(line, lit + "%s", &v)`: the value of `v` afterwards. -/
def sscanfString (lit line v : Bytes) : Bytes :=
  match matchLiteral ((runes lit).map Prod.fst) (runes line) with
  | none => v
  | some rest => (scanString rest).getD v

/-- `fmt.Sscanf(line, lit + "%d", &v)` for an `int64` variable: the value of `v` afterwards. -/
def sscanfInt (lit line : Bytes) (v : Int64) : Int64 :=
  match matchLiteral ((runes lit).map Prod.fst) (runes line) with
  | none => v
  | some rest => (scanInt rest).getD v

/-! ## Reading back plain tokens -/

/-- `SkipSpace` stops at once before a non-space ASCII byte. -/
theorem skipSpace_plain {tok : Bytes} (htok : Plain tok) :
    skipSpace (runes tok) = some (runes tok) := by
  rw [htok.runes_eq]
  cases tok with
  | nil => rfl
  | cons b bs =>
    have hb := htok b (.head _)
    have h10 : b.toNat ≠ 10 := fun h => by simp [h, isSpace] at hb
    rw [List.map_cons, skipSpace, if_neg h10, if_neg (by simp [hb.2])]

/-- `%s` reads a non-empty token of non-space ASCII bytes to its end. -/
theorem scanString_plain {tok : Bytes} (htok : Plain tok) (hne : tok ≠ []) :
    scanString (runes tok) = some tok := by
  have htake : (runes tok).takeWhile (fun p => !isSpace p.1) = runes tok :=
    List.takeWhile_eq_self_iff.2 fun p hp => by
      rw [htok.runes_eq] at hp
      obtain ⟨c, hc, rfl⟩ := List.mem_map.1 hp
      simp [(htok c hc).2]
  obtain ⟨b, bs, hcons⟩ := List.exists_cons_of_ne_nil hne
  have hr : runes tok = (b.toNat, [b]) :: runes bs := by
    rw [hcons, runes_ascii_cons (htok b (hcons ▸ .head _)).1]
  rw [scanString, skipSpace_plain htok]
  rw [hr] at htake ⊢
  dsimp only
  rw [htake, ← hr, htok.runes_eq]
  exact congrArg some (flatMap_encodeRune_ascii fun c hc => (htok c hc).1)

theorem isDigit_plain {ds : Bytes} (hds : ∀ c ∈ ds, Decimal.isDigit c = true) : Plain ds := by
  intro c hc
  have := hds c hc
  simp only [Decimal.isDigit, Bool.and_eq_true, decide_eq_true_eq] at this
  exact ⟨by omega, by simp [isSpace]; omega⟩

/-- What `strconv.FormatInt` prints is plain: an optional `-` and digits. -/
theorem plain_formatInt (i : Int) : Plain (Decimal.formatInt i) := by
  unfold Decimal.formatInt
  split
  · exact (show Plain [45] by decide).append (isDigit_plain (Decimal.formatNat_isDigit _))
  · exact isDigit_plain (Decimal.formatNat_isDigit _)

/-- `%d` reads an optionally negative run of digits as `strconv.ParseInt` reads it. -/
theorem scanInt_signed {sign ds : Bytes} (hsign : sign = [] ∨ sign = [45])
    (hds : ∀ c ∈ ds, Decimal.isDigit c = true) (hne : ds ≠ []) :
    scanInt (runes (sign ++ ds)) = match Decimal.parseInt (sign ++ ds) with
      | .ok v => some v
      | .error _ => none := by
  have hp : Plain ds := isDigit_plain hds
  have hsp : Plain sign := by rcases hsign with rfl | rfl <;> decide
  obtain ⟨c, cs, rfl⟩ := List.exists_cons_of_ne_nil hne
  have hc := hds c (.head _)
  simp only [Decimal.isDigit, Bool.and_eq_true, decide_eq_true_eq] at hc
  have hsign' : acceptSign (runes (sign ++ c :: cs)) = (sign, runes (c :: cs)) := by
    rw [(hsp.append hp).runes_eq, hp.runes_eq]
    rcases hsign with rfl | rfl
    · simp only [List.nil_append, List.map_cons, acceptSign]
      rw [if_neg (by omega)]
    · rfl
  have htake : (runes (c :: cs)).takeWhile (fun p => isDecimalDigit p.1) = runes (c :: cs) :=
    List.takeWhile_eq_self_iff.2 fun p hp' => by
      rw [hp.runes_eq] at hp'
      obtain ⟨d, hd, rfl⟩ := List.mem_map.1 hp'
      exact hds d hd
  have hback : (runes (c :: cs)).map (fun p => p.1.toUInt8) = c :: cs := by
    rw [hp.runes_eq, List.map_map]
    exact (List.map_congr_left fun d _ => UInt8.ofNat_toNat d).trans (List.map_id _)
  rw [scanInt, skipSpace_plain (hsp.append hp)]
  dsimp only
  rw [hsign', htake, runes_ascii_cons (by omega)]
  dsimp only
  rw [← runes_ascii_cons (by omega), hback]

section Plain

variable {lit : Bytes} (hlit : Plain lit)
include hlit

/-- The runes of `lit ++ tok` after the literal `lit` are the runes of `tok`. -/
theorem matchLiteral_plain {tok : Bytes} (htok : Plain tok) :
    matchLiteral ((runes lit).map Prod.fst) (runes (lit ++ tok)) = some (runes tok) := by
  rw [hlit.runes_eq, (hlit.append htok).runes_eq, htok.runes_eq, List.map_map, List.map_append]
  clear hlit htok
  induction lit with
  | nil => rfl
  | cons b lit ih => simp only [List.map_cons, List.cons_append, matchLiteral]; simpa using ih

/-- `%s` on a line that ends after the literal fails and leaves the variable as it was. -/
theorem sscanfString_lit (v : Bytes) : sscanfString lit lit v = v := by
  have h : matchLiteral _ (runes (lit ++ [])) = some (runes []) :=
    matchLiteral_plain hlit (fun _ h => absurd h (List.not_mem_nil _))
  rw [List.append_nil] at h
  simp only [sscanfString, h]
  rfl

/-- `%s` reads a non-empty token of non-space ASCII bytes to its end. -/
theorem sscanfString_plain {tok : Bytes} (htok : Plain tok) (hne : tok ≠ []) (v : Bytes) :
    sscanfString lit (lit ++ tok) v = tok := by
  simp only [sscanfString, matchLiteral_plain hlit htok, scanString_plain htok hne, Option.getD_some]

/-- `%d` reads what `strconv.FormatInt(i, 10)` prints as `i`. -/
theorem sscanfInt_formatInt (i : Int64) (v : Int64) :
    sscanfInt lit (lit ++ Decimal.formatInt i.val) v = i := by
  have hfmt : ∃ sign, (sign = [] ∨ sign = [45]) ∧
      Decimal.formatInt i.val = sign ++ Decimal.formatNat i.val.natAbs := by
    unfold Decimal.formatInt
    split
    · exact ⟨[45], .inr rfl, rfl⟩
    · exact ⟨[], .inl rfl, by rw [List.nil_append]; congr 1; omega⟩
  obtain ⟨sign, hsign, hf⟩ := hfmt
  have hds := Decimal.formatNat_isDigit i.val.natAbs
  simp only [sscanfInt, matchLiteral_plain hlit (plain_formatInt i.val)]
  rw [hf, scanInt_signed hsign hds (Decimal.formatNat_ne_nil _), ← hf, Decimal.parseInt_formatInt]
  rfl

end Plain

end GoBuildCache.Scan
