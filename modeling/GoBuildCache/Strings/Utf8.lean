import GoBuildCache.Basic

/-!
# `unicode/utf8`

Several readers of the program decode UTF-8: `strings.TrimSpace` and `fmt`'s scanner decide
what a space is rune by rune, and `encoding/json` replaces every byte that does not start a
valid sequence with `U+FFFD`.  This module writes the part of Go's `unicode/utf8` they use.

* `runes` reads a byte string the way repeated `utf8.DecodeRune` calls read it: each entry is a
  rune and the bytes it spans, and a byte that starts no valid sequence is `RuneError` spanning
  that one byte.  Go's tables `first` and `acceptRanges` are `leadInfo`, and one call of
  `DecodeRune` is `decodeFirst`.  A rune spans one to four bytes, so the length of the string
  is enough fuel; `runes_cons` and `runes_induction` hide the fuel from every later proof.
* `encodeRune` is `utf8.EncodeRune`: surrogates and values past `MaxRune` are written as
  `RuneError`.
* `valid` is `utf8.Valid`: every rune re-encodes to the bytes it spans.
* `flatMap_runes` says that the spans of the runes are the string, `runes_ascii_cons` that an
  ASCII byte is a rune of its own, and `runes_encodeRune_append` that the encoding of a scalar
  value is read back as that one rune.
* `decodeFirst_cases` sorts what one `DecodeRune` call reads into the three kinds of
  `RuneEntry`: an ASCII byte, a byte that starts no valid sequence, or the encoding of a scalar
  value.  `toValid` is what `encoding/json` makes of a string, with `U+FFFD` for every invalid
  byte; it is always valid (`valid_toValid`) and leaves a valid string alone
  (`toValid_of_valid`).
-/

namespace GoBuildCache.Utf8

/-- `utf8.RuneError`, `U+FFFD`. -/
def runeError : Nat := 0xFFFD

/-- The table `first` of `unicode/utf8` for a byte at or above `0x80`: the length of the
sequence it starts and the range of the second byte (`acceptRanges`), or `none` for a byte
that starts no sequence. -/
def leadInfo (b : Nat) : Option (Nat × Nat × Nat) :=
  if b < 0xC2 then none
  else if b ≤ 0xDF then some (2, 0x80, 0xBF)
  else if b = 0xE0 then some (3, 0xA0, 0xBF)
  else if b ≤ 0xEC then some (3, 0x80, 0xBF)
  else if b = 0xED then some (3, 0x80, 0x9F)
  else if b ≤ 0xEF then some (3, 0x80, 0xBF)
  else if b = 0xF0 then some (4, 0x90, 0xBF)
  else if b ≤ 0xF3 then some (4, 0x80, 0xBF)
  else if b = 0xF4 then some (4, 0x80, 0x8F)
  else none

/-- A continuation byte, `0x80`-`0xBF`. -/
def isCont (b : UInt8) : Bool := 0x80 ≤ b.toNat && b.toNat ≤ 0xBF

/-- `utf8.DecodeRune` on the non-empty string `b0 :: rest`: the rune it starts with and its
width, or `RuneError` of width `1` when it does not start with a valid sequence. -/
def decodeFirst (b0 : UInt8) (rest : Bytes) : Nat × Nat :=
  if b0.toNat < 0x80 then (b0.toNat, 1) else
  match leadInfo b0.toNat, rest with
  | some (2, lo, hi), b1 :: _ =>
    if lo ≤ b1.toNat ∧ b1.toNat ≤ hi then ((b0.toNat % 32) * 64 + b1.toNat % 64, 2)
    else (runeError, 1)
  | some (3, lo, hi), b1 :: b2 :: _ =>
    if lo ≤ b1.toNat ∧ b1.toNat ≤ hi ∧ isCont b2 = true then
      ((b0.toNat % 16) * 4096 + (b1.toNat % 64) * 64 + b2.toNat % 64, 3)
    else (runeError, 1)
  | some (4, lo, hi), b1 :: b2 :: b3 :: _ =>
    if lo ≤ b1.toNat ∧ b1.toNat ≤ hi ∧ isCont b2 = true ∧ isCont b3 = true then
      ((b0.toNat % 8) * 262144 + (b1.toNat % 64) * 4096 + (b2.toNat % 64) * 64 +
        b3.toNat % 64, 4)
    else (runeError, 1)
  | _, _ => (runeError, 1)

/-- `utf8.DecodeRune`: the first rune and its width; `(RuneError, 0)` on the empty string. -/
def decodeRune : Bytes → Nat × Nat
  | [] => (runeError, 0)
  | b0 :: rest => decodeFirst b0 rest

/-- `runes` with a bound on the number of runes read. -/
def runesAux : Nat → Bytes → List (Nat × Bytes)
  | 0, _ => []
  | _ + 1, [] => []
  | fuel + 1, b0 :: rest =>
    ((decodeFirst b0 rest).1, (b0 :: rest).take (decodeFirst b0 rest).2) ::
      runesAux fuel ((b0 :: rest).drop (decodeFirst b0 rest).2)

/-- The runes of a byte string as successive `utf8.DecodeRune` calls read them, each with the
bytes it spans.  Every rune spans at least one byte, so the length of the string bounds their
number. -/
def runes (s : Bytes) : List (Nat × Bytes) := runesAux s.length s

/-- `utf8.EncodeRune`.  A surrogate or a value past `MaxRune` is written as `RuneError`, whose
encoding is `EF BF BD`. -/
def encodeRune (r : Nat) : Bytes :=
  if r < 0x80 then [r.toUInt8]
  else if r < 0x800 then [(0xC0 + r / 64).toUInt8, (0x80 + r % 64).toUInt8]
  else if 0x10FFFF < r ∨ (0xD800 ≤ r ∧ r ≤ 0xDFFF) then [0xEF, 0xBF, 0xBD]
  else if r < 0x10000 then
    [(0xE0 + r / 4096).toUInt8, (0x80 + r / 64 % 64).toUInt8, (0x80 + r % 64).toUInt8]
  else
    [(0xF0 + r / 262144).toUInt8, (0x80 + r / 4096 % 64).toUInt8,
      (0x80 + r / 64 % 64).toUInt8, (0x80 + r % 64).toUInt8]

/-- `utf8.Valid`: every rune re-encodes to the bytes it spans, so no byte was read as an
invalid `RuneError`. -/
def valid (s : Bytes) : Bool := (runes s).all fun p => encodeRune p.1 == p.2

/-- A rune spans one to four bytes of the string. -/
theorem decodeFirst_width (b0 : UInt8) (rest : Bytes) :
    1 ≤ (decodeFirst b0 rest).2 ∧ (decodeFirst b0 rest).2 ≤ rest.length + 1 := by
  unfold decodeFirst
  split
  · simp
  · split <;> (try split) <;> simp_all

private theorem runesAux_fuel (fuel fuel' : Nat) (s : Bytes) (h : s.length ≤ fuel)
    (h' : s.length ≤ fuel') : runesAux fuel s = runesAux fuel' s := by
  induction fuel generalizing fuel' s with
  | zero => cases s with
    | nil => cases fuel' <;> rfl
    | cons => simp at h
  | succ n ih =>
    cases s with
    | nil => cases fuel' <;> rfl
    | cons b0 rest =>
      cases fuel' with
      | zero => simp at h'
      | succ m =>
        obtain ⟨w1, w2⟩ := decodeFirst_width b0 rest
        simp only [List.length_cons] at h h'
        simp only [runesAux]
        congr 1
        apply ih <;> simp only [List.length_drop, List.length_cons] <;> omega

/-- `runes` reads the first rune, then the rest. -/
theorem runes_cons (b0 : UInt8) (rest : Bytes) :
    runes (b0 :: rest) = ((decodeFirst b0 rest).1, (b0 :: rest).take (decodeFirst b0 rest).2) ::
      runes ((b0 :: rest).drop (decodeFirst b0 rest).2) := by
  obtain ⟨w1, w2⟩ := decodeFirst_width b0 rest
  rw [runes, List.length_cons, runesAux, runes, runesAux_fuel]
  all_goals simp only [List.length_drop, List.length_cons]; omega

@[simp] theorem runes_nil : runes [] = [] := rfl

/-- Induction along the runes of a string: a property of the empty string that passes from the
rest after the first rune to the whole string holds of every string. -/
theorem runes_induction {motive : Bytes → Prop} (nil : motive [])
    (cons : ∀ b0 rest, motive ((b0 :: rest).drop (decodeFirst b0 rest).2) → motive (b0 :: rest))
    (s : Bytes) : motive s := by
  suffices ∀ n (s : Bytes), s.length = n → motive s from this _ s rfl
  intro n
  induction n using Nat.strong_induction_on with
  | _ n ih =>
    intro s hs
    cases s with
    | nil => exact nil
    | cons b0 rest =>
      obtain ⟨w1, w2⟩ := decodeFirst_width b0 rest
      refine cons b0 rest (ih _ ?_ _ rfl)
      simp only [List.length_drop, List.length_cons] at hs ⊢; omega

/-- The spans of the runes, in order, are the string. -/
theorem flatMap_runes (s : Bytes) : (runes s).flatMap Prod.snd = s := by
  induction s using runes_induction with
  | nil => rfl
  | cons b0 rest ih => rw [runes_cons, List.flatMap_cons, ih, List.take_append_drop]

/-- An ASCII byte is a rune of its own. -/
theorem runes_ascii_cons {b : UInt8} (hb : b.toNat < 0x80) (rest : Bytes) :
    runes (b :: rest) = (b.toNat, [b]) :: runes rest := by
  rw [runes_cons]
  simp [decodeFirst, hb]

/-- A string of ASCII bytes is one rune per byte. -/
theorem runes_ascii {s : Bytes} (hs : ∀ b ∈ s, b.toNat < 0x80) :
    runes s = s.map fun b => (b.toNat, [b]) := by
  induction s with
  | nil => rfl
  | cons b s ih =>
    rw [runes_ascii_cons (hs b (.head _)), ih (fun c hc => hs c (.tail _ hc)), List.map_cons]

/-- An ASCII string is valid. -/
theorem valid_ascii {s : Bytes} (hs : ∀ b ∈ s, b.toNat < 0x80) : valid s = true := by
  rw [valid, runes_ascii hs, List.all_eq_true]
  intro p hp
  obtain ⟨b, hb, rfl⟩ := List.mem_map.1 hp
  simp [encodeRune, hs b hb]

/-- `utf8.EncodeRune` writes an ASCII rune back as its byte. -/
theorem encodeRune_ascii {b : UInt8} (hb : b.toNat < 0x80) : encodeRune b.toNat = [b] := by
  rw [encodeRune, if_pos hb]
  exact congrArg (· :: []) (UInt8.ofNat_toNat b)

/-- Re-encoding the runes of an ASCII string gives the string back. -/
theorem flatMap_encodeRune_ascii {s : Bytes} (hs : ∀ b ∈ s, b.toNat < 0x80) :
    (s.map fun b => (b.toNat, [b])).flatMap (fun p => encodeRune p.1) = s := by
  induction s with
  | nil => rfl
  | cons b s ih =>
    rw [List.map_cons, List.flatMap_cons, encodeRune_ascii (hs b (.head _)),
      ih fun c hc => hs c (.tail _ hc)]
    rfl

/-- A Unicode scalar value: at most `MaxRune` and not a surrogate. -/
def IsScalar (r : Nat) : Prop := r ≤ 0x10FFFF ∧ ¬ (0xD800 ≤ r ∧ r ≤ 0xDFFF)

theorem toNat_toUInt8 {n : Nat} (h : n < 256) : n.toUInt8.toNat = n :=
  UInt8.toNat_ofNat_of_lt h

/-- `DecodeRune` of a valid two-byte sequence. -/
theorem decodeFirst_two {b0 b1 : UInt8} {lo hi : Nat} (hb0 : 0x80 ≤ b0.toNat)
    (hl : leadInfo b0.toNat = some (2, lo, hi)) (h1 : lo ≤ b1.toNat ∧ b1.toNat ≤ hi)
    (rest : Bytes) :
    decodeFirst b0 (b1 :: rest) = ((b0.toNat % 32) * 64 + b1.toNat % 64, 2) := by
  unfold decodeFirst
  rw [if_neg (by omega)]
  simp only [hl]
  exact if_pos h1

/-- `DecodeRune` of a valid three-byte sequence. -/
theorem decodeFirst_three {b0 b1 b2 : UInt8} {lo hi : Nat} (hb0 : 0x80 ≤ b0.toNat)
    (hl : leadInfo b0.toNat = some (3, lo, hi))
    (h1 : lo ≤ b1.toNat ∧ b1.toNat ≤ hi ∧ isCont b2 = true) (rest : Bytes) :
    decodeFirst b0 (b1 :: b2 :: rest) =
      ((b0.toNat % 16) * 4096 + (b1.toNat % 64) * 64 + b2.toNat % 64, 3) := by
  unfold decodeFirst
  rw [if_neg (by omega)]
  simp only [hl]
  exact if_pos h1

/-- `DecodeRune` of a valid four-byte sequence. -/
theorem decodeFirst_four {b0 b1 b2 b3 : UInt8} {lo hi : Nat} (hb0 : 0x80 ≤ b0.toNat)
    (hl : leadInfo b0.toNat = some (4, lo, hi))
    (h1 : lo ≤ b1.toNat ∧ b1.toNat ≤ hi ∧ isCont b2 = true ∧ isCont b3 = true) (rest : Bytes) :
    decodeFirst b0 (b1 :: b2 :: b3 :: rest) =
      ((b0.toNat % 8) * 262144 + (b1.toNat % 64) * 4096 + (b2.toNat % 64) * 64 +
        b3.toNat % 64, 4) := by
  unfold decodeFirst
  rw [if_neg (by omega)]
  simp only [hl]
  exact if_pos h1

theorem isCont_toUInt8 {n : Nat} (h : 0x80 ≤ n ∧ n ≤ 0xBF) : isCont n.toUInt8 = true := by
  simp [isCont, toNat_toUInt8 (show n < 256 by omega), h.1, h.2]

theorem leadInfo_two (n : Nat) (h1 : 2 ≤ n) (h2 : n < 32) :
    leadInfo (0xC0 + n) = some (2, 0x80, 0xBF) := by
  have key : ∀ n < 32, 2 ≤ n → leadInfo (0xC0 + n) = some (2, 0x80, 0xBF) := by decide
  exact key n h2 h1

theorem leadInfo_three (n : Nat) (h : n < 16) :
    leadInfo (0xE0 + n) = some (3, if n = 0 then 0xA0 else 0x80, if n = 13 then 0x9F else 0xBF) := by
  have key : ∀ n < 16, leadInfo (0xE0 + n) =
      some (3, if n = 0 then 0xA0 else 0x80, if n = 13 then 0x9F else 0xBF) := by decide
  exact key n h

theorem leadInfo_four (n : Nat) (h : n < 5) :
    leadInfo (0xF0 + n) = some (4, if n = 0 then 0x90 else 0x80, if n = 4 then 0x8F else 0xBF) := by
  have key : ∀ n < 5, leadInfo (0xF0 + n) =
      some (4, if n = 0 then 0x90 else 0x80, if n = 4 then 0x8F else 0xBF) := by decide
  exact key n h

/-- `utf8.DecodeRune` reads the encoding of a scalar value back as that value. -/
theorem runes_encodeRune_append {r : Nat} (hr : IsScalar r) (rest : Bytes) :
    runes (encodeRune r ++ rest) = (r, encodeRune r) :: runes rest := by
  obtain ⟨hmax, hsur⟩ := hr
  by_cases h1 : r < 0x80
  · have he : encodeRune r = [r.toUInt8] := if_pos h1
    rw [he, List.singleton_append, runes_ascii_cons (by rw [toNat_toUInt8 (by omega)]; exact h1),
      toNat_toUInt8 (by omega)]
  by_cases h2 : r < 0x800
  · have he : encodeRune r = [(0xC0 + r / 64).toUInt8, (0x80 + r % 64).toUInt8] := by
      rw [encodeRune, if_neg h1, if_pos h2]
    have e0 := toNat_toUInt8 (show 0xC0 + r / 64 < 256 by omega)
    have e1 := toNat_toUInt8 (show 0x80 + r % 64 < 256 by omega)
    have hl : leadInfo (0xC0 + r / 64) = some (2, 0x80, 0xBF) :=
      leadInfo_two (r / 64) (by omega) (by omega)
    have hv : (0xC0 + r / 64).toUInt8.toNat % 32 * 64 + (0x80 + r % 64).toUInt8.toNat % 64 = r := by
      rw [e0, e1]; omega
    rw [he, List.cons_append, List.cons_append, List.nil_append, runes_cons,
      decodeFirst_two (by omega) (e0 ▸ hl) (by omega), hv]
    rfl
  have hs : ¬ (0x10FFFF < r ∨ (0xD800 ≤ r ∧ r ≤ 0xDFFF)) := by omega
  have e2 := toNat_toUInt8 (show 0x80 + r % 64 < 256 by omega)
  have e3 := toNat_toUInt8 (show 0x80 + r / 64 % 64 < 256 by omega)
  by_cases h3 : r < 0x10000
  · have he : encodeRune r = [(0xE0 + r / 4096).toUInt8, (0x80 + r / 64 % 64).toUInt8,
        (0x80 + r % 64).toUInt8] := by
      rw [encodeRune, if_neg h1, if_neg h2, if_neg hs, if_pos h3]
    have e0 := toNat_toUInt8 (show 0xE0 + r / 4096 < 256 by omega)
    have hl : ∃ lo hi, leadInfo (0xE0 + r / 4096) = some (3, lo, hi) ∧
        lo ≤ 0x80 + r / 64 % 64 ∧ 0x80 + r / 64 % 64 ≤ hi := by
      refine ⟨_, _, leadInfo_three (r / 4096) (by omega), ?_, ?_⟩ <;> split_ifs <;> omega
    obtain ⟨lo, hi, hl, hlo, hhi⟩ := hl
    have hv : (0xE0 + r / 4096).toUInt8.toNat % 16 * 4096 +
        (0x80 + r / 64 % 64).toUInt8.toNat % 64 * 64 + (0x80 + r % 64).toUInt8.toNat % 64 = r := by
      rw [e0, e2, e3]; omega
    rw [he, List.cons_append, List.cons_append, List.cons_append, List.nil_append, runes_cons,
      decodeFirst_three (by omega) (e0 ▸ hl) ⟨by rw [e3]; exact hlo, by rw [e3]; exact hhi, isCont_toUInt8 (by omega)⟩, hv]
    rfl
  · have he : encodeRune r = [(0xF0 + r / 262144).toUInt8, (0x80 + r / 4096 % 64).toUInt8,
        (0x80 + r / 64 % 64).toUInt8, (0x80 + r % 64).toUInt8] := by
      rw [encodeRune, if_neg h1, if_neg h2, if_neg hs, if_neg h3]
    have e0 := toNat_toUInt8 (show 0xF0 + r / 262144 < 256 by omega)
    have e1 := toNat_toUInt8 (show 0x80 + r / 4096 % 64 < 256 by omega)
    have hl : ∃ lo hi, leadInfo (0xF0 + r / 262144) = some (4, lo, hi) ∧
        lo ≤ 0x80 + r / 4096 % 64 ∧ 0x80 + r / 4096 % 64 ≤ hi := by
      refine ⟨_, _, leadInfo_four (r / 262144) (by omega), ?_, ?_⟩ <;> split_ifs <;> omega
    obtain ⟨lo, hi, hl, hlo, hhi⟩ := hl
    have hv : (0xF0 + r / 262144).toUInt8.toNat % 8 * 262144 +
        (0x80 + r / 4096 % 64).toUInt8.toNat % 64 * 4096 +
        (0x80 + r / 64 % 64).toUInt8.toNat % 64 * 64 + (0x80 + r % 64).toUInt8.toNat % 64 = r := by
      rw [e0, e1, e2, e3]; omega
    rw [he, List.cons_append, List.cons_append, List.cons_append, List.cons_append,
      List.nil_append, runes_cons,
      decodeFirst_four (by omega) (e0 ▸ hl) ⟨by rw [e1]; exact hlo, by rw [e1]; exact hhi, isCont_toUInt8 (by omega),
        isCont_toUInt8 (by omega)⟩, hv]
    rfl

/-! ## What a rune of a string is -/

theorem leadInfo_some {b k lo hi : Nat} (h : leadInfo b = some (k, lo, hi)) :
    (k = 2 ∧ 0xC2 ≤ b ∧ b ≤ 0xDF ∧ lo = 0x80 ∧ hi = 0xBF) ∨
    (k = 3 ∧ 0xE0 ≤ b ∧ b ≤ 0xEF ∧ (b = 0xE0 → lo = 0xA0) ∧ (b ≠ 0xE0 → lo = 0x80) ∧
      (b = 0xED → hi = 0x9F) ∧ (b ≠ 0xED → hi = 0xBF)) ∨
    (k = 4 ∧ 0xF0 ≤ b ∧ b ≤ 0xF4 ∧ (b = 0xF0 → lo = 0x90) ∧ (b ≠ 0xF0 → lo = 0x80) ∧
      (b = 0xF4 → hi = 0x8F) ∧ (b ≠ 0xF4 → hi = 0xBF)) := by
  unfold leadInfo at h
  split_ifs at h <;> simp only [Option.some.injEq, Prod.mk.injEq, reduceCtorEq] at h <;>
    obtain ⟨rfl, rfl, rfl⟩ := h <;> omega

theorem toUInt8_eq_iff {n : Nat} {b : UInt8} (h : n < 256) : n.toUInt8 = b ↔ n = b.toNat :=
  ⟨fun e => e ▸ (toNat_toUInt8 h).symm, fun e => by subst e; exact UInt8.ofNat_toNat b⟩

theorem isCont_iff (b : UInt8) : isCont b = true ↔ 0x80 ≤ b.toNat ∧ b.toNat ≤ 0xBF := by
  simp [isCont]

/-- A valid two-byte sequence encodes the scalar value `DecodeRune` reads from it. -/
theorem encodeRune_two (b0 b1 : UInt8) (h0 : 0xC2 ≤ b0.toNat ∧ b0.toNat ≤ 0xDF)
    (h1 : 0x80 ≤ b1.toNat ∧ b1.toNat ≤ 0xBF) :
    0x80 ≤ b0.toNat % 32 * 64 + b1.toNat % 64 ∧ IsScalar (b0.toNat % 32 * 64 + b1.toNat % 64) ∧
      encodeRune (b0.toNat % 32 * 64 + b1.toNat % 64) = [b0, b1] := by
  refine ⟨by omega, ⟨by omega, by omega⟩, ?_⟩
  rw [encodeRune, if_neg (by omega), if_pos (by omega)]
  simp (disch := omega) only [List.cons.injEq, toUInt8_eq_iff, and_true]
  omega

/-- A valid three-byte sequence encodes the scalar value `DecodeRune` reads from it. -/
theorem encodeRune_three (b0 b1 b2 : UInt8) (h0 : 0xE0 ≤ b0.toNat ∧ b0.toNat ≤ 0xEF)
    (h1 : 0x80 ≤ b1.toNat ∧ b1.toNat ≤ 0xBF) (hlo : b0.toNat = 0xE0 → 0xA0 ≤ b1.toNat)
    (hhi : b0.toNat = 0xED → b1.toNat ≤ 0x9F) (h2 : 0x80 ≤ b2.toNat ∧ b2.toNat ≤ 0xBF) :
    let r := b0.toNat % 16 * 4096 + b1.toNat % 64 * 64 + b2.toNat % 64
    0x80 ≤ r ∧ IsScalar r ∧ encodeRune r = [b0, b1, b2] := by
  intro r
  have hr : 0x800 ≤ r ∧ r < 0x10000 ∧ ¬ (0xD800 ≤ r ∧ r ≤ 0xDFFF) := by
    simp only [r]; omega
  refine ⟨by omega, ⟨by omega, hr.2.2⟩, ?_⟩
  rw [encodeRune, if_neg (by omega), if_neg (by omega), if_neg (by omega), if_pos hr.2.1]
  simp (disch := omega) only [List.cons.injEq, toUInt8_eq_iff, and_true]
  omega

/-- A valid four-byte sequence encodes the scalar value `DecodeRune` reads from it. -/
theorem encodeRune_four (b0 b1 b2 b3 : UInt8) (h0 : 0xF0 ≤ b0.toNat ∧ b0.toNat ≤ 0xF4)
    (h1 : 0x80 ≤ b1.toNat ∧ b1.toNat ≤ 0xBF) (hlo : b0.toNat = 0xF0 → 0x90 ≤ b1.toNat)
    (hhi : b0.toNat = 0xF4 → b1.toNat ≤ 0x8F) (h2 : 0x80 ≤ b2.toNat ∧ b2.toNat ≤ 0xBF) (h3 : 0x80 ≤ b3.toNat ∧ b3.toNat ≤ 0xBF) :
    let r := b0.toNat % 8 * 262144 + b1.toNat % 64 * 4096 + b2.toNat % 64 * 64 + b3.toNat % 64
    0x80 ≤ r ∧ IsScalar r ∧ encodeRune r = [b0, b1, b2, b3] := by
  intro r
  have hr : 0x10000 ≤ r ∧ r ≤ 0x10FFFF := by simp only [r]; omega
  refine ⟨by omega, ⟨hr.2, by omega⟩, ?_⟩
  rw [encodeRune, if_neg (by omega), if_neg (by omega), if_neg (by omega), if_neg (by omega)]
  simp (disch := omega) only [List.cons.injEq, toUInt8_eq_iff, and_true]
  omega

/-- What one `DecodeRune` call reads: an ASCII byte; a byte that starts no valid sequence, read
as `RuneError` of width one; or a valid sequence, which is the encoding of the scalar value
read. -/
theorem decodeFirst_cases (b0 : UInt8) (rest : Bytes) :
    (b0.toNat < 0x80 ∧ decodeFirst b0 rest = (b0.toNat, 1)) ∨
    (0x80 ≤ b0.toNat ∧ decodeFirst b0 rest = (runeError, 1)) ∨
    (0x80 ≤ (decodeFirst b0 rest).1 ∧ IsScalar (decodeFirst b0 rest).1 ∧
      encodeRune (decodeFirst b0 rest).1 = (b0 :: rest).take (decodeFirst b0 rest).2) := by
  by_cases ha : b0.toNat < 0x80
  · exact .inl ⟨ha, by simp [decodeFirst, ha]⟩
  refine .inr ?_
  unfold decodeFirst
  rw [if_neg ha]
  split
  · rename_i lo hi b1 _ hl
    split_ifs with h
    · obtain ⟨-, h0, h0', rfl, rfl⟩ | ⟨h3, -⟩ | ⟨h4, -⟩ := leadInfo_some hl
      · exact .inr (by simpa using encodeRune_two b0 b1 ⟨h0, h0'⟩ h)
      all_goals omega
    · exact .inl ⟨by omega, rfl⟩
  · rename_i lo hi b1 b2 _ hl
    split_ifs with h
    · rw [isCont_iff] at h
      obtain ⟨h2, -⟩ | ⟨-, h0, h0', hl1, hl2, hh1, hh2⟩ | ⟨h4, -⟩ := leadInfo_some hl
      · omega
      · have := encodeRune_three b0 b1 b2 ⟨h0, h0'⟩ ⟨by omega, by omega⟩ (fun e => by omega)
          (fun e => by omega) h.2.2
        exact .inr (by simpa using this)
      · omega
    · exact .inl ⟨by omega, rfl⟩
  · rename_i lo hi b1 b2 b3 _ hl
    split_ifs with h
    · rw [isCont_iff, isCont_iff] at h
      obtain ⟨h2, -⟩ | ⟨h3, -⟩ | ⟨-, h0, h0', hl1, hl2, hh1, hh2⟩ := leadInfo_some hl
      · omega
      · omega
      · have := encodeRune_four b0 b1 b2 b3 ⟨h0, h0'⟩ ⟨by omega, by omega⟩ (fun e => by omega)
          (fun e => by omega) h.2.2.1 h.2.2.2
        exact .inr (by simpa using this)
    · exact .inl ⟨by omega, rfl⟩
  · exact .inl ⟨by omega, rfl⟩

theorem toUInt8_toNat (b : UInt8) : b.toNat.toUInt8 = b := UInt8.ofNat_toNat b

/-- One entry of `runes`: an ASCII byte; a byte that starts no valid sequence, read as
`RuneError`; or a valid sequence of two to four bytes that encodes the scalar value read. -/
def RuneEntry (p : Nat × Bytes) : Prop :=
  (p.1 < 0x80 ∧ p.2 = [p.1.toUInt8]) ∨
  (p.1 = runeError ∧ ∃ b : UInt8, 0x80 ≤ b.toNat ∧ p.2 = [b]) ∨
  (0x80 ≤ p.1 ∧ IsScalar p.1 ∧ p.2 = encodeRune p.1)

/-- Every rune of a string is one of the three kinds of `RuneEntry`. -/
theorem runeEntry_of_mem_runes {s : Bytes} {p : Nat × Bytes} (h : p ∈ runes s) : RuneEntry p := by
  induction s using runes_induction with
  | nil => cases h
  | cons b0 rest ih =>
    rw [runes_cons] at h
    rcases List.mem_cons.1 h with rfl | h
    · rcases decodeFirst_cases b0 rest with ⟨hb, he⟩ | ⟨hb, he⟩ | ⟨h1, h2, h3⟩
      · exact .inl (by simp [he, hb, toUInt8_toNat])
      · exact .inr (.inl (by simp [he, hb]))
      · exact .inr (.inr ⟨h1, h2, h3.symm⟩)
    · exact ih h

/-- `encodeRune` of a rune at or above `0x80` writes no ASCII byte. -/
theorem encodeRune_high {r : Nat} (h : 0x80 ≤ r) : ∀ b ∈ encodeRune r, 0x80 ≤ b.toNat := by
  unfold encodeRune
  rw [if_neg (by omega)]
  split_ifs <;> simp only [List.mem_cons, List.not_mem_nil, or_false] <;> rintro b (rfl | rfl | rfl | rfl) <;>
    first | decide | (rw [toNat_toUInt8 (by omega)]; omega)

/-- The value `utf8.EncodeRune` writes: the rune itself if it is a scalar value, `RuneError`
otherwise. -/
def scalarOf (r : Nat) : Nat := if 0x10FFFF < r ∨ (0xD800 ≤ r ∧ r ≤ 0xDFFF) then runeError else r

theorem isScalar_scalarOf (r : Nat) : IsScalar (scalarOf r) := by
  unfold scalarOf IsScalar runeError; split_ifs <;> omega

theorem encodeRune_scalarOf (r : Nat) : encodeRune (scalarOf r) = encodeRune r := by
  unfold scalarOf
  split_ifs with h
  · rw [encodeRune, if_neg (by decide), if_neg (by decide), if_neg (by decide), if_pos (by decide)]
    rw [encodeRune, if_neg (by omega), if_neg (by omega), if_pos h]
    rfl
  · rfl

/-- Whatever rune `utf8.EncodeRune` is given, `DecodeRune` reads its output back as one rune. -/
theorem runes_encodeRune_append' (r : Nat) (rest : Bytes) :
    runes (encodeRune r ++ rest) = (scalarOf r, encodeRune r) :: runes rest := by
  rw [← encodeRune_scalarOf, runes_encodeRune_append (isScalar_scalarOf r)]

/-- Prepending the output of `EncodeRune` keeps a string valid. -/
@[simp] theorem valid_encodeRune_append (r : Nat) (rest : Bytes) :
    valid (encodeRune r ++ rest) = valid rest := by
  simp only [valid, runes_encodeRune_append', List.all_cons, encodeRune_scalarOf, beq_self_eq_true,
    Bool.true_and]

/-- A string written rune by rune with `EncodeRune` is valid. -/
theorem valid_flatMap_encodeRune (rs : List Nat) : valid (rs.flatMap encodeRune) = true := by
  induction rs with
  | nil => rfl
  | cons r rs ih => rw [List.flatMap_cons, valid_encodeRune_append, ih]

/-- The string `encoding/json` makes of a byte string: every byte that starts no valid sequence
becomes `U+FFFD`, and every valid rune stays. -/
def toValid (s : Bytes) : Bytes := (runes s).flatMap fun p => encodeRune p.1

theorem valid_toValid (s : Bytes) : valid (toValid s) = true := by
  have h := valid_flatMap_encodeRune ((runes s).map Prod.fst)
  rwa [List.flatMap_map] at h

/-- A valid string is its own `toValid`. -/
theorem toValid_of_valid {s : Bytes} (h : valid s = true) : toValid s = s := by
  conv => rhs; rw [← flatMap_runes s]
  rw [toValid]
  refine List.flatMap_congr fun p hp => ?_
  rw [valid, List.all_eq_true] at h
  exact beq_iff_eq.1 (h p hp)

theorem encodeRune_ne_nil (r : Nat) : encodeRune r ≠ [] := by
  unfold encodeRune; split_ifs <;> simp

/-- Every rune of a string spans at least one byte. -/
theorem RuneEntry.snd_ne_nil {p : Nat × Bytes} (hp : RuneEntry p) : p.2 ≠ [] := by
  rcases hp with ⟨-, h⟩ | ⟨-, b, -, h⟩ | ⟨-, -, h⟩ <;> rw [h]
  exacts [List.cons_ne_nil _ _, List.cons_ne_nil _ _, encodeRune_ne_nil _]

/-- `DecodeRune` reads the encoding of a scalar value back as that value, whatever follows it. -/
theorem decodeFirst_encodeRune_append {r : Nat} (hr : IsScalar r) {b0 : UInt8} {tl : Bytes}
    (he : encodeRune r = b0 :: tl) (rest : Bytes) :
    decodeFirst b0 (tl ++ rest) = (r, tl.length + 1) := by
  have h := runes_encodeRune_append hr rest
  rw [he, List.cons_append, runes_cons] at h
  obtain ⟨hw1, hw2⟩ := decodeFirst_width b0 (tl ++ rest)
  simp only [List.cons.injEq, Prod.mk.injEq] at h
  obtain ⟨⟨h1, h2⟩, -⟩ := h
  have hlen := congrArg List.length h2
  simp only [List.length_take, List.length_cons, List.length_append] at hlen hw2
  exact Prod.ext h1 (by omega)

end GoBuildCache.Utf8
