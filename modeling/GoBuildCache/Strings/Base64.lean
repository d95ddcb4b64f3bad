import GoBuildCache.Basic

/-!
# `encoding/base64` with the standard alphabet

The wire protocol carries every byte string in base64.  The body of a `put` comes on a line of
its own as a JSON string of `base64.StdEncoding`, which `ReadRequest` decodes with
`DecodeString`, and `encoding/json` writes and reads the `[]byte` fields `ActionID` and
`OutputID` the same way.

* `encodeToString` is `StdEncoding.EncodeToString`: each group of three bytes is four letters
  of the alphabet, and a last group of one or two bytes is padded with `=` to four.
* `decodeString` is `StdEncoding.DecodeString`.  Go's `decodeQuantum` skips `\r` and `\n`
  wherever they stand, so the model drops them first and reads the rest in quanta of four
  (`decodeQuanta`).  A quantum may end in `xx==` or `xxx=` only at the end of the input, and
  the bits that padding leaves over are ignored (the encoding is not `Strict`).

The round trip is `decodeString_encodeToString`.
-/

namespace GoBuildCache.Base64

/-- `encodeStd[n]` for `n < 64`: `A`-`Z`, `a`-`z`, `0`-`9`, `+` and `/`. -/
def encodeStd (n : Nat) : UInt8 :=
  if n < 26 then (65 + n).toUInt8
  else if n < 52 then (71 + n).toUInt8
  else if n < 62 then (n - 4).toUInt8
  else if n = 62 then 43
  else 47

/-- The padding character `=`. -/
def padChar : UInt8 := 61

/-- `decodeMap[c]`: the value of a letter of the alphabet, or `none` (`0xff`). -/
def decodeChar (c : UInt8) : Option Nat :=
  if 65 ≤ c.toNat ∧ c.toNat ≤ 90 then some (c.toNat - 65)
  else if 97 ≤ c.toNat ∧ c.toNat ≤ 122 then some (c.toNat - 71)
  else if 48 ≤ c.toNat ∧ c.toNat ≤ 57 then some (c.toNat + 4)
  else if c = 43 then some 62
  else if c = 47 then some 63
  else none

/-- `StdEncoding.EncodeToString`: six bits per letter, high bits first, with `=` padding. -/
def encodeToString : Bytes → Bytes
  | [] => []
  | [b0] =>
    [encodeStd (b0.toNat / 4), encodeStd (b0.toNat % 4 * 16), padChar, padChar]
  | [b0, b1] =>
    [encodeStd (b0.toNat / 4), encodeStd (b0.toNat % 4 * 16 + b1.toNat / 16),
      encodeStd (b1.toNat % 16 * 4), padChar]
  | b0 :: b1 :: b2 :: rest =>
    encodeStd (b0.toNat / 4) :: encodeStd (b0.toNat % 4 * 16 + b1.toNat / 16) ::
      encodeStd (b1.toNat % 16 * 4 + b2.toNat / 64) :: encodeStd (b2.toNat % 64) ::
        encodeToString rest

/-- `decodeQuantum` on input without newlines, quantum after quantum: four letters are three
bytes; `xx==` is one byte and `xxx=` two, and either must end the input; anything else is a
`CorruptInputError` (`none`).  A final quantum of fewer than four characters is an error
because the standard encoding has padding. -/
def decodeQuanta : Bytes → Option Bytes
  | [] => some []
  | c0 :: c1 :: c2 :: c3 :: rest =>
    match decodeChar c0, decodeChar c1, decodeChar c2, decodeChar c3 with
    | some d0, some d1, some d2, some d3 =>
      ((d0 * 4 + d1 / 16).toUInt8 :: (d1 % 16 * 16 + d2 / 4).toUInt8 ::
        (d2 % 4 * 64 + d3).toUInt8 :: ·) <$> decodeQuanta rest
    | some d0, some d1, some d2, none =>
      if c3 = padChar ∧ rest = [] then
        some [(d0 * 4 + d1 / 16).toUInt8, (d1 % 16 * 16 + d2 / 4).toUInt8]
      else none
    | some d0, some d1, none, none =>
      if c2 = padChar ∧ c3 = padChar ∧ rest = [] then some [(d0 * 4 + d1 / 16).toUInt8]
      else none
    | _, _, _, _ => none
  | _ => none

/-- `StdEncoding.DecodeString`: `\r` and `\n` are skipped wherever they stand. -/
def decodeString (s : Bytes) : Option Bytes :=
  decodeQuanta (s.filter fun c => c != 10 && c != 13)

/-! ## The round trip -/

/-- Every letter of the alphabet reads back as its value. -/
theorem decodeChar_encodeStd {n : Nat} (h : n < 64) : decodeChar (encodeStd n) = some n := by
  have key : ∀ n < 64, decodeChar (encodeStd n) = some n := by decide
  exact key n h

theorem decodeChar_padChar : decodeChar padChar = none := rfl

/-- A letter of the alphabet is neither `\n` nor `\r`. -/
theorem encodeStd_ne_newline {n : Nat} (h : n < 64) :
    (encodeStd n != 10 && encodeStd n != 13) = true := by
  have key : ∀ n < 64, (encodeStd n != 10 && encodeStd n != 13) = true := by decide
  exact key n h

/-- Every character of an encoding is a letter of the alphabet or `=`. -/
theorem mem_encodeToString {c : UInt8} {bs : Bytes} (hc : c ∈ encodeToString bs) :
    c = padChar ∨ ∃ n < 64, c = encodeStd n := by
  induction bs using encodeToString.induct with
  | case1 => cases hc
  | case2 b0 =>
    have := UInt8.toNat_lt_256 b0
    simp only [encodeToString, List.mem_cons, List.not_mem_nil, or_false] at hc
    rcases hc with rfl | rfl | rfl | rfl
    exacts [.inr ⟨_, by omega, rfl⟩, .inr ⟨_, by omega, rfl⟩, .inl rfl, .inl rfl]
  | case3 b0 b1 =>
    have := UInt8.toNat_lt_256 b0
    have := UInt8.toNat_lt_256 b1
    simp only [encodeToString, List.mem_cons, List.not_mem_nil, or_false] at hc
    rcases hc with rfl | rfl | rfl | rfl
    exacts [.inr ⟨_, by omega, rfl⟩, .inr ⟨_, by omega, rfl⟩, .inr ⟨_, by omega, rfl⟩, .inl rfl]
  | case4 b0 b1 b2 rest ih =>
    have := UInt8.toNat_lt_256 b0
    have := UInt8.toNat_lt_256 b1
    have := UInt8.toNat_lt_256 b2
    simp only [encodeToString, List.mem_cons] at hc
    rcases hc with rfl | rfl | rfl | rfl | hc
    exacts [.inr ⟨_, by omega, rfl⟩, .inr ⟨_, by omega, rfl⟩, .inr ⟨_, by omega, rfl⟩,
      .inr ⟨_, by omega, rfl⟩, ih hc]

/-- An encoding holds no newline, so `DecodeString` reads all of it. -/
theorem filter_encodeToString (bs : Bytes) :
    (encodeToString bs).filter (fun c => c != 10 && c != 13) = encodeToString bs :=
  List.filter_eq_self.2 fun _ hc => by
    rcases mem_encodeToString hc with rfl | ⟨n, hn, rfl⟩
    exacts [rfl, encodeStd_ne_newline hn]

/-- `StdEncoding.DecodeString` inverts `StdEncoding.EncodeToString`. -/
@[simp] theorem decodeString_encodeToString (bs : Bytes) :
    decodeString (encodeToString bs) = some bs := by
  rw [decodeString, filter_encodeToString]
  induction bs using encodeToString.induct with
  | case1 => rfl
  | case2 b0 =>
    have := UInt8.toNat_lt_256 b0
    simp only [encodeToString, decodeQuanta, decodeChar_encodeStd (show b0.toNat / 4 < 64 by omega),
      decodeChar_encodeStd (show b0.toNat % 4 * 16 < 64 by omega), decodeChar_padChar]
    rw [if_pos (by simp), show b0.toNat / 4 * 4 + b0.toNat % 4 * 16 / 16 = b0.toNat by omega]
    simp [Nat.toUInt8, UInt8.ofNat_toNat]
  | case3 b0 b1 =>
    have := UInt8.toNat_lt_256 b0
    have := UInt8.toNat_lt_256 b1
    simp only [encodeToString, decodeQuanta,
      decodeChar_encodeStd (show b0.toNat / 4 < 64 by omega),
      decodeChar_encodeStd (show b0.toNat % 4 * 16 + b1.toNat / 16 < 64 by omega),
      decodeChar_encodeStd (show b1.toNat % 16 * 4 < 64 by omega), decodeChar_padChar]
    rw [if_pos (by simp),
      show b0.toNat / 4 * 4 + (b0.toNat % 4 * 16 + b1.toNat / 16) / 16 = b0.toNat by omega,
      show (b0.toNat % 4 * 16 + b1.toNat / 16) % 16 * 16 + b1.toNat % 16 * 4 / 4 = b1.toNat by
        omega]
    simp [Nat.toUInt8, UInt8.ofNat_toNat]
  | case4 b0 b1 b2 rest ih =>
    have := UInt8.toNat_lt_256 b0
    have := UInt8.toNat_lt_256 b1
    have := UInt8.toNat_lt_256 b2
    simp only [encodeToString, decodeQuanta,
      decodeChar_encodeStd (show b0.toNat / 4 < 64 by omega),
      decodeChar_encodeStd (show b0.toNat % 4 * 16 + b1.toNat / 16 < 64 by omega),
      decodeChar_encodeStd (show b1.toNat % 16 * 4 + b2.toNat / 64 < 64 by omega),
      decodeChar_encodeStd (show b2.toNat % 64 < 64 by omega), ih]
    rw [show b0.toNat / 4 * 4 + (b0.toNat % 4 * 16 + b1.toNat / 16) / 16 = b0.toNat by omega,
      show (b0.toNat % 4 * 16 + b1.toNat / 16) % 16 * 16 + (b1.toNat % 16 * 4 + b2.toNat / 64) / 4
        = b1.toNat by omega,
      show (b1.toNat % 16 * 4 + b2.toNat / 64) % 4 * 64 + b2.toNat % 64 = b2.toNat by omega]
    simp [Nat.toUInt8, UInt8.ofNat_toNat]

end GoBuildCache.Base64
