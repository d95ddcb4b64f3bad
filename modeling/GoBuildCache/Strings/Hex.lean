import GoBuildCache.Basic

/-!
# `encoding/hex`

The cache renders an action id as lower-case hex for file names, map keys and singleflight
keys (`hex.EncodeToString`), and the sidecar stores the output id the same way, read back by
`hex.DecodeString`.  Both functions are written here as Go's `encoding/hex` computes them:
`encodeToString` writes the two digits of each byte from `hextable`, and `decodeString` reads
pairs of digits in either case, reports the first byte that is not a digit, and reports an odd
length after checking the last byte.

The results are the round trip `decodeString_encodeToString`, the injectivity it implies,
the length of the encoding, and that every byte of an encoding is one of the sixteen digits
(`mem_encodeToString`).
-/

namespace GoBuildCache.Hex

/-- `hextable[n]` for `n < 16`: `0`-`9`, then `a`-`f`. -/
def hextable (n : Nat) : UInt8 := if n < 10 then (48 + n).toUInt8 else (87 + n).toUInt8

/-- `hex.EncodeToString`: the two digits of each byte, high half first. -/
def encodeToString : Bytes → Bytes
  | [] => []
  | b :: bs => hextable (b.toNat / 16) :: hextable (b.toNat % 16) :: encodeToString bs

/-- `reverseHexTable[c]`: the value of a digit, upper or lower case, or `none` (`0xff`). -/
def fromHexChar (c : UInt8) : Option Nat :=
  if 48 ≤ c.toNat ∧ c.toNat ≤ 57 then some (c.toNat - 48)
  else if 97 ≤ c.toNat ∧ c.toNat ≤ 102 then some (c.toNat - 87)
  else if 65 ≤ c.toNat ∧ c.toNat ≤ 70 then some (c.toNat - 55)
  else none

/-- The errors of `hex.DecodeString`. -/
inductive HexError
  /-- `InvalidByteError(b)`. -/
  | invalidByte (b : UInt8)
  /-- `ErrLength`: an odd number of digits. -/
  | errLength
  deriving DecidableEq

/-- `hex.DecodeString`: pairs of digits, left to right.  An odd length is reported after the
last byte is checked. -/
def decodeString : Bytes → Except HexError Bytes
  | [] => .ok []
  | [p] => match fromHexChar p with
    | none => .error (.invalidByte p)
    | some _ => .error .errLength
  | p :: q :: rest =>
    match fromHexChar p, fromHexChar q with
    | none, _ => .error (.invalidByte p)
    | some _, none => .error (.invalidByte q)
    | some a, some b => (UInt8.ofNat (16 * a + b) :: ·) <$> decodeString rest

/-- Every digit of `hextable` reads back as its value. -/
theorem fromHexChar_hextable {n : Nat} (h : n < 16) : fromHexChar (hextable n) = some n := by
  have key : ∀ n < 16, fromHexChar (hextable n) = some n := by decide
  exact key n h

/-- A byte is its high half times sixteen plus its low half. -/
theorem ofNat_halves (b : UInt8) : UInt8.ofNat (16 * (b.toNat / 16) + b.toNat % 16) = b := by
  rw [show 16 * (b.toNat / 16) + b.toNat % 16 = b.toNat by omega, UInt8.ofNat_toNat]

/-- `hex.DecodeString` inverts `hex.EncodeToString`. -/
@[simp] theorem decodeString_encodeToString (bs : Bytes) :
    decodeString (encodeToString bs) = .ok bs := by
  induction bs with
  | nil => rfl
  | cons b bs ih =>
    have hhi : b.toNat / 16 < 16 := by have := UInt8.toNat_lt_256 b; omega
    have hlo : b.toNat % 16 < 16 := Nat.mod_lt _ (by decide)
    simp only [encodeToString, decodeString, fromHexChar_hextable hhi, fromHexChar_hextable hlo,
      ih, ofNat_halves]
    rfl

/-- Two byte strings with the same hex rendering are equal. -/
theorem encodeToString_injective : Function.Injective encodeToString := by
  intro a b h
  have := decodeString_encodeToString a
  rw [h, decodeString_encodeToString] at this
  exact (Except.ok.inj this).symm

@[simp] theorem encodeToString_length (bs : Bytes) :
    (encodeToString bs).length = 2 * bs.length := by
  induction bs with
  | nil => rfl
  | cons b bs ih => simp only [encodeToString, List.length_cons, ih]; omega

@[simp] theorem encodeToString_eq_nil {bs : Bytes} : encodeToString bs = [] ↔ bs = [] := by
  cases bs <;> simp [encodeToString]

/-- Every byte of a hex rendering is one of the sixteen digits. -/
theorem mem_encodeToString {bs : Bytes} {c : UInt8} (h : c ∈ encodeToString bs) :
    ∃ n < 16, c = hextable n := by
  induction bs with
  | nil => simp [encodeToString] at h
  | cons b bs ih =>
    simp only [encodeToString, List.mem_cons] at h
    rcases h with rfl | rfl | h
    · exact ⟨_, by have := UInt8.toNat_lt_256 b; omega, rfl⟩
    · exact ⟨_, Nat.mod_lt _ (by decide), rfl⟩
    · exact ih h

/-- The digits are the bytes `0`-`9` and `a`-`f`. -/
theorem hextable_range {n : Nat} (h : n < 16) :
    (48 ≤ (hextable n).toNat ∧ (hextable n).toNat ≤ 57) ∨
      (97 ≤ (hextable n).toNat ∧ (hextable n).toNat ≤ 102) := by
  have key : ∀ n < 16, (48 ≤ (hextable n).toNat ∧ (hextable n).toNat ≤ 57) ∨
      (97 ≤ (hextable n).toNat ∧ (hextable n).toNat ≤ 102) := by decide
  exact key n h

end GoBuildCache.Hex
