/-
Royd.Lib.Base32 — numbers as bits, and bytes as base32 texts (RFC 4648).

A number below `2 ^ w` is `w` bits, highest first (`toBits`), and is read back
from them (`ofBits_toBits`, `toBits_ofBits`). A list of bits is cut into groups
of one width from the front (`groups`). An encoding writes the bytes as bits,
fills up with zeros and reads the bits again in groups of five; decoding goes the
other way and drops what does not make up a byte, so it returns what was encoded
(`decode_encode`), whatever the number of bytes.
-/
import Mathlib.Algebra.Group.Nat.Defs
import Mathlib.Data.List.Induction
import Mathlib.Data.List.TakeWhile

namespace Base32

variable {α β : Type}

/-! ## Bits -/

/-- The number some bits stand for, the highest first. -/
def ofBits (bs : List Bool) : Nat := bs.foldl (fun n b => 2 * n + b.toNat) 0

/-- The lowest `w` bits of a number, the highest first. -/
def toBits : Nat → Nat → List Bool
  | 0, _ => []
  | w + 1, n => toBits w (n / 2) ++ [n % 2 == 1]

theorem ofBits_concat (bs : List Bool) (b : Bool) : ofBits (bs ++ [b]) = 2 * ofBits bs + b.toNat := by
  rw [ofBits, List.foldl_append]
  rfl

@[simp] theorem length_toBits (w n : Nat) : (toBits w n).length = w := by
  induction w generalizing n with
  | zero => rfl
  | succ w ih => rw [toBits, List.length_append, ih, List.length_singleton]

theorem ofBits_toBits {w n : Nat} (h : n < 2 ^ w) : ofBits (toBits w n) = n := by
  induction w generalizing n with
  | zero =>
    rw [Nat.lt_one_iff.mp h]
    rfl
  | succ w ih =>
    have hhalf : n / 2 < 2 ^ w := by omega
    rw [toBits, ofBits_concat, ih hhalf]
    rcases Nat.mod_two_eq_zero_or_one n with hbit | hbit
    · simp [hbit]
      omega
    · simp [hbit]
      omega

theorem ofBits_lt (bs : List Bool) : ofBits bs < 2 ^ bs.length := by
  induction bs using List.reverseRecOn with
  | nil => exact Nat.one_pos
  | append_singleton bs b ih =>
    have hbit : b.toNat ≤ 1 := Bool.toNat_le b
    rw [ofBits_concat, List.length_append, List.length_singleton, Nat.pow_succ]
    omega

theorem toBits_ofBits (bs : List Bool) : toBits bs.length (ofBits bs) = bs := by
  induction bs using List.reverseRecOn with
  | nil => rfl
  | append_singleton bs b ih =>
    have hhalf : (2 * ofBits bs + b.toNat) / 2 = ofBits bs := by
      have hbit : b.toNat ≤ 1 := Bool.toNat_le b
      omega
    have hlow : ((2 * ofBits bs + b.toNat) % 2 == 1) = b := by
      cases b with
      | false => simp
      | true => simp [Nat.add_mod]
    rw [ofBits_concat, List.length_append, List.length_singleton, toBits, hhalf, hlow, ih]

/-! ## Groups -/

/-- The first `n` groups of `k`. -/
def groups (k : Nat) : Nat → List α → List (List α)
  | 0, _ => []
  | n + 1, l => l.take k :: groups k n (l.drop k)

@[simp] theorem length_groups (k n : Nat) (l : List α) : (groups k n l).length = n := by
  induction n generalizing l with
  | zero => rfl
  | succ n ih => rw [groups, List.length_cons, ih]

/-- Groups that fit have their full width. -/
theorem length_of_mem_groups {k n : Nat} {l g : List α} (hlen : k * n ≤ l.length)
    (hg : g ∈ groups k n l) : g.length = k := by
  induction n generalizing l with
  | zero => cases hg
  | succ n ih =>
    rw [Nat.mul_succ] at hlen
    rcases List.mem_cons.mp hg with rfl | hg
    · rw [List.length_take]
      omega
    · apply ih _ hg
      rw [List.length_drop]
      omega

/-- Joined, they are the list again. -/
theorem flatten_groups (k n : Nat) (l : List α) : (groups k n l).flatten = l.take (k * n) := by
  induction n generalizing l with
  | zero => simp [groups]
  | succ n ih =>
    rw [groups, List.flatten_cons, ih, Nat.mul_succ, Nat.add_comm, List.take_add]

/-- What was joined from pieces of one width is cut into them again, whatever
comes after. -/
theorem groups_flatMap {k : Nat} {f : β → List α} (hf : ∀ x, (f x).length = k) (xs : List β)
    (rest : List α) : groups k xs.length (xs.flatMap f ++ rest) = xs.map f := by
  induction xs with
  | nil => rfl
  | cons x xs ih =>
    rw [List.flatMap_cons, List.append_assoc, List.length_cons, groups, List.map_cons]
    rw [List.take_left' (hf x), List.drop_left' (hf x), ih]

theorem length_flatMap {k : Nat} {f : β → List α} (hf : ∀ x, (f x).length = k) (xs : List β) :
    (xs.flatMap f).length = k * xs.length := by
  induction xs with
  | nil => rfl
  | cons x xs ih => rw [List.flatMap_cons, List.length_append, hf, ih, List.length_cons, Nat.mul_succ,
      Nat.add_comm]

/-! ## The code -/

/-- `A` to `Z`, and `2` to `7`. -/
def alphabet : List Char := "ABCDEFGHIJKLMNOPQRSTUVWXYZ234567".toList

/-- The character of a five-bit number. -/
def digit (n : Nat) : Char := alphabet.getD n 'A'

/-- The number of a character. -/
def value (c : Char) : Option Nat := alphabet.findIdx? (· == c)

theorem value_digit {n : Nat} (h : n < 32) : value (digit n) = some n := by
  revert n
  decide

theorem digit_ne_pad (n : Nat) : digit n ≠ '=' := by
  rw [digit, List.getD_eq_getElem?_getD]
  cases hn : alphabet[n]? with
  | none => decide
  | some c =>
    have hmem := List.mem_of_getElem? hn
    intro heq
    rw [Option.getD_some] at heq
    rw [heq] at hmem
    exact absurd hmem (by decide)

/-- How many characters the bits of `n` bytes take. -/
def width (n : Nat) : Nat := (8 * n + 4) / 5

/-- What is missing of a number of characters to groups of eight. -/
def padding (n : Nat) : List Char := List.replicate ((8 - n % 8) % 8) '='

/-- The bits of a byte. -/
def byteBits (b : UInt8) : List Bool := toBits 8 b.toNat

theorem length_byteBits (b : UInt8) : (byteBits b).length = 8 := length_toBits 8 b.toNat

theorem ofBits_byteBits (b : UInt8) : UInt8.ofNat (ofBits (byteBits b)) = b := by
  rw [byteBits, ofBits_toBits b.toNat_lt, UInt8.ofNat_toNat]

/-- The bytes as bits, with zeros up to a full character. -/
def stream (bytes : List UInt8) : List Bool :=
  bytes.flatMap byteBits ++
    List.replicate (5 * width bytes.length - 8 * bytes.length) false

/-- The characters of the bytes. -/
def encodeChars (bytes : List UInt8) : List Char :=
  (groups 5 (width bytes.length) (stream bytes)).map fun g => digit (ofBits g)

/-- `base64.b32encode`. -/
def encode (bytes : List UInt8) : List Char :=
  encodeChars bytes ++ padding (encodeChars bytes).length

/-- `bytes.rstrip(b"=")`. -/
def stripPadding (text : List Char) : List Char := (text.reverse.dropWhile (· == '=')).reverse

/-- The values of the characters, all of them in the alphabet. -/
def values : List Char → Except String (List Nat)
  | [] => .ok []
  | c :: cs =>
    match value c with
    | none => .error "Non-base32 digit found"
    | some n => (values cs).map (n :: ·)

/-- The bytes a list of values makes up; bits that are left over are dropped. -/
def bytesOf (ns : List Nat) : List UInt8 :=
  (groups 8 (5 * ns.length / 8) (ns.flatMap (toBits 5))).map fun g => UInt8.ofNat (ofBits g)

/-- `base64.b32decode(text, casefold=True)`. -/
def decode (text : List Char) : Except String (List UInt8) :=
  let text := text.map Char.toUpper
  let chars := stripPadding text
  if text.length % 8 ≠ 0 then .error "Incorrect padding"
  else
    match values chars with
    | .error e => .error e
    | .ok ns =>
      if text.length - chars.length ∈ [0, 1, 3, 4, 6] then .ok (bytesOf ns)
      else .error "Incorrect padding"

/-! ## The round trip -/

theorem length_stream (bytes : List UInt8) : (stream bytes).length = 5 * width bytes.length := by
  have hbytes : (bytes.flatMap byteBits).length = 8 * bytes.length :=
    length_flatMap length_byteBits bytes
  rw [stream, List.length_append, hbytes, List.length_replicate, width]
  omega

@[simp] theorem length_encodeChars (bytes : List UInt8) :
    (encodeChars bytes).length = width bytes.length := by
  rw [encodeChars, List.length_map, length_groups]

/-- The bits make up full characters. -/
theorem length_of_mem_stream {bytes : List UInt8} {g : List Bool}
    (hg : g ∈ groups 5 (width bytes.length) (stream bytes)) : g.length = 5 :=
  length_of_mem_groups (Nat.le_of_eq (length_stream bytes).symm) hg

/-- Every character of an encoding is a digit of five bits. -/
theorem mem_encodeChars {bytes : List UInt8} {c : Char} (h : c ∈ encodeChars bytes) :
    ∃ n < 32, c = digit n := by
  obtain ⟨g, hg, rfl⟩ := List.mem_map.mp h
  refine ⟨ofBits g, ?_, rfl⟩
  have hlt := ofBits_lt g
  rwa [length_of_mem_stream hg] at hlt

theorem toUpper_digit {n : Nat} (h : n < 32) : (digit n).toUpper = digit n := by
  revert n
  decide

/-- Nothing but the padding is stripped. -/
theorem stripPadding_append {cs : List Char} (hcs : ∀ c ∈ cs, c ≠ '=') (n : Nat) :
    stripPadding (cs ++ List.replicate n '=') = cs := by
  have hpad : (List.replicate n '=').dropWhile (· == '=') = [] := by
    rw [List.dropWhile_eq_nil_iff]
    intro c hc
    simp [List.eq_of_mem_replicate hc]
  have hkeep : cs.reverse.dropWhile (· == '=') = cs.reverse := by
    cases hrev : cs.reverse with
    | nil => rfl
    | cons c rest =>
      have hc : c ∈ cs := List.mem_reverse.mp (hrev ▸ List.mem_cons_self)
      rw [List.dropWhile_cons_of_neg]
      simpa using hcs c hc
  rw [stripPadding, List.reverse_append, List.reverse_replicate, List.dropWhile_append, hpad]
  simp [hkeep]

/-- The values of an encoding are its groups. -/
theorem values_digits {gs : List (List Bool)} (h : ∀ g ∈ gs, g.length = 5) :
    values (gs.map fun g => digit (ofBits g)) = .ok (gs.map ofBits) := by
  induction gs with
  | nil => rfl
  | cons g gs ih =>
    have hlt := ofBits_lt g
    rw [h g List.mem_cons_self] at hlt
    rw [List.map_cons, values, value_digit hlt, ih fun g hg => h g (List.mem_cons_of_mem _ hg)]
    rfl

/-- The groups as bits again. -/
theorem flatMap_toBits {gs : List (List Bool)} (h : ∀ g ∈ gs, g.length = 5) :
    (gs.map ofBits).flatMap (toBits 5) = gs.flatten := by
  induction gs with
  | nil => rfl
  | cons g gs ih =>
    have hback := toBits_ofBits g
    rw [h g List.mem_cons_self] at hback
    rw [List.map_cons, List.flatMap_cons, hback, List.flatten_cons,
      ih fun g hg => h g (List.mem_cons_of_mem _ hg)]

theorem bytesOf_values (bytes : List UInt8) :
    bytesOf ((groups 5 (width bytes.length) (stream bytes)).map ofBits) = bytes := by
  have hcount : 5 * width bytes.length / 8 = bytes.length := by
    unfold width
    omega
  have hbits : ((groups 5 (width bytes.length) (stream bytes)).map ofBits).flatMap (toBits 5) =
      stream bytes := by
    rw [flatMap_toBits fun g hg => length_of_mem_stream hg, flatten_groups,
      List.take_of_length_le (Nat.le_of_eq (length_stream bytes))]
  rw [bytesOf, hbits, List.length_map, length_groups, hcount, stream,
    groups_flatMap length_byteBits, List.map_map]
  exact (List.map_congr_left fun b _ => ofBits_byteBits b).trans (List.map_id bytes)

/-- Padding fills up to groups of eight, as decoding asks for. -/
theorem padding_encode (bytes : List UInt8) :
    (encode bytes).length % 8 = 0 ∧
      (padding (encodeChars bytes).length).length ∈ [0, 1, 3, 4, 6] := by
  have hpadding : (padding (width bytes.length)).length = (8 - width bytes.length % 8) % 8 :=
    List.length_replicate
  rw [encode, List.length_append, length_encodeChars, hpadding]
  simp only [List.mem_cons, List.not_mem_nil, or_false]
  unfold width
  omega

/-- An encoding is decoded to what was encoded. -/
theorem decode_encode (bytes : List UInt8) : decode (encode bytes) = .ok bytes := by
  have hdigits : ∀ c ∈ encodeChars bytes, c ≠ '=' ∧ c.toUpper = c := by
    intro c hc
    obtain ⟨n, hn, rfl⟩ := mem_encodeChars hc
    exact ⟨digit_ne_pad n, toUpper_digit hn⟩
  have hupper : (encode bytes).map Char.toUpper = encode bytes := by
    apply (List.map_congr_left ?_).trans (List.map_id _)
    intro c hc
    rcases List.mem_append.mp hc with hc | hc
    · exact (hdigits c hc).2
    · rw [List.eq_of_mem_replicate hc]
      rfl
  have hchars : stripPadding (encode bytes) = encodeChars bytes :=
    stripPadding_append (fun c hc => (hdigits c hc).1) _
  have hvalues : values (encodeChars bytes) =
      .ok ((groups 5 (width bytes.length) (stream bytes)).map ofBits) :=
    values_digits fun g hg => length_of_mem_stream hg
  obtain ⟨hlength, hpadding⟩ := padding_encode bytes
  have hmissing : (encode bytes).length - (encodeChars bytes).length =
      (padding (encodeChars bytes).length).length := by
    rw [encode, List.length_append, Nat.add_sub_cancel_left]
  unfold decode
  dsimp only
  rw [hupper, hchars, hvalues, hmissing, if_neg (not_not_intro hlength)]
  dsimp only
  rw [if_pos hpadding, bytesOf_values]

/-- An encoding whose padding was taken off is decoded once it is padded again. -/
theorem decode_stripPadding (bytes : List UInt8) :
    decode (stripPadding (encode bytes) ++ padding (stripPadding (encode bytes)).length) =
      .ok bytes := by
  have hchars : stripPadding (encode bytes) = encodeChars bytes := by
    apply stripPadding_append
    intro c hc
    obtain ⟨n, -, rfl⟩ := mem_encodeChars hc
    exact digit_ne_pad n
  rw [hchars]
  exact decode_encode bytes

end Base32
