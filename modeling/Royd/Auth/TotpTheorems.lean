/-
Royd.Auth.TotpTheorems — when `matching_step` is right.

`codeAt_eq` goes through `_code_at` line by line: the secret is decoded to the
random bytes it was made of, the four bytes the offset points at are there, and
the text has six digits whatever the digest is. So in `search` only a step that is
no counter, and a text that is not ASCII, can raise (`search_eq`).
-/
import Mathlib.Data.List.GetD
import Royd.Auth.Totp

namespace Royd.Auth.Totp

variable {mac : Mac} {random key : List UInt8} {code text : String} {now step : Int}

/-! ## The code of a step -/

theorem b32decode_newSecret (random : List UInt8) :
    b32decode (newSecret random ++ String.ofList (Base32.padding (newSecret random).length)) =
      .ok random := by
  unfold b32decode newSecret
  rw [String.toList_append, String.toList_ofList, String.toList_ofList, String.length_ofList,
    Base32.decode_stripPadding]
  rfl

theorem lastByte_eq {digest : List UInt8} (h : digest.length = 20) :
    lastByte digest = .ok (digest.getD 19 0) := by
  have hlast : digest.getLast? = some (digest.getD 19 0) := by
    rw [List.getLast?_eq_getElem?, h, List.getD_eq_getElem?_getD]
    rw [List.getElem?_eq_getElem (show 20 - 1 < digest.length by omega)]
    rfl
  rw [lastByte, hlast]

/-- Four bytes of a list, at a place where there are four. -/
theorem take_drop_four {l : List UInt8} {i : Nat} (h : i + 4 ≤ l.length) :
    (l.drop i).take 4 = [l.getD i 0, l.getD (i + 1) 0, l.getD (i + 2) 0, l.getD (i + 3) 0] := by
  have hget : ∀ j < l.length, l.drop j = l.getD j 0 :: l.drop (j + 1) := by
    intro j hj
    rw [List.drop_eq_getElem_cons hj, List.getD_eq_getElem _ _ hj]
  rw [hget i (by omega), hget (i + 1) (by omega), hget (i + 2) (by omega), hget (i + 3) (by omega)]
  rfl

theorem nibble (b : UInt8) : (b &&& 0x0F).toNat = b.toNat % 16 := by
  rw [UInt8.toNat_and]
  exact Nat.and_two_pow_sub_one_eq_mod b.toNat 4

/-- The offset leaves room for four bytes. -/
theorem unpack_truncate {digest : List UInt8} (h : digest.length = 20) :
    ∃ word, unpackI ((digest.drop (digest.getD 19 0 &&& 0x0F).toNat).take 4) = .ok word ∧
      word &&& 0x7FFFFFFF = truncate digest := by
  have hoffset := nibble (digest.getD 19 0)
  generalize (digest.getD 19 0 &&& 0x0F).toNat = offset at hoffset ⊢
  have hroom : offset + 4 ≤ digest.length := by omega
  rw [take_drop_four hroom]
  refine ⟨_, rfl, ?_⟩
  unfold truncate
  dsimp only
  rw [← hoffset, Nat.add_zero]
  generalize digest.getD offset 0 = a
  generalize digest.getD (offset + 1) 0 = b
  generalize digest.getD (offset + 2) 0 = c
  generalize digest.getD (offset + 3) 0 = d
  have hb := b.toNat_lt
  have hc := c.toNat_lt
  have hd := d.toNat_lt
  have hmask : ∀ n : Nat, n &&& 0x7FFFFFFF = n % 0x80000000 := fun n =>
    Nat.and_two_pow_sub_one_eq_mod n 31
  rw [hmask]
  omega

/-! ## Six digits -/

theorem length_sixDigits (n : Nat) : (sixDigits n).length = 6 := rfl

theorem digits_sixDigits (n : Nat) : Numerals.Digits (sixDigits n) := by
  intro c hc
  obtain ⟨d, -, rfl⟩ := List.mem_map.mp hc
  have hlt : d % 10 < 10 := Nat.mod_lt _ (by decide)
  generalize d % 10 = k at hlt
  revert k
  decide

theorem value_sixDigits {n : Nat} (h : n < 1000000) : Numerals.value (sixDigits n) = n := by
  have hdigit : ∀ d : Nat, (Nat.digitChar (d % 10)).toNat - 48 = d % 10 := by
    intro d
    rw [Nat.toNat_digitChar_of_lt_ten (Nat.mod_lt _ (by decide))]
    omega
  unfold sixDigits
  simp only [List.map_cons, List.map_nil, Numerals.value_cons, Numerals.value_nil, hdigit,
    List.length_cons, List.length_nil]
  omega

/-- `str(n).zfill(6)`. -/
theorem padded_eq_sixDigits {n : Nat} (h : n < 1000000) : Numerals.padded 6 n = sixDigits n := by
  have hlength : (Numerals.padded 6 n).length = (sixDigits n).length :=
    Numerals.length_padded_eq (by decide) h
  have hvalue : Numerals.value (Numerals.padded 6 n) = Numerals.value (sixDigits n) := by
    rw [Numerals.value_padded, value_sixDigits h]
  have hpadded := Numerals.digits_padded 6 n
  have hsix := digits_sixDigits n
  have hnotlt : ¬ Numerals.padded 6 n < sixDigits n := by
    rw [Numerals.lt_iff_value_lt hpadded hsix hlength, hvalue]
    exact Nat.lt_irrefl _
  have hnotgt : ¬ sixDigits n < Numerals.padded 6 n := by
    rw [Numerals.lt_iff_value_lt hsix hpadded hlength.symm, hvalue]
    exact Nat.lt_irrefl _
  exact le_antisymm (not_lt.mp hnotgt) (not_lt.mp hnotlt)

/-- `_code_at` returns the code of RFC 6238. -/
theorem codeAt_eq (mac : Mac) (random : List UInt8) (h : Countable step) :
    codeAt mac (newSecret random) step =
      .ok (String.ofList (sixDigits (rfcCode mac random step.toNat))) := by
  have hlen := mac.length random (counterBytes step.toNat)
  have hpack : packQ step = .ok (counterBytes step.toNat) := if_pos h
  obtain ⟨word, hword, hvalue⟩ := unpack_truncate hlen
  have hlt : rfcCode mac random step.toNat < 1000000 := Nat.mod_lt _ (by decide)
  unfold codeAt
  rw [b32decode_newSecret, hpack]
  simp only [bind, Except.bind, pure, Except.pure, lastByte_eq hlen, hword, hvalue]
  rw [← padded_eq_sixDigits hlt]
  rfl

/-- A step that is no counter raises. -/
theorem codeAt_error (mac : Mac) (random : List UInt8) (h : ¬ Countable step) :
    ∃ e, codeAt mac (newSecret random) step = .error e := by
  have hpack : packQ step = .error (.value "argument out of range") := if_neg h
  refine ⟨.value "argument out of range", ?_⟩
  unfold codeAt
  rw [b32decode_newSecret, hpack]
  rfl

/-! ## The characters of a code -/

theorem isDigit_of_ascii {c : Char} (h : c.isDigit = true) : isDigit c = true ∧ c.toNat < 128 := by
  obtain ⟨hlow, hhigh⟩ := Numerals.digit_bounds h
  refine ⟨?_, by omega⟩
  rw [isDigit, List.any_eq_true]
  exact ⟨(0x30, 0x39), List.mem_cons_self, by simp [hlow, hhigh]⟩

/-- A text a step shows has passed every check. -/
theorem Shows.checked (h : Shows mac key text step) : sixDigit text = true ∧ isAscii text = true := by
  have hdigits := digits_sixDigits (rfcCode mac key step.toNat)
  rw [← h.2] at hdigits
  have hlength : text.length = 6 := by
    rw [← String.length_toList, h.2, length_sixDigits]
  constructor
  · rw [sixDigit, hlength, Bool.and_eq_true]
    exact ⟨rfl, List.all_eq_true.mpr fun c hc => (isDigit_of_ascii (hdigits c hc)).1⟩
  · exact List.all_eq_true.mpr fun c hc => by simpa using (isDigit_of_ascii (hdigits c hc)).2

theorem isAscii_sixDigits (n : Nat) : isAscii (String.ofList (sixDigits n)) = true := by
  rw [isAscii, String.toList_ofList, List.all_eq_true]
  intro c hc
  simpa using (isDigit_of_ascii (digits_sixDigits n c hc)).2

/-! ## The search -/

/-- One turn of the loop, for a step that has a code. -/
theorem search_cons {secret expected : String} (h : codeAt mac secret step = .ok expected)
    (steps : List Int) :
    search mac secret text (step :: steps) =
      (compareDigest expected text).bind fun same =>
        if same then .ok (some step) else search mac secret text steps := by
  rw [search, h]
  rfl

/-- A step that is no counter raises. -/
theorem search_uncountable (mac : Mac) (random : List UInt8) (text : String)
    (h : ¬ Countable step) (steps : List Int) :
    ∃ e, search mac (newSecret random) text (step :: steps) = .error e := by
  obtain ⟨e, he⟩ := codeAt_error mac random h
  refine ⟨e, ?_⟩
  rw [search, he]
  rfl

/-- A text that is not ASCII raises at once. -/
theorem search_nonAscii (mac : Mac) (random : List UInt8) (h : isAscii text = false) (step : Int)
    (steps : List Int) :
    ∃ e, search mac (newSecret random) text (step :: steps) = .error e := by
  by_cases hcount : Countable step
  · refine ⟨.value "comparing strings with non-ASCII characters is not supported", ?_⟩
    rw [search_cons (codeAt_eq mac random hcount), compareDigest, h, Bool.and_false,
      if_neg Bool.false_ne_true]
    rfl
  · exact search_uncountable mac random text hcount steps

/-- A counter is tried. -/
theorem search_countable (mac : Mac) (random : List UInt8) (hascii : isAscii text = true)
    (h : Countable step) (steps : List Int) :
    (Shows mac random text step ∧
        search mac (newSecret random) text (step :: steps) = .ok (some step)) ∨
      (¬ Shows mac random text step ∧
        search mac (newSecret random) text (step :: steps) =
          search mac (newSecret random) text steps) := by
  have hcode := codeAt_eq mac random h
  have hascii' := isAscii_sixDigits (rfcCode mac random step.toNat)
  have hshows : Shows mac random text step ↔
      String.ofList (sixDigits (rfcCode mac random step.toNat)) = text := by
    rw [← String.toList_inj, String.toList_ofList]
    exact ⟨fun hshows => hshows.2.symm, fun heq => ⟨h, heq.symm⟩⟩
  generalize String.ofList (sixDigits (rfcCode mac random step.toNat)) = expected
    at hcode hascii' hshows
  rw [search_cons hcode, compareDigest, hascii, hascii', Bool.and_self, if_pos rfl, hshows]
  by_cases hsame : expected = text
  · refine .inl ⟨hsame, ?_⟩
    rw [beq_iff_eq.mpr hsame]
    rfl
  · refine .inr ⟨hsame, ?_⟩
    rw [beq_eq_false_iff_ne.mpr hsame]
    rfl

variable (mac random text) in
/-- What the search finds: the first step that shows the text, all before it
being counters. -/
inductive Finds : List Int → Option Int → Prop where
  | none : Finds [] none
  | here {step : Int} (steps : List Int) (shows : Shows mac random text step) :
    Finds (step :: steps) (some step)
  | later {step : Int} {steps : List Int} {answer : Option Int} (counter : Countable step)
    (other : ¬ Shows mac random text step) (rest : Finds steps answer) : Finds (step :: steps) answer

theorem search_eq_ok (hascii : isAscii text = true) {steps : List Int} {answer : Option Int} :
    search mac (newSecret random) text steps = .ok answer ↔ Finds mac random text steps answer := by
  induction steps with
  | nil =>
    constructor
    · intro h
      cases h
      exact .none
    · intro h
      cases h
      rfl
  | cons step steps ih =>
    by_cases hcount : Countable step
    · rcases search_countable mac random hascii hcount steps with
        ⟨hshows, hstep⟩ | ⟨hother, hstep⟩
      · rw [hstep]
        constructor
        · intro h
          cases h
          exact .here steps hshows
        · intro h
          cases h with
          | here _ _ => rfl
          | later _ hother _ => exact absurd hshows hother
      · rw [hstep, ih]
        constructor
        · exact fun h => .later hcount hother h
        · intro h
          cases h with
          | here _ hshows => exact absurd hshows hother
          | later _ _ hrest => exact hrest
    · obtain ⟨e, he⟩ := search_uncountable mac random text hcount steps
      rw [he]
      constructor
      · intro h
        cases h
      · intro h
        cases h with
        | here _ hshows => exact absurd hshows.1 hcount
        | later hcount' _ _ => exact absurd hcount' hcount

section Finds

variable {steps : List Int} {answer : Option Int}

/-- In ascending order the first is the smallest. -/
theorem Finds.least (h : Finds mac random text steps answer) (hsorted : steps.Pairwise (· < ·)) (s : Int) :
    answer = some s ↔ IsLeast {s | s ∈ steps ∧ Shows mac random text s} s := by
  induction h with
  | none =>
    constructor
    · intro heq
      cases heq
    · rintro ⟨⟨hmem, -⟩, -⟩
      cases hmem
  | @here step steps hshows =>
    have hleast : IsLeast {s | s ∈ step :: steps ∧ Shows mac random text s} step := by
      refine ⟨⟨List.mem_cons_self, hshows⟩, ?_⟩
      rintro s ⟨hmem, -⟩
      rcases List.mem_cons.mp hmem with rfl | hmem
      · exact le_rfl
      · exact (List.rel_of_pairwise_cons hsorted hmem).le
    rw [Option.some.injEq]
    constructor
    · rintro rfl
      exact hleast
    · exact fun hs => hleast.unique hs
  | @later step steps answer hcount hother hrest ih =>
    have hsame : {s | s ∈ step :: steps ∧ Shows mac random text s} =
        {s | s ∈ steps ∧ Shows mac random text s} := by
      ext s
      constructor
      · rintro ⟨hmem, hshows⟩
        rcases List.mem_cons.mp hmem with rfl | hmem
        · exact absurd hshows hother
        · exact ⟨hmem, hshows⟩
      · exact fun ⟨hmem, hshows⟩ => ⟨List.mem_cons_of_mem _ hmem, hshows⟩
    rw [hsame]
    exact ih hsorted.of_cons

/-- The first step is a counter, and so are all if none shows the text. -/
theorem Finds.countable (h : Finds mac random text steps answer) :
    (∀ s ∈ steps.head?, Countable s) ∧
      ((∀ s ∈ steps, Countable s) ∨ ∃ s ∈ steps, Shows mac random text s) := by
  induction h with
  | none => simp
  | @here step steps hshows =>
    exact ⟨by simpa using hshows.1, .inr ⟨step, List.mem_cons_self, hshows⟩⟩
  | @later step steps answer hcount hother hrest ih =>
    refine ⟨by simpa using hcount, ?_⟩
    rcases ih.2 with hall | ⟨s, hmem, hshows⟩
    · exact .inl (List.forall_mem_cons.mpr ⟨hcount, hall⟩)
    · exact .inr ⟨s, List.mem_cons_of_mem _ hmem, hshows⟩

theorem exists_finds_of_countable (h : ∀ s ∈ steps, Countable s) :
    ∃ answer, Finds mac random text steps answer := by
  induction steps with
  | nil => exact ⟨none, .none⟩
  | cons step steps ih =>
    obtain ⟨hstep, hrest⟩ := List.forall_mem_cons.mp h
    by_cases hshows : Shows mac random text step
    · exact ⟨some step, .here steps hshows⟩
    · obtain ⟨answer, hanswer⟩ := ih hrest
      exact ⟨answer, .later hstep hshows hanswer⟩

/-- Before a step that shows the text there are only counters, if they are not
negative. -/
theorem exists_finds_of_shows (hsorted : steps.Pairwise (· < ·)) (hpos : ∀ s ∈ steps, 0 ≤ s)
    (h : ∃ s ∈ steps, Shows mac random text s) : ∃ answer, Finds mac random text steps answer := by
  induction steps with
  | nil => simp at h
  | cons step steps ih =>
    by_cases hshows : Shows mac random text step
    · exact ⟨some step, .here steps hshows⟩
    · obtain ⟨s, hmem, hs⟩ := h
      rcases List.mem_cons.mp hmem with rfl | hmem
      · exact absurd hs hshows
      · have hlt : step < s := List.rel_of_pairwise_cons hsorted hmem
        obtain ⟨answer, hanswer⟩ :=
          ih hsorted.of_cons (List.forall_mem_cons.mp hpos).2 ⟨s, hmem, hs⟩
        exact ⟨answer, .later ⟨hpos step List.mem_cons_self, hlt.trans hs.1.2⟩ hshows hanswer⟩

end Finds

/-! ## The primitives of the endpoints -/

section Endpoints

variable {prims : Primitives}

/-- Over counters, the search is that for the first step whose code is the text. -/
theorem search_eq_find (hcode : ∀ s, Countable s →
      codeAt mac (newSecret random) s = .ok (prims.codeAt (newSecret random) s))
    (hascii : isAscii text = true) {steps : List Int} (hsteps : ∀ s ∈ steps, Countable s) :
    search mac (newSecret random) text steps =
      .ok (steps.find? fun s => prims.codeAt (newSecret random) s == text) := by
  induction steps with
  | nil => rfl
  | cons step steps ih =>
    obtain ⟨hstep, hrest⟩ := List.forall_mem_cons.mp hsteps
    have hexpected : isAscii (prims.codeAt (newSecret random) step) = true := by
      have heq := (codeAt_eq mac random hstep).symm.trans (hcode step hstep)
      rw [← Except.ok.inj heq]
      exact isAscii_sixDigits _
    rw [search_cons (hcode step hstep), compareDigest, hexpected, hascii, Bool.and_self, if_pos rfl,
      ih hrest]
    rw [List.find?_cons]
    cases prims.codeAt (newSecret random) step == text with
    | true => rfl
    | false => rfl

theorem not_sixDigit (text : String) :
    (decide (text.length ≠ digits) || !text.toList.all isDigit) = !sixDigit text := by
  have hlength : decide (text.length ≠ digits) = !(text.length == digits) := by
    rw [Bool.eq_iff_iff, decide_eq_true_iff, Bool.not_eq_true', beq_eq_false_iff_ne]
  rw [sixDigit, Bool.not_and, hlength]

/-- At the times there are, the endpoints are modelled with this `matching_step`. -/
theorem matchingStep_eq (hdigit : prims.isDigit = isDigit)
    (hcode : ∀ s, Countable s →
      codeAt mac (newSecret random) s = .ok (prims.codeAt (newSecret random) s))
    (hnow : ∀ s ∈ window now, Countable s) :
    Auth.matchingStep prims (newSecret random) code now =
      matchingStep mac (newSecret random) code now := by
  unfold Auth.matchingStep matchingStep
  generalize normalCode code = text
  dsimp only
  rw [hdigit, not_sixDigit]
  cases sixDigit text with
  | false => rfl
  | true =>
    rw [Bool.not_true, if_neg Bool.false_ne_true, if_pos rfl]
    cases hascii : isAscii text with
    | true =>
      rw [search_eq_find hcode hascii hnow]
      unfold isAscii at hascii
      rw [hascii, Bool.not_true, if_neg Bool.false_ne_true]
      rfl
    | false =>
      have hfirst : Countable (now / stepSeconds - driftSteps) := hnow _ List.mem_cons_self
      unfold window
      dsimp only
      rw [search_cons (hcode _ hfirst), compareDigest, hascii, Bool.and_false,
        if_neg Bool.false_ne_true]
      unfold isAscii at hascii
      rw [hascii]
      rfl

end Endpoints

/-! ## Matching -/

theorem window_sorted (now : Int) : (window now).Pairwise (· < ·) := by
  have hdrift : driftSteps = 1 := rfl
  unfold window
  rw [hdrift]
  refine List.pairwise_cons.mpr ⟨fun s hs => ?_,
    List.pairwise_cons.mpr ⟨fun s hs => ?_, List.pairwise_singleton _ _⟩⟩
  · simp only [List.mem_cons, List.not_mem_nil, or_false] at hs
    omega
  · simp only [List.mem_cons, List.not_mem_nil, or_false] at hs
    omega

/-- The search gets to an answer exactly if the steps allow it. -/
theorem exists_finds_iff :
    (∃ answer, Finds mac random text (window now) answer) ↔
      0 ≤ now / stepSeconds - driftSteps ∧ (now / stepSeconds + driftSteps < counterLimit ∨
        ∃ s ∈ window now, Shows mac random text s) := by
  have hdrift : driftSteps = 1 := rfl
  constructor
  · rintro ⟨answer, h⟩
    obtain ⟨hfirst, hall⟩ := h.countable
    refine ⟨(hfirst _ rfl).1, hall.imp_left ?_⟩
    intro hcount
    exact (hcount (now / stepSeconds + driftSteps) (by simp [window])).2
  · rintro ⟨hpos, hlimit | hshows⟩
    · apply exists_finds_of_countable
      intro s hs
      simp only [window, List.mem_cons, List.not_mem_nil, or_false] at hs
      constructor
      · omega
      · omega
    · apply exists_finds_of_shows (window_sorted now) _ hshows
      intro s hs
      simp only [window, List.mem_cons, List.not_mem_nil, or_false] at hs
      omega

/-- For every secret `new_secret` can make, every text and every time:
`matching_step` is right exactly if six digits are ASCII digits and the steps
around the time are counters, as far as they are tried. -/
theorem matching_exact_iff (mac : Mac) (random : List UInt8) (code : String) (now : Int) :
    Exact mac random code now (matchingStep mac (newSecret random) code now) ↔
      Comparable mac random code now := by
  unfold matchingStep Comparable
  dsimp only
  cases hsix : sixDigit (normalCode code) with
  | false =>
    refine iff_of_true ⟨none, rfl, ?_⟩ (by simp)
    intro s
    constructor
    · intro h
      cases h
    · rintro ⟨⟨-, hshows⟩, -⟩
      rw [hshows.checked.1] at hsix
      cases hsix
  | true =>
    simp only [if_true, forall_const]
    cases hascii : isAscii (normalCode code) with
    | false =>
      obtain ⟨e, he⟩ := search_nonAscii mac random hascii
        (now / stepSeconds - driftSteps) [now / stepSeconds, now / stepSeconds + driftSteps]
      refine iff_of_false ?_ (by simp)
      rintro ⟨answer, hanswer, -⟩
      cases he.symm.trans hanswer
    | true =>
      rw [eq_self, true_and, ← exists_finds_iff]
      constructor
      · rintro ⟨answer, hanswer, -⟩
        exact ⟨answer, (search_eq_ok hascii).mp hanswer⟩
      · rintro ⟨answer, hfinds⟩
        exact ⟨answer, (search_eq_ok hascii).mpr hfinds, hfinds.least (window_sorted now)⟩

/-- A digest. -/
def zeroMac : Mac where
  sha1 _ _ := List.replicate 20 0
  length _ _ := List.length_replicate

/-- Six digits that are not ASCII raise. -/
theorem arabic_digits_raise :
    ¬ ∀ (mac : Mac) (random : List UInt8) (code : String) (now : Int), random.length = 20 →
      6 ≤ code.length → code.length ≤ 10 → Exact mac random code now
        (matchingStep mac (newSecret random) code now) := by
  intro h
  have hexact := h zeroMac (List.replicate 20 0) "٠٠٠٠٠٠" 1700000000 (by decide) (by decide) (by decide)
  obtain ⟨answer, hanswer, -⟩ := hexact
  have hascii : isAscii (normalCode "٠٠٠٠٠٠") = false := by decide
  have hsix : sixDigit (normalCode "٠٠٠٠٠٠") = true := by decide
  obtain ⟨e, he⟩ := search_nonAscii zeroMac (List.replicate 20 0) hascii
    56666665 [56666666, 56666667]
  unfold matchingStep at hanswer
  dsimp only at hanswer
  rw [hsix, if_pos rfl] at hanswer
  cases he.symm.trans hanswer

end Royd.Auth.Totp
