import ChainClient.Proofs.Wire.Laws
import ChainClient.Text.Blank
import ChainClient.Text.Decimal
import ChainClient.Text.Hex
import Mathlib.Algebra.Group.Nat.Defs

/-!
# Digits

The digits that are written of a number are read as that number, and so are these digits behind
any count of zeros; no other digits are. The digits that are written of bytes are read as those
bytes. A reader finds the end of digits at the first character that is none, so what is said of
runs of characters stands first.
-/

namespace ChainClient.Text

/-! ## Runs of characters -/

/-- No run of characters that pass the test begins here. -/
def Stops (test : Char → Bool) (cs : List Char) : Prop := cs.takeWhile test = []

section Runs

variable {test : Char → Bool} {c : Char} {cs run rest : List Char}

theorem stops_nil : Stops test [] := rfl

theorem stops_cons (h : test c = false) : Stops test (c :: cs) := by
  simp [Stops, h]

theorem Stops.of_append (h : Stops test (cs ++ rest)) : Stops test cs := by
  cases cs with
  | nil => rfl
  | cons c cs =>
    cases hc : test c with
    | false => exact stops_cons hc
    | true => simp [Stops, hc] at h

theorem stops_dropWhile (cs : List Char) : Stops test (cs.dropWhile test) := by
  induction cs with
  | nil => rfl
  | cons c cs ih =>
    cases hc : test c with
    | false =>
      rw [List.dropWhile_cons_of_neg (Bool.eq_false_iff.1 hc)]
      exact stops_cons hc
    | true =>
      rw [List.dropWhile_cons_of_pos hc]
      exact ih

/-- A run of characters is taken whole if what follows stops it. -/
theorem takeWhile_run (hrun : ∀ c ∈ run, test c = true) (hrest : Stops test rest) :
    (run ++ rest).takeWhile test = run := by
  rw [List.takeWhile_append_of_pos hrun, hrest, List.append_nil]

/-- A run of characters is skipped whole if what follows stops it. -/
theorem dropWhile_run (hrun : ∀ c ∈ run, test c = true) (hrest : Stops test rest) :
    (run ++ rest).dropWhile test = rest := by
  rw [List.dropWhile_append_of_pos hrun]
  calc
    rest.dropWhile test = rest.takeWhile test ++ rest.dropWhile test := by rw [hrest]; rfl
    _ = rest := List.takeWhile_append_dropWhile

end Runs

theorem isDigit_iff {c : Char} : Decimal.isDigit c = true ↔ 48 ≤ c.toNat ∧ c.toNat ≤ 57 := by
  unfold Decimal.isDigit
  rw [Bool.and_eq_true, decide_eq_true_eq, decide_eq_true_eq]
  exact Iff.rfl

theorem isAlpha_iff {c : Char} : c.isAlpha = true ↔
    (65 ≤ c.toNat ∧ c.toNat ≤ 90) ∨ (97 ≤ c.toNat ∧ c.toNat ≤ 122) := by
  unfold Char.isAlpha Char.isUpper Char.isLower
  rw [Bool.or_eq_true, decide_eq_true_eq, Bool.and_eq_true, decide_eq_true_eq, decide_eq_true_eq]
  exact Iff.rfl

/-- Letters and digits make up the alphanumeric characters, and no character is both. -/
theorem isAlphanum_iff {c : Char} :
    c.isAlphanum = true ↔ c.isAlpha = true ∨ Decimal.isDigit c = true := by
  rw [isDigit_iff]
  unfold Char.isAlphanum Char.isDigit
  rw [Bool.or_eq_true, Bool.and_eq_true, decide_eq_true_eq, decide_eq_true_eq]
  exact Iff.rfl

theorem isAlphanum_of_isDigit {c : Char} (h : Decimal.isDigit c = true) : c.isAlphanum = true :=
  isAlphanum_iff.2 (.inr h)

theorem isAlphanum_of_isAlpha {c : Char} (h : c.isAlpha = true) : c.isAlphanum = true :=
  isAlphanum_iff.2 (.inl h)

theorem isDigit_of_isAlpha {c : Char} (h : c.isAlpha = true) : Decimal.isDigit c = false := by
  rw [isAlpha_iff] at h
  rw [Bool.eq_false_iff, Ne, isDigit_iff]
  omega

/-- White space is neither a letter nor a digit. -/
theorem isAlphanum_of_isBlank {c : Char} (h : isBlank c = true) : c.isAlphanum = false := by
  rw [Bool.eq_false_iff, Ne, isAlphanum_iff, isAlpha_iff, isDigit_iff]
  simp only [isBlank, Bool.or_eq_true, Bool.and_eq_true, decide_eq_true_eq, beq_iff_eq] at h
  omega

/-- No blank is a letter or a digit, so words end where blanks begin. -/
theorem isBlank_of_isAlphanum {c : Char} (h : c.isAlphanum = true) : isBlank c = false := by
  rw [Bool.eq_false_iff]
  intro hblank
  rw [isAlphanum_of_isBlank hblank] at h
  cases h

/-- Nothing is removed where neither end is white space. -/
theorem trim_eq_self {cs : List Char} (hfront : Stops isBlank cs)
    (hback : Stops isBlank cs.reverse) : trim cs = cs := by
  have hskip : skipBlank cs = cs := dropWhile_run (List.forall_mem_nil _) hfront
  have hskip' : skipBlank cs.reverse = cs.reverse := dropWhile_run (List.forall_mem_nil _) hback
  rw [trim, hskip, hskip', List.reverse_reverse]

/-- What is left has no white space at its end. -/
theorem stops_reverse_trim (cs : List Char) : Stops isBlank (trim cs).reverse := by
  rw [trim, List.reverse_reverse]
  exact stops_dropWhile _

/-- What is left has no white space at its beginning. -/
theorem stops_trim (cs : List Char) : Stops isBlank (trim cs) := by
  -- The text without the white space at its beginning goes on after what is left.
  have hsplit : trim cs ++ ((skipBlank cs).reverse.takeWhile isBlank).reverse = skipBlank cs := by
    have hback : (skipBlank cs).reverse.takeWhile isBlank ++ skipBlank (skipBlank cs).reverse =
        (skipBlank cs).reverse := List.takeWhile_append_dropWhile
    rw [trim, ← List.reverse_append, hback, List.reverse_reverse]
  have hskip : Stops isBlank (skipBlank cs) := stops_dropWhile cs
  rw [← hsplit] at hskip
  exact hskip.of_append

/-! ## Decimal numerals -/

namespace Decimal

variable {acc d n radix : Nat} {c : Char} {cs : List Char}

theorem toNat_digit (h : d < 10) : (digit d).toNat = 48 + d := by
  have hvalid : (48 + d).isValidChar := .inl (by omega)
  rw [digit, Char.ofNat, dif_pos hvalid]
  rfl

theorem digitValue?_digit (hd : d < radix) (hradix : radix ≤ 10) :
    digitValue? radix (digit d) = some d := by
  have htoNat := toNat_digit (Nat.lt_of_lt_of_le hd hradix)
  have hzero : '0' ≤ digit d := by
    change 48 ≤ (digit d).toNat
    omega
  rw [digitValue?, if_pos ⟨hzero, by omega⟩]
  exact congrArg some (by omega)

/-- A character with a value is the digit of that value. -/
theorem digit_of_digitValue? (h : digitValue? radix c = some d) (hradix : radix ≤ 10) :
    d < radix ∧ c = digit d := by
  unfold digitValue? at h
  split at h
  case isFalse => cases h
  case isTrue hc =>
    obtain rfl := Option.some.inj h
    have hzero : 48 ≤ c.toNat := hc.1
    refine ⟨by omega, Char.toNat_inj.1 ?_⟩
    rw [toNat_digit (by omega)]
    omega

theorem isDigit_digit (h : d < 10) : isDigit (digit d) = true := by
  rw [isDigit_iff, toNat_digit h]
  omega

/-! ### Written numbers -/

theorem ofNat_of_lt (h : n < 10) : ofNat n = [digit n] := by
  rw [ofNat, if_pos h]

/-- Writing a digit behind a number multiplies it by ten and adds the digit. -/
theorem ofNat_append_digit (hacc : 0 < acc) (hd : d < 10) :
    ofNat (acc * 10 + d) = ofNat acc ++ [digit d] := by
  have hten : ¬acc * 10 + d < 10 := by omega
  have hdiv : (acc * 10 + d) / 10 = acc := by omega
  have hmod : (acc * 10 + d) % 10 = d := by omega
  rw [ofNat, if_neg hten, hdiv, hmod]

theorem ofNat_ne_nil (n : Nat) : ofNat n ≠ [] := by
  rw [ofNat]
  split <;> simp

theorem isDigit_of_mem_ofNat (hc : c ∈ ofNat n) : isDigit c = true := by
  induction n using ofNat.induct with
  | case1 n hn =>
    rw [ofNat_of_lt hn] at hc
    rw [List.mem_singleton.1 hc]
    exact isDigit_digit hn
  | case2 n hn ih =>
    rw [ofNat, if_neg hn, List.mem_append, List.mem_singleton] at hc
    rcases hc with hc | rfl
    · exact ih hc
    · exact isDigit_digit (Nat.mod_lt n (by decide))

/-- A number below a power of ten has at most that many digits. -/
theorem length_ofNat_le {width : Nat} (hwidth : 0 < width) (h : n < 10 ^ width) :
    (ofNat n).length ≤ width := by
  induction n using ofNat.induct generalizing width with
  | case1 n hn =>
    rw [ofNat_of_lt hn]
    exact hwidth
  | case2 n hn ih =>
    obtain ⟨below, rfl⟩ := Nat.exists_eq_succ_of_ne_zero (Nat.ne_of_gt hwidth)
    rw [Nat.pow_succ] at h
    have hbelow : 0 < below := by
      apply Nat.pos_of_ne_zero
      rintro rfl
      omega
    have hlength := ih hbelow (by omega)
    rw [ofNat, if_neg hn, List.length_append]
    exact Nat.succ_le_succ hlength

/-! ### Reading -/

theorem fold?_cons (hd : digitValue? radix c = some d) :
    fold? radix acc (c :: cs) = fold? radix (acc * radix + d) cs := by
  simp [fold?, hd]

/-- Reading digits goes on from the number of the digits before. -/
theorem fold?_append {ds : List Char} :
    fold? radix acc (cs ++ ds) = (fold? radix acc cs).bind fun n ↦ fold? radix n ds := by
  induction cs generalizing acc with
  | nil => rfl
  | cons c cs ih => cases hd : digitValue? radix c <;> simp [fold?, hd, ih]

theorem fold?_ofNat (n : Nat) : fold? 10 0 (ofNat n) = some n := by
  induction n using ofNat.induct with
  | case1 n hn =>
    rw [ofNat_of_lt hn, fold?_cons (digitValue?_digit hn (Nat.le_refl 10)), Nat.zero_mul,
      Nat.zero_add]
    rfl
  | case2 n hn ih =>
    have hmod : n % 10 < 10 := Nat.mod_lt n (by decide)
    calc
      fold? 10 0 (ofNat n) = fold? 10 0 (ofNat (n / 10) ++ [digit (n % 10)]) := by
        rw [ofNat, if_neg hn]
      _ = fold? 10 (n / 10) [digit (n % 10)] := by rw [fold?_append, ih]; rfl
      _ = some (n / 10 * 10 + n % 10) := fold?_cons (digitValue?_digit hmod (Nat.le_refl 10))
      _ = some n := congrArg some (by omega)

/-- Zeros in front do not count. -/
theorem fold?_zeros (zeros : Nat) :
    fold? 10 0 (List.replicate zeros '0' ++ cs) = fold? 10 0 cs := by
  induction zeros with
  | zero => rfl
  | succ zeros ih =>
    have hzero : digitValue? 10 '0' = some 0 := by decide
    rw [List.replicate_succ, List.cons_append, fold?_cons hzero]
    exact ih

/-- What is read on top of a number that is not zero are the digits that follow it. -/
theorem ofNat_of_fold? (hacc : 0 < acc) (h : fold? 10 acc cs = some n) :
    ofNat n = ofNat acc ++ cs := by
  induction cs generalizing acc with
  | nil =>
    rw [← Option.some.inj h, List.append_nil]
  | cons c cs ih =>
    obtain ⟨d, hd, hfold⟩ := Option.bind_eq_some_iff.1 h
    obtain ⟨hlt, rfl⟩ := digit_of_digitValue? hd (Nat.le_refl 10)
    calc
      ofNat n = ofNat (acc * 10 + d) ++ cs := ih (by omega) hfold
      _ = ofNat acc ++ digit d :: cs := by
        rw [ofNat_append_digit hacc hlt, List.append_assoc]
        rfl

/-- Digits that fold to a number are its own digits behind some zeros. -/
theorem exists_zeros_of_fold? (hcs : cs ≠ []) (h : fold? 10 0 cs = some n) :
    ∃ zeros, cs = List.replicate zeros '0' ++ ofNat n := by
  induction cs with
  | nil => exact absurd rfl hcs
  | cons c cs ih =>
    obtain ⟨d, hd, hfold⟩ := Option.bind_eq_some_iff.1 h
    obtain ⟨hlt, rfl⟩ := digit_of_digitValue? hd (Nat.le_refl 10)
    rw [Nat.zero_mul, Nat.zero_add] at hfold
    rcases Nat.eq_zero_or_pos d with rfl | hpos
    · cases cs with
      | nil =>
        rw [← Option.some.inj hfold]
        exact ⟨0, (ofNat_of_lt (by decide)).symm⟩
      | cons c' cs =>
        obtain ⟨zeros, hzeros⟩ := ih (List.cons_ne_nil c' cs) hfold
        exact ⟨zeros + 1, congrArg (List.cons '0') hzeros⟩
    · refine ⟨0, ?_⟩
      rw [ofNat_of_fold? hpos hfold, ofNat_of_lt hlt]
      rfl

theorem numeral?_eq_fold? (h : cs ≠ []) : numeral? radix cs = fold? radix 0 cs := by
  cases cs with
  | nil => exact absurd rfl h
  | cons c cs => rfl

/-- The numerals of a number are its digits behind zeros. -/
theorem numeral?_eq_some_iff :
    numeral? 10 cs = some n ↔ ∃ zeros, cs = List.replicate zeros '0' ++ ofNat n := by
  constructor
  · intro h
    have hcs : cs ≠ [] := by
      rintro rfl
      cases h
    rw [numeral?_eq_fold? hcs] at h
    exact exists_zeros_of_fold? hcs h
  · rintro ⟨zeros, rfl⟩
    have hne : List.replicate zeros '0' ++ ofNat n ≠ [] :=
      List.append_ne_nil_of_right_ne_nil _ (ofNat_ne_nil n)
    rw [numeral?_eq_fold? hne, fold?_zeros, fold?_ofNat]

theorem numeral?_ofNat (n : Nat) : numeral? 10 (ofNat n) = some n :=
  numeral?_eq_some_iff.2 ⟨0, rfl⟩

theorem digitValue?_eq_some_iff :
    digitValue? radix c = some d ↔ ('0' ≤ c ∧ c.toNat < 48 + radix) ∧ c.toNat - 48 = d := by
  rw [digitValue?, Option.ite_none_right_eq_some, Option.some.injEq]

/-- Folding succeeds for digits alone, and gives the number that the library gives. -/
theorem fold?_eq_some_iff : fold? radix acc cs = some n ↔
    (∀ c ∈ cs, '0' ≤ c ∧ c.toNat < 48 + radix) ∧ Nat.ofDigitChars radix cs acc = n := by
  induction cs generalizing acc with
  | nil => simp [fold?]
  | cons c cs ih =>
    have hcons : fold? radix acc (c :: cs) =
        (digitValue? radix c).bind fun d ↦ fold? radix (acc * radix + d) cs := rfl
    rw [hcons, Option.bind_eq_some_iff, List.forall_mem_cons, Nat.ofDigitChars_cons,
      Nat.mul_comm radix]
    constructor
    · rintro ⟨d, hd, hfold⟩
      obtain ⟨hc, rfl⟩ := digitValue?_eq_some_iff.1 hd
      obtain ⟨hcs, hn⟩ := ih.1 hfold
      exact ⟨⟨hc, hcs⟩, hn⟩
    · rintro ⟨⟨hc, hcs⟩, hn⟩
      exact ⟨_, digitValue?_eq_some_iff.2 ⟨hc, rfl⟩, ih.2 ⟨hcs, hn⟩⟩

theorem isDigit_iff_lt : isDigit c = true ↔ '0' ≤ c ∧ c.toNat < 48 + 10 := by
  rw [isDigit_iff]
  exact and_congr Iff.rfl Nat.lt_succ_iff.symm

/-- The numerals are the texts of one or more digits, and they stand for the number that has these
digits. -/
theorem numeral?_eq_some_iff_digits : numeral? 10 cs = some n ↔
    cs ≠ [] ∧ (∀ c ∈ cs, isDigit c = true) ∧ Nat.ofDigitChars 10 cs 0 = n := by
  cases cs with
  | nil => simp [numeral?]
  | cons c cs =>
    rw [numeral?_eq_fold? (List.cons_ne_nil c cs), fold?_eq_some_iff]
    simp only [isDigit_iff_lt]
    exact (and_iff_right (List.cons_ne_nil c cs)).symm

/-- The library reads the digits of a number as the number. -/
theorem ofDigitChars_ofNat (n : Nat) : Nat.ofDigitChars 10 (ofNat n) 0 = n :=
  (numeral?_eq_some_iff_digits.1 (numeral?_ofNat n)).2.2

/-! ### Numbers of a fixed width -/

/-- A number reads back from its digits with zeros in front. -/
theorem numeral?_padded (width n : Nat) : numeral? 10 (padded width n) = some n :=
  numeral?_eq_some_iff.2 ⟨width - (ofNat n).length, rfl⟩

/-- Padding fills up to the width, which a number that fits does not exceed. -/
theorem length_padded {width : Nat} (hwidth : 0 < width) (h : n < 10 ^ width) :
    (padded width n).length = width := by
  rw [padded, List.length_append, List.length_replicate]
  exact Nat.sub_add_cancel (length_ofNat_le hwidth h)

theorem isDigit_of_mem_padded {width : Nat} (hc : c ∈ padded width n) : isDigit c = true := by
  rw [padded, List.mem_append] at hc
  rcases hc with hc | hc
  · rw [List.eq_of_mem_replicate hc]
    rfl
  · exact isDigit_of_mem_ofNat hc

end Decimal

/-! ## Hexadecimal digits -/

namespace Hex

theorem digitValue?_digit {n : Nat} (h : n < 16) : digitValue? (digit n) = some n := by
  revert n
  decide

theorem utf8Size_digit {n : Nat} (h : n < 16) : (digit n).utf8Size = 1 := by
  revert n
  decide

theorem digits_lt (b : UInt8) : b.toNat / 16 < 16 ∧ b.toNat % 16 < 16 := by
  have hb : b.toNat < 256 := b.toNat_lt
  omega

/-- Hexadecimal digits take one byte each, two for every byte that they stand for. -/
theorem utf8Length_encode (bytes : List UInt8) : utf8Length (encode bytes) = 2 * bytes.length := by
  induction bytes with
  | nil => rfl
  | cons b bytes ih =>
    obtain ⟨hhigh, hlow⟩ := digits_lt b
    calc
      utf8Length (encode (b :: bytes)) = 1 + (1 + utf8Length (encode bytes)) := by
        simp [encode, ofByte, utf8Length, utf8Size_digit hhigh, utf8Size_digit hlow]
      _ = 2 * (b :: bytes).length := by
        rw [ih, List.length_cons]
        omega

/-- The digits of bytes are read in pairs, wherever the count of positions starts. -/
theorem pairs_encode (bytes : List UInt8) (position : Nat) :
    pairs position (encode bytes) = .ok bytes := by
  induction bytes generalizing position with
  | nil => rfl
  | cons b bytes ih =>
    obtain ⟨hhigh, hlow⟩ := digits_lt b
    have hbyte : 16 * (b.toNat / 16) + b.toNat % 16 = b.toNat := Nat.div_add_mod b.toNat 16
    have hrest := ih (position + 2)
    simp only [encode] at hrest
    simp [encode, ofByte, pairs, digitValue?_digit hhigh, digitValue?_digit hlow, hrest, hbyte]

theorem decode_encode (bytes : List UInt8) : decode (encode bytes) = .ok bytes := by
  have heven : ¬utf8Length (encode bytes) % 2 = 1 := by
    rw [utf8Length_encode]
    omega
  rw [decode, if_neg heven, pairs_encode]

/-- Bytes of the expected length read back from their hexadecimal digits. -/
theorem decodeExactly_encode {bytes : List UInt8} {n : Nat} (h : bytes.length = n) :
    decodeExactly n (encode bytes) = .ok bytes := by
  have hlength : utf8Length (encode bytes) = 2 * n := by rw [utf8Length_encode, h]
  have heven : ¬utf8Length (encode bytes) % 2 = 1 := by omega
  rw [decodeExactly, if_neg heven, if_neg (not_not_intro hlength), pairs_encode]

end Hex

end ChainClient.Text
