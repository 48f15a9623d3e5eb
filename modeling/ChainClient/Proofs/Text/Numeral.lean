import ChainClient.Proofs.Text.Digits

/-!
# Numerals

A numeral is one or more digits, and stands for a number in positional notation. One reader takes
a plus sign in front of a numeral, and another one, of decimal numerals, takes either sign. Neither
takes anything else.
-/

namespace ChainClient.Text.Decimal

variable {radix n : Nat} {i j : Int} {cs digits : List Char}

/-- The text is digits, at least one, and they stand for the number. -/
structure IsNumeral (radix : Nat) (digits : List Char) (n : Nat) : Prop where
  ne_nil : digits ≠ []
  isDigit : ∀ c ∈ digits, '0' ≤ c ∧ c.toNat < 48 + radix
  value : Nat.ofDigitChars radix digits 0 = n

/-- A numeral is digits, at least one, that fold to its number. -/
theorem isNumeral_iff_fold? :
    IsNumeral radix digits n ↔ digits ≠ [] ∧ fold? radix 0 digits = some n := by
  rw [fold?_eq_some_iff]
  exact ⟨fun h ↦ ⟨h.ne_nil, h.isDigit, h.value⟩, fun h ↦ ⟨h.1, h.2.1, h.2.2⟩⟩

/-- Numerals are what the reader of digits takes. -/
theorem numeral?_eq_some_iff_isNumeral : numeral? radix cs = some n ↔ IsNumeral radix cs n := by
  rw [isNumeral_iff_fold?]
  constructor
  · intro h
    have hne : cs ≠ [] := by
      rintro rfl
      cases h
    exact ⟨hne, (numeral?_eq_fold? hne).symm.trans h⟩
  · rintro ⟨hne, h⟩
    exact (numeral?_eq_fold? hne).trans h

theorem isNumeral_ofNat (n : Nat) : IsNumeral 10 (ofNat n) n :=
  numeral?_eq_some_iff_isNumeral.1 (numeral?_ofNat n)

/-- No sign is taken for a digit. -/
theorem IsNumeral.not_mem {sign : Char} (h : IsNumeral radix digits n) (hsign : sign < '0') :
    sign ∉ digits := fun hmem ↦ Char.not_lt.2 (h.isDigit sign hmem).1 hsign

/-! ## One sign -/

/-- Nothing or a plus sign. -/
inductive IsPlus : List Char → Prop
  | absent : IsPlus []
  | plus : IsPlus ['+']

theorem natural?_of_isNumeral (h : IsNumeral radix digits n) :
    natural? radix digits = some n := by
  unfold natural?
  split
  case h_1 => exact absurd List.mem_cons_self (h.not_mem (by decide))
  case h_2 => exact numeral?_eq_some_iff_isNumeral.2 h

/-- The reader of naturals takes a numeral behind a plus sign or none. -/
theorem natural?_eq_some_iff : natural? radix cs = some n ↔
    ∃ sign digits, IsPlus sign ∧ cs = sign ++ digits ∧ IsNumeral radix digits n := by
  constructor
  · intro h
    unfold natural? at h
    split at h
    case h_1 digits =>
      exact ⟨['+'], digits, .plus, rfl, numeral?_eq_some_iff_isNumeral.1 h⟩
    case h_2 => exact ⟨[], cs, .absent, rfl, numeral?_eq_some_iff_isNumeral.1 h⟩
  · rintro ⟨sign, digits, hsign, rfl, h⟩
    cases hsign with
    | absent => exact natural?_of_isNumeral h
    | plus => exact numeral?_eq_some_iff_isNumeral.2 h

/-! ## Either sign -/

/-- A decimal numeral with a sign in front of it or without. -/
inductive IsInteger : List Char → Int → Prop
  | plain {digits : List Char} {n : Nat} (h : IsNumeral 10 digits n) : IsInteger digits n
  | plus {digits : List Char} {n : Nat} (h : IsNumeral 10 digits n) : IsInteger ('+' :: digits) n
  | minus {digits : List Char} {n : Nat} (h : IsNumeral 10 digits n) :
    IsInteger ('-' :: digits) (-n)

/-- A minus sign has to be followed by digits, without a further sign. -/
theorem integer?_minus (cs : List Char) :
    integer? ('-' :: cs) = (numeral? 10 cs).map fun n : Nat ↦ -(n : Int) := by
  cases h : numeral? 10 cs <;> simp [integer?, h]

/-- Without a minus sign an integer is read as a natural. -/
theorem integer?_eq_natural? (h : cs.head? ≠ some '-') :
    integer? cs = (natural? 10 cs).map fun n : Nat ↦ (n : Int) := by
  unfold integer?
  split
  · exact absurd rfl h
  · cases natural? 10 cs <;> rfl

theorem isInteger_of_natural? (h : natural? 10 cs = some n) : IsInteger cs n := by
  obtain ⟨sign, digits, hsign, rfl, hdigits⟩ := natural?_eq_some_iff.1 h
  cases hsign with
  | absent => exact .plain hdigits
  | plus => exact .plus hdigits

/-- Integers are read from what spells them and from nothing else. -/
theorem integer?_eq_some_iff : integer? cs = some i ↔ IsInteger cs i := by
  constructor
  · intro h
    by_cases hminus : cs.head? = some '-'
    · obtain ⟨digits, rfl⟩ := List.head?_eq_some_iff.1 hminus
      rw [integer?_minus] at h
      obtain ⟨n, hn, rfl⟩ := Option.map_eq_some_iff.1 h
      exact .minus (numeral?_eq_some_iff_isNumeral.1 hn)
    · rw [integer?_eq_natural? hminus] at h
      obtain ⟨n, hn, rfl⟩ := Option.map_eq_some_iff.1 h
      exact isInteger_of_natural? hn
  · intro h
    cases h with
    | plain h =>
      have hminus : cs.head? ≠ some '-' :=
        fun hhead ↦ h.not_mem (by decide) (List.mem_of_mem_head? hhead)
      rw [integer?_eq_natural? hminus, natural?_of_isNumeral h, Option.map_some]
    | @plus digits n h =>
      have hplus : natural? 10 ('+' :: digits) = some n :=
        natural?_eq_some_iff.2 ⟨['+'], digits, .plus, rfl, h⟩
      rw [integer?_eq_natural? (by simp), hplus, Option.map_some]
    | minus h => rw [integer?_minus, numeral?_eq_some_iff_isNumeral.2 h, Option.map_some]

theorem IsInteger.ne_nil (h : IsInteger cs i) : cs ≠ [] := by
  cases h with
  | plain h => exact h.ne_nil
  | plus | minus => exact List.cons_ne_nil _ _

/-- A text spells one integer at the most. -/
theorem IsInteger.unique (h : IsInteger cs i) (h' : IsInteger cs j) : i = j :=
  Option.some.inj ((integer?_eq_some_iff.2 h).symm.trans (integer?_eq_some_iff.2 h'))

/-- What is written of an integer stands for it. -/
theorem isInteger_ofInt (i : Int) : IsInteger (ofInt i) i := by
  cases i with
  | ofNat n => exact .plain (isNumeral_ofNat n)
  | negSucc n => exact .minus (isNumeral_ofNat (n + 1))

end ChainClient.Text.Decimal
