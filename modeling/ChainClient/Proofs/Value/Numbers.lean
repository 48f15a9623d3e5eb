import ChainClient.Proofs.Text.Numeral
import ChainClient.Proofs.Value.Typed

/-!
# Numbers of every type

Eight types hold numbers, each those of an interval. An integer is made a value of such a type just
if it lies in the interval, and the value is then read back as the integer. A decimal text goes
through one of two readers, one for the three wide types and one for the others. They agree on all
numerals without a sign, and differ on signs and on the empty text.
-/

namespace ChainClient

open Text.Decimal (IsInteger fold? isDigit)

/-! ## Types -/

/-- The types of numbers. -/
inductive NumberType where
  | i32
  | i64
  | u8
  | u32
  | u64
  | u128
  | u256
  | u512
  deriving DecidableEq, Repr

namespace NumberType

variable {t : NumberType} {n : Int} {cs : List Char}

@[reducible] def scalar : NumberType → Scalar
  | .i32 => .i32
  | .i64 => .i64
  | .u8 => .u8
  | .u32 => .u32
  | .u64 => .u64
  | .u128 => .u128
  | .u256 => .u256
  | .u512 => .u512

def clType : NumberType → ClType
  | .i32 => .leaf .i32
  | .i64 => .leaf .i64
  | .u8 => .leaf .u8
  | .u32 => .leaf .u32
  | .u64 => .leaf .u64
  | .u128 => .leaf .u128
  | .u256 => .leaf .u256
  | .u512 => .leaf .u512

theorem clType?_scalar (t : NumberType) : (Native.scalar t.scalar).clType? = some t.clType := by
  cases t <;> rfl

/-! ### Ranges -/

/-- The count of bytes that a number takes up at most. -/
def size : NumberType → Nat
  | .u8 => 1
  | .i32 | .u32 => 4
  | .i64 | .u64 => 8
  | .u128 => 16
  | .u256 => 32
  | .u512 => 64

def isSigned : NumberType → Bool
  | .i32 | .i64 => true
  | .u8 | .u32 | .u64 | .u128 | .u256 | .u512 => false

/-- The type is wider than the words of the machine. -/
def isWide (t : NumberType) : Bool := 8 < t.size

/-- The least number held, negative for the signed types. -/
def least (t : NumberType) : Int := if t.isSigned then -(Wire.capacity t.size / 2 : Nat) else 0

/-- A type has one number for each arrangement of its bytes. -/
def Holds (t : NumberType) (n : Int) : Prop := t.least ≤ n ∧ n < t.least + Wire.capacity t.size

instance (t : NumberType) (n : Int) : Decidable (t.Holds n) := instDecidableAnd

/-- The number that a native value stands for. -/
def toInt : (t : NumberType) → t.scalar.Value → Int
  | .i32, x => Int32.toInt x
  | .i64, x => Int64.toInt x
  | .u8, x => UInt8.toNat x
  | .u32, x => UInt32.toNat x
  | .u64, x => UInt64.toNat x
  | .u128, x => BigUInt.toNat x
  | .u256, x => BigUInt.toNat x
  | .u512, x => BigUInt.toNat x

/-- The native value of a number that the type holds. -/
def ofInt : (t : NumberType) → Int → t.scalar.Value
  | .i32, n => Int32.ofInt n
  | .i64, n => Int64.ofInt n
  | .u8, n => UInt8.ofNat n.toNat
  | .u32, n => UInt32.ofNat n.toNat
  | .u64, n => UInt64.ofNat n.toNat
  | .u128, n => (BigUInt.ofNat? 16 n.toNat).getD default
  | .u256, n => (BigUInt.ofNat? 32 n.toNat).getD default
  | .u512, n => (BigUInt.ofNat? 64 n.toNat).getD default

theorem holds_unsigned (h : t.isSigned = false) :
    t.Holds n ↔ 0 ≤ n ∧ n.toNat < Wire.capacity t.size := by
  rw [Holds, least, h, if_neg Bool.false_ne_true]
  omega

theorem isSigned_of_isWide (h : t.isWide = true) : t.isSigned = false := by
  cases t with
  | i32 | i64 | u8 | u32 | u64 => cases h
  | u128 | u256 | u512 => rfl

/-- A held number is found again from its integer. -/
theorem ofInt_toInt (x : t.scalar.Value) : t.ofInt (t.toInt x) = x := by
  cases t with
  | i32 => exact Int32.ofInt_toInt x
  | i64 => exact Int64.ofInt_toInt x
  | u8 => exact UInt8.ofNat_toNat
  | u32 => exact UInt32.ofNat_toNat
  | u64 => exact UInt64.ofNat_toNat
  | u128 | u256 | u512 => exact congrArg (Option.getD · default) (BigUInt.ofNat?_of_lt x.toNat_lt)

theorem holds_toInt (x : t.scalar.Value) : t.Holds (t.toInt x) := by
  cases t with
  | i32 => exact ⟨Int32.le_toInt x, Int32.toInt_lt x⟩
  | i64 => exact ⟨Int64.le_toInt x, Int64.toInt_lt x⟩
  | u8 => exact (holds_unsigned rfl).2 ⟨Int.natCast_nonneg _, UInt8.toNat_lt x⟩
  | u32 => exact (holds_unsigned rfl).2 ⟨Int.natCast_nonneg _, UInt32.toNat_lt x⟩
  | u64 => exact (holds_unsigned rfl).2 ⟨Int.natCast_nonneg _, UInt64.toNat_lt x⟩
  | u128 | u256 | u512 =>
    exact (holds_unsigned rfl).2 ⟨Int.natCast_nonneg _, BigUInt.toNat_lt x⟩

/-- Whatever gives back the natural numbers below the bound of an unsigned type gives back its
numbers. -/
theorem natCast_eq {m : Nat} (ht : t.isSigned = false) (h : t.Holds n)
    (hm : n.toNat < Wire.capacity t.size → m = n.toNat) : (m : Int) = n := by
  obtain ⟨hnonneg, hlt⟩ := (holds_unsigned ht).1 h
  rw [hm hlt, Int.toNat_of_nonneg hnonneg]

theorem toNat_getD_ofNat? {size m : Nat} (h : m < Wire.capacity size) :
    ((BigUInt.ofNat? size m).getD default).toNat = m := by
  rw [BigUInt.ofNat?_of_lt h, Option.getD_some]

theorem toInt_ofInt (h : t.Holds n) : t.toInt (t.ofInt n) = n := by
  cases t with
  | i32 => exact Int32.toInt_ofInt_of_le h.1 h.2
  | i64 => exact Int64.toInt_ofInt_of_le h.1 h.2
  | u8 => exact natCast_eq rfl h UInt8.toNat_ofNat_of_lt'
  | u32 => exact natCast_eq rfl h UInt32.toNat_ofNat_of_lt'
  | u64 => exact natCast_eq rfl h UInt64.toNat_ofNat_of_lt'
  | u128 | u256 | u512 => exact natCast_eq rfl h toNat_getD_ofNat?

/-! ### Texts -/

/-- The texts that stand for a number. Those of a wide type are digits only, or nothing. -/
inductive Spells : NumberType → List Char → Int → Prop
  | integer {t : NumberType} {cs : List Char} {n : Int} (ht : t.isWide = false)
      (h : IsInteger cs n) : Spells t cs n
  | digits {t : NumberType} {cs : List Char} (ht : t.isWide = true)
      (h : ∀ c ∈ cs, isDigit c = true) : Spells t cs (Nat.ofDigitChars 10 cs 0)

theorem spells_iff_of_narrow (ht : t.isWide = false) : t.Spells cs n ↔ IsInteger cs n := by
  constructor
  · rintro (⟨-, h⟩ | ⟨hwide, -⟩)
    · exact h
    · rw [ht] at hwide
      cases hwide
  · exact .integer ht

/-- A wide type reads digits only, without a sign, and takes the empty text as zero. -/
theorem spells_iff_of_wide (ht : t.isWide = true) :
    t.Spells cs n ↔ ∃ m : Nat, fold? 10 0 cs = some m ∧ (m : Int) = n := by
  simp only [Text.Decimal.fold?_eq_some_iff, ← Text.Decimal.isDigit_iff_lt]
  constructor
  · rintro (⟨hnarrow, -⟩ | ⟨-, h⟩)
    · rw [ht] at hnarrow
      cases hnarrow
    · exact ⟨_, ⟨h, rfl⟩, rfl⟩
  · rintro ⟨m, ⟨h, rfl⟩, rfl⟩
    exact .digits ht h

/-- A text that stands for a number of some type is the text of an integer, or it is empty. -/
theorem Spells.isInteger (h : t.Spells cs n) (hne : cs ≠ []) : IsInteger cs n := by
  cases ht : t.isWide with
  | false => exact (spells_iff_of_narrow ht).1 h
  | true =>
    obtain ⟨m, hm, rfl⟩ := (spells_iff_of_wide ht).1 h
    exact .plain (Text.Decimal.isNumeral_iff_fold?.2 ⟨hne, hm⟩)

/-- The readers agree on texts that begin with something other than a sign. -/
theorem spells_iff_isInteger (h : t.isWide = true → cs.head? ∉ [none, some '+', some '-']) :
    t.Spells cs n ↔ IsInteger cs n := by
  refine ⟨fun hspells ↦ ?_, fun hinteger ↦ ?_⟩
  · cases ht : t.isWide with
    | false => exact (spells_iff_of_narrow ht).1 hspells
    | true =>
      refine hspells.isInteger ?_
      rintro rfl
      exact h ht List.mem_cons_self
  · cases ht : t.isWide with
    | false => exact .integer ht hinteger
    | true =>
      have hhead := h ht
      cases hinteger with
      | plain hdigits =>
        exact (spells_iff_of_wide ht).2 ⟨_, (Text.Decimal.isNumeral_iff_fold?.1 hdigits).2, rfl⟩
      | plus => simp at hhead
      | minus => simp at hhead

/-- What is written of a number that the type holds stands for it. -/
theorem spells_ofInt (h : t.Holds n) : t.Spells (Text.Decimal.ofInt n) n := by
  cases ht : t.isWide with
  | false => exact .integer ht (Text.Decimal.isInteger_ofInt n)
  | true =>
    have hnonneg := ((holds_unsigned (isSigned_of_isWide ht)).1 h).1
    obtain ⟨m, rfl⟩ := Int.eq_ofNat_of_zero_le hnonneg
    have hdigits := Text.Decimal.isNumeral_iff_fold?.1 (Text.Decimal.isNumeral_ofNat m)
    exact (spells_iff_of_wide ht).2 ⟨m, hdigits.2, rfl⟩

end NumberType

/-! ## Values -/

namespace ClValue

variable {t : NumberType} {v : ClValue} {n : Int} {text : String}

/-- The value has the type and is read back as the number. -/
def IsNumber (v : ClValue) (t : NumberType) (n : Int) : Prop :=
  v.clType = t.clType ∧ ∃ x, v.toNative (.scalar t.scalar) t.clType?_scalar = .ok x ∧ t.toInt x = n

/-- The value of a number is the one that the native scalar gives. -/
theorem isNumber_iff : v.IsNumber t n ↔
    t.Holds n ∧ ofNative (.scalar t.scalar) t.clType?_scalar (t.ofInt n) = .ok v := by
  have : Wire.Canonical (Native.scalar t.scalar).Value := Native.canonical rfl
  constructor
  · rintro ⟨-, x, hx, rfl⟩
    obtain ⟨htype, hread⟩ := toNative_eq_ok.1 hx
    refine ⟨t.holds_toInt x, ofNative_eq_ok.2 ⟨htype, ?_⟩⟩
    rw [t.ofInt_toInt x]
    exact Wire.write_of_readAll hread
  · rintro ⟨h, hv⟩
    obtain ⟨htype, hw⟩ := ofNative_eq_ok.1 hv
    have hkeys : (Native.scalar t.scalar).AllKeys PublicKey.IsAccepted (t.ofInt n) := by
      cases t <;> trivial
    exact ⟨htype, _, toNative_eq_ok.2 ⟨htype, (Native.readable hkeys).readAll_eq hw⟩,
      t.toInt_ofInt h⟩

theorem exists_isNumber (h : t.Holds n) : ∃ v : ClValue, v.IsNumber t n := by
  simp only [isNumber_iff, h, true_and]
  cases t <;> exact ⟨_, rfl⟩

/-! ### Integers -/

/-- The range check of the narrow types, said of the range of the type. -/
theorem bounded_eq (t : NumberType) (build : Int → Except ClValueError ClValue) (n : Int) :
    bounded t.clType t.least (t.least + Wire.capacity t.size - 1) build n =
      if t.Holds n then build n else .error (.range t.clType (integerText n)) := by
  have hholds : (t.least ≤ n ∧ n ≤ t.least + Wire.capacity t.size - 1) ↔ t.Holds n := by
    rw [NumberType.Holds, Int.le_sub_one_iff]
  simp only [bounded, hholds]

theorem wide_eq {build : BigUInt t.size → Except ClValueError ClValue}
    (ht : t.isSigned = false) : wide t.clType t.size build n =
      if t.Holds n then build ((BigUInt.ofNat? t.size n.toNat).getD default)
      else .error (.range t.clType (integerText n)) := by
  have hholds := t.holds_unsigned (n := n) ht
  unfold wide
  cases n with
  | ofNat m =>
    by_cases hlt : m < Wire.capacity t.size
    · rw [if_pos (hholds.2 ⟨Int.natCast_nonneg m, hlt⟩)]
      simp [BigUInt.ofNat?, hlt]
    · rw [if_neg fun h ↦ hlt (hholds.1 h).2]
      simp [BigUInt.ofNat?, hlt]
  | negSucc m => rw [if_neg fun h ↦ absurd (hholds.1 h).1 (Int.negSucc_not_nonneg m).1]

/-- The factory for integers in one equation: the native value within the range, else the range
error. -/
theorem ofInteger_eq (t : NumberType) (n : Int) : ofInteger t.clType n =
    if t.Holds n then ofNative (.scalar t.scalar) t.clType?_scalar (t.ofInt n)
    else .error (.range t.clType (integerText n)) := by
  cases t with
  | i32 => exact bounded_eq .i32 (fun n ↦ ofI32 (Int32.ofInt n)) n
  | i64 => exact bounded_eq .i64 (fun n ↦ ofI64 (Int64.ofInt n)) n
  | u8 => exact bounded_eq .u8 (fun n ↦ ofU8 (UInt8.ofNat n.toNat)) n
  | u32 => exact bounded_eq .u32 (fun n ↦ ofU32 (UInt32.ofNat n.toNat)) n
  | u64 => exact bounded_eq .u64 (fun n ↦ ofU64 (UInt64.ofNat n.toNat)) n
  | u128 => exact wide_eq (t := .u128) rfl
  | u256 => exact wide_eq (t := .u256) rfl
  | u512 => exact wide_eq (t := .u512) rfl

theorem ofInteger_eq_ok_iff : ofInteger t.clType n = .ok v ↔ v.IsNumber t n := by
  rw [ofInteger_eq, isNumber_iff]
  split <;> simp [*]

theorem ofInteger_eq_error (h : ¬t.Holds n) :
    ofInteger t.clType n = .error (.range t.clType (integerText n)) := by
  rw [ofInteger_eq, if_neg h]

/-- Types that hold no numbers are refused, whatever the number. -/
theorem ofInteger_eq_notNumeric {clType : ClType} (h : ∀ t : NumberType, t.clType ≠ clType) :
    ofInteger clType n = .error (.notNumeric clType) := by
  unfold ofInteger
  split
  case h_1 => exact absurd rfl (h .i32)
  case h_2 => exact absurd rfl (h .i64)
  case h_3 => exact absurd rfl (h .u8)
  case h_4 => exact absurd rfl (h .u32)
  case h_5 => exact absurd rfl (h .u64)
  case h_6 => exact absurd rfl (h .u128)
  case h_7 => exact absurd rfl (h .u256)
  case h_8 => exact absurd rfl (h .u512)
  case h_9 => rfl

/-! ### Decimal texts -/

theorem ofDecimal_eq_notNumeric {clType : ClType} (h : ∀ t : NumberType, t.clType ≠ clType) :
    ofDecimal clType text = .error (.notNumeric clType) := by
  unfold ofDecimal
  split
  case h_1 => exact absurd rfl (h .u128)
  case h_2 => exact absurd rfl (h .u256)
  case h_3 => exact absurd rfl (h .u512)
  case h_4 => exact absurd rfl (h .i32)
  case h_5 => exact absurd rfl (h .i64)
  case h_6 => exact absurd rfl (h .u8)
  case h_7 => exact absurd rfl (h .u32)
  case h_8 => exact absurd rfl (h .u64)
  case h_9 => rfl

/-- The integers of 128 bits include the numbers of every type that is not wide. -/
theorem integer128?_eq_some_iff {cs : List Char} : integer128? cs = some n ↔
    IsInteger cs n ∧ -0x80000000000000000000000000000000 ≤ n ∧
      n < 0x80000000000000000000000000000000 := by
  unfold integer128?
  constructor
  · intro h
    obtain ⟨m, hm, hn⟩ := Option.bind_eq_some_iff.1 h
    split at hn
    case isTrue hrange =>
      obtain rfl := Option.some.inj hn
      exact ⟨Text.Decimal.integer?_eq_some_iff.1 hm, hrange⟩
    case isFalse => cases hn
  · rintro ⟨hn, hrange⟩
    refine Option.bind_eq_some_iff.2 ⟨n, Text.Decimal.integer?_eq_some_iff.2 hn, ?_⟩
    exact if_pos hrange

/-- The narrow types read their decimals through one signed reader. -/
theorem ofDecimal_of_narrow (ht : t.isWide = false) (text : String) :
    ofDecimal t.clType text = signedDecimal t.clType text := by
  cases t with
  | i32 | i64 | u8 | u32 | u64 => rfl
  | u128 | u256 | u512 => cases ht

/-- The narrow ranges lie within what the signed reader holds, so it cuts none of them. -/
theorem range_of_narrow (ht : t.isWide = false) (h : t.Holds n) :
    -0x80000000000000000000000000000000 ≤ n ∧ n < 0x80000000000000000000000000000000 := by
  have hbounds : -0x80000000000000000000000000000000 ≤ t.least ∧
      t.least + Wire.capacity t.size ≤ 0x80000000000000000000000000000000 := by
    cases t with
    | i32 | i64 | u8 | u32 | u64 => decide
    | u128 | u256 | u512 => cases ht
  exact ⟨Int.le_trans hbounds.1 h.1, Int.lt_of_lt_of_le h.2 hbounds.2⟩

section Wide

variable {clType : ClType} {size : Nat} {build : BigUInt size → Except ClValueError ClValue}

theorem wideDecimal_eq_wide {m : Nat} (hfold : fold? 10 0 text.toList = some m)
    (hlt : m < Wire.capacity size) :
    wideDecimal clType size build text = wide clType size build m := by
  simp [wideDecimal, wide, BigUInt.ofDecimal?, BigUInt.ofNat?, hfold, hlt]

theorem wideDecimal_eq_error
    (h : ∀ m, fold? 10 0 text.toList = some m → ¬m < Wire.capacity size) :
    wideDecimal clType size build text = .error (.range clType text) := by
  cases hfold : fold? 10 0 text.toList with
  | none => simp [wideDecimal, BigUInt.ofDecimal?, hfold]
  | some m => simp [wideDecimal, BigUInt.ofDecimal?, BigUInt.ofNat?, hfold, h m hfold]

end Wide

/-- A text makes the value that its integer makes. -/
theorem ofDecimal_eq_ofInteger (hspells : t.Spells text.toList n) (h : t.Holds n) :
    ofDecimal t.clType text = ofInteger t.clType n := by
  cases ht : t.isWide with
  | false =>
    have hinteger := (NumberType.spells_iff_of_narrow ht).1 hspells
    have hread : integer128? text.toList = some n :=
      integer128?_eq_some_iff.2 ⟨hinteger, range_of_narrow ht h⟩
    rw [ofDecimal_of_narrow ht, signedDecimal, hread]
  | true =>
    obtain ⟨m, hm, rfl⟩ := (NumberType.spells_iff_of_wide ht).1 hspells
    have hlt := ((NumberType.holds_unsigned (NumberType.isSigned_of_isWide ht)).1 h).2
    cases t with
    | i32 | i64 | u8 | u32 | u64 => cases ht
    | u128 | u256 | u512 => exact wideDecimal_eq_wide hm hlt

/-- A refused text is quoted, or else its integer is. -/
theorem ofDecimal_eq_error (h : ∀ n, t.Spells text.toList n → ¬t.Holds n) :
    ∃ value, ofDecimal t.clType text = .error (.range t.clType value) ∧
      (value = text ∨ ∃ n, IsInteger text.toList n ∧ value = integerText n) := by
  cases ht : t.isWide with
  | false =>
    rw [ofDecimal_of_narrow ht, signedDecimal]
    cases hread : integer128? text.toList with
    | none => exact ⟨text, rfl, .inl rfl⟩
    | some n =>
      have hinteger := (integer128?_eq_some_iff.1 hread).1
      exact ⟨integerText n, ofInteger_eq_error (h n (.integer ht hinteger)),
        .inr ⟨n, hinteger, rfl⟩⟩
  | true =>
    have hlarge : ∀ m, fold? 10 0 text.toList = some m → ¬m < Wire.capacity t.size := by
      intro m hm hlt
      refine h m ((NumberType.spells_iff_of_wide ht).2 ⟨m, hm, rfl⟩) ?_
      exact (NumberType.holds_unsigned (NumberType.isSigned_of_isWide ht)).2
        ⟨Int.natCast_nonneg m, hlt⟩
    refine ⟨text, ?_, .inl rfl⟩
    cases t with
    | i32 | i64 | u8 | u32 | u64 => cases ht
    | u128 | u256 | u512 => exact wideDecimal_eq_error hlarge

/-- A number given as its own text is the number given as an integer. -/
theorem ofDecimal_integerText (t : NumberType) (n : Int) :
    ofDecimal t.clType (integerText n) = ofInteger t.clType n := by
  have htext : (integerText n).toList = Text.Decimal.ofInt n := String.toList_ofList
  by_cases h : t.Holds n
  · exact ofDecimal_eq_ofInteger (htext ▸ t.spells_ofInt h) h
  · -- Whichever of the two is quoted, it is the text of the integer.
    have hinteger : IsInteger (integerText n).toList n :=
      htext ▸ Text.Decimal.isInteger_ofInt n
    have hspells : ∀ m, t.Spells (integerText n).toList m → ¬t.Holds m := by
      intro m hm
      rw [(hm.isInteger hinteger.ne_nil).unique hinteger]
      exact h
    obtain ⟨value, hvalue, hquoted⟩ := ofDecimal_eq_error hspells
    rw [hvalue, ofInteger_eq_error h]
    obtain rfl | ⟨m, hm, rfl⟩ := hquoted
    · rfl
    · rw [hm.unique hinteger]

/-- Which texts are accepted for which number, for every type. -/
theorem ofDecimal_eq_ok_iff : ofDecimal t.clType text = .ok v ↔
    ∃ n, t.Spells text.toList n ∧ t.Holds n ∧ v.IsNumber t n := by
  constructor
  · intro h
    by_cases hspells : ∃ n, t.Spells text.toList n ∧ t.Holds n
    · obtain ⟨n, hn, hholds⟩ := hspells
      rw [ofDecimal_eq_ofInteger hn hholds] at h
      exact ⟨n, hn, hholds, ofInteger_eq_ok_iff.1 h⟩
    · obtain ⟨value, hvalue, -⟩ := ofDecimal_eq_error fun n hn hholds ↦ hspells ⟨n, hn, hholds⟩
      rw [hvalue] at h
      cases h
  · rintro ⟨n, hn, hholds, hv⟩
    rw [ofDecimal_eq_ofInteger hn hholds]
    exact ofInteger_eq_ok_iff.2 hv

/-! ### Results -/

/-- An integer and its text make the same value of any type or are refused in the same way. They
make a value just if the type has numbers and holds this one, and the value reads back as it. -/
theorem ofInteger_exact (clType : ClType) (n : Int) :
    ofDecimal clType (integerText n) = ofInteger clType n ∧
      (∀ t : NumberType, t.clType = clType →
        (t.Holds n → ∃ v, ofInteger clType n = .ok v ∧ v.IsNumber t n) ∧
          (¬t.Holds n → ofInteger clType n = .error (.range clType (integerText n)))) ∧
      ((∀ t : NumberType, t.clType ≠ clType) →
        ofInteger clType n = .error (.notNumeric clType)) := by
  refine ⟨?_, ?_, ofInteger_eq_notNumeric⟩
  · by_cases h : ∃ t : NumberType, t.clType = clType
    · obtain ⟨t, rfl⟩ := h
      exact ofDecimal_integerText t n
    · have hnone : ∀ t : NumberType, t.clType ≠ clType := fun t ht ↦ h ⟨t, ht⟩
      rw [ofInteger_eq_notNumeric hnone, ofDecimal_eq_notNumeric hnone]
  · rintro t rfl
    refine ⟨fun h ↦ ?_, ofInteger_eq_error⟩
    obtain ⟨v, hv⟩ := exists_isNumber h
    exact ⟨v, ofInteger_eq_ok_iff.2 hv, hv⟩

/-- The greatest number of 64 bits, the next one, and a number for a type of texts. -/
theorem ofInteger_exact_edges :
    (∃ v, ofInteger (.leaf .u64) 18446744073709551615 = .ok v ∧
      v.IsNumber .u64 18446744073709551615) ∧
      ofInteger (.leaf .u64) 18446744073709551616 =
        .error (.range (.leaf .u64) (integerText 18446744073709551616)) ∧
      ofInteger (.leaf .string) 1 = .error (.notNumeric (.leaf .string)) := by
  refine ⟨?_, ?_, ?_⟩
  · exact ((ofInteger_exact (.leaf .u64) 18446744073709551615).2.1 .u64 rfl).1 (by decide)
  · exact ((ofInteger_exact (.leaf .u64) 18446744073709551616).2.1 .u64 rfl).2 (by decide)
  · refine (ofInteger_exact (.leaf .string) 1).2.2 fun t ↦ ?_
    cases t <;> exact nofun

/-- A text makes a value of a type of numbers just if it stands for a number that the type holds,
and the value reads back as that number; all other texts are out of range. The texts of a number are
its numerals with or without a sign, except that a wide type has none with a sign and takes the
empty text for zero. -/
theorem ofDecimal_exact (t : NumberType) (text : String) :
    (∀ v, ofDecimal t.clType text = .ok v ↔
      ∃ n, t.Spells text.toList n ∧ t.Holds n ∧ v.IsNumber t n) ∧
      (∀ n, t.Spells text.toList n → t.Holds n → ∃ v, ofDecimal t.clType text = .ok v) ∧
      ((∀ n, t.Spells text.toList n → ¬t.Holds n) →
        ∃ value, ofDecimal t.clType text = .error (.range t.clType value)) ∧
      ((t.isWide = true → text.toList.head? ∉ [none, some '+', some '-']) →
        ∀ n, t.Spells text.toList n ↔ IsInteger text.toList n) := by
  refine ⟨fun _ ↦ ofDecimal_eq_ok_iff, fun n hn hholds ↦ ?_, fun h ↦ ?_,
    fun hhead _ ↦ NumberType.spells_iff_isInteger hhead⟩
  · obtain ⟨v, hv⟩ := exists_isNumber hholds
    exact ⟨v, ofDecimal_eq_ok_iff.2 ⟨n, hn, hholds, hv⟩⟩
  · obtain ⟨value, hvalue, -⟩ := ofDecimal_eq_error h
    exact ⟨value, hvalue⟩

/-- A numeral with zeros in front, and a text that is none. -/
theorem ofDecimal_exact_zeros :
    (∃ v, ofDecimal (.leaf .u512) "0042" = .ok v) ∧
      ∃ value, ofDecimal (.leaf .u512) "4 2" = .error (.range (.leaf .u512) value) := by
  constructor
  · obtain ⟨-, hholds, -, hspells⟩ := ofDecimal_exact .u512 "0042"
    have hinteger : IsInteger "0042".toList 42 := Text.Decimal.integer?_eq_some_iff.1 rfl
    exact hholds 42 ((hspells (fun _ ↦ by decide) 42).2 hinteger) (by decide)
  · obtain ⟨-, -, hrefused, hspells⟩ := ofDecimal_exact .u512 "4 2"
    refine hrefused fun n hn _ ↦ ?_
    have hinteger := (hspells (fun _ ↦ by decide) n).1 hn
    exact nomatch Text.Decimal.integer?_eq_some_iff.2 hinteger

/-- The widest type takes the empty text for zero. -/
theorem not_forall_ofDecimal_iff_isInteger :
    ¬∀ (t : NumberType) (text : String), (∃ v, ofDecimal t.clType text = .ok v) ↔
      ∃ n, IsInteger text.toList n ∧ t.Holds n := by
  intro hall
  obtain ⟨n, hn, -⟩ := (hall .u512 "").1 ⟨_, rfl⟩
  exact hn.ne_nil rfl

end ClValue

end ChainClient
