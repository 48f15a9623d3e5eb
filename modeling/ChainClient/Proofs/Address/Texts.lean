import ChainClient.Address.Key
import ChainClient.Proofs.Address.Forms
import ChainClient.Proofs.Text.Hex
import ChainClient.Proofs.Text.Numeral

/-!
# The texts of accounts, references and keys

A text begins with a label, and no two labels begin alike, so what follows the label is read in
one way only. The digits of an address may be in either case. The rights at the end of a reference
and the number of an era are numerals of any length, and the reader also takes a plus sign in front
of them, which no writer puts there.
-/

namespace ChainClient

open Text (stripLabel?_append stripLabel?_eq_some_iff)
open Text.Decimal (IsNumeral IsPlus natural? natural?_eq_some_iff)
open Wire (bind_eq_ok mapError_eq_ok pure_eq_ok)

variable {cs digits : List Char}

/-! ## Addresses -/

namespace Address

/-- The text is the 64 hexadecimal digits of the address, each in either case. -/
structure Spells (digits : List Char) (octets : Octets 32) : Prop where
  isDigit : ∀ c ∈ digits, Text.Hex.isDigit c = true
  lower : digits.map Char.toLower = Text.Hex.encode octets.toList

/-- An address has no sign, so a plus sign in a text comes from a number. -/
theorem Spells.not_mem {octets : Octets 32} (h : Spells digits octets) : '+' ∉ digits :=
  fun hmem ↦ absurd (h.isDigit '+' hmem) (by decide)

/-- The reader of addresses takes the spellings of an address and no other text. -/
theorem ofHex_eq_ok_iff {octets : Octets 32} :
    ofHex digits = .ok octets ↔ Spells digits octets := by
  rw [ofHex, bind_eq_ok]
  simp only [mapError_eq_ok, Text.Hex.decode_eq_ok_iff]
  constructor
  · rintro ⟨bytes, hbytes, h⟩
    split at h
    case h_1 octets' hoctets =>
      obtain rfl := Except.ok.inj h
      rw [← Octets.ofList?_eq_some_iff.1 hoctets] at hbytes
      exact ⟨hbytes.isDigit, hbytes⟩
    case h_2 => cases h
  · intro h
    exact ⟨octets.toList, h.lower, by rw [Octets.ofList?_toList]⟩

theorem spells_encode (octets : Octets 32) :
    Spells (Text.Hex.encode octets.toList) octets := by
  have hspells := Text.Hex.decode_eq_ok_iff.1 (Text.Hex.decode_encode octets.toList)
  exact ⟨hspells.isDigit, hspells⟩

end Address

/-! ## Accounts -/

theorem AccountHash.ofChars_eq_ok_iff {account : AccountHash} : ofChars cs = .ok account ↔
    ∃ digits, cs = label ++ digits ∧ Address.Spells digits account.bytes := by
  unfold ofChars
  constructor
  · intro h
    split at h
    case h_1 digits hdigits =>
      obtain ⟨octets, hoctets, haccount⟩ := bind_eq_ok.1 h
      obtain rfl := pure_eq_ok.1 haccount
      exact ⟨digits, stripLabel?_eq_some_iff.1 hdigits, Address.ofHex_eq_ok_iff.1 hoctets⟩
    case h_2 => cases h
  · rintro ⟨digits, rfl, hdigits⟩
    rw [stripLabel?_append]
    exact bind_eq_ok.2 ⟨account.bytes, Address.ofHex_eq_ok_iff.2 hdigits, rfl⟩

/-! ## References -/

theorem AccessRights.toNat_bits_lt (rights : AccessRights) : rights.bits.toNat < 8 :=
  Nat.lt_succ_of_le (UInt8.le_iff_toNat_le.1 rights.bits_le)

namespace URef

theorem splitLast?_eq_none_iff {separator : Char} :
    splitLast? separator cs = none ↔ separator ∉ cs := by
  induction cs with
  | nil => simp [splitLast?]
  | cons c cs ih =>
    cases hsplit : splitLast? separator cs with
    | none =>
      have hnot := ih.1 hsplit
      by_cases hc : c = separator
      · simp [splitLast?, hsplit, hc]
      · simp [splitLast?, hsplit, hc, hnot, Ne.symm hc]
    | some parts =>
      have hmem : separator ∈ cs := by
        apply Decidable.of_not_not
        intro hnot
        rw [ih.2 hnot] at hsplit
        cases hsplit
      simp [splitLast?, hsplit, hmem]

/-- The text is cut at the last separator, so there is none behind it. -/
theorem splitLast?_eq_some_iff {separator : Char} {front back : List Char} :
    splitLast? separator cs = some (front, back) ↔
      cs = front ++ separator :: back ∧ separator ∉ back := by
  constructor
  · intro h
    induction cs generalizing front with
    | nil => cases h
    | cons c cs ih =>
      unfold splitLast? at h
      cases hsplit : splitLast? separator cs with
      | some parts =>
        simp only [hsplit, Option.some.injEq, Prod.mk.injEq] at h
        obtain ⟨rfl, rfl⟩ := h
        obtain ⟨hcs, hnot⟩ := ih hsplit
        exact ⟨congrArg (List.cons c) hcs, hnot⟩
      | none =>
        simp only [hsplit, Option.ite_none_right_eq_some, Option.some.injEq, Prod.mk.injEq] at h
        obtain ⟨rfl, rfl, rfl⟩ := h
        exact ⟨rfl, splitLast?_eq_none_iff.1 hsplit⟩
  · rintro ⟨rfl, hnot⟩
    induction front with
    | nil =>
      rw [List.nil_append, splitLast?, splitLast?_eq_none_iff.2 hnot]
      exact if_pos rfl
    | cons c front ih => rw [List.cons_append, splitLast?, ih]

/-- Rights are read as an octal number, whose zeros and sign are not counted. -/
theorem rightsOf?_eq_some_iff {rights : AccessRights} :
    rightsOf? cs = some rights ↔ natural? 8 cs = some rights.bits.toNat := by
  unfold rightsOf?
  constructor
  · intro h
    obtain ⟨n, hn, hrights⟩ := Option.bind_eq_some_iff.1 h
    split at hrights
    case isTrue hlt =>
      have hvalue : (UInt8.ofNat n).toNat = n :=
        UInt8.toNat_ofNat_of_lt' (Nat.lt_trans hlt (by decide))
      rw [← AccessRights.ofBits?_eq_some.1 hrights, hvalue, hn]
    case isFalse => cases hrights
  · intro h
    refine Option.bind_eq_some_iff.2 ⟨_, h, ?_⟩
    rw [if_pos rights.toNat_bits_lt, UInt8.ofNat_toNat]
    exact AccessRights.ofBits?_eq_some.2 rfl

/-- Behind the label come the digits of the address, a separator and the rights. -/
theorem ofChars_eq_ok_iff {reference : URef} : ofChars cs = .ok reference ↔
    ∃ digits sign rights, IsPlus sign ∧ cs = label ++ (digits ++ '-' :: (sign ++ rights)) ∧
      Address.Spells digits reference.address ∧
        IsNumeral 8 rights reference.rights.bits.toNat := by
  unfold ofChars
  constructor
  · intro h
    split at h
    case h_1 => cases h
    case h_2 body hbody =>
      split at h
      case h_1 => cases h
      case h_2 digits suffix hsplit =>
        split at h
        case h_1 => cases h
        case h_2 rights hrights =>
          obtain ⟨octets, hoctets, hreference⟩ := bind_eq_ok.1 h
          obtain rfl := pure_eq_ok.1 hreference
          obtain rfl := (splitLast?_eq_some_iff.1 hsplit).1
          obtain ⟨sign, numeral, hsign, rfl, hnumeral⟩ :=
            natural?_eq_some_iff.1 (rightsOf?_eq_some_iff.1 hrights)
          exact ⟨digits, sign, numeral, hsign, stripLabel?_eq_some_iff.1 hbody,
            Address.ofHex_eq_ok_iff.1 hoctets, hnumeral⟩
  · rintro ⟨digits, sign, rights, hsign, rfl, hdigits, hrights⟩
    -- The last separator is the one in front of the rights, as neither they nor a sign has one.
    have hnot : '-' ∉ sign ++ rights := by
      rw [List.mem_append]
      rintro (hmem | hmem)
      · cases hsign <;> simp at hmem
      · exact hrights.not_mem (by decide) hmem
    have hsplit : splitLast? '-' (digits ++ '-' :: (sign ++ rights)) =
        some (digits, sign ++ rights) := splitLast?_eq_some_iff.2 ⟨rfl, hnot⟩
    have hread : rightsOf? (sign ++ rights) = some reference.rights :=
      rightsOf?_eq_some_iff.2 (natural?_eq_some_iff.2 ⟨sign, rights, hsign, rfl, hrights⟩)
    rw [stripLabel?_append]
    simp only [hsplit, hread]
    exact bind_eq_ok.2 ⟨reference.address, Address.ofHex_eq_ok_iff.2 hdigits, rfl⟩

/-- Rights are written with three octal digits, of which only the last one can be more than zero. -/
theorem isNumeral_rights (rights : AccessRights) :
    IsNumeral 8 ['0', '0', Text.Decimal.digit rights.bits.toNat] rights.bits.toNat := by
  have hread : ∀ n < 8, Text.Decimal.numeral? 8 ['0', '0', Text.Decimal.digit n] = some n := by
    decide
  exact Text.Decimal.numeral?_eq_some_iff_isNumeral.1 (hread _ rights.toNat_bits_lt)

end URef

/-! ## Keys -/

namespace Key

theorem eraOf?_eq_some_iff {number : UInt64} :
    eraOf? cs = some number ↔ natural? 10 cs = some number.toNat := by
  unfold eraOf?
  constructor
  · intro h
    obtain ⟨n, hn, hnumber⟩ := Option.bind_eq_some_iff.1 h
    split at hnumber
    case isTrue hlt =>
      obtain rfl := Option.some.inj hnumber
      rw [UInt64.toNat_ofNat_of_lt' hlt, hn]
    case isFalse => cases hnumber
  · intro h
    refine Option.bind_eq_some_iff.2 ⟨_, h, ?_⟩
    rw [if_pos number.toNat_lt, UInt64.ofNat_toNat]

/-- The kind that is found is the one whose label the text starts with. -/
theorem eq_label_append_of_labelled? {kind : AddressKind}
    (h : labelled? cs = some (kind, digits)) : cs = kind.label ++ digits := by
  obtain ⟨kind', -, hkind⟩ := List.exists_of_findSome?_eq_some h
  obtain ⟨rest, hrest, heq⟩ := Option.map_eq_some_iff.1 hkind
  obtain ⟨rfl, rfl⟩ := Prod.mk.inj heq
  exact stripLabel?_eq_some_iff.1 hrest

/-! ### One label, one kind

No label is the beginning of another one, so the order in which they are tried does not matter. -/

theorem ofChars_label (kind : AddressKind) (digits : List Char) :
    ofChars (kind.label ++ digits) = (do return .address kind (← Address.ofHex digits)) := by
  cases kind <;> rfl

theorem ofChars_urefLabel (body : List Char) : ofChars (URef.label ++ body) =
    (do return .uref (← URef.ofChars (URef.label ++ body))) := rfl

theorem ofChars_eraLabel (digits : List Char) : ofChars (eraLabel ++ digits) =
    match eraOf? digits with
    | some number => .ok (.era number)
    | none => .error .era := rfl

/-- The texts of keys, with the sign in front of the rights of a reference and the number of an
era. -/
inductive Spells (sign : List Char) : List Char → Key → Prop
  | address {kind : AddressKind} {digits : List Char} {octets : Octets 32}
      (h : Address.Spells digits octets) : Spells sign (kind.label ++ digits) (.address kind octets)
  | uref {digits rights : List Char} {reference : URef}
      (haddress : Address.Spells digits reference.address)
      (hrights : IsNumeral 8 rights reference.rights.bits.toNat) :
      Spells sign (URef.label ++ (digits ++ '-' :: (sign ++ rights))) (.uref reference)
  | era {digits : List Char} {number : UInt64} (h : IsNumeral 10 digits number.toNat) :
      Spells sign (eraLabel ++ (sign ++ digits)) (.era number)

variable {key key' : Key} {sign : List Char}

/-- Every spelling is read, with or without the sign. -/
theorem ofChars_of_spells (hsign : IsPlus sign) (h : Spells sign cs key) :
    ofChars cs = .ok key := by
  cases h with
  | @address kind digits octets h =>
    rw [ofChars_label]
    exact bind_eq_ok.2 ⟨octets, Address.ofHex_eq_ok_iff.2 h, rfl⟩
  | @uref digits rights reference haddress hrights =>
    rw [ofChars_urefLabel]
    exact bind_eq_ok.2 ⟨reference,
      URef.ofChars_eq_ok_iff.2 ⟨digits, sign, rights, hsign, rfl, haddress, hrights⟩, rfl⟩
  | @era digits number h =>
    have hread : eraOf? (sign ++ digits) = some number :=
      eraOf?_eq_some_iff.2 (natural?_eq_some_iff.2 ⟨sign, digits, hsign, rfl, h⟩)
    rw [ofChars_eraLabel, hread]

/-- No text but a spelling is read: each branch of the reader leaves one behind. -/
theorem exists_spells_of_ofChars (h : ofChars cs = .ok key) :
    ∃ sign, IsPlus sign ∧ Spells sign cs key := by
  unfold ofChars at h
  split at h
  case isTrue =>
    obtain ⟨reference, hreference, hkey⟩ := bind_eq_ok.1 h
    obtain rfl := pure_eq_ok.1 hkey
    obtain ⟨digits, sign, rights, hsign, rfl, hdigits, hrights⟩ :=
      URef.ofChars_eq_ok_iff.1 hreference
    exact ⟨sign, hsign, .uref hdigits hrights⟩
  case isFalse =>
    split at h
    case h_1 digits hdigits =>
      split at h
      case h_1 number hnumber =>
        obtain rfl := Except.ok.inj h
        obtain rfl := stripLabel?_eq_some_iff.1 hdigits
        obtain ⟨sign, numeral, hsign, rfl, hnumeral⟩ :=
          natural?_eq_some_iff.1 (eraOf?_eq_some_iff.1 hnumber)
        exact ⟨sign, hsign, .era hnumeral⟩
      case h_2 => cases h
    case h_2 =>
      split at h
      case h_1 kind digits hdigits =>
        obtain ⟨octets, hoctets, hkey⟩ := bind_eq_ok.1 h
        obtain rfl := pure_eq_ok.1 hkey
        obtain rfl := eq_label_append_of_labelled? hdigits
        exact ⟨[], .absent, .address (Address.ofHex_eq_ok_iff.1 hoctets)⟩
      case h_2 => cases h

/-- The texts of a key are its spellings, where a number may have a plus sign. -/
theorem ofChars_eq_ok_iff :
    ofChars cs = .ok key ↔ ∃ sign, IsPlus sign ∧ Spells sign cs key :=
  ⟨exists_spells_of_ofChars, fun ⟨_, hsign, h⟩ ↦ ofChars_of_spells hsign h⟩

/-- No sign stands anywhere but in front of a number. -/
theorem Spells.not_mem (h : Spells [] cs key) : '+' ∉ cs := by
  cases h with
  | @address kind digits octets h =>
    have hlabel : '+' ∉ kind.label := by
      cases kind <;> decide
    rw [List.mem_append, not_or]
    exact ⟨hlabel, h.not_mem⟩
  | uref haddress hrights =>
    rw [List.nil_append, List.mem_append, not_or, List.mem_append, not_or, List.mem_cons, not_or]
    exact ⟨by decide, haddress.not_mem, by decide, hrights.not_mem (by decide)⟩
  | era h =>
    rw [List.nil_append, List.mem_append, not_or]
    exact ⟨by decide, h.not_mem (by decide)⟩

/-- A spelling without a plus sign in it is one with no sign at all. -/
theorem Spells.of_not_mem (hsign : IsPlus sign) (h : Spells sign cs key) (hnot : '+' ∉ cs) :
    Spells [] cs key := by
  cases hsign with
  | absent => exact h
  | plus =>
    cases h with
    | address h => exact .address h
    | uref => simp at hnot
    | era => simp at hnot

/-- The spellings without a sign are the texts that are read and have no plus sign. -/
theorem spells_nil_iff : Spells [] cs key ↔ ofChars cs = .ok key ∧ '+' ∉ cs := by
  constructor
  · intro h
    exact ⟨ofChars_of_spells .absent h, h.not_mem⟩
  · rintro ⟨h, hnot⟩
    obtain ⟨sign, hsign, hspells⟩ := exists_spells_of_ofChars h
    exact hspells.of_not_mem hsign hnot

/-- No writer puts a sign. -/
theorem spells_chars (key : Key) : Spells [] key.chars key := by
  cases key with
  | address kind octets => exact .address (Address.spells_encode octets)
  | uref reference =>
    have hchars : reference.chars = URef.label ++ (Text.Hex.encode reference.address.toList ++
        '-' :: ([] ++ ['0', '0', Text.Decimal.digit reference.rights.bits.toNat])) :=
      List.append_assoc ..
    rw [chars, hchars]
    exact .uref (Address.spells_encode _) (URef.isNumeral_rights _)
  | era number => exact .era (Text.Decimal.isNumeral_ofNat _)

theorem ofText_text (key : Key) : ofText key.text = .ok key := by
  rw [ofText, text, String.toList_ofList]
  exact ofChars_of_spells .absent (spells_chars key)

theorem text_inj : key.text = key'.text ↔ key = key' := by
  refine ⟨fun h ↦ ?_, congrArg text⟩
  have hread := (ofText_text key).symm.trans ((congrArg ofText h).trans (ofText_text key'))
  exact Except.ok.inj hread

/-! ### One reader of an account and of a reference -/

/-- An account as a key is read from the texts of the account hash. -/
theorem ofChars_eq_ok_ofAccount_iff {account : AccountHash} :
    ofChars cs = .ok (.ofAccount account) ↔ AccountHash.ofChars cs = .ok account := by
  rw [AccountHash.ofChars_eq_ok_iff, ofChars_eq_ok_iff]
  constructor
  · rintro ⟨sign, -, h⟩
    cases h with
    | address h => exact ⟨_, rfl, h⟩
  · rintro ⟨digits, rfl, h⟩
    have hspells : Spells [] (AddressKind.account.label ++ digits) (.ofAccount account) :=
      .address h
    exact ⟨[], .absent, hspells⟩

/-- A reference as a key is read from the texts of the reference. -/
theorem ofChars_eq_ok_uref_iff {reference : URef} :
    ofChars cs = .ok (.uref reference) ↔ URef.ofChars cs = .ok reference := by
  rw [URef.ofChars_eq_ok_iff, ofChars_eq_ok_iff]
  constructor
  · rintro ⟨sign, hsign, h⟩
    cases h with
    | uref haddress hrights => exact ⟨_, sign, _, hsign, rfl, haddress, hrights⟩
  · rintro ⟨digits, sign, rights, hsign, rfl, haddress, hrights⟩
    exact ⟨sign, hsign, .uref haddress hrights⟩

/-- What is written of a key is read as the key and of no other key, and a text is read as an
account or a reference of its own just if it is read as the key of that account or reference. -/
theorem texts_exact :
    (∀ key : Key, ofText key.text = .ok key) ∧
      (∀ (s : String) (account : AccountHash),
        AccountHash.ofText s = .ok account ↔ ofText s = .ok (.ofAccount account)) ∧
      (∀ (s : String) (reference : URef),
        URef.ofText s = .ok reference ↔ ofText s = .ok (.uref reference)) ∧
      ∀ key key' : Key, key.text = key'.text ↔ key = key' :=
  ⟨ofText_text, fun _ _ ↦ ofChars_eq_ok_ofAccount_iff.symm,
    fun _ _ ↦ ofChars_eq_ok_uref_iff.symm, fun _ _ ↦ text_inj⟩

/-! ### The grammar -/

/-- The texts that are read as a key are its spellings, in which the rights of a reference and the
number of an era may have a plus sign; those without a plus sign are the spellings without a
sign. -/
theorem reads_exactly_the_spellings (s : String) (key : Key) :
    (ofText s = .ok key ↔ ∃ sign, IsPlus sign ∧ Spells sign s.toList key) ∧
      (Spells [] s.toList key ↔ ofText s = .ok key ∧ '+' ∉ s.toList) :=
  ⟨ofChars_eq_ok_iff, spells_nil_iff⟩

/-- An era is read from a text in which its number has a plus sign. -/
theorem not_forall_spells_of_ofText :
    ¬∀ (s : String) (key : Key), ofText s = .ok key → Spells [] s.toList key := by
  intro hall
  have hread : ofText "era-+5" = .ok (.era 5) := rfl
  exact (hall "era-+5" (.era 5) hread).not_mem (by decide)

end Key

end ChainClient
