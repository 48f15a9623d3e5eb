import ChainClient.Proofs.Text.Digits

/-!
# Hexadecimal digits in either case

Bytes are written in lower case and read in either case. A text is read as some bytes just if its
lower case is what is written of them, so it has two digits for each byte and nothing else.
-/

namespace ChainClient.Text.Hex

variable {c : Char} {cs : List Char} {b : UInt8} {bytes : List UInt8} {d position : Nat}

/-- The text is the digits of the bytes, in either case. -/
def Spells (cs : List Char) (bytes : List UInt8) : Prop := cs.map Char.toLower = encode bytes

/-- A digit in either case. -/
def isDigit (c : Char) : Bool :=
  ('0' ≤ c && c ≤ '9') || ('a' ≤ c && c ≤ 'f') || ('A' ≤ c && c ≤ 'F')

theorem isDigit_iff : isDigit c = true ↔ (48 ≤ c.toNat ∧ c.toNat ≤ 57) ∨
    (97 ≤ c.toNat ∧ c.toNat ≤ 102) ∨ (65 ≤ c.toNat ∧ c.toNat ≤ 70) := by
  unfold isDigit
  simp only [Bool.or_eq_true, Bool.and_eq_true, decide_eq_true_eq, or_assoc]
  exact Iff.rfl

/-! ## Lower case -/

theorem toNat_toLower (c : Char) :
    c.toLower.toNat = if 65 ≤ c.toNat ∧ c.toNat ≤ 90 then c.toNat + 32 else c.toNat := by
  have hrange : (c.val ≥ 'A'.val ∧ c.val ≤ 'Z'.val) ↔ 65 ≤ c.toNat ∧ c.toNat ≤ 90 := Iff.rfl
  unfold Char.toLower
  by_cases h : 65 ≤ c.toNat ∧ c.toNat ≤ 90
  · have hsum : (c.val + ('a'.val - 'A'.val)).toNat = c.toNat + 32 := by
      have htoNat : c.val.toNat = c.toNat := rfl
      have hshift : ('a'.val - 'A'.val).toNat = 32 := rfl
      rw [UInt32.toNat_add, hshift, htoNat]
      omega
    rw [dif_pos (hrange.2 h), if_pos h]
    exact hsum
  · rw [dif_neg (mt hrange.1 h), if_neg h]

theorem utf8Size_of_lt (h : c.toNat < 128) : c.utf8Size = 1 :=
  Char.utf8Size_eq_one_iff.2 (UInt32.le_iff_toNat_le.2 (Nat.le_of_lt_succ h))

theorem utf8Size_toLower (c : Char) : c.toLower.utf8Size = c.utf8Size := by
  have hlower := toNat_toLower c
  split at hlower
  · rw [utf8Size_of_lt (by omega), utf8Size_of_lt (by omega)]
  · rw [Char.toNat_inj.1 hlower]

/-- Lower case takes the same number of bytes, so a length found in one case holds in the other. -/
theorem utf8Length_map_toLower (cs : List Char) :
    utf8Length (cs.map Char.toLower) = utf8Length cs := by
  induction cs with
  | nil => rfl
  | cons c cs ih => rw [List.map_cons, utf8Length, utf8Length, ih, utf8Size_toLower]

/-! ## Digits -/

theorem toNat_digit (h : d < 16) : (digit d).toNat = if d < 10 then 48 + d else 87 + d := by
  revert d
  decide

/-- A character is read as what its lower case is written for. -/
theorem digitValue?_eq_some_iff : digitValue? c = some d ↔ d < 16 ∧ c.toLower = digit d := by
  have hdecimal : ('0' ≤ c ∧ c ≤ '9') ↔ 48 ≤ c.toNat ∧ c.toNat ≤ 57 := Iff.rfl
  have hlow : ('a' ≤ c ∧ c ≤ 'f') ↔ 97 ≤ c.toNat ∧ c.toNat ≤ 102 := Iff.rfl
  have hhigh : ('A' ≤ c ∧ c ≤ 'F') ↔ 65 ≤ c.toNat ∧ c.toNat ≤ 70 := Iff.rfl
  have hlower := toNat_toLower c
  simp only [digitValue?, hdecimal, hlow, hhigh]
  constructor
  · intro h
    have hd : d < 16 := by grind
    refine ⟨hd, Char.toNat_inj.1 ?_⟩
    rw [toNat_digit hd]
    grind
  · rintro ⟨hd, heq⟩
    rw [heq, toNat_digit hd] at hlower
    grind

theorem isDigit_of_digitValue? (h : digitValue? c = some d) : isDigit c = true := by
  obtain ⟨hd, heq⟩ := digitValue?_eq_some_iff.1 h
  have hlower := toNat_toLower c
  rw [heq, toNat_digit hd] at hlower
  rw [isDigit_iff]
  grind

/-! ## Spellings -/

theorem spells_nil : Spells [] bytes ↔ bytes = [] := by
  cases bytes <;> simp [Spells, encode, ofByte]

/-- A byte is spelled by two digits, the first one for its upper half. -/
theorem spells_cons_cons {c' : Char} : Spells (c :: c' :: cs) (b :: bytes) ↔
    digitValue? c = some (b.toNat / 16) ∧ digitValue? c' = some (b.toNat % 16) ∧
      Spells cs bytes := by
  obtain ⟨hhigh, hlow⟩ := digits_lt b
  have hencode : encode (b :: bytes) =
      digit (b.toNat / 16) :: digit (b.toNat % 16) :: encode bytes := rfl
  simp only [Spells, hencode, List.map_cons, List.cons.injEq, digitValue?_eq_some_iff, hhigh, hlow,
    true_and]

theorem Spells.exists_cons (h : Spells cs (b :: bytes)) :
    ∃ c c' rest, cs = c :: c' :: rest := by
  match cs with
  | [] => exact nomatch spells_nil.1 h
  | [c] => simp [Spells, encode, ofByte] at h
  | c :: c' :: rest => exact ⟨c, c', rest, rfl⟩

/-- Only hexadecimal digits occur in a spelling. -/
theorem Spells.isDigit (h : Spells cs bytes) : ∀ c ∈ cs, isDigit c = true := by
  induction bytes generalizing cs with
  | nil =>
    obtain rfl := List.map_eq_nil_iff.1 h
    exact List.forall_mem_nil _
  | cons b bytes ih =>
    obtain ⟨c, c', rest, rfl⟩ := h.exists_cons
    obtain ⟨hc, hc', hrest⟩ := spells_cons_cons.1 h
    exact List.forall_mem_cons.2 ⟨isDigit_of_digitValue? hc,
      List.forall_mem_cons.2 ⟨isDigit_of_digitValue? hc', ih hrest⟩⟩

/-! ## Reading -/

/-- Every spelling is read, wherever the count of positions starts. -/
theorem pairs_of_spells (h : Spells cs bytes) : pairs position cs = .ok bytes := by
  induction bytes generalizing cs position with
  | nil =>
    obtain rfl := List.map_eq_nil_iff.1 h
    rfl
  | cons b bytes ih =>
    obtain ⟨c, c', rest, rfl⟩ := h.exists_cons
    obtain ⟨hc, hc', hrest⟩ := spells_cons_cons.1 h
    have hbyte : 16 * (b.toNat / 16) + b.toNat % 16 = b.toNat := Nat.div_add_mod b.toNat 16
    simp only [pairs, hc, hc', ih hrest, Wire.ok_bind, hbyte, UInt8.ofNat_toNat]
    rfl

/-- Only spellings are read. -/
theorem spells_of_pairs (h : pairs position cs = .ok bytes) : Spells cs bytes := by
  fun_induction pairs position cs generalizing bytes with
  | case1 =>
    obtain rfl := Except.ok.inj h
    rfl
  | case2 => cases h
  | case3 => cases h
  | case4 => cases h
  | case5 position c c' rest high low hlow hhigh ih =>
    obtain ⟨tail, htail, hbytes⟩ := Wire.bind_eq_ok.1 h
    obtain rfl := Wire.pure_eq_ok.1 hbytes
    have hlow16 := (digitValue?_eq_some_iff.1 hlow).1
    have hhigh16 := (digitValue?_eq_some_iff.1 hhigh).1
    have hbyte : (UInt8.ofNat (16 * high + low)).toNat = 16 * high + low :=
      UInt8.toNat_ofNat_of_lt' (by change _ < 256; omega)
    refine spells_cons_cons.2 ⟨?_, ?_, ih htail⟩
    · rw [hhigh, hbyte]
      exact congrArg some (by omega)
    · rw [hlow, hbyte]
      exact congrArg some (by omega)

/-- The texts that are read as the bytes are the spellings of them. -/
theorem decode_eq_ok_iff : decode cs = .ok bytes ↔ Spells cs bytes := by
  unfold decode
  constructor
  · intro h
    split at h
    · cases h
    · exact spells_of_pairs h
  · intro h
    have heven : ¬utf8Length cs % 2 = 1 := by
      rw [← utf8Length_map_toLower, h, utf8Length_encode]
      omega
    rw [if_neg heven, pairs_of_spells h]

end ChainClient.Text.Hex
