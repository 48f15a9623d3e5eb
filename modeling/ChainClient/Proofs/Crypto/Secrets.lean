import ChainClient.Crypto.KeyPair
import ChainClient.Proofs.Crypto.BigEndian

/-!
# Loading a secret

A key pair keeps 32 secret bytes. An Ed25519 secret is loaded from 32 bytes and from no other
number of them, and they are kept as they are. A secp256k1 secret is loaded as a number of the
scalar range, so up to eight bytes may be missing in front and count as zeros. Hence the bytes that
are loaded and the bytes that are kept are the same as long as there are 32 of them.
-/

namespace ChainClient

namespace KeyPair

open Crypto (beValue)
open Crypto.Secp256k1 (order)

variable {algorithm : Algorithm} {bytes : Bytes} {pair : KeyPair}

/-- The bytes that are loaded. -/
def IsSecret : Algorithm → Bytes → Prop
  | .ed25519, bytes => bytes.length = 32
  | .secp256k1, bytes =>
    24 ≤ bytes.length ∧ bytes.length ≤ 32 ∧ 0 < beValue bytes ∧ beValue bytes < order

/-- Zeros in front of the bytes, up to 32 of them in all. -/
def padded (bytes : Bytes) : Bytes := List.replicate (32 - bytes.length) 0 ++ bytes

theorem padded_of_length (h : bytes.length = 32) : padded bytes = bytes := by
  rw [padded, h, Nat.sub_self, List.replicate_zero, List.nil_append]

theorem length_padded (h : bytes.length ≤ 32) : (padded bytes).length = 32 := by
  rw [padded, List.length_append, List.length_replicate, Nat.sub_add_cancel h]

/-- A secret is never longer than 32 bytes. -/
theorem IsSecret.length_le (h : IsSecret algorithm bytes) : bytes.length ≤ 32 := by
  cases algorithm with
  | ed25519 => exact Nat.le_of_eq h
  | secp256k1 => exact h.2.1

/-- Zeros in front do not make another secret of it. -/
theorem IsSecret.padded (h : IsSecret algorithm bytes) : IsSecret algorithm (padded bytes) := by
  have hlength := length_padded h.length_le
  cases algorithm with
  | ed25519 => exact hlength
  | secp256k1 =>
    obtain ⟨-, -, hpos, hlt⟩ := h
    have hvalue : beValue (KeyPair.padded bytes) = beValue bytes :=
      Crypto.beValue_zeros_append _ bytes
    exact ⟨by omega, by omega, hvalue ▸ hpos, hvalue ▸ hlt⟩

/-- Every secret makes a pair, which keeps the padded bytes. -/
theorem ofSecret_of_isSecret (h : IsSecret algorithm bytes) : ∃ pair : KeyPair,
    ofSecret algorithm bytes = .ok pair ∧ pair.algorithm = algorithm ∧
      pair.secret.toList = padded bytes := by
  cases algorithm with
  | ed25519 =>
    have hread : Octets.ofList? 32 bytes = some ⟨bytes, h⟩ := Octets.ofList?_eq_some_iff.2 rfl
    refine ⟨⟨.ed25519, bytes, h⟩, ?_, rfl, (padded_of_length h).symm⟩
    rw [ofSecret, hread]
  | secp256k1 =>
    have hread : Crypto.Secp256k1.secretOf? bytes = some (beValue bytes) := if_pos h
    refine ⟨⟨.secp256k1, .fit 32 (Crypto.beBytes 32 (beValue bytes))⟩, ?_, rfl, ?_⟩
    · rw [ofSecret, hread]
    · rw [Octets.toList_fit (Crypto.length_beBytes ..),
        Crypto.beBytes_beValue_of_le h.length_le, padded]

/-- Bytes that are no secret are refused under the name of the algorithm. -/
theorem ofSecret_of_not_isSecret (h : ¬IsSecret algorithm bytes) :
    ofSecret algorithm bytes = .error (.invalidSecretKey algorithm) := by
  cases algorithm with
  | ed25519 =>
    have hread : Octets.ofList? 32 bytes = none := dif_neg h
    rw [ofSecret, hread]
  | secp256k1 =>
    have hread : Crypto.Secp256k1.secretOf? bytes = none := if_neg h
    rw [ofSecret, hread]

theorem eq_of_toList_secret_eq {pair' : KeyPair} (halgorithm : pair.algorithm = pair'.algorithm)
    (hsecret : pair.secret.toList = pair'.secret.toList) : pair = pair' := by
  cases pair
  cases pair'
  cases halgorithm
  cases Octets.toList_inj.1 hsecret
  rfl

/-- The pairs that are made are those with the algorithm and the padded bytes of a secret. -/
theorem ofSecret_eq_ok_iff : ofSecret algorithm bytes = .ok pair ↔
    IsSecret algorithm bytes ∧ pair.algorithm = algorithm ∧ pair.secret.toList = padded bytes := by
  by_cases h : IsSecret algorithm bytes
  · obtain ⟨loaded, hload, halgorithm, hsecret⟩ := ofSecret_of_isSecret h
    rw [hload]
    constructor
    · rintro ⟨⟩
      exact ⟨h, halgorithm, hsecret⟩
    · rintro ⟨-, hpair, hpadded⟩
      exact congrArg Except.ok
        (eq_of_toList_secret_eq (halgorithm.trans hpair.symm) (hsecret.trans hpadded.symm))
  · rw [ofSecret_of_not_isSecret h]
    exact ⟨nofun, fun hpair ↦ absurd hpair.1 h⟩

/-- The bytes that a pair keeps load the pair again. -/
theorem ofSecret_toList_secret (h : ofSecret algorithm bytes = .ok pair) :
    ofSecret pair.algorithm pair.secret.toList = .ok pair := by
  obtain ⟨hsecret, rfl, hpadded⟩ := ofSecret_eq_ok_iff.1 h
  have hlength : (padded bytes).length = 32 := length_padded hsecret.length_le
  rw [ofSecret_eq_ok_iff, hpadded, padded_of_length hlength]
  exact ⟨hsecret.padded, rfl, rfl⟩

/-- The bytes are kept as they are just if nothing had to be padded. -/
theorem toList_secret_eq_iff (h : ofSecret algorithm bytes = .ok pair) :
    pair.secret.toList = bytes ↔ bytes.length = 32 := by
  rw [(ofSecret_eq_ok_iff.1 h).2.2]
  constructor
  · intro hbytes
    rw [← hbytes, length_padded (ofSecret_eq_ok_iff.1 h).1.length_le]
  · exact padded_of_length

/-- Bytes that are too few for a scalar beyond the range. -/
theorem beValue_lt_order (h : bytes.length < 32) : beValue bytes < order := by
  have hcapacity : ∀ length < 32, Wire.capacity length < order := by decide
  exact Nat.lt_trans (Crypto.beValue_lt bytes) (hcapacity bytes.length h)

/-- Where bytes are missing, no secret but a secp256k1 one is loaded. -/
theorem isSecret_iff_of_length_lt (h : bytes.length < 32) : IsSecret algorithm bytes ↔
    algorithm = .secp256k1 ∧ 24 ≤ bytes.length ∧ ∃ b ∈ bytes, b ≠ 0 := by
  cases algorithm with
  | ed25519 => exact ⟨fun hlength ↦ absurd hlength (Nat.ne_of_lt h), nofun⟩
  | secp256k1 =>
    rw [← Crypto.beValue_pos_iff]
    constructor
    · rintro ⟨hleast, -, hpos, -⟩
      exact ⟨rfl, hleast, hpos⟩
    · rintro ⟨-, hleast, hpos⟩
      exact ⟨hleast, Nat.le_of_lt h, hpos, beValue_lt_order h⟩

/-- Padding keeps bytes of one length apart. -/
theorem padded_inj {other : Bytes} (hlength : bytes.length = other.length) :
    padded bytes = padded other ↔ bytes = other := by
  rw [padded, padded, hlength]
  exact List.append_right_inj _

/-- Bytes are loaded just if they are a secret, into the pair that keeps them behind zeros, and the
pair is loaded again from what it keeps; anything else is an invalid secret of the algorithm. What
is kept is what was loaded just if there were 32 bytes, and no other bytes of that number make the
pair. Fewer bytes are no Ed25519 secret; they are a secp256k1 secret if they are at least 24 and
not all zero. -/
theorem secrets_exact (algorithm : Algorithm) (bytes : Bytes) :
    (∀ pair, ofSecret algorithm bytes = .ok pair ↔ IsSecret algorithm bytes ∧
      pair.algorithm = algorithm ∧ pair.secret.toList = padded bytes) ∧
    (IsSecret algorithm bytes → ∃ pair, ofSecret algorithm bytes = .ok pair) ∧
    (¬IsSecret algorithm bytes →
      ofSecret algorithm bytes = .error (.invalidSecretKey algorithm)) ∧
    (∀ pair, ofSecret algorithm bytes = .ok pair →
      ofSecret algorithm pair.secret.toList = .ok pair ∧
      (pair.secret.toList = bytes ↔ bytes.length = 32) ∧
      ∀ other : Bytes, other.length = bytes.length →
        ofSecret algorithm other = .ok pair → other = bytes) ∧
    (bytes.length < 32 → (IsSecret algorithm bytes ↔
      algorithm = .secp256k1 ∧ 24 ≤ bytes.length ∧ ∃ b ∈ bytes, b ≠ 0)) := by
  refine ⟨fun _ ↦ ofSecret_eq_ok_iff, fun h ↦ ?_, ofSecret_of_not_isSecret, fun pair h ↦ ?_,
    isSecret_iff_of_length_lt⟩
  · obtain ⟨pair, hload, -⟩ := ofSecret_of_isSecret h
    exact ⟨pair, hload⟩
  · obtain ⟨-, hpair, hsecret⟩ := ofSecret_eq_ok_iff.1 h
    have hreload := ofSecret_toList_secret h
    rw [hpair] at hreload
    refine ⟨hreload, toList_secret_eq_iff h, fun other hlength hother ↦ ?_⟩
    obtain ⟨-, -, hotherSecret⟩ := ofSecret_eq_ok_iff.1 hother
    exact (padded_inj hlength).1 (hotherSecret.symm.trans hsecret)

/-- Thirty-two bytes, and twenty-four that are taken for a number of that size. -/
theorem secrets_exact_short :
    (∃ pair, ofSecret .secp256k1 (List.replicate 32 1) = .ok pair ∧
      pair.secret.toList = List.replicate 32 1) ∧
    (∃ pair, ofSecret .secp256k1 (List.replicate 24 1) = .ok pair ∧
      pair.secret.toList ≠ List.replicate 24 1) ∧
    ofSecret .ed25519 (List.replicate 24 1) = .error (.invalidSecretKey .ed25519) := by
  refine ⟨?_, ?_, ?_⟩
  · obtain ⟨-, hloads, -, hkept, -⟩ := secrets_exact .secp256k1 (List.replicate 32 1)
    obtain ⟨pair, hpair⟩ := hloads (by unfold IsSecret; decide +kernel)
    exact ⟨pair, hpair, (hkept pair hpair).2.1.2 rfl⟩
  · obtain ⟨-, hloads, -, hkept, hshort⟩ := secrets_exact .secp256k1 (List.replicate 24 1)
    obtain ⟨pair, hpair⟩ := hloads ((hshort (by decide)).2 ⟨rfl, by decide, 1, by decide⟩)
    exact ⟨pair, hpair, fun hsecret ↦ absurd ((hkept pair hpair).2.1.1 hsecret) (by decide)⟩
  · obtain ⟨-, -, hrefused, -, hshort⟩ := secrets_exact .ed25519 (List.replicate 24 1)
    exact hrefused fun hsecret ↦ nomatch ((hshort (by decide)).1 hsecret).1

/-- Twenty-four bytes are loaded as a secp256k1 secret. -/
theorem not_forall_length_of_ofSecret :
    ¬∀ (algorithm : Algorithm) (bytes : Bytes) (pair : KeyPair),
      ofSecret algorithm bytes = .ok pair → bytes.length = 32 ∧ pair.secret.toList = bytes := by
  intro hall
  have hsecret : IsSecret .secp256k1 (List.replicate 24 1) :=
    (isSecret_iff_of_length_lt (by decide)).2 ⟨rfl, by decide, 1, by decide⟩
  obtain ⟨pair, hload, -⟩ := ofSecret_of_isSecret hsecret
  exact absurd (hall .secp256k1 (List.replicate 24 1) pair hload).1 (by decide)

end KeyPair

end ChainClient
