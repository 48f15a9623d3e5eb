import ChainClient.Address.AccountHash
import ChainClient.Approval
import ChainClient.Proofs.Wire.Container
import ChainClient.Time.Duration
import ChainClient.Time.Timestamp

/-!
# Forms of the parts of documents

Moments, digests, accounts and signatures are exact. A public key is read only if its bytes
pass a test, so its form is canonical but reads back just for the keys that pass. Which test
that is plays no part: the tag and the raw bytes determine the key under any of them, and the
test that all bytes pass shows that the form is unambiguous for every key there is.
-/

namespace ChainClient

/-! ## Moments -/

instance : Wire.Exact Timestamp := .via (fun _ ↦ rfl) fun _ ↦ rfl

instance : Wire.Exact Duration := .via (fun _ ↦ rfl) fun _ ↦ rfl

/-! ## Digests and accounts -/

namespace Digest

instance : Wire.Exact Digest := .via (fun _ ↦ rfl) fun _ ↦ rfl

instance : Wire.UniformlyEmpty Digest := .via

end Digest

instance : Wire.Exact DeployHash := .via (fun _ ↦ rfl) fun _ ↦ rfl

instance : Wire.UniformlyEmpty DeployHash := .via

instance : Wire.Exact TransactionHash := .via (fun _ ↦ rfl) fun _ ↦ rfl

instance : Wire.Exact AccountHash := .via (fun _ ↦ rfl) fun _ ↦ rfl

instance : Wire.UniformlyEmpty AccountHash := .via

/-! ## Algorithms -/

namespace Algorithm

theorem tag_of_ofTag? {tag : UInt8} {a : Algorithm} (h : ofTag? tag = some a) : a.tag = tag := by
  unfold ofTag? at h
  by_cases h1 : tag = 1
  · rw [if_pos h1] at h
    obtain rfl := Option.some.inj h
    exact h1.symm
  · rw [if_neg h1] at h
    by_cases h2 : tag = 2
    · rw [if_pos h2] at h
      obtain rfl := Option.some.inj h
      exact h2.symm
    · rw [if_neg h2] at h
      cases h

end Algorithm

/-! ## Public keys -/

namespace PublicKey

/-- The key is what its raw bytes are read as. -/
def IsAccepted (key : PublicKey) : Prop := ofRaw key.algorithm key.raw = .ok key

theorem length_raw (key : PublicKey) : key.raw.length = key.algorithm.publicKeyLength := by
  cases key with
  | ed25519 raw => exact raw.length_toList
  | secp256k1 raw => exact raw.length_toList

theorem ofLength?_raw (key : PublicKey) : ofLength? key.algorithm key.raw = some key := by
  cases key with
  | ed25519 raw => simp [ofLength?, algorithm, PublicKey.raw, Octets.ofList?_toList]
  | secp256k1 raw => simp [ofLength?, algorithm, PublicKey.raw, Octets.ofList?_toList]

/-- Bytes of the right length are kept as the key. -/
theorem ofLength?_eq_some {a : Algorithm} {bytes : Bytes} {key : PublicKey}
    (h : ofLength? a bytes = some key) : key.algorithm = a ∧ key.raw = bytes := by
  cases a with
  | ed25519 =>
    obtain ⟨x, hx, rfl⟩ := Option.map_eq_some_iff.1 h
    exact ⟨rfl, Octets.ofList?_eq_some_iff.1 hx⟩
  | secp256k1 =>
    obtain ⟨x, hx, rfl⟩ := Option.map_eq_some_iff.1 h
    exact ⟨rfl, Octets.ofList?_eq_some_iff.1 hx⟩

/-- A key is made of bytes just if it is valid, and it keeps them. -/
theorem ofRawWith_eq_ok {valid : Validity} {a : Algorithm} {bytes : Bytes} {key : PublicKey} :
    ofRawWith valid a bytes = .ok key ↔
      key.algorithm = a ∧ key.raw = bytes ∧ key.isValid valid = true := by
  unfold ofRawWith
  constructor
  · intro h
    cases hlen : ofLength? a bytes with
    | none => simp [hlen] at h
    | some key' =>
      simp only [hlen] at h
      by_cases hvalid : valid a bytes = true
      · rw [if_pos hvalid] at h
        obtain rfl := Except.ok.inj h
        obtain ⟨rfl, rfl⟩ := ofLength?_eq_some hlen
        exact ⟨rfl, rfl, hvalid⟩
      · rw [if_neg hvalid] at h
        cases h
  · rintro ⟨rfl, rfl, hvalid⟩
    rw [ofLength?_raw]
    exact if_pos hvalid

/-- A key is accepted if the curve has its point. -/
theorem isAccepted_iff (key : PublicKey) : key.IsAccepted ↔ key.isValid onCurve = true := by
  unfold IsAccepted ofRaw
  rw [ofRawWith_eq_ok]
  simp

/-- The reader under any test takes the tagged bytes of the keys that pass and no others. -/
theorem readWith_eq_ok {valid : Validity} {bytes rest : Bytes} {key : PublicKey} :
    readWith valid bytes = .ok (key, rest) ↔
      key.isValid valid = true ∧ bytes = key.tagged ++ rest := by
  constructor
  · intro h
    cases bytes with
    | nil => simp [readWith] at h
    | cons tag bytes =>
      rw [readWith] at h
      cases htag : Algorithm.ofTag? tag with
      | none => simp [htag] at h
      | some a =>
        rw [htag] at h
        obtain ⟨⟨raw, rest'⟩, hsplit, hkey⟩ := Wire.bind_eq_ok.1 h
        obtain ⟨-, rfl⟩ := Wire.split_eq_ok.1 hsplit
        dsimp only at hkey
        cases hraw : ofRawWith valid a raw with
        | error e =>
          rw [hraw] at hkey
          cases hkey
        | ok key' =>
          rw [hraw] at hkey
          obtain ⟨rfl, rfl⟩ := Prod.mk.inj (Except.ok.inj hkey)
          obtain ⟨rfl, rfl, hvalid⟩ := ofRawWith_eq_ok.1 hraw
          exact ⟨hvalid, by rw [tagged, Algorithm.tag_of_ofTag? htag]; rfl⟩
  · rintro ⟨hvalid, rfl⟩
    have hsplit : Wire.split key.algorithm.publicKeyLength (key.raw ++ rest) =
        .ok (key.raw, rest) := Wire.split_eq_ok.2 ⟨length_raw key, rfl⟩
    have hraw : ofRawWith valid key.algorithm key.raw = .ok key :=
      ofRawWith_eq_ok.2 ⟨rfl, rfl, hvalid⟩
    rw [tagged, List.cons_append, readWith, Algorithm.ofTag?_tag]
    simp only [hsplit, Wire.ok_bind, hraw]

instance : Wire.Canonical PublicKey where
  write_of_read {_ _ key} h := ⟨key.tagged, rfl, (readWith_eq_ok.1 h).2⟩

instance : Wire.Unambiguous PublicKey where
  eq_of_append_eq {x y front front' rest rest'} hx hy h := by
    obtain rfl := Except.ok.inj hx
    obtain rfl := Except.ok.inj hy
    have hreadX : readWith (fun _ _ ↦ true) (x.tagged ++ rest) = .ok (x, rest) :=
      readWith_eq_ok.2 ⟨rfl, rfl⟩
    have hreadY : readWith (fun _ _ ↦ true) (x.tagged ++ rest) = .ok (y, rest') :=
      readWith_eq_ok.2 ⟨rfl, h⟩
    rw [hreadX] at hreadY
    simpa using hreadY

instance : Wire.UniformlyEmpty PublicKey := .of_ne_nil fun _ h ↦ nomatch h

/-- Only accepted keys are read. -/
theorem isAccepted_of_read {key : PublicKey} {bytes rest : Bytes}
    (h : Wire.read bytes = .ok (key, rest)) : key.IsAccepted :=
  (isAccepted_iff key).2 (readWith_eq_ok.1 h).1

/-- An accepted key reads back from its tagged form. -/
theorem IsAccepted.readable {key : PublicKey} (h : key.IsAccepted) : Wire.Readable key := by
  intro bytes rest hw
  obtain rfl := Except.ok.inj hw
  exact readWith_eq_ok.2 ⟨(isAccepted_iff key).1 h, rfl⟩

/-- The written form of any other key is refused, whatever follows. -/
theorem toOption_read_of_not_isAccepted {key : PublicKey} (h : ¬key.IsAccepted) (rest : Bytes) :
    (Wire.read (key.tagged ++ rest) : Except WireError (PublicKey × Bytes)).toOption = none := by
  cases hread : (Wire.read (key.tagged ++ rest) : Except WireError (PublicKey × Bytes)) with
  | error e => rfl
  | ok found =>
    obtain ⟨other, rest'⟩ := found
    obtain ⟨hvalid, happend⟩ := readWith_eq_ok.1 hread
    obtain ⟨rfl, -⟩ := Wire.Unambiguous.eq_of_append_eq (x := key) (y := other) rfl rfl happend
    exact absurd ((isAccepted_iff key).2 hvalid) h

end PublicKey

/-! ## Signatures and approvals -/

namespace Signature

/-- The reader past its tag. -/
theorem read_cons (tag : UInt8) (bytes : Bytes) :
    (Wire.read (tag :: bytes) : Except WireError (Signature × Bytes)) =
      match Algorithm.ofTag? tag with
      | none => .error (.unknownTag .signature tag)
      | some a => do
        let (raw, rest) ← (Wire.read bytes : Except WireError (Octets 64 × Bytes))
        return (⟨a, raw⟩, rest) := rfl

instance : Wire.Exact Signature := .of_read_eq_ok fun {bytes rest x} ↦ by
  constructor
  · intro h
    cases bytes with
    | nil => cases h
    | cons tag bytes =>
      rw [read_cons] at h
      cases htag : Algorithm.ofTag? tag with
      | none =>
        rw [htag] at h
        cases h
      | some a =>
        rw [htag] at h
        obtain ⟨⟨raw, rest'⟩, hraw, hx⟩ := Wire.bind_eq_ok.1 h
        obtain ⟨rfl, rfl⟩ := Prod.mk.inj (Wire.pure_eq_ok.1 hx)
        obtain ⟨front, hfront, rfl⟩ := Wire.Canonical.write_of_read hraw
        obtain rfl := Except.ok.inj hfront
        exact ⟨_, rfl, by rw [tagged, Algorithm.tag_of_ofTag? htag]; rfl⟩
  · rintro ⟨front, hw, rfl⟩
    obtain rfl := Except.ok.inj hw
    have hraw : Wire.read (x.raw.toList ++ rest) = .ok (x.raw, rest) :=
      Wire.Lossless.readable x.raw x.raw.toList rest rfl
    rw [tagged, List.cons_append, read_cons, Algorithm.ofTag?_tag]
    exact Wire.bind_of_eq_ok hraw rfl

instance : Wire.UniformlyEmpty Signature := .of_ne_nil fun _ h ↦ nomatch h

end Signature

namespace Approval

/-- An approval reads back if the key of its signer is accepted. -/
theorem readable {a : Approval} (h : a.signer.IsAccepted) : Wire.Readable a := by
  unfold instWire
  exact .via rfl (.pair h.readable (Wire.Lossless.readable a.signature))

instance : Wire.Canonical Approval := by
  unfold instWire
  exact .via fun _ ↦ rfl

instance : Wire.UniformlyEmpty Approval := by
  unfold instWire
  exact .via

end Approval

end ChainClient
