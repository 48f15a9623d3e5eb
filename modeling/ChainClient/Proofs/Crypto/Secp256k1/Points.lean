import ChainClient.Address.AccountHash
import ChainClient.Crypto.Suite
import ChainClient.Proofs.Crypto.BigEndian
import ChainClient.Proofs.Crypto.Secp256k1.Field
import ChainClient.Proofs.Document.Parts

/-!
# Points and their keys

A point of secp256k1 is written in compressed form, as the parity of its `y` and its `x`. The reader
of points also takes a compact form, whose first byte only says that the `y` is even. So a point
with an even `y` has two keys, which verify the same signatures, although the account of a key is
named after its bytes. Every other point has one key.
-/

namespace ChainClient

/-! ## Forms of points -/

namespace Crypto.Secp256k1.Point

variable {p : Point} {bytes rest : Bytes} {first : UInt8}

/-- An affine point of the curve. -/
structure IsOnCurve (p : Point) : Prop where
  z_eq : p.z = 1
  x_lt : p.x < prime
  y_lt : p.y < prime
  equation : p.y * p.y % prime = (p.x * p.x * p.x + 7) % prime

/-- The form that says of the `y` that it is even. -/
def compact (p : Point) : Bytes := 5 :: beBytes 32 p.x

theorem square_eq (x : ℕ) : square x = (x * x * x + 7) % prime := by
  rw [square, Nat.add_mod, Nat.mod_mul_mod, ← Nat.add_mod]

/-- Being on the curve is an equation between remainders of numbers. -/
theorem isOnCurve_iff : p.IsOnCurve ↔
    p.z = 1 ∧ p.x < prime ∧ p.y < prime ∧ p.y * p.y % prime = square p.x := by
  rw [square_eq]
  exact ⟨fun h ↦ ⟨h.z_eq, h.x_lt, h.y_lt, h.equation⟩, fun ⟨hz, hx, hy, h⟩ ↦ ⟨hz, hx, hy, h⟩⟩

/-- The compressed form is a tag for the parity and then the first coordinate. -/
theorem encode_eq (h : p.IsOnCurve) :
    p.encode = UInt8.ofNat (2 + p.y % 2) :: beBytes 32 p.x := by
  have hinverse : inverseMod prime p.z = 1 := by
    rw [h.z_eq]
    exact inverseMod_one isPrime_prime.one_lt (Nat.le_of_lt prime_lt)
  rw [encode, affineX, affineY, hinverse, Nat.mul_one, Nat.mul_one, Nat.mod_eq_of_lt h.x_lt,
    Nat.mod_eq_of_lt h.y_lt]

theorem prime_lt_capacity : prime < Wire.capacity 32 := by decide

/-- Bytes of this length stand for a coordinate just if they are its written form. -/
theorem beValue_eq_iff (hlength : rest.length = 32) {x : ℕ} (hx : x < prime) :
    beValue rest = x ↔ rest = beBytes 32 x := by
  constructor
  · rintro rfl
    rw [← hlength, beBytes_beValue]
  · rintro rfl
    exact beValue_beBytes (Nat.lt_trans hx prime_lt_capacity)

/-- Three tags are read, and the one for the compact form asks for the even root. -/
theorem decode?_cons (first : UInt8) (rest : Bytes) : decode? (first :: rest) =
    if first = 2 ∨ first = 3 ∨ first = 5 then
      if rest.length = 32 ∧ beValue rest < prime then
        (yOf? (beValue rest) (if first = 3 then 1 else 0)).map (⟨beValue rest, ·, 1⟩)
      else none
    else none := by
  rw [decode?]
  congr 2
  exact (Option.map_eq_bind ..).symm

/-- The first byte gives the parity of the `y`, and the others are the `x`. -/
theorem decode?_cons_eq_some_iff : decode? (first :: rest) = some p ↔
    (first = 2 ∨ first = 3 ∨ first = 5) ∧ p.IsOnCurve ∧
      p.y % 2 = (if first = 3 then 1 else 0) ∧ rest = beBytes 32 p.x := by
  have hparity : (if first = 3 then 1 else 0) < 2 := by split <;> decide
  rw [decode?_cons]
  constructor
  · intro h
    split at h
    case isFalse => cases h
    case isTrue hfirst =>
      split at h
      case isFalse => cases h
      case isTrue hrest =>
        obtain ⟨y, hy, rfl⟩ := Option.map_eq_some_iff.1 h
        obtain ⟨hlt, hsquare, hmod⟩ := (yOf?_eq_some_iff hparity).1 hy
        exact ⟨hfirst, isOnCurve_iff.2 ⟨rfl, hrest.2, hlt, hsquare⟩, hmod,
          (beValue_eq_iff hrest.1 hrest.2).1 rfl⟩
  · rintro ⟨hfirst, hp, hmod, rfl⟩
    obtain ⟨hz, hx, hy, hsquare⟩ := isOnCurve_iff.1 hp
    have hvalue : beValue (beBytes 32 p.x) = p.x :=
      beValue_beBytes (Nat.lt_trans hx prime_lt_capacity)
    rw [if_pos hfirst, hvalue, if_pos ⟨length_beBytes 32 p.x, hx⟩,
      (yOf?_eq_some_iff hparity).2 ⟨hy, hsquare, hmod⟩, ← hz]
    rfl

/-- A point has its compressed form and, if its `y` is even, the compact form. -/
theorem decode?_eq_some_iff : decode? bytes = some p ↔
    p.IsOnCurve ∧ (bytes = p.encode ∨ p.y % 2 = 0 ∧ bytes = p.compact) := by
  cases bytes with
  | nil =>
    constructor
    · exact nofun
    · rintro ⟨hp, h | ⟨-, h⟩⟩
      · rw [encode_eq hp] at h
        cases h
      · cases h
  | cons first rest =>
    rw [decode?_cons_eq_some_iff]
    constructor
    · rintro ⟨rfl | rfl | rfl, hp, hparity, rfl⟩
      · exact ⟨hp, .inl (by rw [encode_eq hp, hparity]; rfl)⟩
      · exact ⟨hp, .inl (by rw [encode_eq hp, hparity]; rfl)⟩
      · exact ⟨hp, .inr ⟨hparity, rfl⟩⟩
    · rintro ⟨hp, h | ⟨heven, h⟩⟩
      · rw [encode_eq hp] at h
        obtain ⟨rfl, rfl⟩ := List.cons.inj h
        obtain heven | hodd := Nat.mod_two_eq_zero_or_one p.y
        · rw [heven]
          exact ⟨.inl rfl, hp, rfl, rfl⟩
        · rw [hodd]
          exact ⟨.inr (.inl rfl), hp, rfl, rfl⟩
      · obtain ⟨rfl, rfl⟩ := List.cons.inj h
        exact ⟨.inr (.inr rfl), hp, heven, rfl⟩

end Crypto.Secp256k1.Point

/-- The check of a signature uses nothing of a key but its point. -/
theorem Crypto.Secp256k1.check_congr {key key' : Bytes}
    (h : Point.decode? key = Point.decode? key') (message signature : Bytes) :
    check key message signature = check key' message signature := by
  unfold check
  rw [h]

/-! ## Keys of points -/

namespace PublicKey

open Crypto.Secp256k1 (Point)

variable {key key' : PublicKey} {p : Point}

/-- A key is its algorithm and its bytes. -/
theorem eq_of_raw_eq (halgorithm : key.algorithm = key'.algorithm) (hraw : key.raw = key'.raw) :
    key = key' := by
  have hread := ofLength?_raw key
  rw [halgorithm, hraw, ofLength?_raw] at hread
  exact (Option.some.inj hread).symm

/-- The bytes of the key stand for the point. -/
structure Denotes (key : PublicKey) (p : Point) : Prop where
  algorithm_eq : key.algorithm = .secp256k1
  decode?_eq : Point.decode? key.raw = some p

/-- A key that stands for a point has its compressed bytes or, for an even point, its compact
ones. -/
theorem denotes_iff : key.Denotes p ↔ key.algorithm = .secp256k1 ∧ p.IsOnCurve ∧
    (key.raw = p.encode ∨ p.y % 2 = 0 ∧ key.raw = p.compact) := by
  rw [← Point.decode?_eq_some_iff]
  exact ⟨fun h ↦ ⟨h.algorithm_eq, h.decode?_eq⟩, fun ⟨halgorithm, h⟩ ↦ ⟨halgorithm, h⟩⟩

/-- The accepted keys are those that stand for a point. -/
theorem isAccepted_iff_exists_denotes (h : key.algorithm = .secp256k1) :
    key.IsAccepted ↔ ∃ p, key.Denotes p := by
  rw [isAccepted_iff, isValid, h]
  constructor
  · intro hkey
    obtain ⟨p, hp⟩ := Option.isSome_iff_exists.1 hkey
    exact ⟨p, h, hp⟩
  · rintro ⟨p, hp⟩
    exact Option.isSome_iff_exists.2 ⟨p, hp.decode?_eq⟩

/-- Bytes are taken for a key as they are, and only if they stand for a point. -/
theorem ofRaw_eq_ok_iff {raw : Bytes} : ofRaw .secp256k1 raw = .ok key ↔
    key.raw = raw ∧ ∃ p, key.Denotes p := by
  rw [ofRaw, ofRawWith_eq_ok]
  constructor
  · rintro ⟨halgorithm, hraw, hvalid⟩
    exact ⟨hraw, (isAccepted_iff_exists_denotes halgorithm).1 ((isAccepted_iff key).2 hvalid)⟩
  · rintro ⟨hraw, p, hp⟩
    have haccepted := (isAccepted_iff_exists_denotes hp.algorithm_eq).2 ⟨p, hp⟩
    exact ⟨hp.algorithm_eq, hraw, (isAccepted_iff key).1 haccepted⟩

/-- Of the two forms, only the compact one begins with a five. -/
theorem Denotes.raw_eq_encode_iff (h : key.Denotes p) :
    key.raw = p.encode ↔ key.raw.head? ≠ some 5 := by
  obtain ⟨-, hp, hraw⟩ := denotes_iff.1 h
  constructor
  · intro hencode
    rw [hencode, Point.encode_eq hp]
    obtain heven | hodd := Nat.mod_two_eq_zero_or_one p.y
    · rw [heven, List.head?_cons]
      decide
    · rw [hodd, List.head?_cons]
      decide
  · intro hhead
    refine hraw.resolve_right fun ⟨_, hcompact⟩ ↦ hhead ?_
    rw [hcompact]
    rfl

/-- The key whose bytes are the form. -/
def ofForm (bytes : Bytes) : PublicKey := .secp256k1 (.fit 33 bytes)

theorem raw_ofForm {bytes : Bytes} (h : bytes.length = 33) : (ofForm bytes).raw = bytes :=
  Octets.toList_fit h

theorem raw_ofForm_encode (hp : p.IsOnCurve) : (ofForm p.encode).raw = p.encode := by
  refine raw_ofForm ?_
  rw [Point.encode_eq hp, List.length_cons, Crypto.length_beBytes]

theorem raw_ofForm_compact (p : Point) : (ofForm p.compact).raw = p.compact := by
  refine raw_ofForm ?_
  rw [Point.compact, List.length_cons, Crypto.length_beBytes]

theorem denotes_encode (hp : p.IsOnCurve) : (ofForm p.encode).Denotes p :=
  denotes_iff.2 ⟨rfl, hp, .inl (raw_ofForm_encode hp)⟩

/-- The compact form stands for the point as well, if the point is even. -/
theorem denotes_compact (hp : p.IsOnCurve) (heven : p.y % 2 = 0) : (ofForm p.compact).Denotes p :=
  denotes_iff.2 ⟨rfl, hp, .inr ⟨heven, raw_ofForm_compact p⟩⟩

theorem encode_ne_compact (hp : p.IsOnCurve) : ofForm p.encode ≠ ofForm p.compact := by
  intro heq
  have hhead := (denotes_encode hp).raw_eq_encode_iff.1 (raw_ofForm_encode hp)
  rw [heq, raw_ofForm_compact] at hhead
  exact hhead rfl

/-- A point has one key just if it is odd, since the compact form is for even points alone. -/
theorem existsUnique_denotes_iff (hp : p.IsOnCurve) :
    (∃! key : PublicKey, key.Denotes p) ↔ p.y % 2 = 1 := by
  constructor
  · intro hunique
    by_contra hodd
    have heven : p.y % 2 = 0 := by omega
    exact encode_ne_compact hp
      (hunique.unique (denotes_encode hp) (denotes_compact hp heven))
  · intro hodd
    refine ⟨ofForm p.encode, denotes_encode hp, fun key hkey ↦ ?_⟩
    obtain ⟨halgorithm, -, hraw⟩ := denotes_iff.1 hkey
    have hencode := hraw.resolve_right fun ⟨heven, _⟩ ↦ by omega
    exact eq_of_raw_eq halgorithm (hencode.trans (raw_ofForm_encode hp).symm)

/-- Keys of one point differ in the compact form alone. -/
theorem Denotes.eq_of_head?_ne (h : key.Denotes p) (h' : key'.Denotes p)
    (hhead : key.raw.head? ≠ some 5) (hhead' : key'.raw.head? ≠ some 5) : key = key' := by
  refine eq_of_raw_eq (h.algorithm_eq.trans h'.algorithm_eq.symm) ?_
  rw [h.raw_eq_encode_iff.2 hhead, h'.raw_eq_encode_iff.2 hhead']

/-- A signature is checked against the point, whichever key of it is given. -/
theorem Denotes.verify_eq (h : key.Denotes p) (h' : key'.Denotes p) (message : Bytes)
    (signature : Signature) :
    Suite.network.verify key message signature = Suite.network.verify key' message signature := by
  obtain ⟨halgorithm, hpoint⟩ := h
  obtain ⟨halgorithm', hpoint'⟩ := h'
  cases key with
  | ed25519 => cases halgorithm
  | secp256k1 octets =>
    cases key' with
    | ed25519 => cases halgorithm'
    | secp256k1 octets' =>
      have hsame : Point.decode? octets.toList = Point.decode? octets'.toList :=
        hpoint.trans hpoint'.symm
      have hvalid : isValid onCurve (.secp256k1 octets) = isValid onCurve (.secp256k1 octets') :=
        congrArg Option.isSome hsame
      have hcheck : Suite.checkOnCurve (.secp256k1 octets) message signature =
          Suite.checkOnCurve (.secp256k1 octets') message signature := by
        simp only [Suite.checkOnCurve, hvalid, Crypto.Secp256k1.check_congr hsame, algorithm]
      exact congrArg (fun outcome ↦ if Algorithm.secp256k1 = signature.algorithm then outcome else
        .error (.algorithmMismatch .secp256k1 signature.algorithm)) hcheck

/-- The bytes that are read as a key are those that stand for a point of the curve: its compressed
form, or the compact form if its `y` is even, which makes this a second key of the point. A key is
the compressed form of its point just if it does not begin with a five, and a point has one such
key. All keys of a point verify the same signatures. -/
theorem points_exact (raw : Bytes) (key : PublicKey) (p : Point) :
    (ofRaw .secp256k1 raw = .ok key ↔ key.raw = raw ∧ ∃ q, key.Denotes q) ∧
    (key.Denotes p ↔ key.algorithm = .secp256k1 ∧ p.IsOnCurve ∧
      (key.raw = p.encode ∨ p.y % 2 = 0 ∧ key.raw = p.compact)) ∧
    (p.IsOnCurve → ((∃! key : PublicKey, key.Denotes p) ↔ p.y % 2 = 1)) ∧
    (key.Denotes p → (key.raw = p.encode ↔ key.raw.head? ≠ some 5)) ∧
    ∀ key' : PublicKey, key.Denotes p → key'.Denotes p →
      (key.raw.head? ≠ some 5 → key'.raw.head? ≠ some 5 → key = key') ∧
      ∀ (message : Bytes) (signature : Signature),
        Suite.network.verify key message signature = Suite.network.verify key' message signature :=
  ⟨ofRaw_eq_ok_iff, denotes_iff, existsUnique_denotes_iff, Denotes.raw_eq_encode_iff,
    fun _ h h' ↦ ⟨h.eq_of_head?_ne h', h.verify_eq h'⟩⟩

theorem isOnCurve_base : Point.base.IsOnCurve := by
  rw [Point.isOnCurve_iff]
  decide +kernel

/-- The generator is even and has both forms. -/
theorem denotes_base : (ofForm Point.base.encode).Denotes Point.base ∧
    (ofForm Point.base.compact).Denotes Point.base :=
  ⟨denotes_encode isOnCurve_base, denotes_compact isOnCurve_base (by decide)⟩

/-- The generator of the group has an even `y`. -/
theorem points_exact_base :
    Point.base.IsOnCurve ∧ (¬∃! key : PublicKey, key.Denotes Point.base) ∧
    (ofForm Point.base.encode).raw.head? ≠ some 5 ∧
    ∀ (message : Bytes) (signature : Signature),
      Suite.network.verify (ofForm Point.base.encode) message signature =
        Suite.network.verify (ofForm Point.base.compact) message signature := by
  obtain ⟨-, -, hunique, hencode, hkeys⟩ :=
    points_exact Point.base.encode (ofForm Point.base.encode) Point.base
  obtain ⟨-, hverify⟩ := hkeys (ofForm Point.base.compact) denotes_base.1 denotes_base.2
  refine ⟨isOnCurve_base, fun h ↦ ?_,
    (hencode denotes_base.1).1 (raw_ofForm_encode isOnCurve_base), hverify⟩
  exact absurd ((hunique isOnCurve_base).1 h) (by decide)

/-- The compact form of the generator is read as a key, of another account than the compressed
form. -/
theorem not_forall_raw_eq_encode :
    (¬∀ (raw : Bytes) (key : PublicKey) (p : Point), ofRaw .secp256k1 raw = .ok key →
      Point.decode? raw = some p → raw = p.encode) ∧
    ¬∀ (key key' : PublicKey) (p : Point), key.Denotes p → key'.Denotes p →
      key.accountHash = key'.accountHash := by
  obtain ⟨hencode, hcompact⟩ := denotes_base
  constructor
  · intro hall
    have hread : ofRaw .secp256k1 Point.base.compact = .ok (ofForm Point.base.compact) :=
      ofRaw_eq_ok_iff.2 ⟨raw_ofForm_compact _, Point.base, hcompact⟩
    have hpoint : Point.decode? Point.base.compact = some Point.base :=
      raw_ofForm_compact Point.base ▸ hcompact.decode?_eq
    have heq := hall _ _ _ hread hpoint
    exact encode_ne_compact isOnCurve_base (congrArg ofForm heq.symm)
  · intro hall
    exact absurd (hall _ _ _ hencode hcompact) (by decide +kernel)

end PublicKey

end ChainClient
