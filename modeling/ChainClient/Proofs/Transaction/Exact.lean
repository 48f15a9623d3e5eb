import ChainClient.Proofs.Transaction.Canonical
import ChainClient.Proofs.Value.Width
import ChainClient.Proofs.Wire.Envelope.Width

/-!
# Exact forms of the variants in a transaction

The readers of the variants accept the written forms of acceptable values and nothing else: a
value with accepted keys and accepted typed values reads back whatever follows, and all bytes
that are read begin with what is written of the value. A value is written just if its fields fit
a length of 32 bits together.
-/

namespace ChainClient

open Wire (Measured Writable Readable Lossless Canonical bind_eq_ok bind_unit_eq_ok pure_eq_ok
  total)
open Envelope (Builds BuildsLengths readAll_of_field)

/-! ## Exactness -/

/-- The reader accepts the written forms of acceptable values, and a value is written if its
fields fit. -/
structure IsExactOn (α : Type) [Wire α] (acceptable : α → Prop) (lengths : α → List Nat) :
    Prop where
  read_eq_ok_iff : ∀ {bytes rest : Bytes} {x : α}, Wire.read bytes = .ok (x, rest) ↔
    acceptable x ∧ ∃ front, Wire.write x = .ok front ∧ bytes = front ++ rest
  exists_write_iff : ∀ {x : α},
    (∃ bytes, Wire.write x = .ok bytes) ↔ total (lengths x) < UInt32.size

/-- Types that read back, are canonical and have a bound on their lengths are exact on what is
accepted. -/
theorem IsExactOn.of_canonical {α : Type} [Wire α] [Canonical α] {acceptable : α → Prop}
    {lengths : α → List Nat} (hreadable : ∀ {x : α}, acceptable x → Readable x)
    (haccept : ∀ {bytes rest : Bytes} {x : α}, Wire.read bytes = .ok (x, rest) → acceptable x)
    (hwrite : ∀ {x : α}, (∃ bytes, Wire.write x = .ok bytes) ↔ total (lengths x) < UInt32.size) :
    IsExactOn α acceptable lengths where
  read_eq_ok_iff {bytes rest x} := by
    constructor
    · intro hread
      exact ⟨haccept hread, Canonical.write_of_read hread⟩
    · rintro ⟨hx, front, hw, rfl⟩
      exact hreadable hx front rest hw
  exists_write_iff := hwrite

/-- Types all of whose values read back are exact on all of them. -/
theorem IsExactOn.of_lossless {α : Type} [Wire α] [Canonical α] [Lossless α]
    {lengths : α → List Nat}
    (hwrite : ∀ {x : α}, (∃ bytes, Wire.write x = .ok bytes) ↔ total (lengths x) < UInt32.size) :
    IsExactOn α (fun _ ↦ True) lengths :=
  .of_canonical (fun _ ↦ Lossless.readable _) (fun _ ↦ trivial) hwrite

/-! ## Lengths of fields -/

theorem buildsLengths_ofTag (tag : UInt8) : BuildsLengths (Envelope.ofTag tag) [1] :=
  ⟨_, .ofTag tag, rfl⟩

/-- A tag and one field. -/
theorem buildsLengths_ofTag_add {α : Type} [Wire α] [Measured α] [Writable α] (tag : UInt8)
    (x : α) : BuildsLengths (do (← Envelope.ofTag tag).add 1 x) [1, Wire.width x] :=
  ⟨_, (Builds.ofTag tag).add 1 x (by simp), rfl⟩

theorem PricingMode.buildsLengths (p : PricingMode) : BuildsLengths p.toEnvelope p.lengths := by
  cases p with
  | paymentLimited amount tolerance standard =>
    have hbuilds := (((Builds.ofTag 0).add 1 amount (by simp)).add 2 tolerance (by simp)).add 3
      standard (by simp)
    simp only [bind_assoc] at hbuilds
    exact ⟨_, hbuilds, rfl⟩
  | fixed factor tolerance =>
    have hbuilds := ((Builds.ofTag 1).add 1 factor (by simp)).add 2 tolerance (by simp)
    simp only [bind_assoc] at hbuilds
    exact ⟨_, hbuilds, rfl⟩
  | prepaid receipt => exact buildsLengths_ofTag_add 2 receipt

instance : Measured Runtime := .ofEnvelope fun _ ↦ buildsLengths_ofTag 0

instance : Writable Runtime := .ofEnvelope fun _ ↦ buildsLengths_ofTag 0

namespace InvocationTarget

/-- A package with the versions that are chosen. -/
theorem buildsLengths_package {α : Type} [Wire α] [Measured α] [Writable α] (tag : UInt8) (x : α)
    (version protocolMajor : Option UInt32) :
    BuildsLengths (do
      let e ← Envelope.ofTag tag
      let e ← e.add 1 x
      let e ← e.addOptional 2 version
      e.addOptional 3 protocolMajor)
      (1 :: Wire.width x :: versionLengths version protocolMajor) := by
  have hbuilds := (((Builds.ofTag tag).add 1 x (by simp)).addOptional 2 version
    (by simp)).addOptional 3 protocolMajor (by cases version <;> simp)
  simp only [bind_assoc] at hbuilds
  refine ⟨_, hbuilds, ?_⟩
  cases version <;> cases protocolMajor <;> rfl

theorem buildsLengths (target : InvocationTarget) :
    BuildsLengths target.toEnvelope target.lengths := by
  cases target with
  | byHash hash => exact buildsLengths_ofTag_add 0 hash
  | byName name => exact buildsLengths_ofTag_add 1 name
  | byPackageHash hash version protocolMajor =>
    exact buildsLengths_package 2 hash version protocolMajor
  | byPackageName name version protocolMajor =>
    exact buildsLengths_package 3 name version protocolMajor

instance : Measured InvocationTarget := .ofEnvelope buildsLengths

instance : Writable InvocationTarget := .ofEnvelope buildsLengths

end InvocationTarget

theorem Target.buildsLengths (target : Target) :
    BuildsLengths target.toEnvelope target.lengths := by
  cases target with
  | native => exact buildsLengths_ofTag 0
  | stored id runtime =>
    have hbuilds := ((Builds.ofTag 1).add 1 id (by simp)).add 2 runtime (by simp)
    simp only [bind_assoc] at hbuilds
    exact ⟨_, hbuilds, rfl⟩
  | session isInstallUpgrade code runtime =>
    have hbuilds := (((Builds.ofTag 2).add 1 isInstallUpgrade (by simp)).add 2 runtime
      (by simp)).add 3 code (by simp)
    simp only [bind_assoc] at hbuilds
    exact ⟨_, hbuilds, rfl⟩

theorem EntryPoint.buildsLengths (entryPoint : EntryPoint) :
    BuildsLengths entryPoint.toEnvelope entryPoint.lengths := by
  cases entryPoint with
  | call => exact buildsLengths_ofTag 0
  | custom name => exact buildsLengths_ofTag_add 1 name
  | system operation => exact buildsLengths_ofTag operation.tag

theorem Initiator.buildsLengths (i : Initiator) : BuildsLengths i.toEnvelope i.lengths := by
  cases i with
  | publicKey key => exact buildsLengths_ofTag_add 0 key
  | accountHash account => exact buildsLengths_ofTag_add 1 account

theorem TransactionArguments.buildsLengths (args : TransactionArguments) :
    BuildsLengths args.toEnvelope args.lengths := by
  cases args with
  | named named => exact buildsLengths_ofTag_add 0 named
  | encoded bytes => exact buildsLengths_ofTag_add 1 bytes

/-! ## What is accepted -/

/-- What is read is parsed out of an envelope. -/
theorem exists_ofEnvelope_of_read {α : Type} {build : α → Except WireError Envelope}
    {parse : Envelope → Except WireError α} {lengths : α → List Nat} {bytes rest : Bytes} {x : α}
    (h : (Wire.ofEnvelope build parse lengths).read bytes = .ok (x, rest)) :
    ∃ e, parse e = .ok x := by
  obtain ⟨⟨e, rest'⟩, -, h⟩ := bind_eq_ok.1 h
  obtain ⟨y, hy, h⟩ := bind_eq_ok.1 h
  obtain ⟨rfl, rfl⟩ := Prod.mk.inj (pure_eq_ok.1 h)
  exact ⟨e, hy⟩

namespace Initiator

/-- The key, if there is one, is one that a reader accepts. -/
def IsAccepted (i : Initiator) : Prop := ∀ key ∈ i.publicKeys, key.IsAccepted

/-- An initiator that is read has an accepted key, if it has one. -/
theorem isAccepted_of_read {i : Initiator} {bytes rest : Bytes}
    (hread : Wire.read bytes = .ok (i, rest)) : i.IsAccepted := by
  obtain ⟨e, h⟩ := exists_ofEnvelope_of_read hread
  obtain ⟨-, h⟩ := bind_unit_eq_ok.1 h
  obtain ⟨tag, -, h⟩ := bind_eq_ok.1 h
  split at h
  · obtain ⟨key, hkey, h⟩ := bind_eq_ok.1 h
    obtain rfl := pure_eq_ok.1 h
    obtain ⟨slice, hslice, -⟩ := readAll_of_field hkey
    simpa [IsAccepted, publicKeys] using
      PublicKey.isAccepted_of_read (Wire.readAll_eq_ok.1 hslice)
  split at h
  · obtain ⟨account, -, h⟩ := bind_eq_ok.1 h
    obtain rfl := pure_eq_ok.1 h
    simp [IsAccepted, publicKeys]
  · cases h

/-- Initiators are exact on those with accepted keys. -/
theorem isExactOn : IsExactOn Initiator IsAccepted lengths :=
  .of_canonical readable isAccepted_of_read (Wire.exists_write_ofEnvelope (buildsLengths _))

end Initiator

namespace TransactionArguments

/-- The arguments, if they are values at all, are ones that a reader accepts. -/
def IsAccepted (args : TransactionArguments) : Prop :=
  ∀ named, args.named? = some named → named.IsAccepted

theorem isAccepted_of_read {args : TransactionArguments} {bytes rest : Bytes}
    (hread : Wire.read bytes = .ok (args, rest)) : args.IsAccepted := by
  obtain ⟨e, h⟩ := exists_ofEnvelope_of_read hread
  obtain ⟨-, h⟩ := bind_unit_eq_ok.1 h
  obtain ⟨tag, -, h⟩ := bind_eq_ok.1 h
  split at h
  · obtain ⟨named, hnamed, h⟩ := bind_eq_ok.1 h
    obtain rfl := pure_eq_ok.1 h
    obtain ⟨slice, hslice, -⟩ := readAll_of_field hnamed
    simpa [IsAccepted, named?] using
      Arguments.isAccepted_of_read (Wire.readAll_eq_ok.1 hslice)
  split at h
  · obtain ⟨bytes, -, h⟩ := bind_eq_ok.1 h
    obtain rfl := pure_eq_ok.1 h
    simp [IsAccepted, named?]
  · cases h

theorem isExactOn : IsExactOn TransactionArguments IsAccepted lengths :=
  .of_canonical (fun hargs ↦ readable fun named hnamed ↦ (hargs named hnamed).readable)
    isAccepted_of_read (Wire.exists_write_ofEnvelope (buildsLengths _))

end TransactionArguments

/-! ## All variants -/

/-- The written form of every variant is exact, and two targets are not written alike, so neither
are packages that differ in a version. -/
theorem variants_exact :
    IsExactOn Initiator Initiator.IsAccepted Initiator.lengths ∧
    IsExactOn PricingMode (fun _ ↦ True) PricingMode.lengths ∧
    IsExactOn Runtime (fun _ ↦ True) (fun _ ↦ [1]) ∧
    IsExactOn Scheduling (fun _ ↦ True) (fun _ ↦ [1]) ∧
    IsExactOn InvocationTarget (fun _ ↦ True) InvocationTarget.lengths ∧
    IsExactOn Target (fun _ ↦ True) Target.lengths ∧
    IsExactOn EntryPoint (fun _ ↦ True) EntryPoint.lengths ∧
    IsExactOn TransactionArguments TransactionArguments.IsAccepted TransactionArguments.lengths ∧
    ∀ target target' : InvocationTarget, target ≠ target' → ∀ bytes,
      Wire.write target = .ok bytes → Wire.write target' ≠ .ok bytes := by
  refine ⟨Initiator.isExactOn,
    .of_lossless (Wire.exists_write_ofEnvelope (PricingMode.buildsLengths _)),
    .of_lossless (Wire.exists_write_ofEnvelope (buildsLengths_ofTag 0)),
    .of_lossless (Wire.exists_write_ofEnvelope (buildsLengths_ofTag 0)),
    .of_lossless (Wire.exists_write_ofEnvelope (InvocationTarget.buildsLengths _)),
    .of_lossless (Wire.exists_write_ofEnvelope (Target.buildsLengths _)),
    .of_lossless (Wire.exists_write_ofEnvelope (EntryPoint.buildsLengths _)),
    TransactionArguments.isExactOn, ?_⟩
  intro target target' hne bytes hw hw'
  exact hne (Wire.write_injective hw hw')

/-- A call of a package with or without a version. -/
def packageZero (version protocolMajor : Option UInt32) : InvocationTarget :=
  .byPackageHash ⟨.zero 32⟩ version protocolMajor

def argumentFive : TransactionArguments := .named ⟨[⟨"amount", ⟨.leaf .u8, [5]⟩⟩]⟩

/-- No version and the version zero are different, and so are the two versions. -/
theorem variants_exact_packageZero :
    (∃ bytes, Wire.write (packageZero (some 0) none) = .ok bytes ∧
      Wire.read (bytes ++ [9]) = .ok (packageZero (some 0) none, [9]) ∧
      Wire.write (packageZero none none) ≠ .ok bytes ∧
      Wire.write (packageZero none (some 0)) ≠ .ok bytes) ∧
    argumentFive.IsAccepted ∧ ∃ bytes, Wire.write argumentFive = .ok bytes ∧
      Wire.read (bytes ++ [9]) = .ok (argumentFive, [9]) := by
  obtain ⟨-, -, -, -, htarget, -, -, hargs, hne⟩ := variants_exact
  have haccepted : argumentFive.IsAccepted := by
    rintro named ⟨⟩ arg harg
    obtain rfl := List.mem_singleton.1 harg
    exact ⟨by decide, rfl⟩
  have hfits : total (packageZero (some 0) none).lengths < UInt32.size := by decide
  have hfits' : total argumentFive.lengths < UInt32.size := by decide
  obtain ⟨bytes, hw⟩ := htarget.exists_write_iff.2 hfits
  obtain ⟨bytes', hw'⟩ := hargs.exists_write_iff.2 hfits'
  refine ⟨⟨bytes, hw, htarget.read_eq_ok_iff.2 ⟨trivial, bytes, hw, rfl⟩, ?_, ?_⟩,
    haccepted, bytes', hw', hargs.read_eq_ok_iff.2 ⟨haccepted, bytes', hw', rfl⟩⟩
  · exact hne (packageZero (some 0) none) (packageZero none none) (by decide) bytes hw
  · exact hne (packageZero (some 0) none) (packageZero none (some 0)) (by decide) bytes hw

end ChainClient
