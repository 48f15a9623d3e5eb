import ChainClient.Proofs.Document.Parts
import ChainClient.Proofs.Value.Arguments
import ChainClient.Proofs.Wire.Envelope
import ChainClient.Transaction.Fields
import ChainClient.Transaction.Initiator
import ChainClient.Transaction.PricingMode

/-!
# Forms of the variants in a transaction

How a transaction pays, what it calls and who starts it are written as envelopes whose first
field is a tag. Reading takes the fields back in the order in which they were added, so every
proof walks through the two programs side by side. The initiator may hold a key and the
arguments may hold values that no reader accepts; those two forms keep all their values apart
none the less.
-/

namespace ChainClient

open Wire (Readable Lossless Unambiguous bind_of_eq_ok bind_unit_eq_ok)
open Envelope (Ordered Ascending exists_slice_of_add exists_slice_of_add_bind field_bind_eq_ok
  fields_of_ofTag holdsTagged_of_ofTag_add optionalField_eq_some)

/-! ## Pricing -/

namespace PricingMode

/-- A pricing mode reads back from its envelope, whose indices ascend. -/
theorem ofEnvelope_toEnvelope {p : PricingMode} {e : Envelope} (h : p.toEnvelope = .ok e) :
    e.Ordered ∧ ofEnvelope e = .ok p := by
  cases p with
  | paymentLimited amount tolerance standard =>
    obtain ⟨_, htag, h⟩ := exists_slice_of_add_bind h
    obtain ⟨_, hamount, h⟩ := exists_slice_of_add_bind h
    obtain ⟨_, htolerance, h⟩ := exists_slice_of_add_bind h
    obtain ⟨_, hstandard, rfl⟩ := exists_slice_of_add h
    refine ⟨by simp [Ordered, Ascending], ?_⟩
    apply field_bind_eq_ok htag (Lossless.readable _) rfl
    refine bind_unit_eq_ok.2 ⟨rfl, ?_⟩
    apply field_bind_eq_ok hamount (Lossless.readable _) rfl
    apply field_bind_eq_ok htolerance (Lossless.readable _) rfl
    exact field_bind_eq_ok hstandard (Lossless.readable _) rfl rfl
  | fixed factor tolerance =>
    obtain ⟨_, htag, h⟩ := exists_slice_of_add_bind h
    obtain ⟨_, hfactor, h⟩ := exists_slice_of_add_bind h
    obtain ⟨_, htolerance, rfl⟩ := exists_slice_of_add h
    refine ⟨by simp [Ordered, Ascending], ?_⟩
    apply field_bind_eq_ok htag (Lossless.readable _) rfl
    refine bind_unit_eq_ok.2 ⟨rfl, ?_⟩
    apply field_bind_eq_ok hfactor (Lossless.readable _) rfl
    exact field_bind_eq_ok htolerance (Lossless.readable _) rfl rfl
  | prepaid receipt =>
    have hholds := holdsTagged_of_ofTag_add h
    obtain ⟨hmax, htag, hreceipt⟩ := hholds.fields_eq_ok (Lossless.readable _)
    refine ⟨hholds.ordered, ?_⟩
    apply bind_of_eq_ok htag
    apply bind_of_eq_ok hmax
    exact bind_of_eq_ok hreceipt rfl

instance : Lossless PricingMode where
  readable _ := .ofEnvelope fun _ ↦ ofEnvelope_toEnvelope

end PricingMode

/-! ## Types with one value -/

namespace Runtime

theorem ofEnvelope_ofTag {e : Envelope} (h : Envelope.ofTag 0 = .ok e) :
    e.Ordered ∧ ofEnvelope e = .ok .vmCasperV1 := by
  obtain ⟨hordered, hmax, htag⟩ := fields_of_ofTag h
  refine ⟨hordered, ?_⟩
  apply bind_of_eq_ok hmax
  exact bind_of_eq_ok htag rfl

instance : Lossless Runtime where
  readable
    | .vmCasperV1 => .ofEnvelope fun _ ↦ ofEnvelope_ofTag

end Runtime

namespace Scheduling

theorem ofEnvelope_ofTag {e : Envelope} (h : Envelope.ofTag 0 = .ok e) :
    e.Ordered ∧ ofEnvelope e = .ok .standard := by
  obtain ⟨hordered, hmax, htag⟩ := fields_of_ofTag h
  refine ⟨hordered, ?_⟩
  apply bind_of_eq_ok hmax
  exact bind_of_eq_ok htag rfl

instance : Lossless Scheduling where
  readable
    | .standard => .ofEnvelope fun _ ↦ ofEnvelope_ofTag

end Scheduling

/-! ## What is called -/

namespace InvocationTarget

/-- Both versions of a package are found again, chosen or not. -/
theorem optionalFields_of_versions {tag first : Bytes} {version protocolMajor : Option UInt32}
    {e : Envelope} (h : (do
      let e ← (⟨[] ++ [(0, tag)] ++ [(1, first)]⟩ : Envelope).addOptional 2 version
      e.addOptional 3 protocolMajor) = .ok e) :
    e.Ordered ∧ e.slice? 0 = some tag ∧ e.slice? 1 = some first ∧ e.ensureMaxIndex 3 = .ok () ∧
      e.optionalField 2 = .ok version ∧ e.optionalField 3 = .ok protocolMajor := by
  cases version with
  | none =>
    cases protocolMajor with
    | none =>
      obtain rfl := Except.ok.inj h
      exact ⟨by simp [Ordered, Ascending], rfl, rfl, rfl, rfl, rfl⟩
    | some major =>
      change (⟨[] ++ [(0, tag)] ++ [(1, first)]⟩ : Envelope).add 3 major = .ok e at h
      obtain ⟨_, hmajor, rfl⟩ := exists_slice_of_add h
      exact ⟨by simp [Ordered, Ascending], rfl, rfl, rfl, rfl,
        optionalField_eq_some hmajor (Lossless.readable _) rfl⟩
  | some number =>
    obtain ⟨_, hnumber, h⟩ := exists_slice_of_add_bind h
    cases protocolMajor with
    | none =>
      obtain rfl := Except.ok.inj h
      exact ⟨by simp [Ordered, Ascending], rfl, rfl, rfl,
        optionalField_eq_some hnumber (Lossless.readable _) rfl, rfl⟩
    | some major =>
      obtain ⟨_, hmajor, rfl⟩ := exists_slice_of_add h
      exact ⟨by simp [Ordered, Ascending], rfl, rfl, rfl,
        optionalField_eq_some hnumber (Lossless.readable _) rfl,
        optionalField_eq_some hmajor (Lossless.readable _) rfl⟩

/-- An invocation target reads back from its envelope, with or without versions. -/
theorem ofEnvelope_toEnvelope {target : InvocationTarget} {e : Envelope}
    (h : target.toEnvelope = .ok e) : e.Ordered ∧ ofEnvelope e = .ok target := by
  cases target with
  | byHash hash =>
    have hholds := holdsTagged_of_ofTag_add h
    obtain ⟨hmax, htag, hhash⟩ := hholds.fields_eq_ok (Lossless.readable _)
    refine ⟨hholds.ordered, ?_⟩
    apply bind_of_eq_ok htag
    apply bind_of_eq_ok hmax
    exact bind_of_eq_ok hhash rfl
  | byName name =>
    have hholds := holdsTagged_of_ofTag_add h
    obtain ⟨hmax, htag, hname⟩ := hholds.fields_eq_ok (Lossless.readable _)
    refine ⟨hholds.ordered, ?_⟩
    apply bind_of_eq_ok htag
    apply bind_of_eq_ok hmax
    exact bind_of_eq_ok hname rfl
  | byPackageHash hash version protocolMajor =>
    obtain ⟨_, htag, h⟩ := exists_slice_of_add_bind h
    obtain ⟨_, hhash, h⟩ := exists_slice_of_add_bind h
    obtain ⟨hordered, hslice, hslice', hmax, hversion, hmajor⟩ := optionalFields_of_versions h
    refine ⟨hordered, field_bind_eq_ok htag (Lossless.readable _) hslice ?_⟩
    apply bind_of_eq_ok hmax
    apply field_bind_eq_ok hhash (Lossless.readable _) hslice'
    apply bind_of_eq_ok hversion
    exact bind_of_eq_ok hmajor rfl
  | byPackageName name version protocolMajor =>
    obtain ⟨_, htag, h⟩ := exists_slice_of_add_bind h
    obtain ⟨_, hname, h⟩ := exists_slice_of_add_bind h
    obtain ⟨hordered, hslice, hslice', hmax, hversion, hmajor⟩ := optionalFields_of_versions h
    refine ⟨hordered, field_bind_eq_ok htag (Lossless.readable _) hslice ?_⟩
    apply bind_of_eq_ok hmax
    apply field_bind_eq_ok hname (Lossless.readable _) hslice'
    apply bind_of_eq_ok hversion
    exact bind_of_eq_ok hmajor rfl

instance : Lossless InvocationTarget where
  readable _ := .ofEnvelope fun _ ↦ ofEnvelope_toEnvelope

end InvocationTarget

namespace Target

theorem ofEnvelope_toEnvelope {target : Target} {e : Envelope} (h : target.toEnvelope = .ok e) :
    e.Ordered ∧ ofEnvelope e = .ok target := by
  cases target with
  | native =>
    obtain ⟨hordered, hmax, htag⟩ := fields_of_ofTag h
    refine ⟨hordered, ?_⟩
    apply bind_of_eq_ok htag
    exact bind_of_eq_ok hmax rfl
  | stored id runtime =>
    obtain ⟨_, htag, h⟩ := exists_slice_of_add_bind h
    obtain ⟨_, hid, h⟩ := exists_slice_of_add_bind h
    obtain ⟨_, hruntime, rfl⟩ := exists_slice_of_add h
    refine ⟨by simp [Ordered, Ascending], ?_⟩
    apply field_bind_eq_ok htag (Lossless.readable _) rfl
    refine bind_unit_eq_ok.2 ⟨rfl, ?_⟩
    apply field_bind_eq_ok hid (Lossless.readable _) rfl
    exact field_bind_eq_ok hruntime (Lossless.readable _) rfl rfl
  | session isInstallUpgrade code runtime =>
    obtain ⟨_, htag, h⟩ := exists_slice_of_add_bind h
    obtain ⟨_, hupgrade, h⟩ := exists_slice_of_add_bind h
    obtain ⟨_, hruntime, h⟩ := exists_slice_of_add_bind h
    obtain ⟨_, hcode, rfl⟩ := exists_slice_of_add h
    refine ⟨by simp [Ordered, Ascending], ?_⟩
    apply field_bind_eq_ok htag (Lossless.readable _) rfl
    refine bind_unit_eq_ok.2 ⟨rfl, ?_⟩
    apply field_bind_eq_ok hupgrade (Lossless.readable _) rfl
    apply field_bind_eq_ok hruntime (Lossless.readable _) rfl
    exact field_bind_eq_ok hcode (Lossless.readable _) rfl rfl

instance : Lossless Target where
  readable _ := .ofEnvelope fun _ ↦ ofEnvelope_toEnvelope

end Target

namespace EntryPoint

/-- An entry point reads back from its envelope; each of the system has a tag of its own. -/
theorem ofEnvelope_toEnvelope {entryPoint : EntryPoint} {e : Envelope}
    (h : entryPoint.toEnvelope = .ok e) : e.Ordered ∧ ofEnvelope e = .ok entryPoint := by
  cases entryPoint with
  | call =>
    obtain ⟨hordered, hmax, htag⟩ := fields_of_ofTag h
    refine ⟨hordered, ?_⟩
    apply bind_of_eq_ok htag
    exact bind_of_eq_ok hmax rfl
  | custom name =>
    have hholds := holdsTagged_of_ofTag_add h
    obtain ⟨hmax, htag, hname⟩ := hholds.fields_eq_ok (Lossless.readable _)
    refine ⟨hholds.ordered, ?_⟩
    apply bind_of_eq_ok htag
    apply bind_of_eq_ok hmax
    exact bind_of_eq_ok hname rfl
  | system operation =>
    obtain ⟨hordered, hmax, htag⟩ := fields_of_ofTag h
    refine ⟨hordered, ?_⟩
    apply bind_of_eq_ok htag
    have hone : operation.tag ≠ 1 := by cases operation <;> decide
    have hzero : operation.tag ≠ 0 := by cases operation <;> decide
    rw [if_neg hone]
    apply bind_of_eq_ok hmax
    rw [if_neg hzero, SystemOperation.ofTag?_tag]
    rfl

instance : Lossless EntryPoint where
  readable _ := .ofEnvelope fun _ ↦ ofEnvelope_toEnvelope

end EntryPoint

/-! ## Who starts it -/

namespace Initiator

/-- The key, if the initiator is not an account. -/
def publicKeys : Initiator → List PublicKey
  | .publicKey key => [key]
  | .accountHash _ => []

theorem toEnvelope_ordered {i : Initiator} {e : Envelope} (h : i.toEnvelope = .ok e) :
    e.Ordered := by
  cases i with
  | publicKey key => exact (holdsTagged_of_ofTag_add h).ordered
  | accountHash account => exact (holdsTagged_of_ofTag_add h).ordered

/-- An initiator reads back from its envelope if its key is accepted. -/
theorem ofEnvelope_toEnvelope {i : Initiator} {e : Envelope}
    (hkeys : ∀ key ∈ i.publicKeys, key.IsAccepted) (h : i.toEnvelope = .ok e) :
    ofEnvelope e = .ok i := by
  cases i with
  | publicKey key =>
    have hkey : Readable key := (hkeys key List.mem_cons_self).readable
    obtain ⟨hmax, htag, hkey⟩ := (holdsTagged_of_ofTag_add h).fields_eq_ok hkey
    apply bind_of_eq_ok hmax
    apply bind_of_eq_ok htag
    exact bind_of_eq_ok hkey rfl
  | accountHash account =>
    obtain ⟨hmax, htag, haccount⟩ :=
      (holdsTagged_of_ofTag_add h).fields_eq_ok (Lossless.readable account)
    apply bind_of_eq_ok hmax
    apply bind_of_eq_ok htag
    exact bind_of_eq_ok haccount rfl

theorem readable {i : Initiator} (hkeys : ∀ key ∈ i.publicKeys, key.IsAccepted) : Readable i :=
  .ofEnvelope fun _ h ↦ ⟨toEnvelope_ordered h, ofEnvelope_toEnvelope hkeys h⟩

/-- Initiators with the same envelope are the same, whether or not they would be read. -/
theorem toEnvelope_injective {i j : Initiator} {e : Envelope} (hi : i.toEnvelope = .ok e)
    (hj : j.toEnvelope = .ok e) : i = j := by
  cases i with
  | publicKey key =>
    have hkey : e.HoldsTagged 0 key := holdsTagged_of_ofTag_add hi
    cases j with
    | publicKey key' => rw [hkey.value_eq (holdsTagged_of_ofTag_add hj)]
    | accountHash account => exact absurd (hkey.tag_eq (holdsTagged_of_ofTag_add hj)) (by decide)
  | accountHash account =>
    have haccount : e.HoldsTagged 1 account := holdsTagged_of_ofTag_add hi
    cases j with
    | publicKey key => exact absurd (haccount.tag_eq (holdsTagged_of_ofTag_add hj)) (by decide)
    | accountHash account' => rw [haccount.value_eq (holdsTagged_of_ofTag_add hj)]

instance : Unambiguous Initiator := .ofEnvelope toEnvelope_ordered toEnvelope_injective

end Initiator

/-! ## Arguments -/

namespace TransactionArguments

/-- Every value reads back from what is written of it, if the arguments are values at all. -/
def RoundTrips (args : TransactionArguments) : Prop :=
  ∀ named, args.named? = some named → named.RoundTrips

theorem toEnvelope_ordered {args : TransactionArguments} {e : Envelope}
    (h : args.toEnvelope = .ok e) : e.Ordered := by
  cases args with
  | named named => exact (holdsTagged_of_ofTag_add h).ordered
  | encoded bytes => exact (holdsTagged_of_ofTag_add h).ordered

/-- Arguments read back from their envelope, if those that are named do. -/
theorem ofEnvelope_toEnvelope {args : TransactionArguments} {e : Envelope}
    (hargs : ∀ named, args.named? = some named → Readable named) (h : args.toEnvelope = .ok e) :
    ofEnvelope e = .ok args := by
  cases args with
  | named named =>
    have hnamed : Readable named := hargs named rfl
    obtain ⟨hmax, htag, hnamed⟩ := (holdsTagged_of_ofTag_add h).fields_eq_ok hnamed
    apply bind_of_eq_ok hmax
    apply bind_of_eq_ok htag
    exact bind_of_eq_ok hnamed rfl
  | encoded bytes =>
    obtain ⟨hmax, htag, hbytes⟩ :=
      (holdsTagged_of_ofTag_add h).fields_eq_ok (Lossless.readable bytes)
    apply bind_of_eq_ok hmax
    apply bind_of_eq_ok htag
    exact bind_of_eq_ok hbytes rfl

theorem readable {args : TransactionArguments}
    (hargs : ∀ named, args.named? = some named → Readable named) : Readable args :=
  .ofEnvelope fun _ h ↦ ⟨toEnvelope_ordered h, ofEnvelope_toEnvelope hargs h⟩

theorem RoundTrips.readable {args : TransactionArguments} (hargs : args.RoundTrips) :
    Readable args :=
  TransactionArguments.readable fun named hnamed ↦ (hargs named hnamed).readable

theorem toEnvelope_injective {args args' : TransactionArguments} {e : Envelope}
    (h : args.toEnvelope = .ok e) (h' : args'.toEnvelope = .ok e) : args = args' := by
  cases args with
  | named named =>
    have hnamed : e.HoldsTagged 0 named := holdsTagged_of_ofTag_add h
    cases args' with
    | named named' => rw [hnamed.value_eq (holdsTagged_of_ofTag_add h')]
    | encoded bytes => exact absurd (hnamed.tag_eq (holdsTagged_of_ofTag_add h')) (by decide)
  | encoded bytes =>
    have hbytes : e.HoldsTagged 1 bytes := holdsTagged_of_ofTag_add h
    cases args' with
    | named named => exact absurd (hbytes.tag_eq (holdsTagged_of_ofTag_add h')) (by decide)
    | encoded bytes' => rw [hbytes.value_eq (holdsTagged_of_ofTag_add h')]

instance : Unambiguous TransactionArguments := .ofEnvelope toEnvelope_ordered toEnvelope_injective

end TransactionArguments

end ChainClient
