import ChainClient.Proofs.Value.Builders
import ChainClient.Transfer
import Mathlib.Data.List.Forall2

/-!
# Arguments of native operations

Transfers and staking make their arguments from native values, which are passed under fixed names,
each with its type and its bytes, in the order in which they are listed here. Making them never
fails.
-/

namespace ChainClient

/-- A native value under a name. -/
structure NativeArg where
  name : String
  type : Native
  value : type.Value

namespace NativeArg

/-- The typed value has the type and the bytes of the native one. -/
def IsPassedAs (given : NativeArg) (arg : NamedArg) : Prop :=
  arg.name = given.name ∧ given.type.clType? = some arg.value.clType ∧
    Wire.write given.value = .ok arg.value.payload

end NativeArg

namespace Arguments

/-- The arguments are the given values, in their order and without any others. -/
def Pass (args : Arguments) (given : List NativeArg) : Prop :=
  List.Forall₂ NativeArg.IsPassedAs given args.toList

/-- The arguments are made, and they are the given values. -/
def IsMadeOf (made : Except ClValueError Arguments) (given : List NativeArg) : Prop :=
  ∃ args, made = .ok args ∧ args.Pass given

variable {args : Arguments} {made : Except ClValueError Arguments} {given given' : List NativeArg}

/-- Making arguments in steps, each of which passes what it has got so far. -/
theorem IsMadeOf.bind {f : Arguments → Except ClValueError Arguments} (h : IsMadeOf made given)
    (hnext : ∀ args, args.Pass given → IsMadeOf (f args) given') :
    IsMadeOf (made >>= f) given' := by
  obtain ⟨args, rfl, hargs⟩ := h
  exact hnext args hargs

theorem pass_empty : empty.Pass [] := .nil

/-- A typed value that was made of a native one is passed under its name. -/
theorem Pass.push (h : args.Pass given) (name : String) {t : Native} {clType : ClType}
    {ht : t.clType? = some clType} {x : t.Value} {v : ClValue}
    (hv : ClValue.ofNative t ht x = .ok v) :
    (args.push name v).Pass (given ++ [⟨name, t, x⟩]) := by
  obtain ⟨rfl, hw⟩ := ClValue.ofNative_eq_ok.1 hv
  exact List.rel_append h (.cons ⟨rfl, ht, hw⟩ .nil)

/-- A native value that can be written is added as the last argument. -/
theorem Pass.insert (h : args.Pass given) (name : String) {t : Native} {clType : ClType}
    (ht : t.clType? = some clType) {x : t.Value} {payload : Bytes}
    (hw : Wire.write x = .ok payload) :
    IsMadeOf (args.insert name t ht x) (given ++ [⟨name, t, x⟩]) := by
  have hv : ClValue.ofNative t ht x = .ok ⟨clType, payload⟩ := ClValue.ofNative_eq_ok.2 ⟨rfl, hw⟩
  exact ⟨args.push name ⟨clType, payload⟩, Wire.bind_of_eq_ok hv rfl, h.push name hv⟩

end Arguments

namespace TransferTarget

/-- An account is passed as the bytes of its hash. -/
def arg : TransferTarget → NativeArg
  | .publicKey key => ⟨"target", .scalar .publicKey, key⟩
  | .accountHash account => ⟨"target", .byteArray 32, account.bytes⟩
  | .uref purse => ⟨"target", .scalar .uref, purse⟩

/-- The target of a transfer is one argument of its own type. -/
theorem isMadeOf_addTo {args : Arguments} {given : List NativeArg} (h : args.Pass given)
    (target : TransferTarget) : Arguments.IsMadeOf (target.addTo args) (given ++ [target.arg]) := by
  cases target <;> exact h.insert "target" rfl rfl

end TransferTarget

namespace Arguments

/-- The amount of a transfer, the purse it comes from if one is given, and its target. -/
def transferArgs (amount : U512) (source : Option URef) (target : TransferTarget) :
    List NativeArg :=
  [⟨"amount", .scalar .u512, amount⟩] ++
    (source.map fun purse ↦ ⟨"source", .scalar .uref, purse⟩).toList ++ [target.arg]

/-- The stake of a delegator with a validator. -/
def stakeArgs (delegator validator : PublicKey) (amount : U512) : List NativeArg :=
  [⟨"delegator", .scalar .publicKey, delegator⟩, ⟨"validator", .scalar .publicKey, validator⟩,
    ⟨"amount", .scalar .u512, amount⟩]

/-- The arguments of a transfer are made of the amount, the source and the target. -/
theorem isMadeOf_transfer (amount : U512) (source : Option URef) (target : TransferTarget) :
    IsMadeOf (transfer amount source target) (transferArgs amount source target) := by
  refine (pass_empty.insert "amount" rfl rfl).bind fun args hargs ↦ ?_
  cases source with
  | none => exact target.isMadeOf_addTo hargs
  | some purse =>
    exact (hargs.insert "source" rfl rfl).bind fun args hargs ↦ target.isMadeOf_addTo hargs

/-- The arguments of staking are made of both parties and the amount. -/
theorem isMadeOf_staking (delegator validator : PublicKey) (amount : U512) :
    IsMadeOf (staking delegator validator amount) (stakeArgs delegator validator amount) :=
  (pass_empty.insert "delegator" rfl rfl).bind fun _ hargs ↦
    (hargs.insert "validator" rfl rfl).bind fun _ hargs ↦ hargs.insert "amount" rfl rfl

/-- Moving a stake adds the new validator to the arguments of staking. -/
theorem isMadeOf_restaking (delegator validator newValidator : PublicKey) (amount : U512) :
    IsMadeOf (restaking delegator validator newValidator amount)
      (stakeArgs delegator validator amount ++
        [⟨"new_validator", .scalar .publicKey, newValidator⟩]) :=
  (isMadeOf_staking delegator validator amount).bind fun _ hargs ↦
    hargs.insert "new_validator" rfl rfl

end Arguments

end ChainClient
