import ChainClient.Proofs.Transaction.Variants
import ChainClient.Proofs.Wire.Envelope.Canonical

/-!
# Canonical forms of the variants in a transaction

Each variant is accepted in its written form only: the fields that its parser takes out of an
envelope are all the fields there are, and the writer adds them again one after the other. The
parser bounds the indices before it takes the fields behind the tag, so nothing else can stand
in the envelope, and a field that may be left out is left out again.
-/

namespace ChainClient

open Wire (Canonical bind_eq_ok bind_unit_eq_ok bind_of_eq_ok pure_eq_ok)
open Envelope (consecutive eq_of_holds exists_slice_of_field_bind
  exists_slice_of_optionalField_bind)

/-! ## Pricing -/

namespace PricingMode

/-- A pricing mode is read from its own envelope only. -/
theorem toEnvelope_ofEnvelope {p : PricingMode} {e : Envelope} (he : e.IsReadable)
    (h : ofEnvelope e = .ok p) : p.toEnvelope = .ok e := by
  obtain ⟨tag, _, hwrite, htag, h⟩ := exists_slice_of_field_bind h
  obtain rfl := Except.ok.inj hwrite
  split at h
  case isTrue heq =>
    obtain rfl := heq
    obtain ⟨hmax, h⟩ := bind_unit_eq_ok.1 h
    obtain ⟨amount, _, hwriteAmount, hamount, h⟩ := exists_slice_of_field_bind h
    obtain ⟨tolerance, _, hwriteTolerance, htolerance, h⟩ := exists_slice_of_field_bind h
    obtain ⟨standard, _, hwriteStandard, hstandard, h⟩ := exists_slice_of_field_bind h
    obtain rfl := pure_eq_ok.1 h
    obtain rfl := eq_of_holds he.ordered hmax
      (.cons htag (.cons hamount (.cons htolerance (.cons hstandard .nil)))) rfl
    apply he.ofTag_bind rfl
    apply he.add_bind hwriteAmount rfl
    apply he.add_bind hwriteTolerance rfl
    exact he.add hwriteStandard rfl
  split at h
  case isTrue heq =>
    obtain rfl := heq
    obtain ⟨hmax, h⟩ := bind_unit_eq_ok.1 h
    obtain ⟨factor, _, hwriteFactor, hfactor, h⟩ := exists_slice_of_field_bind h
    obtain ⟨tolerance, _, hwriteTolerance, htolerance, h⟩ := exists_slice_of_field_bind h
    obtain rfl := pure_eq_ok.1 h
    obtain rfl := eq_of_holds he.ordered hmax
      (.cons htag (.cons hfactor (.cons htolerance .nil))) rfl
    apply he.ofTag_bind rfl
    apply he.add_bind hwriteFactor rfl
    exact he.add hwriteTolerance rfl
  split at h
  case isTrue heq =>
    obtain rfl := heq
    obtain ⟨hmax, h⟩ := bind_unit_eq_ok.1 h
    obtain ⟨receipt, hreceipt, h⟩ := bind_eq_ok.1 h
    obtain rfl := pure_eq_ok.1 h
    exact he.ofTag_add hmax htag hreceipt
  cases h

instance : Canonical PricingMode := .ofEnvelope toEnvelope_ofEnvelope

end PricingMode

/-! ## Types with one value -/

namespace Runtime

theorem ofTag_ofEnvelope {r : Runtime} {e : Envelope} (he : e.IsReadable)
    (h : ofEnvelope e = .ok r) : Envelope.ofTag 0 = .ok e := by
  obtain ⟨hmax, h⟩ := bind_unit_eq_ok.1 h
  obtain ⟨tag, _, hwrite, htag, h⟩ := exists_slice_of_field_bind h
  obtain rfl := Except.ok.inj hwrite
  split at h
  case isTrue heq =>
    obtain rfl := heq
    exact he.ofTag_eq hmax htag
  cases h

instance : Canonical Runtime := .ofEnvelope ofTag_ofEnvelope

end Runtime

namespace Scheduling

theorem ofTag_ofEnvelope {s : Scheduling} {e : Envelope} (he : e.IsReadable)
    (h : ofEnvelope e = .ok s) : Envelope.ofTag 0 = .ok e := by
  obtain ⟨hmax, h⟩ := bind_unit_eq_ok.1 h
  obtain ⟨tag, _, hwrite, htag, h⟩ := exists_slice_of_field_bind h
  obtain rfl := Except.ok.inj hwrite
  split at h
  case isTrue heq =>
    obtain rfl := heq
    exact he.ofTag_eq hmax htag
  cases h

instance : Canonical Scheduling := .ofEnvelope ofTag_ofEnvelope

end Scheduling

/-! ## What is called -/

namespace InvocationTarget

/-- Both versions of a package are added again, chosen or not. -/
theorem addOptional_of_versions {tag first : Bytes} {version protocolMajor : Option UInt32}
    {slice slice' : Option Bytes}
    (he : (⟨consecutive 0 [some tag, some first, slice, slice']⟩ : Envelope).IsReadable)
    (hversion : Option.Rel (fun x slice ↦ Wire.write x = .ok slice) version slice)
    (hmajor : Option.Rel (fun x slice ↦ Wire.write x = .ok slice) protocolMajor slice') :
    (do
      let e ← (⟨[] ++ [(0, tag)] ++ [(1, first)]⟩ : Envelope).addOptional 2 version
      e.addOptional 3 protocolMajor) =
      .ok ⟨consecutive 0 [some tag, some first, slice, slice']⟩ := by
  cases hversion with
  | none =>
    cases hmajor with
    | none => rfl
    | some hmajor =>
      change (⟨[] ++ [(0, tag)] ++ [(1, first)]⟩ : Envelope).add 3 _ = _
      exact he.add hmajor rfl
  | some hversion =>
    cases hmajor with
    | none => exact he.add_bind hversion rfl rfl
    | some hmajor =>
      apply he.add_bind hversion rfl
      exact he.add hmajor rfl

theorem toEnvelope_ofEnvelope {target : InvocationTarget} {e : Envelope} (he : e.IsReadable)
    (h : ofEnvelope e = .ok target) : target.toEnvelope = .ok e := by
  obtain ⟨tag, _, hwrite, htag, h⟩ := exists_slice_of_field_bind h
  obtain rfl := Except.ok.inj hwrite
  split at h
  case isTrue heq =>
    obtain rfl := heq
    obtain ⟨hmax, h⟩ := bind_unit_eq_ok.1 h
    obtain ⟨hash, hhash, h⟩ := bind_eq_ok.1 h
    obtain rfl := pure_eq_ok.1 h
    exact he.ofTag_add hmax htag hhash
  split at h
  case isTrue heq =>
    obtain rfl := heq
    obtain ⟨hmax, h⟩ := bind_unit_eq_ok.1 h
    obtain ⟨name, hname, h⟩ := bind_eq_ok.1 h
    obtain rfl := pure_eq_ok.1 h
    exact he.ofTag_add hmax htag hname
  split at h
  case isTrue heq =>
    obtain rfl := heq
    obtain ⟨hmax, h⟩ := bind_unit_eq_ok.1 h
    obtain ⟨hash, _, hwriteHash, hhash, h⟩ := exists_slice_of_field_bind h
    obtain ⟨version, _, hwriteVersion, hversion, h⟩ := exists_slice_of_optionalField_bind h
    obtain ⟨major, _, hwriteMajor, hmajor, h⟩ := exists_slice_of_optionalField_bind h
    obtain rfl := pure_eq_ok.1 h
    obtain rfl := eq_of_holds he.ordered hmax
      (.cons htag (.cons hhash (.cons hversion (.cons hmajor .nil)))) rfl
    apply he.ofTag_bind rfl
    apply he.add_bind hwriteHash rfl
    exact addOptional_of_versions he hwriteVersion hwriteMajor
  split at h
  case isTrue heq =>
    obtain rfl := heq
    obtain ⟨hmax, h⟩ := bind_unit_eq_ok.1 h
    obtain ⟨name, _, hwriteName, hname, h⟩ := exists_slice_of_field_bind h
    obtain ⟨version, _, hwriteVersion, hversion, h⟩ := exists_slice_of_optionalField_bind h
    obtain ⟨major, _, hwriteMajor, hmajor, h⟩ := exists_slice_of_optionalField_bind h
    obtain rfl := pure_eq_ok.1 h
    obtain rfl := eq_of_holds he.ordered hmax
      (.cons htag (.cons hname (.cons hversion (.cons hmajor .nil)))) rfl
    apply he.ofTag_bind rfl
    apply he.add_bind hwriteName rfl
    exact addOptional_of_versions he hwriteVersion hwriteMajor
  cases h

instance : Canonical InvocationTarget := .ofEnvelope toEnvelope_ofEnvelope

end InvocationTarget

namespace Target

theorem toEnvelope_ofEnvelope {target : Target} {e : Envelope} (he : e.IsReadable)
    (h : ofEnvelope e = .ok target) : target.toEnvelope = .ok e := by
  obtain ⟨tag, _, hwrite, htag, h⟩ := exists_slice_of_field_bind h
  obtain rfl := Except.ok.inj hwrite
  split at h
  case isTrue heq =>
    obtain rfl := heq
    obtain ⟨hmax, h⟩ := bind_unit_eq_ok.1 h
    obtain rfl := pure_eq_ok.1 h
    exact he.ofTag_eq hmax htag
  split at h
  case isTrue heq =>
    obtain rfl := heq
    obtain ⟨hmax, h⟩ := bind_unit_eq_ok.1 h
    obtain ⟨id, _, hwriteId, hid, h⟩ := exists_slice_of_field_bind h
    obtain ⟨runtime, _, hwriteRuntime, hruntime, h⟩ := exists_slice_of_field_bind h
    obtain rfl := pure_eq_ok.1 h
    obtain rfl := eq_of_holds he.ordered hmax (.cons htag (.cons hid (.cons hruntime .nil))) rfl
    apply he.ofTag_bind rfl
    apply he.add_bind hwriteId rfl
    exact he.add hwriteRuntime rfl
  split at h
  case isTrue heq =>
    obtain rfl := heq
    obtain ⟨hmax, h⟩ := bind_unit_eq_ok.1 h
    obtain ⟨upgrade, _, hwriteUpgrade, hupgrade, h⟩ := exists_slice_of_field_bind h
    obtain ⟨runtime, _, hwriteRuntime, hruntime, h⟩ := exists_slice_of_field_bind h
    obtain ⟨code, _, hwriteCode, hcode, h⟩ := exists_slice_of_field_bind h
    obtain rfl := pure_eq_ok.1 h
    obtain rfl := eq_of_holds he.ordered hmax
      (.cons htag (.cons hupgrade (.cons hruntime (.cons hcode .nil)))) rfl
    apply he.ofTag_bind rfl
    apply he.add_bind hwriteUpgrade rfl
    apply he.add_bind hwriteRuntime rfl
    exact he.add hwriteCode rfl
  cases h

instance : Canonical Target := .ofEnvelope toEnvelope_ofEnvelope

end Target

namespace SystemOperation

/-- A tag stands for one operation only, so writing the operation gives the tag back. -/
theorem tag_of_ofTag? {tag : UInt8} {operation : SystemOperation}
    (h : ofTag? tag = some operation) : operation.tag = tag :=
  eq_of_beq (List.find?_some (p := fun op : SystemOperation ↦ op.tag == tag) h)

end SystemOperation

namespace EntryPoint

theorem toEnvelope_ofEnvelope {entryPoint : EntryPoint} {e : Envelope} (he : e.IsReadable)
    (h : ofEnvelope e = .ok entryPoint) : entryPoint.toEnvelope = .ok e := by
  obtain ⟨tag, _, hwrite, htag, h⟩ := exists_slice_of_field_bind h
  obtain rfl := Except.ok.inj hwrite
  split at h
  case isTrue heq =>
    obtain rfl := heq
    obtain ⟨hmax, h⟩ := bind_unit_eq_ok.1 h
    obtain ⟨name, hname, h⟩ := bind_eq_ok.1 h
    obtain rfl := pure_eq_ok.1 h
    exact he.ofTag_add hmax htag hname
  -- All the other variants are a tag alone.
  obtain ⟨hmax, hnext⟩ := bind_unit_eq_ok.1 h
  split at hnext
  case isTrue heq =>
    obtain rfl := heq
    obtain rfl := pure_eq_ok.1 hnext
    exact he.ofTag_eq hmax htag
  cases hoperation : SystemOperation.ofTag? tag with
  | none =>
    rw [hoperation] at hnext
    cases hnext
  | some operation =>
    rw [hoperation] at hnext
    obtain rfl := pure_eq_ok.1 hnext
    rw [← SystemOperation.tag_of_ofTag? hoperation] at htag
    exact he.ofTag_eq hmax htag

instance : Canonical EntryPoint := .ofEnvelope toEnvelope_ofEnvelope

end EntryPoint

/-! ## Who starts it -/

namespace Initiator

theorem toEnvelope_ofEnvelope {i : Initiator} {e : Envelope} (he : e.IsReadable)
    (h : ofEnvelope e = .ok i) : i.toEnvelope = .ok e := by
  obtain ⟨hmax, h⟩ := bind_unit_eq_ok.1 h
  obtain ⟨tag, _, hwrite, htag, h⟩ := exists_slice_of_field_bind h
  obtain rfl := Except.ok.inj hwrite
  split at h
  case isTrue heq =>
    obtain rfl := heq
    obtain ⟨key, hkey, h⟩ := bind_eq_ok.1 h
    obtain rfl := pure_eq_ok.1 h
    exact he.ofTag_add hmax htag hkey
  split at h
  case isTrue heq =>
    obtain rfl := heq
    obtain ⟨account, haccount, h⟩ := bind_eq_ok.1 h
    obtain rfl := pure_eq_ok.1 h
    exact he.ofTag_add hmax htag haccount
  cases h

instance : Canonical Initiator := .ofEnvelope toEnvelope_ofEnvelope

end Initiator

/-! ## Arguments -/

namespace TransactionArguments

theorem toEnvelope_ofEnvelope {args : TransactionArguments} {e : Envelope} (he : e.IsReadable)
    (h : ofEnvelope e = .ok args) : args.toEnvelope = .ok e := by
  obtain ⟨hmax, h⟩ := bind_unit_eq_ok.1 h
  obtain ⟨tag, _, hwrite, htag, h⟩ := exists_slice_of_field_bind h
  obtain rfl := Except.ok.inj hwrite
  split at h
  case isTrue heq =>
    obtain rfl := heq
    obtain ⟨named, hnamed, h⟩ := bind_eq_ok.1 h
    obtain rfl := pure_eq_ok.1 h
    exact he.ofTag_add hmax htag hnamed
  split at h
  case isTrue heq =>
    obtain rfl := heq
    obtain ⟨bytes, hbytes, h⟩ := bind_eq_ok.1 h
    obtain rfl := pure_eq_ok.1 h
    exact he.ofTag_add hmax htag hbytes
  cases h

instance : Canonical TransactionArguments := .ofEnvelope toEnvelope_ofEnvelope

end TransactionArguments

end ChainClient
