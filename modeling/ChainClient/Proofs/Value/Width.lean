import ChainClient.Proofs.Address.Forms
import ChainClient.Proofs.Document.Parts
import ChainClient.Proofs.Value.Arguments
import ChainClient.Proofs.Wire.Width

/-!
# Widths of keys, typed values and arguments

Digests, accounts and keys have fixed widths, and a descriptor takes a byte for each constructor
and four more for the size of a byte array. A typed value is refused only for the length of its
bytes. An argument takes bytes for the length of its name at least, so a list of arguments is
not refused for having too many of them without bytes.
-/

namespace ChainClient

open Wire (Measured Writable)

/-! ## Digests and keys -/

instance : Measured Digest := .via

instance : Writable Digest := .via

instance : Measured AccountHash := .via

instance : Writable AccountHash := .via

instance : Measured PublicKey := .of_total (fun _ ↦ rfl) fun key ↦ by
  rw [PublicKey.tagged, List.length_cons, PublicKey.length_raw, Nat.add_comm]
  rfl

instance : Writable PublicKey := .of_total fun _ ↦ rfl

instance : Measured Signature := .of_total (fun _ ↦ rfl) fun signature ↦ by
  rw [Signature.tagged, List.length_cons, signature.raw.length_toList]
  rfl

instance : Measured AccessRights := .of_total (fun _ ↦ rfl) fun _ ↦ rfl

instance : Measured URef := by
  unfold URef.instWire
  exact .via

instance : Measured Key where
  length_eq {key bytes} hw := by
    cases key with
    | address kind octets => exact (Key.isWrittenTagged_address kind).length_eq hw
    | uref reference => exact Key.isWrittenTagged_uref.length_eq hw
    | era number => exact Key.isWrittenTagged_era.length_eq hw

/-! ## Typed values -/

/-- The written form of a type is as long as its stated width. -/
theorem ClType.length_bytes (t : ClType) : t.bytes.length = t.width := by
  induction t with
  | leaf l => rfl
  | byteArray size => rfl
  | option t ih | list t ih | tuple1 t ih =>
    simp only [bytes, width, List.length_cons, ih, Nat.add_comm]
  | result a b iha ihb | map a b iha ihb | tuple2 a b iha ihb =>
    simp only [bytes, width, List.length_cons, List.length_append, iha, ihb, Nat.add_comm]
  | tuple3 a b c iha ihb ihc =>
    simp only [bytes, width, List.length_cons, List.length_append, iha, ihb, ihc, Nat.add_comm]

instance : Measured ClType := .of_total (fun _ ↦ rfl) ClType.length_bytes

namespace ClValue

theorem width_eq (v : ClValue) : Wire.width v = 4 + v.payload.length + v.clType.width := rfl

instance : Measured ClValue where
  length_eq {v bytes} hw := by
    obtain ⟨front, hfront, rfl⟩ := write_eq_ok.1 hw
    rw [List.length_append, Wire.length_of_writeBlock hfront, ClType.length_bytes, width_eq]

instance : Writable ClValue where
  exists_write {v} hwidth := by
    have hpayload : v.payload.length < UInt32.size := by
      rw [width_eq] at hwidth
      omega
    obtain ⟨front, hfront⟩ := Wire.exists_writeBlock hpayload
    exact ⟨front ++ v.clType.bytes, write_eq_ok.2 ⟨front, hfront, rfl⟩⟩

end ClValue

/-! ## Arguments -/

namespace NamedArg

instance : Measured NamedArg := by
  unfold instWire
  exact .via

instance : Writable NamedArg := by
  unfold instWire
  exact .via

theorem width_pos (arg : NamedArg) : 0 < Wire.width arg := by
  have hwidth : Wire.width arg = 4 + arg.name.utf8ByteSize + Wire.width arg.value := rfl
  omega

end NamedArg

namespace Arguments

instance : Measured Arguments := .via

instance : Writable Arguments :=
  have := Writable.list NamedArg.width_pos
  .via

end Arguments

end ChainClient
