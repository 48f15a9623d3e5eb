import ChainClient.Address.Key
import ChainClient.Proofs.Wire.Container

/-!
# Forms of references and keys

References and keys are exact: the rights are checked by the reader and fit their byte, and a
tag determines the kind of a key.
-/

namespace ChainClient

/-! ## References -/

namespace AccessRights

theorem ofBits?_eq_some {bits : UInt8} {a : AccessRights} :
    ofBits? bits = some a ↔ bits = a.bits := by
  unfold ofBits?
  constructor
  · intro h
    split at h
    · obtain rfl := Option.some.inj h
      rfl
    · cases h
  · rintro rfl
    exact dif_pos a.bits_le

instance : Wire.Exact AccessRights := .of_read_eq_ok fun {bytes rest a} ↦ by
  cases bytes with
  | nil => simp [Wire.read, Wire.write]
  | cons bits bytes =>
    have hread : (Wire.read (bits :: bytes) : Except WireError (AccessRights × Bytes)) =
        match ofBits? bits with
        | some a => .ok (a, bytes)
        | none => .error (.malformed .badAccessRights) := rfl
    have hwrite (front : Bytes) : Wire.write a = .ok front ↔ [a.bits] = front :=
      ⟨Except.ok.inj, congrArg Except.ok⟩
    rw [hread]
    simp only [hwrite, exists_eq_left', List.singleton_append, List.cons.injEq]
    cases hbits : ofBits? bits with
    | none =>
      have hne : bits ≠ a.bits := fun heq ↦ by simp [ofBits?_eq_some.2 heq] at hbits
      simp [hne]
    | some b =>
      have hb := ofBits?_eq_some.1 hbits
      constructor
      · intro h
        obtain ⟨rfl, rfl⟩ := Prod.mk.inj (Except.ok.inj h)
        exact ⟨hb, rfl⟩
      · rintro ⟨ha, rfl⟩
        obtain rfl : b = a := Option.some.inj (hbits.symm.trans (ofBits?_eq_some.2 ha))
        rfl

instance : Wire.UniformlyEmpty AccessRights := .of_ne_nil fun _ h ↦ nomatch h

end AccessRights

namespace URef

instance : Wire.Exact URef := by
  unfold instWire
  exact .via (fun _ ↦ rfl) fun _ ↦ rfl

instance : Wire.UniformlyEmpty URef := by
  unfold instWire
  exact .via

end URef

/-! ## Keys -/

namespace AddressKind

/-- A tag stands for one kind only, so writing the kind gives the tag back. -/
theorem tag_of_ofTag? {tag : UInt8} {kind : AddressKind} (h : ofTag? tag = some kind) :
    kind.tag = tag :=
  eq_of_beq (List.find?_some (p := fun kind : AddressKind ↦ kind.tag == tag) h)

end AddressKind

namespace Key

open Wire (IsWrittenTagged IsReadTagged)

/-- An address of a kind is the tag of the kind and then its 32 bytes. -/
theorem isWrittenTagged_address (kind : AddressKind) :
    IsWrittenTagged kind.tag (Key.address kind) := fun _ ↦ rfl

theorem isWrittenTagged_uref : IsWrittenTagged 2 Key.uref := fun _ ↦ rfl

theorem isWrittenTagged_era : IsWrittenTagged 5 Key.era := fun _ ↦ rfl

theorem isReadTagged_address (kind : AddressKind) :
    IsReadTagged kind.tag (Key.address kind) := fun bytes ↦ by cases kind <;> rfl

theorem isReadTagged_uref : IsReadTagged 2 Key.uref := fun _ ↦ rfl

theorem isReadTagged_era : IsReadTagged 5 Key.era := fun _ ↦ rfl

/-- Every key that is read has one written form, the bytes that were taken. -/
theorem write_of_read {bytes rest : Bytes} {key : Key} (h : Wire.read bytes = .ok (key, rest)) :
    ∃ front, Wire.write key = .ok front ∧ bytes = front ++ rest := by
  cases bytes with
  | nil => cases h
  | cons tag bytes =>
    change (if tag = 2 then _ else if tag = 5 then _ else _) = Except.ok (key, rest) at h
    split at h
    case isTrue htag => exact htag ▸ isWrittenTagged_uref.write_of_read h
    split at h
    case isTrue htag => exact htag ▸ isWrittenTagged_era.write_of_read h
    cases hkind : AddressKind.ofTag? tag with
    | none =>
      rw [hkind] at h
      cases h
    | some kind =>
      rw [hkind] at h
      rw [← AddressKind.tag_of_ofTag? hkind]
      exact (isWrittenTagged_address kind).write_of_read h

instance : Wire.Exact Key where
  readable
    | .address kind bytes =>
      .tagged (isWrittenTagged_address kind) (isReadTagged_address kind)
        (Wire.Lossless.readable bytes)
    | .uref reference =>
      .tagged isWrittenTagged_uref isReadTagged_uref (Wire.Lossless.readable reference)
    | .era number => .tagged isWrittenTagged_era isReadTagged_era (Wire.Lossless.readable number)
  write_of_read := write_of_read

instance : Wire.UniformlyEmpty Key := .of_ne_nil fun key h ↦ by
  cases key <;> cases h

end Key

end ChainClient
