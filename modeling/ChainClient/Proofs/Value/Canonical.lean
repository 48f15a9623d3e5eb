import ChainClient.Proofs.Address.Forms
import ChainClient.Proofs.Document.Parts
import ChainClient.Proofs.Wire.BigUInt
import ChainClient.Value.Native

/-!
# Canonical forms of native values

A reader of a native type without maps accepts a value in its written form only: no byte stands
for a flag in two ways, no number is padded, no tag is ignored. This holds of the types that hold
no others, and containers keep it, nested without bound. It fails for maps, whose entries are
accepted in any order.
-/

namespace ChainClient

open Wire (Canonical)

instance Scalar.canonical (s : Scalar) : Canonical s.Value := by
  cases s <;> exact inferInstance

/-- The types that are put together of others without maps. A tuple of three is a pair whose second
part is a pair. -/
inductive MapFree : (α : Type) → Wire α → Prop
  | scalar (s : Scalar) : MapFree s.Value s.wire
  | octets (size : Nat) : MapFree (Octets size) inferInstance
  | option {α : Type} [w : Wire α] (h : MapFree α w) : MapFree (Option α) inferInstance
  | list {α : Type} [w : Wire α] (h : MapFree α w) : MapFree (List α) inferInstance
  | result {α β : Type} [w : Wire α] [w' : Wire β] (ha : MapFree α w) (hb : MapFree β w') :
    MapFree (Except β α) inferInstance
  | pair {α β : Type} [w : Wire α] [w' : Wire β] (ha : MapFree α w) (hb : MapFree β w') :
    MapFree (α × β) inferInstance

namespace MapFree

theorem canonical {α : Type} [w : Wire α] (h : MapFree α w) : Canonical α := by
  induction h with
  | scalar s => exact s.canonical
  | octets size => exact inferInstanceAs (Canonical (Octets size))
  | option _ ih => exact inferInstance
  | list _ ih => exact inferInstance
  | result _ _ iha ihb => exact inferInstance
  | pair _ _ iha ihb => exact inferInstance

/-- A value that is read can be written, and the bytes that were used are those that it is written
as. -/
theorem used_eq_written {α : Type} [w : Wire α] (h : MapFree α w) {bytes rest : Bytes} {x : α}
    (hread : Wire.read bytes = .ok (x, rest)) :
    ∃ front, Wire.write x = .ok front ∧ bytes = front ++ rest :=
  h.canonical.write_of_read hread

/-- Two bytes with a number, nothing, and a byte that is left. -/
theorem used_eq_written_numbered :
    ∃ x : List (Option (Octets 2 × U128)),
      Wire.read [2, 0, 0, 0, 1, 7, 8, 1, 5, 0, 9] = .ok (x, [9]) ∧ ∃ front,
        Wire.write x = .ok front ∧ [2, 0, 0, 0, 1, 7, 8, 1, 5, 0, 9] = front ++ [9] := by
  have hfree : MapFree (List (Option (Octets 2 × U128))) inferInstance :=
    .list (.option (.pair (.octets 2) (.scalar .u128)))
  exact ⟨[some (⟨[7, 8], rfl⟩, ⟨5, by decide⟩), none], rfl, hfree.used_eq_written rfl⟩

end MapFree

end ChainClient
