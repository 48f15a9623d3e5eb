import ChainClient.Proofs.Deploy.Forms
import ChainClient.Proofs.Transaction.Exact
import ChainClient.Proofs.Transaction.Forms
import ChainClient.Value.Native

/-!
# Widths of documents

The width of a deploy or of a transaction is computed field by field, without writing any of
them. It is nevertheless the length of what is written: alternatives add a byte for their tag,
records add up their parts, and an envelope adds its table, whose size follows from the number
of fields. The fields of a transaction stand in a map, so each of them takes six bytes more than
its own form, two for its number and four for its length.

All types with a binary form are gathered in one predicate at the end, closed under containers
that nest without bound.
-/

namespace ChainClient

open Wire (Measured Writable bind_eq_ok)
open Envelope (Builds BuildsLengths)

/-! ## Parts of documents -/

instance : Measured Timestamp := .via

instance : Writable Timestamp := .via

instance : Measured Duration := .via

instance : Writable Duration := .via

instance : Measured DeployHash := .via

instance : Measured TransactionHash := .via

instance : Writable TransactionHash := .via

instance : Writable Signature := .of_total fun _ ↦ rfl

namespace Approval

instance : Measured Approval := by
  unfold instWire
  exact .via

instance : Writable Approval := by
  unfold instWire
  exact .via

theorem width_pos (a : Approval) : 0 < Wire.width a := by
  have hwidth : Wire.width a = Wire.width a.signer + 65 := rfl
  omega

instance : Writable (List Approval) := .list width_pos

end Approval

/-! ## Deploys -/

namespace ExecutableItem

instance : Measured ExecutableItem where
  length_eq {item bytes} hw := by
    cases item with
    | moduleBytes code args => exact isWrittenTagged_module.length_eq (x := (code, args)) hw
    | byHash hash entryPoint args =>
      exact isWrittenTagged_hash.length_eq (x := (hash, entryPoint, args)) hw
    | byName name entryPoint args =>
      exact isWrittenTagged_name.length_eq (x := (name, entryPoint, args)) hw
    | versionedByHash hash version entryPoint args =>
      exact isWrittenTagged_versionedHash.length_eq (x := (hash, version, entryPoint, args)) hw
    | versionedByName name version entryPoint args =>
      exact isWrittenTagged_versionedName.length_eq (x := (name, version, entryPoint, args)) hw
    | transfer args => exact isWrittenTagged_transfer.length_eq hw

end ExecutableItem

instance : Measured DeployHeader := .via

instance : Measured Deploy := .via

/-! ## Transactions -/

instance : Measured PricingMode := .ofEnvelope PricingMode.buildsLengths

instance : Writable PricingMode := .ofEnvelope PricingMode.buildsLengths

instance : Measured Scheduling := .ofEnvelope fun _ ↦ buildsLengths_ofTag 0

instance : Writable Scheduling := .ofEnvelope fun _ ↦ buildsLengths_ofTag 0

instance : Measured Target := .ofEnvelope Target.buildsLengths

instance : Writable Target := .ofEnvelope Target.buildsLengths

instance : Measured EntryPoint := .ofEnvelope EntryPoint.buildsLengths

instance : Writable EntryPoint := .ofEnvelope EntryPoint.buildsLengths

instance : Measured Initiator := .ofEnvelope Initiator.buildsLengths

instance : Writable Initiator := .ofEnvelope Initiator.buildsLengths

instance : Measured TransactionArguments := .ofEnvelope TransactionArguments.buildsLengths

instance : Writable TransactionArguments := .ofEnvelope TransactionArguments.buildsLengths

namespace TransactionFields

/-- Fields have a table of four entries in front of the bytes of each. -/
theorem width_eq (fields : TransactionFields) : Wire.width fields =
    28 + Wire.width fields.args + Wire.width fields.target + Wire.width fields.entryPoint +
      Wire.width fields.scheduling := by
  have hdef : Wire.width fields = 4 + (6 + Wire.width fields.args) +
    (6 + Wire.width fields.target) + (6 + Wire.width fields.entryPoint) +
      (6 + Wire.width fields.scheduling) := rfl
  omega

/-- The width of a map of four blobs. -/
theorem width_table (args target entryPoint scheduling : Blob) :
    Wire.width (.ofList [(0, args), (1, target), (2, entryPoint), (3, scheduling)] : Table) =
      28 + args.toList.length + target.toList.length + entryPoint.toList.length +
        scheduling.toList.length := by
  have hdef : Wire.width (.ofList [(0, args), (1, target), (2, entryPoint), (3, scheduling)] :
    Table) = 4 + ((2 + (4 + args.toList.length)) + ((2 + (4 + target.toList.length)) +
      ((2 + (4 + entryPoint.toList.length)) + ((2 + (4 + scheduling.toList.length)) + 0)))) := rfl
  omega

/-- A part that is shorter than the limit of a length can be put into a table. -/
theorem exists_blobOf {α : Type} [Wire α] [Writable α] {x : α} (h : Wire.width x < UInt32.size) :
    ∃ blob, blobOf x = .ok blob := by
  obtain ⟨bytes, hw⟩ := Writable.exists_write h
  exact ⟨⟨bytes⟩, blobOf_eq_ok.2 hw⟩

/-- Fields that are shorter than the limit of a length have a table. -/
theorem exists_toTable {fields : TransactionFields} (h : Wire.width fields < UInt32.size) :
    ∃ table, fields.toTable = .ok table := by
  rw [width_eq] at h
  obtain ⟨args, hargs⟩ := exists_blobOf (x := fields.args) (by omega)
  obtain ⟨target, htarget⟩ := exists_blobOf (x := fields.target) (by omega)
  obtain ⟨entryPoint, hentryPoint⟩ := exists_blobOf (x := fields.entryPoint) (by omega)
  obtain ⟨scheduling, hscheduling⟩ := exists_blobOf (x := fields.scheduling) (by omega)
  simp only [toTable, hargs, htarget, hentryPoint, hscheduling, Wire.ok_bind]
  exact ⟨_, rfl⟩

/-- A number of 16 bits takes bytes, so no entry of a table is without any. -/
instance : Writable Table := .map fun entry ↦ by
  have hwidth : Wire.width entry = 2 + Wire.width entry.2 := rfl
  omega

/-- The table of fields is as wide as they were said to be. -/
theorem width_of_toTable {fields : TransactionFields} {table : Table}
    (h : fields.toTable = .ok table) : Wire.width table = Wire.width fields := by
  obtain ⟨args, target, entryPoint, scheduling, hargs, htarget, hentryPoint, hscheduling,
    rfl⟩ := exists_blobs_of_toTable h
  rw [width_table, width_eq, Measured.length_eq hargs, Measured.length_eq htarget,
    Measured.length_eq hentryPoint, Measured.length_eq hscheduling]

instance : Measured TransactionFields where
  length_eq {fields bytes} hw := by
    obtain ⟨table, htable, hbytes⟩ := bind_eq_ok.1 hw
    rw [Measured.length_eq hbytes, width_of_toTable htable]

instance : Writable TransactionFields where
  exists_write {fields} hwidth := by
    obtain ⟨table, htable⟩ := exists_toTable hwidth
    rw [← width_of_toTable htable] at hwidth
    obtain ⟨bytes, hbytes⟩ := Writable.exists_write hwidth
    exact ⟨bytes, Wire.bind_of_eq_ok htable hbytes⟩

end TransactionFields

namespace Payload

/-- The lengths that a payload states are those of the parts of its envelope. -/
theorem buildsLengths (p : Payload) : BuildsLengths p.toEnvelope p.lengths := by
  have hbuilds := (((((Builds.empty.add 0 p.initiator (by simp)).add 1 p.timestamp
    (by simp)).add 2 p.ttl (by simp)).add 3 p.chainName (by simp)).add 4 p.pricingMode
    (by simp)).add 5 p.fields (by simp)
  simp only [bind_assoc] at hbuilds
  exact ⟨_, hbuilds, rfl⟩

instance : Measured Payload := .ofEnvelope buildsLengths

instance : Writable Payload := .ofEnvelope buildsLengths

end Payload

namespace Transaction

/-- The lengths that a transaction states are those of the parts of its envelope. -/
theorem buildsLengths (t : Transaction) : BuildsLengths t.toEnvelope t.lengths := by
  have hbuilds := ((Builds.empty.add 0 t.hash (by simp)).add 1 t.payload
    (by simp)).add 2 t.approvals (by simp)
  simp only [bind_assoc] at hbuilds
  exact ⟨_, hbuilds, rfl⟩

instance : Measured Transaction := .ofEnvelope buildsLengths

end Transaction

/-! ## All forms -/

instance Scalar.measured (s : Scalar) : Measured s.Value := by
  cases s <;> exact inferInstance

/-- The types with a binary form, and their forms. A tuple of three is a pair whose second part
is a pair. -/
inductive IsForm : (α : Type) → Wire α → Prop
  | scalar (s : Scalar) : IsForm s.Value s.wire
  | octets (size : Nat) : IsForm (Octets size) inferInstance
  | clType : IsForm ClType inferInstance
  | clValue : IsForm ClValue inferInstance
  | namedArg : IsForm NamedArg inferInstance
  | arguments : IsForm Arguments inferInstance
  | timestamp : IsForm Timestamp inferInstance
  | duration : IsForm Duration inferInstance
  | deployHash : IsForm DeployHash inferInstance
  | transactionHash : IsForm TransactionHash inferInstance
  | approval : IsForm Approval inferInstance
  | executableItem : IsForm ExecutableItem inferInstance
  | deployHeader : IsForm DeployHeader inferInstance
  | deploy : IsForm Deploy inferInstance
  | initiator : IsForm Initiator inferInstance
  | pricingMode : IsForm PricingMode inferInstance
  | runtime : IsForm Runtime inferInstance
  | scheduling : IsForm Scheduling inferInstance
  | invocationTarget : IsForm InvocationTarget inferInstance
  | target : IsForm Target inferInstance
  | entryPoint : IsForm EntryPoint inferInstance
  | transactionArguments : IsForm TransactionArguments inferInstance
  | transactionFields : IsForm TransactionFields inferInstance
  | payload : IsForm Payload inferInstance
  | transaction : IsForm Transaction inferInstance
  | option {α : Type} [w : Wire α] (h : IsForm α w) : IsForm (Option α) inferInstance
  | list {α : Type} [w : Wire α] (h : IsForm α w) : IsForm (List α) inferInstance
  | result {α β : Type} [w : Wire α] [w' : Wire β] (ha : IsForm α w) (hb : IsForm β w') :
    IsForm (Except β α) inferInstance
  | map {α β : Type} [w : Wire α] [w' : Wire β] (key : α → List Int) (ha : IsForm α w)
    (hb : IsForm β w') : IsForm (SortedMap α key β) inferInstance
  | pair {α β : Type} [w : Wire α] [w' : Wire β] (ha : IsForm α w) (hb : IsForm β w') :
    IsForm (α × β) inferInstance

namespace IsForm

/-- All forms are measured: leaves by themselves and containers by their elements. -/
theorem measured {α : Type} [w : Wire α] (h : IsForm α w) : Measured α := by
  induction h with
  | scalar s => exact s.measured
  | octets size => exact inferInstanceAs (Measured (Octets size))
  | option _ ih => exact inferInstance
  | list _ ih => exact inferInstance
  | result _ _ iha ihb => exact inferInstance
  | map key _ _ iha ihb => exact inferInstance
  | pair _ _ iha ihb => exact inferInstance
  | _ => exact inferInstance

/-- The width of a value, which is computed without writing it, is the length of what is
written. -/
theorem length_eq_width {α : Type} [w : Wire α] (h : IsForm α w) {x : α} {bytes : Bytes}
    (hw : Wire.write x = .ok bytes) : bytes.length = Wire.width x :=
  h.measured.length_eq hw

/-- Two documents and the price of both, a number of three bytes. -/
def priced : List (Option Deploy × Transaction × U512) :=
  [(some .approved, .approved, ⟨70000, by decide⟩)]

/-- A deploy that pays with a module takes the 881 bytes that its width says. -/
theorem length_eq_width_priced :
    ∃ bytes, Wire.write priced = .ok bytes ∧ bytes.length = 881 := by
  have hform : IsForm (List (Option Deploy × Transaction × U512)) inferInstance :=
    .list (.pair (.option .deploy) (.pair .transaction (.scalar .u512)))
  obtain ⟨bytes, hw⟩ : ∃ bytes, Wire.write priced = .ok bytes :=
    Wire.exists_eq_ok_of_isSome (by decide +kernel)
  have hwidth : Wire.width priced = 881 := by decide +kernel
  exact ⟨bytes, hw, (hform.length_eq_width hw).trans hwidth⟩

end IsForm

end ChainClient
