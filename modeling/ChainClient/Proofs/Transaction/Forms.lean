import ChainClient.Proofs.Transaction.Variants
import ChainClient.Transaction.Basic

/-!
# The form of transactions

Four layers are written around what a transaction does: the form of each field stands in a map
from numbers to bytes, the map in the envelope of the payload, and the payload in that of the
transaction. Each layer gives back exactly the bytes it was given, so a transaction reads back
if its keys are accepted and its named arguments read back.
-/

namespace ChainClient

open Wire (Readable Lossless Unambiguous bind_eq_ok bind_of_eq_ok bind_unit_eq_ok)
open Envelope (Ordered Ascending exists_slice_of_add exists_slice_of_add_bind field_bind_eq_ok)

/-! ## Fields -/

namespace TransactionFields

/-- A part of the table is what is written of the field. -/
theorem blobOf_eq_ok {α : Type} [Wire α] {x : α} {blob : Blob} :
    blobOf x = .ok blob ↔ Wire.write x = .ok blob.toList := by
  unfold blobOf
  rw [bind_eq_ok]
  constructor
  · rintro ⟨bytes, hbytes, h⟩
    obtain rfl := Wire.pure_eq_ok.1 h
    exact hbytes
  · intro h
    exact ⟨blob.toList, h, rfl⟩

/-- The blobs of the four fields, in the order of the map. -/
theorem exists_blobs_of_toTable {fields : TransactionFields} {table : Table}
    (h : fields.toTable = .ok table) : ∃ args target entryPoint scheduling : Blob,
      Wire.write fields.args = .ok args.toList ∧
      Wire.write fields.target = .ok target.toList ∧
      Wire.write fields.entryPoint = .ok entryPoint.toList ∧
      Wire.write fields.scheduling = .ok scheduling.toList ∧
      table = .ofList [(0, args), (1, target), (2, entryPoint), (3, scheduling)] := by
  obtain ⟨args, hargs, h⟩ := bind_eq_ok.1 h
  obtain ⟨target, htarget, h⟩ := bind_eq_ok.1 h
  obtain ⟨entryPoint, hentryPoint, h⟩ := bind_eq_ok.1 h
  obtain ⟨scheduling, hscheduling, h⟩ := bind_eq_ok.1 h
  obtain rfl := Wire.pure_eq_ok.1 h
  exact ⟨args, target, entryPoint, scheduling, blobOf_eq_ok.1 hargs, blobOf_eq_ok.1 htarget,
    blobOf_eq_ok.1 hentryPoint, blobOf_eq_ok.1 hscheduling, rfl⟩

/-- A field reads back from its entry in the table. -/
theorem entry_eq_ok {α : Type} [Wire α] {table : Table} {index : UInt16} {blob : Blob} {x : α}
    (hblob : table.get? index = some blob) (hw : Wire.write x = .ok blob.toList)
    (hx : Readable x) : entry table index = .ok x := by
  rw [entry, hblob]
  exact hx.readAll_eq hw

/-- Fields read back from their table if their arguments do. -/
theorem ofTable_toTable {fields : TransactionFields} {table : Table}
    (hargs : Readable fields.args) (h : fields.toTable = .ok table) :
    ofTable table = .ok fields := by
  obtain ⟨args, target, entryPoint, scheduling, hwriteArgs, hwriteTarget, hwriteEntryPoint,
    hwriteScheduling, rfl⟩ := exists_blobs_of_toTable h
  refine bind_eq_ok.2 ⟨_, entry_eq_ok rfl hwriteArgs hargs, ?_⟩
  refine bind_eq_ok.2 ⟨_, entry_eq_ok rfl hwriteTarget (Lossless.readable _), ?_⟩
  refine bind_eq_ok.2 ⟨_, entry_eq_ok rfl hwriteEntryPoint (Lossless.readable _), ?_⟩
  exact bind_eq_ok.2 ⟨_, entry_eq_ok rfl hwriteScheduling (Lossless.readable _), rfl⟩

theorem readable {fields : TransactionFields} (hargs : Readable fields.args) :
    Readable fields := by
  intro bytes rest hw
  obtain ⟨table, htable, hbytes⟩ := bind_eq_ok.1 hw
  have hread : Wire.read (bytes ++ rest) = .ok (table, rest) :=
    Lossless.readable table bytes rest hbytes
  apply bind_of_eq_ok hread
  exact bind_of_eq_ok (ofTable_toTable hargs htable) rfl

theorem toTable_injective {fields fields' : TransactionFields} {table : Table}
    (h : fields.toTable = .ok table) (h' : fields'.toTable = .ok table) : fields = fields' := by
  obtain ⟨args, target, entryPoint, scheduling, hargs, htarget, hentryPoint, hscheduling,
    rfl⟩ := exists_blobs_of_toTable h
  obtain ⟨args', target', entryPoint', scheduling', hargs', htarget', hentryPoint',
    hscheduling', htable⟩ := exists_blobs_of_toTable h'
  have hentries : [((0 : UInt16), args), (1, target), (2, entryPoint), (3, scheduling)] =
      [(0, args'), (1, target'), (2, entryPoint'), (3, scheduling')] :=
    congrArg SortedMap.entries htable
  simp only [List.cons.injEq, Prod.mk.injEq, true_and, and_true] at hentries
  obtain ⟨rfl, rfl, rfl, rfl⟩ := hentries
  cases fields
  cases fields'
  rw [mk.injEq]
  exact ⟨Wire.write_injective hargs hargs', Wire.write_injective hentryPoint hentryPoint',
    Wire.write_injective hscheduling hscheduling', Wire.write_injective htarget htarget'⟩

instance : Unambiguous TransactionFields where
  eq_of_append_eq {x y front front' rest rest'} hx hy h := by
    obtain ⟨table, htable, hfront⟩ := bind_eq_ok.1 hx
    obtain ⟨table', htable', hfront'⟩ := bind_eq_ok.1 hy
    obtain ⟨rfl, hrest⟩ := Unambiguous.eq_of_append_eq hfront hfront' h
    exact ⟨toTable_injective htable htable', hrest⟩

end TransactionFields

/-! ## Payloads -/

namespace Payload

/-- The envelope of a payload has its six parts under the indices from zero on. -/
theorem exists_slices_of_toEnvelope {p : Payload} {e : Envelope} (h : p.toEnvelope = .ok e) :
    ∃ initiator timestamp ttl chainName pricingMode fields : Bytes,
      Wire.write p.initiator = .ok initiator ∧ Wire.write p.timestamp = .ok timestamp ∧
      Wire.write p.ttl = .ok ttl ∧ Wire.write p.chainName = .ok chainName ∧
      Wire.write p.pricingMode = .ok pricingMode ∧ Wire.write p.fields = .ok fields ∧
      e = ⟨[(0, initiator), (1, timestamp), (2, ttl), (3, chainName), (4, pricingMode),
        (5, fields)]⟩ := by
  obtain ⟨initiator, hinitiator, h⟩ := exists_slice_of_add_bind h
  obtain ⟨timestamp, htimestamp, h⟩ := exists_slice_of_add_bind h
  obtain ⟨ttl, httl, h⟩ := exists_slice_of_add_bind h
  obtain ⟨chainName, hchainName, h⟩ := exists_slice_of_add_bind h
  obtain ⟨pricingMode, hpricingMode, h⟩ := exists_slice_of_add_bind h
  obtain ⟨fields, hfields, rfl⟩ := exists_slice_of_add h
  exact ⟨initiator, timestamp, ttl, chainName, pricingMode, fields, hinitiator, htimestamp, httl,
    hchainName, hpricingMode, hfields, rfl⟩

theorem toEnvelope_ordered {p : Payload} {e : Envelope} (h : p.toEnvelope = .ok e) :
    e.Ordered := by
  obtain ⟨_, _, _, _, _, _, -, -, -, -, -, -, rfl⟩ := exists_slices_of_toEnvelope h
  simp [Ordered, Ascending]

/-- A payload reads back from its envelope if its key is accepted and its arguments read back. -/
theorem ofEnvelope_toEnvelope {p : Payload} {e : Envelope}
    (hkeys : ∀ key ∈ p.initiator.publicKeys, key.IsAccepted) (hargs : Readable p.fields.args)
    (h : p.toEnvelope = .ok e) : ofEnvelope e = .ok p := by
  obtain ⟨_, _, _, _, _, _, hinitiator, htimestamp, httl, hchainName, hpricingMode, hfields,
    rfl⟩ := exists_slices_of_toEnvelope h
  refine bind_unit_eq_ok.2 ⟨rfl, ?_⟩
  apply field_bind_eq_ok hinitiator (Initiator.readable hkeys) rfl
  apply field_bind_eq_ok htimestamp (Lossless.readable _) rfl
  apply field_bind_eq_ok httl (Lossless.readable _) rfl
  apply field_bind_eq_ok hchainName (Lossless.readable _) rfl
  apply field_bind_eq_ok hpricingMode (Lossless.readable _) rfl
  exact field_bind_eq_ok hfields (TransactionFields.readable hargs) rfl rfl

/-- A payload reads back if its key is accepted and its arguments read back. -/
theorem readable {p : Payload} (hkeys : ∀ key ∈ p.initiator.publicKeys, key.IsAccepted)
    (hargs : Readable p.fields.args) : Readable p :=
  .ofEnvelope fun _ h ↦ ⟨toEnvelope_ordered h, ofEnvelope_toEnvelope hkeys hargs h⟩

theorem toEnvelope_injective {p q : Payload} {e : Envelope} (hp : p.toEnvelope = .ok e)
    (hq : q.toEnvelope = .ok e) : p = q := by
  obtain ⟨_, _, _, _, _, _, hinitiator, htimestamp, httl, hchainName, hpricingMode, hfields,
    rfl⟩ := exists_slices_of_toEnvelope hp
  obtain ⟨_, _, _, _, _, _, hinitiator', htimestamp', httl', hchainName', hpricingMode', hfields',
    hslices⟩ := exists_slices_of_toEnvelope hq
  simp only [Envelope.mk.injEq, List.cons.injEq, Prod.mk.injEq, true_and, and_true] at hslices
  obtain ⟨rfl, rfl, rfl, rfl, rfl, rfl⟩ := hslices
  cases p
  cases q
  rw [mk.injEq]
  exact ⟨Wire.write_injective hinitiator hinitiator', Wire.write_injective htimestamp htimestamp',
    Wire.write_injective httl httl', Wire.write_injective hchainName hchainName',
    Wire.write_injective hpricingMode hpricingMode', Wire.write_injective hfields hfields'⟩

instance : Unambiguous Payload := .ofEnvelope toEnvelope_ordered toEnvelope_injective

end Payload

/-! ## Transactions -/

namespace Transaction

/-- The key that starts the transaction, if it is named by one, and those that approve it. -/
def publicKeys (t : Transaction) : List PublicKey :=
  t.payload.initiator.publicKeys ++ t.approvals.map (·.signer)

theorem toEnvelope_ordered {t : Transaction} {e : Envelope} (h : t.toEnvelope = .ok e) :
    e.Ordered := by
  obtain ⟨_, -, h⟩ := exists_slice_of_add_bind h
  obtain ⟨_, -, h⟩ := exists_slice_of_add_bind h
  obtain ⟨_, -, rfl⟩ := exists_slice_of_add h
  simp [Ordered, Ascending]

/-- A transaction reads back if its keys are accepted and its arguments read back. -/
theorem readable_of_args {t : Transaction} (hkeys : ∀ key ∈ t.publicKeys, key.IsAccepted)
    (hargs : Readable t.payload.fields.args) : Readable t := by
  refine .ofEnvelope fun e h ↦ ⟨toEnvelope_ordered h, ?_⟩
  obtain ⟨_, hhash, h⟩ := exists_slice_of_add_bind h
  obtain ⟨_, hpayload, h⟩ := exists_slice_of_add_bind h
  obtain ⟨_, happrovals, rfl⟩ := exists_slice_of_add h
  have hreadPayload : Readable t.payload :=
    Payload.readable (fun key hkey ↦ hkeys key (List.mem_append_left _ hkey)) hargs
  have hreadApprovals : Readable t.approvals := .list fun a ha ↦
    Approval.readable (hkeys a.signer (List.mem_append_right _ (List.mem_map_of_mem ha)))
  refine bind_unit_eq_ok.2 ⟨rfl, ?_⟩
  apply field_bind_eq_ok hhash (Lossless.readable _) rfl
  apply field_bind_eq_ok hpayload hreadPayload rfl
  exact field_bind_eq_ok happrovals hreadApprovals rfl rfl

/-- A written form of the body reads back from the front of any input. -/
theorem readable {t : Transaction} (hkeys : ∀ key ∈ t.publicKeys, key.IsAccepted)
    (hargs : t.payload.fields.args.RoundTrips) : Readable t :=
  readable_of_args hkeys hargs.readable

/-- What is written of a transaction reads back, if its keys and its named arguments would be
accepted on their own. -/
theorem read_of_write {t : Transaction} {bytes : Bytes}
    (hkeys : ∀ key ∈ t.publicKeys, key.IsAccepted) (hargs : t.payload.fields.args.RoundTrips)
    (hw : Wire.write t = .ok bytes) (rest : Bytes) :
    Wire.read (bytes ++ rest) = .ok (t, rest) :=
  readable hkeys hargs bytes rest hw

/-- A transaction of a key that calls a package with a named argument. -/
def approved : Transaction where
  hash := ⟨⟨.zero 32⟩⟩
  payload :=
    { initiator := .publicKey (.ed25519 (.fit 32 [1]))
      timestamp := ⟨0⟩
      ttl := ⟨1800000⟩
      chainName := "casper"
      pricingMode := .paymentLimited 5 1 true
      fields :=
        { args := .named ⟨[⟨"ids", ⟨.list (.option (.leaf .u8)), [2, 0, 0, 0, 0, 1, 9]⟩⟩]⟩
          entryPoint := .custom "call"
          scheduling := .standard
          target := .stored (.byPackageName "faucet" none (some 0)) .vmCasperV1 } }
  approvals := [⟨.ed25519 (.fit 32 [1]), ⟨.ed25519, .zero 64⟩⟩]

/-- A transaction with one approval reads back in front of a byte that is left over. -/
theorem read_of_write_approved : ∃ bytes, Wire.write approved = .ok bytes ∧
    Wire.read (bytes ++ [7]) = .ok (approved, [7]) := by
  have hkeys : ∀ key ∈ approved.publicKeys, key.IsAccepted := by
    intro key hkey
    rw [PublicKey.isAccepted_iff]
    revert key
    decide +kernel
  have hargs : approved.payload.fields.args.RoundTrips := by
    intro named hnamed arg harg
    obtain rfl := Option.some.inj hnamed
    obtain rfl := List.mem_singleton.1 harg
    rfl
  obtain ⟨bytes, hw⟩ : ∃ bytes, Wire.write approved = .ok bytes :=
    Wire.exists_eq_ok_of_isSome (by decide +kernel)
  exact ⟨bytes, hw, read_of_write hkeys hargs hw [7]⟩

end Transaction

end ChainClient
