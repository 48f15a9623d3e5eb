import ChainClient.Proofs.Transaction.Canonical
import ChainClient.Proofs.Transaction.Forms
import ChainClient.Proofs.Wire.Envelope.Width

/-!
# The byte strings that are read as a transaction

The envelopes around a transaction are canonical, but the map of its fields is read with its
entries in any order. So the byte strings that are read as a transaction are its spellings: its
written form and those that list the four entries of the map in another order. As many bytes
stand in either, so the tables of the envelopes around the map are the same.
-/

namespace ChainClient

open Wire (Readable Lossless Canonical bind_eq_ok bind_of_eq_ok bind_unit_eq_ok guard_eq_ok
  pure_eq_ok)
open Envelope (eq_of_holds exists_slice_of_add exists_slice_of_add_bind
  exists_slice_of_field_bind field_bind_eq_ok readAll_of_field)

/-! ## Envelopes with another slice -/

namespace Envelope

/-- The envelope with other bytes under the index. -/
def put (e : Envelope) (index : UInt16) (slice : Bytes) : Envelope :=
  ⟨e.fields.map fun field ↦ if field.1 = index then (index, slice) else field⟩

/-- The bytes are as many as those that stand under the index. -/
def Fits (e : Envelope) (index : UInt16) (slice : Bytes) : Prop :=
  ∀ field ∈ e.fields, field.1 = index → field.2.length = slice.length

variable {e : Envelope} {index : UInt16} {slice : Bytes}

/-- A part of the same length leaves the sizes, so it can stand in the place of another. -/
theorem Fits.sizes_put (hfits : e.Fits index slice) : (e.put index slice).sizes = e.sizes := by
  simp only [sizes, put, List.map_map]
  refine List.map_congr_left fun field hfield ↦ ?_
  by_cases hindex : field.1 = index
  · simp [hindex, hfits field hfield hindex]
  · simp [hindex]

theorem Fits.isReadable (hfits : e.Fits index slice) (he : (e.put index slice).IsReadable) :
    e.IsReadable where
  ordered := by
    rw [ordered_iff_sizes, ← hfits.sizes_put]
    exact ordered_iff_sizes.1 he.ordered
  length_body_lt := by
    rw [← total_sizes, ← hfits.sizes_put, total_sizes]
    exact he.length_body_lt

/-- Both envelopes are written, in as many bytes. -/
theorem Fits.exists_write (hfits : e.Fits index slice) (he : (e.put index slice).IsReadable)
    {bytes : Bytes} (hw : (e.put index slice).write = .ok bytes) :
    ∃ bytes', e.write = .ok bytes' ∧ bytes'.length = bytes.length := by
  have hfit := he.ordered.exists_write_iff.1 ⟨bytes, hw⟩
  rw [hfits.sizes_put] at hfit
  obtain ⟨bytes', hbytes'⟩ := (hfits.isReadable he).ordered.exists_write_iff.2 hfit
  refine ⟨bytes', hbytes', ?_⟩
  rw [length_of_write hbytes', length_of_write hw, hfits.sizes_put]

/-- A field is what its slice is read as. -/
theorem field_of_readAll {α : Type} [Wire α] {x : α} (hread : Wire.readAll slice = .ok x)
    (hslice : e.slice? index = some slice) : e.field index = .ok x := by
  rw [field, optionalField, hslice]
  exact bind_of_eq_ok (bind_of_eq_ok hread rfl) rfl

end Envelope

/-! ## Fields -/

namespace TransactionFields

/-- The entries behind their count, in the order in which they are given. -/
def spell (entries : List (UInt16 × Blob)) : Except WireError Bytes := do
  let front ← Wire.writeCount entries.length
  return front ++ (← Wire.writeItems entries)

/-- A spelling is the count and then the entries, in the order in which they are given. -/
theorem spell_eq_ok {entries : List (UInt16 × Blob)} {bytes : Bytes} :
    spell entries = .ok bytes ↔ ∃ front body, Wire.writeCount entries.length = .ok front ∧
      Wire.writeItems entries = .ok body ∧ front ++ body = bytes := by
  simp only [spell, bind_eq_ok, pure_eq_ok, exists_and_left]

/-- A field that is read from the table has one written form, its entry. -/
theorem exists_blob_of_entry {α : Type} [Wire α] [Canonical α] {table : Table} {index : UInt16}
    {x : α} (h : entry table index = .ok x) :
    ∃ blob, blobOf x = .ok blob ∧ table.get? index = some blob := by
  unfold entry at h
  cases hblob : table.get? index with
  | none =>
    rw [hblob] at h
    cases h
  | some blob =>
    rw [hblob] at h
    exact ⟨blob, blobOf_eq_ok.2 (Wire.write_of_readAll h), rfl⟩

theorem find?_eq_get? (table : Table) (index : UInt16) :
    (table.entries.find? fun entry ↦ entry.1 == index).map (·.2) = table.get? index := by
  have hkey (n m : UInt16) : (n == m) = ([(n.toNat : Int)] == [(m.toNat : Int)]) := by
    rw [Bool.eq_iff_iff, beq_iff_eq, beq_iff_eq, List.cons.injEq, Int.natCast_inj,
      UInt16.toNat_inj]
    simp
  simp only [SortedMap.get?, hkey]

/-- The table of fields holds its entries in ascending order. -/
theorem ascending_entries (table : Table) :
    table.entries.Pairwise fun entry other ↦ entry.1 < other.1 := by
  refine table.ascending.imp fun {entry other} hlt ↦ ?_
  have hlt' : ([(entry.1.toNat : Int)] : List Int) < [(other.1.toNat : Int)] := hlt
  rw [List.cons_lt_cons_iff] at hlt'
  simpa [UInt16.lt_iff_toNat_lt] using hlt'

/-- The four entries that are found are all the entries there are. -/
theorem toTable_ofTable {fields : TransactionFields} {table : Table}
    (h : ofTable table = .ok fields) : fields.toTable = .ok table := by
  obtain ⟨hmax, h⟩ := guard_eq_ok.1 h
  obtain ⟨args, hargs, h⟩ := bind_eq_ok.1 h
  obtain ⟨target, htarget, h⟩ := bind_eq_ok.1 h
  obtain ⟨entryPoint, hentryPoint, h⟩ := bind_eq_ok.1 h
  obtain ⟨scheduling, hscheduling, h⟩ := bind_eq_ok.1 h
  obtain rfl := pure_eq_ok.1 h
  obtain ⟨argsBlob, hwriteArgs, hargs⟩ := exists_blob_of_entry hargs
  obtain ⟨targetBlob, hwriteTarget, htarget⟩ := exists_blob_of_entry htarget
  obtain ⟨entryPointBlob, hwriteEntryPoint, hentryPoint⟩ := exists_blob_of_entry hentryPoint
  obtain ⟨schedulingBlob, hwriteScheduling, hscheduling⟩ := exists_blob_of_entry hscheduling
  have hbound : ∀ e ∈ table.entries, 0 ≤ e.1.toNat ∧ e.1.toNat < 0 + 4 := by
    intro e he
    have hle : e.1 ≤ 3 := by
      refine UInt16.not_lt.1 fun hgt ↦ hmax ?_
      exact List.any_eq_true.2 ⟨e, he, decide_eq_true hgt⟩
    exact ⟨Nat.zero_le _, Nat.lt_succ_of_le (UInt16.le_iff_toNat_le.1 hle)⟩
  rw [← find?_eq_get?] at hargs htarget hentryPoint hscheduling
  have hholds : Envelope.Holds table.entries 0
      [some argsBlob, some targetBlob, some entryPointBlob, some schedulingBlob] :=
    .cons hargs (.cons htarget (.cons hentryPoint (.cons hscheduling .nil)))
  have hsize : 0 + 4 ≤ UInt16.size := by decide
  have hentries := Envelope.eq_consecutive hsize (ascending_entries table) hbound hholds
  apply bind_of_eq_ok hwriteArgs
  apply bind_of_eq_ok hwriteTarget
  apply bind_of_eq_ok hwriteEntryPoint
  apply bind_of_eq_ok hwriteScheduling
  rw [pure_eq_ok]
  exact SortedMap.eq_of_entries_eq hentries.symm

/-- The fields are read from their entries in some order. -/
theorem exists_spelling_of_read {fields : TransactionFields} {bytes rest : Bytes}
    (h : Wire.read bytes = .ok (fields, rest)) : ∃ table entries front,
      fields.toTable = .ok table ∧ entries.Perm table.entries ∧ spell entries = .ok front ∧
      bytes = front ++ rest := by
  obtain ⟨⟨table, rest'⟩, htable, h⟩ := bind_eq_ok.1 h
  obtain ⟨fields', hfields, h⟩ := bind_eq_ok.1 h
  obtain ⟨rfl, rfl⟩ := Prod.mk.inj (pure_eq_ok.1 h)
  obtain ⟨entries, count, body, hcount, hbody, rfl, hperm⟩ :=
    Wire.exists_entries_of_readMap htable
  exact ⟨table, entries, count ++ body, toTable_ofTable hfields, hperm.symm,
    spell_eq_ok.2 ⟨count, body, hcount, hbody, rfl⟩, rfl⟩

/-- Every order of the entries is read. -/
theorem read_spell {fields : TransactionFields} {table : Table} {entries : List (UInt16 × Blob)}
    {front : Bytes} (hargs : fields.args.RoundTrips) (htable : fields.toTable = .ok table)
    (hperm : entries.Perm table.entries) (hfront : spell entries = .ok front) (rest : Bytes) :
    Wire.read (front ++ rest) = .ok (fields, rest) := by
  obtain ⟨count, body, hcount, hbody, rfl⟩ := spell_eq_ok.1 hfront
  have hread : Wire.read (count ++ body ++ rest) = .ok (table, rest) :=
    Wire.readMap_of_perm (fun entry _ ↦ Lossless.readable entry) hperm.symm hcount hbody rest
  apply bind_of_eq_ok hread
  exact bind_of_eq_ok (ofTable_toTable hargs.readable htable) rfl

/-- The entries in ascending order spell what is written. -/
theorem spell_toTable {fields : TransactionFields} {table : Table}
    (htable : fields.toTable = .ok table) : spell table.entries = Wire.write fields := by
  have hwrite : Wire.write fields = (fields.toTable >>= fun table ↦ Wire.write table) := rfl
  rw [hwrite, htable, Wire.ok_bind, spell, ← Wire.writeEntries_eq_writeItems]
  rfl

/-- Every order takes as many bytes. -/
theorem exists_spell_of_perm {entries entries' : List (UInt16 × Blob)} {front : Bytes}
    (hperm : entries.Perm entries') (hfront : spell entries = .ok front) :
    ∃ front', spell entries' = .ok front' ∧ front'.length = front.length := by
  obtain ⟨count, body, hcount, hbody, rfl⟩ := spell_eq_ok.1 hfront
  obtain ⟨body', hbody', hlength⟩ := Wire.exists_writeItems_of_perm hperm hbody
  rw [hperm.length_eq] at hcount
  refine ⟨count ++ body', spell_eq_ok.2 ⟨count, body', hcount, hbody', rfl⟩, ?_⟩
  rw [List.length_append, List.length_append, hlength]

end TransactionFields

/-! ## Payloads -/

namespace Payload

/-- The written form, but for the order of the entries in the map of the fields. -/
def spell (p : Payload) (entries : List (UInt16 × Blob)) : Except WireError Bytes := do
  let e ← p.toEnvelope
  let slice ← TransactionFields.spell entries
  (e.put 5 slice).write

/-- The envelope that is read is the one that is built, but for the fields. -/
theorem exists_put_of_ofEnvelope {p : Payload} {e : Envelope} (he : e.IsReadable)
    (h : ofEnvelope e = .ok p) : ∃ table entries slice built,
      p.fields.toTable = .ok table ∧ entries.Perm table.entries ∧
      TransactionFields.spell entries = .ok slice ∧ p.toEnvelope = .ok built ∧
      built.Fits 5 slice ∧ e = built.put 5 slice := by
  obtain ⟨hmax, h⟩ := bind_unit_eq_ok.1 h
  obtain ⟨_, initiator, hwriteInitiator, hinitiator, h⟩ := exists_slice_of_field_bind h
  obtain ⟨_, timestamp, hwriteTimestamp, htimestamp, h⟩ := exists_slice_of_field_bind h
  obtain ⟨_, ttl, hwriteTtl, httl, h⟩ := exists_slice_of_field_bind h
  obtain ⟨_, chainName, hwriteChainName, hchainName, h⟩ := exists_slice_of_field_bind h
  obtain ⟨_, pricingMode, hwritePricingMode, hpricingMode, h⟩ := exists_slice_of_field_bind h
  obtain ⟨fields, hfield, h⟩ := bind_eq_ok.1 h
  obtain rfl := pure_eq_ok.1 h
  obtain ⟨read, hread, hslice⟩ := readAll_of_field hfield
  obtain ⟨table, entries, slice, htable, hperm, hspell, happend⟩ :=
    TransactionFields.exists_spelling_of_read (Wire.readAll_eq_ok.1 hread)
  rw [List.append_nil] at happend
  rw [happend] at hslice
  obtain ⟨written, hwritten, hlength⟩ := TransactionFields.exists_spell_of_perm hperm hspell
  rw [TransactionFields.spell_toTable htable] at hwritten
  let built : Envelope := ⟨[(0, initiator), (1, timestamp), (2, ttl), (3, chainName),
    (4, pricingMode), (5, written)]⟩
  have hput : e = built.put 5 slice :=
    eq_of_holds he.ordered hmax (.cons hinitiator (.cons htimestamp (.cons httl
      (.cons hchainName (.cons hpricingMode (.cons hslice .nil)))))) rfl
  have hfits : built.Fits 5 slice := by simp [Envelope.Fits, built, hlength]
  have hbuilt : built.IsReadable := hfits.isReadable (hput ▸ he)
  refine ⟨table, entries, slice, built, htable, hperm, hspell, ?_, hfits, hput⟩
  apply hbuilt.add_bind hwriteInitiator rfl
  apply hbuilt.add_bind hwriteTimestamp rfl
  apply hbuilt.add_bind hwriteTtl rfl
  apply hbuilt.add_bind hwriteChainName rfl
  apply hbuilt.add_bind hwritePricingMode rfl
  exact hbuilt.add hwritten rfl

/-- Whatever is read as a payload spells it with its four fields in some order. -/
theorem exists_spelling_of_read {p : Payload} {bytes rest : Bytes}
    (h : Wire.read bytes = .ok (p, rest)) : ∃ table entries front front',
      p.fields.toTable = .ok table ∧ entries.Perm table.entries ∧ p.spell entries = .ok front' ∧
      bytes = front' ++ rest ∧ Wire.write p = .ok front ∧ front.length = front'.length := by
  obtain ⟨⟨e, rest'⟩, hread, h⟩ := bind_eq_ok.1 h
  obtain ⟨p', hparse, h⟩ := bind_eq_ok.1 h
  obtain ⟨rfl, rfl⟩ := Prod.mk.inj (pure_eq_ok.1 h)
  obtain ⟨he, front', hfront', rfl⟩ := Envelope.read_eq_ok hread
  obtain ⟨table, entries, slice, built, htable, hperm, hspell, hbuilt, hfits, rfl⟩ :=
    exists_put_of_ofEnvelope he hparse
  obtain ⟨front, hfront, hlength⟩ := hfits.exists_write he hfront'
  refine ⟨table, entries, front, front', htable, hperm, ?_, rfl, ?_, hlength⟩
  · apply bind_of_eq_ok hbuilt
    exact bind_of_eq_ok hspell hfront'
  · exact bind_of_eq_ok hbuilt hfront

theorem spell_toTable {p : Payload} {table : TransactionFields.Table}
    (htable : p.fields.toTable = .ok table) {front : Bytes} (hw : Wire.write p = .ok front) :
    p.spell table.entries = .ok front := by
  obtain ⟨e, he, hfront⟩ := bind_eq_ok.1 hw
  have hspell := TransactionFields.spell_toTable htable
  obtain ⟨_, _, _, _, _, fields, -, -, -, -, -, hfields, rfl⟩ := exists_slices_of_toEnvelope he
  apply bind_of_eq_ok he
  exact bind_of_eq_ok (hspell.trans hfields) hfront

/-- Every order of the entries is read. -/
theorem read_spell {p : Payload} {table : TransactionFields.Table}
    {entries : List (UInt16 × Blob)} {front : Bytes}
    (hkeys : ∀ key ∈ p.initiator.publicKeys, key.IsAccepted) (hargs : p.fields.args.RoundTrips)
    (htable : p.fields.toTable = .ok table) (hperm : entries.Perm table.entries)
    (hfront : p.spell entries = .ok front) (rest : Bytes) :
    Wire.read (front ++ rest) = .ok (p, rest) := by
  obtain ⟨e, he, h⟩ := bind_eq_ok.1 hfront
  obtain ⟨slice, hslice, hw⟩ := bind_eq_ok.1 h
  obtain ⟨_, _, _, _, _, _, hinitiator, htimestamp, httl, hchainName, hpricingMode, -, rfl⟩ :=
    exists_slices_of_toEnvelope he
  have hread := TransactionFields.read_spell hargs htable hperm hslice []
  rw [List.append_nil] at hread
  have hfields := Wire.readAll_eq_ok.2 hread
  refine bind_of_eq_ok (Envelope.read_write ?_ hw rest) ?_
  · simp [Envelope.Ordered, Envelope.Ascending, Envelope.put]
  refine bind_eq_ok.2 ⟨p, ?_, rfl⟩
  refine bind_unit_eq_ok.2 ⟨rfl, ?_⟩
  apply field_bind_eq_ok hinitiator (Initiator.readable hkeys) rfl
  apply field_bind_eq_ok htimestamp (Lossless.readable _) rfl
  apply field_bind_eq_ok httl (Lossless.readable _) rfl
  apply field_bind_eq_ok hchainName (Lossless.readable _) rfl
  apply field_bind_eq_ok hpricingMode (Lossless.readable _) rfl
  exact bind_of_eq_ok (Envelope.field_of_readAll hfields rfl) rfl

end Payload

/-! ## Transactions -/

namespace Transaction

/-- The written form, but for the order of the entries in the map of the fields. -/
def spell (t : Transaction) (entries : List (UInt16 × Blob)) : Except WireError Bytes := do
  let e ← t.toEnvelope
  let slice ← t.payload.spell entries
  (e.put 1 slice).write

/-- The envelope of a transaction has its three parts under the indices from zero on. -/
theorem exists_slices_of_toEnvelope {t : Transaction} {e : Envelope} (h : t.toEnvelope = .ok e) :
    ∃ hash payload approvals : Bytes, Wire.write t.hash = .ok hash ∧
      Wire.write t.payload = .ok payload ∧ Wire.write t.approvals = .ok approvals ∧
      e = ⟨[(0, hash), (1, payload), (2, approvals)]⟩ := by
  obtain ⟨hash, hhash, h⟩ := exists_slice_of_add_bind h
  obtain ⟨payload, hpayload, h⟩ := exists_slice_of_add_bind h
  obtain ⟨approvals, happrovals, rfl⟩ := exists_slice_of_add h
  exact ⟨hash, payload, approvals, hhash, hpayload, happrovals, rfl⟩

/-- The envelope that is read is the one that is built, but for the payload. -/
theorem exists_put_of_ofEnvelope {t : Transaction} {e : Envelope} (he : e.IsReadable)
    (h : ofEnvelope e = .ok t) : ∃ table entries slice built,
      t.payload.fields.toTable = .ok table ∧ entries.Perm table.entries ∧
      t.payload.spell entries = .ok slice ∧ t.toEnvelope = .ok built ∧
      built.Fits 1 slice ∧ e = built.put 1 slice := by
  obtain ⟨hmax, h⟩ := bind_unit_eq_ok.1 h
  obtain ⟨_, hash, hwriteHash, hhash, h⟩ := exists_slice_of_field_bind h
  obtain ⟨payload, hfield, h⟩ := bind_eq_ok.1 h
  obtain ⟨_, approvals, hwriteApprovals, happrovals, h⟩ := exists_slice_of_field_bind h
  obtain rfl := pure_eq_ok.1 h
  obtain ⟨read, hread, hslice⟩ := readAll_of_field hfield
  obtain ⟨table, entries, written, slice, htable, hperm, hspell, happend, hwritten, hlength⟩ :=
    Payload.exists_spelling_of_read (Wire.readAll_eq_ok.1 hread)
  rw [List.append_nil] at happend
  rw [happend] at hslice
  let built : Envelope := ⟨[(0, hash), (1, written), (2, approvals)]⟩
  have hput : e = built.put 1 slice :=
    eq_of_holds he.ordered hmax (.cons hhash (.cons hslice (.cons happrovals .nil))) rfl
  have hfits : built.Fits 1 slice := by simp [Envelope.Fits, built, hlength]
  have hbuilt : built.IsReadable := hfits.isReadable (hput ▸ he)
  refine ⟨table, entries, slice, built, htable, hperm, hspell, ?_, hfits, hput⟩
  apply hbuilt.add_bind hwriteHash rfl
  apply hbuilt.add_bind hwritten rfl
  exact hbuilt.add hwriteApprovals rfl

theorem spell_toTable {t : Transaction} {table : TransactionFields.Table}
    (htable : t.payload.fields.toTable = .ok table) {front : Bytes}
    (hw : Wire.write t = .ok front) : t.spell table.entries = .ok front := by
  obtain ⟨e, he, hfront⟩ := bind_eq_ok.1 hw
  obtain ⟨_, payload, _, -, hpayload, -, rfl⟩ := exists_slices_of_toEnvelope he
  apply bind_of_eq_ok he
  exact bind_of_eq_ok (Payload.spell_toTable htable hpayload) hfront

/-- Every order of the entries is read. -/
theorem read_spell {t : Transaction} {table : TransactionFields.Table}
    {entries : List (UInt16 × Blob)} {front : Bytes}
    (hkeys : ∀ key ∈ t.publicKeys, key.IsAccepted) (hargs : t.payload.fields.args.RoundTrips)
    (htable : t.payload.fields.toTable = .ok table) (hperm : entries.Perm table.entries)
    (hfront : t.spell entries = .ok front) (rest : Bytes) :
    Wire.read (front ++ rest) = .ok (t, rest) := by
  obtain ⟨e, he, h⟩ := bind_eq_ok.1 hfront
  obtain ⟨slice, hslice, hw⟩ := bind_eq_ok.1 h
  obtain ⟨_, _, _, hhash, -, happrovals, rfl⟩ := exists_slices_of_toEnvelope he
  have hread := Payload.read_spell (fun key hkey ↦ hkeys key (List.mem_append_left _ hkey)) hargs
    htable hperm hslice []
  rw [List.append_nil] at hread
  have hpayload := Wire.readAll_eq_ok.2 hread
  have hreadApprovals : Readable t.approvals := .list fun a ha ↦
    Approval.readable (hkeys a.signer (List.mem_append_right _ (List.mem_map_of_mem ha)))
  refine bind_of_eq_ok (Envelope.read_write ?_ hw rest) ?_
  · simp [Envelope.Ordered, Envelope.Ascending, Envelope.put]
  refine bind_eq_ok.2 ⟨t, ?_, rfl⟩
  refine bind_unit_eq_ok.2 ⟨rfl, ?_⟩
  apply field_bind_eq_ok hhash (Lossless.readable _) rfl
  refine bind_of_eq_ok (Envelope.field_of_readAll hpayload rfl) ?_
  exact field_bind_eq_ok happrovals hreadApprovals rfl rfl

/-- Bytes are read as a transaction only if they spell it: the transaction is written, and the
bytes differ from the written form only in the order of the entries in the map of its fields. If
those ascend, the bytes begin with the written form itself. -/
theorem exists_reordered_spelling {t : Transaction} {bytes rest : Bytes}
    (h : Wire.read bytes = .ok (t, rest)) : ∃ table entries front front',
      t.payload.fields.toTable = .ok table ∧ entries.Perm table.entries ∧
      t.spell table.entries = .ok front ∧ Wire.write t = .ok front ∧
      t.spell entries = .ok front' ∧ bytes = front' ++ rest ∧
      (entries.Pairwise (fun entry other ↦ entry.1 < other.1) → bytes = front ++ rest) := by
  obtain ⟨⟨e, rest'⟩, hread, h⟩ := bind_eq_ok.1 h
  obtain ⟨t', hparse, h⟩ := bind_eq_ok.1 h
  obtain ⟨rfl, rfl⟩ := Prod.mk.inj (pure_eq_ok.1 h)
  obtain ⟨he, front', hfront', rfl⟩ := Envelope.read_eq_ok hread
  obtain ⟨table, entries, slice, built, htable, hperm, hslice, hbuilt, hfits, rfl⟩ :=
    exists_put_of_ofEnvelope he hparse
  obtain ⟨front, hfront, -⟩ := hfits.exists_write he hfront'
  have hw : Wire.write t' = .ok front := bind_of_eq_ok hbuilt hfront
  have hspell : t'.spell entries = .ok front' := by
    apply bind_of_eq_ok hbuilt
    exact bind_of_eq_ok hslice hfront'
  refine ⟨table, entries, front, front', htable, hperm, spell_toTable htable hw, hw, hspell, rfl,
    fun hascending ↦ ?_⟩
  have hentries : entries = table.entries := hperm.eq_of_pairwise
    (fun _ _ _ _ hlt hgt ↦ absurd hgt (UInt16.lt_asymm hlt)) hascending
    (TransactionFields.ascending_entries table)
  rw [hentries, spell_toTable htable hw] at hspell
  rw [Except.ok.inj hspell]

/-- A transfer of an account that is paid for by a receipt. -/
def prepaid : Transaction where
  hash := ⟨⟨.zero 32⟩⟩
  payload :=
    { initiator := .accountHash ⟨.zero 32⟩
      timestamp := ⟨0⟩
      ttl := ⟨1800000⟩
      chainName := "casper"
      pricingMode := .prepaid ⟨.zero 32⟩
      fields :=
        { args := .encoded ⟨[]⟩
          entryPoint := .system .transfer
          scheduling := .standard
          target := .native } }
  approvals := []

/-- It is read from bytes that list the entries the other way round. -/
theorem exists_read_prepaid : ∃ bytes, Wire.write prepaid ≠ .ok bytes ∧
    ∀ rest, Wire.read (bytes ++ rest) = .ok (prepaid, rest) := by
  have hreversed : (do
      let table ← prepaid.payload.fields.toTable
      let front ← prepaid.spell table.entries.reverse
      return decide ((Wire.write prepaid).toOption ≠ some front)).toOption = some true := by
    decide +kernel
  obtain ⟨table, htable, h⟩ := bind_eq_ok.1 (Wire.eq_ok_of_toOption hreversed)
  obtain ⟨front, hfront, h⟩ := bind_eq_ok.1 h
  have hne := of_decide_eq_true (pure_eq_ok.1 h)
  have hkeys : ∀ key ∈ prepaid.publicKeys, key.IsAccepted := fun _ hkey ↦ nomatch hkey
  have hargs : prepaid.payload.fields.args.RoundTrips := fun _ hnamed ↦ nomatch hnamed
  refine ⟨front, fun hw ↦ hne (by rw [hw]; rfl), ?_⟩
  exact read_spell hkeys hargs htable (List.reverse_perm _) hfront

/-- A transaction is read from more byte strings than its written form. -/
theorem not_forall_eq_write_of_read : ¬∀ (t : Transaction) (bytes rest : Bytes),
    Wire.read bytes = .ok (t, rest) →
      ∃ front, Wire.write t = .ok front ∧ bytes = front ++ rest := by
  intro hcanonical
  obtain ⟨bytes, hne, hread⟩ := exists_read_prepaid
  obtain ⟨front, hfront, hbytes⟩ := hcanonical prepaid (bytes ++ []) [] (hread [])
  rw [List.append_cancel_right hbytes] at hne
  exact hne hfront

/-- A transaction whose four fields stand in the reverse order is read all the same. -/
theorem exists_reordered_spelling_prepaid : ∃ bytes, Wire.read bytes = .ok (prepaid, [7]) ∧
    ∃ table entries front front',
      prepaid.payload.fields.toTable = .ok table ∧ entries.Perm table.entries ∧
      prepaid.spell table.entries = .ok front ∧ Wire.write prepaid = .ok front ∧
      prepaid.spell entries = .ok front' ∧ bytes = front' ++ [7] ∧
      (entries.Pairwise (fun entry other ↦ entry.1 < other.1) → bytes = front ++ [7]) := by
  obtain ⟨bytes, -, hread⟩ := exists_read_prepaid
  exact ⟨bytes ++ [7], hread [7], exists_reordered_spelling (hread [7])⟩

end Transaction

end ChainClient
