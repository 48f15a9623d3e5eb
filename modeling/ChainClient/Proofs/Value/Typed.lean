import ChainClient.Proofs.Value.Agreement
import ChainClient.Proofs.Value.Canonical
import ChainClient.Proofs.Value.Order
import ChainClient.Proofs.Value.Unstated

/-!
# Typed readers and the walk over described values

A native type has a reader of its own, and its descriptor drives the walk that validates bytes.
The two are separate programs, but they accept the same bytes and find the same end, as long as
no key of a map holds a map itself: then a key has one written form, so that comparing keys by
their bytes, as the walk does, and in the order of keys, as the reader does, comes to the same.

In the other direction no restriction is needed: what is written of a native value passes the
walk and reads back, for keys of any type.
-/

namespace ChainClient

open Function (Injective)
open Wire (Canonical Readable Unambiguous)

/-! ## Repeated values -/

section Items

variable {own : WireError → Prop} {α : Type} [Wire α] {skip : Bytes → Except WireError Bytes}

/-- Both look at the bytes of each item as soon as it is read. -/
theorem EndsLike.readItems
    (h : ∀ bytes, EndsLike own (skip bytes) (Wire.read bytes : Except WireError (α × Bytes)))
    (count n : Nat) (bytes : Bytes) :
    EndsLike own (skipItems skip count n bytes)
      (Wire.readItems count n bytes : Except WireError (List α × Bytes)) := by
  induction n generalizing bytes with
  | zero => exact .ok [] bytes
  | succ n ih => exact (h bytes).bind fun x rest _ ↦ .after fun _ ↦ (ih rest).map (x :: ·)

theorem skipItems_u8_succ (count n : Nat) (b : UInt8) (bytes : Bytes) :
    skipItems (skipOne UInt8) count (n + 1) (b :: bytes) =
      skipItems (skipOne UInt8) count n bytes := by
  have hcheck : Wire.checkZeroWidth (b :: bytes) bytes count = .ok () :=
    Wire.checkZeroWidth_eq_ok.2 fun _ hlength ↦ by simp at hlength
  change Wire.checkZeroWidth (b :: bytes) bytes count >>= _ = _
  rw [hcheck, Wire.ok_bind]

/-- A block of bytes is a list of small numbers. -/
theorem EndsLike.split (count n : Nat) (bytes : Bytes) :
    EndsLike own (skipItems (ChainClient.skipOne UInt8) count n bytes) (Wire.split n bytes) := by
  induction n generalizing bytes with
  | zero =>
    rw [Wire.split_zero]
    exact .ok [] bytes
  | succ n ih =>
    cases bytes with
    | nil => exact .error _ _
    | cons b bytes =>
      rw [skipItems_u8_succ, Wire.split_succ]
      exact (ih bytes).map (b :: ·)

end Items

/-! ## Entries -/

section Entries

variable {own : WireError → Prop} {α β : Type} [Wire α] {key : α → List Int} {seen : List Bytes}
  {acc : SortedMap α key β}

/-- The written forms that the walk has seen are those of the keys that the reader holds. -/
def Recorded (seen : List Bytes) (acc : SortedMap α key β) : Prop :=
  ∀ ⦃k : α⦄ ⦃front : Bytes⦄, Wire.write k = .ok front → (front ∈ seen ↔ acc.contains k)

theorem recorded_empty : Recorded [] (.empty : SortedMap α key β) := by
  intro k front _
  simp [SortedMap.contains, SortedMap.empty]

/-- A key that was not there is recorded by its bytes and by its sort key at once. -/
theorem Recorded.insert [Unambiguous α] (h : Recorded seen acc) (hkey : Injective key) {k : α}
    {v : β} {front : Bytes} (hw : Wire.write k = .ok front) (hnew : ¬acc.contains k) :
    Recorded (front :: seen) (acc.insert k v) := by
  intro k' front' hw'
  have hne := SortedMap.contains_eq_false_iff.1 (Bool.eq_false_iff.2 hnew)
  have hperm : (acc.insert k v).entries.Perm ((k, v) :: acc.entries) :=
    SortedMap.insertEntry_perm hne
  have hcontains : (acc.insert k v).contains k' ↔ k = k' ∨ acc.contains k' := by
    simp only [SortedMap.contains, hperm.any_eq, List.any_cons, Bool.or_eq_true, beq_iff_eq,
      hkey.eq_iff]
  have hfront : front' = front ↔ k = k' := by
    constructor
    · rintro rfl
      exact Wire.write_injective hw hw'
    · rintro rfl
      exact Except.ok.inj (hw'.symm.trans hw)
  rw [hcontains, List.mem_cons, hfront, h hw']

/-- The walk finds a repeated key before the value is read, and the reader after that. -/
theorem EndsLike.readEntries [Wire β] [Canonical α] [Unambiguous α]
    {skip skip' : Bytes → Except WireError Bytes} (hinj : Injective key)
    (hkey : ∀ bytes, EndsLike own (skip bytes) (Wire.read bytes : Except WireError (α × Bytes)))
    (hvalue : ∀ bytes, EndsLike own (skip' bytes) (Wire.read bytes : Except WireError (β × Bytes)))
    (hseen : Recorded seen acc) (n : Nat) (bytes : Bytes) :
    EndsLike own (skipEntries skip skip' seen n bytes) (Wire.readEntries n acc bytes) := by
  induction n generalizing seen acc bytes with
  | zero => exact .ok acc bytes
  | succ n ih =>
    rw [Wire.readEntries_succ]
    refine (hkey bytes).bind fun k middle hread ↦ ?_
    obtain ⟨front, hw, rfl⟩ := Canonical.write_of_read hread
    simp only [take_used, hseen hw]
    by_cases hnew : acc.contains k
    · rw [if_pos hnew]
      cases (Wire.read middle : Except WireError (β × Bytes)) with
      | ok p =>
        simp only [Wire.ok_bind, if_pos hnew]
        exact .error _ _
      | error e => exact .error _ _
    · simp only [if_neg hnew]
      exact (hvalue middle).bind fun v rest _ ↦ ih (hseen.insert hinj hw hnew) rest

end Entries

/-! ## Types without maps -/

namespace Native

/-- No part of the type is a map. -/
def isMapFree : Native → Bool
  | .scalar _ => true
  | .byteArray _ => true
  | .option t => t.isMapFree
  | .list t => t.isMapFree
  | .result a b => a.isMapFree && b.isMapFree
  | .map _ _ => false
  | .tuple1 t => t.isMapFree
  | .tuple2 a b => a.isMapFree && b.isMapFree
  | .tuple3 a b c => a.isMapFree && b.isMapFree && c.isMapFree

/-- No map has keys that hold a map. -/
def hasMapFreeKeys : Native → Bool
  | .scalar _ => true
  | .byteArray _ => true
  | .option t => t.hasMapFreeKeys
  | .list t => t.hasMapFreeKeys
  | .result a b => a.hasMapFreeKeys && b.hasMapFreeKeys
  | .map k v => k.isMapFree && v.hasMapFreeKeys
  | .tuple1 t => t.hasMapFreeKeys
  | .tuple2 a b => a.hasMapFreeKeys && b.hasMapFreeKeys
  | .tuple3 a b c => a.hasMapFreeKeys && b.hasMapFreeKeys && c.hasMapFreeKeys

theorem hasMapFreeKeys_of_isMapFree {t : Native} (h : t.isMapFree) : t.hasMapFreeKeys := by
  induction t with
  | scalar s => rfl
  | byteArray size => rfl
  | option t ih => exact ih h
  | list t ih => exact ih h
  | map k v => cases h
  | tuple1 t ih => exact ih h
  | result a b iha ihb | tuple2 a b iha ihb =>
    obtain ⟨ha, hb⟩ := Bool.and_eq_true_iff.1 h
    exact Bool.and_eq_true_iff.2 ⟨iha ha, ihb hb⟩
  | tuple3 a b c iha ihb ihc =>
    obtain ⟨hab, hc⟩ := Bool.and_eq_true_iff.1 h
    obtain ⟨ha, hb⟩ := Bool.and_eq_true_iff.1 hab
    exact Bool.and_eq_true_iff.2 ⟨Bool.and_eq_true_iff.2 ⟨iha ha, ihb hb⟩, ihc hc⟩

theorem mapFree_of_isMapFree {t : Native} (h : t.isMapFree) : MapFree t.Value t.wire := by
  induction t with
  | scalar s => exact .scalar s
  | byteArray size => exact .octets size.toNat
  | option t ih => exact .option (ih h)
  | list t ih => exact .list (ih h)
  | map k v => cases h
  | tuple1 t ih => exact ih h
  | result a b iha ihb =>
    obtain ⟨ha, hb⟩ := Bool.and_eq_true_iff.1 h
    exact .result (iha ha) (ihb hb)
  | tuple2 a b iha ihb =>
    obtain ⟨ha, hb⟩ := Bool.and_eq_true_iff.1 h
    exact .pair (iha ha) (ihb hb)
  | tuple3 a b c iha ihb ihc =>
    obtain ⟨hab, hc⟩ := Bool.and_eq_true_iff.1 h
    obtain ⟨ha, hb⟩ := Bool.and_eq_true_iff.1 hab
    exact .pair (iha ha) (.pair (ihb hb) (ihc hc))

theorem canonical {t : Native} (h : t.isMapFree) : Canonical t.Value :=
  (mapFree_of_isMapFree h).canonical

end Native

/-! ## Skipping and reading -/

section Reading

variable {own : WireError → Prop} {clType : ClType}

/-- Bytes are walked as a list of single bytes and read as one block, with the same end. -/
theorem Blob.endsLike (bytes : Bytes) :
    EndsLike own ((ClType.list (.leaf .u8)).skip bytes)
      (Wire.read bytes : Except WireError (Blob × Bytes)) := by
  have hread : (Wire.read bytes : Except WireError (Blob × Bytes)) =
      Wire.readCount bytes >>= fun p ↦ Wire.split p.1 p.2 >>= fun q ↦ .ok (⟨q.1⟩, q.2) := by
    change (Wire.readCount bytes >>= fun p ↦ Wire.split p.1 p.2) >>= _ = _
    cases Wire.readCount bytes <;> rfl
  rw [hread]
  exact .after fun p ↦ (EndsLike.split p.1 p.1 p.2).map Blob.mk

theorem Octets.endsLike {size : UInt32} (bytes : Bytes) :
    EndsLike own ((ClType.byteArray size).skip bytes)
      (Wire.read bytes : Except WireError (Octets size.toNat × Bytes)) := by
  simp only [ClType.skip, Wire.split, Wire.read, List.splitAt_eq]
  by_cases h : (bytes.take size.toNat).length = size.toNat
  · rw [if_pos h, dif_pos h]
    exact .ok _ (bytes.drop size.toNat)
  · rw [if_neg h, dif_neg h]
    exact .error _ _

/-- All leaves are read as what they describe, and bytes as a list. -/
theorem Scalar.endsLike {s : Scalar} (hs : s.clType? = some clType) (bytes : Bytes) :
    EndsLike own (clType.skip bytes) (Wire.read bytes : Except WireError (s.Value × Bytes)) := by
  cases s with
  | u16 | accessRights | accountHash | digest | signature => cases hs
  | bytes =>
    obtain rfl := Option.some.inj hs
    exact Blob.endsLike bytes
  | unit =>
    obtain rfl := Option.some.inj hs
    exact .ok () bytes
  | bool | i32 | i64 | u8 | u32 | u64 | u128 | u256 | u512 | string | key | uref | publicKey =>
    obtain rfl := Option.some.inj hs
    exact .skipOne bytes

namespace Native

/-- The induction is on how the descriptor is put together. Keys of maps are compared, so they
have to have one written form; all else is read in step with the walk. -/
theorem endsLike {t : Native} (ht : t.IsDescribedBy clType) (hkeys : t.hasMapFreeKeys)
    (bytes : Bytes) :
    EndsLike own (clType.skip bytes) (Wire.read bytes : Except WireError (t.Value × Bytes)) := by
  induction ht generalizing bytes with
  | scalar hs => exact Scalar.endsLike hs bytes
  | byteArray => exact Octets.endsLike bytes
  | option _ ih =>
    cases bytes with
    | nil => exact .error _ _
    | cons tag bytes =>
      exact .tagged (.ok none) (fun rest ↦ (ih hkeys rest).map some) (tag, bytes)
  | list _ ih => exact .after fun p ↦ EndsLike.readItems (ih hkeys) p.1 p.1 p.2
  | result _ _ iha ihb =>
    obtain ⟨ha, hb⟩ := Bool.and_eq_true_iff.1 hkeys
    cases bytes with
    | nil => exact .error _ _
    | cons tag bytes =>
      exact .tagged (fun rest ↦ (iha ha rest).map Except.ok)
        (fun rest ↦ (ihb hb rest).map Except.error) (tag, bytes)
  | @map k v _ _ _ _ ihk ihv =>
    obtain ⟨hk, hv⟩ := Bool.and_eq_true_iff.1 hkeys
    have := k.canonical hk
    exact .after fun p ↦ EndsLike.readEntries k.sortKey_injective
      (ihk (hasMapFreeKeys_of_isMapFree hk)) (ihv hv) recorded_empty p.1 p.2
  | tuple1 _ ih => exact ih hkeys bytes
  | tuple2 _ _ iha ihb =>
    obtain ⟨ha, hb⟩ := Bool.and_eq_true_iff.1 hkeys
    exact (iha ha bytes).bind fun x rest _ ↦ (ihb hb rest).map fun y ↦ (x, y)
  | tuple3 _ _ _ iha ihb ihc =>
    obtain ⟨hab, hc⟩ := Bool.and_eq_true_iff.1 hkeys
    obtain ⟨ha, hb⟩ := Bool.and_eq_true_iff.1 hab
    refine (iha ha bytes).bind fun x rest _ ↦ ?_
    exact ((ihb hb rest).bind fun y rest' _ ↦
      (ihc hc rest').map fun z ↦ (y, z)).map fun p ↦ (x, p)

end Native

end Reading

namespace ClValue

/-- A value is converted if it has the described type and its payload is read to the end. -/
theorem toNative_eq_ok {clType : ClType} {t : Native} {ht : t.clType? = some clType} {v : ClValue}
    {x : t.Value} :
    v.toNative t ht = .ok x ↔ v.clType = clType ∧ Wire.readAll v.payload = .ok x := by
  unfold toNative
  by_cases h : clType = v.clType
  · rw [if_pos h, Wire.mapError_eq_ok]
    exact ⟨fun hread ↦ ⟨h.symm, hread⟩, fun hread ↦ hread.2⟩
  · rw [if_neg h]
    exact ⟨nofun, fun hread ↦ absurd hread.1.symm h⟩

end ClValue

namespace Native

variable {clType : ClType} {t : Native}

/-- The walk accepts what the typed reader accepts. -/
theorem skip_eq_ok_iff (ht : t.clType? = some clType) (hkeys : t.hasMapFreeKeys)
    {bytes rest : Bytes} :
    clType.skip bytes = .ok rest ↔ ∃ x : t.Value, Wire.read bytes = .ok (x, rest) :=
  (endsLike (isDescribedBy_of_clType? ht) hkeys bytes).eq_ok_iff

theorem exists_readAll_of_validate (ht : t.clType? = some clType) (hkeys : t.hasMapFreeKeys)
    {bytes : Bytes} (h : clType.validate bytes = .ok ()) :
    ∃ x : t.Value, Wire.readAll bytes = .ok x := by
  obtain ⟨x, hx⟩ := (skip_eq_ok_iff ht hkeys).1 (ClValue.validate_eq_ok.1 h)
  exact ⟨x, Wire.readAll_eq_ok.2 hx⟩

end Native

/-! ## Writing and reading back -/

theorem Scalar.readable {s : Scalar} {x : s.Value}
    (hx : (Native.scalar s).AllKeys PublicKey.IsAccepted x) : Readable x := by
  cases s with
  | publicKey => exact PublicKey.IsAccepted.readable hx
  | bool | i32 | i64 | u8 | u16 | u32 | u64 | u128 | u256 | u512 | unit | string | key | uref
  | bytes | accessRights | accountHash | digest | signature => exact Wire.Lossless.readable x

/-- A native value is readable if its public keys are, whatever its maps have for keys. -/
theorem Native.readable {t : Native} {x : t.Value} (hx : t.AllKeys PublicKey.IsAccepted x) :
    Readable x := by
  induction t with
  | scalar s => exact Scalar.readable hx
  | byteArray size => exact Wire.Lossless.readable (α := Octets size.toNat) x
  | option t ih =>
    cases x with
    | none => exact Wire.readable_none
    | some x => exact (ih hx).some
  | list t ih => exact Readable.list fun y hy ↦ ih (hx y hy)
  | result a b iha ihb =>
    cases x with
    | ok x => exact (iha hx).ok
    | error x => exact (ihb hx).error
  | map k v ihk ihv =>
    exact Readable.map fun entry hentry ↦ .pair (ihk (hx entry hentry).1) (ihv (hx entry hentry).2)
  | tuple1 t ih => exact ih hx
  | tuple2 a b iha ihb => exact .pair (iha hx.1) (ihb hx.2)
  | tuple3 a b c iha ihb ihc => exact .pair (iha hx.1) (.pair (ihb hx.2.1) (ihc hx.2.2))

namespace ClValue

end ClValue

end ChainClient
