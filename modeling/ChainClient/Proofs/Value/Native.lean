import ChainClient.Proofs.Value.Grammar
import ChainClient.Value.Native

/-!
# Forms of native values

The written form of a native value is a value of the described type, by induction on how the
descriptor is put together: the values of a list or a map are written behind a count, and
different keys of a map are written differently. A public key in the value is shown only if it is
accepted.
-/

namespace ChainClient

open Wire (Unambiguous UniformlyEmpty)

/-! ## Laws of codes -/

instance Scalar.uniformlyEmpty : (s : Scalar) → UniformlyEmpty s.Value
  | .bool => inferInstanceAs (UniformlyEmpty Bool)
  | .i32 => inferInstanceAs (UniformlyEmpty Int32)
  | .i64 => inferInstanceAs (UniformlyEmpty Int64)
  | .u8 => inferInstanceAs (UniformlyEmpty UInt8)
  | .u16 => inferInstanceAs (UniformlyEmpty UInt16)
  | .u32 => inferInstanceAs (UniformlyEmpty UInt32)
  | .u64 => inferInstanceAs (UniformlyEmpty UInt64)
  | .u128 => inferInstanceAs (UniformlyEmpty U128)
  | .u256 => inferInstanceAs (UniformlyEmpty U256)
  | .u512 => inferInstanceAs (UniformlyEmpty U512)
  | .unit => inferInstanceAs (UniformlyEmpty Unit)
  | .string => inferInstanceAs (UniformlyEmpty String)
  | .key => inferInstanceAs (UniformlyEmpty Key)
  | .uref => inferInstanceAs (UniformlyEmpty URef)
  | .publicKey => inferInstanceAs (UniformlyEmpty PublicKey)
  | .bytes => inferInstanceAs (UniformlyEmpty Blob)
  | .accessRights => inferInstanceAs (UniformlyEmpty AccessRights)
  | .accountHash => inferInstanceAs (UniformlyEmpty AccountHash)
  | .digest => inferInstanceAs (UniformlyEmpty Digest)
  | .signature => inferInstanceAs (UniformlyEmpty Signature)

instance Scalar.unambiguous : (s : Scalar) → Unambiguous s.Value
  | .bool => inferInstanceAs (Unambiguous Bool)
  | .i32 => inferInstanceAs (Unambiguous Int32)
  | .i64 => inferInstanceAs (Unambiguous Int64)
  | .u8 => inferInstanceAs (Unambiguous UInt8)
  | .u16 => inferInstanceAs (Unambiguous UInt16)
  | .u32 => inferInstanceAs (Unambiguous UInt32)
  | .u64 => inferInstanceAs (Unambiguous UInt64)
  | .u128 => inferInstanceAs (Unambiguous U128)
  | .u256 => inferInstanceAs (Unambiguous U256)
  | .u512 => inferInstanceAs (Unambiguous U512)
  | .unit => inferInstanceAs (Unambiguous Unit)
  | .string => inferInstanceAs (Unambiguous String)
  | .key => inferInstanceAs (Unambiguous Key)
  | .uref => inferInstanceAs (Unambiguous URef)
  | .publicKey => inferInstanceAs (Unambiguous PublicKey)
  | .bytes => inferInstanceAs (Unambiguous Blob)
  | .accessRights => inferInstanceAs (Unambiguous AccessRights)
  | .accountHash => inferInstanceAs (Unambiguous AccountHash)
  | .digest => inferInstanceAs (Unambiguous Digest)
  | .signature => inferInstanceAs (Unambiguous Signature)

namespace Native

instance uniformlyEmpty : (t : Native) → UniformlyEmpty t.Value
  | .scalar s => s.uniformlyEmpty
  | .byteArray size => inferInstanceAs (UniformlyEmpty (Octets size.toNat))
  | .option t => inferInstanceAs (UniformlyEmpty (Option t.Value))
  | .list t => inferInstanceAs (UniformlyEmpty (List t.Value))
  | .result a b => inferInstanceAs (UniformlyEmpty (Except b.Value a.Value))
  | .map k v => inferInstanceAs (UniformlyEmpty (SortedMap k.Value k.carrier.sortKey v.Value))
  | .tuple1 t => t.uniformlyEmpty
  | .tuple2 a b =>
    have := a.uniformlyEmpty
    have := b.uniformlyEmpty
    inferInstanceAs (UniformlyEmpty (a.Value × b.Value))
  | .tuple3 a b c =>
    have := a.uniformlyEmpty
    have := b.uniformlyEmpty
    have := c.uniformlyEmpty
    inferInstanceAs (UniformlyEmpty (a.Value × b.Value × c.Value))

instance unambiguous : (t : Native) → Unambiguous t.Value
  | .scalar s => s.unambiguous
  | .byteArray size => inferInstanceAs (Unambiguous (Octets size.toNat))
  | .option t =>
    have := t.unambiguous
    inferInstanceAs (Unambiguous (Option t.Value))
  | .list t =>
    have := t.unambiguous
    inferInstanceAs (Unambiguous (List t.Value))
  | .result a b =>
    have := a.unambiguous
    have := b.unambiguous
    inferInstanceAs (Unambiguous (Except b.Value a.Value))
  | .map k v =>
    have := k.unambiguous
    have := v.unambiguous
    inferInstanceAs (Unambiguous (SortedMap k.Value k.carrier.sortKey v.Value))
  | .tuple1 t => t.unambiguous
  | .tuple2 a b =>
    have := a.unambiguous
    have := b.unambiguous
    inferInstanceAs (Unambiguous (a.Value × b.Value))
  | .tuple3 a b c =>
    have := a.unambiguous
    have := b.unambiguous
    have := c.unambiguous
    inferInstanceAs (Unambiguous (a.Value × b.Value × c.Value))

/-! ## Descriptors -/

/-- The descriptor is put together as the code is. -/
inductive IsDescribedBy : Native → ClType → Prop
  | scalar {s : Scalar} {c : ClType} (h : s.clType? = some c) : IsDescribedBy (.scalar s) c
  | byteArray {size : UInt32} : IsDescribedBy (.byteArray size) (.byteArray size)
  | option {t : Native} {c : ClType} (h : IsDescribedBy t c) :
    IsDescribedBy (.option t) (.option c)
  | list {t : Native} {c : ClType} (h : IsDescribedBy t c) : IsDescribedBy (.list t) (.list c)
  | result {a b : Native} {ok err : ClType} (ha : IsDescribedBy a ok) (hb : IsDescribedBy b err) :
    IsDescribedBy (.result a b) (.result ok err)
  | map {k v : Native} {key value : ClType} (hk : IsDescribedBy k key)
    (hv : IsDescribedBy v value) : IsDescribedBy (.map k v) (.map key value)
  | tuple1 {t : Native} {c : ClType} (h : IsDescribedBy t c) :
    IsDescribedBy (.tuple1 t) (.tuple1 c)
  | tuple2 {a b : Native} {first second : ClType} (ha : IsDescribedBy a first)
    (hb : IsDescribedBy b second) : IsDescribedBy (.tuple2 a b) (.tuple2 first second)
  | tuple3 {a b c : Native} {first second third : ClType} (ha : IsDescribedBy a first)
    (hb : IsDescribedBy b second) (hc : IsDescribedBy c third) :
    IsDescribedBy (.tuple3 a b c) (.tuple3 first second third)

/-- A native type that has a description is described by it, part by part. -/
theorem isDescribedBy_of_clType? {t : Native} {clType : ClType} (ht : t.clType? = some clType) :
    t.IsDescribedBy clType := by
  induction t generalizing clType with
  | scalar s => exact .scalar ht
  | byteArray size =>
    obtain rfl := Option.some.inj ht
    exact .byteArray
  | option t ih =>
    obtain ⟨inner, hinner, hclType⟩ := Option.bind_eq_some_iff.1 ht
    obtain rfl := Option.some.inj hclType
    exact .option (ih hinner)
  | list t ih =>
    obtain ⟨element, helement, hclType⟩ := Option.bind_eq_some_iff.1 ht
    obtain rfl := Option.some.inj hclType
    exact .list (ih helement)
  | result a b iha ihb =>
    obtain ⟨ok, hok, hresult⟩ := Option.bind_eq_some_iff.1 ht
    obtain ⟨err, herr, hclType⟩ := Option.bind_eq_some_iff.1 hresult
    obtain rfl := Option.some.inj hclType
    exact .result (iha hok) (ihb herr)
  | map k v ihk ihv =>
    obtain ⟨key, hkey, hmap⟩ := Option.bind_eq_some_iff.1 ht
    obtain ⟨value, hvalue, hclType⟩ := Option.bind_eq_some_iff.1 hmap
    obtain rfl := Option.some.inj hclType
    exact .map (ihk hkey) (ihv hvalue)
  | tuple1 t ih =>
    obtain ⟨first, hfirst, hclType⟩ := Option.bind_eq_some_iff.1 ht
    obtain rfl := Option.some.inj hclType
    exact .tuple1 (ih hfirst)
  | tuple2 a b iha ihb =>
    obtain ⟨first, hfirst, hpair⟩ := Option.bind_eq_some_iff.1 ht
    obtain ⟨second, hsecond, hclType⟩ := Option.bind_eq_some_iff.1 hpair
    obtain rfl := Option.some.inj hclType
    exact .tuple2 (iha hfirst) (ihb hsecond)
  | tuple3 a b c iha ihb ihc =>
    obtain ⟨first, hfirst, hpair⟩ := Option.bind_eq_some_iff.1 ht
    obtain ⟨second, hsecond, htriple⟩ := Option.bind_eq_some_iff.1 hpair
    obtain ⟨third, hthird, hclType⟩ := Option.bind_eq_some_iff.1 htriple
    obtain rfl := Option.some.inj hclType
    exact .tuple3 (iha hfirst) (ihb hsecond) (ihc hthird)

/-! ## Keys in values -/

/-- Every public key in the value is accepted. -/
def AllKeys (accepts : PublicKey → Prop) : (t : Native) → t.Value → Prop
  | .scalar .publicKey, key => accepts key
  | .scalar _, _ => True
  | .byteArray _, _ => True
  | .option _, none => True
  | .option t, some x => t.AllKeys accepts x
  | .list t, xs =>
    let items : List t.Value := xs
    ∀ x ∈ items, t.AllKeys accepts x
  | .result a _, .ok x => a.AllKeys accepts x
  | .result _ b, .error e => b.AllKeys accepts e
  | .map k v, m =>
    let entries : List (k.Value × v.Value) := m.entries
    ∀ entry ∈ entries, k.AllKeys accepts entry.1 ∧ v.AllKeys accepts entry.2
  | .tuple1 t, x => t.AllKeys accepts x
  | .tuple2 a b, x => a.AllKeys accepts x.1 ∧ b.AllKeys accepts x.2
  | .tuple3 a b c, x => a.AllKeys accepts x.1 ∧ b.AllKeys accepts x.2.1 ∧ c.AllKeys accepts x.2.2

/-! ## Written forms -/

section Items

variable {α β : Type} [Wire α] [Wire β] {Q Q' : Bytes → Prop}

theorem exists_fronts_of_writeItems {xs : List α} {body : Bytes}
    (h : ∀ x ∈ xs, ∀ front, Wire.write x = .ok front → Q front)
    (hw : Wire.writeItems xs = .ok body) : ∃ fronts : List Bytes, fronts.length = xs.length ∧
      (∀ front ∈ fronts, Q front ∧ ∃ x : α, Wire.write x = .ok front) ∧
      body = fronts.flatten := by
  induction xs generalizing body with
  | nil =>
    obtain rfl := Except.ok.inj hw
    exact ⟨[], rfl, by simp, rfl⟩
  | cons x xs ih =>
    obtain ⟨front, back, hfront, hback, rfl⟩ := Wire.writeItems_cons.1 hw
    obtain ⟨fronts, hlength, hfronts, rfl⟩ :=
      ih (fun y hy ↦ h y (List.mem_cons_of_mem x hy)) hback
    refine ⟨front :: fronts, by simp [hlength], List.forall_mem_cons.2 ⟨?_, hfronts⟩, rfl⟩
    exact ⟨h x List.mem_cons_self front hfront, x, hfront⟩

/-- The bytes of different keys differ. -/
theorem exists_entries_of_writeItems [Unambiguous α] {xs : List (α × β)} {body : Bytes}
    (hkeys : ∀ x ∈ xs, ∀ front, Wire.write x.1 = .ok front → Q front)
    (hvalues : ∀ x ∈ xs, ∀ front, Wire.write x.2 = .ok front → Q' front)
    (hdistinct : xs.Pairwise fun x y ↦ x.1 ≠ y.1) (hw : Wire.writeItems xs = .ok body) :
    ∃ entries : List (Bytes × Bytes), entries.length = xs.length ∧
      (∀ entry ∈ entries, Q entry.1) ∧ (∀ entry ∈ entries, Q' entry.2) ∧
      (∀ entry ∈ entries, ∃ x ∈ xs, Wire.write x.1 = .ok entry.1) ∧
      (entries.map (·.1)).Nodup ∧ body = entries.flatMap fun entry ↦ entry.1 ++ entry.2 := by
  induction xs generalizing body with
  | nil =>
    obtain rfl := Except.ok.inj hw
    exact ⟨[], rfl, by simp⟩
  | cons x xs ih =>
    obtain ⟨hx, hxs⟩ := List.pairwise_cons.1 hdistinct
    obtain ⟨front, back, hfront, hback, rfl⟩ := Wire.writeItems_cons.1 hw
    obtain ⟨key, value, hkey, hvalue, rfl⟩ := Wire.writePair_eq_ok.1 hfront
    obtain ⟨entries, hlength, hkeys', hvalues', hwritten, hnodup, rfl⟩ :=
      ih (fun y hy ↦ hkeys y (List.mem_cons_of_mem x hy))
        (fun y hy ↦ hvalues y (List.mem_cons_of_mem x hy)) hxs hback
    have hfresh : key ∉ entries.map (·.1) := by
      intro hmem
      obtain ⟨entry, hentry, rfl⟩ := List.mem_map.1 hmem
      obtain ⟨y, hy, hwrite⟩ := hwritten entry hentry
      exact hx y hy (Wire.write_injective hkey hwrite)
    refine ⟨(key, value) :: entries, by simp [hlength],
      List.forall_mem_cons.2 ⟨hkeys x List.mem_cons_self key hkey, hkeys'⟩,
      List.forall_mem_cons.2 ⟨hvalues x List.mem_cons_self value hvalue, hvalues'⟩,
      List.forall_mem_cons.2 ⟨⟨x, List.mem_cons_self, hkey⟩, fun entry hentry ↦ ?_⟩,
      List.nodup_cons.2 ⟨hfresh, hnodup⟩, rfl⟩
    obtain ⟨y, hy, hwrite⟩ := hwritten entry hentry
    exact ⟨y, List.mem_cons_of_mem x hy, hwrite⟩

end Items

end Native

section Written

variable {accepts : PublicKey → Prop} {clType : ClType} {front : Bytes}

/-- Bytes are spelled as a list of single bytes, the type they are described by. -/
theorem Blob.spellsIf_of_write {P : Prop} {x : Blob} (hw : Wire.write x = .ok front) :
    (ClType.list (.leaf .u8)).SpellsIf P front := by
  obtain ⟨count, hcount, rfl⟩ := Wire.writeBlock_eq_ok.1 hw
  have hbytes : x.toList = (x.toList.map fun b ↦ [b]).flatten := by
    rw [← List.flatMap_def, List.flatMap_singleton']
  rw [hbytes]
  apply ClType.SpellsIf.list
  · rwa [List.length_map]
  · intro byte hbyte
    obtain ⟨b, -, rfl⟩ := List.mem_map.1 hbyte
    exact ClLeaf.walkedAs_u8.spellsIf (Wire.Lossless.readable b) rfl
  · intro _ byte hbyte
    obtain ⟨b, -, rfl⟩ := List.mem_map.1 hbyte
    exact List.cons_ne_nil b []

/-- A key that is not accepted is shown as nothing. -/
theorem PublicKey.spellsIf_of_write {key : PublicKey} (hkey : accepts key)
    (hw : Wire.write key = .ok front) :
    (ClType.leaf .publicKey).SpellsIf (∀ key, accepts key → key.IsAccepted) front := by
  by_cases haccepted : key.IsAccepted
  · exact ClLeaf.walkedAs_publicKey.spellsIf haccepted.readable hw
  · obtain rfl := Except.ok.inj hw
    refine ⟨none, .leaf ⟨fun rest ↦ ?_, nofun⟩, fun hP ↦ absurd (hP key hkey) haccepted⟩
    rw [ClLeaf.walkedAs_publicKey.render_eq, renderOne, Wire.toOption_bind,
      toOption_read_of_not_isAccepted haccepted]
    rfl

/-- A scalar is spelled by its leaf; a public key is shown if it is accepted. -/
theorem Scalar.spellsIf_of_write {s : Scalar} {x : s.Value} (hs : s.clType? = some clType)
    (hx : (Native.scalar s).AllKeys accepts x) (hw : Wire.write x = .ok front) :
    clType.SpellsIf (∀ key, accepts key → key.IsAccepted) front := by
  cases s with
  | u16 | accessRights | accountHash | digest | signature => cases hs
  | bool =>
    obtain rfl := Option.some.inj hs
    exact ClLeaf.walkedAs_bool.spellsIf (Wire.Lossless.readable x) hw
  | i32 =>
    obtain rfl := Option.some.inj hs
    exact ClLeaf.walkedAs_i32.spellsIf (Wire.Lossless.readable x) hw
  | i64 =>
    obtain rfl := Option.some.inj hs
    exact ClLeaf.walkedAs_i64.spellsIf (Wire.Lossless.readable x) hw
  | u8 =>
    obtain rfl := Option.some.inj hs
    exact ClLeaf.walkedAs_u8.spellsIf (Wire.Lossless.readable x) hw
  | u32 =>
    obtain rfl := Option.some.inj hs
    exact ClLeaf.walkedAs_u32.spellsIf (Wire.Lossless.readable x) hw
  | u64 =>
    obtain rfl := Option.some.inj hs
    exact ClLeaf.walkedAs_u64.spellsIf (Wire.Lossless.readable x) hw
  | u128 =>
    obtain rfl := Option.some.inj hs
    exact ClLeaf.walkedAs_u128.spellsIf (Wire.Lossless.readable x) hw
  | u256 =>
    obtain rfl := Option.some.inj hs
    exact ClLeaf.walkedAs_u256.spellsIf (Wire.Lossless.readable x) hw
  | u512 =>
    obtain rfl := Option.some.inj hs
    exact ClLeaf.walkedAs_u512.spellsIf (Wire.Lossless.readable x) hw
  | unit =>
    obtain rfl := Option.some.inj hs
    exact ClLeaf.walkedAs_unit.spellsIf (Wire.Lossless.readable x) hw
  | string =>
    obtain rfl := Option.some.inj hs
    exact ClLeaf.walkedAs_string.spellsIf (Wire.Lossless.readable x) hw
  | key =>
    obtain rfl := Option.some.inj hs
    exact ClLeaf.walkedAs_key.spellsIf (Wire.Lossless.readable x) hw
  | uref =>
    obtain rfl := Option.some.inj hs
    exact ClLeaf.walkedAs_uref.spellsIf (Wire.Lossless.readable x) hw
  | publicKey =>
    obtain rfl := Option.some.inj hs
    exact PublicKey.spellsIf_of_write hx hw
  | bytes =>
    obtain rfl := Option.some.inj hs
    exact Blob.spellsIf_of_write hw

end Written

namespace Native

/-- What a native value writes is spelled by the grammar of its described type. -/
theorem spellsIf_of_write {accepts : PublicKey → Prop} {t : Native} {clType : ClType} {x : t.Value}
    {front : Bytes} (ht : t.IsDescribedBy clType) (hx : t.AllKeys accepts x)
    (hw : Wire.write x = .ok front) :
    clType.SpellsIf (∀ key, accepts key → key.IsAccepted) front := by
  induction ht generalizing front with
  | scalar hs => exact Scalar.spellsIf_of_write hs hx hw
  | byteArray =>
    obtain rfl := Except.ok.inj hw
    exact .byteArray (Octets.length_toList x)
  | option _ ih =>
    cases x with
    | none =>
      obtain rfl := Except.ok.inj hw
      exact .none
    | some x =>
      obtain ⟨body, hbody, rfl⟩ := Wire.isWrittenTagged_some.write_eq_ok.1 hw
      exact (ih hx hbody).some
  | list _ ih =>
    obtain ⟨count, body, hcount, hbody, hbytes, rfl⟩ := Wire.writeList_eq_ok.1 hw
    obtain ⟨fronts, hlength, hfronts, rfl⟩ := exists_fronts_of_writeItems
      (fun y hy front hfront ↦ ih (hx y hy) hfront) hbody
    rw [← hlength] at hcount hbytes
    refine .list hcount (fun front hfront ↦ (hfronts front hfront).1) fun hlong front hfront ↦ ?_
    rintro rfl
    obtain ⟨y, hy⟩ := (hfronts [] hfront).2
    exact hbytes hlong (Wire.eq_nil_of_writeItems hy hbody)
  | result _ _ iha ihb =>
    cases x with
    | ok x =>
      obtain ⟨body, hbody, rfl⟩ := Wire.isWrittenTagged_ok.write_eq_ok.1 hw
      exact (iha hx hbody).ok
    | error x =>
      obtain ⟨body, hbody, rfl⟩ := Wire.isWrittenTagged_error.write_eq_ok.1 hw
      exact (ihb hx hbody).err
  | @map k v _ _ _ _ ihk ihv =>
    obtain ⟨count, body, hcount, hbody, rfl⟩ := Wire.writeMap_eq_ok.1 hw
    have hdistinct := (SortedMap.pairwise_ne_of_perm (.refl x.entries)).imp
      fun {p q} hne heq ↦ hne (congrArg k.carrier.sortKey heq)
    obtain ⟨entries, hlength, hkeys, hvalues, -, hnodup, rfl⟩ := exists_entries_of_writeItems
      (fun entry hentry front hfront ↦ ihk (hx entry hentry).1 hfront)
      (fun entry hentry front hfront ↦ ihv (hx entry hentry).2 hfront) hdistinct hbody
    rw [← hlength] at hcount
    exact .map hcount hkeys hvalues hnodup
  | tuple1 _ ih => exact (ih hx hw).tuple1
  | tuple2 _ _ iha ihb =>
    obtain ⟨front, back, hfront, hback, rfl⟩ := Wire.writePair_eq_ok.1 hw
    exact (iha hx.1 hfront).tuple2 (ihb hx.2 hback)
  | tuple3 _ _ _ iha ihb ihc =>
    obtain ⟨front, back, hfront, hback, rfl⟩ := Wire.writePair_eq_ok.1 hw
    obtain ⟨middle, last, hmiddle, hlast, rfl⟩ := Wire.writePair_eq_ok.1 hback
    exact (iha hx.1 hfront).tuple3 (ihb hx.2.1 hmiddle) (ihc hx.2.2 hlast)

end Native

end ChainClient
