import ChainClient.Proofs.Wire.Container
import ChainClient.Value.Native

/-!
# Sort keys tell values apart

Values are compared through their sort keys, so the order takes two values for equal just when
their keys are. That this happens for equal values only is due to a stronger property, which
passes from parts to composites: what follows the key of a value does not change where it ends,
so a key is never the beginning of another one of the same type. It holds for all native types,
maps included.
-/

namespace ChainClient

open Function (Injective)

namespace SortKey

/-- Whatever follows, the key determines the value and ends where it ends. -/
def IsPrefixFree {α : Type} (key : α → List Int) : Prop :=
  ∀ ⦃x y : α⦄ ⦃rest rest' : List Int⦄, key x ++ rest = key y ++ rest' → x = y ∧ rest = rest'

namespace IsPrefixFree

variable {α β : Type} {key : α → List Int} {key' : β → List Int}

theorem injective (h : IsPrefixFree key) : Injective key := by
  intro x y heq
  have happend : key x ++ [] = key y ++ [] := by rw [heq]
  exact (h happend).1

/-- Keys of one length are prefix-free if they are injective. -/
theorem of_length {n : Nat} (hlength : ∀ x, (key x).length = n) (hinj : Injective key) :
    IsPrefixFree key := by
  intro x y rest rest' h
  obtain ⟨hkey, hrest⟩ := List.append_inj h ((hlength x).trans (hlength y).symm)
  exact ⟨hinj hkey, hrest⟩

theorem singleton {f : α → Int} (hf : Injective f) : IsPrefixFree fun x ↦ [f x] :=
  .of_length (fun _ ↦ rfl) fun _ _ h ↦ hf (List.cons.inj h).1

/-- The values of one type stand for those of another. -/
theorem comp (h : IsPrefixFree key) {f : β → α} (hf : Injective f) :
    IsPrefixFree fun x ↦ key (f x) := by
  intro x y rest rest' happend
  obtain ⟨heq, hrest⟩ := h happend
  exact ⟨hf heq, hrest⟩

theorem pair (h : IsPrefixFree key) (h' : IsPrefixFree key') :
    IsPrefixFree fun p : α × β ↦ key p.1 ++ key' p.2 := by
  intro p q rest rest' happend
  rw [List.append_assoc, List.append_assoc] at happend
  obtain ⟨hfirst, hmiddle⟩ := h happend
  obtain ⟨hsecond, hrest⟩ := h' hmiddle
  exact ⟨Prod.ext hfirst hsecond, hrest⟩

/-- The mark in front of an item differs from the end of the list. -/
theorem ofList (h : IsPrefixFree key) : IsPrefixFree (SortKey.ofList key) := by
  intro xs
  induction xs with
  | nil =>
    intro ys rest rest' happend
    cases ys with
    | nil => exact ⟨rfl, (List.cons.inj happend).2⟩
    | cons y ys => exact absurd (List.cons.inj happend).1 (by decide)
  | cons x xs ih =>
    intro ys rest rest' happend
    cases ys with
    | nil => exact absurd (List.cons.inj happend).1 (by decide)
    | cons y ys =>
      have hcons (z : α) (zs : List α) (rest : List Int) : SortKey.ofList key (z :: zs) ++ rest =
          1 :: (key z ++ (SortKey.ofList key zs ++ rest)) := by simp [SortKey.ofList]
      rw [hcons, hcons] at happend
      obtain ⟨hhead, hmiddle⟩ := h (List.cons.inj happend).2
      obtain ⟨htail, hrest⟩ := ih hmiddle
      exact ⟨by rw [hhead, htail], hrest⟩

end IsPrefixFree

/-! ## Numbers and bytes -/

theorem injective_toNat {α : Type} {toNat : α → Nat} (h : Injective toNat) :
    Injective fun x ↦ (toNat x : Int) := fun _ _ heq ↦ h (Int.ofNat_inj.1 heq)

theorem injective_ofBytes : Injective ofBytes := by
  intro bytes bytes' h
  exact (List.map_inj_right fun b b' heq ↦ UInt8.toNat_inj.1 (Int.ofNat_inj.1 heq)).1 h

/-- A block marks each of its bytes and its end, so no block is the start of a longer one. -/
theorem isPrefixFree_ofBlock : IsPrefixFree ofBlock :=
  .ofList <| .singleton <| injective_toNat fun _ _ ↦ UInt8.toNat_inj.1

/-- Bytes of a fixed number need no mark at their end. -/
theorem isPrefixFree_octets {n : Nat} : IsPrefixFree fun x : Octets n ↦ ofBytes x.toList := by
  refine .of_length (n := n) (fun x ↦ ?_) fun x y h ↦ ?_
  · rw [ofBytes, List.length_map, x.length_toList]
  · cases x
    cases y
    cases injective_ofBytes h
    rfl

end SortKey

open SortKey (IsPrefixFree injective_toNat isPrefixFree_ofBlock isPrefixFree_octets)

/-! ## Scalars -/

theorem BigUInt.isPrefixFree {size : Nat} :
    IsPrefixFree fun n : BigUInt size ↦ [(n.toNat : Int)] := by
  refine .singleton <| injective_toNat fun x y h ↦ ?_
  cases x
  cases y
  cases h
  rfl

/-- Texts are compared by their bytes. -/
theorem isPrefixFree_utf8 : IsPrefixFree fun s : String ↦ SortKey.ofBlock (Wire.utf8 s) := by
  refine isPrefixFree_ofBlock.comp fun s s' h ↦ ?_
  have hread := Wire.fromUTF8?_utf8 s
  rw [h, Wire.fromUTF8?_utf8] at hread
  exact (Option.some.inj hread).symm

theorem Blob.isPrefixFree : IsPrefixFree fun b : Blob ↦ SortKey.ofBlock b.toList :=
  isPrefixFree_ofBlock.comp fun _ _ h ↦ congrArg Blob.mk h

theorem AccessRights.isPrefixFree : IsPrefixFree (sortKey : AccessRights → List Int) := by
  refine .singleton <| injective_toNat fun x y h ↦ ?_
  cases x
  cases y
  cases UInt8.toNat_inj.1 h
  rfl

theorem URef.isPrefixFree : IsPrefixFree (sortKey : URef → List Int) := by
  intro x y rest rest' h
  obtain ⟨hparts, hrest⟩ := (isPrefixFree_octets.pair AccessRights.isPrefixFree)
    (x := (x.address, x.rights)) (y := (y.address, y.rights)) h
  obtain ⟨haddress, hrights⟩ := Prod.mk.inj hparts
  cases x
  cases y
  cases haddress
  cases hrights
  exact ⟨rfl, hrest⟩

theorem AccountHash.isPrefixFree : IsPrefixFree (sortKey : AccountHash → List Int) :=
  isPrefixFree_octets.comp fun _ _ h ↦ congrArg AccountHash.mk h

theorem Digest.isPrefixFree : IsPrefixFree (sortKey : Digest → List Int) :=
  isPrefixFree_octets.comp fun _ _ h ↦ congrArg Digest.mk h

theorem Algorithm.isPrefixFree : IsPrefixFree (sortKey : Algorithm → List Int) := by
  refine .of_length (n := 1) (fun a ↦ ?_) fun a b h ↦ ?_
  · cases a <;> rfl
  · revert h
    cases a <;> cases b <;> decide

theorem Signature.isPrefixFree : IsPrefixFree (sortKey : Signature → List Int) := by
  intro x y rest rest' h
  obtain ⟨hparts, hrest⟩ := (Algorithm.isPrefixFree.pair isPrefixFree_octets)
    (x := (x.algorithm, x.raw)) (y := (y.algorithm, y.raw)) h
  obtain ⟨halgorithm, hraw⟩ := Prod.mk.inj hparts
  cases x
  cases y
  cases halgorithm
  cases hraw
  exact ⟨rfl, hrest⟩

/-- The algorithm comes first and fixes the number of bytes. -/
theorem PublicKey.isPrefixFree : IsPrefixFree (sortKey : PublicKey → List Int) := by
  intro x y rest rest' h
  cases x with
  | ed25519 raw =>
    cases y with
    | ed25519 raw' =>
      obtain ⟨rfl, hrest⟩ := isPrefixFree_octets (List.cons.inj h).2
      exact ⟨rfl, hrest⟩
    | secp256k1 raw' => exact absurd (List.cons.inj h).1 (by decide)
  | secp256k1 raw =>
    cases y with
    | ed25519 raw' => exact absurd (List.cons.inj h).1 (by decide)
    | secp256k1 raw' =>
      obtain ⟨rfl, hrest⟩ := isPrefixFree_octets (List.cons.inj h).2
      exact ⟨rfl, hrest⟩

namespace Key

/-- What follows the tag in the sort key. -/
def sortBody : Key → List Int
  | .address _ bytes => SortKey.ofBytes bytes.toList
  | .uref reference => sortKey reference
  | .era number => [(number.toNat : Int)]

/-- Keys are compared by their kind before their content. -/
theorem sortKey_eq_cons (key : Key) : sortKey key = (key.tag.toNat : Int) :: key.sortBody := by
  cases key <;> rfl

theorem isPrefixFree : IsPrefixFree (sortKey : Key → List Int) := by
  intro x y rest rest' h
  rw [sortKey_eq_cons, sortKey_eq_cons] at h
  obtain ⟨hhead, hbody⟩ := List.cons.inj h
  have htag : x.tag = y.tag := UInt8.toNat_inj.1 (Int.ofNat_inj.1 hhead)
  cases x with
  | address kind bytes =>
    cases y with
    | address kind' bytes' =>
      have hkind : some kind = some kind' := by
        rw [← AddressKind.ofTag?_tag kind, ← AddressKind.ofTag?_tag kind']
        exact congrArg AddressKind.ofTag? htag
      obtain rfl := Option.some.inj hkind
      obtain ⟨rfl, hrest⟩ := isPrefixFree_octets hbody
      exact ⟨rfl, hrest⟩
    | uref reference => cases kind <;> cases htag
    | era number => cases kind <;> cases htag
  | uref reference =>
    cases y with
    | address kind bytes => cases kind <;> cases htag
    | uref reference' =>
      obtain ⟨rfl, hrest⟩ := URef.isPrefixFree hbody
      exact ⟨rfl, hrest⟩
    | era number => cases htag
  | era number =>
    cases y with
    | address kind bytes => cases kind <;> cases htag
    | uref reference => cases htag
    | era number' =>
      obtain ⟨hnumber, hrest⟩ := List.cons.inj hbody
      obtain rfl := UInt64.toNat_inj.1 (Int.ofNat_inj.1 hnumber)
      exact ⟨rfl, hrest⟩

end Key

theorem Scalar.isPrefixFree : (s : Scalar) → IsPrefixFree s.sortKey
  | .bool => .singleton fun x y ↦ by revert x y; decide
  | .i32 => .singleton fun _ _ ↦ Int32.toInt_inj.1
  | .i64 => .singleton fun _ _ ↦ Int64.toInt_inj.1
  | .u8 => .singleton <| injective_toNat fun _ _ ↦ UInt8.toNat_inj.1
  | .u16 => .singleton <| injective_toNat fun _ _ ↦ UInt16.toNat_inj.1
  | .u32 => .singleton <| injective_toNat fun _ _ ↦ UInt32.toNat_inj.1
  | .u64 => .singleton <| injective_toNat fun _ _ ↦ UInt64.toNat_inj.1
  | .u128 | .u256 | .u512 => BigUInt.isPrefixFree
  | .unit => .of_length (n := 0) (fun _ ↦ rfl) fun _ _ _ ↦ rfl
  | .string => isPrefixFree_utf8
  | .key => Key.isPrefixFree
  | .uref => URef.isPrefixFree
  | .publicKey => PublicKey.isPrefixFree
  | .bytes => Blob.isPrefixFree
  | .accessRights => AccessRights.isPrefixFree
  | .accountHash => AccountHash.isPrefixFree
  | .digest => Digest.isPrefixFree
  | .signature => Signature.isPrefixFree

/-! ## Composites -/

namespace Native

namespace Carrier

variable {a b : Carrier}

theorem isPrefixFree_option (h : IsPrefixFree a.sortKey) : IsPrefixFree a.option.sortKey := by
  intro x y rest rest' happend
  cases x with
  | none =>
    cases y with
    | none => exact ⟨rfl, (List.cons.inj happend).2⟩
    | some y => exact absurd (List.cons.inj happend).1 (by decide)
  | some x =>
    cases y with
    | none => exact absurd (List.cons.inj happend).1 (by decide)
    | some y =>
      obtain ⟨rfl, hrest⟩ := h (List.cons.inj happend).2
      exact ⟨rfl, hrest⟩

theorem isPrefixFree_result (h : IsPrefixFree a.sortKey) (h' : IsPrefixFree b.sortKey) :
    IsPrefixFree (a.result b).sortKey := by
  intro x y rest rest' happend
  cases x with
  | ok x =>
    cases y with
    | ok y =>
      obtain ⟨rfl, hrest⟩ := h (List.cons.inj happend).2
      exact ⟨rfl, hrest⟩
    | error y => exact absurd (List.cons.inj happend).1 (by decide)
  | error x =>
    cases y with
    | ok y => exact absurd (List.cons.inj happend).1 (by decide)
    | error y =>
      obtain ⟨rfl, hrest⟩ := h' (List.cons.inj happend).2
      exact ⟨rfl, hrest⟩

end Carrier

/-- Native values of one type are told apart by their sort keys, as map keys must be. -/
theorem isPrefixFree (t : Native) : IsPrefixFree t.carrier.sortKey := by
  induction t with
  | scalar s => exact s.isPrefixFree
  | byteArray size => exact isPrefixFree_octets
  | option t ih => exact Carrier.isPrefixFree_option ih
  | list t ih => exact ih.ofList
  | result a b iha ihb => exact Carrier.isPrefixFree_result iha ihb
  | map k v ihk ihv => exact (ihk.pair ihv).ofList.comp fun _ _ ↦ SortedMap.eq_of_entries_eq
  | tuple1 t ih => exact ih
  | tuple2 a b iha ihb => exact iha.pair ihb
  | tuple3 a b c iha ihb ihc => exact iha.pair (ihb.pair ihc)

/-- Values with one sort key are one value. -/
theorem sortKey_injective (t : Native) : Injective t.carrier.sortKey := t.isPrefixFree.injective

end Native

end ChainClient
