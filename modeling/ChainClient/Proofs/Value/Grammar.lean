import ChainClient.Proofs.Address.Forms
import ChainClient.Proofs.Document.Parts
import ChainClient.Proofs.Value.Walk
import ChainClient.Proofs.Wire.BigUInt

/-!
# The grammar of described values

What bytes are a value of a described type, and how the value is shown, is stated here once for
both walks. A value is shown as nothing if it holds a key that no reader accepts; every other
value of stated structure is shown, and both walks stop at its end whatever follows. In turn,
the walk that skips values accepts nothing but values of the grammar.
-/

namespace ChainClient

open Wire (bind_eq_ok bind_of_eq_ok pure_eq_ok)

/-! ## The grammar -/

/-- Both walks take the bytes as one leaf; nothing is shown if they refuse it. -/
structure ClLeaf.Spells (l : ClLeaf) (front : Bytes) (shown : Option Json) : Prop where
  render : StepsTo l.render front shown
  skip : shown.isSome → Delimits l.skip front

namespace ClType

/-- The bytes are one value of the type, which is shown as stated. -/
inductive Spells : ClType → Bytes → Option Json → Prop
  | leaf {l : ClLeaf} {front : Bytes} {shown : Option Json} (h : l.Spells front shown) :
    Spells (.leaf l) front shown
  | none {t : ClType} : Spells (.option t) [0] (some .null)
  | some {t : ClType} {front : Bytes} {shown : Option Json} (h : Spells t front shown) :
    Spells (.option t) (1 :: front) shown
  | list {t : ClType} {count : Bytes} {parts : List (Bytes × Option Json)}
    (hcount : Wire.writeCount parts.length = .ok count)
    (hparts : ∀ part ∈ parts, Spells t part.1 part.2)
    (hbytes : Limits.maxZeroWidthElements < parts.length → ∀ part ∈ parts, part.1 ≠ []) :
    Spells (.list t) (count ++ parts.flatMap Prod.fst) ((parts.mapM Prod.snd).map .arr)
  | byteArray {size : UInt32} {front : Bytes} (hlength : front.length = size.toNat) :
    Spells (.byteArray size) front (some (.str (Text.Hex.text front)))
  | ok {a b : ClType} {front : Bytes} {shown : Option Json} (h : Spells a front shown) :
    Spells (.result a b) (1 :: front) (shown.map fun value ↦ .obj [("Ok", value)])
  | err {a b : ClType} {front : Bytes} {shown : Option Json} (h : Spells b front shown) :
    Spells (.result a b) (0 :: front) (shown.map fun value ↦ .obj [("Err", value)])
  | map {k v : ClType} {count : Bytes} {entries : List EntryParts}
    (hcount : Wire.writeCount entries.length = .ok count)
    (hkeys : ∀ entry ∈ entries, Spells k entry.1.1 entry.1.2)
    (hvalues : ∀ entry ∈ entries, Spells v entry.2.1 entry.2.2)
    (hnodup : (entries.map (·.1.1)).Nodup) :
    Spells (.map k v) (count ++ entries.flatMap EntryParts.bytes)
      ((entries.mapM EntryParts.shown).map .arr)
  | tuple1 {t : ClType} {front : Bytes} {shown : Option Json} (h : Spells t front shown) :
    Spells (.tuple1 t) front (shown.map fun x ↦ .arr [x])
  | tuple2 {a b : ClType} {front front' : Bytes} {shown shown' : Option Json}
    (ha : Spells a front shown) (hb : Spells b front' shown') :
    Spells (.tuple2 a b) (front ++ front') (shown.bind fun x ↦ shown'.map fun y ↦ .arr [x, y])
  | tuple3 {a b c : ClType} {front front' front'' : Bytes} {shown shown' shown'' : Option Json}
    (ha : Spells a front shown) (hb : Spells b front' shown') (hc : Spells c front'' shown'') :
    Spells (.tuple3 a b c) (front ++ (front' ++ front''))
      (shown.bind fun x ↦ shown'.bind fun y ↦ shown''.map fun z ↦ .arr [x, y, z])

section Walks

variable {t : ClType} {front : Bytes} {shown : Option Json}

/-- Values of the grammar are shown as stated, whatever follows. -/
theorem Spells.render (h : t.Spells front shown) : StepsTo t.render front shown := by
  induction h with
  | leaf h => exact h.render
  | none => exact fun _ ↦ rfl
  | some _ ih => exact fun rest ↦ ih rest
  | list hcount _ _ ih =>
    intro rest
    have hitems := (stepsTo_renderItems ih).map Json.arr
    rw [ClType.render, List.append_assoc, Wire.readCount_eq_ok.2 ⟨_, hcount, rfl⟩]
    exact hitems rest
  | byteArray hlength => exact (stepsTo_split hlength).map fun raw ↦ Json.str (Text.Hex.text raw)
  | ok _ ih => exact fun rest ↦ ih.map (fun value ↦ Json.obj [("Ok", value)]) rest
  | err _ ih => exact fun rest ↦ ih.map (fun value ↦ Json.obj [("Err", value)]) rest
  | map hcount _ _ _ ihkeys ihvalues =>
    intro rest
    have hentries := (stepsTo_renderEntries ihkeys ihvalues).map Json.arr
    rw [ClType.render, List.append_assoc, Wire.readCount_eq_ok.2 ⟨_, hcount, rfl⟩]
    exact hentries rest
  | tuple1 _ ih => exact ih.map fun x ↦ Json.arr [x]
  | tuple2 _ _ iha ihb => exact iha.bind fun x _ ↦ ihb.map fun y ↦ Json.arr [x, y]
  | tuple3 _ _ _ iha ihb ihc =>
    exact iha.bind fun x _ ↦ ihb.bind fun y _ ↦ ihc.map fun z ↦ Json.arr [x, y, z]

/-- Values that are shown are skipped, whatever follows. -/
theorem Spells.skip (h : t.Spells front shown) (hshown : shown.isSome) :
    Delimits t.skip front := by
  induction h with
  | leaf h => exact h.skip hshown
  | none => exact fun _ ↦ rfl
  | some _ ih => exact fun rest ↦ ih hshown rest
  | list hcount _ hbytes ih =>
    rw [Option.isSome_map] at hshown
    have hparts := isSome_mapM_iff.1 hshown
    have hitems := delimits_skipItems (fun part hpart ↦ ih part hpart (hparts part hpart)) hbytes
    intro rest
    rw [ClType.skip, List.append_assoc, Wire.readCount_eq_ok.2 ⟨_, hcount, rfl⟩]
    exact hitems rest
  | byteArray hlength =>
    intro rest
    rw [ClType.skip, Wire.split_eq_ok.2 ⟨hlength, rfl⟩]
    rfl
  | ok _ ih =>
    rw [Option.isSome_map] at hshown
    exact fun rest ↦ ih hshown rest
  | err _ ih =>
    rw [Option.isSome_map] at hshown
    exact fun rest ↦ ih hshown rest
  | @map k v _ entries hcount _ _ hnodup ihkeys ihvalues =>
    rw [Option.isSome_map] at hshown
    have hparts : ∀ entry ∈ entries, entry.1.2.isSome ∧ entry.2.2.isSome := fun entry hentry ↦
      EntryParts.isSome_shown_iff.1 (isSome_mapM_iff.1 hshown entry hentry)
    have hentries : Delimits (skipEntries k.skip v.skip [] entries.length)
        (entries.flatMap EntryParts.bytes) :=
      delimits_skipEntries (fun entry hentry ↦ ihkeys entry hentry (hparts entry hentry).1)
        (fun entry hentry ↦ ihvalues entry hentry (hparts entry hentry).2)
        (fun _ _ ↦ List.not_mem_nil) hnodup
    intro rest
    rw [ClType.skip, List.append_assoc, Wire.readCount_eq_ok.2 ⟨_, hcount, rfl⟩]
    exact hentries rest
  | tuple1 _ ih =>
    rw [Option.isSome_map] at hshown
    exact ih hshown
  | @tuple2 _ _ _ _ shown _ _ _ iha ihb =>
    cases shown with
    | none => cases hshown
    | some x => exact (iha rfl).bind (ihb (by simpa using hshown))
  | @tuple3 _ _ _ _ _ _ shown shown' _ _ _ _ iha ihb ihc =>
    cases shown with
    | none => cases hshown
    | some x =>
      cases shown' with
      | none => cases hshown
      | some y => exact (iha rfl).bind ((ihb rfl).bind (ihc (by simpa using hshown)))

end Walks

/-! ## Values that are shown under an assumption -/

/-- The bytes are one value of the type, which is shown if the assumption holds. -/
def SpellsIf (P : Prop) (t : ClType) (front : Bytes) : Prop :=
  ∃ shown, t.Spells front shown ∧ (P → shown.isSome)

namespace SpellsIf

variable {P : Prop} {t a b c k v : ClType} {front front' front'' count : Bytes}

theorem of_true (h : t.SpellsIf True front) : t.SpellsIf P front := by
  obtain ⟨shown, hspells, hshown⟩ := h
  exact ⟨shown, hspells, fun _ ↦ hshown trivial⟩

/-- What the grammar spells, the walk takes off the front of any input. -/
theorem delimits (h : t.SpellsIf P front) (hP : P) : Delimits t.skip front := by
  obtain ⟨shown, hspells, hshown⟩ := h
  exact hspells.skip (hshown hP)

theorem none : (option t).SpellsIf P [0] := ⟨_, .none, fun _ ↦ rfl⟩

theorem some (h : t.SpellsIf P front) : (option t).SpellsIf P (1 :: front) := by
  obtain ⟨shown, hspells, hshown⟩ := h
  exact ⟨shown, .some hspells, hshown⟩

/-- The spellings of the elements can be chosen together with what is shown for them. -/
theorem exists_parts {fronts : List Bytes} (h : ∀ front ∈ fronts, t.SpellsIf P front) :
    ∃ parts : List (Bytes × Option Json), parts.map Prod.fst = fronts ∧
      ∀ part ∈ parts, t.Spells part.1 part.2 ∧ (P → part.2.isSome) := by
  induction fronts with
  | nil => exact ⟨[], rfl, by simp⟩
  | cons front fronts ih =>
    obtain ⟨shown, hfront⟩ := h front List.mem_cons_self
    obtain ⟨parts, rfl, hparts⟩ := ih fun other hother ↦ h other (List.mem_cons_of_mem front hother)
    exact ⟨(front, shown) :: parts, rfl, List.forall_mem_cons.2 ⟨hfront, hparts⟩⟩

/-- A list is spelled by its count and the spellings of its elements. -/
theorem list {fronts : List Bytes} (hcount : Wire.writeCount fronts.length = .ok count)
    (h : ∀ front ∈ fronts, t.SpellsIf P front)
    (hbytes : Limits.maxZeroWidthElements < fronts.length → ∀ front ∈ fronts, front ≠ []) :
    (list t).SpellsIf P (count ++ fronts.flatten) := by
  obtain ⟨parts, rfl, hparts⟩ := exists_parts h
  rw [List.length_map] at hcount hbytes
  refine ⟨_, .list hcount (fun part hpart ↦ (hparts part hpart).1) ?_, fun hP ↦ ?_⟩
  · exact fun hlong part hpart ↦ hbytes hlong part.1 (List.mem_map_of_mem hpart)
  · rw [Option.isSome_map]
    exact isSome_mapM_iff.2 fun part hpart ↦ (hparts part hpart).2 hP

theorem byteArray {size : UInt32} (hlength : front.length = size.toNat) :
    (byteArray size).SpellsIf P front := ⟨_, .byteArray hlength, fun _ ↦ rfl⟩

theorem ok (h : a.SpellsIf P front) : (result a b).SpellsIf P (1 :: front) := by
  obtain ⟨shown, hspells, hshown⟩ := h
  exact ⟨_, .ok hspells, by simpa using hshown⟩

theorem err (h : b.SpellsIf P front) : (result a b).SpellsIf P (0 :: front) := by
  obtain ⟨shown, hspells, hshown⟩ := h
  exact ⟨_, .err hspells, by simpa using hshown⟩

/-- An entry in bytes, without what is shown. -/
def entryBytes (entry : EntryParts) : Bytes × Bytes := (entry.1.1, entry.2.1)

theorem exists_entryParts {entries : List (Bytes × Bytes)}
    (hkeys : ∀ entry ∈ entries, k.SpellsIf P entry.1)
    (hvalues : ∀ entry ∈ entries, v.SpellsIf P entry.2) :
    ∃ parts : List EntryParts, parts.map entryBytes = entries ∧
      ∀ part ∈ parts, k.Spells part.1.1 part.1.2 ∧ v.Spells part.2.1 part.2.2 ∧
        (P → part.shown.isSome) := by
  induction entries with
  | nil => exact ⟨[], rfl, by simp⟩
  | cons entry entries ih =>
    obtain ⟨key, hkey, hshownKey⟩ := hkeys entry List.mem_cons_self
    obtain ⟨value, hvalue, hshownValue⟩ := hvalues entry List.mem_cons_self
    obtain ⟨parts, rfl, hparts⟩ := ih
      (fun other hother ↦ hkeys other (List.mem_cons_of_mem entry hother))
      fun other hother ↦ hvalues other (List.mem_cons_of_mem entry hother)
    have hshown (hP : P) : (EntryParts.shown ((entry.1, key), (entry.2, value))).isSome :=
      EntryParts.isSome_shown_iff.2 ⟨hshownKey hP, hshownValue hP⟩
    exact ⟨((entry.1, key), (entry.2, value)) :: parts, rfl,
      List.forall_mem_cons.2 ⟨⟨hkey, hvalue, hshown⟩, hparts⟩⟩

/-- A map is spelled by its count and its entries, with no key standing twice. -/
theorem map {entries : List (Bytes × Bytes)} (hcount : Wire.writeCount entries.length = .ok count)
    (hkeys : ∀ entry ∈ entries, k.SpellsIf P entry.1)
    (hvalues : ∀ entry ∈ entries, v.SpellsIf P entry.2) (hnodup : (entries.map (·.1)).Nodup) :
    (map k v).SpellsIf P (count ++ entries.flatMap fun entry ↦ entry.1 ++ entry.2) := by
  obtain ⟨parts, rfl, hparts⟩ := exists_entryParts hkeys hvalues
  rw [List.length_map] at hcount
  rw [List.map_map] at hnodup
  rw [List.flatMap_map]
  refine ⟨_, .map hcount (fun part hpart ↦ (hparts part hpart).1)
    (fun part hpart ↦ (hparts part hpart).2.1) hnodup, fun hP ↦ ?_⟩
  rw [Option.isSome_map]
  exact isSome_mapM_iff.2 fun part hpart ↦ (hparts part hpart).2.2 hP

theorem tuple1 (h : t.SpellsIf P front) : (tuple1 t).SpellsIf P front := by
  obtain ⟨shown, hspells, hshown⟩ := h
  exact ⟨_, .tuple1 hspells, by simpa using hshown⟩

theorem tuple2 (ha : a.SpellsIf P front) (hb : b.SpellsIf P front') :
    (tuple2 a b).SpellsIf P (front ++ front') := by
  obtain ⟨x, hx, hshownX⟩ := ha
  obtain ⟨y, hy, hshownY⟩ := hb
  refine ⟨_, .tuple2 hx hy, fun hP ↦ ?_⟩
  simp [Option.isSome_bind, hshownX hP, hshownY hP]

theorem tuple3 (ha : a.SpellsIf P front) (hb : b.SpellsIf P front')
    (hc : c.SpellsIf P front'') :
    (tuple3 a b c).SpellsIf P (front ++ (front' ++ front'')) := by
  obtain ⟨x, hx, hshownX⟩ := ha
  obtain ⟨y, hy, hshownY⟩ := hb
  obtain ⟨z, hz, hshownZ⟩ := hc
  refine ⟨_, .tuple3 hx hy hz, fun hP ↦ ?_⟩
  simp [Option.isSome_bind, hshownX hP, hshownY hP, hshownZ hP]

end SpellsIf

/-! ## What is skipped belongs to the grammar -/

/-- No part of the type is of unstated structure. -/
def isStated : ClType → Bool
  | .leaf l => l != .any
  | .option t => t.isStated
  | .list t => t.isStated
  | .byteArray _ => true
  | .result a b => a.isStated && b.isStated
  | .map k v => k.isStated && v.isStated
  | .tuple1 t => t.isStated
  | .tuple2 a b => a.isStated && b.isStated
  | .tuple3 a b c => a.isStated && b.isStated && c.isStated

end ClType

/-! ## Leaves -/

namespace ClLeaf

open ClType (SpellsIf)

/-- Both walks read the leaf as a value of the type. -/
structure WalkedAs (l : ClLeaf) (α : Type) [Wire α] (toJson : α → Json) : Prop where
  render_eq : l.render = renderOne α toJson
  skip_eq : l.skip = skipOne α

variable {l : ClLeaf} {α : Type} [Wire α] {toJson : α → Json}

/-- What a leaf writes is spelled by the grammar of that leaf. -/
theorem WalkedAs.spellsIf {P : Prop} {x : α} {front : Bytes} (h : l.WalkedAs α toJson)
    (hx : Wire.Readable x) (hw : Wire.write x = .ok front) : (ClType.leaf l).SpellsIf P front := by
  refine ⟨some (toJson x), .leaf ⟨?_, fun _ rest ↦ ?_⟩, fun _ ↦ rfl⟩
  · rw [h.render_eq]
    exact (stepsTo_of_readable hx hw).map toJson
  · rw [h.skip_eq]
    exact bind_of_eq_ok (hx front rest hw) rfl

/-- Both walks read the leaf as a value of some type, and what they accept is a written form. -/
def IsWalked (l : ClLeaf) : Prop :=
  ∃ (α : Type) (_ : Wire α) (toJson : α → Json), l.WalkedAs α toJson ∧ Wire.Canonical α ∧
    ∀ {bytes rest : Bytes} {x : α}, Wire.read bytes = .ok (x, rest) → Wire.Readable x

/-- A walked leaf skips its spellings and nothing else. -/
theorem IsWalked.skipsOnly (h : l.IsWalked) : SkipsOnly l.skip ((ClType.leaf l).SpellsIf True) := by
  obtain ⟨α, _, toJson, hwalked, _, hreadable⟩ := h
  intro bytes rest hskip
  rw [hwalked.skip_eq] at hskip
  obtain ⟨⟨x, rest'⟩, hread, hrest⟩ := bind_eq_ok.1 hskip
  obtain rfl := pure_eq_ok.1 hrest
  obtain ⟨front, hw, rfl⟩ := Wire.Canonical.write_of_read hread
  exact ⟨front, hwalked.spellsIf (hreadable hread) hw, rfl⟩

/-- A leaf that is walked through an exact reader accepts written forms only. -/
theorem WalkedAs.isWalked [Wire.Exact α] (h : l.WalkedAs α toJson) : l.IsWalked :=
  ⟨α, _, toJson, h, inferInstance, fun _ ↦ Wire.Lossless.readable _⟩

theorem walkedAs_bool : WalkedAs .bool Bool .bool := ⟨rfl, rfl⟩

theorem walkedAs_i32 : WalkedAs .i32 Int32 fun n ↦ .int n.toInt := ⟨rfl, rfl⟩

theorem walkedAs_i64 : WalkedAs .i64 Int64 fun n ↦ .int n.toInt := ⟨rfl, rfl⟩

theorem walkedAs_u8 : WalkedAs .u8 UInt8 fun n ↦ .int n.toNat := ⟨rfl, rfl⟩

theorem walkedAs_u32 : WalkedAs .u32 UInt32 fun n ↦ .int n.toNat := ⟨rfl, rfl⟩

theorem walkedAs_u64 : WalkedAs .u64 UInt64 fun n ↦ .int n.toNat := ⟨rfl, rfl⟩

theorem walkedAs_u128 : WalkedAs .u128 U128 fun n ↦ .str n.text := ⟨rfl, rfl⟩

theorem walkedAs_u256 : WalkedAs .u256 U256 fun n ↦ .str n.text := ⟨rfl, rfl⟩

theorem walkedAs_u512 : WalkedAs .u512 U512 fun n ↦ .str n.text := ⟨rfl, rfl⟩

theorem walkedAs_unit : WalkedAs .unit Unit fun _ ↦ .null := ⟨rfl, rfl⟩

theorem walkedAs_string : WalkedAs .string String .str := ⟨rfl, rfl⟩

theorem walkedAs_key : WalkedAs .key Key fun k ↦ .str k.text := ⟨rfl, rfl⟩

theorem walkedAs_uref : WalkedAs .uref URef fun u ↦ .str u.text := ⟨rfl, rfl⟩

theorem walkedAs_publicKey : WalkedAs .publicKey PublicKey fun k ↦ .str k.text := ⟨rfl, rfl⟩

/-- Every leaf of stated structure is walked through a reader. -/
theorem isWalked (hl : l ≠ .any) : l.IsWalked := by
  cases l with
  | bool => exact walkedAs_bool.isWalked
  | i32 => exact walkedAs_i32.isWalked
  | i64 => exact walkedAs_i64.isWalked
  | u8 => exact walkedAs_u8.isWalked
  | u32 => exact walkedAs_u32.isWalked
  | u64 => exact walkedAs_u64.isWalked
  | u128 => exact walkedAs_u128.isWalked
  | u256 => exact walkedAs_u256.isWalked
  | u512 => exact walkedAs_u512.isWalked
  | unit => exact walkedAs_unit.isWalked
  | string => exact walkedAs_string.isWalked
  | key => exact walkedAs_key.isWalked
  | uref => exact walkedAs_uref.isWalked
  | publicKey =>
    -- Not every key is readable, but every key that was read is.
    exact ⟨PublicKey, _, _, walkedAs_publicKey, inferInstance,
      fun h ↦ (PublicKey.isAccepted_of_read h).readable⟩
  | any => exact absurd rfl hl

end ClLeaf

namespace ClType

/-- Only values of the grammar are skipped, if no part of the type is of unstated structure. -/
theorem skipsOnly_spellsIf {t : ClType} (ht : t.isStated) : SkipsOnly t.skip (t.SpellsIf True) := by
  induction t with
  | leaf l =>
    have hl : l ≠ .any := by simpa [isStated] using ht
    exact (ClLeaf.isWalked hl).skipsOnly
  | option t ih =>
    intro bytes rest h
    obtain ⟨⟨tag, middle⟩, htag, hnext⟩ := bind_eq_ok.1 h
    obtain ⟨_, hw, rfl⟩ := Wire.Canonical.write_of_read htag
    obtain rfl := Except.ok.inj hw
    dsimp only at hnext
    split at hnext
    case isTrue hzero =>
      obtain rfl := Except.ok.inj hnext
      exact ⟨[tag], hzero ▸ .none, rfl⟩
    split at hnext
    case isTrue hone =>
      obtain ⟨front, hfront, rfl⟩ := ih ht hnext
      exact ⟨tag :: front, hone ▸ hfront.some, rfl⟩
    cases hnext
  | list t ih =>
    intro bytes rest h
    obtain ⟨⟨n, middle⟩, hn, hnext⟩ := bind_eq_ok.1 h
    obtain ⟨count, hcount, rfl⟩ := Wire.readCount_eq_ok.1 hn
    obtain ⟨fronts, rfl, hfronts, hbytes, rfl⟩ := exists_fronts_of_skipItems (ih ht) hnext
    exact ⟨count ++ fronts.flatten, .list hcount hfronts hbytes, by rw [List.append_assoc]⟩
  | byteArray size =>
    intro bytes rest h
    obtain ⟨⟨front, rest'⟩, hsplit, hrest⟩ := bind_eq_ok.1 h
    obtain rfl := pure_eq_ok.1 hrest
    obtain ⟨hlength, rfl⟩ := Wire.split_eq_ok.1 hsplit
    exact ⟨front, .byteArray hlength, rfl⟩
  | result a b iha ihb =>
    obtain ⟨ha, hb⟩ := Bool.and_eq_true_iff.1 ht
    intro bytes rest h
    obtain ⟨⟨tag, middle⟩, htag, hnext⟩ := bind_eq_ok.1 h
    obtain ⟨_, hw, rfl⟩ := Wire.Canonical.write_of_read htag
    obtain rfl := Except.ok.inj hw
    dsimp only at hnext
    split at hnext
    case isTrue hone =>
      obtain ⟨front, hfront, rfl⟩ := iha ha hnext
      exact ⟨tag :: front, hone ▸ hfront.ok, rfl⟩
    split at hnext
    case isTrue hzero =>
      obtain ⟨front, hfront, rfl⟩ := ihb hb hnext
      exact ⟨tag :: front, hzero ▸ hfront.err, rfl⟩
    cases hnext
  | map k v ihk ihv =>
    obtain ⟨hk, hv⟩ := Bool.and_eq_true_iff.1 ht
    intro bytes rest h
    obtain ⟨⟨n, middle⟩, hn, hnext⟩ := bind_eq_ok.1 h
    obtain ⟨count, hcount, rfl⟩ := Wire.readCount_eq_ok.1 hn
    obtain ⟨entries, rfl, hkeys, hvalues, -, hnodup, rfl⟩ :=
      exists_entries_of_skipEntries (ihk hk) (ihv hv) hnext
    exact ⟨_, .map hcount hkeys hvalues hnodup, by rw [List.append_assoc]⟩
  | tuple1 t ih =>
    intro bytes rest h
    obtain ⟨front, hfront, rfl⟩ := ih ht h
    exact ⟨front, hfront.tuple1, rfl⟩
  | tuple2 a b iha ihb =>
    obtain ⟨ha, hb⟩ := Bool.and_eq_true_iff.1 ht
    intro bytes rest h
    obtain ⟨middle, hmiddle, hrest⟩ := bind_eq_ok.1 h
    obtain ⟨front, hfront, rfl⟩ := iha ha hmiddle
    obtain ⟨front', hfront', rfl⟩ := ihb hb hrest
    exact ⟨front ++ front', hfront.tuple2 hfront', by rw [List.append_assoc]⟩
  | tuple3 a b c iha ihb ihc =>
    obtain ⟨hab, hc⟩ := Bool.and_eq_true_iff.1 ht
    obtain ⟨ha, hb⟩ := Bool.and_eq_true_iff.1 hab
    intro bytes rest h
    obtain ⟨middle, hmiddle, hnext⟩ := bind_eq_ok.1 h
    obtain ⟨middle', hmiddle', hrest⟩ := bind_eq_ok.1 hnext
    obtain ⟨front, hfront, rfl⟩ := iha ha hmiddle
    obtain ⟨front', hfront', rfl⟩ := ihb hb hmiddle'
    obtain ⟨front'', hfront'', rfl⟩ := ihc hc hrest
    exact ⟨_, hfront.tuple3 hfront' hfront'', by simp only [List.append_assoc]⟩

end ClType

end ChainClient
