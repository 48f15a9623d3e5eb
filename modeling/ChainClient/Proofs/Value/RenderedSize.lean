import ChainClient.Proofs.Value.Agreement
import ChainClient.Proofs.Value.Rendering
import ChainClient.Proofs.Wire.Width

/-!
# How much is shown of accepted bytes

The number of items in a list or a map is read from the bytes, and items may take no bytes at all,
so four bytes could ask for very many values. What is accepted is bounded nevertheless: a list
with items that take no bytes has to be short, and at most one key of a map takes none, since
another one would repeat it. Each part is therefore charged to the bytes that it takes, at a
fixed number of nodes for each byte, and only the parts that take none need an allowance of
their own.
-/

namespace ChainClient

open Wire (bind_eq_ok bind_of_eq_ok pure_eq_ok)

/-! ## Sizes -/

namespace Json

mutual

/-- The number of values in a value, itself included. Names are not counted. -/
def nodes : Json → Nat
  | .arr items => 1 + nodesOfItems items
  | .obj members => 1 + nodesOfMembers members
  | _ => 1

def nodesOfItems : List Json → Nat
  | [] => 0
  | item :: items => nodes item + nodesOfItems items

def nodesOfMembers : List (String × Json) → Nat
  | [] => 0
  | (_, value) :: members => nodes value + nodesOfMembers members

end

theorem nodes_tagged (name : String) (value : Json) :
    nodes (.obj [(name, value)]) = 1 + nodes value := rfl

theorem nodes_singleton (value : Json) : nodes (.arr [value]) = 1 + nodes value := rfl

end Json

namespace ClType

/-- The number of constructors. -/
def size : ClType → Nat
  | .leaf _ => 1
  | .option t => 1 + t.size
  | .list t => 1 + t.size
  | .byteArray _ => 1
  | .result a b => 1 + (a.size + b.size)
  | .map k v => 1 + (k.size + v.size)
  | .tuple1 t => 1 + t.size
  | .tuple2 a b => 1 + (a.size + b.size)
  | .tuple3 a b c => 1 + (a.size + (b.size + c.size))

end ClType

/-! ## Allowances -/

/-- A list whose items take no bytes is charged to the bytes of its length, and the list itself is
one node more. -/
def nodesPerByte : Nat := Limits.maxZeroWidthElements + 1

/-- The nodes for each constructor of the type, if the value takes `used` bytes. -/
def allowance (used : Nat) : Nat := max 1 (nodesPerByte * used)

theorem one_le_allowance (used : Nat) : 1 ≤ allowance used := Nat.le_max_left _ _

theorem allowance_of_ne_zero {used : Nat} (h : used ≠ 0) :
    allowance used = nodesPerByte * used :=
  Nat.max_eq_right (Nat.mul_pos (Nat.succ_pos _) (Nat.pos_of_ne_zero h))

theorem allowance_le_one_add (used : Nat) : allowance used ≤ 1 + nodesPerByte * used := by
  unfold allowance
  omega

theorem allowance_mono {m n : Nat} (h : m ≤ n) : allowance m ≤ allowance n := by
  have hmul : nodesPerByte * m ≤ nodesPerByte * n := Nat.mul_le_mul_left _ h
  unfold allowance
  omega

/-- The bytes of a count allow for what is to spare in the items behind it. -/
theorem add_le_allowance {count front : Bytes} {n number : Nat}
    (hcount : Wire.writeCount number = .ok count) (hn : n ≤ 4 * nodesPerByte) :
    n + nodesPerByte * front.length ≤ allowance (count ++ front).length := by
  have hlength : (count ++ front).length = 4 + front.length := by
    rw [List.length_append, Wire.length_of_writeCount hcount]
  rw [hlength, allowance_of_ne_zero (by omega), Nat.mul_add, Nat.mul_comm nodesPerByte 4]
  exact Nat.add_le_add_right hn _

section Sums

variable {m n size size' limit limit' total : Nat}

/-- One node above parts within the same limit. -/
theorem one_add_le_mul (hlimit : 1 ≤ limit) (h : n ≤ size * limit) :
    1 + n ≤ (1 + size) * limit := by
  rw [Nat.add_mul, Nat.one_mul]
  exact Nat.add_le_add hlimit h

/-- Parts of different sizes within the same limit. -/
theorem add_le_add_mul (hm : m ≤ size * limit) (hn : n ≤ size' * limit') (hlimit : limit ≤ total)
    (hlimit' : limit' ≤ total) : m + n ≤ (size + size') * total := by
  rw [Nat.add_mul]
  exact Nat.add_le_add (Nat.le_trans hm (Nat.mul_le_mul_left _ hlimit))
    (Nat.le_trans hn (Nat.mul_le_mul_left _ hlimit'))

/-- Parts one after the other. -/
theorem add_le_mul_allowance {used used' : Nat} (hm : m ≤ size * allowance used)
    (hn : n ≤ size' * allowance used') : m + n ≤ (size + size') * allowance (used + used') :=
  add_le_add_mul hm hn (allowance_mono (Nat.le_add_right _ _))
    (allowance_mono (Nat.le_add_left _ _))

/-- Parts of the same size, each within a limit of its own. -/
theorem add_le_mul_add (hm : m ≤ size * limit) (hn : n ≤ size * limit') :
    m + n ≤ size * (limit + limit') := by
  rw [Nat.mul_add]
  exact Nat.add_le_add hm hn

end Sums

/-! ## Walks within a size -/

/-- Accepted bytes are shown, and each unit of size allows for as many nodes as the bytes do. -/
def ShowsWithin (size : Nat) (skip : Bytes → Except WireError Bytes)
    (render : Bytes → Except WireError (Json × Bytes)) : Prop :=
  ∀ ⦃bytes rest : Bytes⦄, skip bytes = .ok rest → ∃ front value,
    bytes = front ++ rest ∧ render bytes = .ok (value, rest) ∧
      value.nodes ≤ size * allowance front.length

section Steps

variable {size size' : Nat} {skip skip' : Bytes → Except WireError Bytes}
  {render render' : Bytes → Except WireError (Json × Bytes)}

theorem ShowsWithin.mono (h : ShowsWithin size skip render) (hsize : size ≤ size') :
    ShowsWithin size' skip render := by
  intro bytes rest hskip
  obtain ⟨front, value, hbytes, hrender, hnodes⟩ := h hskip
  exact ⟨front, value, hbytes, hrender, Nat.le_trans hnodes (Nat.mul_le_mul_right _ hsize)⟩

/-- The value stands alone in a container. -/
theorem ShowsWithin.map (h : ShowsWithin size skip render) {f : Json → Json}
    (hf : ∀ value, (f value).nodes = 1 + value.nodes) :
    ShowsWithin (1 + size) skip fun bytes ↦ render bytes >>= fun p ↦ .ok (f p.1, p.2) := by
  intro bytes rest hskip
  obtain ⟨front, value, hbytes, hrender, hnodes⟩ := h hskip
  refine ⟨front, f value, hbytes, bind_of_eq_ok hrender rfl, ?_⟩
  rw [hf]
  exact one_add_le_mul (one_le_allowance _) hnodes

/-- Both walks look at a tag byte first, which is not shown. -/
theorem ShowsWithin.tagged {tag tag' : UInt8} {place : TagPlace}
    (h : ShowsWithin size skip render) (h' : ShowsWithin size skip' render') :
    ShowsWithin size
      (fun bytes ↦ (Wire.read bytes : Except WireError (UInt8 × Bytes)) >>= fun p ↦
        if p.1 = tag then skip p.2 else if p.1 = tag' then skip' p.2
        else .error (.unknownTag place p.1))
      (fun bytes ↦ (Wire.read bytes : Except WireError (UInt8 × Bytes)) >>= fun p ↦
        if p.1 = tag then render p.2 else if p.1 = tag' then render' p.2
        else .error (.unknownTag place p.1)) := by
  intro bytes rest hskip
  obtain ⟨⟨byte, middle⟩, hbyte, hnext⟩ := bind_eq_ok.1 hskip
  obtain ⟨_, hwrite, rfl⟩ := Wire.Canonical.write_of_read hbyte
  obtain rfl := Except.ok.inj hwrite
  have hbehind (front : Bytes) {n : Nat} (hn : n ≤ size * allowance front.length) :
      n ≤ size * allowance ([byte] ++ front).length :=
    Nat.le_trans hn (Nat.mul_le_mul_left _ (allowance_mono (Nat.le_succ _)))
  dsimp only at hnext
  split at hnext
  case isTrue htag =>
    obtain ⟨front, value, rfl, hrender, hnodes⟩ := h hnext
    exact ⟨[byte] ++ front, value, rfl, bind_of_eq_ok hbyte (by rwa [if_pos htag]),
      hbehind front hnodes⟩
  case isFalse htag =>
    split at hnext
    case isTrue htag' =>
      obtain ⟨front, value, rfl, hrender, hnodes⟩ := h' hnext
      exact ⟨[byte] ++ front, value, rfl,
        bind_of_eq_ok hbyte (by rwa [if_neg htag, if_pos htag']), hbehind front hnodes⟩
    case isFalse => cases hnext

end Steps

/-! ## Items and entries -/

section Repeated

variable {size size' count n : Nat} {skip skip' : Bytes → Except WireError Bytes}
  {render render' : Bytes → Except WireError (Json × Bytes)} {bytes rest : Bytes}

/-- What an item may be shown as without bytes, in a list of that length. -/
def spareOfItem (count : Nat) : Nat := if Limits.maxZeroWidthElements < count then 0 else 1

/-- All elements without bytes together stay below the allowance of one byte. -/
theorem mul_spareOfItem_lt (count : Nat) : count * spareOfItem count < nodesPerByte := by
  unfold spareOfItem nodesPerByte
  split <;> omega

theorem allowance_le_spareOfItem {used : Nat}
    (h : Limits.maxZeroWidthElements < count → used ≠ 0) :
    allowance used ≤ spareOfItem count + nodesPerByte * used := by
  unfold spareOfItem
  split
  case isTrue hcount =>
    exact Nat.le_of_eq (by rw [allowance_of_ne_zero (h hcount), Nat.zero_add])
  case isFalse => exact allowance_le_one_add used

/-- Elements that the walk accepts are shown within the allowance of their bytes and their count. -/
theorem exists_renderItems_of_skipItems (h : ShowsWithin size skip render)
    (hskip : skipItems skip count n bytes = .ok rest) : ∃ front items,
      bytes = front ++ rest ∧ renderItems render n bytes = .ok (items, rest) ∧
      Json.nodesOfItems items ≤
        size * (n * spareOfItem count + nodesPerByte * front.length) := by
  induction n generalizing bytes with
  | zero =>
    obtain rfl := Except.ok.inj hskip
    exact ⟨[], [], rfl, rfl, Nat.zero_le _⟩
  | succ n ih =>
    obtain ⟨middle, hmiddle, hnext⟩ := bind_eq_ok.1 hskip
    obtain ⟨hcheck, hitems⟩ := Wire.bind_unit_eq_ok.1 hnext
    obtain ⟨front, item, rfl, hitem, hnodes⟩ := h hmiddle
    obtain ⟨back, items, rfl, hrender, hothers⟩ := ih hitems
    refine ⟨front ++ back, item :: items, by rw [List.append_assoc],
      bind_of_eq_ok hitem (bind_of_eq_ok hrender rfl), ?_⟩
    have hbytes : Limits.maxZeroWidthElements < count → front.length ≠ 0 := by
      intro hcount hlength
      refine Wire.checkZeroWidth_eq_ok.1 hcheck hcount ?_
      rw [List.eq_nil_of_length_eq_zero hlength, List.nil_append]
    have hfirst := Nat.le_trans hnodes
      (Nat.mul_le_mul_left size (allowance_le_spareOfItem hbytes))
    calc
      Json.nodesOfItems (item :: items)
      _ ≤ size * _ := add_le_mul_add hfirst hothers
      _ = size * ((n + 1) * spareOfItem count + nodesPerByte * (front ++ back).length) := by
        rw [Nat.succ_mul, List.length_append, Nat.mul_add nodesPerByte]
        congr 1
        omega

/-- What entries may be shown as without bytes for a key, after those that were seen. -/
def spareOfEntries (seen : List Bytes) : Nat := if seen.any List.isEmpty then 0 else 1

/-- A key without bytes uses up what is to spare, since it is seen from then on. -/
theorem exists_limit_of_entry {seen : List Bytes} {key : Bytes} (hnew : key ∉ seen) (used : Nat) :
    ∃ limit, allowance key.length ≤ limit ∧ allowance used ≤ limit ∧
      limit + spareOfEntries (key :: seen) =
        spareOfEntries seen + nodesPerByte * (key.length + used) := by
  by_cases hkey : key = []
  · subst hkey
    refine ⟨1 + nodesPerByte * used, Nat.le_add_right 1 _, allowance_le_one_add used, ?_⟩
    simp [spareOfEntries, hnew]
  · have hlength : key.length + used ≠ 0 := by
      have := List.length_pos_iff.2 hkey
      omega
    refine ⟨allowance (key.length + used), allowance_mono (Nat.le_add_right _ _),
      allowance_mono (Nat.le_add_left _ _), ?_⟩
    rw [allowance_of_ne_zero hlength, Nat.add_comm]
    simp [spareOfEntries, hkey]

/-- Entries that the walk accepts are shown, the key and the value each within its own allowance. -/
theorem exists_renderEntries_of_skipEntries {seen : List Bytes}
    (hkey : ShowsWithin size skip render) (hvalue : ShowsWithin size' skip' render')
    (hskip : skipEntries skip skip' seen n bytes = .ok rest) : ∃ front entries,
      bytes = front ++ rest ∧ renderEntries render render' n bytes = .ok (entries, rest) ∧
      Json.nodesOfItems entries ≤
        (1 + (size + size')) * (spareOfEntries seen + nodesPerByte * front.length) := by
  induction n generalizing bytes seen with
  | zero =>
    obtain rfl := Except.ok.inj hskip
    exact ⟨[], [], rfl, rfl, Nat.zero_le _⟩
  | succ n ih =>
    obtain ⟨middle, hmiddle, hnext⟩ := bind_eq_ok.1 hskip
    obtain ⟨front, key, rfl, hrenderKey, hkeyNodes⟩ := hkey hmiddle
    simp only [take_used] at hnext
    split at hnext
    case isTrue => cases hnext
    case isFalse hnew =>
      obtain ⟨middle', hmiddle', hentries⟩ := bind_eq_ok.1 hnext
      obtain ⟨front', value, rfl, hrenderValue, hvalueNodes⟩ := hvalue hmiddle'
      obtain ⟨back, entries, rfl, hrender, hothers⟩ := ih hentries
      refine ⟨front ++ (front' ++ back), _ :: entries, by simp only [List.append_assoc],
        bind_of_eq_ok hrenderKey (bind_of_eq_ok hrenderValue (bind_of_eq_ok hrender rfl)), ?_⟩
      obtain ⟨limit, hlimit, hlimit', hsum⟩ := exists_limit_of_entry hnew front'.length
      have hentry : Json.nodes (.obj [("key", key), ("value", value)]) ≤
          (1 + (size + size')) * limit :=
        one_add_le_mul (Nat.le_trans (one_le_allowance _) hlimit)
          (add_le_add_mul hkeyNodes hvalueNodes hlimit hlimit')
      calc
        Json.nodesOfItems (_ :: entries)
        _ ≤ (1 + (size + size')) * _ := add_le_mul_add hentry hothers
        _ = (1 + (size + size')) *
            (spareOfEntries seen + nodesPerByte * (front ++ (front' ++ back)).length) := by
          congr 1
          simp only [List.length_append, Nat.mul_add] at hsum ⊢
          omega

end Repeated

namespace ClLeaf

/-- A leaf is shown as one node. -/
theorem nodes_of_render {l : ClLeaf} {bytes rest : Bytes} {value : Json}
    (h : l.render bytes = .ok (value, rest)) : value.nodes = 1 := by
  cases l with
  | unit | any =>
    obtain ⟨rfl, -⟩ := Prod.mk.inj (Except.ok.inj h)
    rfl
  | _ =>
    obtain ⟨x, -, hvalue⟩ := bind_eq_ok.1 h
    obtain ⟨rfl, -⟩ := Prod.mk.inj (pure_eq_ok.1 hvalue)
    rfl

theorem exists_front_of_skip {l : ClLeaf} {bytes rest : Bytes} (h : l.skip bytes = .ok rest) :
    ∃ front, bytes = front ++ rest := by
  by_cases hl : l = .any
  · subst hl
    obtain rfl := Except.ok.inj h
    exact ⟨bytes, (List.append_nil bytes).symm⟩
  · obtain ⟨front, -, hbytes⟩ := (isWalked hl).skipsOnly h
    exact ⟨front, hbytes⟩

theorem showsWithin (l : ClLeaf) : ShowsWithin 1 l.skip l.render := by
  intro bytes rest h
  obtain ⟨front, hbytes⟩ := exists_front_of_skip h
  have hends := l.endsLike bytes
  rw [h] at hends
  obtain ⟨value, hrender⟩ := hends.exists_eq_ok
  refine ⟨front, value, hbytes, hrender, ?_⟩
  rw [nodes_of_render hrender, Nat.one_mul]
  exact one_le_allowance _

end ClLeaf

/-! ## Values -/

namespace ClType

/-- What a type skips it shows, with no more nodes than its size and the bytes used allow. -/
theorem showsWithin (t : ClType) : ShowsWithin t.size t.skip t.render := by
  induction t with
  | leaf l => exact l.showsWithin
  | option t ih =>
    have hnull : ShowsWithin 1 Except.ok fun bytes ↦ .ok (.null, bytes) := by
      intro bytes rest h
      obtain rfl := Except.ok.inj h
      exact ⟨[], .null, rfl, rfl, Nat.le_refl _⟩
    exact (hnull.mono (Nat.le_add_right _ _)).tagged (ih.mono (Nat.le_add_left _ _))
  | list t ih =>
    intro bytes rest h
    obtain ⟨⟨count, middle⟩, hcount, hnext⟩ := bind_eq_ok.1 h
    obtain ⟨front, hfront, rfl⟩ := Wire.readCount_eq_ok.1 hcount
    obtain ⟨back, items, rfl, hrender, hnodes⟩ := exists_renderItems_of_skipItems ih hnext
    refine ⟨front ++ back, .arr items, by rw [List.append_assoc],
      bind_of_eq_ok hcount (bind_of_eq_ok hrender rfl), ?_⟩
    have hspare : count * spareOfItem count ≤ 4 * nodesPerByte :=
      Nat.le_trans (Nat.le_of_lt (mul_spareOfItem_lt count)) (Nat.le_mul_of_pos_left _ (by decide))
    have hlimit : count * spareOfItem count + nodesPerByte * back.length ≤
        allowance (front ++ back).length := add_le_allowance hfront hspare
    exact one_add_le_mul (one_le_allowance _)
      (Nat.le_trans hnodes (Nat.mul_le_mul_left _ hlimit))
  | byteArray n =>
    intro bytes rest h
    obtain ⟨⟨raw, rest'⟩, hsplit, hrest⟩ := bind_eq_ok.1 h
    obtain rfl := pure_eq_ok.1 hrest
    obtain ⟨-, rfl⟩ := Wire.split_eq_ok.1 hsplit
    refine ⟨raw, _, rfl, bind_of_eq_ok hsplit rfl, ?_⟩
    rw [size, Nat.one_mul]
    exact one_le_allowance _
  | result a b iha ihb =>
    have hok := iha.map (Json.nodes_tagged "Ok")
    have herr := ihb.map (Json.nodes_tagged "Err")
    refine (hok.mono ?_).tagged (herr.mono ?_)
    · exact Nat.add_le_add_left (Nat.le_add_right _ _) 1
    · exact Nat.add_le_add_left (Nat.le_add_left _ _) 1
  | map k v ihk ihv =>
    intro bytes rest h
    obtain ⟨⟨count, middle⟩, hcount, hnext⟩ := bind_eq_ok.1 h
    obtain ⟨front, hfront, rfl⟩ := Wire.readCount_eq_ok.1 hcount
    obtain ⟨back, entries, rfl, hrender, hnodes⟩ :=
      exists_renderEntries_of_skipEntries ihk ihv hnext
    refine ⟨front ++ back, .arr entries, by rw [List.append_assoc],
      bind_of_eq_ok hcount (bind_of_eq_ok hrender rfl), ?_⟩
    have harray : 1 ≤ size (.map k v) * 1 := by
      rw [size]
      omega
    refine Nat.le_trans (add_le_mul_add harray hnodes) (Nat.mul_le_mul_left _ ?_)
    rw [← Nat.add_assoc]
    exact add_le_allowance hfront (by decide)
  | tuple1 t ih => exact ih.map Json.nodes_singleton
  | tuple2 a b iha ihb =>
    intro bytes rest h
    obtain ⟨middle, hmiddle, hrest⟩ := bind_eq_ok.1 h
    obtain ⟨front, x, rfl, hx, hnodesX⟩ := iha hmiddle
    obtain ⟨front', y, rfl, hy, hnodesY⟩ := ihb hrest
    refine ⟨front ++ front', .arr [x, y], by rw [List.append_assoc],
      bind_of_eq_ok hx (bind_of_eq_ok hy rfl), ?_⟩
    rw [List.length_append]
    exact one_add_le_mul (one_le_allowance _) (add_le_mul_allowance hnodesX hnodesY)
  | tuple3 a b c iha ihb ihc =>
    intro bytes rest h
    obtain ⟨middle, hmiddle, hnext⟩ := bind_eq_ok.1 h
    obtain ⟨middle', hmiddle', hrest⟩ := bind_eq_ok.1 hnext
    obtain ⟨front, x, rfl, hx, hnodesX⟩ := iha hmiddle
    obtain ⟨front', y, rfl, hy, hnodesY⟩ := ihb hmiddle'
    obtain ⟨front'', z, rfl, hz, hnodesZ⟩ := ihc hrest
    refine ⟨front ++ (front' ++ front''), .arr [x, y, z], by simp only [List.append_assoc],
      bind_of_eq_ok hx (bind_of_eq_ok hy (bind_of_eq_ok hz rfl)), ?_⟩
    rw [List.length_append, List.length_append]
    exact one_add_le_mul (one_le_allowance _)
      (add_le_mul_allowance hnodesX (add_le_mul_allowance hnodesY hnodesZ))

/-- What an accepted value is shown as grows with its bytes and its type alone, whatever counts
the bytes name. -/
theorem nodes_le_of_validate (t : ClType) (bytes : Bytes) (h : t.validate bytes = .ok ()) :
    ∃ value, (ClValue.mk t bytes).parsed? = some value ∧
      value.nodes ≤ 1025 * t.size * max bytes.length 1 := by
  obtain ⟨front, value, hbytes, hrender, hnodes⟩ := t.showsWithin (ClValue.validate_eq_ok.1 h)
  refine ⟨value, by rw [ClValue.parsed?_eq_map, hrender]; rfl, ?_⟩
  obtain rfl : bytes = front := by rw [hbytes, List.append_nil]
  calc
    value.nodes
    _ ≤ t.size * max 1 (1025 * bytes.length) := hnodes
    _ ≤ t.size * (1025 * max bytes.length 1) := Nat.mul_le_mul_left _ (by omega)
    _ = 1025 * t.size * max bytes.length 1 := by rw [← Nat.mul_assoc, Nat.mul_comm t.size]

/-- One byte is mapped to a list of two values without bytes. -/
theorem nodes_le_map_of_units :
    (map (.leaf .u8) (.list (.leaf .unit))).validate [1, 0, 0, 0, 7, 2, 0, 0, 0] = .ok () ∧
      ∃ value, (ClValue.mk (map (.leaf .u8) (.list (.leaf .unit)))
          [1, 0, 0, 0, 7, 2, 0, 0, 0]).parsed? = some value ∧
        value.nodes ≤ 1025 * 4 * 9 := by
  have h : (map (.leaf .u8) (.list (.leaf .unit))).validate [1, 0, 0, 0, 7, 2, 0, 0, 0] =
      .ok () := rfl
  exact ⟨h, nodes_le_of_validate _ _ h⟩

end ClType

end ChainClient
