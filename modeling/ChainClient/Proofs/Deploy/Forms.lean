import ChainClient.Deploy.Basic
import ChainClient.Proofs.Document.Parts
import ChainClient.Proofs.Value.Arguments

/-!
# The form of deploys

The form of a deploy is canonical: whatever is read is what would be written of it. In the
other direction a deploy reads back if its keys are accepted and its arguments read back, since
every other part is exact. Nothing is needed for the items to be unambiguous, which is what the
body hash rests on: it covers two of them without a separator.
-/

namespace ChainClient

open Wire (Readable Lossless Canonical Unambiguous UniformlyEmpty IsWrittenTagged)

/-! ## Executable items -/

namespace ExecutableItem

/-- The byte that the written form begins with. -/
def tag : ExecutableItem → UInt8
  | .moduleBytes _ _ => 0
  | .byHash _ _ _ => 1
  | .byName _ _ _ => 2
  | .versionedByHash _ _ _ _ => 3
  | .versionedByName _ _ _ _ => 4
  | .transfer _ => 5

/-! Each alternative is made of the parts that it is written as. -/

def ofModule (parts : Blob × Arguments) : ExecutableItem := .moduleBytes parts.1 parts.2

def ofHash (parts : Digest × String × Arguments) : ExecutableItem :=
  .byHash parts.1 parts.2.1 parts.2.2

def ofName (parts : String × String × Arguments) : ExecutableItem :=
  .byName parts.1 parts.2.1 parts.2.2

def ofVersionedHash (parts : Digest × Option UInt32 × String × Arguments) : ExecutableItem :=
  .versionedByHash parts.1 parts.2.1 parts.2.2.1 parts.2.2.2

def ofVersionedName (parts : String × Option UInt32 × String × Arguments) : ExecutableItem :=
  .versionedByName parts.1 parts.2.1 parts.2.2.1 parts.2.2.2

theorem isWrittenTagged_module : IsWrittenTagged 0 ofModule := fun _ ↦ rfl

theorem isWrittenTagged_hash : IsWrittenTagged 1 ofHash := fun _ ↦ rfl

theorem isWrittenTagged_name : IsWrittenTagged 2 ofName := fun _ ↦ rfl

theorem isWrittenTagged_versionedHash : IsWrittenTagged 3 ofVersionedHash := fun _ ↦ rfl

theorem isWrittenTagged_versionedName : IsWrittenTagged 4 ofVersionedName := fun _ ↦ rfl

theorem isWrittenTagged_transfer : IsWrittenTagged 5 transfer := fun _ ↦ rfl

theorem readable {item : ExecutableItem} (hargs : Readable item.args) : Readable item := by
  cases item with
  | moduleBytes code args =>
    exact .tagged (x := (code, args)) isWrittenTagged_module (fun _ ↦ rfl)
      (.pair (Lossless.readable code) hargs)
  | byHash hash entryPoint args =>
    exact .tagged (x := (hash, entryPoint, args)) isWrittenTagged_hash (fun _ ↦ rfl)
      (.pair (Lossless.readable hash) (.pair (Lossless.readable entryPoint) hargs))
  | byName name entryPoint args =>
    exact .tagged (x := (name, entryPoint, args)) isWrittenTagged_name (fun _ ↦ rfl)
      (.pair (Lossless.readable name) (.pair (Lossless.readable entryPoint) hargs))
  | versionedByHash hash version entryPoint args =>
    exact .tagged (x := (hash, version, entryPoint, args)) isWrittenTagged_versionedHash
      (fun _ ↦ rfl) (.pair (Lossless.readable hash)
        (.pair (Lossless.readable version) (.pair (Lossless.readable entryPoint) hargs)))
  | versionedByName name version entryPoint args =>
    exact .tagged (x := (name, version, entryPoint, args)) isWrittenTagged_versionedName
      (fun _ ↦ rfl) (.pair (Lossless.readable name)
        (.pair (Lossless.readable version) (.pair (Lossless.readable entryPoint) hargs)))
  | transfer args => exact .tagged isWrittenTagged_transfer (fun _ ↦ rfl) hargs

/-- The tag in front selects the alternative. -/
theorem read_cons (tag : UInt8) (bytes : Bytes) :
    (Wire.read (tag :: bytes) : Except WireError (ExecutableItem × Bytes)) =
      if tag = 0 then do
        let (parts, rest) ← Wire.read bytes
        return (ofModule parts, rest)
      else if tag = 1 then do
        let (parts, rest) ← Wire.read bytes
        return (ofHash parts, rest)
      else if tag = 2 then do
        let (parts, rest) ← Wire.read bytes
        return (ofName parts, rest)
      else if tag = 3 then do
        let (parts, rest) ← Wire.read bytes
        return (ofVersionedHash parts, rest)
      else if tag = 4 then do
        let (parts, rest) ← Wire.read bytes
        return (ofVersionedName parts, rest)
      else if tag = 5 then do
        let (args, rest) ← Wire.read bytes
        return (.transfer args, rest)
      else .error (.unknownTag .executableItem tag) := rfl

instance : Canonical ExecutableItem where
  write_of_read {bytes rest item} h := by
    cases bytes with
    | nil => cases h
    | cons tag bytes =>
      rw [read_cons] at h
      split at h
      case isTrue htag => exact htag ▸ isWrittenTagged_module.write_of_read h
      split at h
      case isTrue htag => exact htag ▸ isWrittenTagged_hash.write_of_read h
      split at h
      case isTrue htag => exact htag ▸ isWrittenTagged_name.write_of_read h
      split at h
      case isTrue htag => exact htag ▸ isWrittenTagged_versionedHash.write_of_read h
      split at h
      case isTrue htag => exact htag ▸ isWrittenTagged_versionedName.write_of_read h
      split at h
      case isTrue htag => exact htag ▸ isWrittenTagged_transfer.write_of_read h
      cases h

/-- What is written of an item starts with its tag. -/
theorem exists_eq_tag_cons {item : ExecutableItem} {bytes : Bytes}
    (h : Wire.write item = .ok bytes) : ∃ body, bytes = item.tag :: body := by
  cases item <;>
  · obtain ⟨body, -, hbody⟩ := Wire.bind_eq_ok.1 h
    exact ⟨body, (Wire.pure_eq_ok.1 hbody).symm⟩

/-- The tags keep the alternatives apart, and the parts keep the items of one alternative. -/
instance : Unambiguous ExecutableItem where
  eq_of_append_eq {x y front front' rest rest'} hx hy h := by
    have htag : x.tag = y.tag := by
      obtain ⟨body, rfl⟩ := exists_eq_tag_cons hx
      obtain ⟨body', rfl⟩ := exists_eq_tag_cons hy
      exact (List.cons.inj h).1
    cases x with
    | moduleBytes code args =>
      cases y with
      | moduleBytes code' args' =>
        exact isWrittenTagged_module.eq_of_append_eq (x := (code, args)) (y := (code', args'))
          hx hy h
      | _ => simp [tag] at htag
    | byHash hash entryPoint args =>
      cases y with
      | byHash hash' entryPoint' args' =>
        exact isWrittenTagged_hash.eq_of_append_eq (x := (hash, entryPoint, args))
          (y := (hash', entryPoint', args')) hx hy h
      | _ => simp [tag] at htag
    | byName name entryPoint args =>
      cases y with
      | byName name' entryPoint' args' =>
        exact isWrittenTagged_name.eq_of_append_eq (x := (name, entryPoint, args))
          (y := (name', entryPoint', args')) hx hy h
      | _ => simp [tag] at htag
    | versionedByHash hash version entryPoint args =>
      cases y with
      | versionedByHash hash' version' entryPoint' args' =>
        exact isWrittenTagged_versionedHash.eq_of_append_eq
          (x := (hash, version, entryPoint, args)) (y := (hash', version', entryPoint', args'))
          hx hy h
      | _ => simp [tag] at htag
    | versionedByName name version entryPoint args =>
      cases y with
      | versionedByName name' version' entryPoint' args' =>
        exact isWrittenTagged_versionedName.eq_of_append_eq
          (x := (name, version, entryPoint, args)) (y := (name', version', entryPoint', args'))
          hx hy h
      | _ => simp [tag] at htag
    | transfer args =>
      cases y with
      | transfer args' => exact isWrittenTagged_transfer.eq_of_append_eq hx hy h
      | _ => simp [tag] at htag

end ExecutableItem

/-! ## Headers -/

namespace DeployHeader

/-- A header reads back if the key of its account is accepted. -/
theorem readable {header : DeployHeader} (h : header.account.IsAccepted) : Readable header :=
  .via rfl (.pair h.readable (Lossless.readable header.parts.2))

instance : Canonical DeployHeader := .via fun _ ↦ rfl

instance : Unambiguous DeployHeader := .via fun _ ↦ rfl

end DeployHeader

/-! ## Deploys -/

namespace Deploy

/-- The key that the deploy is from and those that approve it. -/
def publicKeys (d : Deploy) : List PublicKey := d.header.account :: d.approvals.map (·.signer)

/-- Every argument of both items reads back from what is written of it. -/
def ArgumentsRoundTrip (d : Deploy) : Prop :=
  d.payment.args.RoundTrips ∧ d.session.args.RoundTrips

/-- A deploy reads back if its keys are accepted and the arguments of both items read back. -/
theorem readable_of_args {d : Deploy} (hkeys : ∀ key ∈ d.publicKeys, key.IsAccepted)
    (hpayment : Readable d.payment.args) (hsession : Readable d.session.args) : Readable d := by
  have hheader : Readable d.header := DeployHeader.readable (hkeys _ List.mem_cons_self)
  have happrovals : Readable d.approvals := .list fun a ha ↦
    Approval.readable (hkeys _ (List.mem_cons_of_mem _ (List.mem_map_of_mem ha)))
  have hitems : Readable (d.payment, d.session, d.approvals) :=
    .pair (ExecutableItem.readable hpayment) (.pair (ExecutableItem.readable hsession) happrovals)
  exact .via rfl (.pair hheader (.pair (Lossless.readable d.hash) hitems))

/-- A deploy reads back if its keys are accepted and its arguments round-trip. -/
theorem readable {d : Deploy} (hkeys : ∀ key ∈ d.publicKeys, key.IsAccepted)
    (hargs : d.ArgumentsRoundTrip) : Readable d :=
  readable_of_args hkeys hargs.1.readable hargs.2.readable

instance : Canonical Deploy := .via fun _ ↦ rfl

/-- A deploy with arguments on both sides and one approval. -/
def approved : Deploy where
  hash := ⟨⟨.zero 32⟩⟩
  header := ⟨.ed25519 (.fit 32 [1]), ⟨0⟩, ⟨1800000⟩, 1, ⟨.zero 32⟩, [⟨⟨.zero 32⟩⟩], "casper"⟩
  payment := .moduleBytes ⟨[]⟩ ⟨[⟨"amount", ⟨.leaf .u512, [1, 5]⟩⟩]⟩
  session := .versionedByName "faucet" (some 2) "call"
    ⟨[⟨"ids", ⟨.list (.option (.leaf .u8)), [2, 0, 0, 0, 0, 1, 9]⟩⟩]⟩
  approvals := [⟨.ed25519 (.fit 32 [1]), ⟨.ed25519, .zero 64⟩⟩]

/-- The reader accepts nothing but written forms, and it accepts the written form of every
deploy whose keys and arguments would be accepted on their own. -/
theorem read_exact :
    (∀ (bytes rest : Bytes) (d : Deploy), Wire.read bytes = .ok (d, rest) →
      ∃ front, Wire.write d = .ok front ∧ bytes = front ++ rest) ∧
    (∀ (d : Deploy) (bytes rest : Bytes), (∀ key ∈ d.publicKeys, key.IsAccepted) →
      d.ArgumentsRoundTrip → Wire.write d = .ok bytes →
        Wire.read (bytes ++ rest) = .ok (d, rest)) := by
  constructor
  · intro bytes rest d h
    exact Canonical.write_of_read h
  · intro d bytes rest hkeys hargs hw
    exact readable hkeys hargs bytes rest hw

/-- A deploy with one approval reads back in front of a byte that is left over. -/
theorem read_exact_approved : ∃ bytes, Wire.write approved = .ok bytes ∧
    Wire.read (bytes ++ [7]) = .ok (approved, [7]) ∧
      ∃ front, Wire.write approved = .ok front ∧ bytes ++ [7] = front ++ [7] := by
  have hkeys : ∀ key ∈ approved.publicKeys, key.IsAccepted := by
    intro key hkey
    rw [PublicKey.isAccepted_iff]
    revert key
    decide +kernel
  have hargs : approved.ArgumentsRoundTrip := by
    constructor <;> intro arg harg
    · obtain rfl := List.mem_singleton.1 harg
      rfl
    · obtain rfl := List.mem_singleton.1 harg
      rfl
  obtain ⟨bytes, hw⟩ : ∃ bytes, Wire.write approved = .ok bytes :=
    Wire.exists_eq_ok_of_isSome (by decide +kernel)
  have hread := read_exact.2 approved bytes [7] hkeys hargs hw
  exact ⟨bytes, hw, hread, read_exact.1 (bytes ++ [7]) [7] approved hread⟩

end Deploy

end ChainClient
