import ChainClient.Proofs.Value.Descriptor
import ChainClient.Proofs.Wire.Container
import ChainClient.Value.Arguments

/-!
# Forms of typed values and arguments

A typed value can be built over any bytes, but it is read only if the bytes are a value of
the type and the type is within the nesting limit. Those values are the ones that read back
from what is written of them. The writer alone keeps all values apart.
-/

namespace ChainClient

/-! ## Typed values -/

namespace ClValue

/-- The bytes are of the type, and the type nests within the limit. -/
def IsAccepted (v : ClValue) : Prop :=
  v.clType.nesting ≤ Limits.maxTypeDepth ∧ v.clType.validate v.payload = .ok ()

theorem write_eq_ok {v : ClValue} {bytes : Bytes} :
    Wire.write v = .ok bytes ↔
      ∃ front, Wire.writeBlock v.payload = .ok front ∧ front ++ v.clType.bytes = bytes := by
  have hdef : Wire.write v = (do
      let front ← Wire.writeBlock v.payload
      return front ++ v.clType.bytes : Except WireError Bytes) := rfl
  simp only [hdef, Wire.bind_eq_ok, Wire.pure_eq_ok]

theorem read_eq_ok {v : ClValue} {bytes rest : Bytes} :
    Wire.read bytes = .ok (v, rest) ↔
      v.IsAccepted ∧ ∃ front, Wire.write v = .ok front ∧ bytes = front ++ rest := by
  constructor
  · intro h
    obtain ⟨⟨payload, middle⟩, hpayload, h⟩ := Wire.bind_eq_ok.1 h
    obtain ⟨⟨clType, rest'⟩, htype, h⟩ := Wire.bind_eq_ok.1 h
    obtain ⟨hvalid, h⟩ := Wire.bind_unit_eq_ok.1 h
    obtain ⟨rfl, rfl⟩ := Prod.mk.inj (Wire.pure_eq_ok.1 h)
    obtain ⟨front, hfront, rfl⟩ := Wire.readBlock_eq_ok.1 hpayload
    obtain ⟨hnesting, rfl⟩ := ClType.readWithin_eq_ok.1 htype
    refine ⟨⟨hnesting, hvalid⟩, front ++ clType.bytes, write_eq_ok.2 ⟨front, hfront, rfl⟩, ?_⟩
    rw [List.append_assoc]
  · rintro ⟨⟨hnesting, hvalid⟩, bytes, hw, rfl⟩
    obtain ⟨front, hfront, rfl⟩ := write_eq_ok.1 hw
    have hpayload : Wire.readBlock (front ++ v.clType.bytes ++ rest) =
        .ok (v.payload, v.clType.bytes ++ rest) :=
      Wire.readBlock_eq_ok.2 ⟨front, hfront, List.append_assoc _ _ _⟩
    have htype := ClType.readWithin_bytes hnesting rest
    apply Wire.bind_of_eq_ok hpayload
    apply Wire.bind_of_eq_ok htype
    exact Wire.bind_of_eq_ok hvalid rfl

instance : Wire.Canonical ClValue where
  write_of_read h := (read_eq_ok.1 h).2

instance : Wire.Unambiguous ClValue where
  eq_of_append_eq {x y front front' rest rest'} hx hy h := by
    obtain ⟨block, hblock, rfl⟩ := write_eq_ok.1 hx
    obtain ⟨block', hblock', rfl⟩ := write_eq_ok.1 hy
    rw [List.append_assoc, List.append_assoc] at h
    have hread : Wire.readBlock (block ++ (x.clType.bytes ++ rest)) =
        .ok (x.payload, x.clType.bytes ++ rest) := Wire.readBlock_eq_ok.2 ⟨block, hblock, rfl⟩
    have hread' : Wire.readBlock (block ++ (x.clType.bytes ++ rest)) =
        .ok (y.payload, y.clType.bytes ++ rest') := Wire.readBlock_eq_ok.2 ⟨block', hblock', h⟩
    rw [hread] at hread'
    obtain ⟨hpayload, hbytes⟩ := Prod.mk.inj (Except.ok.inj hread')
    obtain ⟨htype, hrest⟩ := Wire.Unambiguous.eq_of_append_eq (α := ClType) rfl rfl hbytes
    refine ⟨?_, hrest⟩
    cases x
    cases y
    cases htype
    cases hpayload
    rfl

instance : Wire.UniformlyEmpty ClValue where
  eq_nil hx _ := by
    obtain ⟨front, hfront, hnil⟩ := write_eq_ok.1 hx
    rw [(List.append_eq_nil_iff.1 hnil).1] at hfront
    exact absurd hfront Wire.writeBlock_ne_nil

theorem IsAccepted.readable {v : ClValue} (h : v.IsAccepted) : Wire.Readable v :=
  fun front _ hw ↦ read_eq_ok.2 ⟨h, front, hw, rfl⟩

/-- A value that reads back once does so whatever follows. -/
theorem readable_of_roundTrips {v : ClValue} (h : Wire.RoundTrips v) : Wire.Readable v := by
  obtain ⟨bytes, -, hread⟩ := h.exists_read
  exact (read_eq_ok.1 hread).1.readable

end ClValue

/-! ## Arguments -/

namespace NamedArg

theorem readable {arg : NamedArg} (h : Wire.Readable arg.value) : Wire.Readable arg := by
  unfold instWire
  exact .via rfl (.pair (Wire.Lossless.readable arg.name) h)

theorem isAccepted_of_read {arg : NamedArg} {bytes rest : Bytes}
    (h : Wire.read bytes = .ok (arg, rest)) : arg.value.IsAccepted := by
  obtain ⟨⟨⟨name, value⟩, rest'⟩, hparts, hmake⟩ := Wire.bind_eq_ok.1 h
  obtain ⟨rfl, rfl⟩ := Prod.mk.inj (Wire.pure_eq_ok.1 hmake)
  obtain ⟨middle, -, hvalue⟩ := Wire.readPair_eq_ok.1 hparts
  exact (ClValue.read_eq_ok.1 hvalue).1

instance : Wire.Canonical NamedArg := by
  unfold instWire
  exact .via fun _ ↦ rfl

instance : Wire.Unambiguous NamedArg := by
  unfold instWire
  exact .via fun _ ↦ rfl

instance : Wire.UniformlyEmpty NamedArg := by
  unfold instWire
  exact .via

end NamedArg

namespace Arguments

theorem readable {args : Arguments} (h : ∀ arg ∈ args.toList, Wire.Readable arg.value) :
    Wire.Readable args :=
  .via rfl (.list fun arg harg ↦ NamedArg.readable (h arg harg))

/-- Every value reads back from what is written of it. -/
def RoundTrips (args : Arguments) : Prop := ∀ arg ∈ args.toList, Wire.RoundTrips arg.value

theorem RoundTrips.readable {args : Arguments} (h : args.RoundTrips) : Wire.Readable args :=
  Arguments.readable fun arg harg ↦ ClValue.readable_of_roundTrips (h arg harg)

/-- Every value is one that a reader accepts. -/
def IsAccepted (args : Arguments) : Prop := ∀ arg ∈ args.toList, arg.value.IsAccepted

theorem IsAccepted.readable {args : Arguments} (h : args.IsAccepted) : Wire.Readable args :=
  Arguments.readable fun arg harg ↦ (h arg harg).readable

theorem isAccepted_of_read {args : Arguments} {bytes rest : Bytes}
    (h : Wire.read bytes = .ok (args, rest)) : args.IsAccepted := by
  obtain ⟨⟨items, rest'⟩, hitems, hmake⟩ := Wire.bind_eq_ok.1 h
  obtain ⟨rfl, rfl⟩ := Prod.mk.inj (Wire.pure_eq_ok.1 hmake)
  obtain ⟨count, middle, -, hread⟩ := Wire.readList_eq_ok.1 hitems
  exact Wire.forall_of_readItems NamedArg.isAccepted_of_read hread

instance : Wire.Canonical Arguments := .via fun _ ↦ rfl

instance : Wire.Unambiguous Arguments := .via fun _ ↦ rfl

end Arguments

end ChainClient
