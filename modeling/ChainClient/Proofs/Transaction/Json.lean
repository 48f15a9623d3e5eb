import ChainClient.Proofs.Document.Texts
import ChainClient.Proofs.Time.Duration
import ChainClient.Proofs.Time.Timestamp
import ChainClient.Proofs.Transaction.Forms
import ChainClient.Proofs.Value.Json

/-!
# Transactions read back from JSON

Every part of a transaction is a record or a choice between alternatives, and its reader makes it
out of the same fields that its writer puts there. A transaction is read back if its keys and its
named arguments would be accepted on their own and its moment has a date with four digits for the
year.
-/

namespace ChainClient

open Json (arranged)

/-! ## Choices without records -/

theorem Runtime.readsBack (r : Runtime) : ReadsBack r := by
  cases r
  exact fun _ _ ↦ rfl

theorem Scheduling.readsBack (s : Scheduling) : ReadsBack s := by
  cases s
  exact fun _ _ ↦ rfl

/-- Entry points survive: those of the system as names, and others as tagged texts. -/
theorem EntryPoint.readsBack (e : EntryPoint) : ReadsBack e := by
  cases e with
  | call => exact fun _ _ ↦ rfl
  | custom name =>
    refine ReadsAs.of_content fun a source ↦ ?_
    exact congrArg (Option.map custom) (Json.readsBack_string name a source)
  | system operation => cases operation <;> exact fun _ _ ↦ rfl

namespace Initiator

/-- An initiator survives if its key is accepted. -/
theorem readsBack {i : Initiator} (h : ∀ key ∈ i.publicKeys, key.IsAccepted) : ReadsBack i := by
  cases i with
  | publicKey key =>
    refine ReadsAs.of_content fun a source ↦ ?_
    have hkey := PublicKey.readsBack (h key List.mem_cons_self) a source
    exact congrArg (Option.map publicKey) hkey
  | accountHash account =>
    refine ReadsAs.of_content fun a source ↦ ?_
    exact congrArg (Option.map accountHash) (account.readsBack a source)

end Initiator

namespace PricingMode

theorem readsBack (mode : PricingMode) : ReadsBack mode := by
  cases mode with
  | paymentLimited amount tolerance standard =>
    have hfields : limitedShape.read? (.obj [("payment_amount", toJson amount),
          ("gas_price_tolerance", toJson tolerance), ("standard_payment", toJson standard)]) =
        some [some (toJson amount), some (toJson tolerance), some (toJson standard)] := rfl
    refine ReadsAs.of_held hfields fun a source content hcontent ↦ ?_
    unfold ofJson? instJsonForm
    simp only [Json.alternative?_tagged, hcontent, List.map_cons, List.map_nil, Option.map_some,
      Json.readsBack_uint64 amount a source, Json.readsBack_uint8 tolerance a source,
      Json.readsBack_bool standard a source]
    rfl
  | fixed factor tolerance =>
    have hfields : fixedShape.read? (.obj [("additional_computation_factor", toJson factor),
          ("gas_price_tolerance", toJson tolerance)]) =
        some [some (toJson factor), some (toJson tolerance)] := rfl
    refine ReadsAs.of_held hfields fun a source content hcontent ↦ ?_
    unfold ofJson? instJsonForm
    simp only [Json.alternative?_tagged, hcontent, List.map_cons, List.map_nil, Option.map_some,
      Json.readsBack_uint8 factor a source, Json.readsBack_uint8 tolerance a source]
    rfl
  | prepaid receipt =>
    have hfields : prepaidShape.read? (.obj [("receipt", toJson receipt)]) =
        some [some (toJson receipt)] := rfl
    refine ReadsAs.of_held hfields fun a source content hcontent ↦ ?_
    unfold ofJson? instJsonForm
    simp only [Json.alternative?_tagged, hcontent, List.map_cons, List.map_nil, Option.map_some,
      receipt.readsBack a source]

end PricingMode

/-! ## Targets -/

namespace InvocationTarget

variable {first : String} {content : Json} {version protocolMajor : Option UInt32}

/-- A version that is not chosen has no member and is read as such. -/
theorem read?_packageShape (hfirst : first = "addr" ∨ first = "name") :
    (packageShape first).read? (.obj ((first, content) :: versionMembers version protocolMajor)) =
      some [some content, version.map toJson, protocolMajor.map toJson] := by
  rcases hfirst with rfl | rfl <;> cases version <;> cases protocolMajor <;> rfl

/-- A version that is not given has no member, and a missing member reads as one. -/
theorem ofField?_map_toJson (version : Option UInt32) (a : Json.Arrangement)
    (source : Json.Source) :
    Json.ofField? source ((version.map toJson).map (arranged a)) = some version := by
  cases version with
  | none => rfl
  | some n => exact Json.readsBack_option_uint32 (some n) a source

/-- Invocation targets survive, with or without versions. -/
theorem readsBack (id : InvocationTarget) : ReadsBack id := by
  cases id with
  | byHash hash =>
    refine ReadsAs.of_content fun a source ↦ ?_
    exact congrArg (Option.map byHash) (hash.readsBack a source)
  | byName name =>
    refine ReadsAs.of_content fun a source ↦ ?_
    exact congrArg (Option.map byName) (Json.readsBack_string name a source)
  | byPackageHash hash version protocolMajor =>
    refine ReadsAs.of_held (read?_packageShape (.inl rfl)) fun a source content hcontent ↦ ?_
    unfold ofJson? instJsonForm
    simp only [Json.alternative?_tagged, hcontent, List.map_cons, List.map_nil, Option.map_some,
      hash.readsBack a source, ofField?_map_toJson]
    rfl
  | byPackageName name version protocolMajor =>
    refine ReadsAs.of_held (read?_packageShape (.inr rfl)) fun a source content hcontent ↦ ?_
    unfold ofJson? instJsonForm
    simp only [Json.alternative?_tagged, hcontent, List.map_cons, List.map_nil, Option.map_some,
      Json.readsBack_string name a source, ofField?_map_toJson]
    rfl

end InvocationTarget

theorem Target.readsBack (t : Target) : ReadsBack t := by
  cases t with
  | native => exact fun _ _ ↦ rfl
  | stored id runtime =>
    have hfields : storedShape.read? (.obj [("id", toJson id), ("runtime", toJson runtime)]) =
        some [some (toJson id), some (toJson runtime)] := rfl
    refine ReadsAs.of_held hfields fun a source content hcontent ↦ ?_
    unfold ofJson? instJsonForm
    simp only [Json.alternative?_tagged, hcontent, List.map_cons, List.map_nil, Option.map_some,
      id.readsBack a source, runtime.readsBack a source]
    rfl
  | session isInstallUpgrade code runtime =>
    have hfields : sessionShape.read? (.obj [("is_install_upgrade", toJson isInstallUpgrade),
          ("module_bytes", toJson code), ("runtime", toJson runtime)]) =
        some [some (toJson isInstallUpgrade), some (toJson code), some (toJson runtime)] := rfl
    refine ReadsAs.of_held hfields fun a source content hcontent ↦ ?_
    unfold ofJson? instJsonForm
    simp only [Json.alternative?_tagged, hcontent, List.map_cons, List.map_nil, Option.map_some,
      Json.readsBack_bool isInstallUpgrade a source, code.readsBack a source,
      runtime.readsBack a source]
    rfl

/-! ## Records -/

namespace TransactionArguments

/-- The values that are named would be accepted by their reader. -/
def IsChecked (args : TransactionArguments) : Prop :=
  ∀ named, args.named? = some named → named.IsChecked

/-- Arguments survive if they are checked; encoded ones always do. -/
theorem readsBack {args : TransactionArguments} (h : args.IsChecked) : ReadsBack args := by
  cases args with
  | named args =>
    refine ReadsAs.of_content fun a source ↦ ?_
    exact congrArg (Option.map named) (Arguments.readsBack (h args rfl) a source)
  | encoded bytes =>
    refine ReadsAs.of_content fun a source ↦ ?_
    exact congrArg (Option.map encoded) (bytes.readsBack a source)

end TransactionArguments

theorem TransactionFields.readsBack {fields : TransactionFields} (h : fields.args.IsChecked) :
    ReadsBack fields := by
  have hfields : shape.read? (toJson fields) = some [some (toJson fields.args),
      some (toJson fields.entryPoint), some (toJson fields.scheduling),
      some (toJson fields.target)] := rfl
  refine ReadsAs.of_fields hfields fun a source j hj ↦ ?_
  unfold ofJson? instJsonForm
  simp only [hj, List.map_cons, List.map_nil, Option.map_some,
    TransactionArguments.readsBack h a source, fields.entryPoint.readsBack a source,
    fields.scheduling.readsBack a source, fields.target.readsBack a source]
  rfl

/-- A payload survives if its key and arguments are accepted and its year has four digits. -/
theorem Payload.readsBack {p : Payload} (hkeys : ∀ key ∈ p.initiator.publicKeys, key.IsAccepted)
    (hyear : p.timestamp.date.year ≤ 9999) (hargs : p.fields.args.IsChecked) : ReadsBack p := by
  have hfields : shape.read? (toJson p) = some [some (toJson p.initiator),
      some (toJson p.timestamp), some (toJson p.ttl), some (toJson p.chainName),
      some (toJson p.pricingMode), some (toJson p.fields)] := rfl
  refine ReadsAs.of_fields hfields fun a source j hj ↦ ?_
  unfold ofJson? instJsonForm
  simp only [hj, List.map_cons, List.map_nil, Option.map_some, Initiator.readsBack hkeys a source,
    Timestamp.readsBack hyear a source, p.ttl.readsBack a source,
    Json.readsBack_string p.chainName a source, p.pricingMode.readsBack a source,
    TransactionFields.readsBack hargs a source]
  rfl

/-- A transaction survives under the conditions of its payload and of its approvals. -/
theorem Transaction.readsBack {t : Transaction} (hkeys : ∀ key ∈ t.publicKeys, key.IsAccepted)
    (hyear : t.payload.timestamp.date.year ≤ 9999) (hargs : t.payload.fields.args.IsChecked) :
    ReadsBack t := by
  have hfields : shape.read? (toJson t) = some [some (toJson t.hash), some (toJson t.payload),
      some (toJson t.approvals)] := rfl
  have hpayload : ReadsBack t.payload :=
    Payload.readsBack (fun key hkey ↦ hkeys key (List.mem_append_left _ hkey)) hyear hargs
  have happrovals : ReadsBack t.approvals := Json.readsBack_list fun approval happroval ↦
    Approval.readsBack (hkeys _ (List.mem_append_right _ (List.mem_map_of_mem happroval)))
  refine ReadsAs.of_fields hfields fun a source j hj ↦ ?_
  unfold ofJson? instJsonForm
  simp only [hj, List.map_cons, List.map_nil, Option.map_some, t.hash.readsBack a source,
    hpayload a source, happrovals a source]
  rfl

end ChainClient
