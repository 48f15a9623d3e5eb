import ChainClient.Proofs.Deploy.Forms
import ChainClient.Proofs.Document.Texts
import ChainClient.Proofs.Time.Duration
import ChainClient.Proofs.Time.Timestamp
import ChainClient.Proofs.Value.Json

/-!
# Deploys read back from JSON

A deploy is read back if its keys and its arguments would be accepted on their own and its moment
has a date with four digits for the year. It does not matter whether an item that names a version
stands under the name that is written or under the older one.
-/

namespace ChainClient

/-! ## Items -/

namespace ExecutableItem

/-- The form of an item with a versioned alternative under its older name. -/
def respelled : Json → Json
  | .obj [(name, content)] =>
    if name = versionedByHashNames.1 then .tagged versionedByHashNames.2 content
    else if name = versionedByNameNames.1 then .tagged versionedByNameNames.2 content
    else .tagged name content
  | j => j

section Alternatives

variable {name : String} {args : Arguments}

/-- The name of the alternative selects the fields. -/
theorem ofJson?_tagged (source : Json.Source) (name : String) (content : Json) :
    ofJson? source (.tagged name content) = ofFields? source name content := rfl

theorem readsAs_moduleBytes (code : Blob) (hargs : args.IsChecked) :
    ReadsAs (.tagged "ModuleBytes" (.obj [("module_bytes", toJson code), ("args", toJson args)]))
      (moduleBytes code args) := by
  have hfields : (Json.Shape.ofNames ["module_bytes", "args"]).read? (.obj
        [("module_bytes", toJson code), ("args", toJson args)]) =
      some [some (toJson code), some (toJson args)] := rfl
  refine .of_held hfields fun a source content hcontent ↦ ?_
  rw [ofJson?_tagged, ofFields?, if_pos rfl, hcontent]
  simp only [List.map_cons, List.map_nil, Option.map_some, code.readsBack a source,
    Arguments.readsBack hargs a source]
  rfl

theorem readsAs_byHash (hash : Digest) (entryPoint : String) (hargs : args.IsChecked) :
    ReadsAs (.tagged "StoredContractByHash" (.obj [("hash", toJson hash),
      ("entry_point", toJson entryPoint), ("args", toJson args)]))
        (byHash hash entryPoint args) := by
  have hfields : (Json.Shape.ofNames ["hash", "entry_point", "args"]).read? (.obj
        [("hash", toJson hash), ("entry_point", toJson entryPoint), ("args", toJson args)]) =
      some [some (toJson hash), some (toJson entryPoint), some (toJson args)] := rfl
  refine .of_held hfields fun a source content hcontent ↦ ?_
  rw [ofJson?_tagged, ofFields?, if_neg (by decide), if_pos rfl, hcontent]
  simp only [List.map_cons, List.map_nil, Option.map_some, hash.readsBack a source,
    Json.readsBack_string entryPoint a source, Arguments.readsBack hargs a source]
  rfl

theorem readsAs_byName (contract entryPoint : String) (hargs : args.IsChecked) :
    ReadsAs (.tagged "StoredContractByName" (.obj [("name", toJson contract),
      ("entry_point", toJson entryPoint), ("args", toJson args)]))
        (byName contract entryPoint args) := by
  have hfields : (Json.Shape.ofNames ["name", "entry_point", "args"]).read? (.obj
        [("name", toJson contract), ("entry_point", toJson entryPoint), ("args", toJson args)]) =
      some [some (toJson contract), some (toJson entryPoint), some (toJson args)] := rfl
  refine .of_held hfields fun a source content hcontent ↦ ?_
  rw [ofJson?_tagged, ofFields?, if_neg (by decide), if_neg (by decide), if_pos rfl, hcontent]
  simp only [List.map_cons, List.map_nil, Option.map_some, Json.readsBack_string contract a source,
    Json.readsBack_string entryPoint a source, Arguments.readsBack hargs a source]
  rfl

/-- A version that is left open is null, and null reads back as one. -/
theorem ofField?_toJson (version : Option UInt32) (a : Json.Arrangement) (source : Json.Source) :
    Json.ofField? source (some ((toJson version).arranged a)) = some version :=
  Json.readsBack_option_uint32 version a source

/-- Both names of the alternative are read, the present one and the older one. -/
theorem readsAs_versionedByHash (hash : Digest) (version : Option UInt32) (entryPoint : String)
    (hargs : args.IsChecked)
    (hname : name = versionedByHashNames.1 ∨ name = versionedByHashNames.2) :
    ReadsAs (.tagged name (.obj [("hash", toJson hash), ("version", toJson version),
      ("entry_point", toJson entryPoint), ("args", toJson args)]))
        (versionedByHash hash version entryPoint args) := by
  have hfields : (versionedFields "hash").read? (.obj [("hash", toJson hash),
        ("version", toJson version), ("entry_point", toJson entryPoint), ("args", toJson args)]) =
      some [some (toJson hash), some (toJson version), some (toJson entryPoint),
        some (toJson args)] := rfl
  have hother : name ≠ "ModuleBytes" ∧ name ≠ "StoredContractByHash" ∧
      name ≠ "StoredContractByName" := by
    rcases hname with rfl | rfl <;> decide
  refine .of_held hfields fun a source content hcontent ↦ ?_
  rw [ofJson?_tagged, ofFields?, if_neg hother.1, if_neg hother.2.1, if_neg hother.2.2,
    if_pos hname, hcontent]
  simp only [List.map_cons, List.map_nil, Option.map_some, hash.readsBack a source,
    ofField?_toJson, Json.readsBack_string entryPoint a source, Arguments.readsBack hargs a source]
  rfl

/-- Both names of the alternative are read, the present one and the older one. -/
theorem readsAs_versionedByName (contract : String) (version : Option UInt32)
    (entryPoint : String) (hargs : args.IsChecked)
    (hname : name = versionedByNameNames.1 ∨ name = versionedByNameNames.2) :
    ReadsAs (.tagged name (.obj [("name", toJson contract), ("version", toJson version),
      ("entry_point", toJson entryPoint), ("args", toJson args)]))
        (versionedByName contract version entryPoint args) := by
  have hfields : (versionedFields "name").read? (.obj [("name", toJson contract),
        ("version", toJson version), ("entry_point", toJson entryPoint), ("args", toJson args)]) =
      some [some (toJson contract), some (toJson version), some (toJson entryPoint),
        some (toJson args)] := rfl
  have hother : name ≠ "ModuleBytes" ∧ name ≠ "StoredContractByHash" ∧
      name ≠ "StoredContractByName" ∧
        ¬ (name = versionedByHashNames.1 ∨ name = versionedByHashNames.2) := by
    rcases hname with rfl | rfl <;> decide
  refine .of_held hfields fun a source content hcontent ↦ ?_
  rw [ofJson?_tagged, ofFields?, if_neg hother.1, if_neg hother.2.1, if_neg hother.2.2.1,
    if_neg hother.2.2.2, if_pos hname, hcontent]
  simp only [List.map_cons, List.map_nil, Option.map_some, Json.readsBack_string contract a source,
    ofField?_toJson, Json.readsBack_string entryPoint a source, Arguments.readsBack hargs a source]
  rfl

theorem readsAs_transfer (hargs : args.IsChecked) :
    ReadsAs (.tagged "Transfer" (.obj [("args", toJson args)])) (transfer args) := by
  have hfields : (Json.Shape.ofNames ["args"]).read? (.obj [("args", toJson args)]) =
      some [some (toJson args)] := rfl
  refine .of_held hfields fun a source content hcontent ↦ ?_
  rw [ofJson?_tagged, ofFields?, if_neg (by decide), if_neg (by decide), if_neg (by decide),
    if_neg (by decide), if_neg (by decide), if_pos rfl, hcontent]
  simp only [List.map_cons, List.map_nil, Option.map_some, Arguments.readsBack hargs a source]
  rfl

end Alternatives

theorem readsBack {item : ExecutableItem} (h : item.args.IsChecked) : ReadsBack item := by
  cases item with
  | moduleBytes code args => exact readsAs_moduleBytes code h
  | byHash hash entryPoint args => exact readsAs_byHash hash entryPoint h
  | byName name entryPoint args => exact readsAs_byName name entryPoint h
  | versionedByHash hash version entryPoint args =>
    exact readsAs_versionedByHash hash version entryPoint h (.inl rfl)
  | versionedByName name version entryPoint args =>
    exact readsAs_versionedByName name version entryPoint h (.inl rfl)
  | transfer args => exact readsAs_transfer h

/-- The older names are read as well; no other alternative has one. -/
theorem readsAs_respelled {item : ExecutableItem} (h : item.args.IsChecked) :
    ReadsAs (respelled (toJson item)) item := by
  cases item with
  | moduleBytes code args => exact readsAs_moduleBytes code h
  | byHash hash entryPoint args => exact readsAs_byHash hash entryPoint h
  | byName name entryPoint args => exact readsAs_byName name entryPoint h
  | versionedByHash hash version entryPoint args =>
    exact readsAs_versionedByHash hash version entryPoint h (.inr rfl)
  | versionedByName name version entryPoint args =>
    exact readsAs_versionedByName name version entryPoint h (.inr rfl)
  | transfer args => exact readsAs_transfer h

end ExecutableItem

/-! ## Deploys -/

/-- A header survives if its key is accepted and its year has four digits. -/
theorem DeployHeader.readsBack {header : DeployHeader} (hkey : header.account.IsAccepted)
    (hyear : header.timestamp.date.year ≤ 9999) : ReadsBack header := by
  have hfields : shape.read? (toJson header) = some [some (toJson header.account),
      some (toJson header.timestamp), some (toJson header.ttl), some (toJson header.gasPrice),
      some (toJson header.bodyHash), some (toJson header.dependencies),
      some (toJson header.chainName)] := rfl
  have hdependencies : ReadsBack header.dependencies :=
    Json.readsBack_list fun dependency _ ↦ dependency.readsBack
  refine ReadsAs.of_fields hfields fun a source j hj ↦ ?_
  unfold ofJson? instJsonForm
  simp only [hj, List.map_cons, List.map_nil, Option.map_some, PublicKey.readsBack hkey a source,
    Timestamp.readsBack hyear a source, header.ttl.readsBack a source,
    Json.readsBack_uint64 header.gasPrice a source, header.bodyHash.readsBack a source,
    hdependencies a source, Json.readsBack_string header.chainName a source]
  rfl

namespace Deploy

/-- Every argument of both items would be accepted by its reader. -/
def ArgumentsChecked (d : Deploy) : Prop := d.payment.args.IsChecked ∧ d.session.args.IsChecked

/-- The form of a deploy with the items under those names respelled. -/
def respelled (items : List String) : Json → Json
  | .obj members => .obj (members.map fun member ↦
      (member.1,
        if member.1 ∈ items then ExecutableItem.respelled member.2 else member.2))
  | j => j

/-- A deploy is read from its members whatever spelling the two items have. -/
theorem readsAs_of_items {d : Deploy} {payment session : Json}
    (hkeys : ∀ key ∈ d.publicKeys, key.IsAccepted) (hyear : d.header.timestamp.date.year ≤ 9999)
    (hpayment : ReadsAs payment d.payment) (hsession : ReadsAs session d.session) :
    ReadsAs (.obj [("hash", toJson d.hash), ("header", toJson d.header), ("payment", payment),
      ("session", session), ("approvals", toJson d.approvals)]) d := by
  have hfields : shape.read? (.obj [("hash", toJson d.hash), ("header", toJson d.header),
        ("payment", payment), ("session", session), ("approvals", toJson d.approvals)]) =
      some [some (toJson d.hash), some (toJson d.header), some payment, some session,
        some (toJson d.approvals)] := rfl
  have hheader : ReadsBack d.header := DeployHeader.readsBack (hkeys _ List.mem_cons_self) hyear
  have happrovals : ReadsBack d.approvals := Json.readsBack_list fun approval happroval ↦
    Approval.readsBack (hkeys _ (List.mem_cons_of_mem _ (List.mem_map_of_mem happroval)))
  refine .of_fields hfields fun a source j hj ↦ ?_
  unfold ofJson? instJsonForm
  simp only [hj, List.map_cons, List.map_nil, Option.map_some, d.hash.readsBack a source,
    hheader a source, hpayment a source, hsession a source, happrovals a source]
  rfl

/-- Only an item can be respelled: no other member of a deploy is an object with one member. -/
theorem respelled_toJson (items : List String) (d : Deploy) : respelled items (toJson d) =
    .obj [("hash", toJson d.hash), ("header", toJson d.header),
      ("payment", if "payment" ∈ items then ExecutableItem.respelled (toJson d.payment)
        else toJson d.payment),
      ("session", if "session" ∈ items then ExecutableItem.respelled (toJson d.session)
        else toJson d.session),
      ("approvals", toJson d.approvals)] := by
  have hhash : (if "hash" ∈ items then ExecutableItem.respelled (toJson d.hash)
      else toJson d.hash) = toJson d.hash := by split <;> rfl
  have hheader : (if "header" ∈ items then ExecutableItem.respelled (toJson d.header)
      else toJson d.header) = toJson d.header := by split <;> rfl
  have happrovals : (if "approvals" ∈ items then ExecutableItem.respelled (toJson d.approvals)
      else toJson d.approvals) = toJson d.approvals := by split <;> rfl
  calc
    _ = Json.obj [("hash", if "hash" ∈ items then ExecutableItem.respelled (toJson d.hash)
            else toJson d.hash),
          ("header", if "header" ∈ items then ExecutableItem.respelled (toJson d.header)
            else toJson d.header),
          ("payment", if "payment" ∈ items then ExecutableItem.respelled (toJson d.payment)
            else toJson d.payment),
          ("session", if "session" ∈ items then ExecutableItem.respelled (toJson d.session)
            else toJson d.session),
          ("approvals", if "approvals" ∈ items then ExecutableItem.respelled (toJson d.approvals)
            else toJson d.approvals)] := rfl
    _ = _ := by rw [hhash, hheader, happrovals]

theorem readsAs_respelled {d : Deploy} (items : List String)
    (hkeys : ∀ key ∈ d.publicKeys, key.IsAccepted) (hargs : d.ArgumentsChecked)
    (hyear : d.header.timestamp.date.year ≤ 9999) : ReadsAs (respelled items (toJson d)) d := by
  rw [respelled_toJson]
  apply readsAs_of_items hkeys hyear
  · split
    · exact ExecutableItem.readsAs_respelled hargs.1
    · exact ExecutableItem.readsBack hargs.1
  · split
    · exact ExecutableItem.readsAs_respelled hargs.2
    · exact ExecutableItem.readsBack hargs.2

/-- A deploy survives if its keys and arguments are accepted and its year has four digits. -/
theorem readsBack {d : Deploy} (hkeys : ∀ key ∈ d.publicKeys, key.IsAccepted)
    (hargs : d.ArgumentsChecked) (hyear : d.header.timestamp.date.year ≤ 9999) : ReadsBack d :=
  readsAs_of_items hkeys hyear (ExecutableItem.readsBack hargs.1) (ExecutableItem.readsBack hargs.2)

end Deploy

end ChainClient
