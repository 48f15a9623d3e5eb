import ChainClient.Proofs.Deploy.Json
import ChainClient.Proofs.Transaction.Json

/-!
# Documents survive JSON

What is put into JSON is what comes out of it, from a text or from a tree of values that keeps the
members of its objects in any order. Nothing of a document is lost but what stands beside the bytes
of a value for the eye of a reader, and that is rendered anew.
-/

namespace ChainClient

/-- Deploys and transactions are read back from their forms, a deploy also if the alternatives of
its items that name a version stand under their older names. -/
theorem documents_survive_json :
    (∀ (d : Deploy) (items : List String), (∀ key ∈ d.publicKeys, key.IsAccepted) →
      d.ArgumentsChecked → d.header.timestamp.date.year ≤ 9999 →
        ReadsBack d ∧ ReadsAs (Deploy.respelled items (toJson d)) d) ∧
    ∀ t : Transaction, (∀ key ∈ t.publicKeys, key.IsAccepted) →
      t.payload.fields.args.IsChecked → t.payload.timestamp.date.year ≤ 9999 → ReadsBack t := by
  constructor
  · intro d items hkeys hargs hyear
    exact ⟨Deploy.readsBack hkeys hargs hyear, Deploy.readsAs_respelled items hkeys hargs hyear⟩
  · intro t hkeys hargs hyear
    exact Transaction.readsBack hkeys hyear hargs

/-- Documents with an approval, with members by name and with an item in its older spelling. -/
theorem documents_survive_json_approved :
    ofJson? .tree ((toJson Deploy.approved).arranged .byName) = some Deploy.approved ∧
    ofJson? .text (Deploy.respelled ["session"] (toJson Deploy.approved)) = some Deploy.approved ∧
    ofJson? .tree ((toJson Transaction.approved).arranged .byName) = some Transaction.approved := by
  have haccepted : (PublicKey.ed25519 (.fit 32 [1])).IsAccepted := by
    rw [PublicKey.isAccepted_iff]
    decide +kernel
  have hdeploy : ∀ key ∈ Deploy.approved.publicKeys, key.IsAccepted :=
    List.forall_mem_cons.2 ⟨haccepted, List.forall_mem_singleton.2 haccepted⟩
  have hargs : Deploy.approved.ArgumentsChecked :=
    ⟨List.forall_mem_singleton.2 rfl, List.forall_mem_singleton.2 rfl⟩
  have htransaction : ∀ key ∈ Transaction.approved.publicKeys, key.IsAccepted :=
    List.forall_mem_cons.2 ⟨haccepted, List.forall_mem_singleton.2 haccepted⟩
  have hnamed : Transaction.approved.payload.fields.args.IsChecked := by
    intro named hnamed
    obtain rfl := Option.some.inj hnamed
    exact List.forall_mem_singleton.2 rfl
  obtain ⟨hdeploys, htransactions⟩ := documents_survive_json
  obtain ⟨hback, hrespelled⟩ := hdeploys Deploy.approved ["session"] hdeploy hargs (by decide)
  refine ⟨hback .byName .tree, hrespelled.ofJson?_eq .text, ?_⟩
  exact htransactions Transaction.approved htransaction hnamed (by decide) .byName .tree

end ChainClient
