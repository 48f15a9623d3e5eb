import ChainClient.Crypto.Signature
import ChainClient.Proofs.Address.Texts
import ChainClient.Proofs.Document.Parts
import ChainClient.Proofs.Json.Arrangement

/-!
# Keys, signatures, digests and accounts as text

Each of them is written as the hexadecimal digits of its bytes, an account behind a label. All of
them are read back; of a key, the reader also makes its test.
-/

namespace ChainClient

theorem Algorithm.ofTag_tag (algorithm : Algorithm) : ofTag algorithm.tag = .ok algorithm := by
  cases algorithm <;> rfl

namespace PublicKey

theorem ofText_text {key : PublicKey} (h : key.IsAccepted) : ofText key.text = .ok key := by
  rw [ofText, ofTextWith, text, Text.Hex.text, String.toList_ofList, Text.Hex.decode_encode]
  calc
    _ = (do ofRaw (← Algorithm.ofTag key.algorithm.tag) key.raw) := rfl
    _ = .ok key := by
      rw [Algorithm.ofTag_tag]
      exact h

theorem readsBack {key : PublicKey} (h : key.IsAccepted) : ReadsBack key :=
  Json.readsBack_text (ofText_text h)

end PublicKey

namespace Signature

theorem ofText_text (signature : Signature) : ofText signature.text = .ok signature := by
  rw [ofText, text, Text.Hex.text, String.toList_ofList, Text.Hex.decode_encode]
  calc
    _ = (do ofRaw (← Algorithm.ofTag signature.algorithm.tag) signature.raw.toList) := rfl
    _ = .ok signature := by
      rw [Algorithm.ofTag_tag, Wire.ok_bind, ofRaw, Octets.ofList?_toList]

theorem readsBack (signature : Signature) : ReadsBack signature :=
  Json.readsBack_text signature.ofText_text

end Signature

namespace Digest

theorem ofText_text (d : Digest) : ofText d.text = .ok d := by
  rw [ofText, text, Text.Hex.text, String.toList_ofList, toList,
    Text.Hex.decodeExactly_encode d.bytes.length_toList, Wire.ok_bind, Octets.ofList?_toList]

theorem readsBack (d : Digest) : ReadsBack d := Json.readsBack_text d.ofText_text

end Digest

theorem DeployHash.readsBack (h : DeployHash) : ReadsBack h :=
  fun a source ↦ congrArg (Option.map mk) (h.digest.readsBack a source)

theorem TransactionHash.readsBack (h : TransactionHash) : ReadsBack h :=
  fun a source ↦ congrArg (Option.map mk) (h.digest.readsBack a source)

namespace AccountHash

theorem ofText_text (account : AccountHash) : ofText account.text = .ok account := by
  rw [ofText, text, String.toList_ofList]
  exact ofChars_eq_ok_iff.2 ⟨_, rfl, Address.spells_encode account.bytes⟩

/-- An approval survives if the key of its signer is accepted. -/
theorem readsBack (account : AccountHash) : ReadsBack account :=
  Json.readsBack_text account.ofText_text

end AccountHash

namespace Approval

theorem readsBack {a : Approval} (h : a.signer.IsAccepted) : ReadsBack a := by
  have hfields : shape.read? (toJson a) =
      some [some (toJson a.signer), some (toJson a.signature)] := rfl
  refine .of_fields hfields fun arrangement source j hj ↦ ?_
  unfold ofJson? instJsonForm
  dsimp only
  rw [hj]
  calc
    _ = (do return (⟨← ofJson? source ((toJson a.signer).arranged arrangement),
          ← ofJson? source ((toJson a.signature).arranged arrangement)⟩ : Approval)) := rfl
    _ = some a := by
      rw [PublicKey.readsBack h arrangement source, a.signature.readsBack arrangement source]
      rfl

end Approval

end ChainClient
