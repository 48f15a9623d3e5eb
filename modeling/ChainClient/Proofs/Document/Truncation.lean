import ChainClient.Proofs.Deploy.Forms
import ChainClient.Proofs.Transaction.Exact
import ChainClient.Proofs.Transaction.Forms
import ChainClient.Proofs.Wire.Truncation

/-!
# Truncated documents

A document that lost its end is told apart from one that is broken, and bytes behind a document
are counted. The front of a key is found to be short before the key is looked for on its curve,
and the front of a typed value before its bytes are validated. A transaction is one envelope, of
which the table and the body are cut; what is inside is not looked at before all of it is there.
-/

namespace ChainClient

open Wire (EndsEarly NoticesCuts Watchful Lossless Readable IsDelimited)

/-! ## Keys and other parts -/

instance : Watchful Timestamp := .via

instance : Watchful Duration := .via

instance : Watchful Digest := .via

instance : Watchful DeployHash := .via

instance : Watchful PublicKey := .of_total (fun _ ↦ rfl) fun key ↦ by
  cases key with
  | ed25519 raw => exact .cons rfl (Wire.endsEarly_split raw.length_toList).andThen
  | secp256k1 raw => exact .cons rfl (Wire.endsEarly_split raw.length_toList).andThen

instance : Watchful Signature := .of_total (fun _ ↦ rfl) fun signature ↦ by
  have hraw := Watchful.noticesCuts signature.raw _ rfl
  obtain ⟨algorithm, raw⟩ := signature
  cases algorithm with
  | ed25519 => exact .cons rfl hraw.andThen
  | secp256k1 => exact .cons rfl hraw.andThen

/-- An approval of an accepted signer is never taken for a longer or shorter one. -/
theorem Approval.noticesCuts {a : Approval} (h : a.signer.IsAccepted) : NoticesCuts a := by
  unfold instWire
  exact .via (.pair h.readable (Watchful.noticesCuts _) (Watchful.noticesCuts _))

/-! ## Typed values -/

namespace ClType

/-- A type descriptor that is cut anywhere ends early. -/
theorem endsEarly_readWithin {levels : Nat} {t : ClType} (hnesting : t.nesting ≤ levels) :
    EndsEarly (readWithin levels) t.bytes := by
  induction t generalizing levels with
  | leaf l =>
    obtain ⟨levels, rfl⟩ := exists_levels_eq_succ hnesting
    exact .singleton rfl
  | byteArray size =>
    obtain ⟨levels, rfl⟩ := exists_levels_eq_succ hnesting
    exact .cons rfl (Wire.endsEarly_readNat 4 size.toNat).andThen
  | option a ih | list a ih | tuple1 a ih =>
    obtain ⟨levels, rfl⟩ := exists_levels_eq_succ hnesting
    have ha : a.nesting ≤ levels := Nat.le_of_succ_le_succ hnesting
    exact .cons rfl (ih ha).andThen
  | result a b iha ihb | map a b iha ihb | tuple2 a b iha ihb =>
    obtain ⟨levels, rfl⟩ := exists_levels_eq_succ hnesting
    have hab : max a.nesting b.nesting ≤ levels := Nat.le_of_succ_le_succ hnesting
    obtain ⟨ha, hb⟩ := Nat.max_le.1 hab
    exact .cons rfl ((iha ha).bind (readWithin_bytes ha) (ihb hb).andThen)
  | tuple3 a b c iha ihb ihc =>
    obtain ⟨levels, rfl⟩ := exists_levels_eq_succ hnesting
    have habc : max a.nesting (max b.nesting c.nesting) ≤ levels :=
      Nat.le_of_succ_le_succ hnesting
    obtain ⟨ha, hbc⟩ := Nat.max_le.1 habc
    obtain ⟨hb, hc⟩ := Nat.max_le.1 hbc
    refine .cons rfl ?_
    rw [List.append_assoc]
    exact (iha ha).bind (readWithin_bytes ha) ((ihb hb).bind (readWithin_bytes hb) (ihc hc).andThen)

end ClType

/-- A typed value notices cuts in its bytes and in its descriptor, which stands behind them. -/
theorem ClValue.noticesCuts {v : ClValue} (hnesting : v.clType.nesting ≤ Limits.maxTypeDepth) :
    NoticesCuts v := by
  intro bytes hw
  obtain ⟨front, hfront, rfl⟩ := write_eq_ok.1 hw
  refine (Wire.endsEarly_readBlock hfront).bind
    (fun rest ↦ Wire.readBlock_eq_ok.2 ⟨front, hfront, rfl⟩) ?_
  exact (ClType.endsEarly_readWithin hnesting).andThen

theorem NamedArg.noticesCuts {arg : NamedArg} (h : arg.value.IsAccepted) : NoticesCuts arg := by
  unfold instWire
  exact .via (.pair (Lossless.readable arg.name) (Watchful.noticesCuts arg.name)
    (ClValue.noticesCuts h.1))

theorem Arguments.noticesCuts {args : Arguments} (h : args.IsAccepted) : NoticesCuts args :=
  .via (.list (fun arg harg ↦ NamedArg.readable (h arg harg).readable)
    fun arg harg ↦ NamedArg.noticesCuts (h arg harg))

/-! ## Deploys -/

namespace ExecutableItem

/-- An item notices cuts if its arguments are accepted. -/
theorem noticesCuts {item : ExecutableItem} (h : item.args.IsAccepted) : NoticesCuts item := by
  have hargs : NoticesCuts item.args := Arguments.noticesCuts h
  cases item with
  | moduleBytes code args =>
    exact .tagged (x := (code, args)) isWrittenTagged_module (fun _ ↦ rfl) rfl (hargs.behind code)
  | byHash hash entryPoint args =>
    exact .tagged (x := (hash, entryPoint, args)) isWrittenTagged_hash (fun _ ↦ rfl) rfl
      ((hargs.behind entryPoint).behind hash)
  | byName name entryPoint args =>
    exact .tagged (x := (name, entryPoint, args)) isWrittenTagged_name (fun _ ↦ rfl) rfl
      ((hargs.behind entryPoint).behind name)
  | versionedByHash hash version entryPoint args =>
    exact .tagged (x := (hash, version, entryPoint, args)) isWrittenTagged_versionedHash
      (fun _ ↦ rfl) rfl (((hargs.behind entryPoint).behind version).behind hash)
  | versionedByName name version entryPoint args =>
    exact .tagged (x := (name, version, entryPoint, args)) isWrittenTagged_versionedName
      (fun _ ↦ rfl) rfl (((hargs.behind entryPoint).behind version).behind name)
  | transfer args => exact .tagged isWrittenTagged_transfer (fun _ ↦ rfl) rfl hargs

end ExecutableItem

theorem DeployHeader.noticesCuts {header : DeployHeader} (h : header.account.IsAccepted) :
    NoticesCuts header :=
  .via (.pair h.readable (Watchful.noticesCuts _) (Watchful.noticesCuts header.parts.2))

namespace Deploy

/-- The values of every argument of both items are accepted. -/
def ArgumentsAccepted (d : Deploy) : Prop :=
  d.payment.args.IsAccepted ∧ d.session.args.IsAccepted

/-- A deploy notices cuts if its keys and its arguments are accepted. -/
theorem noticesCuts {d : Deploy} (hkeys : ∀ key ∈ d.publicKeys, key.IsAccepted)
    (hargs : d.ArgumentsAccepted) : NoticesCuts d := by
  have haccount : d.header.account.IsAccepted := hkeys _ List.mem_cons_self
  have hsigners : ∀ a ∈ d.approvals, a.signer.IsAccepted := fun a ha ↦
    hkeys _ (List.mem_cons_of_mem _ (List.mem_map_of_mem ha))
  have happrovals : NoticesCuts d.approvals :=
    .list (fun a ha ↦ Approval.readable (hsigners a ha))
      fun a ha ↦ Approval.noticesCuts (hsigners a ha)
  have hitems : NoticesCuts (d.payment, d.session, d.approvals) :=
    .pair (ExecutableItem.readable hargs.1.readable) (ExecutableItem.noticesCuts hargs.1)
      (.pair (ExecutableItem.readable hargs.2.readable) (ExecutableItem.noticesCuts hargs.2)
        happrovals)
  exact .via (.pair (DeployHeader.readable haccount) (DeployHeader.noticesCuts haccount)
    (hitems.behind d.hash))

end Deploy

/-! ## Transactions -/

/-- Nothing in the envelope is read before the envelope is whole. -/
instance : Watchful Transaction where
  noticesCuts _ := .ofEnvelope fun _ h ↦ Transaction.toEnvelope_ordered h

/-! ## Documents and values -/

/-- Every front of a written document or value is reported as an early end, and bytes behind it are
counted, if the keys and values in it would be accepted on their own. -/
theorem documents_and_values_delimited :
    (∀ d : Deploy, (∀ key ∈ d.publicKeys, key.IsAccepted) → d.ArgumentsAccepted →
      IsDelimited d) ∧
    (∀ t : Transaction, (∀ key ∈ t.publicKeys, key.IsAccepted) →
      t.payload.fields.args.IsAccepted → IsDelimited t) ∧
    (∀ v : ClValue, v.IsAccepted → IsDelimited v) := by
  refine ⟨fun d hkeys hargs ↦ ?_, fun t hkeys hargs ↦ ?_, fun v hv ↦ ?_⟩
  · exact .of_readable (d.readable_of_args hkeys hargs.1.readable hargs.2.readable)
      (d.noticesCuts hkeys hargs)
  · have hread : Readable t.payload.fields.args :=
      TransactionArguments.readable fun named hnamed ↦ (hargs named hnamed).readable
    exact .of_readable (t.readable_of_args hkeys hread) (Watchful.noticesCuts t)
  · exact .of_readable hv.readable (ClValue.noticesCuts hv.1)

/-- A deploy, a transaction and a number, which is cut in the middle of its length. -/
theorem documents_and_values_delimited_approved :
    ((∃ bytes, Wire.write Deploy.approved = .ok bytes) ∧ IsDelimited Deploy.approved) ∧
    ((∃ bytes, Wire.write Transaction.approved = .ok bytes) ∧
      IsDelimited Transaction.approved) ∧
    Wire.write (⟨.leaf .u8, [5]⟩ : ClValue) = .ok [1, 0, 0, 0, 5, 3] ∧
    (Wire.readAll [1, 0] : Except WireError ClValue) = .error .earlyEnd ∧
    (Wire.readAll [1, 0, 0, 0, 5, 3, 8, 9] : Except WireError ClValue) = .error (.leftOver 2) := by
  obtain ⟨hdeploy, htransaction, hvalue⟩ := documents_and_values_delimited
  have hkey : PublicKey.IsAccepted (.ed25519 (.fit 32 [1])) := by
    rw [PublicKey.isAccepted_iff]
    decide +kernel
  have hnumber : IsDelimited (⟨.leaf .u8, [5]⟩ : ClValue) := hvalue _ ⟨by decide, rfl⟩
  refine ⟨⟨Wire.exists_eq_ok_of_isSome (by decide +kernel), hdeploy _ ?_ ?_⟩,
    ⟨Wire.exists_eq_ok_of_isSome (by decide +kernel), htransaction _ ?_ ?_⟩, rfl,
    hnumber.earlyEnd _ [1, 0] rfl (by decide) (by decide), hnumber.leftOver _ [8, 9] rfl (by simp)⟩
  · intro key hk
    obtain rfl : key = .ed25519 (.fit 32 [1]) := by
      simpa [Deploy.publicKeys, Deploy.approved] using hk
    exact hkey
  · constructor <;> intro arg harg <;> obtain rfl := List.mem_singleton.1 harg
    · exact ⟨by decide, rfl⟩
    · exact ⟨by decide, rfl⟩
  · intro key hk
    obtain rfl : key = .ed25519 (.fit 32 [1]) := by
      simpa [Transaction.publicKeys, Initiator.publicKeys, Transaction.approved] using hk
    exact hkey
  · rintro named ⟨⟩ arg harg
    obtain rfl := List.mem_singleton.1 harg
    exact ⟨by decide, rfl⟩

end ChainClient
