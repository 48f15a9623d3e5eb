import ChainClient.Crypto.Suite
import ChainClient.Proofs.Deploy.Start
import ChainClient.Proofs.Transaction.Start

/-!
# Builders of documents

Building depends on the start and on the last setting of each part alone, and on the moment of
building only if no timestamp is set. When it fails, the report is the earliest fault of these: a
part that is missing, then arguments that the call refuses, then a rule that is broken. Otherwise
what is built is the document that they describe, sealed. The order of the rules is the same when a
document is sealed without a builder, where the call does not keep target and entry point together.
-/

namespace ChainClient

/-- Both builders forget the order of settings, and report the faults of what a start and the
settings after it leave in a fixed order. -/
theorem build_exact (suite : Suite) :
    ((∀ (b : DeployBuilder) (settings settings' : List DeployBuilder.Setting)
      (now now' : Timestamp),
      EndAlike DeployBuilder.Setting.part settings settings' →
      (lastOf? DeployBuilder.Setting.part .timestamp settings).isSome →
      (b.setAll settings).build suite now = (b.setAll settings').build suite now') ∧
    (∀ start : DeployBuilder.Start, ∃ b session, start.builder = .ok b ∧ start.Begins session ∧
      b.held = start.preset session) ∧
    (∀ (b : DeployBuilder) (settings : List DeployBuilder.Setting) (now : Timestamp)
      (e : BuildError DeployError),
      (b.setAll settings).build suite now = .error e ↔
        IsEarliest (DeployBuilder.HasFault suite now
          (heldAfter DeployBuilder.Setting.part b.held settings)) DeployBuilder.stage e) ∧
    (∀ (b : DeployBuilder) (settings : List DeployBuilder.Setting) (now : Timestamp)
      (draft : Deploy.Draft),
      (∀ part, ¬DeployBuilder.Lacks (heldAfter DeployBuilder.Setting.part b.held settings) part) →
      DeployBuilder.Completes now (heldAfter DeployBuilder.Setting.part b.held settings) draft →
      (b.setAll settings).build suite now = (draft.sealed suite).mapError .rule) ∧
    ∀ (draft : Deploy.Draft) (e : DeployError),
      draft.sealed suite = .error e ↔ IsEarliest (draft.Breaks suite) DeployError.stage e) ∧
    (∀ (b : TransactionBuilder) (settings settings' : List TransactionBuilder.Setting)
      (now now' : Timestamp),
      EndAlike TransactionBuilder.Setting.part settings settings' →
      (lastOf? TransactionBuilder.Setting.part .timestamp settings).isSome →
      (b.setAll settings).build suite now = (b.setAll settings').build suite now') ∧
    (∀ start : TransactionBuilder.Start, ∃ b, start.builder = .ok b ∧ start.Begins b.call ∧
      b.held = start.preset) ∧
    (∀ (b : TransactionBuilder) (settings : List TransactionBuilder.Setting) (now : Timestamp)
      (e : BuildError TransactionError),
      (b.setAll settings).build suite now = .error e ↔
        IsEarliest (TransactionBuilder.HasFault suite now b.call
          (heldAfter TransactionBuilder.Setting.part b.held settings))
          TransactionBuilder.stage e) ∧
    (∀ (b : TransactionBuilder) (settings : List TransactionBuilder.Setting) (now : Timestamp)
      (payload : Payload),
      (∀ part, ¬TransactionBuilder.Lacks
        (heldAfter TransactionBuilder.Setting.part b.held settings) part) →
      (heldAfter TransactionBuilder.Setting.part b.held settings .arguments = none ∨
        b.call.fixedName? = none) →
      TransactionBuilder.Completes now b.call
        (heldAfter TransactionBuilder.Setting.part b.held settings) payload →
      (b.setAll settings).build suite now =
        (Transaction.sealed suite payload).mapError .rule) ∧
    ∀ (payload : Payload) (e : TransactionError),
      Transaction.sealed suite payload = .error e ↔
        IsEarliest (payload.Breaks suite) TransactionError.stage e := by
  refine ⟨⟨?_, ?_, ?_, ?_, ?_⟩, ?_, ?_, ?_, ?_, ?_⟩
  · exact fun _ _ _ now now' h htimestamp ↦ DeployBuilder.build_setAll_eq h htimestamp now now'
  · intro start
    obtain ⟨session, hsession, hbuilder⟩ := start.exists_begins
    exact ⟨_, session, hbuilder, hsession, start.held_begun session⟩
  · exact fun _ _ _ _ ↦ DeployBuilder.build_setAll_eq_error_iff
  · exact fun _ _ _ _ ↦ DeployBuilder.build_setAll_of_completes
  · exact fun draft _ ↦ (draft.reportsFrom_sealed suite).eq_error_iff
  · exact fun _ _ _ now now' h htimestamp ↦ TransactionBuilder.build_setAll_eq h htimestamp now now'
  · intro start
    obtain ⟨call, hcall, hbuilder⟩ := start.exists_begins
    exact ⟨_, hbuilder, hcall, start.held_begun call⟩
  · exact fun _ _ _ _ ↦ TransactionBuilder.build_setAll_eq_error_iff
  · exact fun _ _ _ _ ↦ TransactionBuilder.build_setAll_of_completes
  · exact fun payload _ ↦ (payload.reportsFrom_sealed suite).eq_error_iff

/-- The delegator is the account and the initiator from the start. A custom payment replaces a
standard one, and encoded arguments replace named ones; what is built takes the last of them. -/
theorem build_exact_of_replaced :
    (EndAlike DeployBuilder.Setting.part
          [.payment (.standard default), .timestamp ⟨0⟩, .chainName "casper",
            .payment (.custom (.moduleBytes ⟨[1]⟩ ⟨[]⟩))]
          [.payment (.custom (.moduleBytes ⟨[1]⟩ ⟨[]⟩)), .chainName "casper", .timestamp ⟨7⟩,
            .timestamp ⟨0⟩] ∧
        ((DeployBuilder.auction ⟨.zero 32⟩ "delegate" (.ed25519 (.fit 32 [1])) ⟨[]⟩).setAll
          [.payment (.standard default), .timestamp ⟨0⟩, .chainName "casper",
            .payment (.custom (.moduleBytes ⟨[1]⟩ ⟨[]⟩))]).build .network ⟨1⟩ =
        ((DeployBuilder.auction ⟨.zero 32⟩ "delegate" (.ed25519 (.fit 32 [1])) ⟨[]⟩).setAll
          [.payment (.custom (.moduleBytes ⟨[1]⟩ ⟨[]⟩)), .chainName "casper", .timestamp ⟨7⟩,
            .timestamp ⟨0⟩]).build .network ⟨2⟩ ∧
        ((DeployBuilder.auction ⟨.zero 32⟩ "delegate" (.ed25519 (.fit 32 [1])) ⟨[]⟩).setAll
          [.payment (.standard default), .chainName "casper",
            .payment (.custom (.moduleBytes ⟨[1]⟩ ⟨[]⟩))]).build .network ⟨1⟩ =
        (Deploy.Draft.sealed .network ⟨.ed25519 (.fit 32 [1]), ⟨1⟩, ⟨1800000⟩, 1, [], "casper",
          .moduleBytes ⟨[1]⟩ ⟨[]⟩, .byHash ⟨.zero 32⟩ "delegate" ⟨[]⟩⟩).mapError .rule) ∧
    EndAlike TransactionBuilder.Setting.part
        [.arguments (.named ⟨[]⟩), .timestamp ⟨0⟩, .arguments (.encoded ⟨[1]⟩)]
        [.arguments (.encoded ⟨[1]⟩), .timestamp ⟨7⟩, .timestamp ⟨0⟩] ∧
      ((TransactionBuilder.staking .delegate (.ed25519 (.fit 32 [1])) ⟨[]⟩).setAll
        [.arguments (.named ⟨[]⟩), .timestamp ⟨0⟩, .arguments (.encoded ⟨[1]⟩)]).build
          .network ⟨1⟩ =
      ((TransactionBuilder.staking .delegate (.ed25519 (.fit 32 [1])) ⟨[]⟩).setAll
        [.arguments (.encoded ⟨[1]⟩), .timestamp ⟨7⟩, .timestamp ⟨0⟩]).build .network ⟨2⟩ ∧
      ((TransactionBuilder.contractByName "counter" "inc").setAll
        [.arguments (.named ⟨[]⟩), .initiator (.accountHash ⟨.zero 32⟩), .chainName "casper",
          .arguments (.encoded ⟨[1]⟩), .pricingMode (.fixed 0 1)]).build .network ⟨1⟩ =
      (Transaction.sealed .network ⟨.accountHash ⟨.zero 32⟩, ⟨1⟩, ⟨1800000⟩, "casper", .fixed 0 1,
        ⟨.encoded ⟨[1]⟩, .custom "inc", .standard,
          .stored (.byName "counter") .vmCasperV1⟩⟩).mapError .rule := by
  obtain ⟨⟨hdeploy, -, -, hsealed, -⟩, htransaction, -, -, hsealed', -⟩ := build_exact .network
  refine ⟨⟨?alike, hdeploy _ _ _ _ _ ?alike rfl, hsealed _ _ _ _ ?complete ?completes⟩,
    ?alike', htransaction _ _ _ _ _ ?alike' rfl,
    hsealed' _ _ _ _ ?complete' (.inr rfl) ?completes'⟩
  case alike | alike' =>
    intro part
    cases part <;> rfl
  case complete | complete' =>
    intro part
    cases part <;> exact nofun
  case completes =>
    refine ⟨fun part s hs ↦ ?_, fun _ ↦ rfl⟩
    cases part <;> cases hs <;> rfl
  case completes' =>
    refine ⟨fun part s hs ↦ ?_, fun _ ↦ rfl, nofun, rfl, rfl, rfl⟩
    cases part <;> cases hs <;> rfl

end ChainClient
