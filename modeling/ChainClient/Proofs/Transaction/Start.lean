import ChainClient.Proofs.Document.Commitment
import ChainClient.Proofs.Document.NativeArguments
import ChainClient.Proofs.Transaction.Builder

/-!
# What a transaction calls

A transaction starts as one of nine calls. The start fixes target and entry point and, for the
four operations of the system, the arguments with their names, order and types. Settings are made
after it in any number and order. None of them changes the call, so a transaction that is built
runs what it was started for, and arguments that were set for an operation of the system are
reported as soon as nothing that is required is missing.
-/

namespace ChainClient

/-! ## Starts -/

namespace TransactionBuilder

/-- What a transaction can be started for. -/
inductive Start where
  | transfer (amount : U512) (source : Option URef) (target : TransferTarget) (id : Option UInt64)
  | delegate (delegator validator : PublicKey) (amount : U512)
  | undelegate (delegator validator : PublicKey) (amount : U512)
  | redelegate (delegator validator newValidator : PublicKey) (amount : U512)
  | contractByHash (hash : Digest) (entryPoint : String)
  | contractByName (name entryPoint : String)
  | packageByHash (hash : Digest) (version protocolMajor : Option UInt32) (entryPoint : String)
  | packageByName (name : String) (version protocolMajor : Option UInt32) (entryPoint : String)
  | session (isInstallUpgrade : Bool) (code : Blob)

namespace Start

def builder : Start → Except ClValueError TransactionBuilder
  | .transfer amount source target id => TransactionBuilder.transfer amount source target id
  | .delegate delegator validator amount => TransactionBuilder.delegate delegator validator amount
  | .undelegate delegator validator amount =>
    TransactionBuilder.undelegate delegator validator amount
  | .redelegate delegator validator newValidator amount =>
    TransactionBuilder.redelegate delegator validator newValidator amount
  | .contractByHash hash entryPoint => .ok (TransactionBuilder.contractByHash hash entryPoint)
  | .contractByName name entryPoint => .ok (TransactionBuilder.contractByName name entryPoint)
  | .packageByHash hash version protocolMajor entryPoint =>
    .ok (TransactionBuilder.packageByHash hash version protocolMajor entryPoint)
  | .packageByName name version protocolMajor entryPoint =>
    .ok (TransactionBuilder.packageByName name version protocolMajor entryPoint)
  | .session isInstallUpgrade code => .ok (TransactionBuilder.session isInstallUpgrade code)

def target : Start → Target
  | .transfer _ _ _ _ | .delegate _ _ _ | .undelegate _ _ _ | .redelegate _ _ _ _ => .native
  | .contractByHash hash _ => .stored (.byHash hash) .vmCasperV1
  | .contractByName name _ => .stored (.byName name) .vmCasperV1
  | .packageByHash hash version protocolMajor _ =>
    .stored (.byPackageHash hash version protocolMajor) .vmCasperV1
  | .packageByName name version protocolMajor _ =>
    .stored (.byPackageName name version protocolMajor) .vmCasperV1
  | .session isInstallUpgrade code => .session isInstallUpgrade code .vmCasperV1

def entryPoint : Start → EntryPoint
  | .transfer _ _ _ _ => .system .transfer
  | .delegate _ _ _ => .system .delegate
  | .undelegate _ _ _ => .system .undelegate
  | .redelegate _ _ _ _ => .system .redelegate
  | .contractByHash _ entryPoint | .contractByName _ entryPoint |
    .packageByHash _ _ _ entryPoint | .packageByName _ _ _ entryPoint => .custom entryPoint
  | .session _ _ => .call

/-- The name under which an operation of the system refuses arguments, and those it has. -/
def native? : Start → Option (String × List NativeArg)
  | .transfer amount source target id =>
    some ("native-transfer", Arguments.transferArgs amount source target ++
      (id.map fun id ↦ ⟨"id", .scalar .u64, id⟩).toList)
  | .delegate delegator validator amount =>
    some ("native-delegate", Arguments.stakeArgs delegator validator amount)
  | .undelegate delegator validator amount =>
    some ("native-undelegate", Arguments.stakeArgs delegator validator amount)
  | .redelegate delegator validator newValidator amount =>
    some ("native-redelegate", Arguments.stakeArgs delegator validator amount ++
      [⟨"new_validator", .scalar .publicKey, newValidator⟩])
  | _ => none

/-- The initiator of a transaction that is about the stake of a delegator. -/
def delegator? : Start → Option PublicKey
  | .delegate delegator _ _ | .undelegate delegator _ _ | .redelegate delegator _ _ _ =>
    some delegator
  | _ => none

/-- Nothing that is required is missing after these settings. -/
structure IsComplete (start : Start) (settings : List Setting) : Prop where
  chainName : ∃ s ∈ settings, s.part = .chainName
  initiator : (∃ s ∈ settings, s.part = .initiator) ∨ start.delegator?.isSome
  pricingMode : ∃ s ∈ settings, s.part = .pricingMode

/-- The call is the one that was started. -/
structure Begins (start : Start) (call : Call) : Prop where
  target : call.target = start.target
  entryPoint : call.entryPoint = start.entryPoint
  name : call.fixedName? = start.native?.map (·.1)
  args : ∀ name given, start.native? = some (name, given) → call.args.Pass given
  noArgs : start.native? = none → call.args = .empty

/-- Before any setting. -/
def begun (start : Start) (call : Call) : TransactionBuilder :=
  { ofCall call with initiator := start.delegator?.map .publicKey }

variable {start : Start} {call : Call}

/-- A start of the system is its operation, with the arguments that it was given. -/
theorem begins_native {operation : SystemOperation} {args : Arguments} {name : String}
    {given : List NativeArg} (htarget : start.target = .native)
    (hentryPoint : start.entryPoint = .system operation)
    (hnative : start.native? = some (name, given))
    (hname : "native-" ++ operation.name.toLower = name) (hargs : args.Pass given) :
    start.Begins (.native operation args) where
  target := htarget.symm
  entryPoint := hentryPoint.symm
  name := by rw [hnative, Call.fixedName?, hname]; rfl
  args name' given' h := by
    obtain ⟨rfl, rfl⟩ := Prod.mk.inj (Option.some.inj (hnative.symm.trans h))
    exact hargs
  noArgs h := nomatch hnative.symm.trans h

/-- A start outside the system has no arguments of its own. -/
theorem begins_other (htarget : call.target = start.target)
    (hentryPoint : call.entryPoint = start.entryPoint) (hname : call.fixedName? = none)
    (hargs : call.args = .empty) (hnative : start.native? = none) : start.Begins call where
  target := htarget
  entryPoint := hentryPoint
  name := by rw [hname, hnative]; rfl
  args name given h := by
    rw [hnative] at h
    cases h
  noArgs _ := hargs

/-- No start fails. -/
theorem exists_begins (start : Start) :
    ∃ call, start.Begins call ∧ start.builder = .ok (start.begun call) := by
  cases start with
  | transfer amount source target id =>
    obtain ⟨args, hmade, hargs⟩ := Arguments.isMadeOf_transfer amount source target
    cases id with
    | none =>
      refine ⟨.native .transfer args, begins_native rfl rfl rfl (by decide +kernel) ?_,
        Wire.bind_of_eq_ok hmade rfl⟩
      simpa using hargs
    | some id =>
      obtain ⟨v, hv⟩ : ∃ v, ClValue.ofU64 id = .ok v := ⟨_, rfl⟩
      exact ⟨.native .transfer (args.push "id" v),
        begins_native rfl rfl rfl (by decide +kernel) (hargs.push "id" hv),
        Wire.bind_of_eq_ok hmade (Wire.bind_of_eq_ok hv rfl)⟩
  | delegate delegator validator amount =>
    obtain ⟨args, hmade, hargs⟩ := Arguments.isMadeOf_staking delegator validator amount
    exact ⟨.native .delegate args, begins_native rfl rfl rfl (by decide +kernel) hargs,
      Wire.bind_of_eq_ok hmade rfl⟩
  | undelegate delegator validator amount =>
    obtain ⟨args, hmade, hargs⟩ := Arguments.isMadeOf_staking delegator validator amount
    exact ⟨.native .undelegate args, begins_native rfl rfl rfl (by decide +kernel) hargs,
      Wire.bind_of_eq_ok hmade rfl⟩
  | redelegate delegator validator newValidator amount =>
    obtain ⟨args, hmade, hargs⟩ :=
      Arguments.isMadeOf_restaking delegator validator newValidator amount
    exact ⟨.native .redelegate args, begins_native rfl rfl rfl (by decide +kernel) hargs,
      Wire.bind_of_eq_ok hmade rfl⟩
  | contractByHash hash entryPoint => exact ⟨.stored _ _, begins_other rfl rfl rfl rfl rfl, rfl⟩
  | contractByName name entryPoint => exact ⟨.stored _ _, begins_other rfl rfl rfl rfl rfl, rfl⟩
  | packageByHash hash version protocolMajor entryPoint =>
    exact ⟨.stored _ _, begins_other rfl rfl rfl rfl rfl, rfl⟩
  | packageByName name version protocolMajor entryPoint =>
    exact ⟨.stored _ _, begins_other rfl rfl rfl rfl rfl, rfl⟩
  | session isInstallUpgrade code => exact ⟨.session _ _, begins_other rfl rfl rfl rfl rfl, rfl⟩

/-! ## Settings after the start -/

/-- What is held before any setting. -/
def preset (start : Start) : Part → Option Setting
  | .initiator => start.delegator?.map fun delegator ↦ .initiator (.publicKey delegator)
  | .ttl => some (.ttl ⟨Limits.defaultTtl⟩)
  | _ => none

/-- What the start of a transaction leaves in the builder. -/
theorem held_begun (start : Start) (call : Call) : (start.begun call).held = start.preset := by
  funext part
  cases part <;> simp [held, begun, ofCall, preset, Function.comp_def]

/-- No start sets arguments, so they are held just if a setting gives them. -/
theorem isSome_heldAfter_arguments {settings : List Setting} :
    (heldAfter Setting.part start.preset settings .arguments).isSome ↔
      ∃ s ∈ settings, s.part = .arguments := by
  simp [isSome_heldAfter, preset]

/-- A start is complete just if no required part is missing after the settings. -/
theorem isComplete_iff {settings : List Setting} : start.IsComplete settings ↔
    ∀ part, ¬Lacks (heldAfter Setting.part start.preset settings) part := by
  have hset (part : Part) : heldAfter Setting.part start.preset settings part ≠ none ↔
      (∃ s ∈ settings, s.part = part) ∨ (start.preset part).isSome := by
    rw [← Option.isSome_iff_ne_none, isSome_heldAfter]
  have hchainName := hset .chainName
  have hinitiator := hset .initiator
  have hpricingMode := hset .pricingMode
  simp only [preset, Option.isSome_map, Option.isSome_none, Bool.false_eq_true, or_false]
    at hchainName hinitiator hpricingMode
  constructor
  · intro h part
    cases part with
    | chainName => exact hchainName.2 h.chainName
    | initiator => exact hinitiator.2 h.initiator
    | pricingMode => exact hpricingMode.2 h.pricingMode
    | _ => exact not_false
  · intro h
    exact ⟨hchainName.1 (h .chainName), hinitiator.1 (h .initiator),
      hpricingMode.1 (h .pricingMode)⟩

/-- Whatever is set and in whatever order, a transaction that is built runs what it was started
for, with the arguments it was started with if it has its own. Then arguments that are set are
refused, as soon as nothing is missing. -/
theorem build_setAll_exact (suite : Suite) (now : Timestamp) (start : Start) :
    ∃ b, start.builder = .ok b ∧ ∀ settings : List Setting,
      (∀ entryPoint target, (b.setAll settings).build suite now ≠
        .error (.rule (.entryPointMismatch entryPoint target))) ∧
      (∀ t, (b.setAll settings).build suite now = .ok t →
        t.payload.fields.target = start.target ∧ t.payload.fields.entryPoint = start.entryPoint ∧
        ∀ name given, start.native? = some (name, given) →
          ∃ args, t.payload.fields.args = .named args ∧ args.Pass given) ∧
      ∀ name, (b.setAll settings).build suite now = .error (.fixedArguments name) ↔
        start.native?.map (·.1) = some name ∧ (∃ s ∈ settings, s.part = .arguments) ∧
          start.IsComplete settings := by
  obtain ⟨call, hcall, hbuilder⟩ := start.exists_begins
  refine ⟨start.begun call, hbuilder, fun settings ↦ ?_⟩
  have hkept : ((start.begun call).setAll settings).call = call := call_setAll _ settings
  refine ⟨build_ne_entryPointMismatch suite now _, fun t ht ↦ ?_, fun name ↦ ?_⟩
  · obtain ⟨hallowed, hfields⟩ := fields_of_build ht
    rw [hfields, fields, hkept]
    refine ⟨hcall.target, hcall.entryPoint, fun name given hnative ↦ ?_⟩
    have hname : call.fixedName? = some name := by rw [hcall.name, hnative]; rfl
    have hnone : ((start.begun call).setAll settings).customArgs = none := by
      rw [hkept, hname] at hallowed
      exact hallowed.resolve_right (Option.some_ne_none name)
    rw [hnone]
    exact ⟨call.args, rfl, hcall.args name given hnative⟩
  · rw [build_setAll_eq_fixedArguments, held_begun, show (start.begun call).call = call from rfl,
      hcall.name, isSome_heldAfter_arguments, ← isComplete_iff, and_assoc, and_left_comm]

/-- A delegator that moves its stake, first with its own arguments and then with others. -/
theorem build_setAll_exact_redelegate :
    ∃ b, builder (.redelegate (.ed25519 (.fit 32 [1])) (.ed25519 (.fit 32 [2]))
        (.ed25519 (.fit 32 [3])) ⟨500, by decide⟩) = .ok b ∧
      (∃ t, (b.setAll [.pricingMode (.fixed 0 1), .chainName "casper"]).build
          Suite.constant ⟨0⟩ = .ok t ∧
        t.payload.fields.target = .native ∧
        t.payload.fields.entryPoint = .system .redelegate ∧
        ∃ args, t.payload.fields.args = .named args ∧
          args.Pass [⟨"delegator", .scalar .publicKey, .ed25519 (.fit 32 [1])⟩,
            ⟨"validator", .scalar .publicKey, .ed25519 (.fit 32 [2])⟩,
            ⟨"amount", .scalar .u512, ⟨500, by decide⟩⟩,
            ⟨"new_validator", .scalar .publicKey, .ed25519 (.fit 32 [3])⟩]) ∧
      (b.setAll [.arguments (.encoded ⟨[0]⟩), .pricingMode (.fixed 0 1),
          .chainName "casper"]).build Suite.constant ⟨0⟩ =
        .error (.fixedArguments "native-redelegate") := by
  obtain ⟨b, hb, hruns⟩ := build_setAll_exact Suite.constant ⟨0⟩
    (.redelegate (.ed25519 (.fit 32 [1])) (.ed25519 (.fit 32 [2])) (.ed25519 (.fit 32 [3]))
      ⟨500, by decide⟩)
  refine ⟨b, hb, ?_, ?_⟩
  · obtain ⟨-, hbuilt, -⟩ := hruns [.pricingMode (.fixed 0 1), .chainName "casper"]
    obtain ⟨t, ht⟩ : ∃ t, (b.setAll [.pricingMode (.fixed 0 1), .chainName "casper"]).build
        Suite.constant ⟨0⟩ = .ok t := by
      obtain rfl := Except.ok.inj hb
      exact Wire.exists_eq_ok_of_isSome (by decide +kernel)
    obtain ⟨htarget, hentryPoint, hargs⟩ := hbuilt t ht
    exact ⟨t, ht, htarget, hentryPoint, hargs _ _ rfl⟩
  · obtain ⟨-, -, hrefused⟩ := hruns [.arguments (.encoded ⟨[0]⟩), .pricingMode (.fixed 0 1),
      .chainName "casper"]
    refine (hrefused _).2 ⟨rfl, ⟨_, List.mem_cons_self, rfl⟩, ?_⟩
    exact ⟨⟨.chainName "casper", by simp, rfl⟩, .inr rfl, ⟨.pricingMode (.fixed 0 1), by simp, rfl⟩⟩

end Start

end TransactionBuilder

end ChainClient
