import ChainClient.Proofs.Deploy.Builder
import ChainClient.Proofs.Document.NativeArguments

/-!
# What a deploy starts with

A deploy starts without a session, with one that is given, or as an operation of the system: a
native transfer, or a call of the auction contract on behalf of a delegator. An operation carries
its own arguments with their names, order and types. The delegator is the account from the start.
No start fails, and what none of them sets is what the network has as its defaults.
-/

namespace ChainClient

namespace DeployBuilder

/-- What a deploy can be started for. Calls of contracts and modules are given as sessions. -/
inductive Start where
  | empty
  | session (item : ExecutableItem)
  | transfer (amount : U512) (source : Option URef) (target : TransferTarget) (id : Option UInt64)
  | delegate (contract : Digest) (delegator validator : PublicKey) (amount : U512)
  | undelegate (contract : Digest) (delegator validator : PublicKey) (amount : U512)
  | redelegate (contract : Digest) (delegator validator newValidator : PublicKey) (amount : U512)

namespace Start

def builder : Start → Except ClValueError DeployBuilder
  | .empty => .ok DeployBuilder.empty
  | .session item => .ok (ofSession item)
  | .transfer amount source target id => DeployBuilder.transfer amount source target id
  | .delegate contract delegator validator amount =>
    DeployBuilder.delegate contract delegator validator amount
  | .undelegate contract delegator validator amount =>
    DeployBuilder.undelegate contract delegator validator amount
  | .redelegate contract delegator validator newValidator amount =>
    DeployBuilder.redelegate contract delegator validator newValidator amount

/-- The account of a deploy that is about the stake of a delegator. -/
def delegator? : Start → Option PublicKey
  | .delegate _ delegator _ _ | .undelegate _ delegator _ _ | .redelegate _ delegator _ _ _ =>
    some delegator
  | _ => none

/-- The session of a start. An operation of the system passes the values that it was given. -/
inductive Begins : Start → Option ExecutableItem → Prop
  | empty : Begins .empty none
  | session (item : ExecutableItem) : Begins (.session item) (some item)
  | transfer {amount : U512} {source : Option URef} {target : TransferTarget} {id : Option UInt64}
      {args : Arguments} (h : args.Pass (Arguments.transferArgs amount source target ++
        [⟨"id", .option (.scalar .u64), id⟩])) :
    Begins (.transfer amount source target id) (some (.transfer args))
  | delegate {contract : Digest} {delegator validator : PublicKey} {amount : U512}
      {args : Arguments} (h : args.Pass (Arguments.stakeArgs delegator validator amount)) :
    Begins (.delegate contract delegator validator amount)
      (some (.byHash contract "delegate" args))
  | undelegate {contract : Digest} {delegator validator : PublicKey} {amount : U512}
      {args : Arguments} (h : args.Pass (Arguments.stakeArgs delegator validator amount)) :
    Begins (.undelegate contract delegator validator amount)
      (some (.byHash contract "undelegate" args))
  | redelegate {contract : Digest} {delegator validator newValidator : PublicKey} {amount : U512}
      {args : Arguments} (h : args.Pass (Arguments.stakeArgs delegator validator amount ++
        [⟨"new_validator", .scalar .publicKey, newValidator⟩])) :
    Begins (.redelegate contract delegator validator newValidator amount)
      (some (.byHash contract "redelegate" args))

/-- Before any setting. -/
def begun (start : Start) (session : Option ExecutableItem) : DeployBuilder :=
  { DeployBuilder.empty with session, account := start.delegator? }

/-- What is held before any setting. -/
def preset (start : Start) (session : Option ExecutableItem) : Part → Option Setting
  | .account => start.delegator?.map .account
  | .session => session.map .session
  | .ttl => some (.ttl ⟨Limits.defaultTtl⟩)
  | .gasPrice => some (.gasPrice Limits.defaultGasPrice)
  | .dependencies => some (.dependencies [])
  | .chainName | .payment | .timestamp => none

theorem held_begun (start : Start) (session : Option ExecutableItem) :
    (start.begun session).held = start.preset session := by
  funext part
  cases part <;> rfl

/-- No start fails. -/
theorem exists_begins (start : Start) :
    ∃ session, start.Begins session ∧ start.builder = .ok (start.begun session) := by
  cases start with
  | empty => exact ⟨_, .empty, rfl⟩
  | session item => exact ⟨_, .session item, rfl⟩
  | transfer amount source target id =>
    obtain ⟨args, hmade, hargs⟩ := Arguments.isMadeOf_transfer amount source target
    obtain ⟨payload, hid⟩ : ∃ payload, Wire.write id = .ok payload := by cases id <;> exact ⟨_, rfl⟩
    obtain ⟨args', hmade', hargs'⟩ := hargs.insert "id" (t := .option (.scalar .u64)) rfl hid
    have hitem : ExecutableItem.nativeTransfer amount source target id = .ok (.transfer args') :=
      Wire.bind_of_eq_ok hmade (Wire.bind_of_eq_ok hmade' rfl)
    exact ⟨_, .transfer hargs', Wire.bind_of_eq_ok hitem rfl⟩
  | delegate contract delegator validator amount =>
    obtain ⟨args, hmade, hargs⟩ := Arguments.isMadeOf_staking delegator validator amount
    exact ⟨_, .delegate hargs, Wire.bind_of_eq_ok hmade rfl⟩
  | undelegate contract delegator validator amount =>
    obtain ⟨args, hmade, hargs⟩ := Arguments.isMadeOf_staking delegator validator amount
    exact ⟨_, .undelegate hargs, Wire.bind_of_eq_ok hmade rfl⟩
  | redelegate contract delegator validator newValidator amount =>
    obtain ⟨args, hmade, hargs⟩ :=
      Arguments.isMadeOf_restaking delegator validator newValidator amount
    exact ⟨_, .redelegate hargs, Wire.bind_of_eq_ok hmade rfl⟩

end Start

end DeployBuilder

end ChainClient
