import ChainClient.Proofs.Document.Order
import ChainClient.Proofs.Wire.Laws
import ChainClient.Transaction.Builder

/-!
# What transactions are built

The builder of a transaction starts from a call, which no setting changes, and holds the last
setting of each part. Arguments that the call refuses are reported after the parts that are missing
and before the rules that are broken. Once nothing is missing or refused, building is sealing what
the call and the settings say.
-/

namespace ChainClient

open BuildError (require_eq_ok require_eq_error)

/-! ## Rules -/

/-- When the rule is checked. -/
def TransactionError.stage : TransactionError → Nat
  | .emptyChainName => 0
  | .chainNameTooLong _ => 1
  | .ttlTooLong _ => 2
  | .zeroPaymentAmount => 3
  | .entryPointMismatch _ _ => 4
  | .serialization _ => 5

namespace Payload

/-- The payload breaks the rule of that error. -/
def Breaks (suite : Suite) (p : Payload) : TransactionError → Prop
  | .emptyChainName => p.chainName.utf8ByteSize = 0
  | .chainNameTooLong length =>
    Limits.maxChainName < p.chainName.utf8ByteSize ∧ p.chainName.utf8ByteSize = length
  | .ttlTooLong ttl => Limits.maxTtl < p.ttl.millis ∧ p.ttl = ttl
  | .zeroPaymentAmount => p.pricingMode.paysNothing
  | .entryPointMismatch entryPoint target =>
    ¬p.fields.target.canRun p.fields.entryPoint ∧ p.fields.entryPoint = entryPoint ∧
      p.fields.target = target
  | .serialization cause => p.hash suite = .error cause

/-- Of the rules that are broken, the first is reported. -/
theorem reportsFrom_sealed (suite : Suite) (p : Payload) :
    ReportsFrom (p.Breaks suite) TransactionError.stage 0 (Transaction.sealed suite p) := by
  have hlast (e : TransactionError) : e.stage < 6 := by cases e <;> simp [TransactionError.stage]
  unfold Transaction.sealed checkRules
  refine .ite_bind ?empty fun _ ↦ .ite_bind ?long fun _ ↦ .ite_bind ?ttl fun _ ↦
    .ite_bind ?payment fun _ ↦ .bind ?entryPoint fun _ _ ↦ .bind ?hash fun _ _ e _ ↦ hlast e
  case entryPoint =>
    intro e
    cases hrun : p.fields.target.canRun p.fields.entryPoint <;> cases e <;>
      simp [Breaks, TransactionError.stage, hrun]
  case hash =>
    intro e
    rw [Wire.mapError_eq_error]
    cases e <;> simp [Breaks, TransactionError.stage]
  all_goals
    intro e
    cases e <;> simp [Breaks, TransactionError.stage]

/-- The payload is as the setting says. -/
def Takes (p : Payload) : TransactionBuilder.Setting → Prop
  | .chainName name => p.chainName = name
  | .initiator initiator => p.initiator = initiator
  | .timestamp timestamp => p.timestamp = timestamp
  | .ttl ttl => p.ttl = ttl
  | .pricingMode mode => p.pricingMode = mode
  | .arguments args => p.fields.args = args

end Payload

/-- A transaction is sealed if all rules hold, under the hash of its payload and without
approvals. -/
theorem Transaction.sealed_eq_ok {suite : Suite} {p : Payload} {t : Transaction} :
    Transaction.sealed suite p = .ok t ↔
      p.checkRules = .ok () ∧ ∃ hash, p.hash suite = .ok hash ∧ ⟨⟨hash⟩, p, []⟩ = t := by
  rw [sealed, Wire.bind_unit_eq_ok, Wire.bind_eq_ok]
  simp only [Wire.mapError_eq_ok, Wire.pure_eq_ok]

/-- Target and entry point of a call fit together. -/
theorem Call.canRun (call : Call) : call.target.canRun call.entryPoint := by cases call <;> rfl

/-! ## Parts -/

namespace TransactionBuilder

/-- What a setting is about. Both kinds of arguments are one part. -/
inductive Part where
  | chainName
  | initiator
  | timestamp
  | ttl
  | pricingMode
  | arguments
  deriving DecidableEq, Repr

def Setting.part : Setting → Part
  | .chainName _ => .chainName
  | .initiator _ => .initiator
  | .timestamp _ => .timestamp
  | .ttl _ => .ttl
  | .pricingMode _ => .pricingMode
  | .arguments _ => .arguments

variable {b b' : TransactionBuilder}

/-- What the builder holds, as the setting that would put it there. -/
def held (b : TransactionBuilder) : Part → Option Setting
  | .chainName => b.chainName.map .chainName
  | .initiator => b.initiator.map .initiator
  | .timestamp => b.timestamp.map .timestamp
  | .ttl => some (.ttl b.ttl)
  | .pricingMode => b.pricingMode.map .pricingMode
  | .arguments => b.customArgs.map .arguments

/-- A setting replaces what is held of its part and nothing else. -/
theorem held_set (b : TransactionBuilder) (s : Setting) (part : Part) :
    (b.set s).held part = if s.part = part then some s else b.held part := by
  cases s <;> cases part <;> rfl

/-- A builder is its call and what it holds. -/
theorem eq_of_held (hcall : b.call = b'.call) (h : ∀ part, b.held part = b'.held part) :
    b = b' := by
  have hchainName := (Option.map_inj_right fun _ _ ↦ Setting.chainName.inj).1 (h .chainName)
  have hinitiator := (Option.map_inj_right fun _ _ ↦ Setting.initiator.inj).1 (h .initiator)
  have htimestamp := (Option.map_inj_right fun _ _ ↦ Setting.timestamp.inj).1 (h .timestamp)
  have httl := Setting.ttl.inj (Option.some.inj (h .ttl))
  have hpricingMode := (Option.map_inj_right fun _ _ ↦ Setting.pricingMode.inj).1 (h .pricingMode)
  have harguments := (Option.map_inj_right fun _ _ ↦ Setting.arguments.inj).1 (h .arguments)
  cases b
  cases b'
  simp only [mk.injEq]
  exact ⟨hcall, hchainName, hinitiator, htimestamp, httl, hpricingMode, harguments⟩

/-- No setting changes the call. -/
theorem call_setAll (b : TransactionBuilder) (settings : List Setting) :
    (b.setAll settings).call = b.call := by
  induction settings generalizing b with
  | nil => rfl
  | cons s settings ih =>
    calc
      ((b.set s).setAll settings).call = (b.set s).call := ih (b.set s)
      _ = b.call := by cases s <;> rfl

/-- After settings, the last one of each part is held. -/
theorem held_setAll (b : TransactionBuilder) (settings : List Setting) :
    (b.setAll settings).held = heldAfter Setting.part b.held settings :=
  held_foldl held_set b settings

/-- Sequences of settings that end alike leave the same builder. -/
theorem setAll_eq {settings settings' : List Setting} (h : EndAlike Setting.part settings settings')
    (b : TransactionBuilder) : b.setAll settings = b.setAll settings' := by
  refine eq_of_held ?_ fun part ↦ ?_
  · rw [call_setAll, call_setAll]
  · rw [held_setAll, held_setAll, heldAfter, heldAfter, h]

/-- A transaction whose timestamp is set does not depend on the moment of building. -/
theorem build_eq_of_timestamp {suite : Suite} (h : b.timestamp.isSome) (now now' : Timestamp) :
    b.build suite now = b.build suite now' := by
  obtain ⟨timestamp, htimestamp⟩ := Option.isSome_iff_exists.1 h
  unfold build
  rw [htimestamp]
  rfl

/-- What is built depends on the last setting of each part alone. -/
theorem build_setAll_eq {suite : Suite} {settings settings' : List Setting}
    (h : EndAlike Setting.part settings settings')
    (htimestamp : (lastOf? Setting.part .timestamp settings).isSome) (now now' : Timestamp) :
    (b.setAll settings).build suite now = (b.setAll settings').build suite now' := by
  have hheld : ((b.setAll settings).held .timestamp).isSome := by
    simp [held_setAll, heldAfter, htimestamp]
  rw [← setAll_eq h b]
  exact build_eq_of_timestamp (by simpa [held] using hheld) now now'

/-! ## Failures -/

variable {suite : Suite} {now : Timestamp}

/-- The part is required and nothing is held for it. -/
def Lacks (held : Part → Option Setting) : RequiredPart → Prop
  | .chainName => held .chainName = none
  | .initiator => held .initiator = none
  | .pricingMode => held .pricingMode = none
  | _ => False

/-- The call with its arguments, or with others that were set. -/
def fields (b : TransactionBuilder) : TransactionFields :=
  ⟨b.customArgs.getD (.named b.call.args), b.call.entryPoint, .standard, b.call.target⟩

/-- The payload is for the call, takes all that is held, and has anything for the required parts
that are missing. -/
structure Completes (now : Timestamp) (call : Call) (held : Part → Option Setting)
    (payload : Payload) : Prop where
  takes : ∀ part s, held part = some s → payload.Takes s
  timestamp : held .timestamp = none → payload.timestamp = now
  args : held .arguments = none → payload.fields.args = .named call.args
  entryPoint : payload.fields.entryPoint = call.entryPoint
  scheduling : payload.fields.scheduling = .standard
  target : payload.fields.target = call.target

/-- Why the transaction is not built. A rule is broken if it is so whatever the missing parts
are. -/
def HasFault (suite : Suite) (now : Timestamp) (call : Call) (held : Part → Option Setting) :
    BuildError TransactionError → Prop
  | .missing part => Lacks held part
  | .fixedArguments operation => (held .arguments).isSome ∧ call.fixedName? = some operation
  | .rule e => ∀ payload, Completes now call held payload → payload.Breaks suite e
  | .argument _ => False

/-- When the fault is looked for. -/
def stage : BuildError TransactionError → Nat
  | .missing .chainName => 0
  | .missing .initiator => 1
  | .missing .pricingMode => 2
  | .rule e => e.stage + 4
  | _ => 3

/-- Arguments are taken unless some were set for a call that has its own. -/
theorem arguments_eq_ok {ε : Type} {args : TransactionArguments} :
    (b.arguments : Except (BuildError ε) TransactionArguments) = .ok args ↔
      (b.customArgs = none ∨ b.call.fixedName? = none) ∧ b.fields.args = args := by
  unfold arguments fields
  split <;> simp_all

/-- Arguments are refused under the name of the call that has its own. -/
theorem arguments_eq_error {ε : Type} {e : BuildError ε} : b.arguments = .error e ↔
    b.customArgs.isSome ∧ ∃ name, b.call.fixedName? = some name ∧ .fixedArguments name = e := by
  unfold arguments
  split <;> simp_all

/-- Missing parts can be filled in with anything, so no rule is broken for want of a payload. -/
theorem completes_getD (now : Timestamp) (b : TransactionBuilder) (chainName : String)
    (initiator : Initiator) (pricingMode : PricingMode) :
    Completes now b.call b.held ⟨b.initiator.getD initiator, b.timestamp.getD now, b.ttl,
      b.chainName.getD chainName, b.pricingMode.getD pricingMode, b.fields⟩ := by
  constructor
  case takes =>
    intro part s hs
    cases part <;> simp only [held, Option.map_eq_some_iff, Option.some.injEq] at hs <;>
      grind [Payload.Takes, fields]
  all_goals simp_all [held, fields]

/-- Nothing is left to fill in once all parts were set. -/
theorem completes_iff {chainName : String} {initiator : Initiator}
    {pricingMode : PricingMode} (hchainName : b.chainName = some chainName)
    (hinitiator : b.initiator = some initiator) (hpricingMode : b.pricingMode = some pricingMode)
    {payload : Payload} : Completes now b.call b.held payload ↔
      payload = ⟨initiator, b.timestamp.getD now, b.ttl, chainName, pricingMode, b.fields⟩ := by
  constructor
  · intro h
    have hchainName' := h.takes .chainName (.chainName chainName) (by simp [held, hchainName])
    have hinitiator' := h.takes .initiator (.initiator initiator) (by simp [held, hinitiator])
    have hpricingMode' := h.takes .pricingMode (.pricingMode pricingMode)
      (by simp [held, hpricingMode])
    have httl := h.takes .ttl (.ttl b.ttl) rfl
    have htimestamp : payload.timestamp = b.timestamp.getD now := by
      cases hb : b.timestamp with
      | none => exact h.timestamp (by simp [held, hb])
      | some timestamp => exact h.takes .timestamp (.timestamp timestamp) (by simp [held, hb])
    have hargs : payload.fields.args = b.customArgs.getD (.named b.call.args) := by
      cases hb : b.customArgs with
      | none => exact h.args (by simp [held, hb])
      | some args => exact h.takes .arguments (.arguments args) (by simp [held, hb])
    have hfields : payload.fields = b.fields := by
      rw [fields, ← hargs, ← h.entryPoint, ← h.scheduling, ← h.target]
    cases payload
    simp only [Payload.mk.injEq]
    exact ⟨hinitiator', htimestamp, httl, hchainName', hpricingMode', hfields⟩
  · rintro rfl
    simpa [hchainName, hinitiator, hpricingMode] using
      completes_getD now b chainName initiator pricingMode

/-- Missing parts come first, then refused arguments, and then the rules. -/
theorem reportsFrom_build (suite : Suite) (now : Timestamp) (b : TransactionBuilder) :
    ReportsFrom (HasFault suite now b.call b.held) stage 0 (b.build suite now) := by
  unfold build
  refine .bind ?chainName fun chainName hchainName ↦ .bind ?initiator fun initiator hinitiator ↦
    .bind ?pricingMode fun pricingMode hpricingMode ↦ .bind ?arguments fun args hargs ↦ ?rules
  case arguments =>
    intro e
    rw [arguments_eq_error]
    cases e with
    | missing part => cases part <;> simp [HasFault, Lacks, stage]
    | _ => simp [HasFault, held, stage]
  case rules =>
    rw [require_eq_ok] at hchainName hinitiator hpricingMode
    obtain rfl := (arguments_eq_ok.1 hargs).2
    refine (Payload.reportsFrom_sealed suite ⟨initiator, b.timestamp.getD now, b.ttl, chainName,
      pricingMode, b.fields⟩).mapError (fun e ↦ ?_) (fun _ ↦ rfl) fun e he hstage ↦ ?_
    · simp only [HasFault, completes_iff hchainName hinitiator hpricingMode, forall_eq]
    · cases e with
      | rule e => exact ⟨e, rfl⟩
      | missing part => cases part <;> simp [HasFault, Lacks, stage] at he hstage
      | fixedArguments => simp [stage] at hstage
      | argument => exact he.elim
  all_goals
    intro e
    rw [require_eq_error]
    cases e with
    | missing part => cases part <;> simp [HasFault, Lacks, held, stage]
    | _ => simp [HasFault, stage]

/-- What is reported is the earliest fault of the call and of what is held after the settings. -/
theorem build_setAll_eq_error_iff {settings : List Setting} {e : BuildError TransactionError} :
    (b.setAll settings).build suite now = .error e ↔
      IsEarliest (HasFault suite now b.call (heldAfter Setting.part b.held settings)) stage e := by
  rw [← held_setAll, ← call_setAll b settings]
  exact (reportsFrom_build suite now _).eq_error_iff

/-- Once nothing is missing or refused, building is sealing. -/
theorem build_setAll_of_completes {settings : List Setting} {payload : Payload}
    (hcomplete : ∀ part, ¬Lacks (heldAfter Setting.part b.held settings) part)
    (hallowed : heldAfter Setting.part b.held settings .arguments = none ∨
      b.call.fixedName? = none)
    (h : Completes now b.call (heldAfter Setting.part b.held settings) payload) :
    (b.setAll settings).build suite now =
      (Transaction.sealed suite payload).mapError .rule := by
  rw [← held_setAll] at hcomplete hallowed h
  rw [← call_setAll b settings] at hallowed h
  obtain ⟨chainName, hchainName⟩ := exists_eq_some_of_map_ne_none (hcomplete .chainName)
  obtain ⟨initiator, hinitiator⟩ := exists_eq_some_of_map_ne_none (hcomplete .initiator)
  obtain ⟨pricingMode, hpricingMode⟩ := exists_eq_some_of_map_ne_none (hcomplete .pricingMode)
  obtain rfl := (completes_iff hchainName hinitiator hpricingMode).1 h
  have hargs : ((b.setAll settings).arguments :
      Except (BuildError TransactionError) TransactionArguments) = .ok _ :=
    arguments_eq_ok.2 ⟨by simpa [held] using hallowed, rfl⟩
  simp only [build, hchainName, hinitiator, hpricingMode, BuildError.require, hargs, Wire.ok_bind]
  rfl

/-- Target and entry point come from one call, so they fit whatever else is wrong. -/
theorem build_ne_entryPointMismatch (suite : Suite) (now : Timestamp) (b : TransactionBuilder)
    (entryPoint : EntryPoint) (target : Target) :
    b.build suite now ≠ .error (.rule (.entryPointMismatch entryPoint target)) := by
  intro h
  obtain ⟨hfault, -⟩ := (reportsFrom_build suite now b).eq_error_iff.1 h
  obtain ⟨hrun, -⟩ := hfault _
    (completes_getD now b "" (.accountHash ⟨.zero 32⟩) (.prepaid ⟨.zero 32⟩))
  exact hrun b.call.canRun

/-- Arguments are refused as soon as no required part is missing, whatever rule is broken. -/
theorem build_setAll_eq_fixedArguments {settings : List Setting} {name : String} :
    (b.setAll settings).build suite now = .error (.fixedArguments name) ↔
      ((heldAfter Setting.part b.held settings .arguments).isSome ∧
        b.call.fixedName? = some name) ∧
      ∀ part, ¬Lacks (heldAfter Setting.part b.held settings) part := by
  rw [build_setAll_eq_error_iff]
  refine and_congr_right fun _ ↦ ⟨fun hearliest part hlacks ↦ ?_, fun hcomplete e he ↦ ?_⟩
  · have hstage := hearliest (.missing part) hlacks
    cases part <;> simp [stage, Lacks] at hstage hlacks
  · cases e with
    | missing part => exact absurd he (hcomplete part)
    | rule e => exact Nat.le_add_left 3 (e.stage + 1)
    | _ => exact Nat.le_refl 3

/-! ## Transactions that are built -/

/-- What is built has the fields of the call, and the arguments that were set if there are any. -/
theorem fields_of_build {t : Transaction}
    (h : b.build suite now = .ok t) :
    (b.customArgs = none ∨ b.call.fixedName? = none) ∧ t.payload.fields = b.fields := by
  obtain ⟨chainName, -, h⟩ := Wire.bind_eq_ok.1 h
  obtain ⟨initiator, -, h⟩ := Wire.bind_eq_ok.1 h
  obtain ⟨pricingMode, -, h⟩ := Wire.bind_eq_ok.1 h
  obtain ⟨args, hargs, h⟩ := Wire.bind_eq_ok.1 h
  obtain ⟨-, hash, -, rfl⟩ := Transaction.sealed_eq_ok.1 (Wire.mapError_eq_ok.1 h)
  obtain ⟨hallowed, rfl⟩ := arguments_eq_ok.1 hargs
  exact ⟨hallowed, rfl⟩

end TransactionBuilder

end ChainClient
