import ChainClient.Deploy.Builder
import ChainClient.Proofs.Document.Order
import ChainClient.Proofs.Wire.Laws

/-!
# What deploys are built

The builder holds the last setting of each part. A part that is missing is reported before any
rule that is broken, and the rules are checked in a fixed order; what is missing and what is broken
are said of the settings that are held, without regard to the order. Once nothing is missing,
building is sealing what the settings say.
-/

namespace ChainClient

open BuildError (require_eq_ok require_eq_error)

/-! ## Rules -/

/-- When the rule is checked. -/
def DeployError.stage : DeployError → Nat
  | .emptyChainName => 0
  | .chainNameTooLong _ => 1
  | .ttlTooLong _ => 2
  | .tooManyDependencies _ => 3
  | .missingPaymentAmount => 4
  | .zeroPaymentAmount => 4
  | .serialization _ => 5

namespace Deploy

/-- What a deploy is sealed from. -/
structure Draft where
  account : PublicKey
  timestamp : Timestamp
  ttl : Duration
  gasPrice : UInt64
  dependencies : List DeployHash
  chainName : String
  payment : ExecutableItem
  session : ExecutableItem
  deriving DecidableEq, Repr

namespace Draft

variable {suite : Suite} {draft : Draft}

def sealed (suite : Suite) (draft : Draft) : Except DeployError Deploy :=
  Deploy.sealed suite draft.account draft.timestamp draft.ttl draft.gasPrice draft.dependencies
    draft.chainName draft.payment draft.session

def header (draft : Draft) (bodyHash : Digest) : DeployHeader :=
  ⟨draft.account, draft.timestamp, draft.ttl, draft.gasPrice, bodyHash, draft.dependencies,
    draft.chainName⟩

/-- The header with the hash of the body, and its own hash. -/
def hashes (suite : Suite) (draft : Draft) : Except WireError (DeployHeader × Digest) := do
  let bodyHash ← bodyHash suite draft.payment draft.session
  let hash ← headerHash suite (draft.header bodyHash)
  return (draft.header bodyHash, hash)

/-- The draft breaks the rule of that error. -/
def Breaks (suite : Suite) (draft : Draft) : DeployError → Prop
  | .emptyChainName => draft.chainName.utf8ByteSize = 0
  | .chainNameTooLong length =>
    Limits.maxChainName < draft.chainName.utf8ByteSize ∧ draft.chainName.utf8ByteSize = length
  | .ttlTooLong ttl => Limits.maxTtl < draft.ttl.millis ∧ draft.ttl = ttl
  | .tooManyDependencies count =>
    Limits.maxDependencies < draft.dependencies.length ∧ draft.dependencies.length = count
  | .missingPaymentAmount =>
    draft.payment.isStandardPayment ∧ draft.payment.paymentAmount? = none
  | .zeroPaymentAmount =>
    draft.payment.isStandardPayment ∧
      ∃ amount, draft.payment.paymentAmount? = some amount ∧ amount.toNat = 0
  | .serialization cause => draft.hashes suite = .error cause

/-- Sealing checks the rules first, and then hashes the body and the header. -/
theorem sealed_eq : draft.sealed suite = do
    checkRules draft.ttl draft.dependencies draft.chainName draft.payment
    let p ← (draft.hashes suite).mapError .serialization
    return ⟨⟨p.2⟩, p.1, draft.payment, draft.session, []⟩ := by
  unfold sealed Deploy.sealed hashes
  cases checkRules draft.ttl draft.dependencies draft.chainName draft.payment with
  | error e => rfl
  | ok =>
    cases bodyHash suite draft.payment draft.session with
    | error e => rfl
    | ok bodyHash =>
      change (headerHash suite (draft.header bodyHash)).mapError DeployError.serialization >>= _ =
        (headerHash suite (draft.header bodyHash) >>= _).mapError DeployError.serialization >>= _
      cases headerHash suite (draft.header bodyHash) <;> rfl

/-- Of the rules that are broken, the first is reported. -/
theorem reportsFrom_sealed (suite : Suite) (draft : Draft) :
    ReportsFrom (draft.Breaks suite) DeployError.stage 0 (draft.sealed suite) := by
  have hlast (e : DeployError) : e.stage < 6 := by cases e <;> simp [DeployError.stage]
  rw [sealed_eq]
  unfold checkRules
  -- Each rule is a stage of its own; the amount is one rule with two errors.
  refine .ite_bind ?empty fun _ ↦ .ite_bind ?long fun _ ↦ .ite_bind ?ttl fun _ ↦
    .ite_bind ?dependencies fun _ ↦ .bind ?amount fun _ _ ↦ .bind ?hashes fun _ _ e _ ↦ hlast e
  case amount =>
    intro e
    cases hstandard : draft.payment.isStandardPayment with
    | false => cases e <;> simp [Breaks, DeployError.stage, hstandard]
    | true =>
      cases hamount : draft.payment.paymentAmount? with
      | none => cases e <;> simp [Breaks, DeployError.stage, hstandard, hamount]
      | some amount =>
        by_cases hzero : amount.toNat = 0 <;> cases e <;>
          simp [Breaks, DeployError.stage, hstandard, hamount, hzero]
  case hashes =>
    intro e
    rw [Wire.mapError_eq_error]
    cases e <;> simp [Breaks, DeployError.stage]
  all_goals
    intro e
    cases e <;> simp [Breaks, DeployError.stage]

/-- The draft is as the setting says. -/
def Takes (draft : Draft) : DeployBuilder.Setting → Prop
  | .account key => draft.account = key
  | .chainName name => draft.chainName = name
  | .session item => draft.session = item
  | .payment payment => payment.item = .ok draft.payment
  | .timestamp timestamp => draft.timestamp = timestamp
  | .ttl ttl => draft.ttl = ttl
  | .gasPrice price => draft.gasPrice = price
  | .dependencies hashes => draft.dependencies = hashes

end Draft

end Deploy

/-! ## Parts -/

namespace DeployBuilder

/-- What a setting is about. Both kinds of payment are one part. -/
inductive Part where
  | account
  | chainName
  | session
  | payment
  | timestamp
  | ttl
  | gasPrice
  | dependencies
  deriving DecidableEq, Repr

def Setting.part : Setting → Part
  | .account _ => .account
  | .chainName _ => .chainName
  | .session _ => .session
  | .payment _ => .payment
  | .timestamp _ => .timestamp
  | .ttl _ => .ttl
  | .gasPrice _ => .gasPrice
  | .dependencies _ => .dependencies

variable {b b' : DeployBuilder}

/-- What the builder holds, as the setting that would put it there. -/
def held (b : DeployBuilder) : Part → Option Setting
  | .account => b.account.map .account
  | .chainName => b.chainName.map .chainName
  | .session => b.session.map .session
  | .payment => b.payment.map .payment
  | .timestamp => b.timestamp.map .timestamp
  | .ttl => some (.ttl b.ttl)
  | .gasPrice => some (.gasPrice b.gasPrice)
  | .dependencies => some (.dependencies b.dependencies)

/-- A setting replaces what is held of its part and nothing else. -/
theorem held_set (b : DeployBuilder) (s : Setting) (part : Part) :
    (b.set s).held part = if s.part = part then some s else b.held part := by
  cases s <;> cases part <;> rfl

/-- A builder is what it holds. -/
theorem eq_of_held (h : ∀ part, b.held part = b'.held part) : b = b' := by
  have haccount := (Option.map_inj_right fun _ _ ↦ Setting.account.inj).1 (h .account)
  have hchainName := (Option.map_inj_right fun _ _ ↦ Setting.chainName.inj).1 (h .chainName)
  have hsession := (Option.map_inj_right fun _ _ ↦ Setting.session.inj).1 (h .session)
  have hpayment := (Option.map_inj_right fun _ _ ↦ Setting.payment.inj).1 (h .payment)
  have htimestamp := (Option.map_inj_right fun _ _ ↦ Setting.timestamp.inj).1 (h .timestamp)
  have httl := Setting.ttl.inj (Option.some.inj (h .ttl))
  have hgasPrice := Setting.gasPrice.inj (Option.some.inj (h .gasPrice))
  have hdependencies := Setting.dependencies.inj (Option.some.inj (h .dependencies))
  cases b
  cases b'
  simp only [mk.injEq]
  exact ⟨haccount, hchainName, hpayment, hsession, htimestamp, httl, hgasPrice, hdependencies⟩

/-- After settings, the last one of each part is held. -/
theorem held_setAll (b : DeployBuilder) (settings : List Setting) :
    (b.setAll settings).held = heldAfter Setting.part b.held settings :=
  held_foldl held_set b settings

/-- Sequences of settings that end alike leave the same builder. -/
theorem setAll_eq {settings settings' : List Setting} (h : EndAlike Setting.part settings settings')
    (b : DeployBuilder) : b.setAll settings = b.setAll settings' :=
  eq_of_held fun part ↦ by rw [held_setAll, held_setAll, heldAfter, heldAfter, h]

/-- A deploy whose timestamp is set does not depend on the moment of building. -/
theorem build_eq_of_timestamp {suite : Suite} (h : b.timestamp.isSome) (now now' : Timestamp) :
    b.build suite now = b.build suite now' := by
  obtain ⟨timestamp, htimestamp⟩ := Option.isSome_iff_exists.1 h
  unfold build
  rw [htimestamp]
  rfl

/-- What is built depends on the last setting of each part alone. -/
theorem build_setAll_eq {suite : Suite} {settings settings' : List Setting}
    (h : EndAlike Setting.part settings settings')
    (htimestamp : (lastOf? Setting.part .timestamp settings).isSome) (now now' : Timestamp) :
    (b.setAll settings).build suite now = (b.setAll settings').build suite now' := by
  have hheld : ((b.setAll settings).held .timestamp).isSome := by
    simp [held_setAll, heldAfter, htimestamp]
  rw [← setAll_eq h b]
  exact build_eq_of_timestamp (by simpa [held] using hheld) now now'

/-! ## Failures -/

variable {suite : Suite} {now : Timestamp}

/-- The part is required and nothing is held for it. -/
def Lacks (held : Part → Option Setting) : RequiredPart → Prop
  | .account => held .account = none
  | .chainName => held .chainName = none
  | .session => held .session = none
  | .payment => held .payment = none
  | _ => False

/-- The draft takes all that is held, and has anything for the required parts that are missing. -/
structure Completes (now : Timestamp) (held : Part → Option Setting) (draft : Deploy.Draft) :
    Prop where
  takes : ∀ part s, held part = some s → draft.Takes s
  timestamp : held .timestamp = none → draft.timestamp = now

/-- Why the deploy is not built. A rule is broken if it is so whatever the missing parts are. -/
def HasFault (suite : Suite) (now : Timestamp) (held : Part → Option Setting) :
    BuildError DeployError → Prop
  | .missing part => Lacks held part
  | .rule e => ∀ draft, Completes now held draft → draft.Breaks suite e
  | _ => False

/-- When the fault is looked for. -/
def stage : BuildError DeployError → Nat
  | .missing .account => 0
  | .missing .chainName => 1
  | .missing .session => 2
  | .missing .payment => 3
  | .rule e => e.stage + 4
  | _ => 4

/-- The amount of a standard payment has a written form. -/
theorem exists_item (payment : Payment) : ∃ item, payment.item = .ok item := by
  cases payment with
  | standard amount => exact ⟨_, rfl⟩
  | custom item => exact ⟨item, rfl⟩

/-- Nothing is left to fill in once all parts were set. -/
theorem completes_iff {account : PublicKey} {chainName : String}
    {session item : ExecutableItem} {payment : Payment} (haccount : b.account = some account)
    (hchainName : b.chainName = some chainName) (hsession : b.session = some session)
    (hpayment : b.payment = some payment) (hitem : payment.item = .ok item)
    {draft : Deploy.Draft} : Completes now b.held draft ↔
      draft = ⟨account, b.timestamp.getD now, b.ttl, b.gasPrice, b.dependencies, chainName, item,
        session⟩ := by
  constructor
  · intro h
    have haccount' := h.takes .account (.account account) (by simp [held, haccount])
    have hchainName' := h.takes .chainName (.chainName chainName) (by simp [held, hchainName])
    have hsession' := h.takes .session (.session session) (by simp [held, hsession])
    have hpayment' := h.takes .payment (.payment payment) (by simp [held, hpayment])
    have httl := h.takes .ttl (.ttl b.ttl) rfl
    have hgasPrice := h.takes .gasPrice (.gasPrice b.gasPrice) rfl
    have hdependencies := h.takes .dependencies (.dependencies b.dependencies) rfl
    have htimestamp : draft.timestamp = b.timestamp.getD now := by
      cases hb : b.timestamp with
      | none => exact h.timestamp (by simp [held, hb])
      | some timestamp => exact h.takes .timestamp (.timestamp timestamp) (by simp [held, hb])
    rw [Deploy.Draft.Takes, hitem] at hpayment'
    cases draft
    simp only [Deploy.Draft.mk.injEq]
    exact ⟨haccount', htimestamp, httl, hgasPrice, hdependencies, hchainName',
      (Except.ok.inj hpayment').symm, hsession'⟩
  · rintro rfl
    constructor
    case timestamp => simp_all [held]
    case takes =>
      intro part s hs
      cases part <;> simp only [held, Option.map_eq_some_iff, Option.some.injEq] at hs <;>
        grind [Deploy.Draft.Takes]

/-- Missing parts come first, in the order in which they are looked for, and then the rules. -/
theorem reportsFrom_build (suite : Suite) (now : Timestamp) (b : DeployBuilder) :
    ReportsFrom (HasFault suite now b.held) stage 0 (b.build suite now) := by
  unfold build
  refine .bind ?account fun account haccount ↦ .bind ?chainName fun chainName hchainName ↦
    .bind ?session fun session hsession ↦ .bind ?payment fun payment hpayment ↦ ?rules
  case rules =>
    -- All parts are set here, so the faults that are left are those of one draft.
    obtain ⟨item, hitem⟩ := exists_item payment
    rw [require_eq_ok] at haccount hchainName hsession hpayment
    rw [hitem]
    refine (Deploy.Draft.reportsFrom_sealed suite ⟨account, b.timestamp.getD now, b.ttl, b.gasPrice,
      b.dependencies, chainName, item, session⟩).mapError (fun e ↦ ?_) (fun _ ↦ rfl)
      fun e he hstage ↦ ?_
    · simp only [HasFault, completes_iff haccount hchainName hsession hpayment hitem, forall_eq]
    · cases e with
      | rule e => exact ⟨e, rfl⟩
      | missing part => cases part <;> simp [HasFault, Lacks, stage] at he hstage
      | _ => exact he.elim
  all_goals
    intro e
    rw [require_eq_error]
    cases e with
    | missing part => cases part <;> simp [HasFault, Lacks, held, stage]
    | _ => simp [HasFault, stage]

/-- What is reported is the earliest fault of what is held after the settings. -/
theorem build_setAll_eq_error_iff {settings : List Setting} {e : BuildError DeployError} :
    (b.setAll settings).build suite now = .error e ↔
      IsEarliest (HasFault suite now (heldAfter Setting.part b.held settings)) stage e := by
  rw [← held_setAll]
  exact (reportsFrom_build suite now _).eq_error_iff

/-- Once nothing is missing, building is sealing. -/
theorem build_setAll_of_completes {settings : List Setting} {draft : Deploy.Draft}
    (hcomplete : ∀ part, ¬Lacks (heldAfter Setting.part b.held settings) part)
    (h : Completes now (heldAfter Setting.part b.held settings) draft) :
    (b.setAll settings).build suite now = (draft.sealed suite).mapError .rule := by
  rw [← held_setAll] at hcomplete h
  obtain ⟨account, haccount⟩ := exists_eq_some_of_map_ne_none (hcomplete .account)
  obtain ⟨chainName, hchainName⟩ := exists_eq_some_of_map_ne_none (hcomplete .chainName)
  obtain ⟨session, hsession⟩ := exists_eq_some_of_map_ne_none (hcomplete .session)
  obtain ⟨payment, hpayment⟩ := exists_eq_some_of_map_ne_none (hcomplete .payment)
  obtain ⟨item, hitem⟩ := exists_item payment
  obtain rfl := (completes_iff haccount hchainName hsession hpayment hitem).1 h
  simp only [build, haccount, hchainName, hsession, hpayment, BuildError.require, hitem,
    Wire.ok_bind]
  rfl

end DeployBuilder

end ChainClient
