import ChainClient.Proofs.Deploy.Builder
import ChainClient.Proofs.Document.Signing
import ChainClient.Proofs.Document.Width

/-!
# How long documents stay valid

A document stays valid for one day at the most. Nothing else that is checked depends on its
lifetime, so once it can be made for one lifetime it is made for every other up to the limit, and
beyond the limit the lifetime is what is reported. A lifetime that is counted in seconds or minutes is the
product with the length of the unit, and a product beyond 64 bits stops the program. So the limit
holds for every count that stands for a lifetime, and there are counts that stand for none.
-/

namespace ChainClient

open Wire (bind_eq_ok mapError_eq_ok pure_eq_ok writePair_eq_ok)

/-! ## Counts -/

namespace Duration

variable {size : Nat} {count : UInt64}

/-- There is a duration just if the exact product has 64 bits, and then it is the product. -/
theorem ofUnits_eq_ok_iff {d : Duration} :
    ofUnits size count = .ok d ↔ d.millis.toNat = count.toNat * size := by
  unfold ofUnits
  constructor
  · intro h
    split at h
    case isTrue hfits =>
      obtain rfl := Except.ok.inj h
      exact UInt64.toNat_ofNat_of_lt' hfits
    case isFalse => cases h
  · intro h
    have hfits : count.toNat * size < UInt64.size := h ▸ d.millis.toNat_lt_size
    rw [if_pos hfits, ← h, UInt64.ofNat_toNat]

/-- The program stops just if the exact product does not have 64 bits. -/
theorem ofUnits_eq_error_iff :
    ofUnits size count = .error .overflow ↔ UInt64.size ≤ count.toNat * size := by
  unfold ofUnits
  split <;> simp_all

end Duration

/-- What a lifetime is counted in, unless it is stated in milliseconds. -/
inductive LifetimeUnit where
  | seconds
  | minutes
  deriving DecidableEq, Repr

namespace LifetimeUnit

def millis : LifetimeUnit → Nat
  | .seconds => Duration.perSecond
  | .minutes => Duration.perMinute

/-- How many make one day. -/
def perDay : LifetimeUnit → Nat
  | .seconds => 86400
  | .minutes => 1440

def lifetime : LifetimeUnit → UInt64 → Except ArithmeticFault Duration
  | .seconds => Duration.ofSeconds
  | .minutes => Duration.ofMinutes

variable {unit : LifetimeUnit} {count : UInt64} {ttl : Duration}

/-- One day in either unit is the limit. -/
theorem perDay_mul_millis (unit : LifetimeUnit) :
    unit.perDay * unit.millis = Limits.maxTtl.toNat := by cases unit <;> rfl

theorem millis_pos (unit : LifetimeUnit) : 0 < unit.millis := by cases unit <;> decide

theorem lifetime_eq_ofUnits (unit : LifetimeUnit) (count : UInt64) :
    unit.lifetime count = Duration.ofUnits unit.millis count := by cases unit <;> rfl

theorem lifetime_eq_ok_iff :
    unit.lifetime count = .ok ttl ↔ ttl.millis.toNat = count.toNat * unit.millis := by
  rw [lifetime_eq_ofUnits, Duration.ofUnits_eq_ok_iff]

theorem lifetime_eq_error_iff :
    unit.lifetime count = .error .overflow ↔ UInt64.size ≤ count.toNat * unit.millis := by
  rw [lifetime_eq_ofUnits, Duration.ofUnits_eq_error_iff]

/-- A lifetime has at least as many milliseconds as it has units. -/
theorem le_of_lifetime (h : unit.lifetime count = .ok ttl) : count ≤ ttl.millis := by
  rw [UInt64.le_iff_toNat_le, lifetime_eq_ok_iff.1 h]
  exact Nat.le_mul_of_pos_right _ unit.millis_pos

/-- A count up to one day fits, so its product is never what stops the program. -/
theorem exists_lifetime (h : count.toNat ≤ unit.perDay) : ∃ ttl, unit.lifetime count = .ok ttl := by
  have hfits : count.toNat * unit.millis < UInt64.size :=
    calc
      count.toNat * unit.millis ≤ unit.perDay * unit.millis := Nat.mul_le_mul_right _ h
      _ = Limits.maxTtl.toNat := unit.perDay_mul_millis
      _ < UInt64.size := Limits.maxTtl.toNat_lt_size
  exact ⟨⟨UInt64.ofNat (count.toNat * unit.millis)⟩,
    lifetime_eq_ok_iff.2 (UInt64.toNat_ofNat_of_lt' hfits)⟩

/-- A lifetime is beyond the limit just if its count is above one day. -/
theorem maxTtl_lt_iff (h : unit.lifetime count = .ok ttl) :
    Limits.maxTtl < ttl.millis ↔ unit.perDay < count.toNat := by
  rw [UInt64.lt_iff_toNat_lt, lifetime_eq_ok_iff.1 h, ← perDay_mul_millis unit]
  exact Nat.mul_lt_mul_right unit.millis_pos

end LifetimeUnit

/-! ## The limit -/

/-- Whatever can be made for one lifetime is made for all up to the limit, and a lifetime beyond
it is reported as too long. -/
structure IsLimited {ε α : Type} (make : Duration → Except ε α) (tooLong : Duration → ε) :
    Prop where
  eq_error : ∀ {ttl ttl' doc}, make ttl' = .ok doc → Limits.maxTtl < ttl.millis →
    make ttl = .error (tooLong ttl)
  exists_eq_ok : ∀ {ttl ttl' doc}, make ttl' = .ok doc → ttl.millis ≤ Limits.maxTtl →
    ∃ doc, make ttl = .ok doc

namespace IsLimited

variable {ε ε' α : Type} {make : Duration → Except ε α} {tooLong : Duration → ε} {ttl' : Duration}
  {doc : α}

/-- Once a document can be made, being too long is all that is wrong with a lifetime. -/
theorem eq_error_iff (h : IsLimited make tooLong) (hmade : make ttl' = .ok doc) (ttl : Duration) :
    make ttl = .error (tooLong ttl) ↔ Limits.maxTtl < ttl.millis := by
  refine ⟨fun hrefused ↦ UInt64.not_le.1 fun hle ↦ ?_, h.eq_error hmade⟩
  obtain ⟨doc', hmade'⟩ := h.exists_eq_ok hmade hle
  rw [hrefused] at hmade'
  cases hmade'

/-- Once a document can be made, it is made for every lifetime up to the limit. -/
theorem exists_eq_ok_iff (h : IsLimited make tooLong) (hmade : make ttl' = .ok doc)
    (ttl : Duration) : (∃ doc, make ttl = .ok doc) ↔ ttl.millis ≤ Limits.maxTtl := by
  refine ⟨fun ⟨doc', hmade'⟩ ↦ UInt64.not_lt.1 fun hlt ↦ ?_, h.exists_eq_ok hmade⟩
  rw [h.eq_error hmade hlt] at hmade'
  cases hmade'

/-- What is at fault for one lifetime is so for all others, or it is the lifetime itself. -/
theorem of_faults {fault : Duration → ε → Prop} {stage : ε → Nat}
    (hreports : ∀ ttl, ReportsFrom (fault ttl) stage 0 (make ttl))
    (hlong : ∀ ttl, Limits.maxTtl < ttl.millis → fault ttl (tooLong ttl))
    (hother : ∀ {ttl' doc}, make ttl' = .ok doc → ∀ {ttl e}, fault ttl e →
      (Limits.maxTtl < ttl.millis ∧ tooLong ttl = e) ∨ fault ttl' e) : IsLimited make tooLong := by
  have honly {ttl' doc} (hmade : make ttl' = .ok doc) {ttl e} (he : fault ttl e) :
      Limits.maxTtl < ttl.millis ∧ tooLong ttl = e := by
    have hnone := hreports ttl'
    rw [hmade] at hnone
    exact (hother hmade he).resolve_right fun he' ↦ Nat.not_lt_zero _ (hnone e he')
  constructor
  case eq_error =>
    intro ttl ttl' doc hmade hlt
    refine (hreports ttl).eq_error_iff.2 ⟨hlong ttl hlt, fun e he ↦ ?_⟩
    exact Nat.le_of_eq (congrArg stage (honly hmade he).2)
  case exists_eq_ok =>
    intro ttl ttl' doc hmade hle
    cases hmake : make ttl with
    | ok doc => exact ⟨doc, rfl⟩
    | error e =>
      have hfault := ((hreports ttl).eq_error_iff.1 hmake).1
      exact absurd (honly hmade hfault).1 (UInt64.not_lt.2 hle)

/-- Other work around it that does not depend on the lifetime. -/
theorem around {tooLong' : Duration → ε'} {make' : Duration → Except ε' α} {f : ε → ε'}
    (hinner : ∀ {ttl' doc}, make' ttl' = .ok doc → ∃ make, IsLimited make tooLong ∧
      ∀ ttl, make' ttl = (make ttl).mapError f)
    (htooLong : ∀ ttl, tooLong' ttl = f (tooLong ttl)) : IsLimited make' tooLong' where
  eq_error {ttl ttl' doc} hmade hlt := by
    obtain ⟨make, hmake, heq⟩ := hinner hmade
    rw [heq, mapError_eq_ok] at hmade
    rw [heq, htooLong, hmake.eq_error hmade hlt]
    rfl
  exists_eq_ok {ttl ttl' doc} hmade hle := by
    obtain ⟨make, hmake, heq⟩ := hinner hmade
    rw [heq, mapError_eq_ok] at hmade
    obtain ⟨doc', hmade'⟩ := hmake.exists_eq_ok hmade hle
    exact ⟨doc', by rw [heq, hmade', mapError_eq_ok]⟩

end IsLimited

/-! ## Deploys -/

/-- A lifetime takes eight bytes whatever it is. -/
theorem DeployHeader.exists_write_of_ttl {header : DeployHeader} {bytes : Bytes}
    (h : Wire.write header = .ok bytes) (ttl : Duration) :
    ∃ bytes, Wire.write { header with ttl } = .ok bytes := by
  obtain ⟨account, afterAccount, haccount, h, -⟩ := writePair_eq_ok.1 h
  obtain ⟨timestamp, afterTimestamp, htimestamp, h, -⟩ := writePair_eq_ok.1 h
  obtain ⟨-, afterTtl, -, hrest, -⟩ := writePair_eq_ok.1 h
  have httl : Wire.write ttl = .ok (Wire.leBytes 8 ttl.millis.toNat) := rfl
  exact ⟨_, writePair_eq_ok.2 ⟨_, _, haccount, writePair_eq_ok.2 ⟨_, _, htimestamp,
    writePair_eq_ok.2 ⟨_, _, httl, hrest, rfl⟩, rfl⟩, rfl⟩⟩

namespace Deploy.Draft

variable {suite : Suite} {draft : Draft}

/-- Whether a header can be hashed does not depend on its lifetime. -/
theorem exists_hashes_of_ttl {p : DeployHeader × Digest} (h : draft.hashes suite = .ok p)
    (ttl : Duration) : ∃ p, ({ draft with ttl } : Draft).hashes suite = .ok p := by
  obtain ⟨body, hbody, h⟩ := bind_eq_ok.1 h
  obtain ⟨hash, hheader, -⟩ := bind_eq_ok.1 h
  obtain ⟨bytes, hbytes, -⟩ := bind_eq_ok.1 hheader
  obtain ⟨bytes', hbytes'⟩ := DeployHeader.exists_write_of_ttl hbytes ttl
  exact ⟨_, Wire.bind_of_eq_ok hbody (Wire.bind_of_eq_ok (Wire.bind_of_eq_ok hbytes' rfl) rfl)⟩

theorem isLimited (suite : Suite) (draft : Draft) :
    IsLimited (fun ttl ↦ ({ draft with ttl } : Draft).sealed suite) .ttlTooLong := by
  refine .of_faults (fun ttl ↦ reportsFrom_sealed suite { draft with ttl })
    (fun ttl hlt ↦ ⟨hlt, rfl⟩) fun {ttl' d} hmade {ttl e} he ↦ ?_
  cases e with
  | ttlTooLong ttl => exact .inl ⟨he.1, congrArg _ he.2⟩
  | serialization cause =>
    rw [sealed_eq, Wire.bind_unit_eq_ok, bind_eq_ok] at hmade
    obtain ⟨-, p, hp, -⟩ := hmade
    obtain ⟨p', hp'⟩ := exists_hashes_of_ttl (mapError_eq_ok.1 hp) ttl
    exact nomatch hp'.symm.trans he
  | _ => exact .inr he

end Deploy.Draft

namespace DeployBuilder

variable {suite : Suite} {now : Timestamp} {b : DeployBuilder}

/-- Once all parts are set, building is sealing. -/
theorem exists_draft_of_build {d : Deploy} (h : b.build suite now = .ok d) :
    ∃ draft : Deploy.Draft, ∀ ttl, ({ b with ttl } : DeployBuilder).build suite now =
      (({ draft with ttl } : Deploy.Draft).sealed suite).mapError .rule := by
  obtain ⟨account, haccount, h⟩ := bind_eq_ok.1 h
  obtain ⟨chainName, hchainName, h⟩ := bind_eq_ok.1 h
  obtain ⟨session, hsession, h⟩ := bind_eq_ok.1 h
  obtain ⟨payment, hpayment, h⟩ := bind_eq_ok.1 h
  obtain ⟨item, hitem, -⟩ := bind_eq_ok.1 h
  refine ⟨⟨account, b.timestamp.getD now, b.ttl, b.gasPrice, b.dependencies, chainName, item,
    session⟩, fun ttl ↦ ?_⟩
  simp only [build, haccount, hchainName, hsession, hpayment, hitem, Wire.ok_bind]
  rfl

theorem isLimited (suite : Suite) (now : Timestamp) (b : DeployBuilder) :
    IsLimited (fun ttl ↦ ({ b with ttl } : DeployBuilder).build suite now) fun ttl ↦
      .rule (.ttlTooLong ttl) := by
  refine .around (fun hmade ↦ ?_) fun _ ↦ rfl
  obtain ⟨draft, hdraft⟩ := exists_draft_of_build hmade
  exact ⟨_, draft.isLimited suite, hdraft⟩

end DeployBuilder

/-! ## Transactions -/

namespace Payload

variable {suite : Suite} {p : Payload}

/-- A lifetime takes eight bytes whatever it is. -/
theorem exists_hash_of_ttl {hash : Digest} (h : p.hash suite = .ok hash) (ttl : Duration) :
    ∃ hash, ({ p with ttl } : Payload).hash suite = .ok hash := by
  obtain ⟨bytes, hbytes, -⟩ := bind_eq_ok.1 h
  have hfit := (Wire.exists_write_ofEnvelope (buildsLengths p)).1 ⟨bytes, hbytes⟩
  obtain ⟨bytes', hbytes'⟩ :=
    (Wire.exists_write_ofEnvelope (buildsLengths { p with ttl })).2 hfit
  exact ⟨_, Wire.bind_of_eq_ok hbytes' rfl⟩

theorem isLimited (suite : Suite) (p : Payload) :
    IsLimited (fun ttl ↦ Transaction.sealed suite { p with ttl }) .ttlTooLong := by
  refine .of_faults (fun ttl ↦ reportsFrom_sealed suite { p with ttl })
    (fun ttl hlt ↦ ⟨hlt, rfl⟩) fun {ttl' t} hmade {ttl e} he ↦ ?_
  cases e with
  | ttlTooLong ttl => exact .inl ⟨he.1, congrArg _ he.2⟩
  | serialization cause =>
    obtain ⟨-, hash, hhash, -⟩ := Transaction.sealed_eq_ok.1 hmade
    obtain ⟨hash', hhash'⟩ := exists_hash_of_ttl hhash ttl
    exact nomatch hhash'.symm.trans he
  | _ => exact .inr he

end Payload

namespace TransactionBuilder

variable {suite : Suite} {now : Timestamp} {b : TransactionBuilder}

/-- Once all parts are set and no arguments are refused, building is sealing. -/
theorem exists_payload_of_build {t : Transaction} (h : b.build suite now = .ok t) :
    ∃ p : Payload, ∀ ttl, ({ b with ttl } : TransactionBuilder).build suite now =
      (Transaction.sealed suite { p with ttl }).mapError .rule := by
  obtain ⟨chainName, hchainName, h⟩ := bind_eq_ok.1 h
  obtain ⟨initiator, hinitiator, h⟩ := bind_eq_ok.1 h
  obtain ⟨pricingMode, hpricingMode, h⟩ := bind_eq_ok.1 h
  obtain ⟨args, hargs, -⟩ := bind_eq_ok.1 h
  refine ⟨⟨initiator, b.timestamp.getD now, b.ttl, chainName, pricingMode,
    ⟨args, b.call.entryPoint, .standard, b.call.target⟩⟩, fun ttl ↦ ?_⟩
  have hargs' : ({ b with ttl } : TransactionBuilder).arguments = .ok args := hargs
  simp only [build, hchainName, hinitiator, hpricingMode, hargs', Wire.ok_bind]

theorem isLimited (suite : Suite) (now : Timestamp) (b : TransactionBuilder) :
    IsLimited (fun ttl ↦ ({ b with ttl } : TransactionBuilder).build suite now) fun ttl ↦
      .rule (.ttlTooLong ttl) := by
  refine .around (fun hmade ↦ ?_) fun _ ↦ rfl
  obtain ⟨p, hp⟩ := exists_payload_of_build hmade
  exact ⟨_, p.isLimited suite, hp⟩

end TransactionBuilder

/-! ## Documents -/

/-- The ways to make a document whose lifetime is still open, and how each tells that the lifetime
is too long. -/
inductive IsMaking (suite : Suite) (now : Timestamp) :
    {ε α : Type} → (Duration → Except ε α) → (Duration → ε) → Prop
  | deploy (draft : Deploy.Draft) :
    IsMaking suite now (fun ttl ↦ ({ draft with ttl } : Deploy.Draft).sealed suite) .ttlTooLong
  | deployBuilder (b : DeployBuilder) :
    IsMaking suite now (fun ttl ↦ ({ b with ttl } : DeployBuilder).build suite now) fun ttl ↦
      .rule (.ttlTooLong ttl)
  | transaction (p : Payload) :
    IsMaking suite now (fun ttl ↦ Transaction.sealed suite { p with ttl }) .ttlTooLong
  | transactionBuilder (b : TransactionBuilder) :
    IsMaking suite now (fun ttl ↦ ({ b with ttl } : TransactionBuilder).build suite now) fun ttl ↦
      .rule (.ttlTooLong ttl)

/-- Each way to make a document has the limit as its only rule about the lifetime. -/
theorem IsMaking.isLimited {suite : Suite} {now : Timestamp} {ε α : Type}
    {make : Duration → Except ε α} {tooLong : Duration → ε} (h : IsMaking suite now make tooLong) :
    IsLimited make tooLong := by
  cases h with
  | deploy draft => exact draft.isLimited suite
  | deployBuilder b => exact b.isLimited suite now
  | transaction p => exact p.isLimited suite
  | transactionBuilder b => exact b.isLimited suite now

/-- A count of seconds or minutes stands for its milliseconds, which are as many or more, or it
stops the program just if they take more than 64 bits. Whatever document can be made for some
lifetime is refused for that of a count just if this is more than one day, and made otherwise. -/
theorem lifetime_limit_exact (unit : LifetimeUnit) (count : UInt64) :
    (∀ ttl, unit.lifetime count = .ok ttl ↔ ttl.millis.toNat = count.toNat * unit.millis) ∧
    (unit.lifetime count = .error .overflow ↔ UInt64.size ≤ count.toNat * unit.millis) ∧
    (count.toNat ≤ unit.perDay → ∃ ttl, unit.lifetime count = .ok ttl) ∧
    ∀ ttl, unit.lifetime count = .ok ttl → count ≤ ttl.millis ∧
      ∀ (suite : Suite) (now : Timestamp) (ε α : Type) (make : Duration → Except ε α)
        (tooLong : Duration → ε), IsMaking suite now make tooLong →
        ∀ (ttl' : Duration) (doc : α), make ttl' = .ok doc →
          (make ttl = .error (tooLong ttl) ↔ unit.perDay < count.toNat) ∧
          ((∃ doc, make ttl = .ok doc) ↔ count.toNat ≤ unit.perDay) := by
  refine ⟨fun _ ↦ LifetimeUnit.lifetime_eq_ok_iff, LifetimeUnit.lifetime_eq_error_iff,
    LifetimeUnit.exists_lifetime, fun ttl httl ↦ ⟨LifetimeUnit.le_of_lifetime httl, ?_⟩⟩
  intro suite now ε α make tooLong hmaking ttl' doc hmade
  have hlong := LifetimeUnit.maxTtl_lt_iff httl
  constructor
  · rw [hmaking.isLimited.eq_error_iff hmade, hlong]
  · rw [hmaking.isLimited.exists_eq_ok_iff hmade, ← UInt64.not_lt, hlong, Nat.not_lt]

/-- What the approved deploy is sealed from. -/
def Deploy.Draft.plain : Draft :=
  ⟨.ed25519 (.fit 32 [1]), ⟨0⟩, ⟨1800000⟩, 1, [⟨⟨.zero 32⟩⟩], "casper", approved.payment,
    approved.session⟩

/-- One day is the last lifetime for which a deploy is made, in minutes as in seconds, and long
before the product leaves 64 bits. -/
theorem lifetime_limit_exact_minutes :
    (Duration.ofMinutes 1440 = .ok ⟨86400000⟩ ∧
      ∃ d, ({ Deploy.Draft.plain with ttl := ⟨86400000⟩ } : Deploy.Draft).sealed Suite.constant =
        .ok d) ∧
    (Duration.ofMinutes 1441 = .ok ⟨86460000⟩ ∧
      ({ Deploy.Draft.plain with ttl := ⟨86460000⟩ } : Deploy.Draft).sealed Suite.constant =
        .error (.ttlTooLong ⟨86460000⟩)) ∧
    (Duration.ofSeconds 86401 = .ok ⟨86401000⟩ ∧
      Transaction.sealed Suite.constant
        { Transaction.approved.payload with ttl := ⟨86401000⟩ } =
          .error (.ttlTooLong ⟨86401000⟩)) ∧
    Duration.ofMinutes 307445734561826 = .error .overflow := by
  have hdeploy : Deploy.Draft.plain.sealed Suite.constant = .ok .unsigned := rfl
  have htransaction : Transaction.sealed Suite.constant Transaction.approved.payload =
      .ok .unsigned := Wire.eq_ok_of_toOption (by decide +kernel)
  obtain ⟨hday, -, -, hmade⟩ := lifetime_limit_exact .minutes 1440
  obtain ⟨hlonger, -, -, hrefused⟩ := lifetime_limit_exact .minutes 1441
  obtain ⟨hseconds, -, -, hrefused'⟩ := lifetime_limit_exact .seconds 86401
  have httl : Duration.ofMinutes 1440 = .ok ⟨86400000⟩ := (hday _).2 (by decide)
  have httl' : Duration.ofMinutes 1441 = .ok ⟨86460000⟩ := (hlonger _).2 (by decide)
  have httl'' : Duration.ofSeconds 86401 = .ok ⟨86401000⟩ := (hseconds _).2 (by decide)
  refine ⟨⟨httl, ?_⟩, ⟨httl', ?_⟩, ⟨httl'', ?_⟩, ?_⟩
  · exact ((hmade _ httl).2 _ ⟨0⟩ _ _ _ _ (.deploy .plain) _ _ hdeploy).2.2 (by decide)
  · exact ((hrefused _ httl').2 _ ⟨0⟩ _ _ _ _ (.deploy .plain) _ _ hdeploy).1.2 (by decide)
  · exact ((hrefused' _ httl'').2 _ ⟨0⟩ _ _ _ _ (.transaction Transaction.approved.payload) _ _
      htransaction).1.2 (by decide)
  · exact (lifetime_limit_exact .minutes 307445734561826).2.1.2 (by decide +kernel)

/-- The first count of minutes that stops the program. Nothing is refused there, since there is no
lifetime that could be too long. -/
theorem not_forall_lifetime_limited :
    (¬∀ (unit : LifetimeUnit) (count : UInt64),
      ∃ ttl, unit.lifetime count = .ok ttl ∧ count ≤ ttl.millis) ∧
    ¬∀ (unit : LifetimeUnit) (count : UInt64) (draft : Deploy.Draft) (d : Deploy),
      draft.sealed Suite.constant = .ok d → unit.perDay < count.toNat →
        ∃ ttl, unit.lifetime count = .ok ttl ∧
          ({ draft with ttl } : Deploy.Draft).sealed Suite.constant = .error (.ttlTooLong ttl) := by
  have hstops : LifetimeUnit.minutes.lifetime 307445734561826 = .error .overflow :=
    LifetimeUnit.lifetime_eq_error_iff.2 (by decide +kernel)
  constructor
  · intro h
    obtain ⟨ttl, httl, -⟩ := h .minutes 307445734561826
    exact nomatch hstops.symm.trans httl
  · intro h
    obtain ⟨ttl, httl, -⟩ := h .minutes 307445734561826 .plain .unsigned rfl (by decide)
    exact nomatch hstops.symm.trans httl

end ChainClient
