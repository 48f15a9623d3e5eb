import ChainClient.Proofs.Deploy.Forms
import ChainClient.Proofs.Transaction.Forms

/-!
# What hashes commit to

Documents with the same hash agree in everything that the hash covers, unless the hash function
takes two different written forms to one digest. Nothing is asked of the hash function: such a
pair of bytes is named, and it is found among the forms of the two documents. The hash checks
of a verification are separated from that of the approvals first, since only they matter here.
-/

namespace ChainClient

/-! ## Collisions -/

/-- The two outcomes are bytes that differ and have the same digest. -/
def Suite.Collides (suite : Suite) (x y : Except WireError Bytes) : Prop :=
  ∃ a b, x = .ok a ∧ y = .ok b ∧ a ≠ b ∧ suite.hash a = suite.hash b

/-- The suite under which all bytes collide. -/
def Suite.constant : Suite := { Suite.network with hash := fun _ ↦ ⟨.zero 32⟩ }

/-- One digest comes from one value or from a collision. -/
theorem Suite.eq_or_collides {α : Type} [Wire α] [Wire.Unambiguous α] {suite : Suite} {x y : α}
    {digest : Digest} (hx : (do return suite.hash (← Wire.write x)) = .ok digest)
    (hy : (do return suite.hash (← Wire.write y)) = .ok digest) :
    x = y ∨ suite.Collides (Wire.write x) (Wire.write y) := by
  obtain ⟨a, ha, hdigest⟩ := Wire.bind_eq_ok.1 hx
  obtain ⟨b, hb, hdigest'⟩ := Wire.bind_eq_ok.1 hy
  have hhash : suite.hash a = suite.hash b := by
    calc
      suite.hash a = digest := Wire.pure_eq_ok.1 hdigest
      _ = suite.hash b := (Wire.pure_eq_ok.1 hdigest').symm
  by_cases hab : a = b
  · exact .inl (Wire.write_injective ha (hab ▸ hb))
  · exact .inr ⟨a, b, ha, hb, hab, hhash⟩

/-! ## Hash checks -/

/-- The error is about an approval, so the hashes were right. -/
def VerificationError.ConcernsApprovals : VerificationError → Prop
  | .noApprovals => True
  | .invalidApproval _ _ _ => True
  | _ => False

namespace Approval

variable {suite : Suite} {hash : Digest} {approvals : List Approval} {error : VerificationError}

/-- Checking approvals never reports a hash that does not match. -/
theorem concernsApprovals_of_verifyFrom {index : Nat}
    (h : verifyFrom suite hash index approvals = .error error) : error.ConcernsApprovals := by
  induction approvals generalizing index with
  | nil => cases h
  | cons a approvals ih =>
    rw [verifyFrom] at h
    cases ha : a.verify suite hash with
    | ok =>
      rw [ha] at h
      exact ih h
    | error cause =>
      rw [ha] at h
      obtain rfl := Except.error.inj h
      trivial

theorem concernsApprovals_of_verifyAll (h : verifyAll suite hash approvals = .error error) :
    error.ConcernsApprovals := by
  unfold verifyAll at h
  split at h
  · obtain rfl := Except.error.inj h
    trivial
  · exact concernsApprovals_of_verifyFrom h

end Approval

/-- A check is passed if what follows it decides. -/
theorem hashCheck_eq_iff {computed : Except WireError Digest} {expected : Digest}
    {mismatch : Digest → Digest → VerificationError}
    {next : Digest → Except VerificationError Unit} {outcome : Except VerificationError Unit}
    (hmismatch : ∀ a b, ¬(mismatch a b).ConcernsApprovals)
    (houtcome : ∀ error, outcome = .error error → error.ConcernsApprovals) :
    (do
      let actual ← computed.mapError .serialization
      if actual ≠ expected then
        throw (mismatch expected actual)
      next actual) = outcome ↔ computed = .ok expected ∧ next expected = outcome := by
  constructor
  · intro h
    cases computed with
    | error cause => exact (houtcome (.serialization cause) h.symm).elim
    | ok actual =>
      change (if actual ≠ expected then _ else next actual) = outcome at h
      by_cases hactual : actual = expected
      · rw [if_neg (not_not_intro hactual), hactual] at h
        exact ⟨by rw [hactual], h⟩
      · rw [if_pos hactual] at h
        exact (hmismatch expected actual (houtcome _ h.symm)).elim
  · rintro ⟨rfl, rfl⟩
    change (if expected ≠ expected then _ else next expected) = next expected
    rw [if_neg (not_not_intro rfl)]

/-! ## Deploys -/

namespace Deploy

/-- Both hashes are those of what they cover. -/
structure HashesMatch (suite : Suite) (d : Deploy) : Prop where
  body : bodyHash suite d.payment d.session = .ok d.header.bodyHash
  header : headerHash suite d.header = .ok d.hash.digest

/-- Verification passes both checks of hashes if its outcome is that for the approvals. -/
theorem hashesMatch_iff {suite : Suite} {d : Deploy} :
    HashesMatch suite d ↔ verify suite d = Approval.verifyAll suite d.hash.digest d.approvals := by
  have happrovals (error : VerificationError)
      (h : Approval.verifyAll suite d.hash.digest d.approvals = .error error) :
      error.ConcernsApprovals := Approval.concernsApprovals_of_verifyAll h
  unfold verify
  rw [hashCheck_eq_iff (fun _ _ ↦ id) happrovals, hashCheck_eq_iff (fun _ _ ↦ id) happrovals]
  exact ⟨fun h ↦ ⟨h.body, h.header, rfl⟩, fun h ↦ ⟨h.1, h.2.1⟩⟩

/-- The hash of a deploy commits to everything but the approvals. -/
theorem eq_or_collides_of_hash_eq {suite : Suite} {d d' : Deploy} (h : HashesMatch suite d)
    (h' : HashesMatch suite d') (hhash : d.hash = d'.hash) :
    (d.header = d'.header ∧ d.payment = d'.payment ∧ d.session = d'.session) ∨
      suite.Collides (Wire.write d.header) (Wire.write d'.header) ∨
      suite.Collides (bodyBytes d.payment d.session) (bodyBytes d'.payment d'.session) := by
  have hheader := h.header
  rw [hhash] at hheader
  rcases Suite.eq_or_collides hheader h'.header with heq | hcollides
  · have hbody := h.body
    rw [heq] at hbody
    -- The body is the form of a pair, which has no separator to rely on.
    rcases Suite.eq_or_collides (x := (d.payment, d.session)) (y := (d'.payment, d'.session))
      hbody h'.body with hitems | hcollides
    · exact .inl ⟨heq, Prod.mk.inj hitems⟩
    · exact .inr (.inr hcollides)
  · exact .inr (.inl hcollides)

/-- The approved deploy, paid by other code under the same hashes. -/
def repaid : Deploy := { approved with payment := .transfer ⟨[]⟩ }

/-- Two deploys with one hash that differ in their payment, since a constant hash lets the bodies
collide. -/
theorem collides_repaid : HashesMatch Suite.constant approved ∧
    HashesMatch Suite.constant repaid ∧
      Suite.constant.Collides (bodyBytes approved.payment approved.session)
        (bodyBytes repaid.payment repaid.session) := by
  have h : HashesMatch Suite.constant approved := ⟨rfl, rfl⟩
  have h' : HashesMatch Suite.constant repaid := ⟨rfl, rfl⟩
  refine ⟨h, h', ?_⟩
  rcases eq_or_collides_of_hash_eq h h' rfl with ⟨-, hpayment, -⟩ | ⟨a, b, ha, hb, hne, -⟩ | hbody
  · cases hpayment
  · exact absurd (Except.ok.inj (ha.symm.trans hb)) hne
  · exact hbody

end Deploy

/-! ## Transactions -/

namespace Transaction

/-- The hash is that of the payload. -/
def HashMatches (suite : Suite) (t : Transaction) : Prop :=
  t.payload.hash suite = .ok t.hash.digest

/-- Verification passes the check of the hash if its outcome is that for the approvals. -/
theorem hashMatches_iff {suite : Suite} {t : Transaction} :
    HashMatches suite t ↔ verify suite t = Approval.verifyAll suite t.hash.digest t.approvals := by
  have happrovals (error : VerificationError)
      (h : Approval.verifyAll suite t.hash.digest t.approvals = .error error) :
      error.ConcernsApprovals := Approval.concernsApprovals_of_verifyAll h
  unfold verify
  rw [hashCheck_eq_iff (fun _ _ ↦ id) happrovals]
  exact ⟨fun h ↦ ⟨h, rfl⟩, fun h ↦ h.1⟩

/-- The hash of a transaction commits to the whole payload. -/
theorem payload_eq_or_collides {suite : Suite} {t t' : Transaction} (h : HashMatches suite t)
    (h' : HashMatches suite t') (hhash : t.hash = t'.hash) :
    t.payload = t'.payload ∨
      suite.Collides (Wire.write t.payload) (Wire.write t'.payload) := by
  unfold HashMatches at h
  rw [hhash] at h
  exact Suite.eq_or_collides h h'

/-- The approved transaction, valid for no time under the same hash. -/
def expired : Transaction :=
  { approved with payload := { approved.payload with ttl := ⟨0⟩ } }

/-- Two transactions with one hash that differ in their payload, whose written forms collide. -/
theorem collides_expired : HashMatches Suite.constant approved ∧
    HashMatches Suite.constant expired ∧
      Suite.constant.Collides (Wire.write approved.payload) (Wire.write expired.payload) := by
  have h : HashMatches Suite.constant approved := Wire.eq_ok_of_toOption (by decide +kernel)
  have h' : HashMatches Suite.constant expired := Wire.eq_ok_of_toOption (by decide +kernel)
  refine ⟨h, h', ?_⟩
  rcases payload_eq_or_collides h h' rfl with hpayload | hcollides
  · exact absurd (congrArg Payload.ttl hpayload) (by decide)
  · exact hcollides

end Transaction

end ChainClient
