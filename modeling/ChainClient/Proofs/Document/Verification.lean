import ChainClient.Proofs.Document.Commitment

/-!
# What verification accepts and what it reports

A document is accepted if its hashes are those of its content and it has approvals, each of them
by a key of the algorithm of its signature and checked over the hash. Everything else is refused,
for the first check that fails: the hashes come before the approvals, and among the approvals the
first that is not valid is named. Nothing is asked of the check of signatures.
-/

namespace ChainClient

/-! ## Approvals -/

namespace Approval

variable {suite : Suite} {hash : Digest} {a : Approval} {approvals : List Approval}

/-- The approval is by a key and a signature of one algorithm, and the library finds it correct. -/
structure IsValid (suite : Suite) (hash : Digest) (a : Approval) : Prop where
  algorithm_eq : a.signer.algorithm = a.signature.algorithm
  check_eq_ok : suite.check a.signer hash.toList a.signature = .ok ()

/-- Why an approval is not valid. A signature of another algorithm is not checked at all. -/
inductive FailsWith (suite : Suite) (hash : Digest) (a : Approval) : CryptoError → Prop
  | mismatch (halgorithm : a.signer.algorithm ≠ a.signature.algorithm) :
    FailsWith suite hash a (.algorithmMismatch a.signer.algorithm a.signature.algorithm)
  | check {cause : CryptoError} (halgorithm : a.signer.algorithm = a.signature.algorithm)
    (hcheck : suite.check a.signer hash.toList a.signature = .error cause) :
    FailsWith suite hash a cause

/-- An approval passes just if it is valid. -/
theorem verify_eq_ok_iff : a.verify suite hash = .ok () ↔ a.IsValid suite hash := by
  unfold verify Suite.verify
  constructor
  · intro h
    split at h
    case isTrue halgorithm => exact ⟨halgorithm, h⟩
    case isFalse => cases h
  · intro h
    rw [if_pos h.algorithm_eq, h.check_eq_ok]

/-- The cause that is reported is the first thing that is wrong with the approval. -/
theorem verify_eq_error_iff {cause : CryptoError} :
    a.verify suite hash = .error cause ↔ a.FailsWith suite hash cause := by
  unfold verify Suite.verify
  constructor
  · intro h
    split at h
    case isTrue halgorithm => exact .check halgorithm h
    case isFalse halgorithm =>
      obtain rfl := Except.error.inj h
      exact .mismatch halgorithm
  · intro h
    cases h with
    | mismatch halgorithm => rw [if_neg halgorithm]
    | check halgorithm hcheck => rw [if_pos halgorithm, hcheck]

/-- Valid approvals in front only count. -/
theorem verifyFrom_append {front : List Approval} (hfront : ∀ b ∈ front, b.IsValid suite hash)
    (start : Nat) : verifyFrom suite hash start (front ++ approvals) =
      verifyFrom suite hash (start + front.length) approvals := by
  induction front generalizing start with
  | nil => rfl
  | cons b front ih =>
    obtain ⟨hb, hothers⟩ := List.forall_mem_cons.1 hfront
    rw [List.cons_append, verifyFrom, verify_eq_ok_iff.2 hb]
    calc
      verifyFrom suite hash (start + 1) (front ++ approvals)
      _ = verifyFrom suite hash (start + 1 + front.length) approvals := ih hothers (start + 1)
      _ = _ := by rw [List.length_cons, Nat.add_assoc, Nat.add_comm 1]

/-- The approvals pass just if each one is valid, wherever counting starts. -/
theorem verifyFrom_eq_ok_iff {start : Nat} : verifyFrom suite hash start approvals = .ok () ↔
    ∀ a ∈ approvals, a.IsValid suite hash := by
  induction approvals generalizing start with
  | nil => simp [verifyFrom]
  | cons a approvals ih =>
    rw [List.forall_mem_cons, ← verify_eq_ok_iff, verifyFrom]
    cases a.verify suite hash with
    | ok => simpa using ih
    | error cause => simp

/-- The report is about the first approval that is not valid. -/
theorem verifyFrom_eq_error_iff {start : Nat} {error : VerificationError} :
    verifyFrom suite hash start approvals = .error error ↔ ∃ front a back cause,
      approvals = front ++ a :: back ∧ (∀ b ∈ front, b.IsValid suite hash) ∧
        a.FailsWith suite hash cause ∧
          error = .invalidApproval (start + front.length) a.signer cause := by
  constructor
  · intro h
    induction approvals generalizing start with
    | nil => cases h
    | cons b approvals ih =>
      rw [verifyFrom] at h
      cases hb : b.verify suite hash with
      | error cause =>
        rw [hb] at h
        obtain rfl := Except.error.inj h
        exact ⟨[], b, approvals, cause, rfl, by simp, verify_eq_error_iff.1 hb, rfl⟩
      | ok =>
        rw [hb] at h
        obtain ⟨front, a, back, cause, rfl, hfront, ha, rfl⟩ := ih h
        refine ⟨b :: front, a, back, cause, rfl,
          List.forall_mem_cons.2 ⟨verify_eq_ok_iff.1 hb, hfront⟩, ha, ?_⟩
        rw [List.length_cons, Nat.add_assoc, Nat.add_comm 1]
  · rintro ⟨front, a, back, cause, rfl, hfront, ha, rfl⟩
    rw [verifyFrom_append hfront, verifyFrom, verify_eq_error_iff.2 ha]

/-- What is reported of approvals that are refused. -/
inductive Refused (suite : Suite) (hash : Digest) : List Approval → VerificationError → Prop
  | missing : Refused suite hash [] .noApprovals
  | invalid {front back : List Approval} {a : Approval} {cause : CryptoError}
    (hfront : ∀ b ∈ front, b.IsValid suite hash) (ha : a.FailsWith suite hash cause) :
    Refused suite hash (front ++ a :: back) (.invalidApproval front.length a.signer cause)

/-- At least one approval is needed, and all have to be valid. -/
theorem verifyAll_eq_ok_iff : verifyAll suite hash approvals = .ok () ↔
    approvals ≠ [] ∧ ∀ a ∈ approvals, a.IsValid suite hash := by
  unfold verifyAll
  cases approvals with
  | nil => simp
  | cons a approvals =>
    rw [List.isEmpty_cons, if_neg Bool.false_ne_true, verifyFrom_eq_ok_iff]
    simp

/-- What is reported is that there are no approvals, or the first one that is not valid. -/
theorem verifyAll_eq_error_iff {error : VerificationError} :
    verifyAll suite hash approvals = .error error ↔ Refused suite hash approvals error := by
  unfold verifyAll
  constructor
  · intro h
    split at h
    case isTrue hempty =>
      obtain rfl := Except.error.inj h
      rw [List.isEmpty_iff.1 hempty]
      exact .missing
    case isFalse =>
      obtain ⟨front, a, back, cause, rfl, hfront, ha, rfl⟩ := verifyFrom_eq_error_iff.1 h
      rw [Nat.zero_add]
      exact .invalid hfront ha
  · intro h
    cases h with
    | missing => rfl
    | @invalid front back a cause hfront ha =>
      have hempty : ¬(front ++ a :: back).isEmpty := by simp
      rw [if_neg hempty]
      exact verifyFrom_eq_error_iff.2
        ⟨front, a, back, cause, rfl, hfront, ha, by rw [Nat.zero_add]⟩

end Approval

/-! ## Hashes -/

section HashCheck

variable {computed : Except WireError Digest} {expected : Digest}
  {mismatch : Digest → Digest → VerificationError} {next : Digest → Except VerificationError Unit}

/-- A check of a hash passes just if the computed one is the expected one and the rest passes. -/
theorem hashCheck_eq_ok_iff : (do
      let actual ← computed.mapError VerificationError.serialization
      if actual ≠ expected then
        throw (mismatch expected actual)
      next actual) = .ok () ↔ computed = .ok expected ∧ next expected = .ok () := by
  cases computed with
  | error cause =>
    change .error (VerificationError.serialization cause) = Except.ok () ↔ _
    simp
  | ok actual =>
    change (if actual ≠ expected then Except.error (mismatch expected actual) else next actual) =
      .ok () ↔ _
    by_cases hactual : actual = expected
    · simp [hactual]
    · simp [hactual]

/-- The three ways in which a check of a hash and what follows it can fail. -/
theorem hashCheck_eq_error_iff {error : VerificationError} : (do
      let actual ← computed.mapError VerificationError.serialization
      if actual ≠ expected then
        throw (mismatch expected actual)
      next actual) = .error error ↔
        (∃ cause, computed = .error cause ∧ error = .serialization cause) ∨
        (∃ actual, computed = .ok actual ∧ actual ≠ expected ∧ error = mismatch expected actual) ∨
        (computed = .ok expected ∧ next expected = .error error) := by
  cases computed with
  | error cause =>
    change .error (VerificationError.serialization cause) = Except.error error ↔ _
    simp [eq_comm]
  | ok actual =>
    change (if actual ≠ expected then Except.error (mismatch expected actual) else next actual) =
      .error error ↔ _
    by_cases hactual : actual = expected
    · simp [hactual]
    · have hexpected : expected ≠ actual := Ne.symm hactual
      simp [hactual, hexpected, eq_comm]

end HashCheck

namespace Deploy

variable {suite : Suite} {d : Deploy}

/-- What is reported of a deploy that is refused. Each check is made after those before it have
passed. -/
inductive Refused (suite : Suite) (d : Deploy) : VerificationError → Prop
  | unwrittenBody {cause : WireError}
    (hbody : bodyHash suite d.payment d.session = .error cause) :
    Refused suite d (.serialization cause)
  | bodyHash {actual : Digest} (hbody : bodyHash suite d.payment d.session = .ok actual)
    (hne : actual ≠ d.header.bodyHash) :
    Refused suite d (.bodyHashMismatch d.header.bodyHash actual)
  | unwrittenHeader {cause : WireError}
    (hbody : Deploy.bodyHash suite d.payment d.session = .ok d.header.bodyHash)
    (hheader : headerHash suite d.header = .error cause) : Refused suite d (.serialization cause)
  | hash {actual : Digest}
    (hbody : Deploy.bodyHash suite d.payment d.session = .ok d.header.bodyHash)
    (hheader : headerHash suite d.header = .ok actual) (hne : actual ≠ d.hash.digest) :
    Refused suite d (.hashMismatch d.hash.digest actual)
  | approvals {error : VerificationError} (hhashes : HashesMatch suite d)
    (happrovals : Approval.Refused suite d.hash.digest d.approvals error) : Refused suite d error

/-- A deploy verifies just if both hashes match and all approvals are valid, at least one. -/
theorem verify_eq_ok_iff : verify suite d = .ok () ↔ HashesMatch suite d ∧ d.approvals ≠ [] ∧
    ∀ a ∈ d.approvals, a.IsValid suite d.hash.digest := by
  unfold verify
  rw [hashCheck_eq_ok_iff, hashCheck_eq_ok_iff, Approval.verifyAll_eq_ok_iff]
  exact ⟨fun h ↦ ⟨⟨h.1, h.2.1⟩, h.2.2⟩, fun h ↦ ⟨h.1.body, h.1.header, h.2⟩⟩

/-- A deploy is refused for the earliest of the hash of the body, its own hash and the approvals. -/
theorem verify_eq_error_iff {error : VerificationError} :
    verify suite d = .error error ↔ d.Refused suite error := by
  unfold verify
  rw [hashCheck_eq_error_iff, hashCheck_eq_error_iff, Approval.verifyAll_eq_error_iff]
  constructor
  · rintro (⟨cause, hbody, rfl⟩ | ⟨actual, hbody, hne, rfl⟩ | ⟨hbody, ⟨cause, hheader, rfl⟩ |
      ⟨actual, hheader, hne, rfl⟩ | ⟨hheader, happrovals⟩⟩)
    · exact .unwrittenBody hbody
    · exact .bodyHash hbody hne
    · exact .unwrittenHeader hbody hheader
    · exact .hash hbody hheader hne
    · exact .approvals ⟨hbody, hheader⟩ happrovals
  · intro h
    cases h with
    | unwrittenBody hbody => exact .inl ⟨_, hbody, rfl⟩
    | bodyHash hbody hne => exact .inr (.inl ⟨_, hbody, hne, rfl⟩)
    | unwrittenHeader hbody hheader => exact .inr (.inr ⟨hbody, .inl ⟨_, hheader, rfl⟩⟩)
    | hash hbody hheader hne => exact .inr (.inr ⟨hbody, .inr (.inl ⟨_, hheader, hne, rfl⟩)⟩)
    | approvals hhashes happrovals =>
      exact .inr (.inr ⟨hhashes.body, .inr (.inr ⟨hhashes.header, happrovals⟩)⟩)

end Deploy

namespace Transaction

variable {suite : Suite} {t : Transaction}

/-- What is reported of a transaction that is refused. -/
inductive Refused (suite : Suite) (t : Transaction) : VerificationError → Prop
  | unwritten {cause : WireError} (hpayload : t.payload.hash suite = .error cause) :
    Refused suite t (.serialization cause)
  | hash {actual : Digest} (hpayload : t.payload.hash suite = .ok actual)
    (hne : actual ≠ t.hash.digest) : Refused suite t (.hashMismatch t.hash.digest actual)
  | approvals {error : VerificationError} (hhash : HashMatches suite t)
    (happrovals : Approval.Refused suite t.hash.digest t.approvals error) : Refused suite t error

/-- A transaction verifies just if its hash matches and all approvals are valid, at least one. -/
theorem verify_eq_ok_iff : verify suite t = .ok () ↔ HashMatches suite t ∧ t.approvals ≠ [] ∧
    ∀ a ∈ t.approvals, a.IsValid suite t.hash.digest := by
  unfold verify
  rw [hashCheck_eq_ok_iff, Approval.verifyAll_eq_ok_iff]
  exact Iff.rfl

/-- A transaction is refused for its hash first and then for its approvals. -/
theorem verify_eq_error_iff {error : VerificationError} :
    verify suite t = .error error ↔ t.Refused suite error := by
  unfold verify
  rw [hashCheck_eq_error_iff, Approval.verifyAll_eq_error_iff]
  constructor
  · rintro (⟨cause, hpayload, rfl⟩ | ⟨actual, hpayload, hne, rfl⟩ | ⟨hpayload, happrovals⟩)
    · exact .unwritten hpayload
    · exact .hash hpayload hne
    · exact .approvals hpayload happrovals
  · intro h
    cases h with
    | unwritten hpayload => exact .inl ⟨_, hpayload, rfl⟩
    | hash hpayload hne => exact .inr (.inl ⟨_, hpayload, hne, rfl⟩)
    | approvals hhash happrovals => exact .inr (.inr ⟨hhash, happrovals⟩)

end Transaction

/-! ## Documents -/

/-- Verification of a document accepts what is stated, and reports the first check that fails. -/
theorem verify_exact (suite : Suite) :
    (∀ d : Deploy,
      (d.verify suite = .ok () ↔ d.HashesMatch suite ∧ d.approvals ≠ [] ∧
        ∀ a ∈ d.approvals, a.IsValid suite d.hash.digest) ∧
      ∀ error, d.verify suite = .error error ↔ d.Refused suite error) ∧
    ∀ t : Transaction,
      (t.verify suite = .ok () ↔ t.HashMatches suite ∧ t.approvals ≠ [] ∧
        ∀ a ∈ t.approvals, a.IsValid suite t.hash.digest) ∧
      ∀ error, t.verify suite = .error error ↔ t.Refused suite error :=
  ⟨fun _ ↦ ⟨Deploy.verify_eq_ok_iff, fun _ ↦ Deploy.verify_eq_error_iff⟩,
    fun _ ↦ ⟨Transaction.verify_eq_ok_iff, fun _ ↦ Transaction.verify_eq_error_iff⟩⟩

end ChainClient
