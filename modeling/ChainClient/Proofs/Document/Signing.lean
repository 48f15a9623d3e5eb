import ChainClient.Proofs.Document.Verification
import ChainClient.Proofs.Transaction.Builder

/-!
# Sealed documents that are signed

Sealing fixes the hashes of a document, and signing appends an approval of the hash and touches
nothing else, so the hashes stay right whoever signs and however often. What a key pair signs
being accepted under its public key is the only thing that is asked of the signature schemes, and
only for the hash in question. Then a sealed document is verified as soon as it was signed once.
-/

namespace ChainClient

open Wire (bind_eq_ok bind_unit_eq_ok pure_eq_ok mapError_eq_ok)

/-! ## Key pairs -/

/-- The key pairs of the network, under any hash function and any check of signatures. -/
def Suite.ofPrimitives (hash : Bytes → Digest)
    (check : PublicKey → Bytes → Signature → Except CryptoError Unit) : Suite :=
  ⟨hash, KeyPair.publicKey, KeyPair.sign, check⟩

namespace KeyPair

theorem algorithm_publicKey (pair : KeyPair) : pair.publicKey.algorithm = pair.algorithm := by
  unfold publicKey
  cases pair.algorithm <;> rfl

/-- A pair signs with its own algorithm. -/
theorem algorithm_sign (pair : KeyPair) (message : Bytes) :
    (pair.sign message).algorithm = pair.algorithm := by
  unfold sign
  cases pair.algorithm <;> rfl

/-- What the pair signs is accepted under its public key. -/
def IsHonored (check : PublicKey → Bytes → Signature → Except CryptoError Unit) (message : Bytes)
    (pair : KeyPair) : Prop :=
  check pair.publicKey message (pair.sign message) = .ok ()

end KeyPair

/-! ## Approvals -/

namespace Approval

/-- Key and signature are of the algorithm of the pair, so only the check is left. -/
theorem isValid_create {hash : Bytes → Digest}
    {check : PublicKey → Bytes → Signature → Except CryptoError Unit} {digest : Digest}
    {pair : KeyPair} (h : pair.IsHonored check digest.toList) :
    (create (.ofPrimitives hash check) digest pair).IsValid (.ofPrimitives hash check) digest where
  algorithm_eq := by
    calc
      pair.publicKey.algorithm = pair.algorithm := pair.algorithm_publicKey
      _ = (pair.sign digest.toList).algorithm := (pair.algorithm_sign digest.toList).symm
  check_eq_ok := h

/-- Signatures by pairs that the library verifies are all valid; without any pair there is no
approval. -/
theorem verifyAll_map_create {suite : Suite} {digest : Digest} {pairs : List KeyPair}
    (h : ∀ pair ∈ pairs, (create suite digest pair).IsValid suite digest) :
    verifyAll suite digest (pairs.map (create suite digest)) =
      if pairs.isEmpty then .error .noApprovals else .ok () := by
  cases pairs with
  | nil => rfl
  | cons pair pairs => exact verifyAll_eq_ok_iff.2 ⟨by simp, List.forall_mem_map.2 h⟩

end Approval

/-! ## Deploys -/

namespace Deploy

variable {suite : Suite} {d : Deploy}

/-- One pair after the other signs. -/
def signAll (suite : Suite) (d : Deploy) (pairs : List KeyPair) : Deploy :=
  pairs.foldl (sign suite) d

/-- Nothing but the approvals changes, which are kept in the order of the signers. -/
theorem signAll_eq (suite : Suite) (d : Deploy) (pairs : List KeyPair) : d.signAll suite pairs =
    { d with approvals := d.approvals ++ pairs.map (Approval.create suite d.hash.digest) } := by
  induction pairs generalizing d with
  | nil => simp [signAll]
  | cons pair pairs ih =>
    calc
      d.signAll suite (pair :: pairs) = (d.sign suite pair).signAll suite pairs := rfl
      _ = _ := by simp [ih, sign]

/-- Signing changes neither hash of a deploy. -/
theorem HashesMatch.signAll (h : HashesMatch suite d) (pairs : List KeyPair) :
    HashesMatch suite (d.signAll suite pairs) := by
  rw [signAll_eq]
  exact ⟨h.body, h.header⟩

/-- Sealing computes both hashes as verification does. -/
theorem hashesMatch_of_sealed {account : PublicKey} {timestamp : Timestamp} {ttl : Duration}
    {gasPrice : UInt64} {dependencies : List DeployHash} {chainName : String}
    {payment session : ExecutableItem} (h : sealed suite account timestamp ttl gasPrice dependencies
      chainName payment session = .ok d) : HashesMatch suite d ∧ d.approvals = [] := by
  obtain ⟨-, hhashes⟩ := bind_unit_eq_ok.1 h
  obtain ⟨bodyHash, hbody, hnext⟩ := bind_eq_ok.1 hhashes
  obtain ⟨hash, hheader, hd⟩ := bind_eq_ok.1 hnext
  obtain rfl := pure_eq_ok.1 hd
  exact ⟨⟨mapError_eq_ok.1 hbody, mapError_eq_ok.1 hheader⟩, rfl⟩

/-- A deploy whose hashes match verifies after signing, unless nobody signed. -/
theorem verify_signAll {pairs : List KeyPair} (h : HashesMatch suite d) (hnone : d.approvals = [])
    (hpairs : ∀ pair ∈ pairs,
      (Approval.create suite d.hash.digest pair).IsValid suite d.hash.digest) :
    verify suite (d.signAll suite pairs) =
      if pairs.isEmpty then .error .noApprovals else .ok () := by
  rw [hashesMatch_iff.1 (h.signAll pairs), signAll_eq, hnone, List.nil_append]
  exact Approval.verifyAll_map_create hpairs

end Deploy

/-! ## Transactions -/

namespace Transaction

variable {suite : Suite} {t : Transaction}

/-- One pair after the other signs. -/
def signAll (suite : Suite) (t : Transaction) (pairs : List KeyPair) : Transaction :=
  pairs.foldl (sign suite) t

theorem signAll_eq (suite : Suite) (t : Transaction) (pairs : List KeyPair) :
    t.signAll suite pairs =
      { t with approvals := t.approvals ++ pairs.map (Approval.create suite t.hash.digest) } := by
  induction pairs generalizing t with
  | nil => simp [signAll]
  | cons pair pairs ih =>
    calc
      t.signAll suite (pair :: pairs) = (t.sign suite pair).signAll suite pairs := rfl
      _ = _ := by simp [ih, sign]

/-- Signing does not change the hash of a transaction. -/
theorem HashMatches.signAll (h : HashMatches suite t) (pairs : List KeyPair) :
    HashMatches suite (t.signAll suite pairs) := by
  rw [signAll_eq]
  exact h

/-- What is sealed has the hash of its payload, and no approvals yet. -/
theorem hashMatches_of_sealed {payload : Payload} (h : sealed suite payload = .ok t) :
    HashMatches suite t ∧ t.approvals = [] := by
  obtain ⟨-, hash, hpayload, rfl⟩ := sealed_eq_ok.1 h
  exact ⟨hpayload, rfl⟩

/-- A transaction whose hash matches verifies after signing, unless nobody signed. -/
theorem verify_signAll {pairs : List KeyPair} (h : HashMatches suite t) (hnone : t.approvals = [])
    (hpairs : ∀ pair ∈ pairs,
      (Approval.create suite t.hash.digest pair).IsValid suite t.hash.digest) :
    verify suite (t.signAll suite pairs) =
      if pairs.isEmpty then .error .noApprovals else .ok () := by
  rw [hashMatches_iff.1 (h.signAll pairs), signAll_eq, hnone, List.nil_append]
  exact Approval.verifyAll_map_create hpairs

end Transaction

/-! ## Documents -/

/-- Whoever signs a sealed document, each signature adds one approval and nothing else changes,
and the document is verified from the first signature on. -/
theorem verify_sealed_signAll (hash : Bytes → Digest)
    (check : PublicKey → Bytes → Signature → Except CryptoError Unit) (pairs : List KeyPair) :
    (∀ account timestamp ttl gasPrice dependencies chainName payment session d,
      Deploy.sealed (.ofPrimitives hash check) account timestamp ttl gasPrice dependencies chainName
        payment session = .ok d →
      (∀ pair ∈ pairs, pair.IsHonored check d.hash.digest.toList) →
      d.signAll (.ofPrimitives hash check) pairs = { d with
        approvals := pairs.map (Approval.create (.ofPrimitives hash check) d.hash.digest) } ∧
      (d.signAll (.ofPrimitives hash check) pairs).verify (.ofPrimitives hash check) =
        if pairs.isEmpty then .error .noApprovals else .ok ()) ∧
    ∀ payload t, Transaction.sealed (.ofPrimitives hash check) payload = .ok t →
      (∀ pair ∈ pairs, pair.IsHonored check t.hash.digest.toList) →
      t.signAll (.ofPrimitives hash check) pairs = { t with
        approvals := pairs.map (Approval.create (.ofPrimitives hash check) t.hash.digest) } ∧
      (t.signAll (.ofPrimitives hash check) pairs).verify (.ofPrimitives hash check) =
        if pairs.isEmpty then .error .noApprovals else .ok () := by
  constructor
  · intro account timestamp ttl gasPrice dependencies chainName payment session d hd hpairs
    obtain ⟨hhashes, hnone⟩ := Deploy.hashesMatch_of_sealed hd
    refine ⟨by rw [Deploy.signAll_eq, hnone, List.nil_append], ?_⟩
    exact Deploy.verify_signAll hhashes hnone fun pair hpair ↦
      Approval.isValid_create (hpairs pair hpair)
  · intro payload t ht hpairs
    obtain ⟨hhash, hnone⟩ := Transaction.hashMatches_of_sealed ht
    refine ⟨by rw [Transaction.signAll_eq, hnone, List.nil_append], ?_⟩
    exact Transaction.verify_signAll hhash hnone fun pair hpair ↦
      Approval.isValid_create (hpairs pair hpair)

/-- The approved deploy as it is sealed. -/
def Deploy.unsigned : Deploy := { approved with approvals := [] }

/-- The approved transaction as it is sealed. -/
def Transaction.unsigned : Transaction := { approved with approvals := [] }

/-- A key pair that signs the same hash more than once. -/
def KeyPair.notary : KeyPair := ⟨.ed25519, .fit 32 [9]⟩

/-- A deploy and a transaction that one pair signed two times: both approvals stay, and both
documents verify. -/
theorem verify_signed_twice :
    Deploy.sealed Suite.constant (.ed25519 (.fit 32 [1])) ⟨0⟩ ⟨1800000⟩ 1 [⟨⟨.zero 32⟩⟩] "casper"
        Deploy.approved.payment Deploy.approved.session = .ok .unsigned ∧
      (Deploy.unsigned.signAll Suite.constant [.notary, .notary]).verify Suite.constant = .ok () ∧
      Transaction.sealed Suite.constant Transaction.approved.payload = .ok .unsigned ∧
      (Transaction.unsigned.signAll Suite.constant [.notary, .notary]).verify Suite.constant =
        .ok () := by
  have hnotary : KeyPair.notary.IsHonored Suite.checkOnCurve (Digest.mk (.zero 32)).toList :=
    Wire.eq_ok_of_toOption (by decide +kernel)
  have hpairs : ∀ pair ∈ [KeyPair.notary, .notary],
      pair.IsHonored Suite.checkOnCurve (Digest.mk (.zero 32)).toList := by simpa using hnotary
  have hdeploy : Deploy.sealed Suite.constant (.ed25519 (.fit 32 [1])) ⟨0⟩ ⟨1800000⟩ 1
      [⟨⟨.zero 32⟩⟩] "casper" Deploy.approved.payment Deploy.approved.session = .ok .unsigned := rfl
  have htransaction : Transaction.sealed Suite.constant Transaction.approved.payload =
      .ok .unsigned := Wire.eq_ok_of_toOption (by decide +kernel)
  obtain ⟨hdeploys, htransactions⟩ :=
    verify_sealed_signAll Suite.constant.hash Suite.checkOnCurve [.notary, .notary]
  exact ⟨hdeploy, (hdeploys _ _ _ _ _ _ _ _ _ hdeploy hpairs).2, htransaction,
    (htransactions _ _ htransaction hpairs).2⟩

end ChainClient
