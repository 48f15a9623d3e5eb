import ChainClient.Proofs.Document.Texts
import ChainClient.Proofs.Text.Hex

/-!
# The readers of keys and signatures

A key or a signature is a tag and raw bytes, and it has four readers: of bytes that hold nothing
else, of the front of longer bytes, of hexadecimal digits and of JSON. Each of the first two has its
own way to know how many raw bytes there are. They accept the same bytes all the same, and the
readers of texts accept the spellings of those bytes. For keys this holds under any test of the raw
bytes.
-/

namespace ChainClient

/-- What succeeds with nothing fails with something. -/
theorem Wire.exists_eq_error {ε α : Type} {x : Except ε α} (h : ∀ a, x ≠ .ok a) :
    ∃ e, x = .error e := by
  cases x with
  | error e => exact ⟨e, rfl⟩
  | ok a => exact absurd rfl (h a)

/-! ## Readers that agree -/

/-- The readers and writers of a type whose values stand behind a tag. -/
structure TaggedForms (α : Type) where
  ofTagged : Bytes → Except CryptoError α
  ofText : String → Except CryptoError α
  wire : Wire α
  json : JsonForm α
  tagged : α → Bytes
  text : α → String

namespace TaggedForms

section Agreement

variable {α : Type} (forms : TaggedForms α) (bytes : Bytes) (s : String)

/-- The reader of the front, on bytes that have to be used up. -/
def readAll : Except WireError α :=
  letI := forms.wire
  Wire.readAll bytes

def ofJson? (source : Json.Source) : Option α := forms.json.ofJson? source (.str s)

/-- Every reader finds the value in the bytes or in the text, and its writers give the bytes and
their digits in lower case. -/
structure AllFind (x : α) : Prop where
  ofTagged : forms.ofTagged bytes = .ok x
  readAll : forms.readAll bytes = .ok x
  ofText : forms.ofText s = .ok x
  ofJson : ∀ source, forms.ofJson? s source = some x
  write : forms.wire.write x = .ok bytes
  tagged : forms.tagged x = bytes
  text : forms.text x = Text.Hex.text bytes

/-- No reader takes the bytes or the text. -/
structure AllRefuse : Prop where
  ofTagged : ∃ e, forms.ofTagged bytes = .error e
  readAll : ∃ e, forms.readAll bytes = .error e
  ofText : ∃ e, forms.ofText s = .error e
  ofJson : ∀ source, forms.ofJson? s source = none

/-- All readers find the accepted value that is written as the bytes, or there is no such value and
all of them refuse. -/
def Agree (accepts : α → Prop) : Prop :=
  (∃ x, accepts x ∧ forms.AllFind bytes s x) ∨
    (¬∃ x, accepts x ∧ forms.tagged x = bytes) ∧ forms.AllRefuse bytes s

/-- What makes the readers agree: both readers of bytes accept what is written of an accepted value,
and texts are read as the bytes of their digits. -/
structure IsExact (accepts : α → Prop) : Prop where
  ofTagged_eq_ok : ∀ {bytes x}, forms.ofTagged bytes = .ok x ↔ accepts x ∧ forms.tagged x = bytes
  readAll_eq_ok : ∀ {bytes x}, forms.readAll bytes = .ok x ↔ accepts x ∧ forms.tagged x = bytes
  ofText_eq : ∀ s, forms.ofText s =
    (do forms.ofTagged (← (Text.Hex.decode s.toList).mapError .hex))
  ofJson?_eq : ∀ s source, forms.ofJson? s source = (forms.ofText s).toOption
  write_eq : ∀ x, forms.wire.write x = .ok (forms.tagged x)
  text_eq : ∀ x, forms.text x = Text.Hex.text (forms.tagged x)

variable {forms bytes s} {accepts : α → Prop}

/-- A text is read through the bytes that it spells. -/
theorem IsExact.ofText_of_spells (h : forms.IsExact accepts)
    (hs : Text.Hex.Spells s.toList bytes) : forms.ofText s = forms.ofTagged bytes := by
  rw [h.ofText_eq, Text.Hex.decode_eq_ok_iff.2 hs]
  rfl

/-- Whatever is accepted is found by all readers, from its bytes and from all their spellings. -/
theorem IsExact.allFind (h : forms.IsExact accepts) {x : α} (hx : accepts x)
    (hs : Text.Hex.Spells s.toList (forms.tagged x)) : forms.AllFind (forms.tagged x) s x := by
  have htagged := h.ofTagged_eq_ok.2 ⟨hx, rfl⟩
  have htext := (h.ofText_of_spells hs).trans htagged
  exact {
    ofTagged := htagged
    readAll := h.readAll_eq_ok.2 ⟨hx, rfl⟩
    ofText := htext
    ofJson := fun source ↦ (h.ofJson?_eq s source).trans (congrArg Except.toOption htext)
    write := h.write_eq x
    tagged := rfl
    text := h.text_eq x }

/-- Bytes that are the tagged form of nothing accepted are refused by all readers. -/
theorem IsExact.allRefuse (h : forms.IsExact accepts)
    (hx : ¬∃ x, accepts x ∧ forms.tagged x = bytes) (hs : Text.Hex.Spells s.toList bytes) :
    forms.AllRefuse bytes s := by
  obtain ⟨e, htagged⟩ := Wire.exists_eq_error fun x hread ↦ hx ⟨x, h.ofTagged_eq_ok.1 hread⟩
  have htext := (h.ofText_of_spells hs).trans htagged
  exact {
    ofTagged := ⟨e, htagged⟩
    readAll := Wire.exists_eq_error fun x hread ↦ hx ⟨x, h.readAll_eq_ok.1 hread⟩
    ofText := ⟨e, htext⟩
    ofJson := fun source ↦ (h.ofJson?_eq s source).trans (congrArg Except.toOption htext) }

/-- Agreement is decided by the bytes alone, so it holds of all their spellings. -/
theorem IsExact.agree (h : forms.IsExact accepts) (hs : Text.Hex.Spells s.toList bytes) :
    forms.Agree bytes s accepts := by
  by_cases hx : ∃ x, accepts x ∧ forms.tagged x = bytes
  · obtain ⟨x, haccepts, rfl⟩ := hx
    exact .inl ⟨x, haccepts, h.allFind haccepts hs⟩
  · exact .inr ⟨hx, h.allRefuse hx hs⟩

end Agreement

end TaggedForms

/-- An algorithm has one tag, and no other tag is read. -/
theorem Algorithm.ofTag_eq_ok {tag : UInt8} {algorithm : Algorithm} :
    ofTag tag = .ok algorithm ↔ tag = algorithm.tag := by
  constructor
  · intro h
    unfold ofTag at h
    split at h
    case h_1 found hfound =>
      obtain rfl := Except.ok.inj h
      exact (tag_of_ofTag? hfound).symm
    case h_2 => cases h
  · rintro rfl
    exact ofTag_tag algorithm

/-! ## Keys -/

namespace PublicKey

/-- The forms of keys under a test of the raw bytes. -/
def formsWith (valid : Validity) : TaggedForms PublicKey where
  ofTagged := ofTaggedWith valid
  ofText := ofTextWith valid
  wire := { write := Wire.write, read := readWith valid, width := Wire.width }
  json := .ofText text fun s ↦ (ofTextWith valid s).toOption
  tagged := tagged
  text := text

/-- The test of the network gives the forms that documents use. -/
theorem formsWith_onCurve : formsWith onCurve =
    { ofTagged, ofText, wire := inferInstance, json := inferInstance, tagged, text } := rfl

/-- The reader of tagged bytes takes those of a valid key and no others. -/
theorem ofTaggedWith_eq_ok {valid : Validity} {bytes : Bytes} {key : PublicKey} :
    ofTaggedWith valid bytes = .ok key ↔ key.isValid valid = true ∧ key.tagged = bytes := by
  constructor
  · intro h
    cases bytes with
    | nil => cases h
    | cons tag raw =>
      obtain ⟨algorithm, htag, hraw⟩ := Wire.bind_eq_ok.1 h
      obtain rfl := Algorithm.ofTag_eq_ok.1 htag
      obtain ⟨rfl, rfl, hvalid⟩ := ofRawWith_eq_ok.1 hraw
      exact ⟨hvalid, rfl⟩
  · rintro ⟨hvalid, rfl⟩
    exact Wire.bind_of_eq_ok (Algorithm.ofTag_tag key.algorithm)
      (ofRawWith_eq_ok.2 ⟨rfl, rfl, hvalid⟩)

/-- The four readers of keys are one reader of tagged bytes, whatever makes a key valid. -/
theorem isExact_formsWith (valid : Validity) :
    (formsWith valid).IsExact (·.isValid valid = true) where
  ofTagged_eq_ok := ofTaggedWith_eq_ok
  readAll_eq_ok {bytes x} := by
    have hread : (formsWith valid).readAll bytes = .ok x ↔ readWith valid bytes = .ok (x, []) :=
      @Wire.readAll_eq_ok _ (formsWith valid).wire _ _
    rw [hread, readWith_eq_ok, List.append_nil, eq_comm (a := bytes)]
    rfl
  ofText_eq _ := rfl
  ofJson?_eq _ _ := rfl
  write_eq _ := rfl
  text_eq _ := rfl

end PublicKey

/-! ## Signatures -/

namespace Signature

def forms : TaggedForms Signature where
  ofTagged := ofTagged
  ofText := ofText
  wire := inferInstance
  json := inferInstance
  tagged := tagged
  text := text

/-- The reader of tagged bytes takes those of a signature and no others. -/
theorem ofTagged_eq_ok {bytes : Bytes} {signature : Signature} :
    ofTagged bytes = .ok signature ↔ signature.tagged = bytes := by
  constructor
  · intro h
    cases bytes with
    | nil => cases h
    | cons tag raw =>
      obtain ⟨algorithm, htag, hraw⟩ := Wire.bind_eq_ok.1 h
      obtain rfl := Algorithm.ofTag_eq_ok.1 htag
      unfold ofRaw at hraw
      split at hraw
      case h_1 octets hoctets =>
        obtain rfl := Except.ok.inj hraw
        obtain rfl := Octets.ofList?_eq_some_iff.1 hoctets
        rfl
      case h_2 => cases hraw
  · rintro rfl
    refine Wire.bind_of_eq_ok (Algorithm.ofTag_tag signature.algorithm) ?_
    rw [ofRaw, Octets.ofList?_toList]

/-- Signatures have no further condition, so every one of them is found. -/
theorem isExact_forms : forms.IsExact fun _ ↦ True where
  ofTagged_eq_ok := ofTagged_eq_ok.trans (iff_of_eq (true_and _)).symm
  readAll_eq_ok {bytes x} := by
    have hread : (Wire.readAll bytes : Except WireError Signature) = .ok x ↔
        (Wire.write x : Except WireError Bytes) = .ok bytes :=
      ⟨Wire.write_of_readAll, (Wire.Lossless.readable x).readAll_eq⟩
    rw [true_and]
    exact hread.trans ⟨Except.ok.inj, congrArg Except.ok⟩
  ofText_eq _ := rfl
  ofJson?_eq _ _ := rfl
  write_eq _ := rfl
  text_eq _ := rfl

end Signature

/-! ## The result -/

/-- The readers of keys agree on any bytes and any spelling of them, whatever test the raw bytes
have to pass, and so do the readers of signatures. -/
theorem readers_agree {bytes : Bytes} {s : String} (h : Text.Hex.Spells s.toList bytes) :
    (∀ valid, (PublicKey.formsWith valid).Agree bytes s (·.isValid valid = true)) ∧
      Signature.forms.Agree bytes s fun _ ↦ True :=
  ⟨fun valid ↦ (PublicKey.isExact_formsWith valid).agree h, Signature.isExact_forms.agree h⟩

/-- The tag of an Ed25519 key and 32 bytes, spelled in both cases: a key if all bytes are valid, and
no signature. -/
theorem readers_agree_bothCases :
    let bytes : Bytes := 1 :: List.replicate 32 0xab
    let s := "01aBaBaBaBaBaBaBaBaBaBaBaBaBaBaBaBaBaBaBaBaBaBaBaBaBaBaBaBaBaBaBaB"
    Text.Hex.Spells s.toList bytes ∧
      (∃ key, (PublicKey.formsWith fun _ _ ↦ true).AllFind bytes s key) ∧
        Signature.forms.AllRefuse bytes s := by
  intro bytes s
  have hs : Text.Hex.Spells s.toList bytes := by
    unfold Text.Hex.Spells
    decide +kernel
  obtain ⟨hkeys, hsignatures⟩ := readers_agree hs
  refine ⟨hs, ?_, ?_⟩
  · obtain ⟨key, -, hfind⟩ | ⟨hnone, -⟩ := hkeys fun _ _ ↦ true
    · exact ⟨key, hfind⟩
    · exact absurd ⟨.ed25519 ⟨List.replicate 32 0xab, rfl⟩, rfl, rfl⟩ hnone
  · obtain ⟨signature, -, hfind⟩ | ⟨-, hrefuse⟩ := hsignatures
    · have hlength := congrArg List.length hfind.tagged
      exact nomatch signature.raw.length_toList.symm.trans (Nat.succ.inj hlength)
    · exact hrefuse

end ChainClient
