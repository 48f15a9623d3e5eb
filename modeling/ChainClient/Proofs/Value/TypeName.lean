import ChainClient.Proofs.Text.Digits
import ChainClient.Proofs.Value.Descriptor
import ChainClient.Value.ClType.Name

/-!
# Names of types

The canonical name of a type is a sequence of words and signs. A text names the type if it is
this sequence with any white space before, between and behind its parts, where the size of a byte
array may have zeros in front. The reader accepts exactly the texts that name a type within the
limit on nesting. It takes the longest word that it finds; this loses nothing, because no two words
of a name stand side by side.
-/

namespace ChainClient

/-- What the reader takes as one word. -/
structure Text.IsWord (cs : List Char) : Prop where
  ne_nil : cs ≠ []
  isAlphanum : ∀ c ∈ cs, c.isAlphanum = true

instance (cs : List Char) : Decidable (Text.IsWord cs) :=
  decidable_of_iff (cs ≠ [] ∧ cs.all Char.isAlphanum = true)
    ⟨fun h ↦ ⟨h.1, List.all_eq_true.1 h.2⟩, fun h ↦ ⟨h.ne_nil, List.all_eq_true.2 h.isAlphanum⟩⟩

namespace ClLeaf

theorem name_of_ofName? {name : String} {l : ClLeaf} (h : ofName? name = some l) :
    l.name = name :=
  eq_of_beq (List.find?_some (p := fun leaf : ClLeaf ↦ leaf.name == name) h)

theorem isWord_name (l : ClLeaf) : Text.IsWord l.name.toList := by
  cases l <;> decide

end ClLeaf

namespace ClType

open Text (Stops)

/-! ## Tokens -/

/-- What a type name is made of: words, sizes and signs. -/
inductive Token where
  | word (letters : String)
  | size (n : UInt32)
  | sign (c : Char)
  deriving DecidableEq, Repr

namespace Token

/-- How the token stands in the canonical name; a space follows each comma. -/
def display : Token → List Char
  | .word letters => letters.toList
  | .size n => Text.Decimal.ofNat n.toNat
  | .sign c => if c = ',' then [',', ' '] else [c]

/-- What is read as the token. -/
inductive IsSpelledBy : Token → List Char → Prop
  | word (letters : String) : IsSpelledBy (.word letters) letters.toList
  | size (zeros : Nat) (n : UInt32) :
    IsSpelledBy (.size n) (List.replicate zeros '0' ++ Text.Decimal.ofNat n.toNat)
  | sign (c : Char) : IsSpelledBy (.sign c) [c]

/-- A word with its parts between parentheses. -/
def enclosed (name : String) (inner : List Token) : List Token :=
  .word name :: .sign '(' :: (inner ++ [.sign ')'])

end Token

open Token (enclosed)

/-- The tokens of the canonical name. -/
def tokens : ClType → List Token
  | .leaf l => [.word l.name]
  | .option t => enclosed "Option" t.tokens
  | .list t => enclosed "List" t.tokens
  | .byteArray n => enclosed "ByteArray" [.size n]
  | .result a b => enclosed "Result" (a.tokens ++ .sign ',' :: b.tokens)
  | .map a b => enclosed "Map" (a.tokens ++ .sign ',' :: b.tokens)
  | .tuple1 t => enclosed "Tuple1" t.tokens
  | .tuple2 a b => enclosed "Tuple2" (a.tokens ++ .sign ',' :: b.tokens)
  | .tuple3 a b c =>
    enclosed "Tuple3" (a.tokens ++ .sign ',' :: b.tokens ++ .sign ',' :: c.tokens)

theorem Token.display_comma : display (.sign ',') = [',', ' '] := rfl

theorem Token.flatMap_display_enclosed (name : String) (inner : List Token) :
    (enclosed name inner).flatMap display =
      name.toList ++ ['('] ++ inner.flatMap display ++ [')'] := by
  simp [enclosed, display]

/-- The name of a type is its tokens as they are displayed. -/
theorem chars_eq_flatMap_display (t : ClType) : t.chars = t.tokens.flatMap Token.display := by
  induction t with
  | leaf l =>
    rw [tokens, List.flatMap_singleton]
    rfl
  | byteArray n =>
    rw [tokens, Token.flatMap_display_enclosed, List.flatMap_singleton]
    rfl
  | option a ih | list a ih | tuple1 a ih =>
    rw [tokens, Token.flatMap_display_enclosed, ← ih]
    rfl
  | result a b iha ihb | map a b iha ihb | tuple2 a b iha ihb =>
    rw [tokens, Token.flatMap_display_enclosed, List.flatMap_append, List.flatMap_cons, ← iha,
      ← ihb, Token.display_comma, ← List.append_assoc, ← List.append_assoc]
    rfl
  | tuple3 a b c iha ihb ihc =>
    rw [tokens, Token.flatMap_display_enclosed, List.flatMap_append, List.flatMap_append,
      List.flatMap_cons, List.flatMap_cons, ← iha, ← ihb, ← ihc, Token.display_comma,
      ← List.append_assoc, ← List.append_assoc, ← List.append_assoc, ← List.append_assoc]
    rfl

/-- White space and nothing else. -/
def IsBlank (cs : List Char) : Prop := ∀ c ∈ cs, Text.isBlank c = true

instance (cs : List Char) : Decidable (IsBlank cs) :=
  List.decidableBAll (fun c ↦ Text.isBlank c = true) cs

/-- The text is made of the tokens, each behind any white space. -/
inductive IsMadeOf : List Token → List Char → Prop
  | nil : IsMadeOf [] []
  | cons {token : Token} {tokens : List Token} {blanks text rest : List Char}
    (hblanks : IsBlank blanks) (htext : token.IsSpelledBy text) (hrest : IsMadeOf tokens rest) :
    IsMadeOf (token :: tokens) (blanks ++ (text ++ rest))

/-- The text is the canonical name of the type up to white space and zeros before a size. -/
def IsNamedBy (t : ClType) (s : String) : Prop :=
  ∃ front blanks, s.toList = front ++ blanks ∧ IsMadeOf t.tokens front ∧ IsBlank blanks

section MadeOf

variable {first second : List Token} {blanks cs text rest : List Char} {c : Char}

theorem isBlank_nil : IsBlank [] := fun _ h ↦ nomatch h

theorem stops_of_isBlank (hblanks : IsBlank blanks) (hc : c.isAlphanum = false) :
    Stops Char.isAlphanum (blanks ++ c :: rest) := by
  cases blanks with
  | nil => exact Text.stops_cons hc
  | cons b blanks =>
    exact Text.stops_cons (Text.isAlphanum_of_isBlank (hblanks b List.mem_cons_self))

theorem IsMadeOf.append (hfirst : IsMadeOf first text) (hsecond : IsMadeOf second rest) :
    IsMadeOf (first ++ second) (text ++ rest) := by
  induction hfirst with
  | nil => exact hsecond
  | cons hblanks htext _ ih =>
    rw [List.append_assoc, List.append_assoc]
    exact .cons hblanks htext ih

/-- A text made of two runs of tokens splits between them. -/
theorem IsMadeOf.exists_of_append (h : IsMadeOf (first ++ second) cs) :
    ∃ text rest, cs = text ++ rest ∧ IsMadeOf first text ∧ IsMadeOf second rest := by
  induction first generalizing cs with
  | nil => exact ⟨[], cs, rfl, .nil, h⟩
  | cons token first ih =>
    cases h with
    | @cons _ _ blanks text rest hblanks htext hrest =>
      obtain ⟨front, rest, rfl, hfront, hsecond⟩ := ih hrest
      exact ⟨blanks ++ (text ++ front), rest, by simp, .cons hblanks htext hfront, hsecond⟩

theorem IsMadeOf.sign (hblanks : IsBlank blanks) (h : IsMadeOf second rest) :
    IsMadeOf (.sign c :: second) (blanks ++ c :: rest) :=
  .cons hblanks (.sign c) h

theorem IsMadeOf.exists_of_sign (h : IsMadeOf (.sign c :: second) cs) :
    ∃ blanks rest, cs = blanks ++ c :: rest ∧ IsBlank blanks ∧ IsMadeOf second rest := by
  cases h with
  | @cons _ _ blanks text rest hblanks htext hrest =>
    cases htext
    exact ⟨blanks, rest, rfl, hblanks, hrest⟩

/-- The parts of an enclosed sequence, up to the sign that closes it. -/
theorem isMadeOf_enclosed {name : String} {inner : List Token} :
    IsMadeOf (enclosed name inner) cs ↔ ∃ before blanks content after,
      cs = before ++ (name.toList ++ (blanks ++ '(' :: (content ++ (after ++ [')'])))) ∧
      IsBlank before ∧ IsBlank blanks ∧ IsBlank after ∧ IsMadeOf inner content := by
  constructor
  · intro h
    cases h with
    | @cons _ _ before text rest hbefore htext hrest =>
      cases htext
      obtain ⟨blanks, rest, rfl, hblanks, hinner⟩ := hrest.exists_of_sign
      obtain ⟨content, closing, rfl, hcontent, hclosing⟩ := hinner.exists_of_append
      obtain ⟨after, rest, rfl, hafter, hrest⟩ := hclosing.exists_of_sign
      cases hrest
      exact ⟨before, blanks, content, after, rfl, hbefore, hblanks, hafter, hcontent⟩
  · rintro ⟨before, blanks, content, after, rfl, hbefore, hblanks, hafter, hcontent⟩
    apply IsMadeOf.cons hbefore (.word name)
    apply IsMadeOf.sign hblanks
    exact hcontent.append (.sign hafter .nil)

/-- What is displayed is made of the tokens, up to a space behind the last one. -/
theorem exists_isMadeOf_display (tokens : List Token) (hblanks : IsBlank blanks) :
    ∃ front after, blanks ++ tokens.flatMap Token.display = front ++ after ∧
      IsMadeOf tokens front ∧ IsBlank after := by
  induction tokens generalizing blanks with
  | nil => exact ⟨[], blanks, by simp, .nil, hblanks⟩
  | cons token tokens ih =>
    obtain ⟨text, space, hdisplay, htext, hspace⟩ : ∃ text space,
        token.display = text ++ space ∧ token.IsSpelledBy text ∧ IsBlank space := by
      cases token with
      | word letters => exact ⟨letters.toList, [], by simp [Token.display], .word _, isBlank_nil⟩
      | size n => exact ⟨_, [], by simp [Token.display], .size 0 n, isBlank_nil⟩
      | sign c =>
        by_cases hc : c = ','
        · exact ⟨[c], [' '], by simp [Token.display, hc], .sign c, by decide⟩
        · exact ⟨[c], [], by simp [Token.display, hc], .sign c, isBlank_nil⟩
    obtain ⟨front, after, happend, hfront, hafter⟩ := ih hspace
    refine ⟨blanks ++ (text ++ front), after, ?_, .cons hblanks htext hfront, hafter⟩
    simp [hdisplay, happend]

end MadeOf

theorem Token.IsSpelledBy.isWord_of_size {n : UInt32} {text : List Char}
    (h : (Token.size n).IsSpelledBy text) : Text.IsWord text := by
  cases h with
  | size zeros =>
    refine ⟨by simp [Text.Decimal.ofNat_ne_nil], fun c hc ↦ Text.isAlphanum_of_isDigit ?_⟩
    rcases List.mem_append.1 hc with hzero | hdigit
    · rw [List.eq_of_mem_replicate hzero]
      rfl
    · exact Text.Decimal.isDigit_of_mem_ofNat hdigit

theorem isNamedBy_name (t : ClType) : t.IsNamedBy t.name := by
  obtain ⟨front, after, happend, hfront, hafter⟩ := exists_isMadeOf_display t.tokens isBlank_nil
  refine ⟨front, after, ?_, hfront, hafter⟩
  rw [name, String.toList_ofList, chars_eq_flatMap_display]
  exact happend

/-! ## What the parts of the reader accept -/

namespace Name

variable {c : Char} {cs letters rest : List Char} {blanks : List Char} {n : UInt32}

theorem exists_blanks (cs : List Char) :
    ∃ blanks, IsBlank blanks ∧ cs = blanks ++ Text.skipBlank cs :=
  ⟨cs.takeWhile Text.isBlank, fun _ hc ↦ List.all_eq_true.1 List.all_takeWhile _ hc,
    List.takeWhile_append_dropWhile.symm⟩

theorem skipBlank_append (hblanks : IsBlank blanks) (hc : Text.isBlank c = false) :
    Text.skipBlank (blanks ++ c :: rest) = c :: rest :=
  Text.dropWhile_run hblanks (Text.stops_cons hc)

theorem exists_blanks_of_word (h : word cs = (letters, rest)) :
    (∃ blanks, IsBlank blanks ∧ cs = blanks ++ (letters ++ rest)) ∧
      ∀ c ∈ letters, c.isAlphanum = true := by
  obtain ⟨rfl, rfl⟩ := Prod.mk.inj h
  obtain ⟨blanks, hblanks, hcs⟩ := exists_blanks cs
  refine ⟨⟨blanks, hblanks, ?_⟩, fun c hc ↦ List.all_eq_true.1 List.all_takeWhile c hc⟩
  rw [List.takeWhile_append_dropWhile]
  exact hcs

/-- The letters after blanks are taken as far as they go. -/
theorem word_append (hblanks : IsBlank blanks) (hletters : Text.IsWord letters)
    (hrest : Stops Char.isAlphanum rest) :
    word (blanks ++ (letters ++ rest)) = (letters, rest) := by
  obtain ⟨hne, hletters⟩ := hletters
  obtain ⟨c, others, rfl⟩ := List.exists_cons_of_ne_nil hne
  have hc : Text.isBlank c = false := by
    rw [← Bool.not_eq_true]
    intro hblank
    have hword := hletters c List.mem_cons_self
    rw [Text.isAlphanum_of_isBlank hblank] at hword
    cases hword
  have hskip : Text.skipBlank (blanks ++ (c :: others ++ rest)) = c :: others ++ rest :=
    skipBlank_append hblanks hc
  unfold word
  rw [hskip]
  exact Prod.ext (Text.takeWhile_run hletters hrest) (Text.dropWhile_run hletters hrest)

/-- A name is read up to the sign behind it. -/
theorem word_before_sign {before : List Char} {name : String} (hbefore : IsBlank before)
    (hblanks : IsBlank blanks) (hc : c.isAlphanum = false)
    (hname : Text.IsWord name.toList) :
    word (before ++ (name.toList ++ (blanks ++ c :: rest))) = (name.toList, blanks ++ c :: rest) :=
  word_append hbefore hname (stops_of_isBlank hblanks hc)

theorem sign?_append {sign : Char} (hblanks : IsBlank blanks) (hc : Text.isBlank c = false) :
    sign? sign (blanks ++ c :: rest) = if c = sign then some rest else none := by
  unfold sign?
  rw [skipBlank_append hblanks hc]

theorem exists_blanks_of_sign? {sign : Char} (h : sign? sign cs = some rest) :
    ∃ blanks, IsBlank blanks ∧ cs = blanks ++ sign :: rest := by
  obtain ⟨blanks, hblanks, hcs⟩ := exists_blanks cs
  refine ⟨blanks, hblanks, ?_⟩
  rw [hcs]
  unfold sign? at h
  split at h
  case h_1 c rest' hskip =>
    split at h
    case isTrue hc =>
      obtain rfl := Option.some.inj h
      rw [hskip, hc]
    case isFalse => cases h
  case h_2 => cases h

theorem expect_eq_ok {sign : Char} :
    expect sign cs = .ok rest ↔ sign? sign cs = some rest := by
  unfold expect
  cases sign? sign cs <;> simp

theorem expect_append {sign : Char} (hblanks : IsBlank blanks) (hsign : Text.isBlank sign = false) :
    expect sign (blanks ++ sign :: rest) = .ok rest := by
  rw [expect_eq_ok, sign?_append hblanks hsign, if_pos rfl]

/-- A word is no numeral with a plus sign in front. -/
theorem natural?_eq_numeral? (h : ∀ c ∈ cs, c.isAlphanum = true) :
    Text.Decimal.natural? 10 cs = Text.Decimal.numeral? 10 cs := by
  unfold Text.Decimal.natural?
  split
  case h_1 cs => exact absurd (h '+' List.mem_cons_self) (by decide)
  case h_2 => rfl

/-- A size is decimal digits of a 32-bit number; leading zeros are accepted. -/
theorem size?_eq_some_iff (h : ∀ c ∈ cs, c.isAlphanum = true) :
    size? cs = some n ↔ (Token.size n).IsSpelledBy cs := by
  unfold size?
  rw [natural?_eq_numeral? h]
  constructor
  · intro hsize
    obtain ⟨m, hm, hn⟩ := Option.bind_eq_some_iff.1 hsize
    split at hn
    case isFalse => cases hn
    case isTrue hlt =>
      obtain rfl := Option.some.inj hn
      obtain ⟨zeros, rfl⟩ := Text.Decimal.numeral?_eq_some_iff.1 hm
      have htoNat : (UInt32.ofNat m).toNat = m := UInt32.toNat_ofNat_of_lt' hlt
      have hspelled := Token.IsSpelledBy.size zeros (UInt32.ofNat m)
      rw [htoNat] at hspelled
      exact hspelled
  · intro hspelled
    cases hspelled with
    | size zeros =>
      have hm : Text.Decimal.numeral? 10 (List.replicate zeros '0' ++
          Text.Decimal.ofNat n.toNat) = some n.toNat :=
        Text.Decimal.numeral?_eq_some_iff.2 ⟨zeros, rfl⟩
      rw [hm, Option.bind_eq_bind, Option.bind_some, if_pos n.toNat_lt]
      exact congrArg some (UInt32.ofNat_toNat)

/-! ## Composites -/

/-- What the composite of that name over those parts is. -/
inductive Composes : String → ClType → List ClType → ClType → Prop
  | option (a : ClType) : Composes "Option" a [] (.option a)
  | list (a : ClType) : Composes "List" a [] (.list a)
  | tuple1 (a : ClType) : Composes "Tuple1" a [] (.tuple1 a)
  | result (a b : ClType) : Composes "Result" a [b] (.result a b)
  | map (a b : ClType) : Composes "Map" a [b] (.map a b)
  | tuple2 (a b : ClType) : Composes "Tuple2" a [b] (.tuple2 a b)
  | tuple3 (a b c : ClType) : Composes "Tuple3" a [b, c] (.tuple3 a b c)

/-- The tokens of the parts behind the first one. -/
def moreTokens (others : List ClType) : List Token :=
  others.flatMap fun part ↦ .sign ',' :: part.tokens

section Composes

variable {name : String} {first t : ClType} {others : List ClType}

/-- A word and its parts give a type if the word takes that many parts. -/
theorem composite?_eq_some_iff :
    composite? name (first :: others) = some t ↔ Composes name first others t := by
  constructor
  · intro h
    unfold composite? at h
    grind [Composes]
  · intro h
    cases h <;> rfl

/-- A type is a leaf, an array of bytes or a composite of its parts. -/
theorem exists_composes (t : ClType) : (∃ l, t = .leaf l) ∨ (∃ n, t = .byteArray n) ∨
    ∃ name first others, Composes name first others t := by
  cases t with
  | leaf l => exact .inl ⟨l, rfl⟩
  | byteArray n => exact .inr (.inl ⟨n, rfl⟩)
  | option a => exact .inr (.inr ⟨_, _, _, .option a⟩)
  | list a => exact .inr (.inr ⟨_, _, _, .list a⟩)
  | result a b => exact .inr (.inr ⟨_, _, _, .result a b⟩)
  | map a b => exact .inr (.inr ⟨_, _, _, .map a b⟩)
  | tuple1 a => exact .inr (.inr ⟨_, _, _, .tuple1 a⟩)
  | tuple2 a b => exact .inr (.inr ⟨_, _, _, .tuple2 a b⟩)
  | tuple3 a b c => exact .inr (.inr ⟨_, _, _, .tuple3 a b c⟩)

/-- The name is a word. -/
theorem Composes.isWord (h : Composes name first others t) : Text.IsWord name.toList := by
  cases h <;> decide

/-- The name is not that of another kind of type. -/
theorem Composes.ofName?_eq_none (h : Composes name first others t) :
    ClLeaf.ofName? name = none ∧ name ≠ "ByteArray" := by
  cases h <;> decide

theorem Composes.tokens_eq (h : Composes name first others t) :
    t.tokens = enclosed name (first.tokens ++ moreTokens others) := by
  cases h <;> simp [tokens, moreTokens]

/-- The parts of a composite have one level less than the whole. -/
theorem Composes.nesting_le_iff {levels : Nat} (h : Composes name first others t) :
    t.nesting ≤ levels + 1 ↔ ∀ part ∈ first :: others, part.nesting ≤ levels := by
  cases h <;> grind [nesting]

end Composes

/-! ## One step of the reader -/

/-- A name of each kind, by what is found at its word and between its parentheses. -/
inductive Reads (levels : Nat) (cs rest : List Char) : ClType → Prop
  | leaf {letters : List Char} {l : ClLeaf} (hword : word cs = (letters, rest))
    (hname : ClLeaf.ofName? (String.ofList letters) = some l) : Reads levels cs rest (.leaf l)
  | byteArray {letters behind inside digits after : List Char} {n : UInt32}
    (hword : word cs = (letters, behind)) (hname : String.ofList letters = "ByteArray")
    (hopen : expect '(' behind = .ok inside) (hdigits : word inside = (digits, after))
    (hsize : size? digits = some n) (hclose : expect ')' after = .ok rest) :
    Reads levels cs rest (.byteArray n)
  | composite {letters behind inside middle after : List Char} {first t : ClType}
    {others : List ClType} (hword : word cs = (letters, behind))
    (hopen : expect '(' behind = .ok inside) (hfirst : read levels inside = .ok (first, middle))
    (hothers : moreParts (read levels) middle.length middle = .ok (others, after))
    (hcomposes : Composes (String.ofList letters) first others t)
    (hclose : expect ')' after = .ok rest) : Reads levels cs rest t

/-- One level of the reader, said as a relation. -/
theorem read_succ_eq_ok {levels : Nat} {t : ClType} :
    read (levels + 1) cs = .ok (t, rest) ↔ Reads levels cs rest t := by
  constructor
  · intro h
    rw [read] at h
    obtain ⟨letters, behind, hword⟩ : ∃ letters behind, word cs = (letters, behind) := ⟨_, _, rfl⟩
    simp only [hword] at h
    split at h
    case h_1 l hname =>
      obtain ⟨rfl, rfl⟩ := Prod.mk.inj (Except.ok.inj h)
      exact .leaf hword hname
    case h_2 =>
      obtain ⟨inside, hopen, h⟩ := Wire.bind_eq_ok.1 h
      split at h
      case isTrue hname =>
        split at h
        case h_1 => cases h
        case h_2 n hsize =>
          obtain ⟨rest', hclose, h⟩ := Wire.bind_eq_ok.1 h
          obtain ⟨rfl, rfl⟩ := Prod.mk.inj (Wire.pure_eq_ok.1 h)
          exact .byteArray hword hname hopen rfl hsize hclose
      case isFalse =>
        obtain ⟨⟨first, middle⟩, hfirst, h⟩ := Wire.bind_eq_ok.1 h
        obtain ⟨⟨others, after⟩, hothers, h⟩ := Wire.bind_eq_ok.1 h
        split at h
        case h_1 => cases h
        case h_2 t' hcomposite =>
          obtain ⟨rest', hclose, h⟩ := Wire.bind_eq_ok.1 h
          obtain ⟨rfl, rfl⟩ := Prod.mk.inj (Wire.pure_eq_ok.1 h)
          exact .composite hword hopen hfirst hothers (composite?_eq_some_iff.1 hcomposite) hclose
  · intro h
    rw [read]
    cases h with
    | leaf hword hname => simp only [hword, hname]
    | byteArray hword hname hopen hdigits hsize hclose =>
      have hleaf : ClLeaf.ofName? "ByteArray" = none := rfl
      simp only [hword, hname, hleaf, hopen, hdigits, hsize, hclose, if_true, Wire.ok_bind]
      rfl
    | composite hword hopen hfirst hothers hcomposes hclose =>
      obtain ⟨hleaf, hsize⟩ := hcomposes.ofName?_eq_none
      simp only [hword, hleaf, hopen, hsize, hfirst, hothers, composite?_eq_some_iff.2 hcomposes,
        hclose, if_false, Wire.ok_bind]
      rfl

/-! ## Nothing but names is accepted -/

/-- The reader accepts nothing but names of types within its levels. -/
def IsSound (levels : Nat) : Prop :=
  ∀ {cs rest : List Char} {t : ClType}, read levels cs = .ok (t, rest) →
    t.nesting ≤ levels ∧ ∃ front, cs = front ++ rest ∧ IsMadeOf t.tokens front

section Sound

variable {levels fuel : Nat} {t : ClType} {ts : List ClType}

/-- The step of the soundness proof for the parts behind a comma. -/
theorem IsSound.isMadeOf_moreTokens (hsound : IsSound levels)
    (h : moreParts (read levels) fuel cs = .ok (ts, rest)) :
    (∀ t ∈ ts, t.nesting ≤ levels) ∧
      ∃ front, cs = front ++ rest ∧ IsMadeOf (moreTokens ts) front := by
  induction fuel generalizing cs ts with
  | zero =>
    obtain ⟨rfl, rfl⟩ := Prod.mk.inj (Except.ok.inj h)
    exact ⟨List.forall_mem_nil _, [], rfl, IsMadeOf.nil⟩
  | succ fuel ih =>
    rw [moreParts] at h
    cases hsign : sign? ',' cs with
    | none =>
      rw [hsign] at h
      obtain ⟨rfl, rfl⟩ := Prod.mk.inj (Except.ok.inj h)
      exact ⟨List.forall_mem_nil _, [], rfl, IsMadeOf.nil⟩
    | some behind =>
      rw [hsign] at h
      obtain ⟨⟨t, middle⟩, hpart, h⟩ := Wire.bind_eq_ok.1 h
      obtain ⟨⟨ts', rest'⟩, hothers, h⟩ := Wire.bind_eq_ok.1 h
      obtain ⟨rfl, rfl⟩ := Prod.mk.inj (Wire.pure_eq_ok.1 h)
      obtain ⟨blanks, hblanks, rfl⟩ := exists_blanks_of_sign? hsign
      obtain ⟨hlevels, front, rfl, hfront⟩ := hsound hpart
      obtain ⟨hlevels', front', rfl, hfront'⟩ := ih hothers
      refine ⟨List.forall_mem_cons.2 ⟨hlevels, hlevels'⟩, blanks ++ ',' :: (front ++ front'),
        ?_, ?_⟩
      · simp
      · exact .sign hblanks (hfront.append hfront')

/-- Each name that takes parts spends one of the levels on itself. -/
theorem isSound (levels : Nat) : IsSound levels := by
  induction levels with
  | zero => exact fun h ↦ absurd h (by simp [read])
  | succ levels ih =>
    intro cs rest t h
    cases read_succ_eq_ok.1 h with
    | @leaf letters l hword hname =>
      obtain ⟨⟨blanks, hblanks, rfl⟩, -⟩ := exists_blanks_of_word hword
      refine ⟨Nat.succ_le_succ (Nat.zero_le levels), blanks ++ letters, by simp, ?_⟩
      have hletters : l.name.toList = letters := by
        rw [ClLeaf.name_of_ofName? hname, String.toList_ofList]
      have htext := IsMadeOf.cons hblanks (.word l.name) .nil
      rw [List.append_nil, hletters] at htext
      exact htext
    | @byteArray letters _ _ digits _ n hword hname hopen hdigits hsize hclose =>
      obtain ⟨⟨before, hbefore, rfl⟩, -⟩ := exists_blanks_of_word hword
      obtain ⟨blanks, hblanks, rfl⟩ := exists_blanks_of_sign? (expect_eq_ok.1 hopen)
      obtain ⟨⟨inner, hinner, rfl⟩, halphanum⟩ := exists_blanks_of_word hdigits
      obtain ⟨after, hafter, rfl⟩ := exists_blanks_of_sign? (expect_eq_ok.1 hclose)
      refine ⟨Nat.succ_le_succ (Nat.zero_le levels), ?_⟩
      have hspelled := (size?_eq_some_iff halphanum).1 hsize
      have hcontent := IsMadeOf.cons hinner hspelled .nil
      refine ⟨_, ?_, isMadeOf_enclosed.2
        ⟨before, blanks, _, after, rfl, hbefore, hblanks, hafter, hcontent⟩⟩
      rw [← hname, String.toList_ofList]
      simp
    | @composite letters _ _ _ _ first _ others hword hopen hfirst hothers hcomposes hclose =>
      obtain ⟨⟨before, hbefore, rfl⟩, -⟩ := exists_blanks_of_word hword
      obtain ⟨blanks, hblanks, rfl⟩ := exists_blanks_of_sign? (expect_eq_ok.1 hopen)
      obtain ⟨hlevels, front, rfl, hfront⟩ := ih hfirst
      obtain ⟨hlevels', front', rfl, hfront'⟩ := ih.isMadeOf_moreTokens hothers
      obtain ⟨after, hafter, rfl⟩ := exists_blanks_of_sign? (expect_eq_ok.1 hclose)
      refine ⟨hcomposes.nesting_le_iff.2 (List.forall_mem_cons.2 ⟨hlevels, hlevels'⟩), ?_⟩
      rw [hcomposes.tokens_eq]
      refine ⟨_, ?_, isMadeOf_enclosed.2 ⟨before, blanks, front ++ front', after, rfl, hbefore,
        hblanks, hafter, hfront.append hfront'⟩⟩
      rw [String.toList_ofList]
      simp

end Sound

/-! ## Every name is accepted -/

section Complete

variable {levels fuel : Nat} {t : ClType} {others : List ClType} {front after : List Char}

theorem exists_of_isMadeOf_moreTokens_cons {part : ClType}
    (h : IsMadeOf (moreTokens (part :: others)) front) :
    ∃ blanks text more, front = blanks ++ ',' :: (text ++ more) ∧ IsBlank blanks ∧
      IsMadeOf part.tokens text ∧ IsMadeOf (moreTokens others) more := by
  obtain ⟨blanks, behind, rfl, hblanks, hbehind⟩ := IsMadeOf.exists_of_sign h
  obtain ⟨text, more, rfl, htext, hmore⟩ := hbehind.exists_of_append
  exact ⟨blanks, text, more, rfl, hblanks, htext, hmore⟩

/-- The parts are no more than the characters, so the fuel for them is enough. -/
theorem length_le_of_isMadeOf_moreTokens (h : IsMadeOf (moreTokens others) front) :
    others.length ≤ front.length := by
  induction others generalizing front with
  | nil => exact Nat.zero_le _
  | cons part others ih =>
    obtain ⟨blanks, text, more, rfl, -, -, hmore⟩ := exists_of_isMadeOf_moreTokens_cons h
    have := ih hmore
    simp only [List.length_append, List.length_cons]
    omega

/-- No word goes on into the parts that follow or into the sign behind them. -/
theorem stops_of_isMadeOf_moreTokens (h : IsMadeOf (moreTokens others) front)
    (hafter : IsBlank after) (hc : c.isAlphanum = false) :
    Stops Char.isAlphanum (front ++ (after ++ c :: rest)) := by
  cases others with
  | nil =>
    cases h
    exact stops_of_isBlank hafter hc
  | cons part others =>
    obtain ⟨blanks, text, more, rfl, hblanks, -, -⟩ := exists_of_isMadeOf_moreTokens_cons h
    rw [List.append_assoc, List.cons_append]
    exact stops_of_isBlank hblanks (by decide)

/-- The reader accepts the names of types within its levels, whatever follows that is no part of a
word. -/
def IsComplete (levels : Nat) : Prop :=
  ∀ {t : ClType} {front rest : List Char}, t.nesting ≤ levels → IsMadeOf t.tokens front →
    Stops Char.isAlphanum rest → read levels (front ++ rest) = .ok (t, rest)

/-- The step of the completeness proof for the parts behind a comma. -/
theorem IsComplete.moreParts_append (hcomplete : IsComplete levels)
    (hlevels : ∀ part ∈ others, part.nesting ≤ levels) (hfuel : others.length ≤ fuel)
    (hfront : IsMadeOf (moreTokens others) front) (hafter : IsBlank after) :
    moreParts (read levels) fuel (front ++ (after ++ ')' :: rest)) =
      .ok (others, after ++ ')' :: rest) := by
  induction others generalizing front fuel with
  | nil =>
    cases hfront
    have hsign : sign? ',' (after ++ ')' :: rest) = none := by
      rw [sign?_append hafter (by decide), if_neg (by decide)]
    cases fuel with
    | zero => rfl
    | succ fuel => rw [List.nil_append, moreParts, hsign]
  | cons part others ih =>
    obtain ⟨hpart, hothers⟩ := List.forall_mem_cons.1 hlevels
    obtain ⟨blanks, text, more, rfl, hblanks, htext, hmore⟩ :=
      exists_of_isMadeOf_moreTokens_cons hfront
    obtain ⟨fuel, rfl⟩ := Nat.exists_eq_add_of_le' (Nat.lt_of_lt_of_le (Nat.succ_pos _) hfuel)
    have hsign : sign? ',' (blanks ++ ',' :: (text ++ (more ++ (after ++ ')' :: rest)))) =
        some (text ++ (more ++ (after ++ ')' :: rest))) := by
      rw [sign?_append hblanks (by decide), if_pos rfl]
    have hstops : Stops Char.isAlphanum (more ++ (after ++ ')' :: rest)) :=
      stops_of_isMadeOf_moreTokens hmore hafter (by decide)
    have hread := hcomplete hpart htext hstops
    have hmoreParts := ih hothers (Nat.le_of_succ_le_succ hfuel) hmore
    rw [List.append_assoc, List.cons_append, List.append_assoc, moreParts, hsign]
    simp only [hread, hmoreParts, Wire.ok_bind]
    rfl

/-- The name of the part at the front ends where the next sign stands, and so does each other. -/
theorem isComplete (levels : Nat) : IsComplete levels := by
  induction levels with
  | zero =>
    intro t front rest hlevels
    exact absurd (Nat.lt_of_lt_of_le t.nesting_pos hlevels) (Nat.lt_irrefl 0)
  | succ levels ih =>
    intro t front rest hlevels hfront hrest
    rw [read_succ_eq_ok]
    obtain ⟨l, rfl⟩ | ⟨n, rfl⟩ | ⟨name, first, others, hcomposes⟩ := exists_composes t
    · cases hfront with
      | @cons _ _ blanks text behind hblanks htext hbehind =>
        cases htext
        cases hbehind
        have hword : word (blanks ++ (l.name.toList ++ rest)) = (l.name.toList, rest) :=
          word_append hblanks l.isWord_name hrest
        have hleaf : ClLeaf.ofName? (String.ofList l.name.toList) = some l := by
          rw [String.ofList_toList]
          exact ClLeaf.ofName?_name l
        rw [List.append_nil, List.append_assoc]
        exact .leaf hword hleaf
    · obtain ⟨before, blanks, content, after, rfl, hbefore, hblanks, hafter, hcontent⟩ :=
        isMadeOf_enclosed.1 hfront
      cases hcontent with
      | @cons _ _ inner digits behind hinner hspelled hbehind =>
        cases hbehind
        have hdigits := hspelled.isWord_of_size
        have hstops : Stops Char.isAlphanum (after ++ ')' :: rest) :=
          stops_of_isBlank hafter (by decide)
        simp only [List.append_assoc, List.cons_append, List.nil_append]
        exact .byteArray (word_before_sign hbefore hblanks (by decide) (by decide))
          String.ofList_toList (expect_append hblanks (by decide))
          (word_append hinner hdigits hstops)
          ((size?_eq_some_iff hdigits.isAlphanum).2 hspelled) (expect_append hafter (by decide))
    · rw [hcomposes.tokens_eq] at hfront
      obtain ⟨before, blanks, content, after, rfl, hbefore, hblanks, hafter, hcontent⟩ :=
        isMadeOf_enclosed.1 hfront
      obtain ⟨text, more, rfl, htext, hmore⟩ := hcontent.exists_of_append
      obtain ⟨hfirst, hothers⟩ := List.forall_mem_cons.1 (hcomposes.nesting_le_iff.1 hlevels)
      have hstops : Stops Char.isAlphanum (more ++ (after ++ ')' :: rest)) :=
        stops_of_isMadeOf_moreTokens hmore hafter (by decide)
      have hfuel : others.length ≤ (more ++ (after ++ ')' :: rest)).length :=
        Nat.le_trans (length_le_of_isMadeOf_moreTokens hmore) (by simp)
      simp only [List.append_assoc, List.cons_append, List.nil_append]
      refine .composite (word_before_sign hbefore hblanks (by decide) hcomposes.isWord)
        (expect_append hblanks (by decide)) (ih hfirst htext hstops)
        (ih.moreParts_append hothers hfuel hmore hafter) ?_ (expect_append hafter (by decide))
      rw [String.ofList_toList]
      exact hcomposes

end Complete

/-! ## Whole texts -/

theorem stops_blank (hblanks : IsBlank blanks) : Stops Char.isAlphanum blanks := by
  cases blanks with
  | nil => exact Text.stops_nil
  | cons b blanks =>
    exact Text.stops_cons (Text.isAlphanum_of_isBlank (hblanks b List.mem_cons_self))

theorem skipBlank_isEmpty_iff : (Text.skipBlank cs).isEmpty = true ↔ IsBlank cs := by
  rw [List.isEmpty_iff]
  constructor
  · intro h
    obtain ⟨blanks, hblanks, hcs⟩ := exists_blanks cs
    rw [h, List.append_nil] at hcs
    exact hcs ▸ hblanks
  · intro hblanks
    have hnil : Stops Text.isBlank [] := Text.stops_nil
    have hskip := Text.dropWhile_run hblanks hnil
    rw [List.append_nil] at hskip
    exact hskip

/-- Blanks are accepted behind the name too, and nothing else. -/
theorem readAll_eq_ok {t : ClType} : readAll cs = .ok t ↔ t.nesting ≤ Limits.maxTypeDepth ∧
    ∃ front blanks, cs = front ++ blanks ∧ IsMadeOf t.tokens front ∧ IsBlank blanks := by
  unfold readAll
  constructor
  · intro h
    obtain ⟨⟨t', rest⟩, hread, h⟩ := Wire.bind_eq_ok.1 h
    dsimp only at h
    split at h
    case isFalse => cases h
    case isTrue hblank =>
      obtain rfl := Except.ok.inj h
      obtain ⟨hlevels, front, hcs, hfront⟩ := isSound _ hread
      exact ⟨hlevels, front, rest, hcs, hfront, skipBlank_isEmpty_iff.1 hblank⟩
  · rintro ⟨hlevels, front, blanks, rfl, hfront, hblanks⟩
    rw [isComplete _ hlevels hfront (stops_blank hblanks), Wire.ok_bind]
    exact if_pos (skipBlank_isEmpty_iff.2 hblanks)

end Name

/-- The reader of names accepts the spellings of types within the limit, and no other text. -/
theorem ofName_eq_ok {s : String} {t : ClType} :
    ofName s = .ok t ↔ t.nesting ≤ Limits.maxTypeDepth ∧ t.IsNamedBy s :=
  Wire.mapError_eq_ok.trans Name.readAll_eq_ok

theorem ofName_name {t : ClType} (h : t.nesting ≤ Limits.maxTypeDepth) : ofName t.name = .ok t :=
  ofName_eq_ok.2 ⟨h, isNamedBy_name t⟩

/-- The texts that are read as a type are those of the tokens of its canonical name, with any white
space around them and any zeros before a size, if the type is within the limit on nesting. -/
theorem reads_exactly_the_names :
    (∀ t : ClType, t.name.toList = t.tokens.flatMap Token.display) ∧
    (∀ (s : String) (t : ClType),
      ofName s = .ok t ↔ t.nesting ≤ Limits.maxTypeDepth ∧ t.IsNamedBy s) ∧
    ∀ t : ClType, t.nesting ≤ Limits.maxTypeDepth → ofName t.name = .ok t := by
  refine ⟨fun t ↦ ?_, fun s t ↦ ofName_eq_ok, fun t ↦ ofName_name⟩
  rw [name, String.toList_ofList, chars_eq_flatMap_display]

/-- Blanks around a size with leading zeros, and a type at the limit. -/
theorem reads_exactly_the_names_spaced :
    ofName " ByteArray\t( 0032 ) " = .ok (.byteArray 32) ∧
    ofName (Nat.repeat ClType.option 49 (.leaf .unit)).name =
      .ok (Nat.repeat ClType.option 49 (.leaf .unit)) := by
  obtain ⟨-, hexact, hname⟩ := reads_exactly_the_names
  constructor
  · have hdigits : Text.Decimal.ofNat (32 : UInt32).toNat = ['3', '2'] := by
      simp [Text.Decimal.ofNat, Text.Decimal.digit]
    have hspelled : (Token.size 32).IsSpelledBy ['0', '0', '3', '2'] := hdigits ▸ .size 2 32
    have hspace : IsBlank [' '] := by decide
    have hinside : IsMadeOf [.size 32, .sign ')'] " 0032 )".toList :=
      .cons hspace hspelled (.sign hspace .nil)
    have hfront : IsMadeOf (tokens (.byteArray 32)) " ByteArray\t( 0032 )".toList :=
      .cons hspace (.word "ByteArray") (.sign (by decide : IsBlank ['\t']) hinside)
    exact (hexact _ _).2 ⟨by decide, _, [' '], rfl, hfront, hspace⟩
  · exact hname _ (by decide)

end ClType

end ChainClient
