import ChainClient.Address.URef

/-!
# Keys of the global state

A key is an address of one of eight kinds, a reference with its rights, or the number
of an era. In the binary form a tag byte comes first, in the text form a label. The
label of a plain hash is the end of the label of an account, and it is never mistaken
for it because a text is read from its beginning.
-/

namespace ChainClient

/-- What a plain address points to. -/
inductive AddressKind where
  | account
  | hash
  | transfer
  | deployInfo
  | balance
  | bid
  | withdraw
  | dictionary
  deriving DecidableEq, Repr

namespace AddressKind

def tag : AddressKind → UInt8
  | .account => 0
  | .hash => 1
  | .transfer => 3
  | .deployInfo => 4
  | .balance => 6
  | .bid => 7
  | .withdraw => 8
  | .dictionary => 9

def label : AddressKind → List Char
  | .account => AccountHash.label
  | .hash => ['h', 'a', 's', 'h', '-']
  | .transfer => ['t', 'r', 'a', 'n', 's', 'f', 'e', 'r', '-']
  | .deployInfo => ['d', 'e', 'p', 'l', 'o', 'y', '-']
  | .balance => ['b', 'a', 'l', 'a', 'n', 'c', 'e', '-']
  | .bid => ['b', 'i', 'd', '-']
  | .withdraw => ['w', 'i', 't', 'h', 'd', 'r', 'a', 'w', '-']
  | .dictionary => ['d', 'i', 'c', 't', 'i', 'o', 'n', 'a', 'r', 'y', '-']

def all : List AddressKind :=
  [.account, .hash, .transfer, .deployInfo, .balance, .bid, .withdraw, .dictionary]

def ofTag? (tag : UInt8) : Option AddressKind := all.find? fun kind ↦ kind.tag == tag

theorem ofTag?_tag (kind : AddressKind) : ofTag? kind.tag = some kind := by cases kind <;> rfl

end AddressKind

inductive Key where
  | address (kind : AddressKind) (bytes : Octets 32)
  | uref (reference : URef)
  | era (number : UInt64)
  deriving DecidableEq, Repr

namespace Key

def ofAccount (account : AccountHash) : Key := .address .account account.bytes

def tag : Key → UInt8
  | .address kind _ => kind.tag
  | .uref _ => 2
  | .era _ => 5

/-! ## Text form -/

def eraLabel : List Char := ['e', 'r', 'a', '-']

def chars : Key → List Char
  | .address kind bytes => kind.label ++ Text.Hex.encode bytes.toList
  | .uref reference => reference.chars
  | .era number => eraLabel ++ Text.Decimal.ofNat number.toNat

def text (key : Key) : String := String.ofList key.chars

def eraOf? (cs : List Char) : Option UInt64 := do
  let n ← Text.Decimal.natural? 10 cs
  if n < UInt64.size then some (UInt64.ofNat n) else none

/-- The kind whose label the text begins with, and what follows the label. -/
def labelled? (cs : List Char) : Option (AddressKind × List Char) :=
  AddressKind.all.findSome? fun kind ↦ (Text.stripLabel? kind.label cs).map fun rest ↦ (kind, rest)

def ofChars (cs : List Char) : Except AddressError Key :=
  if URef.label.isPrefixOf cs then do return .uref (← URef.ofChars cs)
  else
    match Text.stripLabel? eraLabel cs with
    | some digits =>
      match eraOf? digits with
      | some number => .ok (.era number)
      | none => .error .era
    | none =>
      match labelled? cs with
      | some (kind, digits) => do return .address kind (← Address.ofHex digits)
      | none => .error (.unknownLabel (String.ofList cs))

def ofText (s : String) : Except AddressError Key := ofChars s.toList

/-! ## Other forms -/

instance : Wire Key where
  write
    | .address kind bytes => do return kind.tag :: (← Wire.write bytes)
    | .uref reference => do return 2 :: (← Wire.write reference)
    | .era number => do return 5 :: (← Wire.write number)
  read
    | [] => .error .earlyEnd
    | tag :: rest =>
      if tag = 2 then do
        let (reference, rest) ← (Wire.read rest : Except WireError (URef × Bytes))
        return (.uref reference, rest)
      else if tag = 5 then do
        let (number, rest) ← (Wire.read rest : Except WireError (UInt64 × Bytes))
        return (.era number, rest)
      else
        match AddressKind.ofTag? tag with
        | some kind => do
          let (bytes, rest) ← (Wire.read rest : Except WireError (Octets 32 × Bytes))
          return (.address kind bytes, rest)
        | none => .error (.unknownTag .key tag)
  width
    | .address _ _ => 33
    | .uref reference => 1 + Wire.width reference
    | .era _ => 9

instance : JsonForm Key := .ofText text fun s ↦ (ofText s).toOption

/-- Keys are ordered by tag, and those of one tag by what they hold. -/
instance : SortKey Key where
  sortKey
    | .address kind bytes => (kind.tag.toNat : Int) :: SortKey.ofBytes bytes.toList
    | .uref reference => 2 :: sortKey reference
    | .era number => [5, (number.toNat : Int)]

end Key

end ChainClient
