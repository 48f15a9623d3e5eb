import ChainClient.Value.ClValue

/-!
# Building typed values

Numbers are built from integers or decimal texts, whose range is checked against the
type. Composites are put together from values that are typed already: the payload is the
concatenation of their payloads, behind a tag or a count where the type has one. A list
and a map require their parts to have the stated types.
-/

namespace ChainClient.ClValue

/-! ## Numbers -/

def integerText (n : Int) : String := String.ofList (Text.Decimal.ofInt n)

/-- A number between two bounds, built by the writer of its type. -/
def bounded (clType : ClType) (least greatest : Int) (build : Int → Except ClValueError ClValue)
    (n : Int) : Except ClValueError ClValue :=
  if least ≤ n ∧ n ≤ greatest then build n else .error (.range clType (integerText n))

def wide (clType : ClType) (size : Nat) (build : BigUInt size → Except ClValueError ClValue)
    (n : Int) : Except ClValueError ClValue :=
  match n with
  | .ofNat n =>
    match BigUInt.ofNat? size n with
    | some x => build x
    | none => .error (.range clType (integerText n))
  | .negSucc _ => .error (.range clType (integerText n))

def ofI32 (n : Int32) : Except ClValueError ClValue := ofNative (.scalar .i32) rfl n

def ofI64 (n : Int64) : Except ClValueError ClValue := ofNative (.scalar .i64) rfl n

def ofU8 (n : UInt8) : Except ClValueError ClValue := ofNative (.scalar .u8) rfl n

def ofU32 (n : UInt32) : Except ClValueError ClValue := ofNative (.scalar .u32) rfl n

def ofU64 (n : UInt64) : Except ClValueError ClValue := ofNative (.scalar .u64) rfl n

def ofU128 (n : U128) : Except ClValueError ClValue := ofNative (.scalar .u128) rfl n

def ofU256 (n : U256) : Except ClValueError ClValue := ofNative (.scalar .u256) rfl n

def ofU512 (n : U512) : Except ClValueError ClValue := ofNative (.scalar .u512) rfl n

def toU512 (v : ClValue) : Except ClValueError U512 := v.toNative (.scalar .u512) rfl

def ofInteger (clType : ClType) (n : Int) : Except ClValueError ClValue :=
  match clType with
  | .leaf .i32 =>
    bounded clType Int32.minValue.toInt Int32.maxValue.toInt (fun n ↦ ofI32 (Int32.ofInt n)) n
  | .leaf .i64 =>
    bounded clType Int64.minValue.toInt Int64.maxValue.toInt (fun n ↦ ofI64 (Int64.ofInt n)) n
  | .leaf .u8 => bounded clType 0 (UInt8.size - 1) (fun n ↦ ofU8 (UInt8.ofNat n.toNat)) n
  | .leaf .u32 => bounded clType 0 (UInt32.size - 1) (fun n ↦ ofU32 (UInt32.ofNat n.toNat)) n
  | .leaf .u64 => bounded clType 0 (UInt64.size - 1) (fun n ↦ ofU64 (UInt64.ofNat n.toNat)) n
  | .leaf .u128 => wide clType 16 ofU128 n
  | .leaf .u256 => wide clType 32 ofU256 n
  | .leaf .u512 => wide clType 64 ofU512 n
  | _ => .error (.notNumeric clType)

/-- An integer of 128 bits with an optional sign. -/
def integer128? (cs : List Char) : Option Int := do
  let n ← Text.Decimal.integer? cs
  if -0x80000000000000000000000000000000 ≤ n ∧ n < 0x80000000000000000000000000000000 then some n
  else none

def wideDecimal (clType : ClType) (size : Nat)
    (build : BigUInt size → Except ClValueError ClValue) (text : String) :
    Except ClValueError ClValue :=
  match BigUInt.ofDecimal? size text.toList with
  | some x => build x
  | none => .error (.range clType text)

def signedDecimal (clType : ClType) (text : String) : Except ClValueError ClValue :=
  match integer128? text.toList with
  | some n => ofInteger clType n
  | none => .error (.range clType text)

/-- Wide types read digits only, and no digits at all as zero; the others read a signed
integer. A refused text is quoted as it stands, an integer out of range in decimal. -/
def ofDecimal (clType : ClType) (text : String) : Except ClValueError ClValue :=
  match clType with
  | .leaf .u128 => wideDecimal clType 16 ofU128 text
  | .leaf .u256 => wideDecimal clType 32 ofU256 text
  | .leaf .u512 => wideDecimal clType 64 ofU512 text
  | .leaf .i32 | .leaf .i64 | .leaf .u8 | .leaf .u32 | .leaf .u64 => signedDecimal clType text
  | _ => .error (.notNumeric clType)

/-! ## Composites -/

def unit : ClValue := ⟨.leaf .unit, []⟩

def expectType (expected : ClType) (v : ClValue) : Except ClValueError Unit :=
  if v.clType = expected then .ok () else .error (.typeMismatch expected v.clType)

def option (inner : ClType) : Option ClValue → Except ClValueError ClValue
  | none => .ok ⟨.option inner, [0]⟩
  | some v => do
    expectType inner v
    return ⟨.option inner, 1 :: v.payload⟩

def itemsPayload (element : ClType) (count : Nat) :
    List ClValue → Except ClValueError Bytes
  | [] => .ok []
  | v :: vs => do
    expectType element v
    (Wire.checkZeroWidth v.payload [] count).mapError .serialization
    return v.payload ++ (← itemsPayload element count vs)

def list (element : ClType) (items : List ClValue) : Except ClValueError ClValue := do
  let count ← (Wire.writeCount items.length).mapError .serialization
  let body ← itemsPayload element items.length items
  return ⟨.list element, count ++ body⟩

def byteArray (bytes : Bytes) : Except ClValueError ClValue :=
  if bytes.length < UInt32.size then .ok ⟨.byteArray (UInt32.ofNat bytes.length), bytes⟩
  else .error (.serialization .tooLong)

def entriesPayload (key value : ClType) :
    List Bytes → List (ClValue × ClValue) → Except ClValueError Bytes
  | _, [] => .ok []
  | seen, (k, v) :: entries => do
    expectType key k
    expectType value v
    if k.payload ∈ seen then .error (.serialization (.malformed .duplicateMapKey))
    else return k.payload ++ v.payload ++ (← entriesPayload key value (k.payload :: seen) entries)

/-- Entries stay in the order in which they are given. -/
def map (key value : ClType) (entries : List (ClValue × ClValue)) :
    Except ClValueError ClValue := do
  let count ← (Wire.writeCount entries.length).mapError .serialization
  let body ← entriesPayload key value [] entries
  return ⟨.map key value, count ++ body⟩

def resultOk (v : ClValue) (err : ClType) : ClValue := ⟨.result v.clType err, 1 :: v.payload⟩

def resultErr (ok : ClType) (v : ClValue) : ClValue := ⟨.result ok v.clType, 0 :: v.payload⟩

def tuple1 (a : ClValue) : ClValue := ⟨.tuple1 a.clType, a.payload⟩

def tuple2 (a b : ClValue) : ClValue := ⟨.tuple2 a.clType b.clType, a.payload ++ b.payload⟩

def tuple3 (a b c : ClValue) : ClValue :=
  ⟨.tuple3 a.clType b.clType c.clType, a.payload ++ b.payload ++ c.payload⟩

end ChainClient.ClValue
