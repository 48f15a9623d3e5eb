import ChainClient.Proofs.Json.Arrangement
import ChainClient.Proofs.Text.Digits
import ChainClient.Proofs.Value.Builders
import ChainClient.Value.Arguments
import ChainClient.Value.Blob

/-!
# Types, values and arguments read back from JSON

Every type is read back from its form, however deep it nests. A value is read back if its bytes
pass the test that its reader makes; what is rendered beside the bytes does not matter.
-/

namespace ChainClient

open Json (Arrangement arranged)

namespace ClType

variable (a : Arrangement)

/-- No type is an array, so a part that stands bare is not taken for an array of one part. -/
theorem arranged_toJson_ne_arr (t : ClType) (items : List Json) :
    arranged a t.toJson ≠ .arr items := by
  cases t with
  | leaf l => exact nofun
  | _ =>
    rw [toJson, Json.arranged_tagged]
    exact nofun

theorem ofJson?_arranged (t : ClType) : ofJson? (arranged a t.toJson) = some t := by
  induction t with
  | leaf l => rw [toJson, Json.arranged_str, ofJson?, ClLeaf.ofName?_name, Option.map_some]
  | option t ih | list t ih =>
    rw [toJson, Json.arranged_tagged, Json.tagged, ofJson?, ih, Option.map_some]
  | byteArray n =>
    rw [toJson, Json.arranged_tagged, Json.arranged_int, Json.tagged, ofJson?,
      Json.nat?_of_lt n.toNat_lt, Option.map_some, UInt32.ofNat_toNat]
  | tuple1 t ih =>
    rw [toJson, Json.arranged_tagged, Json.tagged, ofJson?, ih, Option.map_some]
    exact fun part hpart ↦ arranged_toJson_ne_arr a t [part] hpart
  | result t u iht ihu =>
    rw [toJson, Json.arranged_tagged, Json.tagged]
    rcases Json.arranged_pair a "ok" "err" t.toJson u.toJson with h | h <;>
      · rw [h]
        simp only [ofJson?, iht, ihu]
        rfl
  | map t u iht ihu =>
    rw [toJson, Json.arranged_tagged, Json.tagged]
    rcases Json.arranged_pair a "key" "value" t.toJson u.toJson with h | h <;>
      · rw [h]
        simp only [ofJson?, iht, ihu]
        rfl
  | tuple2 t u iht ihu =>
    rw [toJson, Json.arranged_tagged, Json.arranged_arr, Json.tagged]
    simp only [List.map, ofJson?, iht, ihu]
    rfl
  | tuple3 t u v iht ihu ihv =>
    rw [toJson, Json.arranged_tagged, Json.arranged_arr, Json.tagged]
    simp only [List.map, ofJson?, iht, ihu, ihv]
    rfl

theorem readsBack (t : ClType) : ReadsBack t := fun a _ ↦ ofJson?_arranged a t

end ClType

theorem Blob.ofText_text (b : Blob) : ofText b.text = .ok b := by
  rw [ofText, text, Text.Hex.text, String.toList_ofList, Text.Hex.decode_encode]
  rfl

theorem Blob.readsBack (b : Blob) : ReadsBack b := Json.readsBack_text b.ofText_text

namespace ClValue

variable {v : ClValue}

/-- The reader looks at the type and the bytes only. -/
theorem read?_toJson (v : ClValue) : shape.read? v.toJson =
    some [some v.clType.toJson, some (.str (Text.Hex.text v.payload))] := rfl

/-- A value is read from its two fields, and its payload is walked once more. -/
theorem ofJson?_of_fields (h : v.IsChecked) {j part : Json} (hfields : shape.read? j =
    some [some part, some (.str (Text.Hex.text v.payload))])
    (hpart : ClType.ofJson? part = some v.clType) : ofJson? j = some v := by
  have hpayload : Text.Hex.decode (Text.Hex.text v.payload).toList = .ok v.payload := by
    rw [Text.Hex.text, String.toList_ofList, Text.Hex.decode_encode]
  have hvalue : ofComponents v.clType v.payload = .ok v := ofComponents_eq_ok.2 ⟨h, rfl⟩
  rw [ofJson?, hfields]
  calc
    _ = (do
          let clType ← ClType.ofJson? part
          let payload ← (Text.Hex.decode (Text.Hex.text v.payload).toList).toOption
          (ofComponents clType payload).toOption) := rfl
    _ = some v := by
      rw [hpart, hpayload]
      exact congrArg Except.toOption hvalue

/-- A checked value survives; an unchecked payload would be refused on the way back. -/
theorem readsBack (h : v.IsChecked) : ReadsBack v := fun a _ ↦
  ofJson?_of_fields h (Json.Shape.read?_arranged_of_eq a v.read?_toJson)
    (ClType.ofJson?_arranged a v.clType)

end ClValue

namespace NamedArg

theorem readsBack {arg : NamedArg} (h : arg.value.IsChecked) : ReadsBack arg := by
  intro a source
  have hvalue : ClValue.ofJson? (arranged a arg.value.toJson) = some arg.value :=
    ClValue.readsBack h a source
  calc
    _ = (do return (⟨arg.name, ← ClValue.ofJson? (arranged a arg.value.toJson)⟩ : NamedArg)) := rfl
    _ = some arg := by
      rw [hvalue]
      rfl

end NamedArg

namespace Arguments

/-- Every value in the list would be accepted by its reader. -/
def IsChecked (args : Arguments) : Prop := ∀ arg ∈ args.toList, arg.value.IsChecked

theorem readsBack {args : Arguments} (h : args.IsChecked) : ReadsBack args := by
  intro a source
  have hlist : ReadsBack args.toList :=
    Json.readsBack_list fun arg harg ↦ NamedArg.readsBack (h arg harg)
  exact congrArg (Option.map mk) (hlist a source)

end Arguments

end ChainClient
