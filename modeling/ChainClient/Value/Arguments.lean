import ChainClient.Value.ClValue

/-!
# Named arguments

The arguments of a contract call are a list of named values. Their order counts and a
name may occur more than once; looking up a name finds its first value.
-/

namespace ChainClient

structure NamedArg where
  name : String
  value : ClValue
  deriving DecidableEq, Repr

namespace NamedArg

instance : Wire NamedArg :=
  Wire.via (fun arg ↦ (arg.name, arg.value)) fun parts ↦ ⟨parts.1, parts.2⟩

instance : JsonForm NamedArg where
  toJson arg := .arr [.str arg.name, arg.value.toJson]
  ofJson?
    | _, .arr [name, value] => do return ⟨← name.text?, ← ClValue.ofJson? value⟩
    | _, _ => none

end NamedArg

structure Arguments where
  toList : List NamedArg
  deriving DecidableEq, Repr

namespace Arguments

def empty : Arguments := ⟨[]⟩

def push (args : Arguments) (name : String) (value : ClValue) : Arguments :=
  ⟨args.toList ++ [⟨name, value⟩]⟩

def ofList (entries : List (String × ClValue)) : Arguments :=
  ⟨entries.map fun entry ↦ ⟨entry.1, entry.2⟩⟩

def get? (args : Arguments) (name : String) : Option ClValue :=
  (args.toList.find? fun arg ↦ arg.name == name).map (·.value)

def names (args : Arguments) : List String := args.toList.map (·.name)

instance : Wire Arguments := Wire.via toList mk

instance : JsonForm Arguments where
  toJson args := ChainClient.toJson args.toList
  ofJson? source j := (ChainClient.ofJson? source j).map mk

end Arguments

end ChainClient
