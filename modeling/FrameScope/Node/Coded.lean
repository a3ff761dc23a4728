import FrameScope.Json.Printer
import FrameScope.Node.Read

/-!
# Things with a document form

A type with a document form can be read from a document and written as one.
-/

namespace FrameScope

/-- A type whose values are read from documents and written as documents. -/
class Coded (α : Type) where
  read : Decoder α
  write : α → Node

instance : Coded Nat := ⟨Read.word, fun n => .int n⟩

instance : Coded String := ⟨Read.text, .text⟩

instance : Coded Json := ⟨Read.json, Node.ofJson⟩

/-- An amount is written as a string of its digits. -/
instance : Coded Amount := ⟨Read.amount, fun a => .text a.text⟩

namespace Coded

/-- The untyped value that writes a thing. -/
def json [Coded α] (x : α) : Json := (write x).toJson

def wire [Coded α] (x : α) : String := (json x).compact

/-- A thing from an untyped value. -/
def ofJson? [Coded α] (v : Json) : Except DecodeError α := read .value (Node.ofJson v)

end Coded

end FrameScope
