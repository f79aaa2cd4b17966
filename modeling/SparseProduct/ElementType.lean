/-!
# Element types and semiring keys

A semiring over raw bytes does not know what its bytes mean. It carries the tags of its three
element types instead, and those tags together with a name are the key under which it is registered.
-/

namespace SparseProduct

def version : String := "0.1.0"

/-- The tag of an element type: one of the known ones, or a caller's own with an id and a byte size. -/
inductive ElementType where
  | bool
  | u8
  | i32
  | i64
  | u32
  | u64
  | f32
  | f64
  | user (id size : Nat)
deriving DecidableEq, Repr, Inhabited

namespace ElementType

def size : ElementType → Nat
  | bool | u8 => 1
  | i32 | u32 | f32 => 4
  | i64 | u64 | f64 => 8
  | user _ size => size

/-- The short name, as it stands in a key. -/
def text : ElementType → String
  | bool => "bool"
  | u8 => "u8"
  | i32 => "i32"
  | i64 => "i64"
  | u32 => "u32"
  | u64 => "u64"
  | f32 => "f32"
  | f64 => "f64"
  | user id size => "user" ++ toString id ++ "[" ++ toString size ++ "]"

def ofText? (text : String) : Option ElementType :=
  [bool, u8, i32, i64, u32, u64, f32, f64].find? (·.text = text)

def label : ElementType → String
  | bool => "Bool"
  | u8 => "U8"
  | i32 => "I32"
  | i64 => "I64"
  | u32 => "U32"
  | u64 => "U64"
  | f32 => "F32"
  | f64 => "F64"
  | user id size => "User \x7b id: " ++ toString id ++ ", size: " ++ toString size ++ " \x7d"

end ElementType

/-- What a semiring over bytes is registered under: its name and its three element types. -/
structure SemiringKey where
  name : String
  output : ElementType
  left : ElementType
  right : ElementType
deriving DecidableEq, Repr, Inhabited

namespace SemiringKey

def uniform (name : String) (type : ElementType) : SemiringKey := ⟨name, type, type, type⟩

/-- The key written as `name<output = left x right>`. -/
def text (key : SemiringKey) : String :=
  key.name ++ "<" ++ key.output.text ++ " = " ++ key.left.text ++ " x " ++ key.right.text ++ ">"

end SemiringKey

end SparseProduct
