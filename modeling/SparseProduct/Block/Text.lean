import SparseProduct.Block.Hex
import SparseProduct.Block.Semiring
import SparseProduct.Text.Printing

/-!
# The text of a block semiring

A record is described by its name and its three types. The name is quoted, and characters of it that
would end the quotation or do not print are escaped. A block is shown as hexadecimal text, in which all
floating-point blocks that are not numbers look alike.
-/

namespace SparseProduct

namespace Quoted

/-- A character as it stands between quotes. One that prints stands for itself, unless it would end the
quotation or begin an escape; one that does not print is given by its number. -/
def escape (c : Char) : String :=
  match c with
  | '\x00' => "\\0"
  | '\t' => "\\t"
  | '\r' => "\\r"
  | '\n' => "\\n"
  | '"' => "\\\""
  | '\\' => "\\\\"
  | c =>
    if Printing.isPrinting c then c.toString
    else "\\u\x7b" ++ String.ofList (Nat.toDigits 16 c.toNat) ++ "\x7d"

def text (s : String) : String := "\"" ++ String.join (s.toList.map escape) ++ "\""

end Quoted

namespace ElementType

/-- A block of the type with every block that is not a number made the same. -/
def canonical (type : ElementType) (block : Bytes) : Bytes :=
  match type, block.size with
  | f64, 8 =>
    let x : Float := BlockCodec.decode block
    if x.isNaN then #[0, 0, 0, 0, 0, 0, 0xf8, 0x7f] else block
  | f32, 4 =>
    let x : Float32 := BlockCodec.decode block
    if x.isNaN then #[0, 0, 0xc0, 0x7f] else block
  | _, _ => block

end ElementType

namespace BlockSemiring

def blockText (s : BlockSemiring) (block : Bytes) : String := (s.output.canonical block).hexText

def text (s : BlockSemiring) : String :=
  "OpaqueSemiring \x7b name: " ++ Quoted.text s.name ++ ", output: " ++ s.output.label
    ++ ", left: " ++ s.left.label ++ ", right: " ++ s.right.label ++ " \x7d"

end BlockSemiring

end SparseProduct
