import CampusQuery.Text.Reader

/-!
# Percent encoding

A percent sign and two hexadecimal digits stand for one octet. A percent sign
without them stands for itself.
-/

namespace CampusQuery.Http

def percentSign : UInt8 := 0x25

/-- The octets that a text stands for. -/
def percentOctets : List Char → List UInt8
  | '%' :: high :: low :: rest =>
      match Text.hexDigit? high, Text.hexDigit? low with
      | some high, some low => UInt8.ofNat (16 * high + low) :: percentOctets rest
      | _, _ => percentSign :: percentOctets (high :: low :: rest)
  | c :: rest => String.utf8EncodeChar c ++ percentOctets rest
  | [] => []

/-- The text that a text stands for, if its octets are UTF-8. -/
def percentDecode? (text : String) : Option String :=
  String.fromUTF8? ⟨(percentOctets text.toList).toArray⟩

end CampusQuery.Http
