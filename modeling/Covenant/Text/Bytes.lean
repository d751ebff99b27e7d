/-!
# The bytes of a text

Texts are stored in the UTF-8 encoding.
-/

namespace Covenant.Text

def bytes (text : String) : List UInt8 :=
  text.toList.flatMap String.utf8EncodeChar

end Covenant.Text
