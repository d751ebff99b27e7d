import Covenant.Catalogue.Entry

/-!
# Operations on values

Libraries of operations on numbers, texts, bytes, decimals, enums, addresses
and arrays.
-/

namespace Covenant.Catalogue

def mathLibrary : Library :=
  libraryOf "Math" [
    inline "min" (.binary .min) .number [("a", .number), ("b", .number)],
    inline "max" (.binary .max) .number [("a", .number), ("b", .number)],
    inline "pow" (.binary .pow) .number [("base", .number), ("exponent", .number)],
    inline "abs" (.unary .abs) .number [("value", .number)],
    inline "sign" (.unary .sign) .number [("value", .number)]]

def arrayLibrary : Library :=
  libraryOf "Array" [
    inline "length" (.unary .count) .number [("target", .array (.generic 0))],
    inline "get" .arrayGet (.generic 0)
      [("target", .array (.generic 0)), ("index", .number)] |> typed (.element 0)]

def stringLibrary : Library :=
  libraryOf "String" [
    inline "length" (.unary .size) .number [("target", .string)],
    inline "substr" .range .string [("target", .string), ("index", .number), ("length", .number)],
    inline "toBytes" (.cast .bytes) .bytes [("target", .string)]]

def bytesLibrary : Library :=
  libraryOf "Bytes" [
    inline "length" (.unary .size) .number [("target", .bytes)],
    inline "toString" (.cast .string) .string [("target", .bytes)]]

def decimalLibrary : Library :=
  libraryOf "Decimal" [
    inline "decimals" .decimalPlaces .number [("target", .any)]]

def enumLibrary : Library :=
  libraryOf "Enum" [
    inline "isSet" .enumFlag .bool [("target", .any), ("flag", .any)]]

def addressLibrary : Library :=
  libraryOf "Address" [
    host "isNull" .bool [("target", .address)],
    host "isUser" .bool [("target", .address)],
    host "isSystem" .bool [("target", .address)],
    host "isInterop" .bool [("target", .address)],
    inline "toString" (.cast .string) .string [("target", .address)]]

end Covenant.Catalogue
