import Covenant.Token.Lexeme

/-!
# Scanning a source

`Token.scan` cuts a whole source into tokens.  It alternates between skipping
trivia and reading a lexeme; each lexeme takes at least one character, so the
number of characters bounds the number of rounds.
-/

namespace Covenant.Token

/-- Scan at most `rounds` tokens from a text that starts at `position`. -/
def scanFrom : Nat → Position → List Char → List Token
  | 0, _, _ => []
  | rounds + 1, position, text =>
    let gap := Trivia.between.width text
    let start := position.past (text.take gap)
    match text.drop gap with
    | [] => []
    | first :: rest =>
      let lexeme := Lexeme.read first rest
      let stop := start.past ((first :: rest).take (lexeme.more + 1))
      { kind := lexeme.kind
        value := String.ofList lexeme.value
        start
        stop := stop.offset } ::
        scanFrom rounds stop (rest.drop lexeme.more)

def scan (source : String) : List Token :=
  scanFrom source.toList.length .start source.toList

end Covenant.Token
