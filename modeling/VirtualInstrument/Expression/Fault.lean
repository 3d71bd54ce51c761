import VirtualInstrument.Expression.Tree
/- Why a text is not an expression. Places count code units from the start of the trimmed
   text. -/
namespace VirtualInstrument.Expression

inductive Symbol
  | plus | minus | times | over | floorOver | modulo | power
  | equal | unequal | less | atMost | greater | atLeast
  | and | or | not
  | openParen | closeParen | openBracket | closeBracket | comma | dot | question | colon
deriving DecidableEq, Repr

def Symbol.spelling : Symbol → Text
  | .plus => text "+"
  | .minus => text "-"
  | .times => text "*"
  | .over => text "/"
  | .floorOver => text "//"
  | .modulo => text "%"
  | .power => text "**"
  | .equal => text "=="
  | .unequal => text "!="
  | .less => text "<"
  | .atMost => text "<="
  | .greater => text ">"
  | .atLeast => text ">="
  | .and => text "and"
  | .or => text "or"
  | .not => text "not"
  | .openParen => text "("
  | .closeParen => text ")"
  | .openBracket => text "["
  | .closeBracket => text "]"
  | .comma => text ","
  | .dot => text "."
  | .question => text "?"
  | .colon => text ":"

inductive SyntaxFault
  | empty
  | tooLong
  | tooDeep
  | unterminated (place : Nat)
  | strayUnit (u : CodeUnit) (place : Nat)
  | expected (symbol : Symbol) (place : Nat)
  | expectedName (place : Nat)
  | unexpected (symbol : Symbol) (place : Nat)
  | unexpectedEnd
  | trailing (place : Nat)
  /-- Reading went on past the last token; no text makes it so. -/
  | exhausted
deriving DecidableEq, Repr

def SyntaxFault.message : SyntaxFault → Text
  | .empty => text "empty expression"
  | .tooLong => text "expression too long"
  | .tooDeep => text "expression nested too deeply"
  | .unterminated place => text "unterminated string literal at " ++ Text.ofNat place
  | .strayUnit u place =>
    text "unexpected character '" ++ [u] ++ text "' at " ++ Text.ofNat place
  | .expected symbol place =>
    text "expected '" ++ symbol.spelling ++ text "' at " ++ Text.ofNat place
  | .expectedName place => text "expected name after '.' at " ++ Text.ofNat place
  | .unexpected symbol place =>
    text "unexpected '" ++ symbol.spelling ++ text "' at " ++ Text.ofNat place
  | .unexpectedEnd => text "unexpected end of expression"
  | .trailing place => text "unexpected input at " ++ Text.ofNat place
  | .exhausted => text "unexpected end of tokens"

end VirtualInstrument.Expression
