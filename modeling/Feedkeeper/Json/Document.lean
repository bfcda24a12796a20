import Feedkeeper.Json.Token

/-!
# JSON documents

A document is a JSON text without its layout: white space and the spelling of strings are gone,
while the order of members and repeated keys are still there. `ofTokens?` builds a document from
tokens with a stack of open containers, so that a document may nest as deeply as the text does;
`tokens` lists a document's tokens, without which no document is written. `read?` and `render`
join both with the cutting and the writing of tokens.
-/

namespace Feedkeeper.Json

/-- A JSON text without its layout. -/
inductive Document where
  | null
  | bool (value : Bool)
  | number (numeral : Numeral)
  | string (text : Option String)
  | array (items : List Document)
  | object (members : List (Option String × Document))

namespace Document

/-- A member of an object. -/
abbrev Member := Option String × Document

/-! ## Reading -/

/-- A container part way through, with what is in it so far, the last first. -/
inductive Frame where
  | array (items : List Document)
  | object (members : List Member)
  /-- An object of which the value of `key` is being read. -/
  | member (members : List Member) (key : Option String)

/-- What may come next. -/
inductive Expected where
  | value
  /-- A value, or the end of an array that is still empty. -/
  | firstItem
  | key
  /-- A key, or the end of an object that is still empty. -/
  | firstKey
  | colon
  /-- A comma, or the end of the container. -/
  | separator

/-- A reader between two tokens. -/
inductive Reader where
  | within (expected : Expected) (stack : List Frame)
  | complete (document : Document)

/-- A value read in full goes into the innermost container. -/
def Reader.put? (document : Document) : List Frame → Option Reader
  | [] => some (.complete document)
  | .array items :: stack => some (.within .separator (.array (document :: items) :: stack))
  | .member members key :: stack =>
    some (.within .separator (.object ((key, document) :: members) :: stack))
  | .object _ :: _ => none

/-- Ends the innermost container, if it is an array. -/
def Reader.closeBracket? : List Frame → Option Reader
  | .array items :: stack => put? (.array items.reverse) stack
  | _ => none

/-- Ends the innermost container, if it is an object. -/
def Reader.closeBrace? : List Frame → Option Reader
  | .object members :: stack => put? (.object members.reverse) stack
  | _ => none

/-- A token where a value is expected. -/
def Reader.value? (stack : List Frame) : Token → Option Reader
  | .null => put? .null stack
  | .bool value => put? (.bool value) stack
  | .number numeral => put? (.number numeral) stack
  | .string text => put? (.string text) stack
  | .openBracket => some (.within .firstItem (.array [] :: stack))
  | .openBrace => some (.within .firstKey (.object [] :: stack))
  | .closeBracket | .closeBrace | .colon | .comma => none

/-- A token where a key is expected. -/
def Reader.key? : List Frame → Token → Option Reader
  | .object members :: stack, .string key => some (.within .colon (.member members key :: stack))
  | _, _ => none

/-- A token behind a value in a container. -/
def Reader.separator? : List Frame → Token → Option Reader
  | stack, .closeBracket => closeBracket? stack
  | stack, .closeBrace => closeBrace? stack
  | .array items :: stack, .comma => some (.within .value (.array items :: stack))
  | .object members :: stack, .comma => some (.within .key (.object members :: stack))
  | _, _ => none

/-- The reader after one more token. -/
def Reader.step? : Reader → Token → Option Reader
  | .complete _, _ => none
  | .within .value stack, token => value? stack token
  | .within .firstItem stack, token =>
    if token = .closeBracket then closeBracket? stack else value? stack token
  | .within .key stack, token => key? stack token
  | .within .firstKey stack, token =>
    if token = .closeBrace then closeBrace? stack else key? stack token
  | .within .colon stack, token => if token = .colon then some (.within .value stack) else none
  | .within .separator stack, token => separator? stack token

/-- The reader after all of the tokens. -/
def Reader.run? : Reader → List Token → Option Reader
  | reader, [] => some reader
  | reader, token :: rest =>
    match reader.step? token with
    | some reader => run? reader rest
    | none => none

/-- The document of the tokens, if they are one value. -/
def ofTokens? (tokens : List Token) : Option Document :=
  match Reader.run? (.within .value []) tokens with
  | some (.complete document) => some document
  | _ => none

/-- The document of a text. -/
def read? (text : String) : Option Document :=
  (Token.scan? text.toList).bind ofTokens?

/-! ## Writing -/

mutual

/-- The tokens of a document. -/
def tokens : Document → List Token
  | .null => [.null]
  | .bool value => [.bool value]
  | .number numeral => [.number numeral]
  | .string text => [.string text]
  | .array [] => [.openBracket, .closeBracket]
  | .array (item :: rest) => .openBracket :: (tokens item ++ itemTokens rest)
  | .object [] => [.openBrace, .closeBrace]
  | .object (member :: rest) =>
    .openBrace :: .string member.1 :: .colon :: (tokens member.2 ++ memberTokens rest)

/-- The tokens of the items that follow another one, up to the end of the array. -/
def itemTokens : List Document → List Token
  | [] => [.closeBracket]
  | item :: rest => .comma :: (tokens item ++ itemTokens rest)

/-- The tokens of the members that follow another one, up to the end of the object. -/
def memberTokens : List (Option String × Document) → List Token
  | [] => [.closeBrace]
  | member :: rest =>
    .comma :: .string member.1 :: .colon :: (tokens member.2 ++ memberTokens rest)

end

/-- The text of a document, without white space. -/
def render (document : Document) : String :=
  String.ofList (document.tokens.flatMap Token.text)

end Document

end Feedkeeper.Json
