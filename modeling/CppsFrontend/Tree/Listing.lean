import CppsFrontend.Token.Stream
import CppsFrontend.Tree.Basic

/-!
# Listing a tree

A tree is listed with one line for each node, parents before children: the depth,
the role in the parent, and the node with its attributes.  Lines are appended to
the lines before them.
-/

set_option autoImplicit false

namespace CppsFrontend.Listing

abbrev Lines := Array String

def node (lines : Lines) (depth : Nat) (role text : String) : Lines :=
  lines.push (toString depth ++ " " ++ role ++ " " ++ text)

def attributes (items : List (String × String)) : String :=
  String.join (items.map fun item => " " ++ item.1 ++ "=" ++ item.2)

def flag (value : Bool) : String := if value then "true" else "false"

def optionalLocation : Option Location → String
  | some location => location.bracedText
  | none => "-"

variable (stream : TokenStream)

def token (id : TokenId) : String := toString id ++ ":" ++ (stream.get id).text

def optionalToken : Option TokenId → String
  | some id => token stream id
  | none => "-"

def unqualifiedIdentifier (depth : Nat) (role : String) (name : UnqualifiedIdentifier)
    (lines : Lines) : Lines :=
  node lines depth role ("UnqualifiedIdentifier" ++ attributes [
    ("identifier", token stream name.identifier),
    ("const", optionalToken stream name.constant)])

/-- The role of a name in a qualified one: the `::` that leads to it. -/
def scopeRole (scope : Option TokenId) : String :=
  "term" ++ attributes [("scope", optionalToken stream scope)]

def identifier (depth : Nat) (name : Identifier) (lines : Lines) : Lines :=
  match name with
  | .unqualified name => unqualifiedIdentifier stream depth "name" name lines
  | .qualified first more =>
      let lines := node lines depth "name"
        ("QualifiedIdentifier" ++ attributes [("terms", toString (more.length + 1))])
      let lines := unqualifiedIdentifier stream (depth + 1) (scopeRole stream none) first lines
      more.foldl (fun lines name =>
        unqualifiedIdentifier stream (depth + 1) (scopeRole stream (some name.scope))
          name.identifier lines) lines

def identifierExpression (depth : Nat) (role : String) (expression : IdentifierExpression)
    (lines : Lines) : Lines :=
  identifier stream (depth + 1) expression.identifier
    (node lines depth role ("IdentifierExpression" ++
      attributes [("location", expression.location.bracedText)]))

def bounds (name : String) (count : Nat) (opening closing : Location) : String :=
  attributes [(name, toString count), ("open", opening.bracedText),
    ("close", closing.bracedText)]

def iterationName : IterationKind → String
  | .testBefore => "while"
  | .testAfter => "do-while"

mutual

def declaration (depth : Nat) (role : String) : Declaration → Lines → Lines
  | ⟨name, type, pointer, value, first, last, equal⟩, lines =>
      let isFunction := match type with
        | .function _ => true
        | .object _ => false
      let lines := node lines depth role ("Declaration" ++ attributes [
        ("function", flag isFunction), ("pointer", optionalToken stream pointer),
        ("start", first.bracedText), ("end", last.bracedText),
        ("equal", optionalLocation equal)])
      let lines := match name with
        | some name => unqualifiedIdentifier stream (depth + 1) "identifier" name lines
        | none => lines
      initializer (depth + 1) value (declarationType (depth + 1) type lines)

def initializer (depth : Nat) : Option Statement → Lines → Lines
  | some value, lines => statement depth "initializer" value lines
  | none, lines => lines

def declarationType (depth : Nat) : DeclarationType → Lines → Lines
  | .function ⟨⟨parameters, opening, closing⟩, throws, results⟩, lines =>
      let lines := node lines depth "type" ("FunctionSignature" ++
        attributes [("throws", flag throws)] ++
        bounds "parameters" parameters.length opening closing)
      returns (depth + 1) results (parameterItems (depth + 1) parameters lines)
  | .object type, lines => identifierExpression stream depth "type" type lines

def returns (depth : Nat) : Returns → Lines → Lines
  | .nothing, lines => node lines depth "returns" "Empty"
  | .value type, lines => identifierExpression stream depth "returns" type lines
  | .named ⟨parameters, opening, closing⟩, lines =>
      parameterItems (depth + 1) parameters (node lines depth "returns"
        ("ParameterDeclarationList" ++
          bounds "parameters" parameters.length opening closing))

def parameterItems (depth : Nat) : List Parameter → Lines → Lines
  | [], lines => lines
  | ⟨modifier, value, location⟩ :: rest, lines =>
      let lines := node lines depth "parameter" ("ParameterDeclaration" ++ attributes [
        ("modifier", modifier.spelling), ("location", location.bracedText)])
      parameterItems depth rest (declaration (depth + 1) "declaration" value lines)

def statement (depth : Nat) (role : String) : Statement → Lines → Lines
  | .declaration value, lines => declaration depth role value lines
  | .compound block, lines => compound depth role block lines
  | .expression value semicolon, lines =>
      expression (depth + 1) "expression" value (node lines depth role
        ("ExpressionStatement" ++ attributes [("semicolon", flag semicolon)]))
  | .iteration kind keyword condition body, lines =>
      let lines := node lines depth role ("IterationStatement" ++ attributes [
        ("kind", iterationName kind), ("keyword", token stream keyword)])
      compound (depth + 1) "body" body (expression (depth + 1) "condition" condition lines)
  | .result keyword value, lines =>
      resultValue (depth + 1) value (node lines depth role
        ("ReturnStatement" ++ attributes [("keyword", token stream keyword)]))
  | .selection keyword constant condition positive negative, lines =>
      let lines := node lines depth role ("SelectionStatement" ++ attributes [
        ("if", token stream keyword), ("constexpr", optionalToken stream constant)])
      let lines := expression (depth + 1) "condition" condition lines
      otherwise (depth + 1) negative (compound (depth + 1) "then" positive lines)

def resultValue (depth : Nat) : Option Expression → Lines → Lines
  | some value, lines => expression depth "expression" value lines
  | none, lines => lines

def otherwise (depth : Nat) : Option Compound → Lines → Lines
  | some block, lines => compound depth "else" block lines
  | none, lines => lines

def compound (depth : Nat) (role : String) : Compound → Lines → Lines
  | ⟨statements, opening, closing⟩, lines =>
      statementItems (depth + 1) statements (node lines depth role
        ("CompoundStatement" ++ bounds "statements" statements.length opening closing))

def statementItems (depth : Nat) : List Statement → Lines → Lines
  | [], lines => lines
  | first :: rest, lines => statementItems depth rest (statement depth "statement" first lines)

def expression (depth : Nat) (role : String) : Expression → Lines → Lines
  | .basic signs value terms, lines =>
      let lines := node lines depth role ("BasicExpression" ++ attributes [
        ("prefix", "[" ++ " ".intercalate (signs.map (token stream)) ++ "]"),
        ("postfix", toString terms.length)])
      postfixItems (depth + 1) terms (primary (depth + 1) value lines)
  | .chain level first terms, lines =>
      let lines := node lines depth role ("BinaryExpression" ++ attributes [
        ("precedence", level.name), ("terms", toString terms.length)])
      chainItems (depth + 1) terms (expression (depth + 1) "first" first lines)

def chainItems (depth : Nat) : List ChainTerm → Lines → Lines
  | [], lines => lines
  | ⟨operator, operand⟩ :: rest, lines =>
      chainItems depth rest (expression depth ("op=" ++ token stream operator) operand lines)

def primary (depth : Nat) : Primary → Lines → Lines
  | .token id, lines => node lines depth "primary" ("Token " ++ token stream id)
  | .list list, lines => expressionList depth "primary" list lines
  | .identifier name, lines => identifierExpression stream depth "primary" name lines
  | .function value, lines => declaration depth "primary" value lines

def postfixItems (depth : Nat) : List PostfixTerm → Lines → Lines
  | [], lines => lines
  | term :: rest, lines => postfixItems depth rest (postfixTerm depth term lines)

def postfixTerm (depth : Nat) : PostfixTerm → Lines → Lines
  | .operator id, lines =>
      lines.push (toString depth ++ " postfix" ++ attributes [
        ("op", token stream id), ("close", "-")])
  | .member id name, lines =>
      identifierExpression stream (depth + 1) "member" name
        (lines.push (toString depth ++ " postfix" ++ attributes [
          ("op", token stream id), ("close", "-")]))
  | .arguments id list close, lines =>
      expressionList (depth + 1) "arguments" list
        (lines.push (toString depth ++ " postfix" ++ attributes [
          ("op", token stream id), ("close", token stream close)]))

def expressionList (depth : Nat) (role : String) : ExpressionList → Lines → Lines
  | ⟨terms, opening, closing⟩, lines =>
      argumentItems (depth + 1) terms (node lines depth role
        ("ExpressionList" ++ bounds "terms" terms.length opening closing))

def argumentItems (depth : Nat) : List Argument → Lines → Lines
  | [], lines => lines
  | ⟨modifier, value⟩ :: rest, lines =>
      argumentItems depth rest
        (expression depth ("term modifier=" ++ modifier.spelling) value lines)

end

def file (declarations : List Declaration) : Lines :=
  declarations.foldl (fun lines value => declaration stream 0 "top" value lines) #[]

end CppsFrontend.Listing
