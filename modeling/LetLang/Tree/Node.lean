import LetLang.Json
import LetLang.Token.Basic
import LetLang.Text.Quoted

/-
  Syntax trees in general: nodes of any kind over nodes of
  any kind.

  Nothing is assumed about which nodes stand below which, so
  this type also holds trees that no source text has, such
  as a statement as an operand. A node keeps the token that
  it was built from.

  Three views of a node are defined: its rendering, in which
  every operator has parentheses; its description, which
  names the fields; and its record, which can be written as
  JSON.

  Key definitions include:
    * `Node`
    * `Node.token`
    * `Node.describe`
    * `Node.render`
    * `Node.record`
    * `Node.renderAll`
-/

namespace LetLang

------------------------------------------------------------
-- Nodes
------------------------------------------------------------

/- A tree of any shape. -/
inductive Node where
  | bare (token : Token)
  | ident (token : Token)
  | int (token : Token) (value : Nat)
  | bool (token : Token) (value : Bool)
  | prefixOp (token : Token) (right : Node)
  | infixOp (token : Token) (left right : Node)
  | letStmt (token : Token) (name value : Node)
  | returnStmt (token : Token) (value : Node)
  | exprStmt (token : Token) (expression : Node)
  deriving DecidableEq, Repr

namespace Node

/- The token that a node was built from. -/
def token : Node → Token
  | .bare token => token
  | .ident token => token
  | .int token _ => token
  | .bool token _ => token
  | .prefixOp token _ => token
  | .infixOp token _ _ => token
  | .letStmt token _ _ => token
  | .returnStmt token _ => token
  | .exprStmt token _ => token

------------------------------------------------------------
-- Description
------------------------------------------------------------

/- The name of a node's kind with its fields and values. -/
def describe : Node → String
  | .bare _ => "Node()"
  | .ident token =>
      "Identifier(value=" ++ Text.quoted token.literal
        ++ ")"
  | .int _ value =>
      "IntegerLiteral(value=" ++ toString value ++ ")"
  | .bool _ true => "Boolean(value=True)"
  | .bool _ false => "Boolean(value=False)"
  | .prefixOp token right =>
      "PrefixExpression(operator="
        ++ Text.quoted token.literal
        ++ ", right=" ++ right.describe ++ ")"
  | .infixOp token left right =>
      "InfixExpression(left=" ++ left.describe
        ++ ", operator=" ++ Text.quoted token.literal
        ++ ", right=" ++ right.describe ++ ")"
  | .letStmt _ name value =>
      "LetStatement(name=" ++ name.describe
        ++ ", value=" ++ value.describe ++ ")"
  | .returnStmt _ value =>
      "ReturnStatement(value=" ++ value.describe ++ ")"
  | .exprStmt _ expression =>
      "ExpressionStatement(expression="
        ++ expression.describe ++ ")"

------------------------------------------------------------
-- Rendering
------------------------------------------------------------

/-
  The text of a node. Operators are put in parentheses, and
  a statement opens with the text of its own token. A bare
  node has no text and shows its description.
-/
def render : Node → String
  | .bare token => (Node.bare token).describe
  | .ident token => token.literal
  | .int _ value => toString value
  | .bool _ true => "true"
  | .bool _ false => "false"
  | .prefixOp token right =>
      "(" ++ token.literal ++ right.render ++ ")"
  | .infixOp token left right =>
      "(" ++ left.render ++ " " ++ token.literal ++ " "
        ++ right.render ++ ")"
  | .letStmt token name value =>
      token.literal ++ " " ++ name.render ++ " = "
        ++ value.render ++ ";"
  | .returnStmt token value =>
      token.literal ++ " " ++ value.render ++ ";"
  | .exprStmt _ expression => expression.render

/- The renderings of a list of nodes, one after the other. -/
def renderAll
    (nodes : List Node) : String :=
  String.join (nodes.map render)

------------------------------------------------------------
-- Records
------------------------------------------------------------

/- The record of a node of a given kind and its fields. -/
def recordOf
    (kind : String)
    (token : Token)
    (fields : List (String × Json)) : Json :=
  .obj (("kind", .str kind)
    :: ("literal", .str token.literal) :: fields)

/- The nested record of a node. -/
def record : Node → Json
  | .bare token => recordOf "node" token []
  | .ident token =>
      recordOf "identifier" token
        [("value", .str token.literal)]
  | .int token value =>
      recordOf "integer" token [("value", .num value)]
  | .bool token value =>
      recordOf "boolean" token [("value", .bool value)]
  | .prefixOp token right =>
      recordOf "prefix" token
        [("operator", .str token.literal),
          ("right", right.record)]
  | .infixOp token left right =>
      recordOf "infix" token
        [("left", left.record),
          ("operator", .str token.literal),
          ("right", right.record)]
  | .letStmt token name value =>
      recordOf "let" token
        [("name", name.record), ("value", value.record)]
  | .returnStmt token value =>
      recordOf "return" token [("value", value.record)]
  | .exprStmt token expression =>
      recordOf "expression" token
        [("expression", expression.record)]

end Node

end LetLang
