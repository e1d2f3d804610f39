import HaskellTags.Tree.Search

/-!
# The node types of Haskell

The names that the grammar of Haskell gives to the nodes an outline looks at.
-/

namespace HaskellTags
namespace Tree
namespace Grammar

/-- The root of a module. -/
def root : String := "haskell"

/-- The header of a module. -/
def header : String := "header"

/-- The block of imports. -/
def imports : String := "imports"

/-- One import. -/
def importNode : String := "import"

/-- The block of declarations. -/
def declarations : String := "declarations"

/-- A type synonym, in either spelling of the grammar. -/
def synonyms : List String := ["type_synomym", "type_synonym"]

/-- A data declaration. -/
def dataType : String := "data_type"

/-- A newtype declaration. -/
def newtype : String := "newtype"

/-- A type signature. -/
def signature : String := "signature"

/-- Declarations of constructors. -/
def constructors : List String := ["data_constructor", "gadt_constructor", "newtype_constructor"]

/-- A constructor declared with its type. -/
def typedConstructor : String := "gadt_constructor"

/-- Names of constructors. -/
def constructorNames : List String := ["constructor", "constructor_operator"]

/-- Names of types. -/
def typeNames : List String := ["name", "operator", "constructor_operator"]

/-- Names of functions. -/
def variableNames : List String := ["variable", "operator"]

/-- An operator in parentheses. -/
def parenthesized : List String := ["prefix_id"]

/-- Operators. -/
def symbols : List String := ["operator", "constructor_operator"]

/-- Comments of every kind. -/
def comments : List String := ["comment", "haddock", "pragma"]

/-- Names of modules. -/
def moduleNames : List String := ["module", "module_id"]

/-- An operator between its operands. -/
def infixForm : String := "infix"

/-- The token before a type. -/
def colons : String := "::"

/-- The tokens that end the head of a declaration. -/
def headEnds : List String := ["=", "where", colons]

/-- The word of a qualified import. -/
def qualifiedWord : String := "qualified"

/-- The word of an import that hides names. -/
def hidingWord : String := "hiding"

end Grammar

namespace Node

/-- Whether a node is a comment. -/
def isComment (n : Node) : Bool :=
  Grammar.comments.contains n.type

/-- The children before the token that ends a declaration's head. -/
def headChildren (n : Node) : List Node :=
  n.children.takeWhile fun c => !Grammar.headEnds.contains c.type

end Node
end Tree
end HaskellTags
