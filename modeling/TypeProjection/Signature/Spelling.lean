import TypeProjection.Signature.Builder

/-!
# Spelled types

Two builders that write types out as text.  `Builder.plain` spells the
productions that every builder represents and declines all others;
`Builder.spelled` spells every production.
-/

namespace TypeProjection.Signature

def NamedForm.name : NamedForm → String
  | classType => "Class"
  | valueType => "ValueType"

/-- Numbers between brackets, separated by commas. -/
def spellNumbers {α : Type} [ToString α] (numbers : List α) : String :=
  "[" ++ ", ".intercalate (numbers.map toString) ++ "]"

/-- The dimensions of an array, each list in full. -/
def Dimensions.spelling (dimensions : Dimensions) : String :=
  "[rank=" ++ toString dimensions.rank ++ " sizes=" ++ spellNumbers dimensions.sizes ++
    " lo=" ++ spellNumbers dimensions.lowerBounds ++ "]"

def CoreProduction.spelling : CoreProduction String → String
  | primitive code => code.name
  | definition handle form => "def" ++ toString handle.row ++ ":" ++ form.name
  | reference handle form => "ref" ++ toString handle.row ++ ":" ++ form.name
  | array element dimensions => element ++ dimensions.spelling
  | pointer element => element ++ "*"

def MethodSignature.spelling (signature : MethodSignature String) : String :=
  "fn<0x" ++ Text.upperHex 2 signature.header.raw.toNat ++ "/" ++
    toString signature.genericArity ++ ">(" ++ ", ".intercalate signature.parameters ++
    ") -> " ++ signature.returnType

def OptionalProduction.spelling : OptionalProduction String → String
  | vector element => element ++ "[]"
  | specification handle form => "spec" ++ toString handle.row ++ ":" ++ form.name
  | byReference element => "ref " ++ element
  | functionPointer signature => signature.spelling
  | genericInstance generic arguments =>
      generic ++ "<" ++ ", ".intercalate arguments ++ ">"
  | typeVariable index => "!" ++ toString index
  | methodVariable index => "!!" ++ toString index
  | modified modifier unmodified isRequired =>
      unmodified ++ (if isRequired then " modreq(" else " modopt(") ++ modifier ++ ")"
  | pinned element => element ++ " pinned"

namespace Builder

/-- Spells what every builder represents and declines everything else. -/
def plain : Builder String where
  core := CoreProduction.spelling

def spelled : Builder String where
  core := CoreProduction.spelling
  optional production := .ok production.spelling

end Builder

end TypeProjection.Signature
