/-!
# Qualified names

A name of the generated source: the segments that enclose it, outermost first,
and its own segment.  A global name starts at the root of all namespaces and is
written with the alias `global::` in front.
-/

namespace TypeProjection.Source

/-- A dotted name, which has at least one segment. -/
structure DottedName where
  isGlobal : Bool
  /-- The enclosing segments, outermost first. -/
  enclosing : List String
  /-- The rightmost segment. -/
  leaf : String
  deriving DecidableEq, Repr

namespace DottedName

def globalAlias : String := "global::"

def simple (name : String) : DottedName :=
  ⟨false, [], name⟩

/-- The name of a leaf inside enclosing segments, outermost first. -/
def nested (enclosing : List String) (leaf : String) : DottedName :=
  ⟨false, enclosing, leaf⟩

def member (name : DottedName) (leaf : String) : DottedName :=
  ⟨name.isGlobal, name.enclosing ++ [name.leaf], leaf⟩

/-- All segments, outermost first. -/
def segments (name : DottedName) : List String :=
  name.enclosing ++ [name.leaf]

def isQualified (name : DottedName) : Bool :=
  !name.enclosing.isEmpty

def text (name : DottedName) : String :=
  (if name.isGlobal then globalAlias else "") ++ ".".intercalate name.segments

/-- The name with the given segments; without any, its leaf is empty. -/
def ofSegments (isGlobal : Bool) (segments : List String) : DottedName :=
  ⟨isGlobal, segments.dropLast, segments.getLastD ""⟩

/-- Splits a text at its dots and drops the empty pieces. -/
def pieces (text : List Char) : List String :=
  ((text.splitOn '.').filter fun piece => !piece.isEmpty).map String.ofList

/-- Reads a name.  Empty segments are dropped, and a text without any other is
read as a single empty segment. -/
def parse (text : String) : DottedName :=
  match globalAlias.toList.isPrefixOf? text.toList with
  | some rest => ofSegments true (pieces rest)
  | none => ofSegments false (pieces text.toList)

end DottedName

end TypeProjection.Source
