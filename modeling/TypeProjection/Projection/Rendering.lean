import TypeProjection.Metadata.Image
import TypeProjection.Projection.Naming
import TypeProjection.Projection.PrimitiveType
import TypeProjection.Projection.Substitutes
import TypeProjection.Projection.Trace

/-!
# Rendering descriptors

A descriptor is rendered as a type expression.  Pointers and arrays are written
around the rendering of their element.  A handle is rendered as follows.

1. The row that it names gives its simple name and, for a definition, whether it
   is an interface.  A reference never counts as an interface.
2. The name is qualified if the policy asks for it.
3. Where interfaces are managed references, some well-known names are written as
   a managed `object`.
4. A substitute for the simple name is written as it is.
5. Otherwise the generation of the type is requested and its name is written.
6. An interface is marked as a managed reference where interfaces are such, and
   is written as a pointer elsewhere.
-/

namespace TypeProjection

open TypeProjection.Metadata TypeProjection.Source

/-- All that rendering depends on. -/
structure RenderSetting where
  image : Image
  /-- Substitutes that are always used. -/
  builtin : Substitutes
  /-- Substitutes that are used after the others if the policy asks for them. -/
  marshaled : Substitutes
  policy : Policy

/-- The account of a rendering: its result, the requests it sends and the trace
it leaves. -/
structure Rendering where
  result : Except ProjectionError TypeExpr
  requests : List Request
  trace : List TraceEntry

namespace Rendering

def failed (error : ProjectionError) : Rendering :=
  ⟨.error error, [], []⟩

def map (f : TypeExpr → TypeExpr) (rendering : Rendering) : Rendering :=
  { rendering with result := rendering.result.map f }

def under (entry : TraceEntry) (rendering : Rendering) : Rendering :=
  { rendering with trace := entry :: rendering.trace }

end Rendering

/-- The names that are written as a managed object where interfaces are managed
references. -/
def objectNames : List String :=
  ["IUnknown", "IDispatch", "VARIANT"]

/-- What rendering reads from the row of a handle. -/
structure TypeInfo where
  name : String
  isInterface : Bool
  request : Request
  deriving DecidableEq, Repr

def Metadata.Image.typeInfo (image : Image) (handle : Handle) :
    Except ProjectionError TypeInfo :=
  match Request.ofHandle? handle with
  | none => .error (.unrecognizedKind handle.kind)
  | some (.definition definition) =>
      match image.definition? definition with
      | none => .error (.dangling handle)
      | some row => .ok ⟨row.name, row.isInterface, .definition definition⟩
  | some (.reference reference) =>
      match image.reference? reference with
      | none => .error (.dangling handle)
      | some row => .ok ⟨row.name, false, .reference reference⟩

namespace RenderSetting

/-- The substitute for a simple name among those that the policy enables. -/
def substitute? (setting : RenderSetting) (name : String) : Option TypeExpr :=
  match setting.builtin.get? name with
  | some substitute => some substitute
  | none =>
      if setting.policy.makes .marshaledSubstitutes then setting.marshaled.get? name
      else none

def writtenName (setting : RenderSetting) (handle : Handle) (info : TypeInfo) :
    Except ProjectionError DottedName :=
  if setting.policy.makes .qualifiedNames then setting.image.qualifiedName handle
  else .ok (.simple info.name)

def isObject (setting : RenderSetting) (name : String) : Bool :=
  setting.policy.makes .managedInterfaces && objectNames.contains name

/-- Renders a type by its name and requests its generation. -/
def renderNamed (setting : RenderSetting) (info : TypeInfo) (name : DottedName) :
    Rendering :=
  let requested (type : TypeExpr) (trace : List TraceEntry) : Rendering :=
    ⟨.ok type, [info.request], .requesting info.request :: trace⟩
  if info.isInterface then
    if setting.policy.makes .managedInterfaces then
      requested ((TypeExpr.ofName name).withMarks .managedReference)
        [.asManagedReference info.name]
    else
      requested (.pointerTo (.ofName name)) [.asPointer info.name]
  else
    requested (.ofName name) []

def renderResolved (setting : RenderSetting) (info : TypeInfo) (name : DottedName) :
    Rendering :=
  if setting.isObject info.name then
    ⟨.ok ((TypeExpr.ofKeyword .object).withMarks .managedReference), [],
      [.asObject info.name]⟩
  else
    match setting.substitute? info.name with
    | some substitute => ⟨.ok substitute, [], [.substituted info.name substitute]⟩
    | none => setting.renderNamed info name

def renderHandle (setting : RenderSetting) (handle : Handle) : Rendering :=
  match setting.image.typeInfo handle with
  | .error error => .failed error
  | .ok info =>
      match setting.writtenName handle info with
      | .error error => .failed error
      | .ok name => setting.renderResolved info name

end RenderSetting

namespace Descriptor

/-- Renders what stands at the leaf or around the rendered element. -/
def render (setting : RenderSetting) (descriptor : Descriptor) : Rendering :=
  Rendering.under (.rendering descriptor setting.policy) <|
    match descriptor with
    | primitive code =>
        ⟨.ok (code.typeExpr (setting.policy.makes .nativeWidth)), [], []⟩
    | named handle => setting.renderHandle handle
    | array element dimensions =>
        (element.render setting).map (.arrayOf · dimensions.sizes)
    | pointer element => (element.render setting).map .pointerTo

end Descriptor

end TypeProjection
