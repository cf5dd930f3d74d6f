import Managed.Metadata.Table

namespace Managed.Metadata

inductive CodedIndex where
  | typeDefOrRef
  | hasConstant
  | hasCustomAttribute
  | hasFieldMarshal
  | hasDeclSecurity
  | memberRefParent
  | hasSemantics
  | methodDefOrRef
  | memberForwarded
  | implementation
  | customAttributeType
  | resolutionScope
  | typeOrMethodDef
deriving DecidableEq, Repr

namespace CodedIndex

def all : List CodedIndex :=
  [typeDefOrRef, hasConstant, hasCustomAttribute, hasFieldMarshal, hasDeclSecurity, memberRefParent,
    hasSemantics, methodDefOrRef, memberForwarded, implementation, customAttributeType,
    resolutionScope, typeOrMethodDef]

def name : CodedIndex → String
  | typeDefOrRef => "TypeDefOrRef"
  | hasConstant => "HasConstant"
  | hasCustomAttribute => "HasCustomAttribute"
  | hasFieldMarshal => "HasFieldMarshal"
  | hasDeclSecurity => "HasDeclSecurity"
  | memberRefParent => "MemberRefParent"
  | hasSemantics => "HasSemantics"
  | methodDefOrRef => "MethodDefOrRef"
  | memberForwarded => "MemberForwarded"
  | implementation => "Implementation"
  | customAttributeType => "CustomAttributeType"
  | resolutionScope => "ResolutionScope"
  | typeOrMethodDef => "TypeOrMethodDef"

/-- The tables in the order of their tags. A custom attribute type never has the tags 0, 1 and 4,
    which stand here for a table with a tag of its own. -/
def tables : CodedIndex → List Table
  | typeDefOrRef => [.typeDef, .typeRef, .typeSpec]
  | hasConstant => [.field, .param, .property]
  | hasCustomAttribute =>
    [.methodDef, .field, .typeRef, .typeDef, .param, .interfaceImpl, .memberRef, .moduleDef,
      .declSecurity, .property, .event, .standAloneSig, .moduleRef, .typeSpec, .assembly,
      .assemblyRef, .file, .exportedType, .manifestResource, .genericParam,
      .genericParamConstraint, .methodSpec]
  | hasFieldMarshal => [.field, .param]
  | hasDeclSecurity => [.typeDef, .methodDef, .assembly]
  | memberRefParent => [.typeDef, .typeRef, .moduleRef, .methodDef, .typeSpec]
  | hasSemantics => [.event, .property]
  | methodDefOrRef => [.methodDef, .memberRef]
  | memberForwarded => [.field, .methodDef]
  | implementation => [.file, .assemblyRef, .exportedType]
  | customAttributeType => [.methodDef, .methodDef, .methodDef, .memberRef, .memberRef]
  | resolutionScope => [.moduleDef, .moduleRef, .assemblyRef, .typeRef]
  | typeOrMethodDef => [.typeDef, .methodDef]

def tagBits (kind : CodedIndex) : Nat :=
  (kind.tables.length - 1).log2 + 1

end CodedIndex

end Managed.Metadata
