/-! The kinds of report: their names in `@suppress` tags, the groups that silence several
kinds at once, and how serious each is. -/
namespace GradualJs

inductive Level where
  | error
  | warning
  deriving DecidableEq

def Level.name : Level → String
  | .error => "error"
  | .warning => "warning"

inductive DiagnosticFamily where
  | valueMismatch
  | declarationConflict
  | structuralMisuse
  | generics
  deriving DecidableEq

def DiagnosticFamily.name : DiagnosticFamily → String
  | .valueMismatch => "value_mismatch"
  | .declarationConflict => "declaration_conflict"
  | .structuralMisuse => "structural_misuse"
  | .generics => "generics"

inductive DiagnosticKind where
  | mistypedAssignRhs
  | invalidArgumentType
  | returnTypeMismatch
  | missingReturnStatement
  | invalidOperandType
  | invalidIndexType
  | invalidCast
  | invalidThisType
  | constReassigned
  | constPropertyReassigned
  | wrongArgumentCount
  | unknownExpressionType
  | redeclaredProperty
  | invalidPropertyOverride
  | interfaceMemberNotImplemented
  | superInterfaceConflict
  | abstractMethodInConcreteClass
  | abstractMethodNotImplemented
  | structDictInheritanceMismatch
  | inheritanceCycle
  | constWithoutInitializer
  | enumInitializerNotObjectLiteral
  | duplicateEnumKey
  | invalidEnumBackingType
  | enumMemberTypeMismatch
  | cyclicTypedef
  | malformedTypedef
  | duplicateTypeDeclaration
  | misplacedTag
  | requiredAfterOptional
  | restNotLast
  | unrecognizedTypeName
  | incompatibleReceiverUnion
  | uninhabitableType
  | requiresTranspilation
  | notCallable
  | notAConstructor
  | constructorCalledWithoutNew
  | cannotInstantiateInterface
  | cannotInstantiateAbstractClass
  | nullableDereference
  | propertyAccessOnNonObject
  | inexistentProperty
  | possiblyInexistentProperty
  | illegalPropertyCreationOnStruct
  | illegalBracketAccessOnStruct
  | illegalDotAccessOnDict
  | undefinedName
  | invalidInstanceofTarget
  | genericArgumentsOnNonGenericType
  | wrongTypeArgumentCount
  | notUniqueInstantiation
  | conflictingExtendedType
  | implementsNonInterface
  deriving DecidableEq

namespace DiagnosticKind

def name : DiagnosticKind → String
  | .mistypedAssignRhs => "mistypedAssignRhs"
  | .invalidArgumentType => "invalidArgumentType"
  | .returnTypeMismatch => "returnTypeMismatch"
  | .missingReturnStatement => "missingReturnStatement"
  | .invalidOperandType => "invalidOperandType"
  | .invalidIndexType => "invalidIndexType"
  | .invalidCast => "invalidCast"
  | .invalidThisType => "invalidThisType"
  | .constReassigned => "constReassigned"
  | .constPropertyReassigned => "constPropertyReassigned"
  | .wrongArgumentCount => "wrongArgumentCount"
  | .unknownExpressionType => "unknownExpressionType"
  | .redeclaredProperty => "redeclaredProperty"
  | .invalidPropertyOverride => "invalidPropertyOverride"
  | .interfaceMemberNotImplemented => "interfaceMemberNotImplemented"
  | .superInterfaceConflict => "superInterfaceConflict"
  | .abstractMethodInConcreteClass => "abstractMethodInConcreteClass"
  | .abstractMethodNotImplemented => "abstractMethodNotImplemented"
  | .structDictInheritanceMismatch => "structDictInheritanceMismatch"
  | .inheritanceCycle => "inheritanceCycle"
  | .constWithoutInitializer => "constWithoutInitializer"
  | .enumInitializerNotObjectLiteral => "enumInitializerNotObjectLiteral"
  | .duplicateEnumKey => "duplicateEnumKey"
  | .invalidEnumBackingType => "invalidEnumBackingType"
  | .enumMemberTypeMismatch => "enumMemberTypeMismatch"
  | .cyclicTypedef => "cyclicTypedef"
  | .malformedTypedef => "malformedTypedef"
  | .duplicateTypeDeclaration => "duplicateTypeDeclaration"
  | .misplacedTag => "misplacedAnnotation"
  | .requiredAfterOptional => "requiredAfterOptional"
  | .restNotLast => "restNotLast"
  | .unrecognizedTypeName => "unrecognizedTypeName"
  | .incompatibleReceiverUnion => "incompatibleReceiverUnion"
  | .uninhabitableType => "uninhabitableType"
  | .requiresTranspilation => "requiresTranspilation"
  | .notCallable => "notCallable"
  | .notAConstructor => "notAConstructor"
  | .constructorCalledWithoutNew => "constructorCalledWithoutNew"
  | .cannotInstantiateInterface => "cannotInstantiateInterface"
  | .cannotInstantiateAbstractClass => "cannotInstantiateAbstractClass"
  | .nullableDereference => "nullableDereference"
  | .propertyAccessOnNonObject => "propertyAccessOnNonObject"
  | .inexistentProperty => "inexistentProperty"
  | .possiblyInexistentProperty => "possiblyInexistentProperty"
  | .illegalPropertyCreationOnStruct => "illegalPropertyCreationOnStruct"
  | .illegalBracketAccessOnStruct => "illegalBracketAccessOnStruct"
  | .illegalDotAccessOnDict => "illegalDotAccessOnDict"
  | .undefinedName => "undefinedName"
  | .invalidInstanceofTarget => "invalidInstanceofTarget"
  | .genericArgumentsOnNonGenericType => "genericArgumentsOnNonGenericType"
  | .wrongTypeArgumentCount => "wrongTypeArgumentCount"
  | .notUniqueInstantiation => "notUniqueInstantiation"
  | .conflictingExtendedType => "conflictingExtendedType"
  | .implementsNonInterface => "implementsNonInterface"

def tag : DiagnosticKind → String
  | .mistypedAssignRhs => "MistypedAssignRhs"
  | .invalidArgumentType => "InvalidArgumentType"
  | .returnTypeMismatch => "ReturnTypeMismatch"
  | .missingReturnStatement => "MissingReturnStatement"
  | .invalidOperandType => "InvalidOperandType"
  | .invalidIndexType => "InvalidIndexType"
  | .invalidCast => "InvalidCast"
  | .invalidThisType => "InvalidThisType"
  | .constReassigned => "ConstReassigned"
  | .constPropertyReassigned => "ConstPropertyReassigned"
  | .wrongArgumentCount => "WrongArgumentCount"
  | .unknownExpressionType => "UnknownExpressionType"
  | .redeclaredProperty => "RedeclaredProperty"
  | .invalidPropertyOverride => "InvalidPropertyOverride"
  | .interfaceMemberNotImplemented => "InterfaceMemberNotImplemented"
  | .superInterfaceConflict => "SuperInterfaceConflict"
  | .abstractMethodInConcreteClass => "AbstractMethodInConcreteClass"
  | .abstractMethodNotImplemented => "AbstractMethodNotImplemented"
  | .structDictInheritanceMismatch => "StructDictInheritanceMismatch"
  | .inheritanceCycle => "InheritanceCycle"
  | .constWithoutInitializer => "ConstWithoutInitializer"
  | .enumInitializerNotObjectLiteral => "EnumInitializerNotObjectLiteral"
  | .duplicateEnumKey => "DuplicateEnumKey"
  | .invalidEnumBackingType => "InvalidEnumBackingType"
  | .enumMemberTypeMismatch => "EnumMemberTypeMismatch"
  | .cyclicTypedef => "CyclicTypedef"
  | .malformedTypedef => "MalformedTypedef"
  | .duplicateTypeDeclaration => "DuplicateTypeDeclaration"
  | .misplacedTag => "MisplacedAnnotation"
  | .requiredAfterOptional => "RequiredAfterOptional"
  | .restNotLast => "RestNotLast"
  | .unrecognizedTypeName => "UnrecognizedTypeName"
  | .incompatibleReceiverUnion => "IncompatibleReceiverUnion"
  | .uninhabitableType => "UninhabitableType"
  | .requiresTranspilation => "RequiresTranspilation"
  | .notCallable => "NotCallable"
  | .notAConstructor => "NotAConstructor"
  | .constructorCalledWithoutNew => "ConstructorCalledWithoutNew"
  | .cannotInstantiateInterface => "CannotInstantiateInterface"
  | .cannotInstantiateAbstractClass => "CannotInstantiateAbstractClass"
  | .nullableDereference => "NullableDereference"
  | .propertyAccessOnNonObject => "PropertyAccessOnNonObject"
  | .inexistentProperty => "InexistentProperty"
  | .possiblyInexistentProperty => "PossiblyInexistentProperty"
  | .illegalPropertyCreationOnStruct => "IllegalPropertyCreationOnStruct"
  | .illegalBracketAccessOnStruct => "IllegalBracketAccessOnStruct"
  | .illegalDotAccessOnDict => "IllegalDotAccessOnDict"
  | .undefinedName => "UndefinedName"
  | .invalidInstanceofTarget => "InvalidInstanceofTarget"
  | .genericArgumentsOnNonGenericType => "GenericArgumentsOnNonGenericType"
  | .wrongTypeArgumentCount => "WrongTypeArgumentCount"
  | .notUniqueInstantiation => "NotUniqueInstantiation"
  | .conflictingExtendedType => "ConflictingExtendedType"
  | .implementsNonInterface => "ImplementsNonInterface"

def all : List DiagnosticKind := [
  .mistypedAssignRhs,.invalidArgumentType,.returnTypeMismatch,.missingReturnStatement,
  .invalidOperandType,.invalidIndexType,.invalidCast,.invalidThisType,.constReassigned,
  .constPropertyReassigned,.wrongArgumentCount,.unknownExpressionType,.redeclaredProperty,
  .invalidPropertyOverride,.interfaceMemberNotImplemented,.superInterfaceConflict,
  .abstractMethodInConcreteClass,.abstractMethodNotImplemented,.structDictInheritanceMismatch,
  .inheritanceCycle,.constWithoutInitializer,.enumInitializerNotObjectLiteral,
  .duplicateEnumKey,.invalidEnumBackingType,.enumMemberTypeMismatch,.cyclicTypedef,
  .malformedTypedef,.duplicateTypeDeclaration,.misplacedTag,.requiredAfterOptional,
  .restNotLast,.unrecognizedTypeName,.incompatibleReceiverUnion,.uninhabitableType,
  .requiresTranspilation,.notCallable,.notAConstructor,.constructorCalledWithoutNew,
  .cannotInstantiateInterface,.cannotInstantiateAbstractClass,.nullableDereference,
  .propertyAccessOnNonObject,.inexistentProperty,.possiblyInexistentProperty,
  .illegalPropertyCreationOnStruct,.illegalBracketAccessOnStruct,.illegalDotAccessOnDict,
  .undefinedName,.invalidInstanceofTarget,.genericArgumentsOnNonGenericType,
  .wrongTypeArgumentCount,.notUniqueInstantiation,.conflictingExtendedType,
  .implementsNonInterface]

def ofTag? (tag : String) : Option DiagnosticKind := all.find? (·.tag = tag)

def family : DiagnosticKind → DiagnosticFamily
  | .mistypedAssignRhs | .invalidArgumentType | .returnTypeMismatch | .missingReturnStatement
  | .invalidOperandType | .invalidIndexType | .invalidCast | .invalidThisType
  | .constReassigned | .constPropertyReassigned | .wrongArgumentCount
  | .unknownExpressionType => .valueMismatch
  | .notCallable | .notAConstructor | .constructorCalledWithoutNew
  | .cannotInstantiateInterface | .cannotInstantiateAbstractClass | .nullableDereference
  | .propertyAccessOnNonObject | .inexistentProperty | .possiblyInexistentProperty
  | .illegalPropertyCreationOnStruct | .illegalBracketAccessOnStruct | .illegalDotAccessOnDict
  | .undefinedName | .invalidInstanceofTarget => .structuralMisuse
  | .genericArgumentsOnNonGenericType | .wrongTypeArgumentCount | .notUniqueInstantiation
  | .conflictingExtendedType | .implementsNonInterface => .generics
  | _ => .declarationConflict

/-- A group name silences every kind of the group. -/
def group : DiagnosticKind → String
  | .inexistentProperty | .possiblyInexistentProperty => "missingProperties"
  | .missingReturnStatement => "missingReturn"
  | .constReassigned | .constPropertyReassigned | .constWithoutInitializer => "const"
  | .unknownExpressionType => "reportUnknownTypes"
  | .illegalPropertyCreationOnStruct | .illegalBracketAccessOnStruct
  | .illegalDotAccessOnDict | .structDictInheritanceMismatch => "strictAccess"
  | .undefinedName => "undefinedVars"
  | .requiresTranspilation => "transpilation"
  | _ => "checkTypes"

def defaultLevel : DiagnosticKind → Level
  | .unknownExpressionType | .possiblyInexistentProperty | .requiresTranspilation => .warning
  | _ => .error

end DiagnosticKind
end GradualJs
