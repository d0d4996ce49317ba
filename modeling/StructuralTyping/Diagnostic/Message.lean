/-! The messages a check can report. Each has a number that tools match on, the
severity it is reported with unless a check overrides it, and a template. -/
namespace StructuralTyping

inductive Severity where
  | warning
  | error
deriving DecidableEq, Repr

namespace Severity

def text : Severity → String
  | warning => "warning"
  | error => "error"

end Severity

structure Message where
  code : Nat
  severity : Severity
  template : String
deriving DecidableEq, Repr

namespace Message

def returnOutsideFunction : Message :=
  ⟨1108, .error, "A 'return' statement can only be used within a function body."⟩

def returnTypesIncompatible : Message :=
  ⟨2202, .error, "Call signature return types '\x7b0\x7d' and '\x7b1\x7d' are incompatible."⟩

def duplicateIdentifier : Message :=
  ⟨2300, .error, "Duplicate identifier '\x7b0\x7d'."⟩

def cannotFindName : Message :=
  ⟨2304, .error, "Cannot find name '\x7b0\x7d'."⟩

def genericRequiresArguments : Message :=
  ⟨2314, .error, "Generic type '\x7b0\x7d' requires \x7b1\x7d type argument(s)."⟩

def notGeneric : Message :=
  ⟨2315, .error, "Type '\x7b0\x7d' is not generic."⟩

def notAssignable : Message :=
  ⟨2322, .error, "Type '\x7b0\x7d' is not assignable to type '\x7b1\x7d'."⟩

def propertyTypesIncompatible : Message :=
  ⟨2326, .error, "Types of property '\x7b0\x7d' are incompatible."⟩

def parameterTypesIncompatible : Message :=
  ⟨2328, .error, "Types of parameters '\x7b0\x7d' and '\x7b1\x7d' are incompatible."⟩

def noSuchProperty : Message :=
  ⟨2339, .error, "Property '\x7b0\x7d' does not exist on type '\x7b1\x7d'."⟩

def constraintUnsatisfied : Message :=
  ⟨2344, .error, "Type '\x7b0\x7d' does not satisfy the constraint '\x7b1\x7d'."⟩

def argumentNotAssignable : Message :=
  ⟨2345, .error,
    "Argument of type '\x7b0\x7d' is not assignable to parameter of type '\x7b1\x7d'."⟩

def notCallable : Message :=
  ⟨2349, .error, "This expression is not callable. Type '\x7b0\x7d' has no call signatures."⟩

def excessProperty : Message :=
  ⟨2353, .error, "Object literal may only specify known properties, and '\x7b0\x7d' does not exist in type '\x7b1\x7d'."⟩

def mustReturnValue : Message :=
  ⟨2355, .error, "A function whose declared type is neither 'undefined', 'void', nor 'any' must return a value."⟩

def operatorNotApplicable : Message :=
  ⟨2365, .error, "Operator '\x7b0\x7d' cannot be applied to types '\x7b1\x7d' and '\x7b2\x7d'."⟩

def conflictingInference : Message :=
  ⟨2453, .error, "The type argument for type parameter '\x7b0\x7d' cannot be inferred from the usage. Consider specifying the type arguments explicitly. Candidate '\x7b1\x7d' is not a valid type argument because it is not a supertype of candidate '\x7b2\x7d'."⟩

def argumentCount : Message :=
  ⟨2554, .error, "Expected \x7b0\x7d arguments, but got \x7b1\x7d."⟩

def typeArgumentCount : Message :=
  ⟨2558, .error, "Expected \x7b0\x7d type arguments, but got \x7b1\x7d."⟩

def propertyMissing : Message :=
  ⟨2741, .error,
    "Property '\x7b0\x7d' is missing in type '\x7b1\x7d' but required in type '\x7b2\x7d'."⟩

def tooFewArguments : Message :=
  ⟨2849, .error, "Target signature provides too few arguments. Expected \x7b0\x7d or more, but got \x7b1\x7d."⟩

def unresolvedTypeParameter : Message :=
  ⟨7062, .warning,
    "Type parameter '\x7b0\x7d' could not be inferred and defaults to 'unknown'."⟩

def all : List Message :=
  [returnOutsideFunction, returnTypesIncompatible, duplicateIdentifier, cannotFindName,
    genericRequiresArguments, notGeneric, notAssignable, propertyTypesIncompatible,
    parameterTypesIncompatible, noSuchProperty, constraintUnsatisfied, argumentNotAssignable,
    notCallable, excessProperty, mustReturnValue, operatorNotApplicable, conflictingInference,
    argumentCount, typeArgumentCount, propertyMissing, tooFewArguments, unresolvedTypeParameter]

/-- A message is known by its number. -/
def ofCode? (code : Nat) : Option Message :=
  all.find? fun message => message.code == code

end Message

end StructuralTyping
