import StructuralTyping.Diagnostic.Basic
import StructuralTyping.Types.Display

/-! Why a type is not assignable to another one, and how that is reported: the
outermost pair becomes the message, the causes below it become related
information. -/
namespace StructuralTyping

inductive Mismatch where
  | incompatible (source target : TypeId)
  | missingProperty (name : String) (source target : TypeId)
  | property (name : String) (source target : TypeId) (cause : Mismatch)
  /-- Properties of a fresh literal that the target does not declare. -/
  | excessProperty (names : List String) (source target : TypeId)
  | tooFewArguments (source target : TypeId) (expected found : Nat)
  | parameter (index : Nat) (source target : TypeId) (cause : Mismatch)
  | returnType (source target : TypeId) (cause : Mismatch)
deriving DecidableEq, Repr

namespace Mismatch

def source : Mismatch → TypeId
  | incompatible s _ => s
  | missingProperty _ s _ => s
  | property _ s _ _ => s
  | excessProperty _ s _ => s
  | tooFewArguments s _ _ _ => s
  | parameter _ s _ _ => s
  | returnType s _ _ => s

def target : Mismatch → TypeId
  | incompatible _ t => t
  | missingProperty _ _ t => t
  | property _ _ t _ => t
  | excessProperty _ _ t => t
  | tooFewArguments _ t _ _ => t
  | parameter _ _ t _ => t
  | returnType _ t _ => t

def excessReport (table : TypeTable) (location : Location) (names : List String)
    (target : TypeId) : Diagnostic :=
  .atLocation location .excessProperty [Display.join "', '" names, table.text target]

/-- The name of a parameter of a function type, if it has one at that place. -/
def parameterName (table : TypeTable) (id : TypeId) (index : Nat) : String :=
  (((table.asFunction? id).bind fun f => f.parameters[index]?).map fun p => p.name).getD "?"

/-- A cause below the head is introduced by a line of its own, unless it names
the pair itself. -/
def introduction (table : TypeTable) : Mismatch → List Diagnostic
  | excessProperty _ _ _ => []
  | missingProperty _ _ _ => []
  | m => [.ofMessage .notAssignable [table.text m.source, table.text m.target]]

/-- The causes of a mismatch, outermost first. -/
def causes (table : TypeTable) : Mismatch → List Diagnostic
  | incompatible _ _ => []
  | missingProperty name source target =>
      [.ofMessage .propertyMissing [name, table.text source, table.text target]]
  | property name _ _ cause =>
      .ofMessage .propertyTypesIncompatible [name] ::
        (introduction table cause ++ causes table cause)
  | excessProperty names _ target => [excessReport table .unknown names target]
  | tooFewArguments _ _ expected found =>
      [.ofMessage .tooFewArguments [toString expected, toString found]]
  | parameter index source target cause =>
      .ofMessage .parameterTypesIncompatible
          [parameterName table source index, parameterName table target index] ::
        (introduction table cause ++ causes table cause)
  | returnType source target cause =>
      .ofMessage .returnTypesIncompatible [table.text source, table.text target] ::
        (introduction table cause ++ causes table cause)

/-- The diagnostic at a location. The head message receives the two types; excess
properties always have a message of their own. -/
def report (table : TypeTable) (location : Location) (head : Message) : Mismatch → Diagnostic
  | excessProperty names _ target => excessReport table location names target
  | m =>
      (m.causes table).foldl Diagnostic.withRelated
        (.atLocation location head [table.text m.source, table.text m.target])

/-- The causes do not change the number. -/
theorem code_report (table : TypeTable) (location : Location) (head : Message)
    (mismatch : Mismatch) :
    (mismatch.report table location head).code = head.code ∨
      (mismatch.report table location head).code = Message.excessProperty.code := by
  have kept : ∀ (causes : List Diagnostic) (d : Diagnostic),
      (causes.foldl Diagnostic.withRelated d).code = d.code := by
    intro causes
    induction causes with
    | nil => exact fun _ => rfl
    | cons cause rest ih => exact fun d => ih (d.withRelated cause)
  cases mismatch with
  | excessProperty names source target => exact .inr rfl
  | _ => exact .inl (kept _ _)

end Mismatch

end StructuralTyping
