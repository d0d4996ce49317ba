import StructuralTyping.Proofs.Findings

/-! Places that diagnostics and checkers mention. A diagnostic stands at a location, and
the file it is in is put on it and on its causes when it is reported. What is left of a
checker when files are not told apart has no file anywhere. -/
namespace StructuralTyping

namespace Diagnostic

/-- The diagnostic stands at one of the locations, and its causes have no causes of their
own. -/
structure Near (near : Location → Prop) (d : Diagnostic) : Prop where
  located : ∃ location, d.location = some location ∧ near location
  flat : ∀ cause ∈ d.related, cause.related = []

section Near
variable {near : Location → Prop} {location : Location} (here : near location)

include here

theorem near_atLocation (message : Message) (arguments : List String) :
    (atLocation location message arguments).Near near :=
  ⟨⟨location, rfl, here⟩, List.forall_mem_nil _⟩

theorem near_foldl_withRelated (message : Message) (arguments : List String)
    {causes : List Diagnostic} (flat : ∀ cause ∈ causes, cause.related = []) :
    (causes.foldl withRelated (atLocation location message arguments)).Near near := by
  have folded : ∀ (causes : List Diagnostic) (d : Diagnostic), d.Near near →
      (∀ cause ∈ causes, cause.related = []) → (causes.foldl withRelated d).Near near := by
    intro causes
    induction causes with
    | nil => exact fun _ whole _ => whole
    | cons cause rest ih =>
        intro d whole flat
        obtain ⟨first, later⟩ := List.forall_mem_cons.mp flat
        exact ih _ ⟨whole.located, List.forall_mem_append.mpr
          ⟨whole.flat, List.forall_mem_singleton.mpr first⟩⟩ later
  exact folded causes _ (near_atLocation here message arguments) flat

end Near

/-- Wherever it is put, a diagnostic stays near. -/
theorem near_inFile {near : Location → Prop} {d : Diagnostic} (close : d.Near near)
    (file : Option String) : (d.inFile file).Near near := by
  cases file with
  | none => exact close
  | some file =>
      rw [Diagnostic.inFile]
      split
      · exact close
      · refine ⟨close.located, fun cause member => ?_⟩
        obtain ⟨original, listed, rfl⟩ := List.mem_map.mp member
        exact close.flat original listed

/-- The diagnostic without the file that it is in. -/
def unplaced (d : Diagnostic) : Diagnostic :=
  { d with
    file := none
    related := d.related.map fun cause => { cause with file := none } }

theorem unplaced_withFile (d : Diagnostic) (file : String) :
    (d.withFile file).unplaced = d.unplaced := by
  simp [unplaced, withFile]

theorem unplaced_inFile (d : Diagnostic) (file : Option String) :
    (d.inFile file).unplaced = d.unplaced := by
  cases file with
  | none => rfl
  | some file =>
      rw [inFile]
      split
      · rfl
      · exact d.unplaced_withFile file

end Diagnostic

namespace Mismatch

theorem flat_introduction (table : TypeTable) (mismatch : Mismatch) :
    ∀ cause ∈ mismatch.introduction table, cause.related = [] := by
  cases mismatch <;> simp [introduction, Diagnostic.ofMessage]

/-- However deep a mismatch is, its causes are listed side by side. -/
theorem flat_causes (table : TypeTable) (mismatch : Mismatch) :
    ∀ cause ∈ mismatch.causes table, cause.related = [] := by
  induction mismatch with
  | incompatible => exact List.forall_mem_nil _
  | missingProperty => exact List.forall_mem_singleton.mpr rfl
  | excessProperty => exact List.forall_mem_singleton.mpr rfl
  | tooFewArguments => exact List.forall_mem_singleton.mpr rfl
  | property _ _ _ cause ih | parameter _ _ _ cause ih | returnType _ _ cause ih =>
      exact List.forall_mem_cons.mpr
        ⟨rfl, List.forall_mem_append.mpr ⟨flat_introduction table cause, ih⟩⟩

theorem near_report {near : Location → Prop} {location : Location} (here : near location)
    (table : TypeTable) (head : Message) (mismatch : Mismatch) :
    (mismatch.report table location head).Near near := by
  cases mismatch with
  | excessProperty => exact Diagnostic.near_atLocation here _ _
  | _ => exact Diagnostic.near_foldl_withRelated here _ _ (flat_causes table _)

end Mismatch

def DeclaredFunction.unplaced (f : DeclaredFunction) : DeclaredFunction := { f with file := none }

def DeferredConstraint.unplaced (check : DeferredConstraint) : DeferredConstraint :=
  { check with file := none }

/-- What is left of a checker when files are not told apart. -/
def Checker.unplaced (c : Checker) : Checker :=
  { c with
    diagnostics := ⟨c.diagnostics.toList.map Diagnostic.unplaced⟩
    files := []
    currentFile := none
    functions := c.functions.map DeclaredFunction.unplaced
    deferred := c.deferred.map DeferredConstraint.unplaced }

namespace Checker

/-- What is left of a checker when nothing is known of its reports: neither those made so
far nor the level at which unresolved type parameters are reported. -/
def unreported (c : Checker) : Checker :=
  { c with
    diagnostics := .empty
    options := { c.options with unresolvedTypeParameters := .off } }

/-- What is left of a checker when neither its files nor its reports are known. This is
what the checks of statements and expressions may depend on. -/
def bare (c : Checker) : Checker := c.unreported.unplaced

theorem getElem?_functions_unplaced (c : Checker) (index : Nat) :
    c.unplaced.functions[index]? = c.functions[index]?.map DeclaredFunction.unplaced :=
  Array.getElem?_map

theorem size_functions_unplaced (c : Checker) : c.unplaced.functions.size = c.functions.size :=
  Array.size_map

theorem getElem?_functions_bare (c : Checker) (index : Nat) :
    c.bare.functions[index]? = c.functions[index]?.map DeclaredFunction.unplaced :=
  c.unreported.getElem?_functions_unplaced index

theorem size_functions_bare (c : Checker) : c.bare.functions.size = c.functions.size :=
  c.unreported.size_functions_unplaced

theorem bare_unplaced (c : Checker) : c.unplaced.bare = c.bare := by
  simp [bare, unreported, unplaced, Function.comp_def, DeclaredFunction.unplaced,
    DeferredConstraint.unplaced]

end Checker

end StructuralTyping
