import StructuralTyping.Proofs.RevealedParameters

/-! What resolving a type comes to. The body of an instantiated type is looked up if it has
been made before, and made and remembered otherwise; while the body of the origin is not
built, there is nothing to make it from. -/
namespace StructuralTyping

open TableM (Yields)
open TypeTable

namespace TypeTable

/-- The ways in which a type is resolved. -/
inductive Resolves (t : TypeTable) (id : TypeId) : TypeId → TypeTable → Prop where
  | plain (plain : t.flag id ≠ .instantiated) : Resolves t id id t
  | remembered {i : InstantiatedType} {body : TypeId} (entry : t.kind id = .instantiated i)
      (found : t.resolved.find? (instantiationKey i) = some body) : Resolves t id body t
  | pending {i : InstantiatedType} {g : GenericType} (entry : t.kind id = .instantiated i)
      (unmade : t.resolved.find? (instantiationKey i) = none)
      (origin : t.kind i.origin = .generic g) (pending : t.kind g.body = .pending) :
      Resolves t id g.body t
  | made {i : InstantiatedType} {g : GenericType} {body : TypeId} {u : TypeTable}
      (entry : t.kind id = .instantiated i)
      (unmade : t.resolved.find? (instantiationKey i) = none)
      (origin : t.kind i.origin = .generic g) (built : t.kind g.body ≠ .pending)
      (run : (substitute g.body (g.bind i.bindings.values)).run t = (body, u)) :
      Resolves t id body (u.remember (instantiationKey i) body)
  | stray {i : InstantiatedType} (entry : t.kind id = .instantiated i)
      (unmade : t.resolved.find? (instantiationKey i) = none)
      (stray : ∀ g, t.kind i.origin ≠ .generic g) : Resolves t id TypeId.unknown t

theorem flag_ne_instantiated {t : TypeTable} {id : TypeId}
    (plain : ∀ i, t.kind id ≠ .instantiated i) : t.flag id ≠ .instantiated := by
  intro instantiated
  cases entry : t.kind id with
  | instantiated i => exact plain i entry
  | _ => simp [flag, entry, TypeKind.flag] at instantiated

theorem resolves (t : TypeTable) (id : TypeId) : Yields (resolve id) t (t.Resolves id) := by
  have read : Yields (get : TableM TypeTable) t fun u t' => u = t ∧ t' = t := ⟨rfl, rfl⟩
  refine read.bind ?_
  rintro _ t ⟨rfl, rfl⟩
  split
  · next i entry =>
      dsimp only
      split
      · next body found => exact .pure (.remembered entry found)
      · next unmade =>
          split
          · next g origin =>
              split
              · next pending => exact .pure (.pending entry unmade origin pending)
              · next built =>
                  have made : Yields (substitute g.body (g.bind i.bindings.values)) t
                      fun body u => (substitute g.body (g.bind i.bindings.values)).run t =
                        (body, u) := rfl
                  exact made.bind fun body u run => Resolves.made entry unmade origin built run
          · next stray => exact .pure (.stray entry unmade stray)
  · next plain => exact .pure (.plain (flag_ne_instantiated plain))

section Runs
variable {t : TypeTable} {id : TypeId}

theorem run_resolve_plain (plain : t.flag id ≠ .instantiated) : (resolve id).run t = (id, t) := by
  have resolves := t.resolves id
  unfold Yields at resolves
  generalize (resolve id).run t = outcome at resolves ⊢
  obtain ⟨body, t'⟩ := outcome
  dsimp only at resolves
  cases resolves with
  | plain => rfl
  | remembered entry | pending entry | made entry | stray entry =>
      exact absurd (congrArg TypeKind.flag entry) plain

theorem run_resolve_remembered {i : InstantiatedType} {body : TypeId}
    (entry : t.kind id = .instantiated i)
    (found : t.resolved.find? (instantiationKey i) = some body) :
    (resolve id).run t = (body, t) := by
  have resolves := t.resolves id
  unfold Yields at resolves
  generalize (resolve id).run t = outcome at resolves ⊢
  obtain ⟨body', t'⟩ := outcome
  dsimp only at resolves
  cases resolves with
  | plain plain => exact absurd (congrArg TypeKind.flag entry) plain
  | remembered entry' found' =>
      obtain rfl := TypeKind.instantiated.inj (entry'.symm.trans entry)
      obtain rfl := Option.some.inj (found'.symm.trans found)
      rfl
  | pending entry' unmade | made entry' unmade | stray entry' unmade =>
      obtain rfl := TypeKind.instantiated.inj (entry'.symm.trans entry)
      exact nomatch unmade.symm.trans found

/-- Where the body is known, resolving only looks it up. -/
theorem run_resolve_of_body? {body : TypeId} (made : Equality.body? t id = some body) :
    (resolve id).run t = (body, t) := by
  unfold Equality.body? at made
  split at made
  · next i entry => exact run_resolve_remembered entry made
  · next plain =>
      obtain rfl := Option.some.inj made
      exact run_resolve_plain (flag_ne_instantiated plain)

end Runs

end TypeTable

end StructuralTyping
