import StructuralTyping.Proofs.AcceptedPairs
import StructuralTyping.Proofs.LabelledTables
import StructuralTyping.Proofs.TidyTables

/-! Entries of two tables with one frame, whose parts correspond. Bodies that are related in the
one table are related in the other one, as far as the relation of the parts carries over. -/
namespace StructuralTyping.Assignability

open TypeTable

section Transfer
variable {Q R R' : TypeId → TypeId → Prop} {strict strict' : Bool} {u v : TypeTable}
  {s t s' t' target target' : TypeId}

/-- Functions of one frame whose types correspond have corresponding parameters and results. -/
theorem forall₂_parameters {f f' : FunctionType}
    (frame : (TypeKind.function f').frame = (TypeKind.function f).frame)
    (parts : List.Forall₂ Q (TypeKind.function f).parts (TypeKind.function f').parts) :
    List.Forall₂ (fun p q => q.optional = p.optional ∧ Q p.type q.type) f.parameters f'.parameters ∧
      Q f.returnType f'.returnType := by
  obtain ⟨-, erased, -⟩ := FunctionType.mk.inj (TypeKind.function.inj frame)
  simp only [TypeKind.parts] at parts
  generalize f.parameters = ps at erased parts
  generalize f'.parameters = ps' at erased parts
  induction ps generalizing ps' with
  | nil =>
      obtain rfl : ps' = [] := by simpa using erased
      exact ⟨.nil, by simpa using parts⟩
  | cons p rest ih =>
      cases ps' with
      | nil => simp at erased
      | cons p' rest' =>
          rw [List.map_cons, List.map_cons, List.cons.injEq] at erased
          simp only [List.map_cons, List.cons_append, List.forall₂_cons] at parts
          obtain ⟨all, last⟩ := ih rest' erased.2 parts.2
          exact ⟨.cons ⟨(Parameter.mk.inj erased.1).2.2, parts.1⟩ all, last⟩

/-- What stands side by side in the second lists stands so in the first ones. -/
theorem exists_mem_zip {α β γ δ : Type} {A : α → β → Prop} {B : γ → δ → Prop} {xs : List α}
    {ys : List β} {zs : List γ} {ws : List δ} (first : List.Forall₂ A xs ys) (second : List.Forall₂ B zs ws) :
    ∀ pair ∈ ys.zip ws, ∃ pair' ∈ xs.zip zs, A pair'.1 pair.1 ∧ B pair'.2 pair.2 := by
  induction first generalizing zs ws with
  | nil => simp
  | cons here _ ih =>
      cases second with
      | nil => simp
      | cons here' later' =>
          rw [List.zip_cons_cons, List.forall_mem_cons]
          refine ⟨⟨_, List.mem_cons_self, here, here'⟩, fun pair listed => ?_⟩
          obtain ⟨pair', listed', both⟩ := ih later' pair listed
          exact ⟨pair', List.mem_cons_of_mem _ listed', both⟩

theorem minArgumentCount_congr {f f' : FunctionType}
    (parameters : List.Forall₂ (fun p q => q.optional = p.optional ∧ Q p.type q.type)
      f.parameters f'.parameters) : f'.minArgumentCount = f.minArgumentCount := by
  have counted {ps qs : List Parameter}
      (all : List.Forall₂ (fun p q => q.optional = p.optional ∧ Q p.type q.type) ps qs) :
      (qs.dropWhile fun p => p.optional).length = (ps.dropWhile fun p => p.optional).length := by
    induction all with
    | nil => rfl
    | cons here rest ih =>
        rw [List.dropWhile_cons, List.dropWhile_cons, here.1]
        split
        · exact ih
        · exact congrArg Nat.succ rest.length_eq.symm
  exact counted (List.rel_reverse parameters)

theorem isPrimitive_of_frame (frame : (v.kind s').frame = (u.kind s).frame) (p : Primitive) :
    v.isPrimitive s' p = u.isPrimitive s p := by
  have read (t : TypeTable) (id : TypeId) :
      t.isPrimitive id p = true ↔ (t.kind id).frame = .primitive p := by
    rw [isPrimitive]
    cases t.kind id <;> simp [TypeKind.frame]
  rw [Bool.eq_iff_iff, read, frame, read]

/-- Objects whose properties correspond are related by one rule. -/
theorem ObjectRule.transfer {o o' w w' : ObjectType}
    (frame : (TypeKind.object o').frame = (TypeKind.object o).frame)
    (parts : List.Forall₂ Q (TypeKind.object o).parts (TypeKind.object o').parts)
    (frame' : (TypeKind.object w').frame = (TypeKind.object w).frame)
    (parts' : List.Forall₂ Q (TypeKind.object w).parts (TypeKind.object w').parts)
    (carry : ∀ a a' b b', Q a a' → Q b b' → R a b → R' a' b')
    (rule : ObjectRule R o w.properties.pairs) : ObjectRule R' o' w'.properties.pairs := by
  have given := forall₂_properties (congrArg TypeKind.unnamed frame) fun pair listed =>
    (List.forall₂_iff_zip.mp parts).2 listed
  have expected := forall₂_properties (congrArg TypeKind.unnamed frame') fun pair listed =>
    (List.forall₂_iff_zip.mp parts').2 listed
  rintro ⟨name, q'⟩ listed
  obtain ⟨⟨_, q⟩, listed', rfl, optional, related⟩ := forall₂_exists_left expected _ listed
  have wanted := rule _ listed'
  have found : Option.Rel (fun p p' => p'.optional = p.optional ∧ Q p.type p'.type)
      (o.property? name) (o'.property? name) := rel_findIn? name given
  rw [PropertyRule] at wanted ⊢
  dsimp only at wanted ⊢
  generalize o.property? name = p at found wanted
  generalize o'.property? name = p' at found
  cases found with
  | none => exact optional.trans wanted
  | some here =>
      dsimp only at wanted ⊢
      rw [here.1, optional]
      exact ⟨wanted.1, carry _ _ _ _ here.2 related wanted.2⟩

/-- Functions whose parameters and results correspond are related by one rule, and a laxer one. -/
theorem FunctionRule.transfer (laxer : strict' = true → strict = true) {f f' h h' : FunctionType}
    (frame : (TypeKind.function f').frame = (TypeKind.function f).frame)
    (parts : List.Forall₂ Q (TypeKind.function f).parts (TypeKind.function f').parts)
    (frame' : (TypeKind.function h').frame = (TypeKind.function h).frame)
    (parts' : List.Forall₂ Q (TypeKind.function h).parts (TypeKind.function h').parts)
    (carry : ∀ a a' b b', Q a a' → Q b b' → R a b → R' a' b')
    (void : ∀ a a', Q a a' → u.isPrimitive a .void = true → v.isPrimitive a' .void = true)
    (rule : FunctionRule strict u R f h) : FunctionRule strict' v R' f' h' := by
  obtain ⟨given, result⟩ := forall₂_parameters frame parts
  obtain ⟨expected, result'⟩ := forall₂_parameters frame' parts'
  obtain ⟨arity, parameters, last⟩ := rule
  refine ⟨?_, fun pair listed => ?_, ?_⟩
  · rw [minArgumentCount_congr given, ← expected.length_eq]
    exact arity
  · obtain ⟨pair', listed', first, second⟩ := exists_mem_zip given expected pair listed
    rcases parameters pair' listed' with back | ⟨lax, forth⟩
    · exact .inl (carry _ _ _ _ second.2 first.2 back)
    · refine .inr ⟨?_, carry _ _ _ _ first.2 second.2 forth⟩
      rw [← Bool.not_eq_true] at lax ⊢
      exact fun isStrict => lax (laxer isStrict)
  · exact last.imp (void _ _ result') (carry _ _ _ _ result result')

/-- Entries of one frame with corresponding parts are related by one rule, and by a laxer one. -/
theorem StructureRule.transfer (laxer : strict' = true → strict = true)
    (frame : (v.kind s').frame = (u.kind s).frame)
    (parts : List.Forall₂ Q (u.kind s).parts (v.kind s').parts)
    (frame' : (v.kind t').frame = (u.kind t).frame)
    (parts' : List.Forall₂ Q (u.kind t).parts (v.kind t').parts)
    (bound : ∀ name bound, u.kind s = .typeParameter name (some bound) → Q bound bound)
    (aim : Q target target') (carry : ∀ a a' b b', Q a a' → Q b b' → R a b → R' a' b')
    (void : ∀ a a', Q a a' → u.isPrimitive a .void = true → v.isPrimitive a' .void = true)
    (rule : StructureRule strict u R target s t) : StructureRule strict' v R' target' s' t' := by
  have flag := TypeKind.flag_eq_of_frame frame
  have flag' := TypeKind.flag_eq_of_frame frame'
  unfold StructureRule at rule ⊢
  generalize u.kind s = S at *
  generalize v.kind s' = S' at *
  generalize u.kind t = T at *
  generalize v.kind t' = T' at *
  cases S with
  | primitive a =>
      cases T with
      | primitive b =>
          obtain rfl : S' = .primitive a := by cases S' <;> first | exact frame | cases flag
          obtain rfl : T' = .primitive b := by cases T' <;> first | exact frame' | cases flag'
          exact rule
      | _ => exact rule.elim
  | typeParameter name constraint =>
      obtain rfl : S' = .typeParameter name constraint := by
        cases S' <;> first | exact frame | cases flag
      obtain ⟨c, rfl, related⟩ := rule
      exact ⟨c, rfl, carry _ _ _ _ (bound name c rfl) aim related⟩
  | object o =>
      cases T with
      | object w =>
          cases S' with
          | object o' =>
              cases T' with
              | object w' => exact ObjectRule.transfer frame parts frame' parts' carry rule
              | _ => cases flag'
          | _ => cases flag
      | _ => exact rule.elim
  | function f =>
      cases T with
      | function h =>
          cases S' with
          | function f' =>
              cases T' with
              | function h' =>
                  exact FunctionRule.transfer laxer frame parts frame' parts' carry void rule
              | _ => cases flag'
          | _ => cases flag
      | _ => exact rule.elim
  | _ => cases T <;> exact rule.elim

end Transfer

end StructuralTyping.Assignability
