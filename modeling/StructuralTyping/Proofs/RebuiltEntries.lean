import StructuralTyping.Proofs.TableGrowth

/-! One step of a substitution, which rebuilds an entry from the parts that it has replaced.
What it keeps of the entry is its frame. An entry of which no part is replaced is rebuilt as
it was. -/
namespace StructuralTyping

open TableM (Yields)
open TypeTable (Growth)

namespace TypeKind

/-- The entry without the name of an interface. -/
def unnamed : TypeKind → TypeKind
  | object o => object ⟨none, o.properties⟩
  | kind => kind

@[simp] theorem parts_unnamed (kind : TypeKind) : kind.unnamed.parts = kind.parts := by
  cases kind <;> rfl

@[simp] theorem binders_unnamed (kind : TypeKind) : kind.unnamed.binders = kind.binders := by
  cases kind <;> rfl

/-- The entry without its parts and the type parameters that it declares. -/
def frame : TypeKind → TypeKind
  | object o => object ⟨o.name, o.properties.mapValues fun p => { p with type := 0 }⟩
  | function f => function ⟨[], f.parameters.map fun p => { p with type := 0 }, 0⟩
  | instantiated i => instantiated ⟨i.origin, i.bindings.mapValues fun _ => 0⟩
  | kind => kind

/-- What is left without the name of an interface. -/
def shape (kind : TypeKind) : TypeKind := kind.frame.unnamed

@[simp] theorem flag_shape (kind : TypeKind) : kind.shape.flag = kind.flag := by
  cases kind <;> rfl

@[simp] theorem shape_unnamed (kind : TypeKind) : kind.unnamed.shape = kind.shape := by
  cases kind <;> rfl

/-- Entries of one shape have as many parts. -/
theorem length_parts_of_shape {kind kind' : TypeKind} (same : kind'.shape = kind.shape) :
    kind'.parts.length = kind.parts.length := by
  have counted (kind : TypeKind) : kind.shape.parts.length = kind.parts.length := by
    cases kind <;> simp [shape, frame, unnamed, parts, Dictionary.values, Dictionary.mapValues]
  rw [← counted kind', same, counted kind]

/-- Items that agree in everything are the same. -/
theorem eq_of_maps {α β γ : Type} {f : α → β} {g : α → γ}
    (agree : ∀ a b, f a = f b → g a = g b → a = b) :
    ∀ {xs ys : List α}, xs.map f = ys.map f → xs.map g = ys.map g → xs = ys
  | [], [], _, _ => rfl
  | [], _ :: _, first, _ => nomatch first
  | _ :: _, [], first, _ => nomatch first
  | x :: xs, y :: ys, first, second => by
      obtain ⟨here, later⟩ := List.cons.inj first
      obtain ⟨here', later'⟩ := List.cons.inj second
      rw [agree x y here here', eq_of_maps agree later later']

/-- An entry is its frame with its parts and the type parameters that it declares. -/
theorem eq_of_frame {kind kind' : TypeKind} (frame : kind'.frame = kind.frame)
    (parts : kind'.parts = kind.parts) (binders : kind'.binders = kind.binders) : kind' = kind := by
  have flag : kind'.flag = kind.flag := by
    have flag_frame (kind : TypeKind) : kind.frame.flag = kind.flag := by cases kind <;> rfl
    rw [← flag_frame kind', frame, flag_frame kind]
  cases kind with
  | object o =>
      cases kind' with
      | object o' =>
          obtain ⟨name, ⟨properties⟩⟩ := o
          obtain ⟨name', ⟨properties'⟩⟩ := o'
          obtain ⟨sameName, erased⟩ := ObjectType.mk.inj (object.inj frame)
          simp only [TypeKind.parts, Dictionary.values, List.map_map] at parts
          refine congrArg₂ (fun name pairs => object ⟨name, ⟨pairs⟩⟩) sameName
            (eq_of_maps ?_ (Dictionary.mk.inj erased) parts)
          rintro ⟨key, type, optional⟩ ⟨key', type', optional'⟩ same rfl
          cases same
          rfl
      | _ => cases flag
  | function f =>
      cases kind' with
      | function f' =>
          obtain ⟨typeParameters, parameters, returnType⟩ := f
          obtain ⟨typeParameters', parameters', returnType'⟩ := f'
          obtain ⟨-, erased, -⟩ := FunctionType.mk.inj (function.inj frame)
          obtain ⟨types, result⟩ := List.append_inj' parts rfl
          obtain rfl : typeParameters' = typeParameters := binders
          obtain rfl : returnType' = returnType := List.singleton_inj.mp result
          refine congrArg (fun parameters => function ⟨typeParameters', parameters, returnType'⟩)
            (eq_of_maps ?_ erased types)
          rintro ⟨name, type, optional⟩ ⟨name', type', optional'⟩ same rfl
          cases same
          rfl
      | _ => cases flag
  | instantiated i =>
      cases kind' with
      | instantiated i' =>
          obtain ⟨origin, ⟨arguments⟩⟩ := i
          obtain ⟨origin', ⟨arguments'⟩⟩ := i'
          obtain ⟨sameOrigin, erased⟩ := InstantiatedType.mk.inj (instantiated.inj frame)
          refine congrArg₂ (fun origin pairs => instantiated ⟨origin, ⟨pairs⟩⟩) sameOrigin
            (eq_of_maps ?_ (Dictionary.mk.inj erased) parts)
          exact fun p q same values => Prod.ext (Prod.mk.inj same).1 values
      | _ => cases flag
  | _ =>
      cases kind' with
      | object | function | instantiated => cases flag
      | _ => exact frame

/-- The frame of an instance tells its origin and the names of its arguments. -/
theorem copied_of_frame {kind : TypeKind} {i : InstantiatedType}
    (frame : kind.frame = (instantiated i).frame) :
    ∃ original, kind = .instantiated original ∧ original.origin = i.origin ∧
      original.bindings.keys = i.bindings.keys := by
  cases kind with
  | instantiated original =>
      obtain ⟨origin, bindings⟩ := InstantiatedType.mk.inj (instantiated.inj frame)
      have names := congrArg (fun d : Dictionary String TypeId => d.keys) bindings
      refine ⟨original, rfl, origin, ?_⟩
      simpa [Dictionary.keys, Dictionary.mapValues, Function.comp_def] using names
  | _ => cases frame

/-- The entry with other parts in their places, without the type parameters that are bound. -/
def rebuildM (bindings : Bindings) (descend : TypeId → TableM TypeId) : TypeKind → TableM TypeKind
  | object o => do
      let properties ← o.properties.mapValuesM fun p => do
        return { p with type := ← descend p.type }
      return object ⟨o.name, properties⟩
  | function f => do
      let parameters ← f.parameters.mapM fun p => do
        return { p with type := ← descend p.type }
      let returnType ← descend f.returnType
      let typeParameters := f.typeParameters.filter fun p => !bindings.contains p
      return function ⟨typeParameters, parameters, returnType⟩
  | instantiated i => do
      let arguments ← i.bindings.mapValuesM descend
      return instantiated ⟨i.origin, arguments⟩
  | kind => return kind

theorem map_eq_of_forall₂ {α β γ : Type} {R : α → β → Prop} {f : β → γ} {g : α → γ}
    (same : ∀ a b, R a b → f b = g a) {xs : List α} {ys : List β} (pairs : List.Forall₂ R xs ys) :
    ys.map f = xs.map g := by
  induction pairs with
  | nil => rfl
  | cons pair _ ih => rw [List.map_cons, List.map_cons, same _ _ pair, ih]

variable {bindings : Bindings} {descend : TypeId → TableM TypeId} {t : TypeTable}

/-- Rebuilding an entry is replacing its parts one after another. -/
theorem yields_rebuildM {grown : TypeTable → TypeTable → Prop} (growth : Growth grown)
    {Q : TypeId → TypeId → TypeTable → Prop}
    (stable : ∀ a b t t', grown t t' → Q a b t → Q a b t') (kind : TypeKind)
    (step : ∀ m ∈ kind.parts, ∀ t', grown t t' →
      Yields (descend m) t' fun m' t'' => grown t' t'' ∧ Q m m' t'') :
    Yields (kind.rebuildM bindings descend) t fun rebuilt t' =>
      grown t t' ∧ List.Forall₂ (fun m m' => Q m m' t') kind.parts rebuilt.parts ∧
        rebuilt.binders = (kind.binders.filter fun p => !bindings.contains p) ∧
          rebuilt.frame = kind.frame := by
  cases kind with
  | object o =>
      have replaced := Yields.sequential.properties growth stable fun p member =>
        step p.type (List.mem_map_of_mem member)
      refine replaced.bind ?_
      rintro properties u ⟨grown, pairs⟩
      refine .pure ⟨grown, ?_, rfl, ?_⟩
      · simp only [parts, Dictionary.values, List.map_map, List.forall₂_map_left_iff,
          List.forall₂_map_right_iff]
        exact pairs.imp fun _ _ replaced => replaced.2.2
      · refine congrArg (fun pairs => object ⟨o.name, ⟨pairs⟩⟩) (map_eq_of_forall₂ ?_ pairs)
        exact fun p q replaced => Prod.ext replaced.1 (congrArg (Property.mk 0) replaced.2.1)
  | function f =>
      have replaced := Yields.sequential.parameters growth stable
        fun (p : Parameter) (member : p ∈ f.parameters) =>
          step p.type (List.mem_append_left _ (List.mem_map_of_mem member))
      refine replaced.bind ?_
      rintro parameters u ⟨grown, pairs⟩
      have result := step f.returnType (List.mem_append_right _ (List.mem_singleton_self _)) u grown
      refine result.bind ?_
      rintro returnType u' ⟨later, holds⟩
      refine .pure ⟨growth.trans grown later, ?_, rfl, ?_⟩
      · refine List.rel_append ?_ (.cons holds .nil)
        simp only [List.forall₂_map_left_iff, List.forall₂_map_right_iff]
        exact pairs.imp fun _ _ replaced => stable _ _ _ _ later replaced.2
      · refine congrArg (fun parameters => function ⟨[], parameters, 0⟩)
          (map_eq_of_forall₂ (fun p q replaced => ?_) pairs)
        rw [replaced.1]
  | instantiated i =>
      refine (Yields.sequential.mapValuesM growth stable step).bind ?_
      rintro arguments u ⟨grown, pairs⟩
      refine .pure ⟨grown, ?_, rfl, ?_⟩
      · simp only [parts, Dictionary.values, List.forall₂_map_left_iff, List.forall₂_map_right_iff]
        exact pairs.imp fun _ _ replaced => replaced.2
      · refine congrArg (fun pairs => instantiated ⟨i.origin, ⟨pairs⟩⟩) (map_eq_of_forall₂ ?_ pairs)
        exact fun p q replaced => Prod.ext replaced.1 rfl
  | _ => exact .pure ⟨growth.refl t, .nil, rfl, rfl⟩

end TypeKind

/-- A type that is neither bound nor on the way is rebuilt from its parts. -/
theorem Substitution.applyWithin_rebuilds {bindings : Bindings} {id : TypeId}
    {visiting : List TypeId} (unbound : bindings.find? id = none) (unvisited : id ∉ visiting)
    (fuel : Nat) :
    applyWithin bindings (fuel + 1) visiting id = (do
      let kind ← TableM.kind id
      let rebuilt ← kind.rebuildM bindings (applyWithin bindings fuel (id :: visiting))
      if rebuilt = kind then return id else TableM.add rebuilt.unnamed) := by
  rw [applyWithin, unbound]
  dsimp only
  rw [if_neg unvisited]
  refine congrArg (TableM.kind id >>= ·) (funext fun kind => ?_)
  cases kind with
  | object o =>
      obtain ⟨name, properties⟩ := o
      simp [TypeKind.rebuildM, TypeKind.unnamed]
  | function f => simp [TypeKind.rebuildM, TypeKind.unnamed]
  | instantiated i =>
      obtain ⟨origin, arguments⟩ := i
      simp [TypeKind.rebuildM, TypeKind.unnamed]
  | _ => simp [TypeKind.rebuildM]

section Unchanged
variable {t : TypeTable}

theorem TableM.run_bind {α β : Type} (m : TableM α) (k : α → TableM β) (t : TypeTable) :
    (m >>= k).run t = (k (m.run t).1).run (m.run t).2 := rfl

theorem run_mapM_same {α : Type} {f : α → TableM α} {items : List α}
    (same : ∀ a ∈ items, (f a).run t = (a, t)) : (items.mapM f).run t = (items, t) := by
  induction items with
  | nil => rfl
  | cons a rest ih =>
      obtain ⟨here, later⟩ := List.forall_mem_cons.mp same
      have rest := ih later
      rw [List.mapM_cons, TableM.run_bind, here]
      exact congrArg (fun result => (a :: result.1, result.2)) rest

theorem run_mapValuesM_same {κ α : Type} {f : α → TableM α} {d : Dictionary κ α}
    (same : ∀ a ∈ d.values, (f a).run t = (a, t)) : (d.mapValuesM f).run t = (d, t) := by
  have each : ∀ pair ∈ d.pairs,
      (do return (pair.1, ← f pair.2) : TableM (κ × α)).run t = (pair, t) := by
    intro pair member
    rw [TableM.run_bind, same pair.2 (List.mem_map_of_mem member)]
    rfl
  rw [Dictionary.mapValuesM, TableM.run_bind, run_mapM_same each]
  rfl

/-- Where every part is replaced by itself and no declared parameter is bound, the entry
is rebuilt as it was. -/
theorem TypeKind.run_rebuildM_same {bindings : Bindings} {descend : TypeId → TableM TypeId}
    {kind : TypeKind} (parts : ∀ m ∈ kind.parts, (descend m).run t = (m, t))
    (binders : ∀ p ∈ kind.binders, bindings.contains p = false) :
    (kind.rebuildM bindings descend).run t = (kind, t) := by
  cases kind with
  | object o =>
      have each : ∀ p ∈ o.properties.values,
          (do return { p with type := ← descend p.type } : TableM Property).run t = (p, t) := by
        intro p member
        rw [TableM.run_bind, parts p.type (List.mem_map_of_mem member)]
        rfl
      rw [rebuildM, TableM.run_bind, run_mapValuesM_same each]
      rfl
  | function f =>
      have each : ∀ p ∈ f.parameters,
          (do return { p with type := ← descend p.type } : TableM Parameter).run t = (p, t) := by
        intro p member
        have part : p.type ∈ (function f).parts :=
          List.mem_append_left _ (List.mem_map_of_mem member)
        rw [TableM.run_bind, parts p.type part]
        rfl
      have result := parts f.returnType (List.mem_append_right _ (List.mem_singleton_self _))
      have kept : (f.typeParameters.filter fun p => !bindings.contains p) = f.typeParameters :=
        List.filter_eq_self.mpr fun p member => by simp [binders p member]
      rw [rebuildM, TableM.run_bind, run_mapM_same each, kept]
      exact (congrArg (fun ran => ((function ⟨f.typeParameters, f.parameters, ran.1⟩, ran.2) :
        TypeKind × TypeTable)) result)
  | instantiated i =>
      rw [rebuildM, TableM.run_bind, run_mapValuesM_same parts]
      rfl
  | _ => rfl

end Unchanged

end StructuralTyping
