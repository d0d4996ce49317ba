/-! Finite maps that remember the order in which their keys first arrived. A
later entry for a known key replaces the value and keeps the key's place, so a
listing never depends on anything but the insertions. -/
namespace StructuralTyping

structure Dictionary (κ : Type u) (α : Type v) where
  pairs : List (κ × α)
deriving DecidableEq, Repr

namespace Dictionary

variable {κ : Type u} {α : Type v} {β : Type w}

def empty : Dictionary κ α := ⟨[]⟩

instance : EmptyCollection (Dictionary κ α) := ⟨empty⟩

instance : Inhabited (Dictionary κ α) := ⟨empty⟩

def size (d : Dictionary κ α) : Nat := d.pairs.length

def isEmpty (d : Dictionary κ α) : Bool := d.pairs.isEmpty

def keys (d : Dictionary κ α) : List κ := d.pairs.map Prod.fst

def values (d : Dictionary κ α) : List α := d.pairs.map Prod.snd

/-- Every key occurs once. -/
def Distinct (d : Dictionary κ α) : Prop := d.keys.Nodup

theorem distinct_empty : (empty : Dictionary κ α).Distinct := List.nodup_nil

section Lookup
variable [DecidableEq κ]

/-- The value of the first pair with the key. -/
def findIn? (key : κ) : List (κ × α) → Option α
  | [] => none
  | (k, v) :: rest => if k = key then some v else findIn? key rest

def find? (d : Dictionary κ α) (key : κ) : Option α := findIn? key d.pairs

def contains (d : Dictionary κ α) (key : κ) : Bool := (d.find? key).isSome

/-- The value of a known key is replaced in place; a new key goes to the end. -/
def insertIn (key : κ) (value : α) : List (κ × α) → List (κ × α)
  | [] => [(key, value)]
  | (k, v) :: rest =>
      if k = key then (key, value) :: rest else (k, v) :: insertIn key value rest

def insert (d : Dictionary κ α) (key : κ) (value : α) : Dictionary κ α :=
  ⟨insertIn key value d.pairs⟩

/-- Later pairs win over earlier ones with the same key. -/
def ofList (pairs : List (κ × α)) : Dictionary κ α :=
  pairs.foldl (fun d pair => d.insert pair.1 pair.2) empty

theorem findIn?_insertIn (key other : κ) (value : α) (pairs : List (κ × α)) :
    findIn? other (insertIn key value pairs) =
      if key = other then some value else findIn? other pairs := by
  induction pairs with
  | nil => simp [insertIn, findIn?]
  | cons pair rest ih =>
      obtain ⟨k, v⟩ := pair
      by_cases known : k = key
      · subst known
        by_cases same : k = other <;> simp [insertIn, findIn?, same]
      · by_cases same : k = other
        · subst same
          have apart : ¬ key = k := fun equal => known equal.symm
          simp [insertIn, findIn?, known, apart]
        · simp [insertIn, findIn?, known, same, ih]

@[simp] theorem find?_insert (d : Dictionary κ α) (key other : κ) (value : α) :
    (d.insert key value).find? other =
      if key = other then some value else d.find? other :=
  findIn?_insertIn key other value d.pairs

theorem contains_insert (d : Dictionary κ α) (key other : κ) (value : α) :
    (d.insert key value).contains other = (decide (key = other) || d.contains other) := by
  rw [contains, find?_insert, contains]
  by_cases same : key = other <;> simp [same]

@[simp] theorem find?_empty (key : κ) : (empty : Dictionary κ α).find? key = none := rfl

theorem findIn?_eq_none_iff (key : κ) (pairs : List (κ × α)) :
    findIn? key pairs = none ↔ key ∉ pairs.map Prod.fst := by
  induction pairs with
  | nil => simp [findIn?]
  | cons pair rest ih =>
      obtain ⟨k, v⟩ := pair
      by_cases same : k = key
      · simp [findIn?, same]
      · have apart : ¬ key = k := fun equal => same equal.symm
        simp [findIn?, same, apart, ih]

/-- Nothing is found exactly under the names that are no keys. -/
theorem find?_eq_none_iff (d : Dictionary κ α) (key : κ) :
    d.find? key = none ↔ key ∉ d.keys :=
  findIn?_eq_none_iff key d.pairs

theorem mem_of_findIn? {key : κ} {value : α} {pairs : List (κ × α)}
    (found : findIn? key pairs = some value) : (key, value) ∈ pairs := by
  induction pairs with
  | nil => simp [findIn?] at found
  | cons pair rest ih =>
      obtain ⟨k, v⟩ := pair
      by_cases same : k = key
      · simp_all [findIn?]
      · exact List.mem_cons_of_mem _ (ih (by simpa [findIn?, same] using found))

/-- What is found under a key is listed with it. -/
theorem mem_of_find? {d : Dictionary κ α} {key : κ} {value : α}
    (found : d.find? key = some value) : (key, value) ∈ d.pairs :=
  mem_of_findIn? found

theorem findIn?_of_mem {key : κ} {value : α} {pairs : List (κ × α)}
    (distinct : (pairs.map Prod.fst).Nodup) (member : (key, value) ∈ pairs) :
    findIn? key pairs = some value := by
  induction pairs with
  | nil => simp at member
  | cons pair rest ih =>
      obtain ⟨k, v⟩ := pair
      rw [List.map_cons, List.nodup_cons] at distinct
      rcases List.mem_cons.mp member with same | later
      · obtain ⟨rfl, rfl⟩ := Prod.mk.inj same
        simp [findIn?]
      · have apart : k ≠ key := by
          rintro rfl
          exact distinct.1 (List.mem_map.mpr ⟨_, later, rfl⟩)
        simpa [findIn?, apart] using ih distinct.2 later

theorem keys_insertIn (key : κ) (value : α) (pairs : List (κ × α)) :
    (insertIn key value pairs).map Prod.fst =
      if key ∈ pairs.map Prod.fst then pairs.map Prod.fst
      else pairs.map Prod.fst ++ [key] := by
  induction pairs with
  | nil => simp [insertIn]
  | cons pair rest ih =>
      obtain ⟨k, v⟩ := pair
      by_cases same : k = key
      · simp [insertIn, same]
      · have apart : ¬ key = k := fun equal => same equal.symm
        by_cases present : key ∈ rest.map Prod.fst
        · simp_all [insertIn]
        · simp_all [insertIn]

/-- A known key keeps its place and a new one goes to the end. -/
theorem keys_insert (d : Dictionary κ α) (key : κ) (value : α) :
    (d.insert key value).keys = if key ∈ d.keys then d.keys else d.keys ++ [key] :=
  keys_insertIn key value d.pairs

theorem distinct_insert (d : Dictionary κ α) (key : κ) (value : α) (distinct : d.Distinct) :
    (d.insert key value).Distinct := by
  unfold Distinct at *
  rw [keys_insert]
  split
  · exact distinct
  · next absent =>
      rw [List.nodup_append]
      refine ⟨distinct, by simp, ?_⟩
      intro old member new single equal
      rw [List.mem_singleton] at single
      exact absent (single ▸ equal ▸ member)

/-- However often a key occurs in a list, its dictionary holds it once. -/
theorem distinct_ofList (pairs : List (κ × α)) : (ofList pairs).Distinct := by
  suffices grown : ∀ d : Dictionary κ α, d.Distinct →
      (pairs.foldl (fun d pair => d.insert pair.1 pair.2) d).Distinct from
    grown empty distinct_empty
  induction pairs with
  | nil => exact fun _ distinct => distinct
  | cons pair rest ih =>
      exact fun d distinct => ih _ (distinct_insert d pair.1 pair.2 distinct)

theorem mem_values_insertIn {key : κ} {value v : α} {pairs : List (κ × α)}
    (member : v ∈ (insertIn key value pairs).map Prod.snd) :
    v = value ∨ v ∈ pairs.map Prod.snd := by
  induction pairs with
  | nil => simpa [insertIn] using member
  | cons pair rest ih =>
      obtain ⟨k, w⟩ := pair
      by_cases same : k = key
      · subst same
        simp only [insertIn, ↓reduceIte, List.map_cons, List.mem_cons] at member ⊢
        exact member.imp_right .inr
      · simp only [insertIn, same, ↓reduceIte, List.map_cons, List.mem_cons] at member ⊢
        exact member.elim (fun here => .inr (.inl here)) fun later => (ih later).imp_right .inr

/-- The values of a dictionary come from the list it was made of. -/
theorem mem_values_ofList {pairs : List (κ × α)} {v : α} (member : v ∈ (ofList pairs).values) :
    v ∈ pairs.map Prod.snd := by
  suffices grown : ∀ d : Dictionary κ α,
      v ∈ (pairs.foldl (fun d pair => d.insert pair.1 pair.2) d).values →
        v ∈ d.values ∨ v ∈ pairs.map Prod.snd from
    (grown empty member).resolve_left nofun
  clear member
  induction pairs with
  | nil => exact fun _ => .inl
  | cons pair rest ih =>
      intro d member
      rw [List.map_cons, List.mem_cons]
      rcases ih _ member with before | later
      · rcases mem_values_insertIn before with rfl | older
        · exact .inr (.inl rfl)
        · exact .inl older
      · exact .inr (.inr later)

end Lookup

def mapValues (f : α → β) (d : Dictionary κ α) : Dictionary κ β :=
  ⟨d.pairs.map fun pair => (pair.1, f pair.2)⟩

@[simp] theorem keys_mapValues (f : α → β) (d : Dictionary κ α) :
    (d.mapValues f).keys = d.keys := by
  simp [mapValues, keys]

/-- The values are visited in order and the keys stay. -/
def mapValuesM {m : Type w → Type w'} [Monad m] {κ : Type w} {β : Type w} (f : α → m β)
    (d : Dictionary κ α) : m (Dictionary κ β) := do
  let pairs ← d.pairs.mapM fun pair => do return (pair.1, ← f pair.2)
  return ⟨pairs⟩

end Dictionary

end StructuralTyping
