import Mathlib
import StructuralTyping.Proofs.Occurrences
import StructuralTyping.Proofs.Steps

/-! The account of a name that nothing declares. Its balance is the number of
times it was reported missing and of the identifiers of that name in function
bodies that no check has entered. Entering a body moves its identifiers from the
bodies to the step that checks them, so a step raises the balance by exactly the
identifiers it checks, wherever it takes them from. -/
namespace StructuralTyping

def missingText (name : String) : String := "Cannot find name '" ++ name ++ "'."

/-- The diagnostic says that the name cannot be found. -/
def Diagnostic.misses (name : String) (d : Diagnostic) : Bool :=
  d.code == 2304 && d.message == missingText name

namespace Template

variable (tail replacement : List Char)

theorem replaceFrom_skip (pattern dropped rest : List Char) :
    replaceFrom pattern replacement dropped.length (dropped ++ rest) =
      replaceFrom pattern replacement 0 rest := by
  induction dropped with
  | nil => rfl
  | cons c dropped ih => simpa [replaceFrom] using ih

/-- Text without an opening brace stays. -/
theorem replaceFrom_text (text rest : List Char) (plain : '{' ∉ text) :
    replaceFrom ('{' :: tail) replacement 0 (text ++ rest) =
      text ++ replaceFrom ('{' :: tail) replacement 0 rest := by
  induction text with
  | nil => rfl
  | cons c text ih =>
      obtain ⟨apart, plain⟩ : ¬ '{' = c ∧ '{' ∉ text := by simpa using plain
      simp [replaceFrom, apart, ih plain]

/-- The one placeholder of a text is replaced. -/
theorem replaceAll_between (index : Nat) (before after : List Char)
    (plain : '{' ∉ before) (plain' : '{' ∉ after) :
    replaceAll (placeholder index) replacement (before ++ (placeholder index ++ after)) =
      before ++ (replacement ++ after) := by
  obtain ⟨rest, shape⟩ : ∃ rest, placeholder index = '{' :: rest :=
    ⟨(toString index).toList ++ ['}'], rfl⟩
  have matched : ('{' :: rest).isPrefixOf ('{' :: (rest ++ after)) = true := by simp
  have ending := replaceFrom_text rest replacement after [] plain'
  rw [List.append_nil] at ending
  rw [replaceAll, shape, replaceFrom_text rest replacement before _ plain, List.cons_append,
    replaceFrom, if_pos matched, List.length_cons, Nat.add_sub_cancel, replaceFrom_skip, ending]
  simp [replaceFrom]

theorem fill_between {template before after : String}
    (shape : template.toList = before.toList ++ (placeholder 0 ++ after.toList))
    (plain : '{' ∉ before.toList) (plain' : '{' ∉ after.toList) (argument : String) :
    fill template [argument] = before ++ argument ++ after := by
  simp only [fill, fillFrom]
  rw [shape, replaceAll_between _ _ _ _ plain plain', String.ofList_append, String.ofList_append,
    String.ofList_toList, String.ofList_toList, String.ofList_toList, String.append_assoc]

end Template

theorem fill_cannotFindName (name : String) :
    Template.fill Message.cannotFindName.template [name] = missingText name := by
  have shape : Message.cannotFindName.template.toList =
      "Cannot find name '".toList ++ (Template.placeholder 0 ++ "'.".toList) := by
    simp [Message.cannotFindName, Template.placeholder]
  exact Template.fill_between shape (by simp) (by simp) name

theorem missingText_injective : Function.Injective missingText := by
  intro first second equal
  exact (String.append_right_inj _).mp ((String.append_left_inj _).mp equal)

namespace Diagnostic

theorem misses_atLocation (name other : String) (location : Location) :
    (atLocation location .cannotFindName [other]).misses name = (other == name) := by
  have code : Message.cannotFindName.code = 2304 := rfl
  simp only [misses, atLocation, ofMessage, fill_cannotFindName, code]
  by_cases same : other = name
  · simp [same]
  · have apart : missingText other ≠ missingText name :=
      fun equal => same (missingText_injective equal)
    simp [same, apart]

theorem misses_of_code_ne {name : String} {d : Diagnostic} (other : d.code ≠ 2304) :
    d.misses name = false := by
  simp [misses, other]

@[simp] theorem misses_withFile (name file : String) (d : Diagnostic) :
    (d.withFile file).misses name = d.misses name := rfl

end Diagnostic

/-- The identifiers of the name in a body that is still to be checked. -/
def DeclaredFunction.pending (name : String) (f : DeclaredFunction) : Nat :=
  if f.body = .unchecked then identifierCount name f.node.occurrences else 0

namespace Checker

def missCount (name : String) (c : Checker) : Nat :=
  c.diagnostics.toList.countP (Diagnostic.misses name)

def balance (name : String) (c : Checker) : Nat :=
  c.missCount name + (c.functions.toList.map (DeclaredFunction.pending name)).sum

/-- The check of a function body has begun or ended. -/
def Entered (c : Checker) (index : Nat) : Prop :=
  ∃ f, c.functions[index]? = some f ∧ f.body ≠ .unchecked

/-- No value goes by the name, and no function body declares one. -/
structure Unbound (name : String) (c : Checker) : Prop where
  scopes : ∀ scope ∈ c.scopes, scope.values.find? name = none
  globals : c.globals.find? name = none
  hoisted : c.hoisted.find? name = none
  functions : ∀ f ∈ c.functions, Undeclared name f.node.occurrences

/-- The diagnostics, the functions and the files stay. -/
structure Keeps (c c' : Checker) : Prop where
  diagnostics : c'.diagnostics = c.diagnostics
  functions : c'.functions = c.functions
  files : c'.files = c.files

/-- From one checker to another with `count` identifiers of the name accounted
for, and functions declared. -/
structure Advances (name : String) (count : Nat) (declared : List FunctionNode)
    (c c' : Checker) : Prop where
  balance : c'.balance name = c.balance name + count
  unbound : c'.Unbound name
  nodes : c'.functions.toList.map DeclaredFunction.node =
    c.functions.toList.map DeclaredFunction.node ++ declared
  entered : ∀ index, c.Entered index → c'.Entered index
  files : c'.files = c.files

variable {name : String}

theorem Unbound.congr {c c' : Checker} (unbound : c.Unbound name)
    (scopes : c'.scopes = c.scopes) (globals : c'.globals = c.globals)
    (hoisted : c'.hoisted = c.hoisted) (functions : c'.functions = c.functions) :
    c'.Unbound name where
  scopes := scopes ▸ unbound.scopes
  globals := globals ▸ unbound.globals
  hoisted := hoisted ▸ unbound.hoisted
  functions := functions ▸ unbound.functions

theorem Unbound.withScopes {c c' : Checker} (unbound : c.Unbound name)
    (scopes : ∀ scope ∈ c'.scopes, scope.values.find? name = none)
    (globals : c'.globals = c.globals) (hoisted : c'.hoisted = c.hoisted)
    (functions : c'.functions = c.functions) : c'.Unbound name where
  scopes := scopes
  globals := globals ▸ unbound.globals
  hoisted := hoisted ▸ unbound.hoisted
  functions := functions ▸ unbound.functions

theorem Advances.of_keeps {c c' : Checker} (unbound : c'.Unbound name) (keeps : c.Keeps c') :
    Advances name 0 [] c c' where
  balance := by simp [Checker.balance, missCount, keeps.diagnostics, keeps.functions]
  unbound := unbound
  nodes := by simp [keeps.functions]
  entered := by simp [Entered, keeps.functions]
  files := keeps.files

theorem Advances.trans {m n : Nat} {first second : List FunctionNode} {c c' c'' : Checker}
    (one : Advances name m first c c') (two : Advances name n second c' c'') :
    Advances name (m + n) (first ++ second) c c'' where
  balance := by rw [two.balance, one.balance, Nat.add_assoc]
  unbound := two.unbound
  nodes := by rw [two.nodes, one.nodes, List.append_assoc]
  entered index before := two.entered index (one.entered index before)
  files := two.files.trans one.files

end Checker

/-- Every successful run of the step from here accounts for a count of
identifiers that fits its result. -/
def AccountsFrom {α : Type} (name : String) (c : Checker) (m : CheckM α)
    (post : α → Nat → Prop) : Prop :=
  ∀ c' a, c.step m = (.ok a, c') → ∃ count, post a count ∧ Checker.Advances name count [] c c'

def AccountsFor {α : Type} (name : String) (m : CheckM α) (post : α → Nat → Prop) : Prop :=
  ∀ c : Checker, c.Unbound name → AccountsFrom name c m post

/-- The step checks exactly `count` identifiers of the name. -/
def Accounts {α : Type} (name : String) (count : Nat) (m : CheckM α) : Prop :=
  AccountsFor name m fun _ found => found = count

variable {α β : Type} {name : String}

theorem AccountsFrom.bind {c : Checker} {first : CheckM α} {next : α → CheckM β}
    {middle : α → Nat → Prop} {post : β → Nat → Prop}
    (one : AccountsFrom name c first middle)
    (two : ∀ a count, middle a count →
      AccountsFor name (next a) fun b found => post b (count + found)) :
    AccountsFrom name c (first >>= next) post := by
  intro c' b done
  obtain ⟨a, between, firstDone, nextDone⟩ := Checker.step_bind_ok done
  obtain ⟨count, holds, reached⟩ := one between a firstDone
  obtain ⟨found, holds', reached'⟩ := two a count holds between reached.unbound c' b nextDone
  exact ⟨count + found, holds', reached.trans reached'⟩

theorem AccountsFor.bind {first : CheckM α} {next : α → CheckM β}
    {middle : α → Nat → Prop} {post : β → Nat → Prop}
    (one : AccountsFor name first middle)
    (two : ∀ a count, middle a count →
      AccountsFor name (next a) fun b found => post b (count + found)) :
    AccountsFor name (first >>= next) post :=
  fun c unbound => (one c unbound).bind two

/-- A first step that checks nothing. -/
theorem AccountsFor.after {first : CheckM α} {next : α → CheckM β} {post : β → Nat → Prop}
    (one : Accounts name 0 first) (two : ∀ a, AccountsFor name (next a) post) :
    AccountsFor name (first >>= next) post := by
  refine AccountsFor.bind one ?_
  rintro a count rfl
  simpa only [Nat.zero_add] using two a

theorem AccountsFor.pure {a : α} {post : α → Nat → Prop} (holds : post a 0) :
    AccountsFor name (pure a : CheckM α) post := by
  intro c unbound c' b done
  obtain ⟨rfl, rfl⟩ : a = b ∧ c = c' := by simpa using done
  exact ⟨0, holds, .of_keeps unbound ⟨rfl, rfl, rfl⟩⟩

theorem AccountsFor.ite {p : Prop} [Decidable p] {yes no : CheckM α} {post : α → Nat → Prop}
    (one : AccountsFor name yes post) (two : AccountsFor name no post) :
    AccountsFor name (if p then yes else no) post := by
  split
  · exact one
  · exact two

theorem AccountsFor.weaken {m : CheckM α} {weak strong : α → Nat → Prop}
    (accounts : AccountsFor name m strong) (implies : ∀ a count, strong a count → weak a count) :
    AccountsFor name m weak := by
  intro c unbound c' a done
  obtain ⟨count, holds, reached⟩ := accounts c unbound c' a done
  exact ⟨count, implies a count holds, reached⟩

theorem AccountsFrom.quietly {c : Checker} {n : Nat} {first : CheckM α} {next : α → CheckM β}
    (one : AccountsFrom name c first fun _ found => found = 0)
    (two : ∀ a, Accounts name n (next a)) :
    AccountsFrom name c (first >>= next) fun _ found => found = n := by
  refine one.bind ?_
  rintro a count rfl
  exact (two a).weaken fun _ found equal => by rw [equal, Nat.zero_add]

theorem AccountsFrom.set {c d : Checker} (unbound : d.Unbound name) (keeps : c.Keeps d) :
    AccountsFrom name c (set d : CheckM PUnit) fun _ found => found = 0 := by
  intro c' a done
  obtain ⟨-, rfl⟩ : a = a ∧ d = c' := by simpa using done
  exact ⟨0, rfl, .of_keeps unbound keeps⟩

namespace Accounts

theorem bind {m n : Nat} {first : CheckM α} {next : α → CheckM β}
    (one : Accounts name m first) (two : ∀ a, Accounts name n (next a)) :
    Accounts name (m + n) (first >>= next) := by
  refine AccountsFor.bind one ?_
  rintro a count rfl
  exact (two a).weaken fun _ found equal => by rw [equal]

theorem quietly {n : Nat} {first : CheckM α} {next : α → CheckM β}
    (one : Accounts name 0 first) (two : ∀ a, Accounts name n (next a)) :
    Accounts name n (first >>= next) :=
  AccountsFor.after one two

/-- A last step that checks nothing. -/
theorem followed {n : Nat} {first : CheckM α} {next : α → CheckM β}
    (one : Accounts name n first) (two : ∀ a, Accounts name 0 (next a)) :
    Accounts name n (first >>= next) :=
  one.bind two

theorem of_keeps {m : CheckM α}
    (keeps : ∀ (c c' : Checker) (a : α), c.Unbound name → c.step m = (.ok a, c') →
      c'.Unbound name ∧ c.Keeps c') :
    Accounts name 0 m := by
  intro c unbound c' a done
  obtain ⟨after, kept⟩ := keeps c c' a unbound done
  exact ⟨0, rfl, .of_keeps after kept⟩

theorem pure (a : α) : Accounts name 0 (pure a : CheckM α) :=
  AccountsFor.pure rfl

theorem get : Accounts name 0 (get : CheckM Checker) :=
  of_keeps fun c c' b unbound done => by
    obtain ⟨-, rfl⟩ : c = b ∧ c = c' := by simpa using done
    exact ⟨unbound, rfl, rfl, rfl⟩

/-- What follows reads the checker as it is. -/
theorem get_bind {n : Nat} {next : Checker → CheckM β}
    (here : ∀ c : Checker, c.Unbound name →
      AccountsFrom name c (next c) fun _ found => found = n) :
    Accounts name n (MonadState.get >>= next) := by
  intro c unbound c' b done
  rw [Checker.step_bind] at done
  exact here c unbound c' b done

theorem modify {f : Checker → Checker} (unbound : ∀ c, c.Unbound name → (f c).Unbound name)
    (keeps : ∀ c, Checker.Keeps c (f c)) : Accounts name 0 (modify f : CheckM PUnit) :=
  of_keeps fun c c' a before done => by
    obtain ⟨-, rfl⟩ : a = a ∧ f c = c' := by simpa using done
    exact ⟨unbound c before, keeps c⟩

theorem throw {n : Nat} (cause : CheckError) : Accounts name n (throw cause : CheckM α) := by
  intro c unbound c' a done
  simp at done

theorem ite {n : Nat} {p : Prop} [Decidable p] {yes no : CheckM α}
    (one : Accounts name n yes) (two : Accounts name n no) :
    Accounts name n (if p then yes else no) :=
  AccountsFor.ite one two

end Accounts

end StructuralTyping
