import StructuralTyping.Proofs.PlainTypes
import StructuralTyping.Proofs.RecoveredBindings

/-! The state of an inference, call after call. Matching goes down into two types and comes to
the places where a type parameter is offered a candidate. Nothing but these places changes the
bindings or fails, and on the way back from wherever a conflict was found the pairs in progress
are left again, so that an inference can be used further after a conflict as well. -/
namespace StructuralTyping.Inference

open TypeTable

/-- Wherever a candidate is offered to a type parameter while this is matched, the condition
holds of the two, of the table and of the inference at that time. -/
inductive MatchM.Offers (offer : TypeId → TypeId → TypeTable → Inference → Prop) :
    {α : Type} → MatchM α → TypeTable → Inference → Prop where
  | pure {α : Type} (a : α) (t : TypeTable) (i : Inference) : Offers offer (pure a) t i
  | bind {α β : Type} {m : MatchM α} {k : α → MatchM β} {t : TypeTable} {i : Inference} :
      Offers offer m t i →
        (∀ a t' i', m.run.run (t, i) = (.ok a, t', i') → Offers offer (k a) t' i') →
          Offers offer (m >>= k) t i
  | table {α : Type} {k : TypeTable → MatchM α} {t : TypeTable} {i : Inference} :
      Offers offer (k t) t i → Offers offer (MatchM.table >>= k) t i
  | inference {α : Type} {k : Inference → MatchM α} {t : TypeTable} {i : Inference} :
      Offers offer (k i) t i → Offers offer (MatchM.inference >>= k) t i
  | onTable {α : Type} {action : TableM α} (derives : action.Derives) (t : TypeTable)
      (i : Inference) : Offers offer (MatchM.onTable action) t i
  | within {m : MatchM Unit} {pattern actual : TypeId} {t : TypeTable} {i : Inference} :
      Offers offer m t { i with visiting := (pattern, actual) :: i.visiting } →
        Offers offer (MatchM.within pattern actual m) t i
  | site {parameter actual : TypeId} {t : TypeTable} {i : Inference} :
      offer parameter actual t i → Offers offer (matchParameter parameter actual) t i

/-- The candidate is structurally equal to the first one, if there has been one. -/
def Agrees (parameter actual : TypeId) (t : TypeTable) (i : Inference) : Prop :=
  ∀ first ∈ i.bindings.find? parameter, t.equals first actual = true

/-- What has been matched so far when the matching ends, well or with a conflict. Every new
binding is to a candidate that was offered, and so is every conflict about one. -/
structure Proceeds {α : Type} (offer : TypeId → TypeId → TypeTable → Inference → Prop)
    (t : TypeTable) (i : Inference) (outcome : Except InferenceError α × TypeTable × Inference) :
    Prop where
  extended : t.Extends outcome.2.1
  typeParameters : outcome.2.2.typeParameters = i.typeParameters
  visiting : outcome.2.2.visiting = i.visiting
  keeps : ∀ p b, i.bindings.find? p = some b → outcome.2.2.bindings.find? p = some b
  binds : ∀ p b, outcome.2.2.bindings.find? p = some b → i.bindings.find? p = some b ∨
    ∃ u j, offer p b u j ∧ u.Extends outcome.2.1
  conflict : ∀ e, outcome.1 = .error e → ∃ p first second j,
    e = .inconsistent p first second ∧ offer p second outcome.2.1 j ∧
      j.bindings.find? p = some first ∧ outcome.2.2.bindings.find? p = some first ∧
      outcome.2.1.equals first second = false

section Matching
variable {offer offer' : TypeId → TypeId → TypeTable → Inference → Prop} {α β : Type}
  {m : MatchM α} {t t' : TypeTable} {i i' : Inference}

namespace Proceeds

theorem pure (a : α) (t : TypeTable) (i : Inference) : Proceeds offer t i (.ok a, t, i) :=
  ⟨.refl t, rfl, rfl, fun _ _ => id, fun _ _ => .inl, nofun⟩

/-- After a part that ended well comes the next one. -/
theorem trans {a : α} {outcome : Except InferenceError β × TypeTable × Inference}
    (first : Proceeds offer t i (.ok a, t', i')) (later : Proceeds offer t' i' outcome) :
    Proceeds offer t i outcome where
  extended := first.extended.trans later.extended
  typeParameters := later.typeParameters.trans first.typeParameters
  visiting := later.visiting.trans first.visiting
  keeps p b found := later.keeps p b (first.keeps p b found)
  binds p b found := by
    refine (later.binds p b found).elim (fun before => ?_) .inr
    refine (first.binds p b before).imp_right ?_
    rintro ⟨u, j, offered, extended⟩
    exact ⟨u, j, offered, extended.trans later.extended⟩
  conflict := later.conflict

/-- A conflict ends it all. -/
theorem stop {e : InferenceError} (first : Proceeds (α := α) offer t i (.error e, t', i')) :
    Proceeds (α := β) offer t i (.error e, t', i') :=
  { first with conflict := fun _ same => first.conflict _ (congrArg _ (Except.error.inj same)) }

theorem matchParameter {parameter actual : TypeId} (offered : offer parameter actual t i) :
    Proceeds offer t i ((matchParameter parameter actual).run.run (t, i)) := by
  rw [run_matchParameter]
  cases bound : i.bindings.find? parameter with
  | none =>
      refine ⟨.refl t, rfl, rfl, fun p b found => ?_, fun p b found => ?_, nofun⟩
      · have other : parameter ≠ p := by
          rintro rfl
          cases bound.symm.trans found
        exact (Dictionary.find?_insert ..).trans ((if_neg other).trans found)
      · have found := (Dictionary.find?_insert ..).symm.trans found
        split at found
        · next same =>
            obtain rfl := Option.some.inj found
            exact .inr ⟨t, i, same ▸ offered, .refl t⟩
        · exact .inl found
  | some first =>
      dsimp only
      split
      · exact .pure () t i
      · next unequal =>
          refine ⟨.refl t, rfl, rfl, fun _ _ => id, fun _ _ => .inl, ?_⟩
          rintro _ ⟨⟩
          exact ⟨parameter, first, actual, i, rfl, offered, bound, bound,
            eq_false_of_ne_true unequal⟩

end Proceeds

theorem MatchM.Offers.proceeds (offers : m.Offers offer t i) :
    Proceeds offer t i (m.run.run (t, i)) := by
  induction offers with
  | pure a t i => exact .pure a t i
  | @bind _ _ m k t i _ _ first later =>
      rw [ExceptT.run_bind, StateT.run_bind]
      match done : m.run.run (t, i), first with
      | (.ok a, t', i'), first => exact first.trans (later a t' i' done)
      | (.error e, t', i'), first => exact first.stop
  | table _ ih => exact ih
  | inference _ ih => exact ih
  | onTable derives t i =>
      exact ⟨(derives t).extended, rfl, rfl, fun _ _ => id, fun _ _ => .inl, nofun⟩
  | within _ ih =>
      rw [run_within]
      exact { ih with visiting := congrArg List.tail ih.visiting }
  | site offered => exact .matchParameter offered

theorem MatchM.Offers.typeParameters (offers : m.Offers offer t i) {r : Except InferenceError α}
    (done : m.run.run (t, i) = (r, t', i')) : i'.typeParameters = i.typeParameters := by
  have proceeds := offers.proceeds
  rw [done] at proceeds
  exact proceeds.typeParameters

theorem MatchM.Offers.mono (offers : m.Offers offer t i)
    (weaker : ∀ p a u j, offer p a u j → offer' p a u j) : m.Offers offer' t i := by
  induction offers with
  | pure a t i => exact .pure a t i
  | bind _ _ first later => exact .bind first later
  | table _ ih => exact .table ih
  | inference _ ih => exact .inference ih
  | onTable derives t i => exact .onTable derives t i
  | within _ ih => exact .within ih
  | site offered => exact .site (weaker _ _ _ _ offered)

theorem MatchM.Offers.ite {c : Prop} [Decidable c] {yes no : MatchM α}
    (one : yes.Offers offer t i) (two : no.Offers offer t i) :
    (if c then yes else no).Offers offer t i := by
  split
  · exact one
  · exact two

/-- What has become in the end of a candidate that was offered: the type parameter is bound, and
unless there was a conflict the candidate agreed. -/
structure Answered (offer : TypeId → TypeId → TypeTable → Inference → Prop)
    (outcome : Except InferenceError α × TypeTable × Inference) (p a : TypeId) (u : TypeTable)
    (j : Inference) : Prop where
  offered : offer p a u j
  bound : outcome.2.2.bindings.find? p ≠ none
  agrees : ∀ r, outcome.1 = .ok r → Agrees p a u j

/-- What the later parts do to the bindings takes nothing back. -/
theorem Answered.later {a : α} {outcome : Except InferenceError β × TypeTable × Inference}
    (later : Proceeds offer' t' i' outcome) {p c : TypeId} {u : TypeTable} {j : Inference}
    (answered : Answered offer (.ok a, t', i') p c u j) : Answered offer outcome p c u j where
  offered := answered.offered
  bound := by
    obtain ⟨b, found⟩ := Option.ne_none_iff_exists'.mp answered.bound
    exact Option.ne_none_iff_exists'.mpr ⟨b, later.keeps p b found⟩
  agrees _ _ := answered.agrees a rfl

theorem answered_matchParameter {parameter actual : TypeId} (offered : offer parameter actual t i) :
    Answered offer ((matchParameter parameter actual).run.run (t, i)) parameter actual t i := by
  rw [run_matchParameter]
  cases bound : i.bindings.find? parameter with
  | none =>
      refine ⟨offered, ?_, fun _ _ first earlier => ?_⟩
      · change (i.bindings.insert parameter actual).find? parameter ≠ none
        rw [Dictionary.find?_insert, if_pos rfl]
        exact Option.some_ne_none actual
      · cases bound.symm.trans earlier
  | some first =>
      dsimp only
      split
      · next equal =>
          refine ⟨offered, bound ▸ Option.some_ne_none first, fun _ _ other earlier => ?_⟩
          obtain rfl := Option.some.inj (bound.symm.trans earlier)
          exact equal
      · exact ⟨offered, bound ▸ Option.some_ne_none first, nofun⟩

theorem MatchM.Offers.answered (offers : m.Offers offer t i) :
    m.Offers (Answered offer (m.run.run (t, i))) t i := by
  induction offers with
  | pure a t i => exact .pure a t i
  | @bind _ _ m k t i one two first later =>
      rw [ExceptT.run_bind, StateT.run_bind]
      match done : m.run.run (t, i), first with
      | (.ok a, t', i'), first =>
        have rest := two a t' i' done
        refine .bind (first.mono fun _ _ _ _ => Answered.later rest.proceeds) ?_
        intro a' t'' i'' ended
        obtain ⟨result, same⟩ := Prod.mk.inj (done.symm.trans ended)
        obtain ⟨rfl, rfl⟩ := Prod.mk.inj same
        obtain rfl := Except.ok.inj result
        exact later a t' i' done
      | (.error e, t', i'), first =>
        refine .bind (first.mono fun _ _ _ _ answered => ?_) fun a t'' i'' ended => ?_
        · exact ⟨answered.offered, answered.bound, nofun⟩
        · cases done.symm.trans ended
  | table _ ih => exact .table ih
  | inference _ ih => exact .inference ih
  | onTable derives t i => exact .onTable derives t i
  | within _ ih =>
      rw [run_within]
      exact .within (ih.mono fun _ _ _ _ answered =>
        ⟨answered.offered, answered.bound, answered.agrees⟩)
  | site offered => exact .site (answered_matchParameter offered)

end Matching

section Descent

/-- A candidate for one of these type parameters that is no wildcard. -/
def Proper (parameters : List TypeId) (p a : TypeId) (t : TypeTable) (_ : Inference) : Prop :=
  p ∈ parameters ∧ t.isWildcard a = false

variable {parameters : List TypeId} {matchPair : TypeId → TypeId → MatchM Unit}
  (each : ∀ pattern actual t i, i.typeParameters = parameters →
    (matchPair pattern actual).Offers (Proper parameters) t i)

include each

theorem offers_matchAll (pairs : List (TypeId × TypeId)) {t : TypeTable} {i : Inference}
    (same : i.typeParameters = parameters) :
    (matchAll matchPair pairs).Offers (Proper parameters) t i := by
  induction pairs generalizing t i with
  | nil => exact .pure () t i
  | cons pair rest ih =>
      have first := each pair.1 pair.2 t i same
      exact .bind first fun _ t' i' done => ih ((first.typeParameters done).trans same)

theorem offers_matchStructure (pattern actual : TypeId) {t : TypeTable} {i : Inference}
    (same : i.typeParameters = parameters) :
    (matchStructure matchPair pattern actual).Offers (Proper parameters) t i := by
  have byBody : MatchM.Offers (Proper parameters) (do
      let patternBody ← MatchM.onTable (resolve pattern)
      let actualBody ← MatchM.onTable (resolve actual)
      if patternBody = pattern ∧ actualBody = actual then return ()
      else matchPair patternBody actualBody) t i := by
    refine .bind (.onTable (derives_resolve pattern) t i) ?_
    rintro _ _ _ ⟨⟩
    refine .bind (.onTable (derives_resolve actual) _ i) ?_
    rintro _ _ _ ⟨⟩
    exact .ite (.pure () _ i) (each _ _ _ i same)
  refine .table ?_
  dsimp only
  split
  · refine .bind (offers_matchAll each _ same) fun _ t' i' done => each _ _ t' i' ?_
    exact ((offers_matchAll each _ same).typeParameters done).trans same
  · exact .ite (offers_matchAll each _ same) byBody
  · exact byBody
  · exact byBody
  · exact offers_matchAll each _ same
  · exact .pure () t i

omit each

theorem offers_matchWithin (fuel : Nat) : ∀ pattern actual t i, i.typeParameters = parameters →
    (matchWithin fuel pattern actual).Offers (Proper parameters) t i := by
  induction fuel with
  | zero => exact fun _ _ t i _ => .pure () t i
  | succ fuel ih =>
      intro pattern actual t i same
      rw [matchWithin_succ]
      refine .table ?_
      split
      · exact .pure () t i
      · next solid =>
          refine .inference ?_
          split
          · next listed => exact .site ⟨same ▸ listed, eq_false_of_ne_true solid⟩
          · exact .ite (.pure () t i) (.ite (.pure () t i)
              (.within (offers_matchStructure ih pattern actual same)))

end Descent

/-- A call of an inference, with the table at that time. -/
structure Call where
  table : TypeTable
  pattern : TypeId
  actual : TypeId

namespace Call
variable (call : Call) (i : Inference)

/-- What the call answers, the inference after it, and the table after it. -/
def run : (Except InferenceError Unit × Inference) × TypeTable :=
  (i.infer call.pattern call.actual).run call.table

def outcome : Except InferenceError Unit := (call.run i).1.1

def after : Inference := (call.run i).1.2

def tableAfter : TypeTable := (call.run i).2

/-- Wherever the call offers a candidate to a type parameter, the condition holds. -/
def Offers (offer : TypeId → TypeId → TypeTable → Inference → Prop) : Prop :=
  (matchWithin (depthLimit + 1) call.pattern call.actual).Offers offer call.table i

/-- What a call does. It offers candidates that are no wildcards then, it binds type parameters
to such candidates, and it ends well just if every candidate agrees with the first one. -/
structure Accounts : Prop where
  sites : call.Offers i (Proper i.typeParameters)
  keeps : ∀ p b, i.bindings.find? p = some b → (call.after i).bindings.find? p = some b
  binds : ∀ p b, (call.after i).bindings.find? p = some b → i.bindings.find? p = some b ∨
    p ∈ i.typeParameters ∧ (call.tableAfter i).isWildcard b = false
  succeeds : call.outcome i = .ok () ↔ call.Offers i Agrees
  conflict : ∀ e, call.outcome i = .error e → ∃ p first second,
    e = .inconsistent p first second ∧ p ∈ i.typeParameters ∧
      (call.after i).bindings.find? p = some first ∧
      (call.tableAfter i).equals first second = false

variable {call i} {offer : TypeId → TypeId → TypeTable → Inference → Prop}

theorem Offers.proceeds (offers : call.Offers i offer) :
    Proceeds offer call.table i (call.outcome i, call.tableAfter i, call.after i) :=
  MatchM.Offers.proceeds offers

theorem Offers.answered (offers : call.Offers i offer) :
    call.Offers i (Answered offer (call.outcome i, call.tableAfter i, call.after i)) :=
  MatchM.Offers.answered offers

variable (call i)

theorem offers_proper : call.Offers i (Proper i.typeParameters) :=
  offers_matchWithin _ _ _ _ _ rfl

theorem accounts : call.Accounts i where
  sites := call.offers_proper i
  keeps := (call.offers_proper i).proceeds.keeps
  binds p b found := by
    refine ((call.offers_proper i).proceeds.binds p b found).imp_right ?_
    rintro ⟨u, -, ⟨listed, solid⟩, extended⟩
    have inside := Assignability.lt_size_of_not_isWildcard solid
    exact ⟨listed, (extended.isWildcard inside).trans solid⟩
  succeeds := by
    constructor
    · intro done
      exact (call.offers_proper i).answered.mono fun _ _ _ _ answered => answered.agrees () done
    · intro agree
      cases done : call.outcome i with
      | ok => rfl
      | error e =>
          obtain ⟨p, first, second, j, -, agrees, before, -, unequal⟩ :=
            agree.proceeds.conflict e done
          exact absurd (agrees first before) (ne_true_of_eq_false unequal)
  conflict e failed := by
    obtain ⟨p, first, second, j, same, ⟨listed, -⟩, -, bound, unequal⟩ :=
      (call.offers_proper i).proceeds.conflict e failed
    exact ⟨p, first, second, same, listed, bound, unequal⟩

/-- A type parameter stays unbound just if no candidate is offered to it. -/
theorem unbound_iff {p : TypeId} : (call.after i).bindings.find? p = none ↔
    i.bindings.find? p = none ∧ call.Offers i fun q _ _ _ => q ≠ p := by
  constructor
  · intro unbound
    constructor
    · by_contra bound
      obtain ⟨b, found⟩ := Option.ne_none_iff_exists'.mp bound
      cases unbound.symm.trans ((call.accounts i).keeps p b found)
    · refine (call.offers_proper i).answered.mono ?_
      rintro q a u j answered rfl
      exact answered.bound unbound
  · rintro ⟨unbound, others⟩
    by_contra bound
    obtain ⟨b, found⟩ := Option.ne_none_iff_exists'.mp bound
    rcases others.proceeds.binds p b found with before | ⟨u, j, other, -⟩
    · cases unbound.symm.trans before
    · exact other rfl

end Call

/-- The inference for these type parameters after a sequence of calls, well or with conflicts. -/
def afterCalls (parameters : List TypeId) (calls : List Call) : Inference :=
  calls.foldl (fun i call => call.after i) (ofTypeParameters parameters)

/-- None of the calls, from this inference on, offers a candidate to the type parameter. -/
def Unoffered (p : TypeId) : Inference → List Call → Prop
  | _, [] => True
  | i, call :: rest => (call.Offers i fun q _ _ _ => q ≠ p) ∧ Unoffered p (call.after i) rest

/-- Between two calls the inference looks for the same type parameters, has bound no others, and
no pairs are in progress. -/
structure AtRest (parameters : List TypeId) (i : Inference) : Prop where
  typeParameters : i.typeParameters = parameters
  visiting : i.visiting = []
  keys : ∀ p ∈ i.bindings.keys, p ∈ parameters

/-- The inference is closed: it binds its type parameters and nothing else, to what they were
bound to, or else to `unknown`, and those are listed in the order of their declaration. -/
structure Closes (i : Inference) (result : Instantiation) : Prop where
  keys : ∀ p, p ∈ result.bindings.keys ↔ p ∈ i.typeParameters
  bindings : ∀ p ∈ i.typeParameters,
    result.bindings.find? p = some ((i.bindings.find? p).getD TypeId.unknown)
  unresolved : result.unresolved =
    (i.typeParameters.filter fun p => !i.bindings.contains p).eraseDups

section Calls
variable {parameters : List TypeId} {i : Inference}

theorem atRest_ofTypeParameters (parameters : List TypeId) :
    (ofTypeParameters parameters).AtRest parameters := ⟨rfl, rfl, List.forall_mem_nil _⟩

theorem AtRest.after (atRest : i.AtRest parameters) (call : Call) :
    (call.after i).AtRest parameters := by
  have proceeds := (call.offers_proper i).proceeds
  refine ⟨proceeds.typeParameters.trans atRest.typeParameters,
    proceeds.visiting.trans atRest.visiting, fun p bound => ?_⟩
  obtain ⟨b, found⟩ := Option.isSome_iff_exists.mp ((Dictionary.contains_iff _ p).mpr bound)
  rcases (call.accounts i).binds p b found with before | ⟨listed, -⟩
  · have bound := Option.isSome_iff_exists.mpr ⟨b, before⟩
    exact atRest.keys p ((Dictionary.contains_iff _ p).mp bound)
  · exact atRest.typeParameters ▸ listed

theorem AtRest.foldl (atRest : i.AtRest parameters) (calls : List Call) :
    (calls.foldl (fun i call => call.after i) i).AtRest parameters := by
  induction calls generalizing i with
  | nil => exact atRest
  | cons call rest ih => exact ih (atRest.after call)

/-- What is bound stays bound to the same type, whatever is called. -/
theorem find?_foldl_after {p b : TypeId} (calls : List Call) (bound : i.bindings.find? p = some b) :
    (calls.foldl (fun i call => call.after i) i).bindings.find? p = some b := by
  induction calls generalizing i with
  | nil => exact bound
  | cons call rest ih => exact ih ((call.accounts i).keeps p b bound)

theorem find?_foldl_after_eq_none_iff {p : TypeId} (calls : List Call) :
    (calls.foldl (fun i call => call.after i) i).bindings.find? p = none ↔
      i.bindings.find? p = none ∧ Unoffered p i calls := by
  induction calls generalizing i with
  | nil => exact (and_iff_left trivial).symm
  | cons call rest ih => exact ih.trans ((and_congr_left' (call.unbound_iff i)).trans and_assoc)

end Calls

section Closing

/-- The type parameters without a type are listed in their order, each once. -/
theorem unresolved_foldl_close (rest : List TypeId) (start : Instantiation) :
    (rest.foldl close start).unresolved =
      start.unresolved ++ (rest.filter fun p => !start.bindings.contains p).eraseDups := by
  induction rest generalizing start with
  | nil => exact (List.append_nil _).symm
  | cons q rest ih =>
      rw [List.foldl_cons, ih, close]
      by_cases bound : start.bindings.contains q = true
      · rw [if_pos bound, List.filter_cons_of_neg (by simp [bound])]
      · have others : (rest.filter fun p =>
            !(start.bindings.insert q TypeId.unknown).contains p) =
            (rest.filter fun p => !start.bindings.contains p).filter fun p => !p == q := by
          rw [List.filter_filter]
          refine List.filter_congr fun p _ => ?_
          simp only [Dictionary.contains_insert, Bool.not_or, Bool.beq_eq_decide_eq, @eq_comm _ q p]
        rw [if_neg bound, List.filter_cons_of_pos (by simp [bound]), List.eraseDups_cons, others,
          List.append_assoc, List.singleton_append]

theorem AtRest.closes {parameters : List TypeId} {i : Inference} (atRest : i.AtRest parameters) :
    i.Closes i.finish where
  keys p := by
    rw [← Dictionary.contains_iff, contains_finish, Dictionary.contains_iff]
    exact or_iff_right_of_imp fun bound => atRest.typeParameters ▸ atRest.keys p bound
  bindings p listed := by
    cases found : i.bindings.find? p with
    | some b => exact ((find?_finish i listed).1 b found).1
    | none => exact ((find?_finish i listed).2 found).1
  unresolved :=
    (unresolved_foldl_close i.typeParameters ⟨i.bindings, []⟩).trans (List.nil_append _)

end Closing

/-- After every sequence of calls, with conflicts or without, over whatever tables, no pairs are
in progress and only type parameters of the inference are bound. Any further call does what is
expected of a call, and what is bound stays bound to the same type from then on. When the
inference is closed, the type parameters that are left open are those which no call has offered
a candidate to. -/
theorem afterCalls_accounted (parameters : List TypeId) (calls : List Call) :
    (afterCalls parameters calls).AtRest parameters ∧
    (∀ call : Call, call.Accounts (afterCalls parameters calls)) ∧
    (∀ more p b, (afterCalls parameters calls).bindings.find? p = some b →
      (afterCalls parameters (calls ++ more)).bindings.find? p = some b) ∧
    (afterCalls parameters calls).Closes (afterCalls parameters calls).finish ∧
    ∀ p, p ∈ (afterCalls parameters calls).finish.unresolved ↔
      p ∈ parameters ∧ Unoffered p (ofTypeParameters parameters) calls := by
  have atRest : (afterCalls parameters calls).AtRest parameters :=
    (atRest_ofTypeParameters parameters).foldl calls
  refine ⟨atRest, fun call => call.accounts _, fun more p b bound => ?_, atRest.closes,
    fun p => ?_⟩
  · rw [afterCalls, List.foldl_append]
    exact find?_foldl_after more bound
  · have open' := find?_foldl_after_eq_none_iff (i := ofTypeParameters parameters) (p := p) calls
    rw [atRest.closes.unresolved, List.mem_eraseDups, List.mem_filter, atRest.typeParameters]
    refine and_congr_right' ?_
    rw [Bool.not_eq_true', ← Bool.not_eq_true, Dictionary.contains, Option.not_isSome_iff_eq_none]
    exact open'.trans (and_iff_right rfl)

/-- A conflict leaves the inference as it was: `T` keeps its first candidate `number`, and `U`,
which only an unknown type is matched against, is left open. -/
example :
    let t := ((TypeTable.initial.addTypeParameter "T").2.addTypeParameter "U").2
    let calls : List Call := [⟨t, 7, TypeId.number⟩, ⟨t, 7, TypeId.string⟩, ⟨t, 8, TypeId.unknown⟩]
    (afterCalls [7, 8] (calls.take 2)).finish = (afterCalls [7, 8] calls).finish ∧
      (afterCalls [7, 8] calls).finish =
        ⟨⟨[(7, TypeId.number), (8, TypeId.unknown)]⟩, [8]⟩ ∧
      Call.outcome ⟨t, 7, TypeId.string⟩ (afterCalls [7, 8] (calls.take 1)) =
        .error (.inconsistent 7 TypeId.number TypeId.string) := by
  decide +kernel

end StructuralTyping.Inference
