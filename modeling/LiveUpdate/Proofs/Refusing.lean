import LiveUpdate.Proofs.Books

/-!
# Refused reloads

A reload that is refused, or that fails before it has published a version, leaves the
engine as it was.
-/

set_option autoImplicit false

namespace LiveUpdate

open ManagedType

namespace ManagedType

variable {e e' : Engine} {t : TypeRef} {stamp : String} {v : LiveVersion}

/-- The books of a type that has published a version. -/
theorem Publishes.books_typeAt (publishes : Publishes e t stamp v e') (type_lt : t < e.types.size) :
    ∃ keys : List MemberKey, (∀ key ∈ keys, key.isStaticInit = false) ∧
      v.dispatch.entries.map Prod.fst =
        ((e.typeAt t).slots.assignAll keys .added).slots.map Slot.key ∧
      (e'.typeAt t).books = ({ e.typeAt t with
        slots := (e.typeAt t).slots.assignAll keys .added }.publish v).books := by
  obtain ⟨keys, enterable, entries, books⟩ := publishes.books
  refine ⟨keys, enterable, entries, ?_⟩
  have books_lt : t < e.books.size := by rwa [e.size_books]
  rw [← e'.getD_books, books, Engine.getD_modify _ _ _ _ _ books_lt, if_pos rfl, e.getD_books]
  rfl

/-- A publication appends the version and refuses nothing. -/
theorem Publishes.versions (publishes : Publishes e t stamp v e') (type_lt : t < e.types.size) :
    (e'.typeAt t).versions = (e.typeAt t).versions ++ [v] ∧
      (e'.typeAt t).rejected = (e.typeAt t).rejected := by
  obtain ⟨keys, -, -, books⟩ := publishes.books_typeAt type_lt
  have versions : (e'.typeAt t).books.versions = (e.typeAt t).versions ++ [v] := by rw [books]; rfl
  have rejected : (e'.typeAt t).books.rejected = (e.typeAt t).rejected := by rw [books]; rfl
  exact ⟨versions, rejected⟩

end ManagedType

/-- In a reachable engine that has not given away the names of the classes to be generated
next, a reload that is refused only counts the refusal.  One that is accepted appends a
version.  One that fails has either done nothing but call observers, or it has appended a
version, and then the static initializer that was run again has failed or an observer has
complained.  Only a refusal is counted. -/
theorem load_refused_leaves_engine {e : Engine} {t : TypeRef} (reachable : e.Reachable)
    (managed : e.IsManaged t) (free : e.NamesFree t) (fuel : Nat) (stamp : String)
    (data : List UInt8) :
    (∀ e', load fuel t stamp data e = .ok false e' →
      e' = e.updateType t fun type => { type with rejected := type.rejected + 1 }) ∧
    (∀ e', load fuel t stamp data e = .ok true e' →
      (e'.typeAt t).rejected = (e.typeAt t).rejected ∧
      ∃ v, (e'.typeAt t).versions = (e.typeAt t).versions ++ [v]) ∧
    ∀ stop e', load fuel t stamp data e = .error stop e' →
      (∃ trace, e' = { e with trace }) ∨
        (e'.typeAt t).rejected = (e.typeAt t).rejected ∧
        ∃ v native, (e'.typeAt t).versions = (e.typeAt t).versions ++ [v] ∧
          (e.typeAt t).native = some native ∧ FailsLate e fuel t native v stop e' := by
  have ends := ends_load reachable.grounded managed.1 fuel stamp data
  refine ⟨fun e' run => ends.ok run, fun e' run => ?_, fun stop e' run => ?_⟩
  · obtain ⟨v, publishes⟩ := ends.ok run
    obtain ⟨versions, rejected⟩ := publishes.versions managed.1
    exact ⟨rejected, v, versions⟩
  · rcases ends.error run with traced | ⟨taken, -⟩ | ⟨v, native, hosted, publishes, late⟩
    · exact .inl traced
    · exact absurd free taken
    · obtain ⟨versions, rejected⟩ := publishes.versions managed.1
      exact .inr ⟨rejected, v, native, versions, hosted, late⟩

namespace Refused

/-- The type with another supertype, which the host cannot honour. -/
def moved : TypeUnit := (Overloaded.overloaded 1 2).extending "app.Y"

/-- Whether a reload was refused. -/
def isRefusal (outcome : EStateM.Result (Stop ReloadError) Engine Bool) : Bool :=
  match outcome with
  | .ok accepted _ => !accepted
  | .error .. => false

set_option maxRecDepth 100000 in
theorem outcome :
    Overloaded.engine.class? 0 "app.T$$I1" = some 1 ∧
    Overloaded.engine.class? 0 (contractName "app.T" 2) = none ∧
    Overloaded.engine.class? 0 (executorName "app.T" 2) = none ∧
    ((Overloaded.engine.typeAt 0).scope, (Overloaded.engine.typeAt 0).name,
      (Overloaded.engine.typeAt 0).nextArtifact) = (0, "app.T", 2) ∧
    isRefusal (load 4 0 "moved" moved.encode Overloaded.engine) = true := by
  decide +kernel

end Refused

open Refused in
/-- A type that has been reloaded, and whose next generated classes have names of their own,
refuses a reload. -/
theorem load_refused_leaves_engine_moved :
    Overloaded.engine.Reachable ∧ Overloaded.engine.IsManaged 0 ∧ Overloaded.engine.NamesFree 0 ∧
    ∃ e', load 4 0 "moved" moved.encode Overloaded.engine = .ok false e' ∧
      e' = Overloaded.engine.updateType 0 fun type => { type with rejected := type.rejected + 1 } := by
  obtain ⟨-, contract, executor, place, refused⟩ := outcome
  obtain ⟨scope, name, next⟩ : _ = _ ∧ _ = _ ∧ _ = _ := by simpa only [Prod.mk.injEq] using place
  have free : Overloaded.engine.NamesFree 0 := by
    refine ⟨?_, ?_⟩
    · rw [scope, name, next]
      exact contract
    · rw [scope, name, next]
      exact executor
  have managed := Overloaded.entries.2.1
  refine ⟨Overloaded.reachable, managed, free, ?_⟩
  have leaves := (load_refused_leaves_engine Overloaded.reachable managed free 4 "moved"
    moved.encode).1
  cases run : load 4 0 "moved" moved.encode Overloaded.engine with
  | ok accepted e' =>
    rw [run] at refused
    have accepted_eq : accepted = false := by simpa [isRefusal] using refused
    subst accepted_eq
    exact ⟨e', rfl, leaves e' run⟩
  | error stop e' =>
    rw [run] at refused
    cases refused

end LiveUpdate
