import LiveUpdate.Proofs.Metadata

/-!
# Metadata is never out of date

What reflection answers about a type is compared here with what it would make of the type now if it
remembered nothing.  A managed type is described by its version in force, any other type by the
unit of its class.  Whatever has been defined, reloaded, refused and asked before, the answer is
the same.
-/

set_option autoImplicit false

namespace LiveUpdate

open Exec

namespace Engine

variable {e : Engine} {s : ScopeRef} {c : ClassRef} {typeName : String}

/-- The metadata that is made of a type as it is now.  A type that is not managed has version 0. -/
def currentMetadata (e : Engine) (s : ScopeRef) (typeName : String) :
    Except RunError TypeMetadata :=
  match e.class? s typeName with
  | none => .error (.classNotFound typeName)
  | some c =>
    match e.managedOf? s c with
    | some t => .ok (.ofShape (e.typeAt t).live.shape (e.typeAt t).live.number)
    | none =>
      match TypeShape.extract (e.classAt c).unit with
      | .ok shape => .ok (.ofShape shape 0)
      | .error error => .error (.link (.undescribed (e.nameOf c) error))

theorem currentMetadata_eq (known : e.class? s typeName = some c) :
    e.currentMetadata s typeName =
      (Reflect.shapeOf e s c).map fun shape => .ofShape shape (Reflect.versionOf e s c) := by
  unfold currentMetadata Reflect.shapeOf Reflect.versionOf
  rw [known]
  dsimp only
  cases e.managedOf? s c with
  | some t => rfl
  | none =>
    dsimp only
    cases TypeShape.extract (e.classAt c).unit <;> rfl

/-- What is remembered is at most used for a type that can be described now. -/
theorem Reachable.shapeOf_of_remembered (reachable : e.Reachable)
    (known : e.class? s typeName = some c) {m : TypeMetadata}
    (recalled : Reflect.remembered? e s typeName (Reflect.versionOf e s c) = some m) :
    ∃ shape, Reflect.shapeOf e s c = .ok shape := by
  obtain ⟨held, -⟩ := Option.filter_eq_some_iff.1 recalled
  obtain ⟨c', known', depicted⟩ := reachable.recollects s typeName m held
  obtain rfl : c = c' := Option.some.inj (known.symm.trans known')
  cases managed : e.managedOf? s c with
  | some t => exact ⟨_, shapeOf_of_managed managed⟩
  | none =>
    rw [managed] at depicted
    obtain ⟨shape, extracted, -⟩ := depicted
    refine ⟨shape, ?_⟩
    unfold Reflect.shapeOf
    rw [managed, extracted]
    rfl

end Engine

/-- After any sequence of operations, such as definitions, reloads that are accepted, refused or
fail, and queries, reflection answers about any type what is made of the type as it is now, and an
error exactly if that is one.  Asking leads to another such engine, in which nothing has changed
but what is remembered. -/
theorem metadata_never_stale {e : Engine} (reachable : e.Reachable) (s : ScopeRef)
    (typeName : String) : ∃ e', Reflect.metadata s typeName e =
        (ofResult (e.currentMetadata s typeName) : Run TypeMetadata) e' ∧
      e'.Reachable ∧ e'.skeleton = e.skeleton := by
  cases known : e.class? s typeName with
  | none =>
    have missing : e.requireClass s typeName = .error (.classNotFound typeName) := by
      unfold Engine.requireClass
      rw [known]
    refine ⟨e, ?_, reachable, rfl⟩
    unfold Reflect.metadata Engine.currentMetadata
    rw [bind_apply, check_apply, missing, known]
    rfl
  | some c =>
    cases shaped : Reflect.shapeOf e s c with
    | ok shape =>
      obtain ⟨e', answers, reachable', same⟩ := reachable.metadata_eq known shaped
      refine ⟨e', ?_, reachable', same⟩
      rw [answers, Engine.currentMetadata_eq known, shaped]
      rfl
    | error error =>
      -- nothing can be remembered of a type that cannot be described
      have forgotten :
          Reflect.remembered? e s typeName (Reflect.versionOf e s c) = none := by
        cases recalled : Reflect.remembered? e s typeName (Reflect.versionOf e s c) with
        | none => rfl
        | some m =>
          obtain ⟨shape, described⟩ := reachable.shapeOf_of_remembered known recalled
          cases shaped.symm.trans described
      refine ⟨e, ?_, reachable, rfl⟩
      rw [Reflect.metadata_apply known, forgotten, Engine.currentMetadata_eq known, shaped]
      rfl

namespace Recalled

/-- A type with one field. -/
def first : TypeUnit := (TypeUnit.named "app.T").addField ⟨"a", .int, .publicBit, none, []⟩

/-- The type with one more. -/
def second : TypeUnit := first.addField ⟨"b", .int, .publicBit, none, []⟩

/-- A version with another supertype, which is refused. -/
def third : TypeUnit := second.extending "app.U"

/-- A scope in which the type was defined and asked about. -/
def asked : Engine := (Reflect.metadata 0 "app.T").final
  (((Engine.opened { included := ["app.*"] }).defining 4 (.named "app.U")).defining 4 first)

/-- The scope after a reload and another question. -/
def reloaded : Engine :=
  (Reflect.metadata 0 "app.T").final (asked.reloading 4 1 "later" second)

/-- The scope after one more reload, which is refused. -/
def engine : Engine := reloaded.reloading 4 1 "last" third

/-- The version and the names of the fields that metadata shows. -/
def shown (m : TypeMetadata) : Nat × List String := (m.version, m.fields.map (·.member.name))

/-- What is remembered of the type. -/
def remembered (e : Engine) : Option (Nat × List String) :=
  ((e.scopeAt 0).metadata.get? "app.T").map shown

set_option maxRecDepth 100000 in
theorem outcomes :
    (((Engine.opened { included := ["app.*"] }).defining 4 (.named "app.U")).scopes.size = 1 ∧
      asked.types.size = 2 ∧ reloaded.types.size = 2) ∧
    remembered asked = some (0, ["a"]) ∧ remembered engine = some (1, ["a", "b"]) ∧
    (engine.currentMetadata 0 "app.T").toOption.map shown = some (1, ["a", "b"]) := by
  decide +kernel

theorem reachable : engine.Reachable := by
  obtain ⟨⟨one, two, two'⟩, -⟩ := outcomes
  have opened : (Engine.opened { included := ["app.*"] }).Reachable := Engine.reachable_opened _
  have defined : asked.Reachable :=
    ((opened.defining 4 (.named "app.U") (by decide)).defining 4 first
      (by rw [one]; exact Nat.one_pos)).step (.metadata 0 "app.T")
  have again : reloaded.Reachable :=
    (defined.reloading 4 1 "later" second (by rw [two]; exact Nat.one_lt_two)).step
      (.metadata 0 "app.T")
  exact again.reloading 4 1 "last" third (by rw [two']; exact Nat.one_lt_two)

end Recalled

open Recalled in
/-- A type is asked about before and after a reload, and once more after a reload that is refused:
what is remembered is shown again, and it is the version in force. -/
theorem metadata_never_stale_reloaded : remembered asked = some (0, ["a"]) ∧
    ∃ m e', Reflect.metadata 0 "app.T" engine = .ok m e' ∧ shown m = (1, ["a", "b"]) := by
  obtain ⟨-, before, -, now⟩ := outcomes
  obtain ⟨e', answers, -, -⟩ := metadata_never_stale reachable 0 "app.T"
  generalize engine = e at *
  refine ⟨before, ?_⟩
  cases current : e.currentMetadata 0 "app.T" with
  | error error =>
    rw [current] at now
    cases now
  | ok m =>
    rw [current] at now answers
    exact ⟨m, e', answers, Option.some.inj now⟩

end LiveUpdate
