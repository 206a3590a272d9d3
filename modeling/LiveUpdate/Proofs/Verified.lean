import LiveUpdate.Proofs.Computation
import LiveUpdate.Shape.Basic
import LiveUpdate.Unit.Verify
import Mathlib.Data.List.Nodup

/-!
# What verification establishes

A verified unit declares every method key once, and a method of it has a body exactly when
it is not abstract.
-/

set_option autoImplicit false

namespace LiveUpdate.TypeUnit

variable {u : TypeUnit}

/-- A key that the checker has seen is not declared again, and every method passes. -/
theorem checkMethods_eq_ok {seen : List MemberKey} {methods : List MethodDef}
    (passes : u.checkMethods seen methods = .ok ()) :
    (methods.map MethodDef.key).Nodup ∧ ∀ m ∈ methods, m.key ∉ seen ∧ u.checkMethod m = .ok () := by
  induction methods generalizing seen with
  | nil => exact ⟨List.nodup_nil, fun m mem => by cases mem⟩
  | cons m rest ih =>
    unfold checkMethods at passes
    split at passes
    · cases passes
    next new =>
      split at passes
      · cases passes
      · obtain ⟨done, passes₁, passes₂⟩ := Exec.bind_eq_ok.1 passes
        obtain ⟨distinct, others⟩ := ih passes₂
        refine ⟨?_, fun m' mem => ?_⟩
        · rw [List.map_cons, List.nodup_cons]
          refine ⟨fun again => ?_, distinct⟩
          obtain ⟨m', mem, same⟩ := List.mem_map.1 again
          exact (others m' mem).1 (same ▸ List.mem_cons_self)
        · rcases List.mem_cons.1 mem with rfl | mem
          · exact ⟨new, passes₁⟩
          · exact ⟨fun old => (others m' mem).1 (List.mem_cons_of_mem _ old), (others m' mem).2⟩

theorem checkMethods_of_verify (verified : u.verify = .ok ()) :
    u.checkMethods [] u.methods = .ok () := by
  unfold verify at verified
  cases fault : u.headerFault? with
  | some fault' =>
    rw [fault] at verified
    cases verified
  | none =>
    rw [fault] at verified
    obtain ⟨done, -, rest⟩ := Exec.bind_eq_ok.1 verified
    exact rest

/-- A name that the checker has seen is not declared again. -/
theorem checkFields_eq_ok {seen : List String} {fields : List FieldDef}
    (passes : u.checkFields seen fields = .ok ()) :
    (fields.map FieldDef.name).Nodup ∧ ∀ f ∈ fields, f.name ∉ seen := by
  induction fields generalizing seen with
  | nil => exact ⟨List.nodup_nil, fun f mem => by cases mem⟩
  | cons f rest ih =>
    unfold checkFields at passes
    split at passes
    · cases passes
    next new =>
      split at passes
      · cases passes
      · obtain ⟨distinct, others⟩ := ih passes
        refine ⟨?_, fun f' mem => ?_⟩
        · rw [List.map_cons, List.nodup_cons]
          refine ⟨fun again => ?_, distinct⟩
          obtain ⟨f', mem, same⟩ := List.mem_map.1 again
          exact others f' mem (same ▸ List.mem_cons_self)
        · rcases List.mem_cons.1 mem with rfl | mem
          · exact new
          · exact fun old => others f' mem (List.mem_cons_of_mem _ old)

/-- The fields of a verified unit have distinct names. -/
theorem nodup_names_of_verify (verified : u.verify = .ok ()) :
    (u.fields.map FieldDef.name).Nodup := by
  unfold verify at verified
  cases fault : u.headerFault? with
  | some fault' =>
    rw [fault] at verified
    cases verified
  | none =>
    rw [fault] at verified
    obtain ⟨_, fields, -⟩ := Exec.bind_eq_ok.1 verified
    exact (checkFields_eq_ok fields).1

/-- The methods of a verified unit have distinct keys. -/
theorem nodup_keys_of_verify (verified : u.verify = .ok ()) :
    (u.methods.map MethodDef.key).Nodup :=
  (checkMethods_eq_ok (checkMethods_of_verify verified)).1

/-- In a verified unit a method has no body exactly when it is abstract. -/
theorem isAbstract_iff_of_verify (verified : u.verify = .ok ()) {m : MethodDef}
    (mem : m ∈ u.methods) : m.modifiers.isAbstract = true ↔ m.code.isEmpty = true := by
  have passes := ((checkMethods_eq_ok (checkMethods_of_verify verified)).2 m mem).2
  unfold checkMethod at passes
  dsimp only at passes
  cases abstract : m.modifiers.isAbstract with
  | true =>
    rw [abstract, if_pos rfl] at passes
    cases empty : m.code.isEmpty with
    | true => exact ⟨fun _ => rfl, fun _ => rfl⟩
    | false =>
      rw [empty] at passes
      cases passes
  | false =>
    rw [abstract] at passes
    cases empty : m.code.isEmpty with
    | true =>
      rw [empty] at passes
      cases passes
    | false => exact ⟨fun h => (nomatch h), fun h => (nomatch h)⟩

/-- A method of a verified unit is the only one with its key. -/
theorem eq_of_key_eq (verified : u.verify = .ok ()) {m m' : MethodDef} (mem : m ∈ u.methods)
    (mem' : m' ∈ u.methods) (same : m.key = m'.key) : m = m' :=
  List.inj_on_of_nodup_map (nodup_keys_of_verify verified) mem mem' same

end LiveUpdate.TypeUnit
