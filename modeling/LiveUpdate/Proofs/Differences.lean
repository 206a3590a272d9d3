import LiveUpdate.Dispatch.Table
import LiveUpdate.Proofs.Table
import LiveUpdate.Proofs.Verified

/-!
# Differences of verified shapes

In a shape that comes from a verified unit no field name and no method key is declared
twice, so the difference from it is what its members, taken one by one, say.
-/

set_option autoImplicit false

namespace LiveUpdate

section Labels

variable {α β : Type} [DecidableEq β] {label : α → β} {xs : List α}

/-- Two lists have the same entries when every entry of the second is what the first has
under its label, and every label of the first is one of the second. -/
theorem find?_label_eq_some_iff_mem_iff {ys : List α} (distinct : (xs.map label).Nodup)
    (distinct' : (ys.map label).Nodup) :
    (∀ y ∈ ys, xs.find? (fun a => label a = label y) = some y) ∧
        (∀ x ∈ xs, ys.find? (fun a => label a = label x) ≠ none) ↔
      ∀ a, a ∈ xs ↔ a ∈ ys := by
  constructor
  · rintro ⟨found, kept⟩ a
    constructor
    · intro mem
      obtain ⟨y, found'⟩ := Option.ne_none_iff_exists'.1 (kept a mem)
      have mem' := List.mem_of_find?_eq_some found'
      have labelled : label y = label a := by simpa using List.find?_some found'
      have again := List.mem_of_find?_eq_some (found y mem')
      exact List.inj_on_of_nodup_map distinct again mem labelled ▸ mem'
    · exact fun mem => List.mem_of_find?_eq_some (found a mem)
  · intro same
    refine ⟨fun y mem => find?_label_eq_some distinct ((same y).2 mem), fun x mem => ?_⟩
    rw [find?_label_eq_some distinct' ((same x).1 mem)]
    exact Option.some_ne_none x

end Labels

/-- A unit that has a shape has only that one. -/
theorem TypeShape.eq_ofUnit {u : TypeUnit} {shape : TypeShape}
    (shaped : TypeShape.extract u = .ok shape) : shape = .ofUnit u := by
  unfold TypeShape.extract at shaped
  split at shaped
  · cases shaped
  · split at shaped
    · cases shaped
    · split at shaped
      · cases shaped
      · cases shaped
        rfl

/-- No member of a shape is declared twice. -/
structure TypeShape.Simple (s : TypeShape) : Prop where
  fields : (s.fields.map FieldDef.name).Nodup
  methods : (s.methods.map MethodShape.key).Nodup

/-- The shape of a verified unit declares every member once. -/
theorem TypeShape.simple_ofUnit {u : TypeUnit} (verified : u.verify = .ok ()) :
    (TypeShape.ofUnit u).Simple := by
  refine ⟨TypeUnit.nodup_names_of_verify verified, ?_⟩
  have keys := TypeUnit.nodup_keys_of_verify verified
  show ((u.methods.map MethodShape.ofDef).map MethodShape.key).Nodup
  rw [List.map_map]
  exact keys

namespace ShapeDiff

variable {earlier latest s : TypeShape} {key : MemberKey} {m m₀ : MethodShape}

theorem lastMethod?_eq (simple : s.Simple) (key : MemberKey) :
    lastMethod? s key = s.method? key :=
  find?_label_reverse simple.methods key

/-- What changed about a method of the latest shape is what changed about the method that has
its key. -/
theorem methodChange?_between (simple : latest.Simple) (declared : latest.method? key = some m) :
    (between earlier latest).methodChange? key = (methodChangeOf? earlier m).map Prod.snd := by
  have key_eq : m.key = key := by simpa using List.find?_some declared
  have mem := List.mem_of_find?_eq_some declared
  have keyed {m' : MethodShape} {entry : MemberKey × MethodChange}
      (change : methodChangeOf? earlier m' = some entry) : entry.1 = m'.key := by
    unfold methodChangeOf? at change
    obtain ⟨-, same⟩ := Option.ite_none_right_eq_some.1 change
    cases same
    rfl
  have only {entry : MemberKey × MethodChange}
      (listed : entry ∈ latest.methods.filterMap (methodChangeOf? earlier))
      (named : entry.1 = key) : methodChangeOf? earlier m = some entry := by
    obtain ⟨m', mem', change⟩ := List.mem_filterMap.1 listed
    have same : m'.key = m.key := (keyed change).symm.trans (named.trans key_eq.symm)
    rw [← List.inj_on_of_nodup_map simple.methods mem' mem same]
    exact change
  unfold methodChange?
  cases found : (between earlier latest).methods.find? fun entry => entry.1 = key with
  | some entry =>
    have named : entry.1 = key := by simpa using List.find?_some found
    rw [only (List.mem_of_find?_eq_some found) named]
  | none =>
    cases change : methodChangeOf? earlier m with
    | none => rfl
    | some entry =>
      have listed : entry ∈ (between earlier latest).methods :=
        List.mem_filterMap.2 ⟨m, mem, change⟩
      have missed := List.find?_eq_none.1 found entry listed
      exact absurd (decide_eq_true ((keyed change).trans key_eq)) missed

/-- A method that an earlier shape has is listed as changed unless its code and its kind are
the same. -/
theorem same_of_methodChangeOf?_eq_none (simple : earlier.Simple)
    (before : earlier.method? m.key = some m₀) (unlisted : methodChangeOf? earlier m = none) :
    m.codeDigest = m₀.codeDigest ∧ m.isStatic = m₀.isStatic := by
  unfold methodChangeOf? at unlisted
  rw [lastMethod?_eq simple, before] at unlisted
  dsimp only at unlisted
  split at unlisted
  · cases unlisted
  next silent =>
    have silent : (MethodChange.between m₀ m).any = false := by simpa using silent
    unfold MethodChange.any MethodChange.between at silent
    simp only [Bool.or_eq_false_iff, decide_eq_false_iff_not, ne_eq, Decidable.not_not] at silent
    obtain ⟨⟨⟨⟨-, body⟩, access⟩, -⟩, -⟩ := silent
    refine ⟨body.symm, ?_⟩
    unfold MethodShape.isStatic
    rw [access]

/-- A shape without differences lists no changed method, and neither adds nor drops one. -/
theorem isEmpty_methods {d : ShapeDiff} (empty : d.isEmpty = true) :
    d.methods = [] ∧ d.deletedMethods = [] := by
  unfold isEmpty at empty
  simp only [Bool.and_eq_true, List.isEmpty_iff] at empty
  exact ⟨empty.1.1.1.1.1.1.2, empty.1.1.1.1.1.2⟩

/-- A listed method makes a difference. -/
theorem methodChangeOf?_eq_none_of_isEmpty (empty : (between earlier latest).isEmpty = true)
    (mem : m ∈ latest.methods) : methodChangeOf? earlier m = none :=
  List.filterMap_eq_nil_iff.1 (isEmpty_methods empty).1 m mem

/-- Between two declarations of a name nothing changed when they are the same. -/
theorem any_fieldChange_eq_false_iff {old f : FieldDef} (named : old.name = f.name) :
    (FieldChange.between old f).any = false ↔ old = f := by
  unfold FieldChange.any FieldChange.between
  cases old
  cases f
  simp_all only [FieldDef.mk.injEq, Bool.or_eq_false_iff, decide_eq_false_iff_not, ne_eq,
    Decidable.not_not, true_and]
  tauto

/-- Between two shapes of a key nothing changed when they are the same. -/
theorem any_methodChange_eq_false_iff (keyed : m₀.key = m.key) :
    (MethodChange.between m₀ m).any = false ↔ m₀ = m := by
  unfold MethodChange.any MethodChange.between
  cases m₀
  cases m
  simp_all only [MethodShape.key, MemberKey.mk.injEq, MethodShape.mk.injEq, Bool.false_or,
    Bool.or_eq_false_iff, decide_eq_false_iff_not, ne_eq, Decidable.not_not, true_and]
  tauto

/-- A field of the latest shape is neither new nor changed when the earlier shape has it. -/
theorem field_unlisted_iff {f : FieldDef} :
    lastField? earlier f.name ≠ none ∧ fieldChangeOf? earlier f = none ↔
      lastField? earlier f.name = some f := by
  unfold fieldChangeOf?
  cases found : lastField? earlier f.name with
  | none => simp
  | some old =>
    have named : old.name = f.name := by simpa using List.find?_some found
    simp [any_fieldChange_eq_false_iff named]

/-- A method of the latest shape is not listed when the earlier shape has it. -/
theorem methodChangeOf?_eq_none_iff :
    methodChangeOf? earlier m = none ↔ lastMethod? earlier m.key = some m := by
  unfold methodChangeOf?
  cases found : lastMethod? earlier m.key with
  | none => simp [MethodChange.ofAdded, MethodChange.any]
  | some old =>
    have keyed : old.key = m.key := by simpa using List.find?_some found
    simp [any_methodChange_eq_false_iff keyed]

/-- No field is listed when both shapes have the same ones. -/
theorem fields_unlisted_iff (simple : earlier.Simple) (simple' : latest.Simple) :
    ((between earlier latest).addedFields = [] ∧ (between earlier latest).removedFields = [] ∧
        (between earlier latest).changedFields = []) ↔
      ∀ f, f ∈ earlier.fields ↔ f ∈ latest.fields := by
  rw [← find?_label_eq_some_iff_mem_iff simple.fields simple'.fields]
  have same (s : TypeShape) (simple : s.Simple) (name : String) :
      lastField? s name = s.fields.find? fun f => f.name = name :=
    find?_label_reverse simple.fields name
  simp only [between, List.map_eq_nil_iff, List.filter_eq_nil_iff, List.filterMap_eq_nil_iff,
    Option.isNone_iff_eq_none, ← same earlier simple, ← same latest simple']
  constructor
  · rintro ⟨added, removed, changed⟩
    exact ⟨fun f mem => field_unlisted_iff.1 ⟨added f mem, changed f mem⟩, removed⟩
  · rintro ⟨found, removed⟩
    exact ⟨fun f mem => (field_unlisted_iff.2 (found f mem)).1, removed,
      fun f mem => (field_unlisted_iff.2 (found f mem)).2⟩

/-- No method is listed when both shapes have the same ones. -/
theorem methods_unlisted_iff (simple : earlier.Simple) (simple' : latest.Simple) :
    ((between earlier latest).methods = [] ∧ (between earlier latest).deletedMethods = []) ↔
      ∀ m, m ∈ earlier.methods ↔ m ∈ latest.methods := by
  rw [← find?_label_eq_some_iff_mem_iff simple.methods simple'.methods]
  simp only [between, List.filter_eq_nil_iff, List.filterMap_eq_nil_iff,
    Option.isNone_iff_eq_none, List.forall_mem_map, methodChangeOf?_eq_none_iff,
    lastMethod?_eq simple, lastMethod?_eq simple']
  rfl

/-- Two verified shapes do not differ when they declare the same members, whatever the
order, and agree in everything else that a type declares. -/
theorem isEmpty_between_iff (simple : earlier.Simple) (simple' : latest.Simple) :
    (between earlier latest).isEmpty = true ↔
      earlier.superName = latest.superName ∧ earlier.interfaces = latest.interfaces ∧
        earlier.modifiers = latest.modifiers ∧ earlier.annotations = latest.annotations ∧
        (∀ f, f ∈ earlier.fields ↔ f ∈ latest.fields) ∧
        earlier.enumConstants.map FieldDef.name = latest.enumConstants.map FieldDef.name ∧
        ∀ m, m ∈ earlier.methods ↔ m ∈ latest.methods := by
  rw [← fields_unlisted_iff simple simple', ← methods_unlisted_iff simple simple']
  unfold isEmpty
  simp only [Bool.and_eq_true, List.isEmpty_iff, Bool.not_eq_true']
  have flags : ((between earlier latest).supertypeChanged = false ↔
        earlier.superName = latest.superName) ∧
      ((between earlier latest).interfacesChanged = false ↔
        earlier.interfaces = latest.interfaces) ∧
      ((between earlier latest).modifiersChanged = false ↔
        earlier.modifiers = latest.modifiers) ∧
      ((between earlier latest).annotationsChanged = false ↔
        earlier.annotations = latest.annotations) ∧
      ((between earlier latest).enumConstantsChanged = false ↔
        earlier.enumConstants.map FieldDef.name = latest.enumConstants.map FieldDef.name) := by
    simp [between]
  rw [flags.1, flags.2.1, flags.2.2.1, flags.2.2.2.1, flags.2.2.2.2]
  tauto

/-- A verified shape does not differ from itself. -/
theorem isEmpty_between_self (simple : s.Simple) : (between s s).isEmpty = true :=
  (isEmpty_between_iff simple simple).2
    ⟨rfl, rfl, rfl, rfl, fun _ => .rfl, rfl, fun _ => .rfl⟩

end ShapeDiff

end LiveUpdate
