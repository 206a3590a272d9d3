import LiveUpdate.Proofs.Defining

/-!
# Reloads are edits

A reload asks the observers, generates classes if the version needs any, gives slots to
new members, publishes the version and runs what is to run after that.  Up to the
publication nothing is known of the version outside; what a published version is in order
with is `Offers`, and every part of it is found here where the reload sees to it.
-/

set_option autoImplicit false

namespace LiveUpdate.ManagedType

open Exec

variable {e : Engine} {t : TypeRef}

/-- Observers are called one after another, which leaves a trace and nothing else. -/
def OnlyTraced (e e' : Engine) : Prop := ∃ trace, e' = { e with trace }

theorem leads_record (observer : Observer) (call : ObserverCall) (event : ReloadEvent) :
    e.Leads (record observer call event) fun _ e' => OnlyTraced e e' := by
  unfold record
  split
  · exact (Engine.leads_modify (Engine.Edit.trace _).edits).weaken fun _ _ eq => ⟨_, eq⟩
  · exact Engine.leads_pure ⟨_, rfl⟩

theorem OnlyTraced.trans {e₁ e₂ e₃ : Engine} (first : OnlyTraced e₁ e₂)
    (second : OnlyTraced e₂ e₃) : OnlyTraced e₁ e₃ := by
  obtain ⟨_, rfl⟩ := first
  obtain ⟨_, rfl⟩ := second
  exact ⟨_, rfl⟩

theorem leads_announce (event : ReloadEvent) (observers : List Observer) :
    e.Leads (announce event observers) fun _ e' => OnlyTraced e e' := by
  induction observers generalizing e with
  | nil => exact Engine.leads_pure ⟨_, rfl⟩
  | cons o rest ih =>
    refine Engine.leads_bind (leads_record o .before event) fun _ e' first => ?_
    split
    · exact Engine.leads_fail _
    · exact ih.weaken fun _ _ second => first.trans second

theorem leads_askRerun (event : ReloadEvent) (observers : List Observer) :
    e.Leads (askRerun event observers) fun _ e' => OnlyTraced e e' := by
  induction observers generalizing e with
  | nil => exact Engine.leads_pure ⟨_, rfl⟩
  | cons o rest ih =>
    refine Engine.leads_bind (leads_record o .rerun event) fun _ e' first => ?_
    exact Engine.leads_bind ih fun _ e'' second => Engine.leads_pure (first.trans second)

theorem leads_report (event : ReloadEvent) (observers : List Observer) :
    e.Leads (report event observers) fun _ _ => True := by
  induction observers generalizing e with
  | nil => exact Engine.leads_pure trivial
  | cons o rest ih =>
    refine Engine.leads_bind (leads_record o .after event) fun _ e' _ => ?_
    split
    · exact Engine.leads_fail _
    · exact ih

/-- The code of an executor is compiled with numbers for all the owners that it needs. -/
theorem leads_compile {s : ScopeRef} (known : (e.scopeAt s).registry < e.registries.size)
    (ctx : Engine → ExecutorContext) (number : Nat) (u : TypeUnit) :
    e.Leads (modifyGet fun e =>
        let (executor, names) := (ctx e).compile (e.scopeAt s).options (e.namesOf s) number u
        (executor, e.setNames s names) : Run TypeUnit) fun executor e' =>
      e.Renamed e' s ∧
        executor = (ctx e).executorUnit (e.scopeAt s).options (e'.namesOf s) number u ∧
        ∀ m ∈ (ctx e).concreteMethods u, ∀ instr ∈ m.1.code, ∀ owner,
          (ctx e).guardedOwner? (e.scopeAt s).options instr = some owner →
            ((e'.namesOf s).lookup owner).isSome := by
  let owners := ((ctx e).concreteMethods u).flatMap fun m =>
    m.1.code.filterMap ((ctx e).guardedOwner? (e.scopeAt s).options)
  have renamed := Engine.renamed_addAll known owners
  refine ⟨renamed.edits, fun executor e' run => ?_⟩
  cases run
  refine ⟨renamed, ?_, ?_⟩
  · rw [e.namesOf_setNames known]
  · rw [e.namesOf_setNames known]
    intro m mem instr here owner guards
    apply NameTable.lookup_addAll_isSome
    exact List.mem_flatMap.2 ⟨m, mem, List.mem_filterMap.2 ⟨instr, here, guards⟩⟩

/-- The generated classes of a version are compiled from its unit, and nothing about the
managed type changes but the number of its next classes. -/
theorem leads_defineArtifacts (grounded : e.Grounded) (type_lt : t < e.types.size)
    {native : ClassRef} (hosted : (e.typeAt t).native = some native) (u : TypeUnit)
    (shape : TypeShape) :
    e.Leads (defineArtifacts t native u shape) fun artifacts e' =>
      e'.Compiles t u shape artifacts ∧
        e'.typeAt t = { e.typeAt t with nextArtifact := (e.typeAt t).nextArtifact + 1 } := by
  have home := grounded.hosted t type_lt native hosted
  let s := (e.typeAt t).scope
  let number := (e.typeAt t).nextArtifact
  let counted := e.updateType t fun type => { type with nextArtifact := number + 1 }
  have counts : e.Edit counted := .countArtifact t (number + 1)
  have grounded₁ := counts.grounded grounded
  have known₁ := grounded₁.registry s home.2
  have type₁ : counted.typeAt t = { e.typeAt t with nextArtifact := number + 1 } :=
    e.typeAt_updateType_self _ type_lt
  unfold defineArtifacts
  refine Engine.leads_ask_bind (Engine.leads_modify_bind counts.edits ?_)
  let ctx : Engine → ExecutorContext := fun e' =>
    ⟨(e.typeAt t).name, (e.typeAt t).id, e'.classAt native, shape⟩
  refine Engine.leads_bind (leads_compile known₁ ctx number u).reached fun executor e₂ held => ?_
  obtain ⟨edits₂, renamed₂, rfl, named⟩ := held
  have grounded₂ := Engine.Edits.grounded edits₂ grounded₁
  refine Engine.leads_ofResult_bind fun _ _ => ?_
  have scope_lt₂ : s < e₂.scopes.size :=
    Nat.lt_of_lt_of_le home.2 (Engine.Edits.grows edits₂).scopes
  have contractDefined := Scope.leads_defineClass (e := e₂) (s := s)
    (.plain (contractUnit (e.typeAt t).name number shape) none []) scope_lt₂
    (fun _ mem => by cases mem) (fun _ mem => by cases mem) (.contract _ number shape)
  refine Engine.leads_bind contractDefined.reached fun c e₃ held => ?_
  obtain ⟨edits₃, rfl, cls₁, admits₁, rfl⟩ := held
  have grounded₃ := Engine.Edits.grounded edits₃ grounded₂
  have grows₃ := Engine.Edits.grows edits₃
  let e₃ := (e₂.addClass s cls₁).countClass s
  have scope_lt₃ : s < e₃.scopes.size := Nat.lt_of_lt_of_le scope_lt₂ grows₃.scopes
  have options₂ : (e₂.scopeAt s).options = (counted.scopeAt s).options :=
    ((Engine.Edits.grows edits₂).scopeAt s home.2).options
  have options₃ : (e₃.scopeAt s).options = (counted.scopeAt s).options :=
    ((grows₃.scopeAt s scope_lt₂).options).trans options₂
  let spec := (ctx counted).spec (counted.scopeAt s).options (e₂.namesOf s) number u
    e₂.classes.size
  have origin : e₃.PlainOrigin s spec := by
    have origin := Engine.PlainOrigin.executor (e := e₃) (s := s) (ctx counted) (e₂.namesOf s)
      number u e₂.classes.size ⟨_, e₂.class?_countClass_addClass cls₁ scope_lt₂⟩
    rw [options₃] at origin
    exact origin
  have contract_lt : e₂.classes.size < e₃.classes.size := by
    show _ < (e₂.addClass s cls₁).classes.size
    rw [Engine.size_addClass]
    exact Nat.lt_succ_self _
  have executorDefined := Scope.leads_defineClass (e := e₃) (s := s) spec scope_lt₃
    (fun _ mem => by cases mem) (fun i mem => by
      rcases List.mem_singleton.1 mem with rfl
      exact contract_lt) origin
  refine Engine.leads_bind executorDefined.reached fun x e₄ held => ?_
  obtain ⟨edits₄, rfl, cls₂, admits₂, rfl⟩ := held
  have grows₄ := Engine.Edits.grows edits₄
  have described₁ := (admits₁.describes.of_grows
    (Engine.Edit.countClass s).grows).of_grows grows₄
  have described₂ := admits₂.describes.of_grows (Engine.Edit.countClass s).grows
  obtain ⟨names, rfl⟩ := renamed₂.eq
  let e₄ := (e₃.addClass s cls₂).countClass s
  have type₄ : e₄.typeAt t = { e.typeAt t with nextArtifact := number + 1 } := type₁
  have options₄ : e₄.optionsOf t = (counted.scopeAt s).options := by
    unfold Engine.optionsOf
    rw [type₄]
    exact (grows₄.scopeAt s scope_lt₃).options.trans options₃
  have host₄ : (e₄.classAt native).skeleton = (counted.classAt native).skeleton :=
    (grows₃.trans grows₄).classAt native home.1
  have ctx₄ : e₄.executorContext t native shape =
      ⟨(e.typeAt t).name, (e.typeAt t).id, (counted.classAt native).skeleton, shape⟩ := by
    unfold Engine.executorContext
    rw [type₄, host₄]
  have had : e₄.HadNames s ((counted.setNames s names).namesOf s) :=
    (grows₃.trans grows₄).namesOf grounded₂ scope_lt₂
  refine Engine.leads_pure ⟨⟨⟨native, (counted.setNames s names).namesOf s, number, ?_, ?_, ?_, ?_⟩,
    number, ?_⟩, type₄⟩
  · rw [type₄]
    exact hosted
  · rw [type₄]
    exact had
  · rw [ctx₄, options₄]
    exact named
  · rw [ctx₄, options₄]
    exact described₂
  · rw [type₄]
    exact described₁

/-- The classes of a version, none if it is like the first: those of the version before if
its digest is the same, else new ones. -/
theorem leads_artifactsFor (grounded : e.Grounded) (type_lt : t < e.types.size)
    {native : ClassRef} (hosted : (e.typeAt t).native = some native) (u : TypeUnit)
    (shape : TypeShape) (digest : Option (List UInt8)) (isLikeFirst : Bool) :
    e.Leads (artifactsFor t native u shape digest isLikeFirst) fun artifacts e' =>
      (∃ next, e'.typeAt t = { e.typeAt t with nextArtifact := next }) ∧
        if isLikeFirst then artifacts = none
        else ∃ a, artifacts = some a ∧
          ((digest.isSome ∧ digest = (e.typeAt t).live.digest ∧
              (e.typeAt t).live.artifacts = some a) ∨ e'.Compiles t u shape a) := by
  unfold artifactsFor
  refine Engine.leads_ask_bind ?_
  cases isLikeFirst with
  | true => exact Engine.leads_pure ⟨⟨_, rfl⟩, rfl⟩
  | false =>
    simp only [Bool.false_eq_true, if_false]
    split
    next same =>
      simp only [Bool.and_eq_true, decide_eq_true_eq] at same
      obtain ⟨a, artifacts⟩ := Option.isSome_iff_exists.1 same.2
      exact Engine.leads_pure ⟨⟨_, rfl⟩, a, artifacts, .inl ⟨same.1.1, same.1.2, artifacts⟩⟩
    · refine Engine.leads_bind (leads_defineArtifacts grounded type_lt hosted u shape)
        fun a e' held => ?_
      exact Engine.leads_pure ⟨⟨_, held.2⟩, a, rfl, .inr held.1⟩

/-- A publication enters the version in the books. -/
theorem publishVersion_eq_ok (type_lt : t < e.types.size) (v : LiveVersion) :
    publishVersion t v e = .ok () (e.publish t v) := by
  have at_ : (e.updateType t fun type => type.publish v).typeAt t = (e.typeAt t).publish v :=
    e.typeAt_updateType_self _ type_lt
  unfold publishVersion
  rw [bind_apply, modify_apply]
  dsimp only
  rw [bind_apply, ask_apply]
  dsimp only
  rw [at_]
  rfl

/-- A version that is offered is published. -/
theorem leads_publishVersion {v : LiveVersion} (offers : e.Offers t v) :
    e.Leads (publishVersion t v) fun _ e' => e' = e.publish t v := by
  have apply := publishVersion_eq_ok offers.type_lt v
  refine ⟨?_, fun _ e' run => ?_⟩
  · unfold final
    rw [apply]
    exact (Engine.Edit.publish t v offers).edits
  · rw [apply] at run
    cases run
    rfl

theorem obeys_rerunStaticInit (law : Law) (fuel : Nat) (t : TypeRef) (native : ClassRef) :
    Exec.Obeys law.holds (rerunStaticInit fuel t native) fun _ => True := by
  have declares (get : Engine → Option ClassRef) (key : MemberKey) :
      Exec.Obeys law.holds (ask fun e => (get e).bind fun c =>
        ((e.classAt c).method? key).map fun m => (c, m) : Run (Option (ClassRef × Method)))
        fun found => ∀ own, found = some own → law.runs own.2 := by
    refine obeys_ask fun e he own found => ?_
    obtain ⟨c, -, found⟩ := Option.bind_eq_some_iff.1 found
    obtain ⟨m, declared, rfl⟩ := Option.map_eq_some_iff.1 found
    exact law.declared he declared
  unfold rerunStaticInit
  refine obeys_ask_bind fun e _ => ?_
  dsimp only
  split
  · exact obeys_pure True.intro
  · refine obeys_bind (declares _ _) fun inExecutor runs =>
      obeys_bind (declares (fun _ => some native) _) fun inHost runs' => ?_
    split
    next c m chosen =>
      have runs : law.runs m := by
        cases inExecutor with
        | some own => exact runs _ chosen
        | none => exact runs' _ chosen
      exact obeys_discard (obeys_of law _ fuel c m [] runs)
    · exact obeys_pure True.intro

theorem keeps_rerunStaticInit (fuel : Nat) (t : TypeRef) (native : ClassRef) :
    Keeps Engine.skeleton (rerunStaticInit fuel t native) :=
  keeps_of_obeys fun bones => obeys_rerunStaticInit (.skeleton bones) fuel t native

/-- What a reload knows about a version before it asks anybody. -/
structure Reads (e : Engine) (t : TypeRef) (native : ClassRef) (data : List UInt8)
    (u : TypeUnit) (shape : TypeShape) : Prop where
  type_lt : t < e.types.size
  hosted : (e.typeAt t).native = some native
  decoded : TypeUnit.decode data = .ok u
  verified : u.verify = .ok ()
  shaped : TypeShape.extract u = .ok shape
  named : u.name = (e.typeAt t).name
  safe : (e.optionsOf t).verifyReloads →
    (ShapeDiff.between (e.typeAt t).first.shape shape).isSafe (e.inheritedVtable native)

theorem leads_install (grounded : e.Grounded) {native : ClassRef} {data : List UInt8}
    {u : TypeUnit} {shape : TypeShape} (reads : Reads e t native data u shape) (fuel : Nat)
    (stamp : String) : e.Leads (install fuel t native stamp data u shape) fun _ _ => True := by
  unfold install
  refine Engine.leads_ask_bind (Engine.leads_ask_bind ?_)
  refine Engine.leads_bind (leads_announce _ _).reached fun _ e₁ held => ?_
  obtain ⟨edits₁, trace₁, rfl⟩ := held
  have grounded₁ := Engine.Edits.grounded edits₁ grounded
  let type := e.typeAt t
  let difference := ShapeDiff.between type.first.shape shape
  let cumulative := if difference.isEmpty then none else some difference
  let digest := TypeUnit.storedDigest? data
  refine Engine.leads_bind (Engine.leads_mapError _ (leads_artifactsFor grounded₁ reads.type_lt
    reads.hosted u shape digest cumulative.isNone)).reached fun artifacts e₂ held => ?_
  obtain ⟨edits₂, ⟨next, type₂⟩, generated⟩ := held
  have type₂ : e₂.typeAt t = { type with nextArtifact := next } := type₂
  have type_lt₂ : t < e₂.types.size :=
    Nat.lt_of_lt_of_le reads.type_lt (Engine.Edits.grows edits₂).types
  let keys := (shape.methods.filter fun m => !m.isStaticInit).map MethodShape.key
  let slots := type.slots.assignAll keys .added
  let slotted := e₂.updateType t fun type => { type with slots }
  have slots₂ : (e₂.typeAt t).slots.assignAll keys .added = slots := by rw [type₂]
  have slotting : e₂.Edit slotted := by
    have edit := Engine.Edit.addSlots (e := e₂) t keys
    rw [slots₂] at edit
    exact edit
  refine Engine.leads_modify_bind slotting.edits (Engine.leads_ask_bind ?_)
  refine Engine.leads_bind (leads_askRerun _ _).reached fun wanted e₄ held => ?_
  obtain ⟨edits₄, trace₄, rfl⟩ := held
  have type₄ : slotted.typeAt t = { type with nextArtifact := next, slots } := by
    rw [show slotted.typeAt t = _ from e₂.typeAt_updateType_self _ type_lt₂, type₂]
  let e₄ : Engine := { slotted with trace := trace₄ }
  let dispatch := DispatchTable.build type.name slots shape cumulative
    (artifacts.map fun a => slotted.classAt a.executor)
  let delta := ShapeDiff.between type.live.shape shape
  let rerun := delta.staticInitChanged || wanted
  let v : LiveVersion := {
    number := type.versions.length, stamp, data, digest, unit := u, shape, delta := some delta,
    cumulative, artifacts, dispatch, rerun }
  have edits : e₂.Edits e₄ := slotting.edits.trans edits₄
  have grows : e.Grows e₄ := Engine.Edits.grows ((edits₁.trans edits₂).trans edits)
  have grounded₂ := Engine.Edits.grounded edits₂ grounded₁
  have offers : e₄.Offers t v := {
    type_lt := Nat.lt_of_lt_of_le type_lt₂ (Engine.Edits.grows edits).types
    hosted := by
      rw [show e₄.typeAt t = _ from type₄]
      exact Option.isSome_iff_exists.2 ⟨native, reads.hosted⟩
    decoded := reads.decoded
    verified := reads.verified
    shaped := reads.shaped
    named := by
      rw [show e₄.typeAt t = _ from type₄]
      exact reads.named
    number := by rw [show e₄.typeAt t = _ from type₄]
    digest := rfl
    delta := by
      rw [show e₄.typeAt t = _ from type₄]
      rfl
    cumulative := by rw [show e₄.typeAt t = _ from type₄]
    artifacts := by
      rw [show e₄.typeAt t = _ from type₄]
      show (cumulative = none ∧ artifacts = none) ∨ _
      cases changed : cumulative with
      | none =>
        rw [changed] at generated
        exact .inl ⟨rfl, generated⟩
      | some d =>
        rw [changed] at generated
        obtain ⟨a, some_a, source⟩ := generated
        refine .inr ⟨?_, a, some_a, ?_⟩
        · rw [show v.cumulative = some d from changed]
          rfl
        · rcases source with kept | compiled
          · exact .inl kept
          · exact .inr (compiled.of_grows (Engine.Edits.grows edits) grounded₂ type_lt₂)
    dispatch := by
      rw [show e₄.typeAt t = _ from type₄]
      rfl
    slots := by
      rw [show e₄.typeAt t = _ from type₄]
      intro m mem plain
      apply SlotTable.slotOf?_assignAll_isSome
      exact List.mem_map.2 ⟨m, List.mem_filter.2 ⟨mem, by simp [plain]⟩, rfl⟩
    safe := by
      rw [grows.optionsOf grounded reads.type_lt reads.hosted, show e₄.typeAt t = _ from type₄]
      intro verifies c hosts
      have host : some c = some native := hosts.symm.trans reads.hosted
      cases host
      have home := grounded.hosted t reads.type_lt native reads.hosted
      rw [grows.inheritedVtable grounded.parent_lt home.1]
      exact reads.safe verifies }
  have finish (event : ReloadEvent) (observers : List Observer) (e₅ : Engine) :
      e₅.Leads (do
        if rerun then mapError .run (rerunStaticInit fuel t native)
        report event observers : Exec ReloadError Unit) fun _ _ => True := by
    cases rerun with
    | true =>
      exact Engine.leads_bind (Engine.leads_mapError _ (Engine.leads_of_obeys fun law =>
        obeys_rerunStaticInit law fuel t native)) fun _ _ _ => leads_report _ _
    | false => exact leads_report _ _
  exact Engine.leads_bind (leads_publishVersion offers) fun _ e₅ _ => finish _ _ e₅

/-- A version that can be read comes from well-formed bytes and is of the type. -/
theorem readVersion_eq_ok {type : ManagedType} {data : List UInt8} {u : TypeUnit}
    {shape : TypeShape} (readable : readVersion type data = .ok (u, shape)) :
    TypeUnit.decode data = .ok u ∧ TypeShape.extract u = .ok shape ∧ u.verify = .ok () ∧
      u.name = type.name := by
  unfold readVersion at readable
  obtain ⟨⟨u', shape'⟩, read, rest⟩ := bind_eq_ok.1 readable
  have read := ok_of_mapError read
  unfold TypeShape.ofBytes at read
  cases decoded : TypeUnit.decode data with
  | error error =>
    rw [decoded] at read
    cases read
  | ok u₀ =>
  rw [decoded] at read
  obtain ⟨shape₀, shaped, same⟩ := bind_eq_ok.1 read
  cases same
  by_cases named : u'.name = type.name
  · simp only [named, ne_eq, not_true_eq_false, if_false] at rest
    obtain ⟨done, verified, same⟩ := bind_eq_ok.1 rest
    cases same
    exact ⟨rfl, shaped, ok_of_mapError verified, named⟩
  · simp only [named, ne_eq, not_false_eq_true, if_true] at rest
    cases rest

/-- A reload that is refused, or that fails before it publishes anything, leads through
edits like one that succeeds. -/
theorem leads_load (grounded : e.Grounded) (type_lt : t < e.types.size) (fuel : Nat)
    (stamp : String) (data : List UInt8) :
    e.Leads (load fuel t stamp data) fun _ _ => True := by
  unfold load
  refine Engine.leads_ask_bind (Engine.leads_ask_bind ?_)
  cases isOpen : (e.scopeAt (e.typeAt t).scope).isOpen with
  | false => exact Engine.leads_fail _
  | true =>
  cases hosted : (e.typeAt t).native with
  | none => exact Engine.leads_fail _
  | some native =>
  refine Engine.leads_ofResult_bind fun read readable => ?_
  obtain ⟨u, shape⟩ := read
  obtain ⟨decoded, shaped, verified, named⟩ := readVersion_eq_ok readable
  refine Engine.leads_ask_bind ?_
  cases unsafe_ : (e.scopeAt (e.typeAt t).scope).options.verifyReloads &&
      !(ShapeDiff.between (e.typeAt t).first.shape shape).isSafe (e.inheritedVtable native) with
  | true =>
    exact Engine.leads_modify_bind (Engine.Edit.refuse t).edits (Engine.leads_pure trivial)
  | false =>
    have reads : Reads e t native data u shape := {
      type_lt, hosted, decoded, verified, shaped, named
      safe := fun verifies => by
        have verifies : (e.scopeAt (e.typeAt t).scope).options.verifyReloads = true := verifies
        rw [verifies] at unsafe_
        simpa using unsafe_ }
    exact Engine.leads_bind (leads_install grounded reads fuel stamp) fun _ _ _ =>
      Engine.leads_pure trivial

end LiveUpdate.ManagedType
