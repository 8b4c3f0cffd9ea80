import Mathlib.Data.List.Flatten
import Mathlib.Data.List.Nodup
import Mathlib.Data.Prod.Basic
import ValueGen.Proofs.Plan.Declarations

/-!
This module contains how the code of a message lists its fields. The functions that go through them
are related by position only: the builder passes its slots to the constructor of the value in the
order of the parameters, and each argument has the type of the parameter at its place.
-/

namespace ValueGen

namespace Code

/--
What tells a function from others: the type of its receiver, if it has one, and its name.
-/
def Func.key (g : Func) : Option TypeExpr × Text := (g.receiver.map Binding.type, g.name)

/--
The struct type of a name.
-/
def File.struct? (c : File) (name : Text) : Option Struct := c.structs.find? fun s => s.name == name

/--
The function of a key.
-/
def File.func? (c : File) (key : Option TypeExpr × Text) : Option Func :=
  c.funcs.find? fun g => g.key == key

/--
The arguments of the calls of a method that follow each other on one value, those of the first call
first.
-/
def Expr.chainOf (method : Text) : Expr → List (List Expr)
  | .call (.member e id) args => if id = method then e.chainOf method ++ [args] else []
  | _ => []

mutual

/--
The members of variables that an expression reads, each with the name of its variable.
-/
def Expr.reads : Expr → List (Text × Text)
  | .name _ | .qualified _ _ | .literal _ => []
  | .member (.name x) id => [(x, id)]
  | .member e _ => e.reads
  | .applied f _ => f.reads
  | .call f args => f.reads ++ Expr.readsOf args
  | .spread e => e.reads
  | .record _ entries => Expr.readsOf entries
  | .entry _ value => value.reads

/--
The members of variables that expressions read.
-/
def Expr.readsOf : List Expr → List (Text × Text)
  | [] => []
  | e :: es => e.reads ++ Expr.readsOf es

end

/--
The type of an expression that reads members, copies bytes and builds lists, where `vars` are the
receiver and the parameters of the function that it is in, and `runtime` is the path of the runtime
package. Types are compared as they are written.
-/
inductive File.HasType (c : File) (runtime : Text) (vars : List Binding) :
    Expr → TypeExpr → Prop where
  | var {b : Binding} (hb : b ∈ vars) : HasType c runtime vars (.name b.name) b.type
  | member {e : Expr} {s : Struct} {b : Binding}
      (he : HasType c runtime vars e (.pointer (.name s.name))) (hs : s ∈ c.structs)
      (hb : b ∈ s.fields) : HasType c runtime vars (.member e b.name) b.type
  | clone {e : Expr} (he : HasType c runtime vars e (.slice (.name "byte"))) :
      HasType c runtime vars (.call (.qualified "bytes" "Clone") [e]) (.slice (.name "byte"))
  | build {e : Expr} {t : TypeExpr}
      (he : HasType c runtime vars e (.pointer (.applied runtime "ListBuilder" t))) :
      HasType c runtime vars (.call (.member e "Build") []) (.applied runtime "List" t)

variable {c : File}

theorem find?_eq_some_of_mem {α κ : Type} [BEq κ] [LawfulBEq κ] {key : α → κ} {l : List α}
    (hnodup : (l.map key).Nodup) {a : α} (ha : a ∈ l) :
    (l.find? fun b => key b == key a) = some a := by
  cases hfind : l.find? fun b => key b == key a with
  | none =>
    have hnone := List.find?_eq_none.1 hfind a ha
    simp at hnone
  | some b =>
    have hkey : key b = key a := by simpa using List.find?_some hfind
    rw [List.inj_on_of_nodup_map hnodup (List.mem_of_find?_eq_some hfind) ha hkey]

-- An expression has one type, since no two variables, types or members share a name.
theorem File.HasType.unique {runtime : Text} {vars : List Binding}
    (hvars : (vars.map Binding.name).Nodup) (hstructs : (c.structs.map Struct.name).Nodup)
    (hfields : ∀ s ∈ c.structs, (s.fields.map Binding.name).Nodup) {e : Expr} {t u : TypeExpr}
    (ht : c.HasType runtime vars e t) (hu : c.HasType runtime vars e u) : t = u := by
  induction ht generalizing u with
  | @var b hb =>
    generalize hname : Expr.name b.name = e at hu
    cases hu with
    | @var b' hb' =>
      rw [Expr.name.injEq] at hname
      rw [List.inj_on_of_nodup_map hvars hb hb' hname]
    | _ => cases hname
  | @member e s b he hs hb ih =>
    generalize hname : Expr.member e b.name = e' at hu
    cases hu with
    | @member e' s' b' he' hs' hb' =>
      rw [Expr.member.injEq] at hname
      obtain ⟨rfl, hname⟩ := hname
      have hpointer := ih he'
      simp only [TypeExpr.pointer.injEq, TypeExpr.name.injEq] at hpointer
      have hstruct : s = s' := List.inj_on_of_nodup_map hstructs hs hs' hpointer
      subst hstruct
      rw [List.inj_on_of_nodup_map (hfields s hs) hb hb' hname]
    | _ => cases hname
  | clone he ih =>
    cases hu with
    | clone he' => rfl
  | build he ih =>
    cases hu with
    | build he' =>
      have hpointer := ih he'
      simp only [TypeExpr.pointer.injEq, TypeExpr.applied.injEq, true_and] at hpointer
      rw [hpointer]

end Code

open Code

namespace FieldPlan

/--
The methods of the builder for a field: a getter, a setter, and an adder if the field is repeated.
-/
def builderMethods (f : FieldPlan) : List Text :=
  [f.getter, f.setter] ++ if f.field.isRepeated then [f.adder] else []

theorem map_key_builderFuncs (f : FieldPlan) (runtime : Text) (receiver : Binding) :
    (f.builderFuncs runtime receiver).map Func.key
      = f.builderMethods.map (Prod.mk (some receiver.type)) := by
  unfold builderFuncs builderMethods
  split
  all_goals rfl

@[simp]
theorem reads_argument (f : FieldPlan) : f.argument.reads = [(("b" : Text), f.slot)] := by
  unfold argument clone
  split
  . simp [Expr.reads, Expr.readsOf]
  . split
    all_goals simp [Expr.reads, Expr.readsOf]

/--
The plan holds the type that the type of its field is mapped to.
-/
def IsMapped (f : FieldPlan) : Prop := Plan.elemType? f.field.type = some f.elem

theorem elem_of_bytes {f : FieldPlan} (hf : f.IsMapped) (hbytes : f.field.type.primitive = .bytes) :
    f.elem = .slice (.name "byte") := by
  have hmessage : f.field.type.isMessage = false := by
    unfold FieldType.isMessage
    rw [hbytes]
    rfl
  unfold IsMapped Plan.elemType? at hf
  rw [hmessage, hbytes] at hf
  simpa using hf.symm

theorem isBytes_iff (f : FieldPlan) :
    f.isBytes = true ↔ f.field.isRepeated = false ∧ f.field.type.primitive = .bytes := by
  unfold isBytes
  rw [Bool.and_eq_true, Bool.not_eq_true', beq_iff_eq]

-- Each of the three ways to pass a slot on turns its type into the type that the value exposes.
theorem hasType_argument {f : FieldPlan} (hf : f.IsMapped) {c : File} {runtime : Text}
    {vars : List Binding} (hslot : c.HasType runtime vars (.member (.name "b") f.slot)
      (f.slotType runtime)) : c.HasType runtime vars f.argument (f.valueType runtime) := by
  unfold argument valueType
  unfold slotType at hslot
  split
  . next hrepeated =>
    rw [if_pos hrepeated] at hslot
    exact .build hslot
  . next hsingle =>
    rw [if_neg hsingle] at hslot
    split
    . next hbytes =>
      rw [elem_of_bytes hf (f.isBytes_iff.1 hbytes).2] at hslot ⊢
      exact .clone hslot
    . exact hslot

end FieldPlan

namespace Plan

/--
The functions that the code of a plan declares, in order, each as the type of its receiver and its
name.
-/
def funcKeys (p : Plan) : List (Option TypeExpr × Text) :=
  [(none, p.names.construct)]
    ++ (p.fields.map FieldPlan.accessor ++ [("String" : Text), "buildString"]).map
      (Prod.mk (some p.valueReceiver.type))
    ++ [(none, p.names.newBuilder)]
    ++ (p.fields.flatMap FieldPlan.builderMethods ++ [("Build" : Text)]).map
      (Prod.mk (some p.builderReceiver.type))

theorem map_key_funcs (p : Plan) (o : Options) :
    (p.toFile o).funcs.map Func.key = p.funcKeys := by
  rw [funcs_toFile]
  simp only [List.map_append, List.map_flatMap, List.map_map, FieldPlan.map_key_builderFuncs,
    funcKeys, List.append_assoc]
  rfl

/--
The names of a plan differ wherever two of them are declared in one place.
-/
structure IsDistinct (p : Plan) : Prop where
  types : p.names.toList.Nodup
  storages : (p.fields.map FieldPlan.storage ++ [("str" : Text)]).Nodup
  slots : (p.fields.map FieldPlan.slot).Nodup
  valueMethods : (p.fields.map FieldPlan.accessor ++ [("String" : Text), "buildString"]).Nodup
  builderMethods : (p.fields.flatMap FieldPlan.builderMethods ++ [("Build" : Text)]).Nodup

theorem map_sublist_flatMap {α β : Type} {l : List α} {f : α → β} {g : α → List β}
    (h : ∀ a ∈ l, f a ∈ g a) : (l.map f).Sublist (l.flatMap g) := by
  rw [← List.flatMap_pure_eq_map]
  apply List.Sublist.flatMap_right
  intro a ha
  exact List.singleton_sublist.2 (h a ha)

theorem isDistinct_of_ofMessage {m : Message} {package : Text} {p : Plan}
    (h : ofMessage m package = .ok p) : p.IsDistinct := by
  obtain ⟨hnames, hfields, -⟩ := ofMessage_eq_ok h
  have hplannable := isPlannable_of_ofMessage_ok h
  have hvalue : (Field.valueScope m.fields).Nodup := hplannable.valueNodup
  have hbuilder : (Field.builderScope m.fields).Nodup := hplannable.builderNodup
  rw [← hfields] at hvalue hbuilder
  unfold Field.valueScope at hvalue
  unfold Field.builderScope at hbuilder
  rw [List.flatMap_map] at hvalue hbuilder
  constructor
  . rw [hnames]
    exact nodup_toList_ofName m.name
  . rw [List.perm_append_comm.nodup_iff]
    refine List.Nodup.sublist (.append (by decide) ?_) hvalue
    exact map_sublist_flatMap fun f _ => List.mem_cons_self
  . refine List.Nodup.sublist ?_ (List.nodup_append.1 hbuilder).2.1
    exact map_sublist_flatMap fun f _ => List.mem_cons_self
  . have hperm : (p.fields.map FieldPlan.accessor ++ [("String" : Text), "buildString"]).Perm
        ([("buildString" : Text), "String"] ++ p.fields.map FieldPlan.accessor) :=
      List.perm_append_comm.trans (.append_right _ (.swap _ _ _))
    rw [hperm.nodup_iff]
    refine List.Nodup.sublist (.append (by decide) ?_) hvalue
    exact map_sublist_flatMap fun f _ => List.mem_cons_of_mem _ List.mem_cons_self
  . rw [List.perm_append_comm.nodup_iff]
    refine List.Nodup.sublist (.append (by decide) ?_) hbuilder
    apply List.Sublist.flatMap_right
    intro f _
    exact List.sublist_cons_self _ _

theorem fst_of_mem_map_mk {α β : Type} {a : α} {bs : List β} {key : α × β}
    (h : key ∈ bs.map (Prod.mk a)) : key.1 = a := by
  obtain ⟨b, -, rfl⟩ := List.mem_map.1 h
  rfl

-- Two functions of the same name have different receivers.
theorem nodup_funcKeys {p : Plan} (h : p.IsDistinct) : p.funcKeys.Nodup := by
  have htypes := h.types
  simp only [TypeNames.toList, List.nodup_cons, List.mem_cons, List.not_mem_nil, not_or] at htypes
  obtain ⟨⟨htypes, -⟩, -, ⟨hconstructors, -⟩, -⟩ := htypes
  have hvalue := h.valueMethods.map (Prod.mk_right_injective (some p.valueReceiver.type))
  have hbuilder := h.builderMethods.map (Prod.mk_right_injective (some p.builderReceiver.type))
  unfold funcKeys
  rw [List.nodup_append, List.nodup_append, List.nodup_append]
  refine ⟨⟨⟨List.nodup_singleton _, hvalue, ?_⟩, List.nodup_singleton _, ?_⟩, hbuilder, ?_⟩
  . rintro a ha b hb rfl
    rw [List.mem_singleton.1 ha] at hb
    cases fst_of_mem_map_mk hb
  . rintro a ha b hb rfl
    rw [List.mem_singleton.1 hb] at ha
    rcases List.mem_append.1 ha with ha | ha
    . rw [List.mem_singleton, Prod.mk.injEq] at ha
      exact hconstructors ha.2.symm
    . cases fst_of_mem_map_mk ha
  . rintro a ha b hb rfl
    have hfst := fst_of_mem_map_mk hb
    rcases List.mem_append.1 ha with ha | ha
    . rcases List.mem_append.1 ha with ha | ha
      . rw [List.mem_singleton.1 ha] at hfst
        cases hfst
      . rw [fst_of_mem_map_mk ha, Option.some.injEq, valueReceiver, builderReceiver] at hfst
        simp only [TypeExpr.pointer.injEq, TypeExpr.name.injEq] at hfst
        exact htypes hfst
    . rw [List.mem_singleton.1 ha] at hfst
      cases hfst

theorem func?_toFile {p : Plan} (h : p.IsDistinct) {o : Options} {g : Func}
    (hg : g ∈ (p.toFile o).funcs) : (p.toFile o).func? g.key = some g := by
  apply find?_eq_some_of_mem _ hg
  rw [map_key_funcs]
  exact nodup_funcKeys h

theorem nodup_map_name_structs {p : Plan} (h : p.IsDistinct) (o : Options) :
    ((p.toFile o).structs.map Struct.name).Nodup := by
  have htypes : [p.names.value, p.names.builder].Sublist p.names.toList :=
    List.sublist_append_left _ _
  rw [structs_toFile]
  exact List.Nodup.sublist htypes h.types

theorem nodup_map_name_fields {p : Plan} (h : p.IsDistinct) (o : Options) :
    ∀ s ∈ (p.toFile o).structs, (s.fields.map Binding.name).Nodup := by
  rw [structs_toFile]
  simp only [List.forall_mem_cons, List.not_mem_nil, false_implies, implies_true, and_true]
  constructor
  . have hnames : (p.valueStruct o.runtimePath).fields.map Binding.name
        = p.fields.map FieldPlan.storage ++ [("str" : Text)] := by
      simp [valueStruct, Function.comp_def]
    rw [hnames]
    exact h.storages
  . have hnames : (p.builderStruct o.runtimePath).fields.map Binding.name
        = p.fields.map FieldPlan.slot := by
      simp [builderStruct, Function.comp_def]
    rw [hnames]
    exact h.slots

theorem hasType_slot {p : Plan} {f : FieldPlan} (hf : f ∈ p.fields) (o : Options) :
    (p.toFile o).HasType o.runtimePath [p.builderReceiver] (.member (.name "b") f.slot)
      (f.slotType o.runtimePath) := by
  have hreceiver : (p.toFile o).HasType o.runtimePath [p.builderReceiver] (.name "b")
      (.pointer (.name (p.builderStruct o.runtimePath).name)) :=
    .var (b := p.builderReceiver) List.mem_cons_self
  have hbuilder : p.builderStruct o.runtimePath ∈ (p.toFile o).structs := by
    rw [structs_toFile]
    exact List.mem_cons_of_mem _ List.mem_cons_self
  have hslot : ⟨f.slot, f.slotType o.runtimePath⟩ ∈ (p.builderStruct o.runtimePath).fields :=
    List.mem_map_of_mem hf
  exact .member hreceiver hbuilder hslot

theorem hasType_argument_iff {p : Plan} (h : p.IsDistinct) {f : FieldPlan} (hf : f ∈ p.fields)
    (hmapped : f.IsMapped) (o : Options) (t : TypeExpr) :
    (p.toFile o).HasType o.runtimePath [p.builderReceiver] f.argument t
      ↔ t = f.valueType o.runtimePath := by
  have hargument := FieldPlan.hasType_argument hmapped (hasType_slot hf o)
  constructor
  . intro ht
    have hvars : ([p.builderReceiver].map Binding.name).Nodup := List.nodup_singleton _
    exact ht.unique hvars (nodup_map_name_structs h o) (nodup_map_name_fields h o) hargument
  . rintro rfl
    exact hargument

theorem chainOf_foldl (fields : List FieldPlan) (start : Expr) :
    (fields.foldl (fun e f =>
        .call (.member e "Add") [.literal f.field.accessor, .member (.name "m") f.storage])
        start).chainOf "Add"
      = start.chainOf "Add"
        ++ fields.map fun f => [.literal f.field.accessor, .member (.name "m") f.storage] := by
  induction fields generalizing start with
  | nil => simp
  | cons f fields ih =>
    rw [List.foldl_cons, ih, List.map_cons, Expr.chainOf, if_pos rfl, List.append_assoc,
      List.singleton_append]

/--
The code `c` declares two types and the functions of a plan, no function twice. The fields are
listed in the same order by the struct types, by the constructor of the value, by the chain of calls
that computes its text, and by the method that passes the slots of the builder to the constructor.
There, each argument is taken from the slot of the field at its place, and it has one type, that of
the parameter at its place.
-/
structure IsLaidOut (p : Plan) (runtime : Text) (c : File) : Prop where
  decls : ∀ t, .comment t ∉ c.decls
  types : c.structs.map Struct.name = [p.names.value, p.names.builder]
  funcs : c.funcs.map Func.key = p.funcKeys
  once : (c.funcs.map Func.key).Nodup
  value : ∃ s, c.struct? p.names.value = some s
    ∧ s.fields = p.fields.map (fun f => ⟨f.storage, f.valueType runtime⟩)
      ++ [⟨"str", .applied runtime "Lazy" (.name "string")⟩]
  builder : ∃ s, c.struct? p.names.builder = some s
    ∧ s.fields = p.fields.map fun f => ⟨f.slot, f.slotType runtime⟩
  construct : ∃ g, c.func? (none, p.names.construct) = some g
    ∧ g.params = p.fields.map (fun f => ⟨f.storage, f.valueType runtime⟩)
    ∧ g.body = [.ret (.record p.names.value
      (p.fields.map fun f => .entry f.storage (.name f.storage)))]
  text : ∃ g chain, c.func? (some p.valueReceiver.type, "buildString") = some g
    ∧ g.body = [.ret (.call (.member chain "String") [])]
    ∧ chain.chainOf "Add"
      = p.fields.map fun f => [.literal f.field.accessor, .member (.name "m") f.storage]
  build : ∃ construct g args, c.func? (none, p.names.construct) = some construct
    ∧ c.func? (some p.builderReceiver.type, "Build") = some g
    ∧ g.body = [.ret (.call (.name p.names.construct) args)]
    ∧ args.length = p.fields.length ∧ construct.params.length = p.fields.length
    ∧ ∀ (i : Nat) (f : FieldPlan), p.fields[i]? = some f →
      ∃ (e : Expr) (b : Binding), args[i]? = some e ∧ construct.params[i]? = some b
        ∧ e.reads = [(("b" : Text), f.slot)]
        ∧ ∀ t, c.HasType runtime (g.receiver.toList ++ g.params) e t ↔ t = b.type

theorem isLaidOut_toFile {p : Plan} (h : p.IsDistinct) (hmapped : ∀ f ∈ p.fields, f.IsMapped)
    (o : Options) : p.IsLaidOut o.runtimePath (p.toFile o) := by
  have hstructs := nodup_map_name_structs h o
  have hconstruct := func?_toFile h (o := o) (g := p.constructFunc o.runtimePath)
    (by simp [funcs_toFile])
  constructor
  . simp [toFile, valueDecls, builderDecls]
  . rw [structs_toFile]
    rfl
  . exact map_key_funcs p o
  . rw [map_key_funcs]
    exact nodup_funcKeys h
  . exact ⟨_, find?_eq_some_of_mem hstructs (a := p.valueStruct o.runtimePath)
      (by simp [structs_toFile]), rfl⟩
  . exact ⟨_, find?_eq_some_of_mem hstructs (a := p.builderStruct o.runtimePath)
      (by simp [structs_toFile]), rfl⟩
  . exact ⟨_, hconstruct, rfl, rfl⟩
  . refine ⟨_, _, func?_toFile h (g := p.buildStringFunc o.runtimePath) (by simp [funcs_toFile]),
      rfl, ?_⟩
    exact chainOf_foldl p.fields _
  . refine ⟨_, _, p.fields.map FieldPlan.argument, hconstruct,
      func?_toFile h (g := p.buildFunc) (by simp [funcs_toFile]), rfl, List.length_map _,
      List.length_map _, ?_⟩
    intro i f hf
    have hmem : f ∈ p.fields := List.mem_of_getElem? hf
    refine ⟨f.argument, ⟨f.storage, f.valueType o.runtimePath⟩, ?_, ?_, f.reads_argument, ?_⟩
    . rw [List.getElem?_map, hf, Option.map_some]
    . unfold constructFunc
      rw [List.getElem?_map, hf, Option.map_some]
    . exact hasType_argument_iff h hmem (hmapped f hmem) o

/--
The code of a message that has a plan lists the fields of the message in order wherever it goes
through them.
-/
theorem isLaidOut_of_ofMessage (m : Message) (package : Text) (o : Options) (p : Plan)
    (h : ofMessage m package = .ok p) :
    p.names = TypeNames.ofName m.name ∧ p.fields.map FieldPlan.field = m.fields
      ∧ p.IsLaidOut o.runtimePath (p.toFile o) := by
  obtain ⟨hnames, hfields, hmapped⟩ := ofMessage_eq_ok h
  exact ⟨hnames, hfields, isLaidOut_toFile (isDistinct_of_ofMessage h) hmapped o⟩

/--
A message with fields of each kind, two of them of the same type.
-/
def mixedMessage : Message :=
  ⟨"Shape", [⟨.required, .ofKeyword "int32", "x", 1⟩, ⟨.repeated, .ofKeyword "Shape", "parts", 2⟩,
    ⟨.optional, .ofKeyword "bytes", "data", 3⟩, ⟨.repeated, .ofKeyword "bytes", "chunks", 4⟩,
    ⟨.required, .ofKeyword "int32", "y", 5⟩]⟩

theorem isLaidOut_of_ofMessage_mixed :
    ∃ p, ofMessage mixedMessage "shapes" = .ok p
      ∧ p.fields.map FieldPlan.slot = ["x", "partsList", "data", "chunksList", "y"]
      ∧ p.names = TypeNames.ofName mixedMessage.name
      ∧ p.fields.map FieldPlan.field = mixedMessage.fields
      ∧ p.IsLaidOut Settings.default.toOptions.runtimePath
        (p.toFile Settings.default.toOptions) := by
  obtain ⟨p, hplan⟩ : ∃ p, ofMessage mixedMessage "shapes" = .ok p := ⟨_, rfl⟩
  have hall := isLaidOut_of_ofMessage mixedMessage "shapes" Settings.default.toOptions p hplan
  refine ⟨p, hplan, ?_, hall⟩
  have hslot : p.fields.map FieldPlan.slot
      = mixedMessage.fields.map fun f => memberName f.builderVarName := by
    rw [← hall.2.1, List.map_map]
    rfl
  rw [hslot]
  decide +kernel

end Plan

end ValueGen
