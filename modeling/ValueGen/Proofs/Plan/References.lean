import ValueGen.Plan.Code
import ValueGen.Proofs.Plan.Names

/-!
This module contains which types of its own package the code of a message refers to: the value type
of the message, its builder, and the value types of the messages that its fields hold.
-/

namespace ValueGen

namespace Code

/--
The names of the types that a type points to. All types of the package itself are used by pointers,
and no others are.
-/
def TypeExpr.pointees : TypeExpr → List Text
  | .name _ => []
  | .pointer (.name id) => [id]
  | .pointer t => t.pointees
  | .slice t => t.pointees
  | .applied _ _ t => t.pointees

mutual

/--
The types that an expression mentions. A new struct is a pointer to its type.
-/
def Expr.types : Expr → List TypeExpr
  | .name _ | .qualified _ _ | .literal _ => []
  | .member e _ => e.types
  | .applied f arg => arg :: f.types
  | .call f args => f.types ++ Expr.typesOf args
  | .spread e => e.types
  | .record type entries => .pointer (.name type) :: Expr.typesOf entries
  | .entry _ value => value.types

/--
The types that expressions mention.
-/
def Expr.typesOf : List Expr → List TypeExpr
  | [] => []
  | e :: es => e.types ++ Expr.typesOf es

end

theorem Expr.typesOf_eq_flatMap (es : List Expr) : Expr.typesOf es = es.flatMap Expr.types := by
  induction es with
  | nil => rfl
  | cons e es ih => rw [Expr.typesOf, ih, List.flatMap_cons]

/--
The types that a statement mentions.
-/
def Stmt.types : Stmt → List TypeExpr
  | .ret e | .run e => e.types
  | .assign place value | .fill place value => place.types ++ value.types

/--
The types that a declaration mentions in its body.
-/
def Decl.bodyTypes : Decl → List TypeExpr
  | .func f => f.body.flatMap Stmt.types
  | _ => []

/--
The names of the types that a declaration refers to by pointers.
-/
def Decl.pointees (d : Decl) : List Text := (d.types ++ d.bodyTypes).flatMap TypeExpr.pointees

/--
The names of the types that a file refers to by pointers.
-/
def File.pointees (c : File) : List Text := c.decls.flatMap Decl.pointees

/--
The names of the types that a file declares.
-/
def File.typeNames (c : File) : List Text := c.structs.map Struct.name

theorem Decl.mem_pointees_struct (s : Struct) (id : Text) :
    id ∈ (Decl.struct s).pointees ↔ ∃ b ∈ s.fields, id ∈ b.type.pointees := by
  simp [Decl.pointees, Decl.types, Decl.bodyTypes, List.mem_flatMap]

theorem Decl.mem_pointees_func (g : Func) (id : Text) :
    id ∈ (Decl.func g).pointees
      ↔ (id ∈ g.result.pointees ∨ ∃ b ∈ g.receiver.toList ++ g.params, id ∈ b.type.pointees)
        ∨ ∃ t ∈ g.body.flatMap Stmt.types, id ∈ t.pointees := by
  simp only [Decl.pointees, Decl.types, Decl.bodyTypes, List.flatMap_append, List.flatMap_cons,
    List.mem_append, List.mem_flatMap, List.mem_map, exists_exists_and_eq_and]

end Code

open Code

namespace FieldPlan

@[simp]
theorem pointees_valueType (runtime : Text) (p : FieldPlan) :
    (p.valueType runtime).pointees = p.elem.pointees := by
  unfold valueType
  split
  . simp [TypeExpr.pointees]
  . rfl

@[simp]
theorem pointees_slotType (runtime : Text) (p : FieldPlan) :
    (p.slotType runtime).pointees = p.elem.pointees := by
  unfold slotType
  split
  . simp [TypeExpr.pointees]
  . rfl

@[simp]
theorem types_argument (p : FieldPlan) : p.argument.types = [] := by
  unfold argument clone
  split
  . simp [Expr.types, Expr.typesOf]
  . split
    all_goals simp [Expr.types, Expr.typesOf]

@[simp]
theorem types_newList (runtime : Text) (p : FieldPlan) : (p.newList runtime).types = [p.elem] := by
  simp [newList, Expr.types, Expr.typesOf]

end FieldPlan

namespace Plan

variable {p : Plan} {f : FieldPlan} {runtime id : Text}

/--
What the code of a plan may refer to: the two types that it declares, and the types of the elements
of its fields.
-/
def Refers (p : Plan) (id : Text) : Prop :=
  id = p.names.value ∨ id = p.names.builder ∨ ∃ f ∈ p.fields, id ∈ f.elem.pointees

theorem refers_of_mem_elem (hf : f ∈ p.fields) (h : id ∈ f.elem.pointees) : p.Refers id :=
  .inr (.inr ⟨f, hf, h⟩)

theorem refers_of_mem_accessorFunc (hf : f ∈ p.fields)
    (h : id ∈ (Decl.func (f.accessorFunc runtime p.valueReceiver)).pointees) : p.Refers id := by
  have hbody : (f.accessorFunc runtime p.valueReceiver).body.flatMap Stmt.types = [] := by
    unfold FieldPlan.accessorFunc FieldPlan.clone
    dsimp only
    split
    all_goals simp [Stmt.types, Expr.types, Expr.typesOf]
  have hcases : id ∈ f.elem.pointees ∨ id = p.names.value := by
    rw [Decl.mem_pointees_func, hbody] at h
    simpa [FieldPlan.accessorFunc, valueReceiver, TypeExpr.pointees] using h
  rcases hcases with h | h
  . exact refers_of_mem_elem hf h
  . exact .inl h

theorem refers_of_mem_getterFunc (hf : f ∈ p.fields)
    (h : id ∈ (Decl.func (f.getterFunc runtime p.builderReceiver)).pointees) : p.Refers id := by
  have hbody : ∀ t ∈ (f.getterFunc runtime p.builderReceiver).body.flatMap Stmt.types,
      t = f.elem := by
    unfold FieldPlan.getterFunc
    dsimp only
    split
    all_goals simp [Stmt.types, Expr.types]
  rw [Decl.mem_pointees_func] at h
  rcases h with h | ⟨t, ht, h⟩
  . have hcases : id ∈ f.elem.pointees ∨ id = p.names.builder := by
      simpa [FieldPlan.getterFunc, builderReceiver, TypeExpr.pointees] using h
    rcases hcases with h | h
    . exact refers_of_mem_elem hf h
    . exact .inr (.inl h)
  . rw [hbody t ht] at h
    exact refers_of_mem_elem hf h

theorem refers_of_mem_builderFuncs (hf : f ∈ p.fields) {g : Func}
    (hg : g ∈ f.builderFuncs runtime p.builderReceiver) (h : id ∈ (Decl.func g).pointees) :
    p.Refers id := by
  have hor (h : id = p.names.builder ∨ id ∈ f.elem.pointees) : p.Refers id :=
    h.elim (fun h => .inr (.inl h)) (refers_of_mem_elem hf)
  unfold FieldPlan.builderFuncs at hg
  simp only [List.cons_append, List.nil_append, List.mem_cons] at hg
  rcases hg with rfl | rfl | hg
  . exact refers_of_mem_getterFunc hf h
  . apply hor
    simpa [Decl.mem_pointees_func, FieldPlan.setterFunc, builderReceiver, TypeExpr.pointees,
      Stmt.types, Expr.types] using h
  . split at hg
    . rw [List.mem_singleton] at hg
      subst hg
      apply hor
      simpa [Decl.mem_pointees_func, FieldPlan.adderFunc, builderReceiver, TypeExpr.pointees,
        Stmt.types, Expr.types, Expr.typesOf] using h
    . cases hg

-- The chain of calls mentions no type, however many fields there are.
theorem refers_of_mem_buildStringFunc
    (h : id ∈ (Decl.func (p.buildStringFunc runtime)).pointees) : p.Refers id := by
  have hchain (fields : List FieldPlan) (start : Expr) (hstart : start.types = []) :
      (fields.foldl (fun e f =>
        .call (.member e "Add") [.literal f.field.accessor, .member (.name "m") f.storage])
        start).types = [] := by
    induction fields generalizing start with
    | nil => exact hstart
    | cons f fields ih =>
      apply ih
      simp [Expr.types, Expr.typesOf, hstart]
  have hbody : (p.buildStringFunc runtime).body.flatMap Stmt.types = [] := by
    have hstart : (Expr.call (.qualified runtime "NewToStringHelper")
        [.literal p.names.value]).types = [] := by
      simp [Expr.types, Expr.typesOf]
    simp [buildStringFunc, Stmt.types, Expr.types, Expr.typesOf, hchain _ _ hstart]
  rw [Decl.mem_pointees_func, hbody] at h
  left
  simpa [buildStringFunc, valueReceiver, TypeExpr.pointees] using h

theorem refers_of_mem_valueDecls {d : Decl} (hd : d ∈ p.valueDecls runtime)
    (h : id ∈ d.pointees) : p.Refers id := by
  unfold valueDecls at hd
  simp only [List.cons_append, List.nil_append, List.mem_cons, List.mem_append, List.mem_map,
    List.not_mem_nil, or_false] at hd
  rcases hd with rfl | rfl | ⟨f, hf, rfl⟩ | rfl | rfl
  . rw [Decl.mem_pointees_struct] at h
    right; right
    simpa [valueStruct, or_and_right, exists_or, TypeExpr.pointees] using h
  . have hcases : (id = p.names.value ∨ ∃ f ∈ p.fields, id ∈ f.elem.pointees)
        ∨ id = p.names.value := by
      rw [Decl.mem_pointees_func] at h
      simpa [constructFunc, TypeExpr.pointees, Stmt.types, Expr.types, Expr.typesOf_eq_flatMap]
        using h
    rcases hcases with (h | h) | h
    . exact .inl h
    . exact .inr (.inr h)
    . exact .inl h
  . exact refers_of_mem_accessorFunc hf h
  . rw [Decl.mem_pointees_func] at h
    left
    simpa [stringFunc, valueReceiver, TypeExpr.pointees, Stmt.types, Expr.types, Expr.typesOf]
      using h
  . exact refers_of_mem_buildStringFunc h

theorem refers_of_mem_builderDecls {d : Decl} (hd : d ∈ p.builderDecls runtime)
    (h : id ∈ d.pointees) : p.Refers id := by
  unfold builderDecls at hd
  simp only [List.cons_append, List.nil_append, List.mem_cons, List.mem_append, List.mem_flatMap,
    List.mem_map, List.not_mem_nil, or_false] at hd
  rcases hd with rfl | rfl | ⟨f, hf, g, hg, rfl⟩ | rfl
  . rw [Decl.mem_pointees_struct] at h
    right; right
    simpa [builderStruct] using h
  . have hcases : id = p.names.builder ∨ id = p.names.builder
        ∨ ∃ f ∈ p.fields, f.field.isRepeated = true ∧ id ∈ f.elem.pointees := by
      rw [Decl.mem_pointees_func] at h
      simpa [newBuilderFunc, TypeExpr.pointees, Stmt.types, Expr.types, Expr.typesOf_eq_flatMap,
        List.flatMap_map, and_assoc] using h
    rcases hcases with h | h | ⟨f, hf, -, h⟩
    . exact .inr (.inl h)
    . exact .inr (.inl h)
    . exact refers_of_mem_elem hf h
  . exact refers_of_mem_builderFuncs hf hg h
  . have hcases : id = p.names.value ∨ id = p.names.builder := by
      rw [Decl.mem_pointees_func] at h
      simpa [buildFunc, builderReceiver, TypeExpr.pointees, Stmt.types, Expr.types,
        Expr.typesOf_eq_flatMap, List.flatMap_map] using h
    rcases hcases with h | h
    . exact .inl h
    . exact .inr (.inl h)

theorem mem_pointees_toFile_iff (p : Plan) (o : Options) (id : Text) :
    id ∈ (p.toFile o).pointees ↔ p.Refers id := by
  unfold File.pointees
  rw [List.mem_flatMap]
  constructor
  . rintro ⟨d, hd, h⟩
    rcases List.mem_append.1 hd with hd | hd
    . exact refers_of_mem_valueDecls hd h
    . exact refers_of_mem_builderDecls hd h
  . rintro (rfl | rfl | ⟨f, hf, h⟩)
    . refine ⟨.func (p.constructFunc o.runtimePath), by simp [toFile, valueDecls], ?_⟩
      simp [Decl.mem_pointees_func, constructFunc, TypeExpr.pointees]
    . refine ⟨.func (p.newBuilderFunc o.runtimePath), by simp [toFile, builderDecls], ?_⟩
      simp [Decl.mem_pointees_func, newBuilderFunc, TypeExpr.pointees]
    . refine ⟨.struct (p.valueStruct o.runtimePath), by simp [toFile, valueDecls], ?_⟩
      rw [Decl.mem_pointees_struct]
      exact ⟨⟨f.storage, f.valueType o.runtimePath⟩,
        List.mem_append_left _ (List.mem_map_of_mem hf), by simpa using h⟩

theorem typeNames_toFile (p : Plan) (o : Options) :
    (p.toFile o).typeNames = [p.names.value, p.names.builder] := by
  simp [File.typeNames, File.structs, toFile, valueDecls, builderDecls, valueStruct, builderStruct,
    List.filterMap_append, List.filterMap_map, List.filterMap_flatMap]

/-! The plan of a message. -/

theorem pointees_of_elemType? {t : FieldType} {elem : TypeExpr} (h : elemType? t = some elem) :
    elem.pointees = if t.isMessage then [t.message] else [] := by
  unfold elemType? at h
  split at h
  . next hmessage =>
    cases h
    simp [hmessage, TypeExpr.pointees]
  . next hmessage =>
    rw [if_neg hmessage]
    split at h
    all_goals
      cases h
    all_goals rfl

/--
The plans are those of the fields, each with the type that the type of its field is mapped to.
-/
def ArePlansOf (ps : List FieldPlan) (fields : List Field) : Prop :=
  ps.map FieldPlan.field = fields ∧ ∀ p ∈ ps, elemType? p.field.type = some p.elem

theorem arePlansOf_of_planFields {message : Text} {s : Scopes} {fields : List Field}
    {ps : List FieldPlan} (h : planFields message s fields = .ok ps) : ArePlansOf ps fields := by
  induction fields generalizing s ps with
  | nil =>
    cases h
    exact ⟨rfl, by simp⟩
  | cons f fields ih =>
    unfold planFields FieldPlan.ofField at h
    cases helem : elemType? f.type with
    | none =>
      rw [helem] at h
      cases h
    | some elem =>
      simp only [helem, bind, Except.bind] at h
      cases hdeclare : s.declareField ⟨f, elem⟩ with
      | error cause =>
        rw [hdeclare] at h
        cases h
      | ok t =>
        cases hrest : planFields message t fields with
        | error cause => simp [hdeclare, hrest] at h
        | ok rest =>
          simp only [hdeclare, hrest, pure, Except.pure, Except.ok.injEq] at h
          subst h
          obtain ⟨hmap, helems⟩ := ih hrest
          refine ⟨by rw [List.map_cons, hmap], ?_⟩
          rw [List.forall_mem_cons]
          exact ⟨helem, helems⟩

theorem ofMessage_eq_ok {m : Message} {package : Text} {p : Plan}
    (h : ofMessage m package = .ok p) :
    p.names = TypeNames.ofName m.name ∧ ArePlansOf p.fields m.fields := by
  rw [ofMessage_eq (isValid_of_ofMessage_ok h) (hasTypeNames_of_ofMessage_ok h)] at h
  cases hfields : planFields m.name (Scopes.initial (TypeNames.ofName m.name)) m.fields with
  | error cause =>
    rw [hfields] at h
    cases h
  | ok fields =>
    rw [hfields] at h
    cases h
    exact ⟨rfl, arePlansOf_of_planFields hfields⟩

/--
The code of a message refers to its value type, to its builder, and to each message that is the type
of a field, and to no others.
-/
theorem mem_pointees_iff_of_ofMessage {m : Message} {package : Text} {p : Plan}
    (h : ofMessage m package = .ok p) (o : Options) (id : Text) :
    id ∈ (p.toFile o).pointees
      ↔ id = m.name ∨ id = m.name ++ "Builder"
        ∨ ∃ f ∈ m.fields, f.type.isMessage = true ∧ f.type.message = id := by
  obtain ⟨hnames, hfields, helems⟩ := ofMessage_eq_ok h
  have helem : ∀ fp ∈ p.fields, id ∈ fp.elem.pointees
      ↔ fp.field.type.isMessage = true ∧ fp.field.type.message = id := by
    intro fp hfp
    rw [pointees_of_elemType? (helems fp hfp)]
    cases fp.field.type.isMessage with
    | true => simp [eq_comm]
    | false => simp
  rw [mem_pointees_toFile_iff, Refers, hnames, ← hfields]
  simp only [List.mem_map, exists_exists_and_eq_and]
  refine or_congr_right (or_congr_right (exists_congr fun fp => ?_))
  exact and_congr_right fun hfp => helem fp hfp

theorem typeNames_of_ofMessage {m : Message} {package : Text} {p : Plan}
    (h : ofMessage m package = .ok p) (o : Options) :
    (p.toFile o).typeNames = [m.name, m.name ++ "Builder"] := by
  rw [typeNames_toFile, (ofMessage_eq_ok h).1]
  rfl

end Plan

end ValueGen
