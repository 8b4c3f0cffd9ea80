import ValueGen.Code.Printer
import ValueGen.Proofs.Plan.Declarations

/-!
This module contains which local names of generated functions capture a name that the body of the
function looks up in its package or among its imports. The constructor of a value captures the name
of the type if it is also the name of a parameter, the getter of a builder captures the name of the
message that a repeated field refers to if that is the name of the receiver, and nothing else is
captured.
-/

namespace ValueGen

namespace Code

/--
The names that a type is looked up by: its own name, and the names of imported packages.
-/
def TypeExpr.globals : TypeExpr → List Text
  | .name id => [id]
  | .pointer t => t.globals
  | .slice t => t.globals
  | .applied path _ arg => qualifier path :: arg.globals

mutual

/--
The names that an expression looks up outside of its function: those of called functions, types and
imported packages. Any other name stands for a receiver or a parameter.
-/
def Expr.globals : Expr → List Text
  | .name _ | .literal _ => []
  | .qualified path _ => [qualifier path]
  | .member e _ => e.globals
  | .applied f arg => f.globals ++ arg.globals
  | .call (.name id) args => id :: Expr.globalsOf args
  | .call f args => f.globals ++ Expr.globalsOf args
  | .spread e => e.globals
  | .record type entries => type :: Expr.globalsOf entries
  | .entry _ value => value.globals

/--
The names that expressions look up outside of their function.
-/
def Expr.globalsOf : List Expr → List Text
  | [] => []
  | e :: es => e.globals ++ Expr.globalsOf es

end

theorem Expr.globalsOf_eq_flatMap (es : List Expr) :
    Expr.globalsOf es = es.flatMap Expr.globals := by
  induction es with
  | nil => rfl
  | cons e es ih => rw [Expr.globalsOf, ih, List.flatMap_cons]

/--
The names that a statement looks up outside of its function.
-/
def Stmt.globals : Stmt → List Text
  | .ret e | .run e => e.globals
  | .assign place value | .fill place value => place.globals ++ value.globals

/--
The names that the body of a function looks up outside of it.
-/
def Func.globals (f : Func) : List Text := f.body.flatMap Stmt.globals

/--
The names that a function binds itself: its receiver and its parameters.
-/
def Func.locals (f : Func) : List Text := (f.receiver.toList ++ f.params).map Binding.name

/--
A name of the function's own stands where its body means another one.
-/
def Func.Captures (f : Func) (id : Text) : Prop := id ∈ f.locals ∧ id ∈ f.globals

theorem qualifier_mem (path : Text) :
    qualifier path ∈ ([("bytes" : Text), "C", "protoval"] : List Text) := by
  unfold qualifier
  split
  . next h =>
    rw [Bool.or_eq_true, beq_iff_eq, beq_iff_eq] at h
    rcases h with rfl | rfl
    all_goals decide
  . decide

end Code

open Code

namespace FieldPlan

variable {runtime id : Text} {receiver : Binding}

theorem globals_clone (e : Expr) : (clone e).globals = ("bytes" : Text) :: e.globals := by
  simp [clone, Expr.globals, Expr.globalsOf, qualifier]

theorem globals_newList (runtime : Text) (f : FieldPlan) :
    (f.newList runtime).globals = qualifier runtime :: f.elem.globals := by
  simp [newList, Expr.globals, Expr.globalsOf]

theorem mem_globals_argument {f : FieldPlan} (h : id ∈ f.argument.globals) : id = "bytes" := by
  unfold argument at h
  dsimp only at h
  split at h
  . simp [Expr.globals, Expr.globalsOf] at h
  . split at h
    . simpa [globals_clone, Expr.globals] using h
    . simp [Expr.globals] at h

theorem not_captures_accessorFunc (f : FieldPlan) (hreceiver : receiver.name = "m") :
    ¬ (f.accessorFunc runtime receiver).Captures id := by
  rintro ⟨hlocal, hglobal⟩
  have hm : id = "m" := by
    simpa [Func.locals, accessorFunc, hreceiver] using hlocal
  have hbytes : id = "bytes" := by
    unfold Func.globals accessorFunc at hglobal
    dsimp only at hglobal
    split at hglobal
    . simpa [Stmt.globals, globals_clone, Expr.globals] using hglobal
    . simp [Stmt.globals, Expr.globals] at hglobal
  rw [hm] at hbytes
  exact absurd hbytes (by decide)

theorem not_captures_setterFunc (f : FieldPlan) :
    ¬ (f.setterFunc runtime receiver).Captures id := by
  rintro ⟨-, hglobal⟩
  simp [Func.globals, setterFunc, Stmt.globals, Expr.globals] at hglobal

theorem not_captures_adderFunc (f : FieldPlan) : ¬ (f.adderFunc receiver).Captures id := by
  rintro ⟨-, hglobal⟩
  simp [Func.globals, adderFunc, Stmt.globals, Expr.globals, Expr.globalsOf] at hglobal

-- A message is the only element type that can have the name of the receiver.
theorem mem_globals_elem_iff {t : FieldType} {elem : TypeExpr}
    (helem : Plan.elemType? t = some elem) :
    ("b" : Text) ∈ elem.globals ↔ t.isMessage = true ∧ t.message = "b" := by
  unfold Plan.elemType? at helem
  split at helem
  . next hmessage =>
    cases helem
    simp [TypeExpr.globals, hmessage, eq_comm]
  . next hmessage =>
    simp only [hmessage, Bool.false_eq_true, false_and, iff_false]
    split at helem
    all_goals
      cases helem
    all_goals decide

theorem captures_getterFunc_iff {f : FieldPlan}
    (helem : Plan.elemType? f.field.type = some f.elem) (hreceiver : receiver.name = "b") :
    (f.getterFunc runtime receiver).Captures id
      ↔ id = "b" ∧ f.field.isRepeated = true ∧ f.field.type.isMessage = true
        ∧ f.field.type.message = "b" := by
  have hlocals : (f.getterFunc runtime receiver).locals = [("b" : Text)] := by
    simp [Func.locals, getterFunc, hreceiver]
  have hglobals : ("b" : Text) ∈ (f.getterFunc runtime receiver).globals
      ↔ f.field.isRepeated = true ∧ ("b" : Text) ∈ f.elem.globals := by
    unfold Func.globals getterFunc
    dsimp only
    split
    . next hrepeated =>
      have hne : ("b" : Text) ≠ qualifier runtime := by
        intro h
        have hmem := qualifier_mem runtime
        rw [← h] at hmem
        exact absurd hmem (by decide)
      simp [Stmt.globals, Expr.globals, globals_newList, hrepeated, hne]
    . next hrepeated => simp [Stmt.globals, Expr.globals, hrepeated]
  unfold Func.Captures
  rw [hlocals, List.mem_singleton, ← mem_globals_elem_iff helem]
  constructor
  . rintro ⟨rfl, h⟩
    exact ⟨rfl, hglobals.1 h⟩
  . rintro ⟨rfl, h⟩
    exact ⟨rfl, hglobals.2 h⟩

end FieldPlan

namespace Plan

variable {p : Plan} {runtime id : Text}

theorem captures_constructFunc_iff :
    (p.constructFunc runtime).Captures id
      ↔ id = p.names.value ∧ ∃ f ∈ p.fields, f.storage = id := by
  have hlocals : (p.constructFunc runtime).locals = p.fields.map FieldPlan.storage := by
    simp [Func.locals, constructFunc, Function.comp_def]
  have hglobals : (p.constructFunc runtime).globals = [p.names.value] := by
    simp [Func.globals, constructFunc, Stmt.globals, Expr.globals, Expr.globalsOf_eq_flatMap]
  unfold Func.Captures
  rw [hlocals, hglobals, List.mem_singleton, List.mem_map, and_comm]

theorem not_captures_stringFunc : ¬ p.stringFunc.Captures id := by
  rintro ⟨-, hglobal⟩
  simp [Func.globals, stringFunc, Stmt.globals, Expr.globals, Expr.globalsOf] at hglobal

-- The chain of calls looks up what its start looks up, however many fields there are.
theorem not_captures_buildStringFunc : ¬ (p.buildStringFunc runtime).Captures id := by
  have hchain (fields : List FieldPlan) (start : Expr) (hname : ∀ n, start ≠ .name n) :
      (∀ n, fields.foldl (fun e f =>
          .call (.member e "Add") [.literal f.field.accessor, .member (.name "m") f.storage])
          start ≠ .name n)
        ∧ (fields.foldl (fun e f =>
          .call (.member e "Add") [.literal f.field.accessor, .member (.name "m") f.storage])
          start).globals = start.globals := by
    induction fields generalizing start with
    | nil => exact ⟨hname, rfl⟩
    | cons f fields ih =>
      obtain ⟨hnot, hglobals⟩ := ih
        (.call (.member start "Add") [.literal f.field.accessor, .member (.name "m") f.storage])
        (by simp)
      refine ⟨hnot, ?_⟩
      rw [List.foldl_cons, hglobals]
      simp [Expr.globals, Expr.globalsOf]
  rintro ⟨hlocal, hglobal⟩
  have hm : id = "m" := by
    simpa [Func.locals, buildStringFunc, valueReceiver] using hlocal
  have hqualifier : id = qualifier runtime := by
    simp only [Func.globals, buildStringFunc, List.flatMap_cons, List.flatMap_nil,
      List.append_nil, Stmt.globals, Expr.globals, Expr.globalsOf] at hglobal
    rw [(hchain p.fields _ (by simp)).2] at hglobal
    simpa [Expr.globals, Expr.globalsOf] using hglobal
  have hmem := qualifier_mem runtime
  rw [← hqualifier, hm] at hmem
  exact absurd hmem (by decide)

theorem not_captures_newBuilderFunc : ¬ (p.newBuilderFunc runtime).Captures id := by
  rintro ⟨hlocal, -⟩
  simp [Func.locals, newBuilderFunc] at hlocal

theorem not_captures_buildFunc {name : Text} (hnames : p.names = TypeNames.ofName name) :
    ¬ p.buildFunc.Captures id := by
  rintro ⟨hlocal, hglobal⟩
  have hb : id = "b" := by
    simpa [Func.locals, buildFunc, builderReceiver] using hlocal
  subst hb
  have hcases : ("b" : Text) = p.names.construct
      ∨ ∃ f ∈ p.fields, ("b" : Text) ∈ f.argument.globals := by
    simpa [Func.globals, buildFunc, Stmt.globals, Expr.globals, Expr.globalsOf_eq_flatMap,
      List.flatMap_map] using hglobal
  rcases hcases with h | ⟨f, -, h⟩
  . rw [hnames] at h
    have hprefix : ("new" : Text) <+: ("b" : Text) := by
      rw [h]
      exact List.prefix_append _ _
    exact absurd hprefix (by decide)
  . exact absurd (FieldPlan.mem_globals_argument h) (by decide)

/--
In the code of a message, the constructor of the value captures the name of the value type if it has
a parameter of that name, and the getter of a builder captures the name of the message that a
repeated field refers to if that is `b`. No other function captures anything.
-/
theorem captures_iff_of_ofMessage (m : Message) (package : Text) (o : Options) (p : Plan)
    (h : ofMessage m package = .ok p) (g : Func) (hg : g ∈ (p.toFile o).funcs) (id : Text) :
    g.Captures id
      ↔ (g = p.constructFunc o.runtimePath ∧ id = m.name ∧ ∃ f ∈ p.fields, f.storage = m.name)
        ∨ ∃ f ∈ p.fields, g = f.getterFunc o.runtimePath p.builderReceiver ∧ id = "b"
          ∧ f.field.isRepeated = true ∧ f.field.type.isMessage = true
          ∧ f.field.type.message = "b" := by
  obtain ⟨hnames, -, helems⟩ := ofMessage_eq_ok h
  have hvalue : p.names.value = m.name := by rw [hnames]; rfl
  constructor
  . intro hcaptures
    rw [funcs_toFile] at hg
    simp only [List.mem_append, List.mem_cons, List.not_mem_nil, or_false, List.mem_map,
      List.mem_flatMap] at hg
    rcases hg with (((rfl | ⟨f, hf, rfl⟩) | rfl | rfl | rfl) | ⟨f, hf, hg⟩) | rfl
    . left
      obtain ⟨rfl, hparam⟩ := captures_constructFunc_iff.1 hcaptures
      rw [hvalue] at hparam
      exact ⟨rfl, hvalue, hparam⟩
    . exact absurd hcaptures (f.not_captures_accessorFunc rfl)
    . exact absurd hcaptures not_captures_stringFunc
    . exact absurd hcaptures not_captures_buildStringFunc
    . exact absurd hcaptures not_captures_newBuilderFunc
    . right
      unfold FieldPlan.builderFuncs at hg
      simp only [List.cons_append, List.nil_append, List.mem_cons] at hg
      rcases hg with rfl | rfl | hg
      . exact ⟨f, hf, rfl, (FieldPlan.captures_getterFunc_iff (helems f hf) rfl).1 hcaptures⟩
      . exact absurd hcaptures f.not_captures_setterFunc
      . split at hg
        . rw [List.mem_singleton] at hg
          subst hg
          exact absurd hcaptures f.not_captures_adderFunc
        . cases hg
    . exact absurd hcaptures (not_captures_buildFunc hnames)
  . rintro (⟨rfl, rfl, hparam⟩ | ⟨f, hf, rfl, hb⟩)
    . rw [captures_constructFunc_iff]
      exact ⟨hvalue.symm, hparam⟩
    . rw [FieldPlan.captures_getterFunc_iff (helems f hf) rfl]
      exact hb

/--
A message with the name of the builder's receiver that refers to itself, and a message with a field
of its own name.
-/
def receiverMessage : Message := ⟨"b", [⟨.repeated, .ofKeyword "b", "items", 1⟩]⟩

def parameterMessage : Message := ⟨"x", [⟨.required, .ofKeyword "int32", "x", 1⟩]⟩

theorem getterFunc_mem_funcs {f : FieldPlan} (hf : f ∈ p.fields) (o : Options) :
    f.getterFunc o.runtimePath p.builderReceiver ∈ (p.toFile o).funcs := by
  rw [funcs_toFile]
  refine List.mem_append_left _ (List.mem_append_right _ (List.mem_flatMap.2 ⟨f, hf, ?_⟩))
  exact List.mem_cons_self

theorem exists_plan_receiverMessage :
    ∃ p f, ofMessage receiverMessage "shapes" = .ok p ∧ f ∈ p.fields
      ∧ f.field = ⟨.repeated, .ofKeyword "b", "items", 1⟩ := by
  obtain ⟨p, hplan⟩ : ∃ p, ofMessage receiverMessage "shapes" = .ok p := ⟨_, rfl⟩
  have hfields := (ofMessage_eq_ok hplan).2.1
  have hmem : (⟨.repeated, .ofKeyword "b", "items", 1⟩ : Field) ∈ p.fields.map FieldPlan.field := by
    rw [hfields]
    exact List.mem_cons_self
  obtain ⟨f, hf, hfield⟩ := List.mem_map.1 hmem
  exact ⟨p, f, hplan, hf, hfield⟩

theorem captures_iff_receiverMessage :
    ∃ p g, ofMessage receiverMessage "shapes" = .ok p
      ∧ g ∈ (p.toFile Settings.default.toOptions).funcs ∧ ∀ id, g.Captures id ↔ id = "b" := by
  obtain ⟨p, f, hplan, hf, hfield⟩ := exists_plan_receiverMessage
  have hg := getterFunc_mem_funcs hf Settings.default.toOptions
  refine ⟨p, _, hplan, hg, ?_⟩
  intro id
  rw [captures_iff_of_ofMessage receiverMessage "shapes" _ p hplan _ hg id]
  constructor
  . rintro (⟨-, rfl, -⟩ | ⟨-, -, -, rfl, -⟩)
    all_goals rfl
  . rintro rfl
    refine .inr ⟨f, hf, rfl, rfl, ?_⟩
    rw [hfield]
    decide

/--
Both messages are planned, and yet a function of the code captures a name: the getter of the first
builder, and the constructor of the second value.
-/
theorem exists_captures :
    (∃ p g, ofMessage receiverMessage "shapes" = .ok p
        ∧ g ∈ (p.toFile Settings.default.toOptions).funcs ∧ g.Captures "b")
      ∧ ∃ p g, ofMessage parameterMessage "shapes" = .ok p
        ∧ g ∈ (p.toFile Settings.default.toOptions).funcs ∧ g.Captures "x" := by
  constructor
  . obtain ⟨p, f, hplan, hf, hfield⟩ := exists_plan_receiverMessage
    refine ⟨p, _, hplan, getterFunc_mem_funcs hf _, ?_⟩
    rw [FieldPlan.captures_getterFunc_iff ((ofMessage_eq_ok hplan).2.2 f hf) rfl, hfield]
    decide
  . refine ⟨_, _, rfl, by rw [funcs_toFile]; exact List.mem_cons_self, ?_⟩
    rw [captures_constructFunc_iff]
    exact ⟨rfl, _, List.mem_cons_self, by decide⟩

end Plan

end ValueGen
