import ValueGen.Proofs.Plan.References

/-!
This module contains what the code of a message declares: its functions in order, and its four
package-level names.
-/

namespace ValueGen

/--
The names that a file declares in its package: its types, and its functions that are no methods.
-/
def Code.File.packageNames (c : Code.File) : List Text :=
  c.structs.map Struct.name ++ (c.funcs.filter fun f => f.receiver.isNone).map Func.name

namespace Plan

theorem structs_toFile (p : Plan) (o : Options) :
    (p.toFile o).structs = [p.valueStruct o.runtimePath, p.builderStruct o.runtimePath] := by
  simp [Code.File.structs, toFile, valueDecls, builderDecls, List.filterMap_append,
    List.filterMap_map, List.filterMap_flatMap]

theorem funcs_toFile (p : Plan) (o : Options) :
    (p.toFile o).funcs
      = [p.constructFunc o.runtimePath]
        ++ p.fields.map (fun f => f.accessorFunc o.runtimePath p.valueReceiver)
        ++ [p.stringFunc, p.buildStringFunc o.runtimePath, p.newBuilderFunc o.runtimePath]
        ++ p.fields.flatMap (fun f => f.builderFuncs o.runtimePath p.builderReceiver)
        ++ [p.buildFunc] := by
  simp [Code.File.funcs, toFile, valueDecls, builderDecls, List.filterMap_append,
    List.filterMap_map, List.filterMap_flatMap]

-- Of the functions, the two constructors have no receiver.
theorem packageNames_toFile (p : Plan) (o : Options) :
    (p.toFile o).packageNames = p.names.toList := by
  have hvalue : ((p.fields.map fun f => f.accessorFunc o.runtimePath p.valueReceiver).filter
      fun g => g.receiver.isNone) = [] := by
    simp [List.filter_eq_nil_iff, FieldPlan.accessorFunc]
  have hbuilder : (p.fields.flatMap fun f =>
      (f.builderFuncs o.runtimePath p.builderReceiver).filter fun g => g.receiver.isNone) = [] := by
    rw [List.flatMap_eq_nil_iff]
    intro f _
    unfold FieldPlan.builderFuncs
    split
    all_goals simp [FieldPlan.getterFunc, FieldPlan.setterFunc, FieldPlan.adderFunc]
  unfold Code.File.packageNames
  rw [← Code.File.typeNames, typeNames_toFile, funcs_toFile]
  simp only [List.filter_append, List.filter_flatMap, hvalue, hbuilder]
  simp [constructFunc, newBuilderFunc, stringFunc, buildStringFunc, buildFunc, TypeNames.toList]

end Plan

theorem Emitter.packageNames_values {m : Message} {o : Options} {c : Code.File}
    (h : Emitter.values.emit m o = .ok (.code c)) :
    c.packageNames = (TypeNames.ofName m.name).toList := by
  unfold Emitter.values at h
  dsimp only at h
  cases hplan : Plan.ofMessage m o.package with
  | error f =>
    rw [hplan] at h
    cases h
  | ok p =>
    rw [hplan] at h
    cases h
    rw [Plan.packageNames_toFile, (Plan.ofMessage_eq_ok hplan).1]

end ValueGen
