import ValueGen.Proofs.Plan.Layout
import ValueGen.Value.Accumulator

/-!
This module contains whether the code of a message copies the bytes that it passes across the
boundary of a value. Byte slices are places in a memory, so that two slices at the same place show
the same bytes, also after a change. What a field holds alone is copied. The slices in a list are
not: a list of its own is made of them, but its elements stay at their places.
-/

namespace ValueGen

namespace Code

/--
The bytes at each place.
-/
abbrev Memory := List Text

/--
What a member holds that has to do with bytes. A slice is the place of its bytes, if it is not
absent.
-/
inductive Held where
  /-- A slice of bytes. -/
  | slice (place : Option Nat)
  /-- A list of slices of bytes. -/
  | list (slices : List (Option Nat))
  /-- The accumulator of such a list. -/
  | accumulator (a : Accumulator (Option Nat))

namespace Held

/--
The slices that can be reached.
-/
def slices : Held → List (Option Nat)
  | .slice place => [place]
  | .list slices => slices
  | .accumulator a => a.build

/--
The bytes of the slices that can be reached.
-/
def contents (mem : Memory) (v : Held) : List (Option Text) :=
  v.slices.map fun s => s.bind (mem[·]?)

/--
All slices that can be reached are in the memory.
-/
def IsIn (mem : Memory) (v : Held) : Prop := ∀ i, some i ∈ v.slices → i < mem.length

/--
The type of what is held. The path of the runtime package is `runtime`.
-/
def type (runtime : Text) : Held → TypeExpr
  | .slice _ => .slice (.name "byte")
  | .list _ => .applied runtime "List" (.slice (.name "byte"))
  | .accumulator _ => .pointer (.applied runtime "ListBuilder" (.slice (.name "byte")))

end Held

/--
Evaluate an expression that reads members, copies bytes and builds lists, where `vars` are the
members of the variables. A copy is at a place of its own, and an absent slice stays absent.
-/
def Expr.eval? (vars : Text → Text → Option Held) (mem : Memory) : Expr → Option (Held × Memory)
  | .member (.name x) id => (vars x id).map fun v => (v, mem)
  | .call (.qualified path id) [e] =>
    if path = "bytes" ∧ id = "Clone" then
      match e.eval? vars mem with
      | some (.slice none, mem) => some (.slice none, mem)
      | some (.slice (some i), mem) =>
        (mem[i]?).map fun bs => (.slice (some mem.length), mem ++ [bs])
      | _ => none
    else
      none
  | .call (.member e id) [] =>
    if id = "Build" then
      match e.eval? vars mem with
      | some (.accumulator a, mem) => some (.list a.build, mem)
      | _ => none
    else
      none
  | _ => none

/--
The value of the expression has the contents of what the member `id` of `x` holds, which is of type
`t`, and all its slices are at places that were not in the memory before.
-/
def Expr.Copies (e : Expr) (runtime x id : Text) (t : TypeExpr) : Prop :=
  ∀ (vars : Text → Text → Option Held) (mem : Memory) (v : Held),
    vars x id = some v → v.type runtime = t → v.IsIn mem →
    ∃ w more, e.eval? vars mem = some (w, mem ++ more)
      ∧ w.contents (mem ++ more) = v.contents mem
      ∧ ∀ i, some i ∈ w.slices → mem.length ≤ i

/--
The value of the expression is made of the same slices as what the member `id` of `x` holds, which
is of type `t`.
-/
def Expr.Shares (e : Expr) (runtime x id : Text) (t : TypeExpr) : Prop :=
  ∀ (vars : Text → Text → Option Held) (mem : Memory) (v : Held),
    vars x id = some v → v.type runtime = t →
    ∃ w, e.eval? vars mem = some (w, mem) ∧ w.slices = v.slices

variable {runtime x id : Text} {t : TypeExpr}

theorem Expr.copies_clone :
    (FieldPlan.clone (.member (.name x) id)).Copies runtime x id (.slice (.name "byte")) := by
  intro vars mem v hv htype hin
  cases v with
  | slice place =>
    cases place with
    | none =>
      refine ⟨.slice none, [], ?_, rfl, by simp [Held.slices]⟩
      simp [FieldPlan.clone, Expr.eval?, hv]
    | some i =>
      have hi : i < mem.length := hin i (by simp [Held.slices])
      refine ⟨.slice (some mem.length), [mem[i]], ?_, ?_, by simp [Held.slices]⟩
      . simp [FieldPlan.clone, Expr.eval?, hv, List.getElem?_eq_getElem hi]
      . simp [Held.contents, Held.slices, List.getElem?_eq_getElem hi]
  | list slices => cases htype
  | accumulator a => cases htype

theorem Expr.shares_member : (Expr.member (.name x) id).Shares runtime x id t := by
  intro vars mem v hv _
  exact ⟨v, by simp [Expr.eval?, hv], rfl⟩

theorem Expr.shares_build :
    (Expr.call (.member (.member (.name x) id) "Build") []).Shares runtime x id
      (.pointer (.applied runtime "ListBuilder" (.slice (.name "byte")))) := by
  intro vars mem v hv htype
  cases v with
  | slice place => cases htype
  | list slices => cases htype
  | accumulator a => exact ⟨.list a.build, by simp [Expr.eval?, hv], rfl⟩

/--
A copy keeps its contents, whatever is written to the places that were in the memory before.
-/
theorem Expr.Copies.contents_set {e : Expr} (h : e.Copies runtime x id t)
    {vars : Text → Text → Option Held} {mem : Memory} {v : Held} (hv : vars x id = some v)
    (htype : v.type runtime = t) (hin : v.IsIn mem) :
    ∃ w more, e.eval? vars mem = some (w, mem ++ more)
      ∧ ∀ i < mem.length, ∀ bs, w.contents ((mem ++ more).set i bs) = v.contents mem := by
  obtain ⟨w, more, heval, hcontents, hnew⟩ := h vars mem v hv htype hin
  refine ⟨w, more, heval, fun i hi bs => ?_⟩
  rw [← hcontents]
  unfold Held.contents
  rw [List.map_inj_left]
  intro s hs
  cases s with
  | none => rfl
  | some j =>
    have hj := hnew j hs
    rw [Option.bind_some, Option.bind_some, List.getElem?_set_ne (by omega)]

theorem Expr.not_copies_of_shares {e : Expr} (h : e.Shares runtime x id t) {v : Held}
    (htype : v.type runtime = t) (hslices : v.slices = [some 0]) :
    ¬ e.Copies runtime x id t := by
  intro hcopies
  have hin : v.IsIn [[]] := by simp [Held.IsIn, hslices]
  obtain ⟨w, hw, hshared⟩ := h (fun _ _ => some v) [[]] v rfl htype
  obtain ⟨w', more, hw', -, hnew⟩ := hcopies (fun _ _ => some v) [[]] v rfl htype hin
  rw [hw, Option.some.injEq, Prod.mk.injEq] at hw'
  rw [← hw'.1, hshared, hslices] at hnew
  exact absurd (hnew 0 (by simp)) (by decide)

end Code

open Code

namespace FieldPlan

/--
What the accessor of a field returns.
-/
def returned (f : FieldPlan) : Expr :=
  if f.isBytes then clone (.member (.name "m") f.storage) else .member (.name "m") f.storage

theorem body_accessorFunc (f : FieldPlan) (runtime : Text) (receiver : Binding) :
    (f.accessorFunc runtime receiver).body = [.ret f.returned] := rfl

variable {f : FieldPlan}

theorem copies_of_single (runtime : Text) (hf : f.IsMapped)
    (hbytes : f.field.type.primitive = .bytes) (hsingle : f.field.isRepeated = false) :
    f.returned.Copies runtime "m" f.storage (f.valueType runtime)
      ∧ f.argument.Copies runtime "b" f.slot (f.slotType runtime) := by
  have hcloned : f.isBytes = true := f.isBytes_iff.2 ⟨hsingle, hbytes⟩
  simp only [returned, argument, valueType, slotType, hcloned, hsingle, if_true,
    Bool.false_eq_true, if_false, elem_of_bytes hf hbytes]
  exact ⟨Expr.copies_clone, Expr.copies_clone⟩

theorem shares_of_repeated (runtime : Text) (hf : f.IsMapped)
    (hbytes : f.field.type.primitive = .bytes) (hrepeated : f.field.isRepeated = true) :
    f.returned.Shares runtime "m" f.storage (f.valueType runtime)
      ∧ f.argument.Shares runtime "b" f.slot (f.slotType runtime) := by
  have hkept : f.isBytes = false := by
    unfold isBytes
    rw [hrepeated]
    rfl
  simp only [returned, argument, slotType, hkept, hrepeated, if_true, Bool.false_eq_true, if_false,
    elem_of_bytes hf hbytes]
  exact ⟨Expr.shares_member, Expr.shares_build⟩

theorem not_copies_of_repeated (runtime : Text) (hf : f.IsMapped)
    (hbytes : f.field.type.primitive = .bytes) (hrepeated : f.field.isRepeated = true) :
    ¬ f.returned.Copies runtime "m" f.storage (f.valueType runtime)
      ∧ ¬ f.argument.Copies runtime "b" f.slot (f.slotType runtime) := by
  obtain ⟨hreturned, hargument⟩ := shares_of_repeated runtime hf hbytes hrepeated
  have hvalue : (Held.list [some 0]).type runtime = f.valueType runtime := by
    rw [valueType, if_pos hrepeated, elem_of_bytes hf hbytes]
    rfl
  have hslot : (Held.accumulator (.holding [some 0])).type runtime = f.slotType runtime := by
    rw [slotType, if_pos hrepeated, elem_of_bytes hf hbytes]
    rfl
  exact ⟨Expr.not_copies_of_shares hreturned hvalue rfl,
    Expr.not_copies_of_shares hargument hslot rfl⟩

end FieldPlan

namespace Plan

/--
In the code `c`, the accessor of the field `f` returns `returned`, and the constructor of the value
is called with `passed` at the place `i`.
-/
def Passes (p : Plan) (c : File) (i : Nat) (f : FieldPlan) (returned passed : Expr) : Prop :=
  ∃ (accessor build : Func) (args : List Expr),
    c.func? (some p.valueReceiver.type, f.accessor) = some accessor
      ∧ accessor.body = [.ret returned]
      ∧ c.func? (some p.builderReceiver.type, "Build") = some build
      ∧ build.body = [.ret (.call (.name p.names.construct) args)]
      ∧ args[i]? = some passed

theorem passes_toFile {p : Plan} (h : p.IsDistinct) {i : Nat} {f : FieldPlan}
    (hi : p.fields[i]? = some f) (o : Options) :
    p.Passes (p.toFile o) i f f.returned f.argument := by
  have haccessor : f.accessorFunc o.runtimePath p.valueReceiver ∈ (p.toFile o).funcs := by
    simp only [funcs_toFile, List.mem_append]
    exact .inl (.inl (.inl (.inr (List.mem_map_of_mem (List.mem_of_getElem? hi)))))
  have hbuild : p.buildFunc ∈ (p.toFile o).funcs := by simp [funcs_toFile]
  refine ⟨_, _, p.fields.map FieldPlan.argument, func?_toFile h haccessor,
    f.body_accessorFunc _ _, func?_toFile h hbuild, rfl, ?_⟩
  rw [List.getElem?_map, hi, Option.map_some]

/--
In the code of a message, the accessor of a bytes field and the method that passes it to the
constructor copy its bytes exactly if the field is not repeated. If it is, the list that they pass
on is made of the very slices that the value or the accumulator holds.
-/
theorem copies_iff_of_ofMessage (m : Message) (package : Text) (o : Options) (p : Plan)
    (h : ofMessage m package = .ok p) :
    p.fields.map FieldPlan.field = m.fields
      ∧ ∀ (i : Nat) (f : FieldPlan), p.fields[i]? = some f → f.field.type.primitive = .bytes →
        ∃ returned passed, p.Passes (p.toFile o) i f returned passed
          ∧ (returned.Copies o.runtimePath "m" f.storage (f.valueType o.runtimePath)
            ↔ f.field.isRepeated = false)
          ∧ (passed.Copies o.runtimePath "b" f.slot (f.slotType o.runtimePath)
            ↔ f.field.isRepeated = false)
          ∧ (f.field.isRepeated = true →
            returned.Shares o.runtimePath "m" f.storage (f.valueType o.runtimePath)
              ∧ passed.Shares o.runtimePath "b" f.slot (f.slotType o.runtimePath)) := by
  obtain ⟨-, hfields, hall⟩ := ofMessage_eq_ok h
  refine ⟨hfields, ?_⟩
  intro i f hi hbytes
  have hmapped : f.IsMapped := hall f (List.mem_of_getElem? hi)
  refine ⟨f.returned, f.argument, passes_toFile (isDistinct_of_ofMessage h) hi o, ?_⟩
  cases hrepeated : f.field.isRepeated with
  | false =>
    obtain ⟨hreturned, hargument⟩ :=
      FieldPlan.copies_of_single o.runtimePath hmapped hbytes hrepeated
    simp [hreturned, hargument]
  | true =>
    obtain ⟨hreturned, hargument⟩ :=
      FieldPlan.not_copies_of_repeated o.runtimePath hmapped hbytes hrepeated
    have hshares := FieldPlan.shares_of_repeated o.runtimePath hmapped hbytes hrepeated
    simp [hreturned, hargument, hshares]

/--
A message with a bytes field of each kind.
-/
def bytesMessage : Message :=
  ⟨"Shape", [⟨.optional, .ofKeyword "bytes", "data", 1⟩,
    ⟨.repeated, .ofKeyword "bytes", "chunks", 2⟩]⟩

theorem exists_plan_bytesMessage :
    ∃ (p : Plan) (data chunks : FieldPlan), ofMessage bytesMessage "shapes" = .ok p
      ∧ p.fields = [data, chunks] ∧ data.field = ⟨.optional, ⟨.bytes, []⟩, "data", 1⟩
      ∧ chunks.field = ⟨.repeated, ⟨.bytes, []⟩, "chunks", 2⟩ := by
  obtain ⟨p, hplan⟩ : ∃ p, ofMessage bytesMessage "shapes" = .ok p := ⟨_, rfl⟩
  have hfields : p.fields.map FieldPlan.field = bytesMessage.fields := (ofMessage_eq_ok hplan).2.1
  obtain ⟨data, rest, hdata, hfield, hrest⟩ := List.map_eq_cons_iff.1 hfields
  obtain ⟨chunks, rest, rfl, hchunks, hnone⟩ := List.map_eq_cons_iff.1 hrest
  rw [List.map_eq_nil_iff.1 hnone] at hdata
  exact ⟨p, data, chunks, hplan, hdata, hfield, hchunks⟩

theorem copies_iff_of_ofMessage_bytes :
    ∃ (p : Plan) (data chunks : FieldPlan) (o : Options),
      ofMessage bytesMessage "shapes" = .ok p ∧ p.fields = [data, chunks]
      ∧ (∃ returned passed, p.Passes (p.toFile o) 0 data returned passed
        ∧ returned.Copies o.runtimePath "m" data.storage (data.valueType o.runtimePath)
        ∧ passed.Copies o.runtimePath "b" data.slot (data.slotType o.runtimePath))
      ∧ ∃ returned passed, p.Passes (p.toFile o) 1 chunks returned passed
        ∧ returned.Shares o.runtimePath "m" chunks.storage (chunks.valueType o.runtimePath)
        ∧ passed.Shares o.runtimePath "b" chunks.slot (chunks.slotType o.runtimePath) := by
  obtain ⟨p, data, chunks, hplan, hfields, hdata, hchunks⟩ := exists_plan_bytesMessage
  have hall := (copies_iff_of_ofMessage bytesMessage "shapes" Settings.default.toOptions p hplan).2
  refine ⟨p, data, chunks, Settings.default.toOptions, hplan, hfields, ?_, ?_⟩
  . obtain ⟨returned, passed, hpasses, hreturned, hpassed, -⟩ :=
      hall 0 data (by rw [hfields]; rfl) (by rw [hdata])
    have hsingle : data.field.isRepeated = false := by
      rw [hdata]
      rfl
    exact ⟨returned, passed, hpasses, hreturned.2 hsingle, hpassed.2 hsingle⟩
  . obtain ⟨returned, passed, hpasses, -, -, hshares⟩ :=
      hall 1 chunks (by rw [hfields]; rfl) (by rw [hchunks])
    have hrepeated : chunks.field.isRepeated = true := by
      rw [hchunks]
      rfl
    exact ⟨returned, passed, hpasses, hshares hrepeated⟩

/--
Not all bytes are copied: the accessor of a repeated field returns slices that the value holds, and
the value is made of slices that its builder was given.
-/
theorem exists_not_copies :
    ∃ (p : Plan) (f : FieldPlan) (returned passed : Expr) (o : Options),
      ofMessage bytesMessage "shapes" = .ok p ∧ p.fields[1]? = some f
      ∧ f.field = ⟨.repeated, ⟨.bytes, []⟩, "chunks", 2⟩
      ∧ p.Passes (p.toFile o) 1 f returned passed
      ∧ ¬ returned.Copies o.runtimePath "m" f.storage (f.valueType o.runtimePath)
      ∧ ¬ passed.Copies o.runtimePath "b" f.slot (f.slotType o.runtimePath) := by
  obtain ⟨p, data, chunks, hplan, hfields, -, hchunks⟩ := exists_plan_bytesMessage
  have hi : p.fields[1]? = some chunks := by
    rw [hfields]
    rfl
  have hmapped : chunks.IsMapped :=
    (ofMessage_eq_ok hplan).2.2 chunks (List.mem_of_getElem? hi)
  have hbytes : chunks.field.type.primitive = .bytes := by rw [hchunks]
  have hrepeated : chunks.field.isRepeated = true := by
    rw [hchunks]
    rfl
  exact ⟨p, chunks, chunks.returned, chunks.argument, Settings.default.toOptions, hplan, hi,
    hchunks, passes_toFile (isDistinct_of_ofMessage hplan) hi _,
    FieldPlan.not_copies_of_repeated _ hmapped hbytes hrepeated⟩

end Plan

end ValueGen
