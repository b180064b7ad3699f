import ShapeScript.Proofs.Syntax.Parts
import ShapeScript.Proofs.Function.Extension
import ShapeScript.Proofs.Compile.Success

/-!
# Compiling a node compiles its parts

Whatever the node, a successful compilation counts it, notes the variable that it names itself, and
then compiles all its parts in order (`Tree.partsCompile_of_compile`): also statements behind an
exit, branches that are not taken, targets and arguments passed by reference. So all nodes of a tree
that compiles do compile (`Tree.Holds.compilesIn`), and the variables noted are those that its nodes
name (`Tree.mem_vars_of_compile`).
-/

namespace ShapeScript

open Compilation Compile

/-- The trees compile one after the other, from the first tally to the second. -/
inductive PartsCompile (registry : Registry) : List (Tree × Scope) → Tally → Tally → Prop where
  | nil {t} : PartsCompile registry [] t t
  | cons {part scope c rest t t₁ t'} : part.compile registry scope t = .ok (c, t₁) →
    PartsCompile registry rest t₁ t' → PartsCompile registry ((part, scope) :: rest) t t'

/-- The tally when the compilation of a node has begun. -/
def Tally.enter (t : Tally) (tree : Tree) : Tally :=
  tree.named?.elim t.addNode t.addNode.addVar

variable {registry : Registry} {scope : Scope} {t t₁ t' : Tally}

namespace PartsCompile

theorem append {parts parts' : List (Tree × Scope)} (h : PartsCompile registry parts t t₁)
    (h' : PartsCompile registry parts' t₁ t') : PartsCompile registry (parts ++ parts') t t' := by
  induction h with
  | nil => exact h'
  | cons hpart _ ih => exact .cons hpart (ih h')

theorem single {part : Tree} {c : Compiled} (h : part.compile registry scope t = .ok (c, t')) :
    PartsCompile registry [(part, scope)] t t' := .cons h .nil

/-- An assignable node and an argument passed by reference are noted as identifiers are. -/
theorem ident {part : Tree} {var : String} (h : part.var? = some var) (scope : Scope) :
    PartsCompile registry [(part, scope)] t (t.addNode.addVar var) := by
  rw [Tree.eq_ident_of_var? h]
  exact .single rfl

theorem optional {o : Option Tree} {r : Option Compiled}
    (h : compileOptional registry scope o t = .ok (r, t')) :
    PartsCompile registry (o.toList.map (·, scope)) t t' := by
  rcases compileOptional_ok.mp h with ⟨rfl, -, rfl⟩ | ⟨tree, c, rfl, -, hc⟩
  · exact .nil
  · exact .single hc

theorem statements {stmts : List Tree} {exited : Bool} {codes : List Compiled}
    (h : compileStatements registry scope exited stmts t = .ok (codes, t')) :
    PartsCompile registry (stmts.map (·, scope)) t t' := by
  induction stmts generalizing exited codes t with
  | nil =>
    simp only [compileStatements, pure_ok] at h
    rw [h.2]
    exact .nil
  | cons stmt rest ih =>
    simp only [compileStatements, bind_ok, pure_ok] at h
    obtain ⟨c, t₁, hc, more, t₂, hmore, -, rfl⟩ := h
    exact .cons hc (ih hmore)

/-- All arguments are compiled, as there is a parameter for each of them. -/
theorem arguments {function : String} {position : Nat} {args : List Tree} {params : List ParamKind}
    {passed : List Run.Argument} (lengths : args.length = params.length)
    (h : compileArguments registry scope function position args params t = .ok (passed, t')) :
    PartsCompile registry (args.map (·, scope)) t t' := by
  induction args generalizing position params passed t with
  | nil =>
    simp only [compileArguments, pure_ok] at h
    rw [h.2]
    exact .nil
  | cons arg rest ih =>
    cases params with
    | nil => cases lengths
    | cons kind params =>
      cases kind with
      | value =>
        simp only [compileArguments, bind_ok, pure_ok] at h
        obtain ⟨c, _, hc, more, _, hmore, -, rfl⟩ := h
        exact .cons hc (ih (Nat.succ.inj lengths) hmore)
      | reference =>
        rw [compileArguments] at h
        cases named : arg.var? with
        | none => simp only [named, refuse_ok] at h
        | some var =>
          simp only [named, bind_ok, countNode_ok, touch_ok, pure_ok] at h
          obtain ⟨_, _, rfl, _, _, rfl, more, _, hmore, -, rfl⟩ := h
          exact (ident named scope).append (ih (Nat.succ.inj lengths) hmore)

theorem arms {arms : List Arm} {position : Nat} {taken taken' : TakenCases} {bodies : List Code}
    (h : compileArms registry scope position taken arms t = .ok ((taken', bodies), t')) :
    PartsCompile registry ((arms.flatMap Arm.parts).map (·, scope)) t t' := by
  induction arms generalizing position taken bodies t with
  | nil =>
    simp only [compileArms, pure_ok] at h
    rw [h.2]
    exact .nil
  | cons arm rest ih =>
    obtain ⟨label, body⟩ := arm
    obtain ⟨_, _, _, _, _, _, _, hlabel, -, -, hbody, hrest, -⟩ := compileArms_cons_ok.mp h
    exact .cons hlabel (.cons hbody (ih hrest))

end PartsCompile

namespace Tree

/-- A successful compilation enters the node and compiles its parts in order. -/
theorem partsCompile_of_compile {tree : Tree} {c : Compiled}
    (h : tree.compile registry scope t = .ok (c, t')) :
    PartsCompile registry (tree.parts scope) (t.enter tree) t' := by
  cases tree with
  | literal span text =>
    simp only [compile, bind_ok, countNode_ok] at h
    obtain ⟨_, _, rfl, h⟩ := h
    cases parsed : Literal.parse? text with
    | none => simp only [parsed, refuse_ok] at h
    | some v =>
      simp only [parsed, pure_ok] at h
      rw [← h.2]
      exact .nil
  | ident span var =>
    simp only [compile, bind_ok, countNode_ok, touch_ok, pure_ok] at h
    obtain ⟨_, _, rfl, _, _, rfl, -, rfl⟩ := h
    exact .nil
  | assign span op target value =>
    simp only [compile, bind_ok, countNode_ok, target_ok, pure_ok] at h
    obtain ⟨_, _, rfl, var, _, ⟨named, rfl⟩, rhs, _, hrhs, -, rfl⟩ := h
    exact (PartsCompile.ident named scope).append (.single hrhs)
  | unary span op operand =>
    simp only [compile, bind_ok, countNode_ok] at h
    obtain ⟨_, _, rfl, h⟩ := h
    cases effect : op.effect with
    | compute f =>
      simp only [effect, bind_ok, pure_ok] at h
      obtain ⟨operand', _, hoperand, -, rfl⟩ := h
      exact .single hoperand
    | step delta =>
      simp only [effect, bind_ok, target_ok, pure_ok] at h
      obtain ⟨var, _, ⟨named, rfl⟩, -, rfl⟩ := h
      exact .ident named scope
  | suffix span op operand =>
    simp only [compile, bind_ok, countNode_ok] at h
    obtain ⟨_, _, rfl, h⟩ := h
    cases effect : op.effect with
    | compute f =>
      simp only [effect, bind_ok, pure_ok] at h
      obtain ⟨operand', _, hoperand, -, rfl⟩ := h
      exact .single hoperand
    | step delta =>
      simp only [effect, bind_ok, target_ok, pure_ok] at h
      obtain ⟨var, _, ⟨named, rfl⟩, -, rfl⟩ := h
      exact .ident named scope
  | binary span op left right =>
    simp only [compile, bind_ok, countNode_ok, pure_ok] at h
    obtain ⟨_, _, rfl, l, _, hl, r, _, hr, -, rfl⟩ := h
    exact .cons hl (.single hr)
  | ternary span cond whenTrue whenFalse =>
    simp only [compile, bind_ok, countNode_ok, pure_ok] at h
    obtain ⟨_, _, rfl, test, _, htest, yes, _, hyes, no, _, hno, -, rfl⟩ := h
    exact .cons htest (.cons hyes (.single hno))
  | call span function args =>
    simp only [compile, bind_ok, countNode_ok, pure_ok] at h
    obtain ⟨_, _, rfl, ⟨id, params⟩, _, hcallee, arguments, _, harguments, -, rfl⟩ := h
    obtain ⟨resolved, rfl, rfl⟩ := callee_ok.mp hcallee
    exact .arguments (Registry.length_params_of_resolve? resolved).symm harguments
  | block span stmts =>
    simp only [compile, bind_ok, countNode_ok, pure_ok] at h
    obtain ⟨_, _, rfl, codes, _, hcodes, -, rfl⟩ := h
    exact .statements hcodes
  | statement span inner =>
    simp only [compile, bind_ok, countNode_ok] at h
    obtain ⟨_, _, rfl, h⟩ := h
    exact .single h
  | branch span cond whenTrue whenFalse =>
    simp only [compile, bind_ok, countNode_ok, pure_ok] at h
    obtain ⟨_, _, rfl, test, _, htest, yes, _, hyes, no, _, hno, -, rfl⟩ := h
    exact .cons htest (.cons hyes (.optional hno))
  | whileLoop span cond body =>
    simp only [compile, bind_ok, countNode_ok, pure_ok] at h
    obtain ⟨_, _, rfl, test, _, htest, lap, _, hlap, -, rfl⟩ := h
    exact .cons htest (.single hlap)
  | doWhile span body cond =>
    simp only [compile, bind_ok, countNode_ok, pure_ok] at h
    obtain ⟨_, _, rfl, lap, _, hlap, test, _, htest, -, rfl⟩ := h
    exact .cons hlap (.single htest)
  | forLoop span init cond update body =>
    simp only [compile, bind_ok, countNode_ok, pure_ok] at h
    obtain ⟨_, _, rfl, start, _, hstart, test, _, htest, next, _, hnext, lap, _, hlap, -, rfl⟩ := h
    rw [parts, List.map_append, List.map_append]
    exact (((PartsCompile.optional hstart).append (.optional htest)).append
      (.optional hnext)).append (.single hlap)
  | countedLoop span counter first last body =>
    simp only [compile, bind_ok, countNode_ok, touch_ok, pure_ok] at h
    obtain ⟨_, _, rfl, _, _, rfl, low, _, hlow, high, _, hhigh, lap, _, hlap, -, rfl⟩ := h
    exact .cons hlow (.cons hhigh (.single hlap))
  | switch span scrutinee arms fallback =>
    simp only [compile, bind_ok, countNode_ok, pure_ok] at h
    obtain ⟨_, _, rfl, value, _, hvalue, ⟨taken, bodies⟩, _, harms, last, _, hlast, -, rfl⟩ := h
    rw [parts, List.map_append]
    exact .cons hvalue ((PartsCompile.arms harms).append (.optional hlast))
  | breakOut span =>
    simp only [compile, bind_ok, countNode_ok, pure_ok] at h
    obtain ⟨_, _, rfl, -, rfl⟩ := h
    exact .nil
  | continueOn span =>
    simp only [compile, bind_ok, countNode_ok, pure_ok] at h
    obtain ⟨_, _, rfl, -, rfl⟩ := h
    exact .nil
  | returnWith span value =>
    simp only [compile, bind_ok, countNode_ok, pure_ok] at h
    obtain ⟨_, _, rfl, result, _, hresult, -, rfl⟩ := h
    exact .optional hresult

/-- The tree compiles in the scope, whatever has been noted before. -/
def CompilesIn (registry : Registry) (tree : Tree) (scope : Scope) : Prop :=
  ∃ t c t', tree.compile registry scope t = .ok (c, t')

/-- Wherever it stands among the parts of a program, the tree compiles to this. -/
def CompilesTo (registry : Registry) (scope : Scope) (tree : Tree) (c : Compiled) : Prop :=
  ∃ t t', tree.compile registry scope t = .ok (c, t')

/-- The tree compiles in some scope. -/
def Compiles (registry : Registry) (tree : Tree) : Prop :=
  ∃ scope, tree.CompilesIn registry scope

end Tree

/-! ## Nodes -/

theorem PartsCompile.compilesIn_of_mem {parts : List (Tree × Scope)} {part : Tree}
    (h : PartsCompile registry parts t t') (hpart : (part, scope) ∈ parts) :
    part.CompilesIn registry scope := by
  induction h with
  | nil => cases hpart
  | cons hc _ ih =>
    rcases List.mem_cons.mp hpart with heq | hrest
    · cases heq
      exact ⟨_, _, _, hc⟩
    · exact ih hrest

namespace Tree

theorem CompilesIn.part {tree part : Tree} {inner : Scope}
    (hpart : (part, inner) ∈ tree.parts scope) (h : tree.CompilesIn registry scope) :
    part.CompilesIn registry inner := by
  obtain ⟨_, _, _, hc⟩ := h
  exact (partsCompile_of_compile hc).compilesIn_of_mem hpart

theorem Holds.compilesIn {tree node : Tree} {inner : Scope} (held : tree.Holds scope node inner)
    (h : tree.CompilesIn registry scope) : node.CompilesIn registry inner := by
  induction held with
  | self => exact h
  | part hpart _ ih => exact ih (h.part hpart)

/-- The scope decides what a part is compiled to, but not which parts there are. -/
theorem Compiles.part {tree part : Tree} {inner : Scope} (hpart : (part, inner) ∈ tree.parts scope)
    (h : tree.Compiles registry) : part.Compiles registry := by
  obtain ⟨scope', h⟩ := h
  have mem : part ∈ (tree.parts scope').map (·.1) := by
    rw [map_fst_parts scope' scope]
    exact List.mem_map.mpr ⟨_, hpart, rfl⟩
  obtain ⟨⟨_, inner'⟩, hpart', rfl⟩ := List.mem_map.mp mem
  exact ⟨inner', h.part hpart'⟩

end Tree

theorem Tally.mem_vars_addVar {var name : String} :
    name ∈ (t.addVar var).vars ↔ var = name ∨ name ∈ t.vars := by
  rw [addVar, Std.TreeSet.mem_insert, Std.LawfulEqCmp.compare_eq_iff_eq]

theorem Tally.mem_vars_enter {tree : Tree} {name : String} :
    name ∈ (t.enter tree).vars ↔ tree.named? = some name ∨ name ∈ t.vars := by
  rw [enter]
  cases tree.named? with
  | none => simp [addNode]
  | some var => simp [mem_vars_addVar, addNode]

private theorem PartsCompile.mem_vars {parts : List (Tree × Scope)} {name : String}
    (h : PartsCompile registry parts t t')
    (each : ∀ part inner, (part, inner) ∈ parts → ∀ t c t',
      part.compile registry inner t = .ok (c, t') → (name ∈ t'.vars ↔ name ∈ t.vars ∨
        ∃ node innermost, part.Holds inner node innermost ∧ node.named? = some name)) :
    name ∈ t'.vars ↔ name ∈ t.vars ∨
      ∃ part ∈ parts, ∃ node inner, part.1.Holds part.2 node inner ∧ node.named? = some name := by
  induction h with
  | nil => simp
  | cons hc _ ih =>
    rw [ih fun part inner hpart => each part inner (.tail _ hpart), each _ _ (.head _) _ _ _ hc]
    simp only [List.mem_cons, or_and_right, exists_or, exists_eq_left, or_assoc]

/-- The variables noted are those that were noted before and those that a node names. -/
theorem Tree.mem_vars_of_compile (tree : Tree) (scope : Scope) {c : Compiled} {name : String}
    (h : tree.compile registry scope t = .ok (c, t')) :
    name ∈ t'.vars ↔ name ∈ t.vars ∨
      ∃ node inner, tree.Holds scope node inner ∧ node.named? = some name := by
  induction tree, scope using Tree.induction_on_parts generalizing t t' c with
  | step tree scope ih =>
    have each : ∀ part inner, (part, inner) ∈ tree.parts scope → ∀ t c t',
        part.compile registry inner t = .ok (c, t') → (name ∈ t'.vars ↔ name ∈ t.vars ∨
          ∃ node innermost, part.Holds inner node innermost ∧ node.named? = some name) :=
      fun part inner hpart _ _ _ h => ih part inner hpart h
    rw [(partsCompile_of_compile h).mem_vars each, Tally.mem_vars_enter, or_comm (b := _ ∈ _),
      or_assoc]
    apply or_congr_right
    constructor
    · rintro (named | ⟨⟨part, inner⟩, hpart, node, innermost, held, named⟩)
      · exact ⟨tree, scope, .self, named⟩
      · exact ⟨node, innermost, .part hpart held, named⟩
    · rintro ⟨node, inner, held, named⟩
      rcases Holds.cases_parts.mp held with ⟨rfl, -⟩ | ⟨part, hpart, held⟩
      · exact .inl named
      · exact .inr ⟨part, hpart, node, inner, held, named⟩

end ShapeScript
