import ShapeScript.Proofs.Compile.Parts
import ShapeScript.Proofs.Expression.Numbering

/-!
# What an expression reports about its tree

An expression knows from how many nodes it was compiled and which variables they name. Both are
exact (`NumberedExpression.statistics_exact`): `Tree.nodes` lists all nodes of a tree, and compiling
counts each of them once, also those whose code is left out in the end. Variables that are looked up
by number are found as well as by text, since an interner gives different names different numbers.
-/

namespace ShapeScript

/-! ## The nodes of a tree -/

/-- All nodes of a tree: the tree itself, then those of its parts in order. -/
def Tree.nodes (t : Tree) : List Tree :=
  t :: (t.parts .outermost).attach.flatMap fun part => part.1.1.nodes
termination_by sizeOf t
decreasing_by exact sizeOf_lt_of_mem_parts part.2

namespace Tree

theorem nodes_eq (t : Tree) (scope : Scope) :
    t.nodes = t :: (t.parts scope).flatMap fun part => part.1.nodes := by
  have through_parts : ∀ scope, (t.parts scope).flatMap (fun part => part.1.nodes) =
      ((t.parts scope).map (·.1)).flatMap nodes := fun _ => (List.flatMap_map ..).symm
  rw [nodes, through_parts, map_fst_parts scope .outermost, ← through_parts]
  congr 1
  exact (List.flatMap_subtype fun _ _ => rfl).trans (by rw [List.unattach_attach])

/-- The list has the nodes that stand in some scope of the tree. -/
theorem mem_nodes_iff {t node : Tree} (scope : Scope) :
    node ∈ t.nodes ↔ ∃ inner, t.Holds scope node inner := by
  induction t, scope using Tree.induction_on_parts with
  | step t scope ih =>
    rw [nodes_eq t scope, List.mem_cons, List.mem_flatMap]
    constructor
    · rintro (rfl | ⟨⟨part, inner⟩, hpart, mem⟩)
      · exact ⟨scope, .self⟩
      · obtain ⟨innermost, held⟩ := (ih part inner hpart).mp mem
        exact ⟨innermost, .part hpart held⟩
    · rintro ⟨inner, held⟩
      rcases Holds.cases_parts.mp held with ⟨rfl, -⟩ | ⟨⟨part, inner'⟩, hpart, held⟩
      · exact .inl rfl
      · exact .inr ⟨(part, inner'), hpart, (ih part inner' hpart).mpr ⟨inner, held⟩⟩

end Tree

/-! ## Counting and collecting -/

section
variable {registry : Registry} {scope : Scope} {t t' : Tally}

theorem Tally.nodes_enter (t : Tally) (tree : Tree) : (t.enter tree).nodes = t.nodes + 1 := by
  rw [enter]
  cases tree.named? <;> rfl

private theorem PartsCompile.nodes {parts : List (Tree × Scope)}
    (h : PartsCompile registry parts t t')
    (each : ∀ part inner, (part, inner) ∈ parts → ∀ t c t',
      part.compile registry inner t = .ok (c, t') → t'.nodes = t.nodes + part.nodes.length) :
    t'.nodes = t.nodes + (parts.flatMap fun part => part.1.nodes).length := by
  induction h with
  | nil => rfl
  | cons hc _ ih =>
    rw [ih fun part inner hpart => each part inner (.tail _ hpart), each _ _ (.head _) _ _ _ hc,
      List.flatMap_cons, List.length_append, Nat.add_assoc]

/-- Compiling counts each node once. -/
theorem Tree.nodes_of_compile (tree : Tree) (scope : Scope) {c : Compiled}
    (h : tree.compile registry scope t = .ok (c, t')) : t'.nodes = t.nodes + tree.nodes.length := by
  induction tree, scope using Tree.induction_on_parts generalizing t t' c with
  | step tree scope ih =>
    have counted := (partsCompile_of_compile h).nodes
      fun part inner hpart _ _ _ h => ih part inner hpart h
    rw [counted, Tally.nodes_enter, nodes_eq tree scope, List.length_cons]
    omega

end

/-- The number of nodes and the list of variables are those of the tree: every occurrence of a node
counts, and every variable that a node names is listed once, in ascending order. -/
structure Tree.Reports (tree : Tree) (nodeCount : Nat) (vars : List String) : Prop where
  nodeCount : nodeCount = tree.nodes.length
  ascending : vars.Pairwise (· < ·)
  vars {var} : var ∈ vars ↔ ∃ node ∈ tree.nodes, node.named? = some var

namespace Expression

variable {registry : Registry} {tree : Tree} {x y : Expression}

theorem reports_of_compile (compiled : compile registry tree = .ok x) :
    tree.Reports x.nodeCount x.vars := by
  obtain ⟨c, t, h, rfl⟩ := compile_ok.mp compiled
  have ordered : t.vars.toList.Pairwise fun var var' => compare var var' = .lt :=
    Std.TreeSet.ordered_toList
  refine ⟨?_, ordered.imp fun less => compareOfLessAndEq_eq_lt.mp less, fun {var} => ?_⟩
  · exact (tree.nodes_of_compile .outermost h).trans (Nat.zero_add _)
  · simp only [Std.TreeSet.mem_toList, tree.mem_vars_of_compile .outermost h,
      Tree.mem_nodes_iff .outermost, Tally.zero, Std.TreeSet.not_mem_emptyc, false_or]
    constructor
    · rintro ⟨node, inner, held, named⟩
      exact ⟨node, ⟨inner, held⟩, named⟩
    · rintro ⟨node, ⟨inner, held⟩, named⟩
      exact ⟨node, inner, held, named⟩

/-- The variables of a renamed tree are those of the tree, renamed. -/
theorem mem_vars_of_rename {P : Pairing} {ρ f : String → String}
    (renames : ∀ {node inner var}, tree.Holds .outermost node inner → node.named? = some var →
      P.Renames ρ f var) (compiled : compile registry tree = .ok x)
    (renamed : compile registry (tree.rename ρ) = .ok y) {name : String} :
    name ∈ y.vars ↔ ∃ var ∈ x.vars, ρ var = name := by
  obtain ⟨c, t, h, rfl⟩ := compile_ok.mp compiled
  obtain ⟨c', t', h', rfl⟩ := compile_ok.mp renamed
  have inStep : tree.CompilesInStep P ρ f registry .outermost := tree.compile_rename .outermost renames
  have ends := inStep _ _ (.zero ρ f)
  rw [h, h'] at ends
  cases ends with
  | ok _ tallies => simp only [Std.TreeSet.mem_toList, tallies.vars]

end Expression

namespace NumberedExpression

/-- Whether the expression reads or writes the variable with a number. -/
def uses (x : NumberedExpression) (n : Name) : Bool := x.byNumber.uses n.key

variable {registry : Registry} {w : Workspace} {root : NodeId} {tree : Tree}

/-- The numbers that an expression uses are those of the variables that it uses by text. -/
theorem uses_iff {x : NumberedExpression} {y : Expression} (lawful : w.interner.Lawful)
    (unfolded : w.arena.tree? w.interner root = some tree)
    (compiled : compile? registry w root = some (.ok x))
    (byText : Expression.compile registry tree = .ok y) (n : Name) :
    x.uses n = true ↔ ∃ var ∈ y.vars, w.interner.text? n = some var := by
  rw [compile?, unfolded, Option.map_some, Option.some.injEq] at compiled
  cases renamed : Expression.compile registry (tree.rename w.interner.key) with
  | error e =>
    rw [renamed] at compiled
    cases compiled
  | ok z =>
    rw [renamed] at compiled
    cases compiled
    have given : ∀ {node inner var}, tree.Holds .outermost node inner → node.named? = some var →
        ∃ m, w.interner.text? m = some var :=
      fun held named => Arena.exists_text?_of_tree? unfolded held named
    have members : ∀ {name}, name ∈ z.vars ↔ ∃ var ∈ y.vars, w.interner.key var = name :=
      Expression.mem_vars_of_rename
        (P := pairing (.byText w.interner (.fresh registry .never 0))) (f := w.interner.textOf)
        (fun held named => by
          obtain ⟨m, hm⟩ := given held named
          exact renames_of_text? lawful lawful (.refl _) _ hm) byText renamed
    have key : ∀ {var}, var ∈ y.vars → (w.interner.key var = n.key ↔ w.interner.text? n = some var) := by
      intro var mem
      obtain ⟨node, hnode, named⟩ := (Expression.reports_of_compile byText).vars.mp mem
      obtain ⟨inner, held⟩ := (Tree.mem_nodes_iff .outermost).mp hnode
      obtain ⟨m, hm⟩ := given held named
      have found := (lawful var m).mpr hm
      rw [Interner.key_of_find? found, Name.key_inj, ← lawful var n, found, Option.some.injEq]
    rw [uses, Expression.uses, List.contains_iff_mem, members]
    exact exists_congr fun var => and_congr_right key

/-- What an expression reports about its tree is exact: how many nodes there are, each counted as
often as it occurs, and in ascending order the variables that they name. By number an expression
reports the same about the tree that is unfolded from an arena, and it uses exactly the numbers of
these variables. -/
theorem statistics_exact (registry : Registry) (tree : Tree) (y : Expression)
    (compiled : Expression.compile registry tree = .ok y) :
    tree.Reports y.nodeCount y.vars ∧
    (∀ var, y.uses var = true ↔ ∃ node ∈ tree.nodes, node.named? = some var) ∧
    ∀ (w : Workspace) (root : NodeId) (x : NumberedExpression), w.interner.Lawful →
      w.arena.tree? w.interner root = some tree → compile? registry w root = some (.ok x) →
        tree.Reports x.nodeCount x.vars ∧
        ∀ n, x.uses n = true ↔
          ∃ node ∈ tree.nodes, ∃ var, node.named? = some var ∧ w.interner.text? n = some var := by
  have reports := Expression.reports_of_compile compiled
  refine ⟨reports, fun var => ?_, fun w root x lawful unfolded byNumber => ⟨?_, fun n => ?_⟩⟩
  · rw [Expression.uses, List.contains_iff_mem, reports.vars]
  · have realizes := compile?_realizes registry lawful root
    rw [byNumber, unfolded, Option.map_some, compiled] at realizes
    cases realizes with
    | some same =>
      cases same with
      | ok same =>
        rw [same.nodeCount, same.vars]
        exact reports
  · rw [uses_iff lawful unfolded byNumber compiled]
    constructor
    · rintro ⟨var, mem, given⟩
      obtain ⟨node, hnode, named⟩ := reports.vars.mp mem
      exact ⟨node, hnode, var, named, given⟩
    · rintro ⟨node, hnode, var, named, given⟩
      exact ⟨var, reports.vars.mpr ⟨node, hnode, named⟩, given⟩

/-- One node is the target of the assignment and the statement that the break leaves out, and it
counts twice; so does the bound, three times. The text of the bound is no variable. -/
theorem statistics_exact_of_shared_nodes :
    let w : Workspace :=
      ⟨⟨#[⟨.ident ⟨1⟩, ⟨0, 1⟩⟩, ⟨.breakOut, ⟨1, 2⟩⟩, ⟨.literal ⟨2⟩, ⟨2, 3⟩⟩,
          ⟨.assign .assign ⟨0⟩ ⟨2⟩, ⟨3, 4⟩⟩, ⟨.block ⟨0, 3⟩, ⟨4, 5⟩⟩,
          ⟨.countedLoop ⟨3⟩ ⟨2⟩ ⟨2⟩ ⟨4⟩, ⟨5, 6⟩⟩],
        #[⟨3⟩, ⟨1⟩, ⟨0⟩], #[]⟩, Interner.fresh.internAll ["x", "2", "i"]⟩
    let bound : Tree := .literal ⟨2, 3⟩ "2"
    let tree : Tree := .countedLoop ⟨5, 6⟩ "i" bound bound (.block ⟨4, 5⟩
      [.assign ⟨3, 4⟩ .assign (.ident ⟨0, 1⟩ "x") bound, .breakOut ⟨1, 2⟩, .ident ⟨0, 1⟩ "x"])
    ∃ x y, Expression.compile (.empty 0) tree = .ok y ∧ w.interner.Lawful ∧
      w.arena.tree? w.interner ⟨5⟩ = some tree ∧ compile? (.empty 0) w ⟨5⟩ = some (.ok x) ∧
      tree.Reports y.nodeCount y.vars ∧ tree.Reports x.nodeCount x.vars ∧ x.nodeCount = 9 ∧
      x.uses ⟨1⟩ = true ∧ x.uses ⟨2⟩ = false ∧
      ∃ node ∈ tree.nodes, ∃ var, node.named? = some var ∧ w.interner.text? ⟨1⟩ = some var := by
  intro w bound tree
  have lawful : w.interner.Lawful := Interner.lawful_fresh.internAll ["x", "2", "i"]
  have unfolded : w.arena.tree? w.interner ⟨5⟩ = some tree := by
    cbv
  have accepted : (Expression.compile (.empty 0) tree).isOk = true := by
    subst tree bound
    decide +kernel
  have report : (compile? (.empty 0) w ⟨5⟩).map (·.map fun x => (x.nodeCount, x.uses ⟨1⟩, x.uses ⟨2⟩)) =
      some (.ok (9, true, false)) := by
    subst w
    decide +kernel
  cases compiled : Expression.compile (.empty 0) tree with
  | error e =>
    rw [compiled] at accepted
    cases accepted
  | ok y =>
    obtain ⟨reports, -, numbered⟩ := statistics_exact (.empty 0) tree y compiled
    cases byNumber : compile? (.empty 0) w ⟨5⟩ with
    | none =>
      rw [byNumber] at report
      cases report
    | some r =>
      cases r with
      | error e =>
        rw [byNumber] at report
        cases report
      | ok x =>
        rw [byNumber] at report
        obtain ⟨count, used, unused⟩ : x.nodeCount = 9 ∧ x.uses ⟨1⟩ = true ∧ x.uses ⟨2⟩ = false := by
          simpa [Except.map] using report
        obtain ⟨reports', uses⟩ := numbered w ⟨5⟩ x lawful unfolded byNumber
        exact ⟨x, y, rfl, lawful, unfolded, rfl, reports, reports', count, used, unused,
          (uses ⟨1⟩).mp used⟩

end NumberedExpression
end ShapeScript
